import StructUnfold.Proofs.Text.Space
import StructUnfold.Text.Line

/-!
# Lines of a text

Lines that are parted by line feeds are read back one by one, as long as none is empty and none
holds a character that ends lines.

* `IsLine`: a text is such a line; `Unbroken`: it may be empty as well.
* `unlines`: lines parted by line feeds.
* `lines_unlines`: they are read back.
-/

namespace StructUnfold.Text

/-- A text can be a line: it is not empty and holds no character that ends lines. -/
structure IsLine (l : List Char) : Prop where
  /-- It is not empty. -/
  ne_nil : l ≠ []
  /-- It holds no line feed. -/
  no_feed : '\n' ∉ l
  /-- It holds no carriage return. -/
  no_return : '\r' ∉ l

/-- A word is a line, for what ends lines is white space. -/
theorem isLine_of_isWord {w : List Char} (hw : IsWord w) : IsLine w := by
  refine ⟨hw.ne_nil, fun hmem => ?_, fun hmem => ?_⟩
  · cases hw.no_space _ hmem
  · cases hw.no_space _ hmem

/-- A text holds no character that ends lines. -/
def Unbroken (s : List Char) : Prop :=
  ∀ c ∈ s, c ≠ '\n' ∧ c ≠ '\r'

instance : DecidablePred Unbroken := fun s =>
  List.decidableBAll _ s

theorem IsLine.unbroken {l : List Char} (h : IsLine l) : Unbroken l := by
  refine fun c hc => ⟨?_, ?_⟩
  · rintro rfl
    exact h.no_feed hc
  · rintro rfl
    exact h.no_return hc

theorem Unbroken.isLine {l : List Char} (h : Unbroken l) (hne : l ≠ []) : IsLine l :=
  ⟨hne, fun hmem => (h _ hmem).1 rfl, fun hmem => (h _ hmem).2 rfl⟩

theorem Unbroken.append {s t : List Char} (hs : Unbroken s) (ht : Unbroken t) :
    Unbroken (s ++ t) :=
  fun c hc => (List.mem_append.1 hc).elim (hs c) (ht c)

/-- Spaces hold no character that ends lines. -/
theorem unbroken_replicate_space (n : Nat) : Unbroken (List.replicate n ' ') := by
  intro c hc
  rw [(List.mem_replicate.1 hc).2]
  decide

/-- Words that are joined by spaces hold no other characters than these and the spaces. -/
theorem Unbroken.joinWords {ws : List (List Char)} (h : ∀ w ∈ ws, Unbroken w) :
    Unbroken (Text.joinWords ws) := by
  cases ws with
  | nil => exact fun c hc => absurd hc List.not_mem_nil
  | cons w ws =>
    intro c hc
    rw [joinWords_cons, List.mem_append, spaced, List.mem_flatMap] at hc
    rcases hc with hc | ⟨v, hv, hc⟩
    · exact h w List.mem_cons_self c hc
    · rcases List.mem_cons.1 hc with rfl | hc
      · decide
      · exact h v (List.mem_cons_of_mem _ hv) c hc

/-- Lines that are joined by spaces are a line. -/
theorem isLine_joinWords {ls : List (List Char)} (hne : ls ≠ []) (h : ∀ l ∈ ls, IsLine l) :
    IsLine (joinWords ls) := by
  refine (Unbroken.joinWords fun l hl => (h l hl).unbroken).isLine ?_
  obtain ⟨l, ls, rfl⟩ := List.exists_cons_of_ne_nil hne
  rw [joinWords_cons]
  simp [(h l List.mem_cons_self).ne_nil]

/-- Lines, parted by line feeds. -/
def unlines (ls : List (List Char)) : List Char :=
  List.intercalate ['\n'] ls

/-- Each line but the first stands behind a line feed. -/
theorem unlines_cons (l : List Char) (ls : List (List Char)) :
    unlines (l :: ls) = l ++ ls.flatMap ('\n' :: ·) := by
  rw [unlines, intercalate_cons]
  rfl

theorem dropReturn_of_not_mem {l : List Char} (h : '\r' ∉ l) : dropReturn l = l := by
  rw [dropReturn]
  split
  · rename_i front hfront
    refine absurd ?_ h
    rw [← List.mem_reverse, hfront]
    exact List.mem_cons_self
  · rfl

theorem linesOfPieces_eq_self {ls : List (List Char)} (h : ∀ l ∈ ls, IsLine l) :
    linesOfPieces ls = ls := by
  induction ls with
  | nil => rfl
  | cons l ls ih =>
    have hl := h l List.mem_cons_self
    cases ls with
    | nil => rw [linesOfPieces, if_neg (by simpa using hl.ne_nil)]
    | cons k ls =>
      rw [linesOfPieces, dropReturn_of_not_mem hl.no_return,
        ih fun m hm => h m (List.mem_cons_of_mem _ hm)]
      exact List.cons_ne_nil _ _

/-- Lines are read back one by one. -/
theorem lines_unlines {ls : List (List Char)} (h : ∀ l ∈ ls, IsLine l) :
    lines (unlines ls) = ls := by
  rcases List.eq_nil_or_concat ls with rfl | ⟨_, _, hne⟩
  · rfl
  · have hls : ls ≠ [] := by simp [hne]
    have hpieces : ∀ l ∈ ls, '\n' ∉ l := fun l hl => (h l hl).no_feed
    rw [lines, splitLines, unlines, List.splitOn_intercalate '\n' hpieces hls,
      linesOfPieces_eq_self h]

/-- One line is read back. -/
theorem lines_of_isLine {l : List Char} (h : IsLine l) : lines l = [l] := by
  have hone : unlines [l] = l := by simp [unlines]
  rw [← hone, lines_unlines (by simpa using h), hone]

end StructUnfold.Text
