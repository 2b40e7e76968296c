import Mathlib.Data.List.TakeWhile
import StructUnfold.Proofs.Document.LineText

/-!
# The word at a place

A place on a line leads to a cut in the text of that line. If there is a letter on one of its two
sides, a run of letters touches the cut, and only one that cannot be made longer: with letters on
both sides it goes on from one side to the other. This run is the word at the place. The range of
the word leads back to it by way of offsets.

The class of letters is any one in which nothing that ends a line is. So a run of letters does not
reach beyond the text of its line.

## Main definitions

* `Document.IsCutAt`: the cut to which a place leads.
* `Document.touching`: the letters on both sides of a cut.
* `Document.IsRunAt`: a run of letters, as long as possible, that touches an offset.

## Main results

* `Document.exists_isCutAt`: there is a cut for each place on a line that there is.
* `Document.IsRunAt.eq_touching`: a run that touches a cut is made of the letters on both sides.
* `Document.wordOf?_isRunAt`: when there is a word at a place, and which one.
-/

namespace StructUnfold

open Text IndexedText

namespace Document

variable {letter isAlphanumeric : Char → Bool} {d : Document} {p : Position} {o : Nat}
  {s before after front left run right back : List Char}

/-! ### The cut of a place -/

/-- A place leads to a cut in the text of its line: what is before the line, both sides of the cut
and what is behind the text of the line. -/
structure IsCutAt (d : Document) (p : Position) (front before after back : List Char) : Prop where
  /-- The text is put together of the four. -/
  parts : d.text = front ++ (before ++ after) ++ back
  /-- Both sides are the text of the line. -/
  line : d.lineText? p.line = some (before ++ after)
  /-- The line starts where the text does or behind a line feed. -/
  begun : front = [] ∨ front.getLast? = some '\n'
  /-- Its text goes on to the end of the text or to what ends the line. -/
  ended : back = [] ∨ back.head? = some '\n' ∨ back.head? = some '\r'
  /-- It is cut at the offset of the place, or at the end of its text if that comes first. -/
  offset : ∃ offset, d.offsetOf? p = some offset ∧
    byteSize (front ++ before) = min offset (byteSize (front ++ (before ++ after)))

/-- Behind the text of a line there are carriage returns, and then the line ends. -/
def EndsLine (d : Document) (l : Nat) (front text back : List Char) : Prop :=
  ∃ returns rest, back = List.replicate returns '\r' ++ rest ∧
    LineAt d.text l front (text ++ List.replicate returns '\r') rest

/-- The text of a line is cut at the offset of a place, which may lie behind it, among the carriage
returns. -/
theorem exists_offset_of_cut {returns : Nat} {rest : List Char}
    (hat : LineAt d.text p.line front (before ++ after ++ List.replicate returns '\r') rest)
    (hcut : cutAt [] p.character (before ++ after) = (before.reverse, after)) :
    ∃ offset, d.offsetOf? p = some offset ∧
      byteSize (front ++ before) = min offset (byteSize (front ++ (before ++ after))) := by
  rcases Nat.le_total p.character (units (before ++ after)) with hwithin | hbehind
  · have hreach := cutAt_append_of_le_units [] _ (List.replicate returns '\r') hwithin
    rw [hcut] at hreach
    rw [List.append_assoc] at hat hreach
    refine ⟨_, hat.offsetOf?_eq (congrArg Prod.fst hreach), (Nat.min_eq_left ?_).symm⟩
    rw [← List.append_assoc]
    exact byteSize_le_append _ after
  · -- All of the text of the line is before the cut, and some of the returns are before the offset.
    have hall := cutAt_append_of_le [] _ [] hbehind
    rw [List.append_nil, hcut, List.append_nil] at hall
    obtain rfl : after = [] := congrArg Prod.snd hall
    rw [List.append_nil] at hat hbehind ⊢
    obtain ⟨part, others, hparts, hcut', -⟩ :=
      exists_cutAt_eq before.reverse (List.replicate returns '\r') (p.character - units before)
    have hreach := cutAt_append_of_le [] before (List.replicate returns '\r') hbehind
    rw [List.append_nil, hcut'] at hreach
    rw [hparts, ← List.append_assoc] at hat hreach
    refine ⟨_, hat.offsetOf?_eq (by rw [hreach, List.reverse_append]), (Nat.min_eq_right ?_).symm⟩
    rw [← List.append_assoc]
    exact byteSize_le_append _ part

/-- A place on a line that there is leads to the cut at its column. -/
theorem exists_isCutAt (h : p.line < d.lineCount) :
    ∃ front before after back, d.IsCutAt p front before after back ∧
      d.EndsLine p.line front (before ++ after) back ∧
      cutAt [] p.character (before ++ after) = (before.reverse, after) := by
  obtain ⟨text, returns, htext, hline, -⟩ := exists_line h
  obtain ⟨front, rest, hat⟩ := exists_lineAt hline
  obtain ⟨before, after, rfl, hcut, -⟩ := exists_cutAt_eq [] text p.character
  rw [List.append_nil] at hcut
  refine ⟨front, before, after, List.replicate returns '\r' ++ rest, ⟨?_, htext, hat.begun, ?_,
    exists_offset_of_cut hat hcut⟩, ⟨returns, rest, rfl, hat⟩, hcut⟩
  · rw [hat.parts]
    simp
  · cases returns with
    | zero =>
      rw [List.replicate_zero, List.nil_append]
      exact hat.ended.imp_right .inl
    | succ returns => exact .inr (.inr rfl)

/-! ### Runs of letters -/

/-- The letters on both sides of a cut, as far as they go on. -/
def touching (letter : Char → Bool) (before after : List Char) : List Char :=
  (before.reverse.takeWhile letter).reverse ++ after.takeWhile letter

/-- A text is cut into three, the middle one a run of letters that touches an offset and that cannot
be made longer on either side. -/
structure IsRunAt (letter : Char → Bool) (s : List Char) (o : Nat) (left run right : List Char) :
    Prop where
  /-- The text is put together of the three. -/
  parts : s = left ++ run ++ right
  /-- The run is not empty. -/
  ne_nil : run ≠ []
  /-- It is made of letters. -/
  letters : ∀ c ∈ run, letter c = true
  /-- There is no letter right before it. -/
  begun : ∀ c, left.getLast? = some c → letter c = false
  /-- There is no letter right behind it. -/
  ended : ∀ c, right.head? = some c → letter c = false
  /-- It starts at the offset or before it. -/
  start_le : byteSize left ≤ o
  /-- It ends at the offset or behind it. -/
  le_stop : o ≤ byteSize (left ++ run)

/-- What is cut off from the letters makes no difference. -/
theorem touching_append (hfront : ∀ c, front.getLast? = some c → letter c = false)
    (hback : ∀ c, back.head? = some c → letter c = false) :
    touching letter (front ++ before) (after ++ back) = touching letter before after := by
  rw [touching, touching, List.reverse_append, takeWhile_append_of_head? hback,
    takeWhile_append_of_head? (by rwa [List.head?_reverse])]

/-- No letter touches a cut if there is none on either side. -/
theorem touching_eq_nil_iff :
    touching letter before after = [] ↔
      (∀ c, before.getLast? = some c → letter c = false) ∧
        ∀ c, after.head? = some c → letter c = false := by
  have hnil : ∀ t : List Char,
      t.takeWhile letter = [] ↔ ∀ c, t.head? = some c → letter c = false := by
    intro t
    cases t with
    | nil => simp
    | cons c t => simp [List.takeWhile_cons]
  rw [touching, List.append_eq_nil_iff, List.reverse_eq_nil_iff, hnil, hnil, List.head?_reverse]

/-- Behind what is left of the text before a cut, what touches the cut goes on into the text behind
it. -/
theorem dropEndWhile_append_touching :
    dropEndWhile letter before ++ touching letter before after =
      before ++ after.takeWhile letter := by
  rw [touching, dropEndWhile, ← List.append_assoc, ← List.reverse_append,
    List.takeWhile_append_dropWhile, List.reverse_reverse]

/-- What touches a cut is a run between what is left of both sides. -/
theorem isRunAt_touching (hfront : ∀ c, front.getLast? = some c → letter c = false)
    (hback : ∀ c, back.head? = some c → letter c = false)
    (hne : touching letter before after ≠ []) :
    IsRunAt letter (front ++ (before ++ after) ++ back) (byteSize (front ++ before))
      (front ++ dropEndWhile letter before) (touching letter before after)
      (after.dropWhile letter ++ back) := by
  have hleft : front ++ dropEndWhile letter before ++ touching letter before after =
      front ++ before ++ after.takeWhile letter := by
    rw [List.append_assoc, dropEndWhile_append_touching, List.append_assoc]
  refine ⟨?_, hne, fun c hc => ?_, fun c hc => ?_, fun c hc => ?_, ?_, ?_⟩
  · rw [hleft, List.append_assoc (front ++ before), ← List.append_assoc (after.takeWhile letter),
      List.takeWhile_append_dropWhile]
    simp
  · rcases List.mem_append.1 hc with hc | hc
    · exact List.all_eq_true.1 List.all_takeWhile c (List.mem_reverse.1 hc)
    · exact List.all_eq_true.1 List.all_takeWhile c hc
  · rw [List.getLast?_append, Option.or_eq_some_iff] at hc
    rcases hc with hc | ⟨-, hc⟩
    · exact not_of_getLast?_dropEndWhile hc
    · exact hfront c hc
  · rw [List.head?_append, Option.or_eq_some_iff] at hc
    rcases hc with hc | ⟨-, hc⟩
    · exact not_of_head?_dropWhile hc
    · exact hback c hc
  · obtain ⟨t, ht, -⟩ := exists_dropEndWhile_append letter before
    nth_rewrite 2 [ht]
    rw [← List.append_assoc]
    exact byteSize_le_append _ t
  · rw [hleft]
    exact byteSize_le_append _ _

/-- A run that touches a cut is made of the letters on both sides. -/
theorem IsRunAt.eq_touching
    (h : IsRunAt letter (before ++ after) (byteSize before) left run right) :
    run = touching letter before after := by
  have hparts : left ++ (run ++ right) = before ++ after := by
    rw [h.parts, List.append_assoc]
  obtain ⟨m, rfl⟩ := (IndexedText.exists_between hparts).2 h.start_le
  have hparts' : (left ++ m) ++ after = (left ++ run) ++ right := by rw [h.parts]
  obtain ⟨n, hn⟩ := (IndexedText.exists_between hparts').2 h.le_stop
  -- The run is parted by the cut.
  obtain rfl : run = m ++ n := by simpa using hn
  obtain rfl : after = n ++ right := by simpa using hparts'
  have hm : m.reverse.takeWhile letter = m.reverse := List.takeWhile_eq_self_iff.2 fun c hc =>
    h.letters c (List.mem_append_left _ (List.mem_reverse.1 hc))
  have hn : n.takeWhile letter = n := List.takeWhile_eq_self_iff.2 fun c hc =>
    h.letters c (List.mem_append_right _ hc)
  rw [touching_append h.begun h.ended, touching, hm, hn, List.reverse_reverse]

/-! ### The word -/

/-- What stands before a line is no letter, and neither is what stands behind its text. -/
theorem IsCutAt.edges (hcut : d.IsCutAt p front before after back)
    (hfeed : isAlphanumeric '\n' = false) (hreturn : isAlphanumeric '\r' = false) :
    (∀ c, front.getLast? = some c → isWordLetter isAlphanumeric c = false) ∧
      ∀ c, back.head? = some c → isWordLetter isAlphanumeric c = false := by
  have hfeed' : isWordLetter isAlphanumeric '\n' = false := by rw [isWordLetter, hfeed]; rfl
  have hreturn' : isWordLetter isAlphanumeric '\r' = false := by rw [isWordLetter, hreturn]; rfl
  refine ⟨fun c hc => ?_, fun c hc => ?_⟩
  · rcases hcut.begun with rfl | hlast
    · cases hc
    · exact Option.some.inj (hlast.symm.trans hc) ▸ hfeed'
  · rcases hcut.ended with rfl | hhead | hhead
    · cases hc
    · exact Option.some.inj (hhead.symm.trans hc) ▸ hfeed'
    · exact Option.some.inj (hhead.symm.trans hc) ▸ hreturn'

/-- The word at a place is what touches the cut, if anything does. -/
theorem wordOf?_eq (hline : d.lineText? p.line = some (before ++ after))
    (hcut : cutAt [] p.character (before ++ after) = (before.reverse, after)) :
    d.wordOf? isAlphanumeric p =
      let left := dropEndWhile (isWordLetter isAlphanumeric) before
      let word := touching (isWordLetter isAlphanumeric) before after
      if word = [] then none
      else some (word, ⟨⟨p.line, units left⟩, ⟨p.line, units (left ++ word)⟩⟩) := by
  have hdrop : (before.reverse.takeWhile (isWordLetter isAlphanumeric) ++
      before.reverse.dropWhile (isWordLetter isAlphanumeric)).drop
        (before.reverse.takeWhile (isWordLetter isAlphanumeric)).length =
          before.reverse.dropWhile (isWordLetter isAlphanumeric) := List.drop_left
  rw [List.takeWhile_append_dropWhile] at hdrop
  rw [wordOf?, hline, Option.bind_some, hcut]
  simp only [hdrop, touching, dropEndWhile, List.isEmpty_iff, units_append, units_reverse]

/-- The range of what touches a cut. -/
theorem textIn?_touching (letter : Char → Bool)
    (hends : d.EndsLine p.line front (before ++ after) back) :
    let left := dropEndWhile letter before
    let word := touching letter before after
    d.offsetOf? ⟨p.line, units left⟩ = some (byteSize (front ++ left)) ∧
      d.offsetOf? ⟨p.line, units (left ++ word)⟩ = some (byteSize (front ++ left ++ word)) ∧
      d.textIn? ⟨⟨p.line, units left⟩, ⟨p.line, units (left ++ word)⟩⟩ = some word := by
  intro left word
  obtain ⟨returns, rest, rfl, hat⟩ := hends
  have hparts : before ++ after = left ++ word ++ after.dropWhile letter := by
    rw [dropEndWhile_append_touching, List.append_assoc, List.takeWhile_append_dropWhile]
  rw [hparts, List.append_assoc _ _ (List.replicate returns '\r')] at hat
  have hstop := hat.offsetOf?_units
  have htext := hat.parts
  rw [List.append_assoc left] at hat
  have hstart := hat.offsetOf?_units
  rw [← List.append_assoc] at hstop
  refine ⟨hstart, hstop, ?_⟩
  have hwhole : d.text = front ++ left ++ word ++
      (after.dropWhile letter ++ List.replicate returns '\r' ++ rest) := by
    rw [htext]
    simp
  rw [hwhole] at hstart hstop
  rw [textIn?, indexed, hwhole, cut?_eq hstart hstop, Option.map_some]

/-- A word is the run of letters at an offset, and has a range on the line of a place. -/
structure IsWordAt (letter : Char → Bool) (d : Document) (p : Position) (o : Nat) (w : List Char)
    (r : Range) : Prop where
  /-- It is a run that touches the offset, and its range leads to where the run starts and stops. -/
  run : ∃ left right, IsRunAt letter d.text o left w right ∧
    d.offsetOf? r.start = some (byteSize left) ∧ d.offsetOf? r.stop = some (byteSize (left ++ w))
  /-- There is no other run that touches the offset. -/
  unique : ∀ left run right, IsRunAt letter d.text o left run right → run = w
  /-- It is the text in its range. -/
  text : d.textIn? r = some w
  /-- Its range lies on the line. -/
  line : r.start.line = p.line ∧ r.stop.line = p.line
  /-- No column of its range is behind the text of the line. -/
  columns : ∃ line, d.lineText? p.line = some line ∧ r.start.character ≤ r.stop.character ∧
    r.stop.character ≤ units line

/-- The word at a place is the run of letters there.

There is none if there is no such line, or no letter on either side of the cut to which the place
leads. Otherwise it is the run at the offset of the cut. -/
theorem wordOf?_isWordAt (isAlphanumeric : Char → Bool) (hfeed : isAlphanumeric '\n' = false)
    (hreturn : isAlphanumeric '\r' = false) (d : Document) (p : Position) :
    (¬p.line < d.lineCount → d.wordOf? isAlphanumeric p = none) ∧
      (p.line < d.lineCount → ∃ front before after back,
        d.IsCutAt p front before after back ∧
        (d.wordOf? isAlphanumeric p = none ↔
          (∀ c, before.getLast? = some c → isWordLetter isAlphanumeric c = false) ∧
            ∀ c, after.head? = some c → isWordLetter isAlphanumeric c = false) ∧
        ∀ w r, d.wordOf? isAlphanumeric p = some (w, r) →
          IsWordAt (isWordLetter isAlphanumeric) d p (byteSize (front ++ before)) w r) := by
  refine ⟨fun h => ?_, fun h => ?_⟩
  · have hnone : d.lineText? p.line = none := by
      rw [lineText?, Option.map_eq_none_iff, List.getElem?_eq_none_iff, length_splitLines,
        ← lineCount_eq]
      exact Nat.le_of_not_lt h
    rw [wordOf?, hnone, Option.bind_none]
  · obtain ⟨front, before, after, back, hcut, hends, hcolumn⟩ := exists_isCutAt h
    obtain ⟨hfront, hback⟩ := hcut.edges hfeed hreturn
    have hword : d.wordOf? isAlphanumeric p = _ := wordOf?_eq hcut.line hcolumn
    refine ⟨front, before, after, back, hcut, ?_, fun w r hw => ?_⟩
    · rw [hword, ← touching_eq_nil_iff]
      simp
    · rw [hword] at hw
      simp only [Option.ite_none_left_eq_some, Option.some.injEq, Prod.mk.injEq] at hw
      obtain ⟨hne, rfl, rfl⟩ := hw
      obtain ⟨hstart, hstop, htext⟩ := textIn?_touching (isWordLetter isAlphanumeric) hends
      -- The word is the run that touches the cut, and any other run there is the same.
      refine ⟨⟨_, _, hcut.parts ▸ isRunAt_touching hfront hback hne, hstart, hstop⟩,
        fun left run right hrun => ?_, htext, ⟨rfl, rfl⟩, ⟨_, hcut.line, ?_, ?_⟩⟩
      · have hparts : d.text = (front ++ before) ++ (after ++ back) := by
          rw [hcut.parts]
          simp
        rw [hparts] at hrun
        rw [hrun.eq_touching, touching_append hfront hback]
      · rw [units_append]
        exact Nat.le_add_right _ _
      · -- The run ends within the line.
        have hafter := congrArg units
          (List.takeWhile_append_dropWhile (p := isWordLetter isAlphanumeric) (l := after))
        rw [units_append] at hafter
        rw [dropEndWhile_append_touching, units_append, units_append, ← hafter]
        exact Nat.add_le_add_left (Nat.le_add_right _ _) _

/-- A line with a letter outside the basic plane, in the middle of which a place may be. -/
def script : Document :=
  ⟨"x 𝒮_1;\r\ny".toList, 1⟩

/-- `wordOf?_isWordAt` at a place inside the character that a word begins with. -/
theorem wordOf?_isWordAt_script :
    Text.isAlphanumeric '\n' = false ∧ Text.isAlphanumeric '\r' = false ∧ 0 < script.lineCount ∧
      ∃ o, IsWordAt (isWordLetter Text.isAlphanumeric) script ⟨0, 3⟩ o "𝒮_1".toList
        ⟨⟨0, 2⟩, ⟨0, 6⟩⟩ := by
  obtain ⟨front, before, after, back, -, -, hword⟩ :=
    (wordOf?_isWordAt Text.isAlphanumeric (by decide) (by decide) script ⟨0, 3⟩).2 (by decide)
  exact ⟨by decide, by decide, by decide, _, hword _ _ (by decide +kernel)⟩

end Document

end StructUnfold
