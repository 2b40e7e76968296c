import StructUnfold.Proofs.Text.Offset
import StructUnfold.Proofs.Text.Space

/-!
# Carriage returns before line feeds

The lines of a text end in a line feed, or in a carriage return and a line feed. The second form of
a text is longer, so its offsets are others. A function that takes the two characters for white
space gives the same for both forms; for that it is enough to look at one line feed at a time.

* `crlf`: the text with a carriage return before each line feed.
* `crlfOffset`, `crlfOffset_append`: where an offset comes to lie.
* `IgnoresReturns`, `IgnoresReturns.crlf`: a function gives the same for both forms.
* `ignoresReturns_words`, `IgnoresReturns.splitOn`, `IgnoresReturns.trim`: such functions.
-/

namespace StructUnfold.Text

/-- The text with a carriage return before each line feed. -/
def crlf (s : List Char) : List Char :=
  s.flatMap fun c => if c = '\n' then ['\r', '\n'] else [c]

/-- Number of line feeds that begin before an offset of a text. -/
def feedsBefore : (offset : Nat) → (text : List Char) → Nat
  | 0, _ => 0
  | _ + 1, [] => 0
  | n + 1, c :: cs => (if c = '\n' then 1 else 0) + feedsBefore (n + 1 - c.utf8Size) cs

/-- Where an offset of a text comes to lie: each line feed before it moves it by one byte. -/
def crlfOffset (text : List Char) (offset : Nat) : Nat :=
  offset + feedsBefore offset text

@[simp] theorem crlf_nil : crlf [] = [] := rfl

@[simp] theorem crlf_feed_cons (s : List Char) : crlf ('\n' :: s) = '\r' :: '\n' :: crlf s := rfl

theorem crlf_cons_of_ne {c : Char} (h : c ≠ '\n') (s : List Char) :
    crlf (c :: s) = c :: crlf s := by
  rw [crlf, List.flatMap_cons, if_neg h, crlf]
  rfl

@[simp] theorem crlf_append (s t : List Char) : crlf (s ++ t) = crlf s ++ crlf t :=
  List.flatMap_append

/-- A text of one line stays as it is. -/
theorem crlf_eq_self {s : List Char} (h : '\n' ∉ s) : crlf s = s := by
  induction s with
  | nil => rfl
  | cons c s ih =>
    rw [List.mem_cons, not_or] at h
    rw [crlf_cons_of_ne (Ne.symm h.1), ih h.2]

theorem byteSize_crlf (s : List Char) : byteSize (crlf s) = byteSize s + s.count '\n' := by
  induction s with
  | nil => rfl
  | cons c s ih =>
    by_cases hc : c = '\n'
    · subst hc
      have hreturn : '\r'.utf8Size = 1 := rfl
      rw [crlf_feed_cons, byteSize_cons, byteSize_cons, ih, byteSize_cons, List.count_cons_self,
        hreturn]
      omega
    · rw [crlf_cons_of_ne hc, byteSize_cons, ih, byteSize_cons, List.count_cons_of_ne hc,
        Nat.add_assoc]

theorem byteSize_crlf_concat_of_ne (s : List Char) {c : Char} (h : c ≠ '\n') :
    byteSize (crlf (s ++ [c])) = byteSize (crlf s) + c.utf8Size := by
  rw [crlf_append, crlf_cons_of_ne h, crlf_nil, byteSize_concat]

theorem byteSize_crlf_concat_feed (s : List Char) :
    byteSize (crlf (s ++ ['\n'])) = byteSize (crlf s) + 1 + 1 := by
  rw [crlf_append, byteSize_append]
  rfl

/-- A text does not become shorter. -/
theorem byteSize_le_byteSize_crlf (s : List Char) : byteSize s ≤ byteSize (crlf s) := by
  rw [byteSize_crlf]
  exact Nat.le_add_right _ _

/-- The line feeds before the end of the first part of a text are those of that part. -/
theorem feedsBefore_append (p t : List Char) :
    feedsBefore (byteSize p) (p ++ t) = p.count '\n' := by
  induction p with
  | nil => simp [feedsBefore]
  | cons c p ih =>
    obtain ⟨n, hn⟩ : ∃ n, c.utf8Size + byteSize p = n + 1 :=
      ⟨c.utf8Size + byteSize p - 1, by have hc := c.utf8Size_pos; omega⟩
    have hrest : n + 1 - c.utf8Size = byteSize p := by omega
    rw [byteSize_cons, hn, List.cons_append, feedsBefore, hrest, ih, List.count_cons, Nat.add_comm]
    simp only [beq_iff_eq]

/-- The place between two parts of a text comes to lie between the same parts. -/
theorem crlfOffset_append (p t : List Char) :
    crlfOffset (p ++ t) (byteSize p) = byteSize (crlf p) := by
  rw [crlfOffset, feedsBefore_append, byteSize_crlf]

/-- The start of a text stays where it is. -/
@[simp] theorem crlfOffset_zero (text : List Char) : crlfOffset text 0 = 0 :=
  crlfOffset_append [] text

/-- A class that has both characters or none is dropped from the start alike. -/
theorem dropWhile_crlf {p : Char → Bool} (hp : p '\r' = p '\n') (s : List Char) :
    (crlf s).dropWhile p = crlf (s.dropWhile p) := by
  induction s with
  | nil => rfl
  | cons c s ih =>
    by_cases hc : c = '\n'
    · subst hc
      by_cases hfeed : p '\n' = true
      · rw [crlf_feed_cons, List.dropWhile_cons_of_pos (hp.trans hfeed),
          List.dropWhile_cons_of_pos hfeed, List.dropWhile_cons_of_pos hfeed, ih]
      · rw [crlf_feed_cons, List.dropWhile_cons_of_neg (by rwa [hp]),
          List.dropWhile_cons_of_neg hfeed, crlf_feed_cons]
    · rw [crlf_cons_of_ne hc]
      by_cases hmem : p c = true
      · rw [List.dropWhile_cons_of_pos hmem, List.dropWhile_cons_of_pos hmem, ih]
      · rw [List.dropWhile_cons_of_neg hmem, List.dropWhile_cons_of_neg hmem, crlf_cons_of_ne hc]

/-- A beginning of one line of the other form of a text, up to a character that ends no line, is a
beginning of the text itself. -/
theorem exists_of_crlf_eq_append {s line t : List Char} {x : Char} (hline : '\n' ∉ line)
    (hfeed : x ≠ '\n') (hreturn : x ≠ '\r') (h : crlf s = line ++ x :: t) :
    ∃ rest, s = line ++ x :: rest := by
  induction line generalizing s with
  | nil =>
    cases s with
    | nil => cases h
    | cons c s =>
      by_cases hc : c = '\n'
      · subst hc
        exact absurd (List.cons_eq_cons.1 h).1.symm hreturn
      · rw [crlf_cons_of_ne hc] at h
        obtain ⟨rfl, -⟩ := List.cons_eq_cons.1 h
        exact ⟨s, rfl⟩
  | cons d line ih =>
    rw [List.mem_cons, not_or] at hline
    cases s with
    | nil => cases h
    | cons c s =>
      by_cases hc : c = '\n'
      · -- The line would have to go on with the line feed.
        subst hc
        rw [crlf_feed_cons, List.cons_append] at h
        obtain ⟨-, hrest⟩ := List.cons_eq_cons.1 h
        cases line with
        | nil => exact absurd (List.cons_eq_cons.1 hrest).1.symm hfeed
        | cons e line =>
          obtain ⟨rfl, -⟩ := List.cons_eq_cons.1 hrest
          exact absurd List.mem_cons_self hline.2
      · rw [crlf_cons_of_ne hc, List.cons_append] at h
        obtain ⟨rfl, hrest⟩ := List.cons_eq_cons.1 h
        obtain ⟨rest, rfl⟩ := ih hline.2 hrest
        exact ⟨rest, rfl⟩

/-! ### Functions that ignore carriage returns -/

/-- A carriage return before a line feed makes no difference to a function. -/
def IgnoresReturns {α : Type} (f : List Char → α) : Prop :=
  ∀ s t, f (s ++ '\r' :: '\n' :: t) = f (s ++ '\n' :: t)

namespace IgnoresReturns

variable {α β : Type} {f : List Char → α}

/-- All carriage returns together make none either. -/
theorem crlf (h : IgnoresReturns f) (s : List Char) : f (crlf s) = f s := by
  -- The line feeds are gone through in order; `front` is the text that has been gone through.
  have hfrom : ∀ front, f (front ++ Text.crlf s) = f (front ++ s) := by
    induction s with
    | nil => exact fun front => rfl
    | cons c s ih =>
      intro front
      have hstep := ih (front ++ [c])
      rw [List.append_assoc, List.append_assoc, List.singleton_append,
        List.singleton_append] at hstep
      by_cases hc : c = '\n'
      · subst hc
        rw [crlf_feed_cons, h, hstep]
      · rw [crlf_cons_of_ne hc, hstep]
  exact hfrom []

theorem comp (h : IgnoresReturns f) (g : α → β) : IgnoresReturns fun s => g (f s) :=
  fun s t => congrArg g (h s t)

/-- What is read from the pieces into which a text is cut at a character that ends no line. -/
theorem splitOn (h : IgnoresReturns f) {x : Char} (hreturn : x ≠ '\r') (hfeed : x ≠ '\n') :
    IgnoresReturns fun s => (s.splitOn x).map f := by
  intro s t
  obtain ⟨front, last, -, happend⟩ := exists_splitOn_append x s
  obtain ⟨first, rest, hsplit⟩ := List.exists_cons_of_ne_nil (List.splitOn_ne_nil x t)
  have hcons : ∀ c, x ≠ c → ∀ u, (c :: u).splitOn x = (u.splitOn x).modifyHead (c :: ·) := by
    intro c hc u
    rw [List.splitOn_cons_eq_if_modifyHead, if_neg (by simpa using Ne.symm hc)]
  -- Both line ends stand in the middle of one piece.
  dsimp only
  rw [happend, happend, hcons _ hreturn, hcons _ hfeed, hsplit, List.modifyHead_cons,
    List.modifyHead_cons, List.modifyHead_cons, List.modifyHead_cons, List.map_append,
    List.map_append, List.map_cons, List.map_cons, h last first]

/-- What is read from a text without white space at its start. -/
theorem trimStart (h : IgnoresReturns f) : IgnoresReturns fun s => f (trimStart s) := by
  intro s t
  dsimp only [Text.trimStart]
  rw [List.dropWhile_append, List.dropWhile_append]
  split
  · rfl
  · exact h _ t

/-- What is read from a text without a class of characters at its end. A class with the line feed in
it takes the carriage return as well. -/
theorem dropEndWhile (h : IgnoresReturns f) {p : Char → Bool}
    (hp : p '\n' = true → p '\r' = true) : IgnoresReturns fun s => f (dropEndWhile p s) := by
  intro s t
  have hreturn := dropEndWhile_append p (s ++ ['\r', '\n']) t
  have hfeed := dropEndWhile_append p (s ++ ['\n']) t
  have hline : s ++ ['\r', '\n'] = (s ++ ['\r']) ++ ['\n'] := by simp
  rw [hline, dropEndWhile_concat, dropEndWhile_concat] at hreturn
  rw [dropEndWhile_concat] at hfeed
  simp only [List.append_assoc, List.cons_append, List.nil_append] at hreturn hfeed
  dsimp only
  rw [hreturn, hfeed]
  split
  · -- Nothing is left behind the line feed, which is dropped itself or ends what is kept.
    by_cases hclass : p '\n' = true
    · rw [if_pos hclass, if_pos hclass, if_pos (hp hclass)]
    · rw [if_neg hclass, if_neg hclass]
      exact h s []
  · exact h s _

/-- What is read from a text without white space at its ends. -/
theorem trim (h : IgnoresReturns f) : IgnoresReturns fun s => f (trim s) :=
  (h.dropEndWhile fun _ => rfl).trimStart

end IgnoresReturns

/-- A carriage return before a line feed parts no other words than the line feed. -/
theorem ignoresReturns_words : IgnoresReturns words := by
  intro s t
  have hcons := words_append_cons (c := '\n') rfl [] t
  rw [List.nil_append, words_nil, List.nil_append] at hcons
  rw [words_append_cons (c := '\r') rfl, words_append_cons (c := '\n') rfl, hcons]

end StructUnfold.Text
