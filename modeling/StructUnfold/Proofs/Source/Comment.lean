import StructUnfold.Source.Comment

/-!
# Texts without comments

A comment begins with a slash, so a text without slashes is all code. Whether the last character of
a text is code may depend on what follows it, which `IsCode` rules out, so that texts of code can be
put together.

* `step_of_ne_slash`: any other character of code is code.
* `spans_eq_nil`, `strip_eq_self`: there is no comment to be found or to be taken away.
* `IsCode`, `IsCode.append`: all of a text is code, whatever follows it.
* `isCode_concat`: a text without comments is code if it is ended.
-/

namespace StructUnfold.Comment

/-- Outside comments, a character other than a slash is code. -/
theorem step_of_ne_slash {c : Char} (h : c ≠ '/') (next : Option Char) :
    Mode.code.step c next = (.code, .code) := by
  simp [Mode.step, h]

/-- A text without slashes has no comments. -/
theorem spans_eq_nil {text : List Char} (h : '/' ∉ text) : spans text = [] := by
  have hfrom : ∀ pos, spansFrom .code pos none text = [] := by
    induction text with
    | nil => exact fun _ => rfl
    | cons c cs ih =>
      intro pos
      rw [List.mem_cons, not_or] at h
      have hstep := step_of_ne_slash (Ne.symm h.1) cs.head?
      simp only [spansFrom, hstep]
      exact ih h.2 _
  exact hfrom 0

/-- Nothing is taken away from a text without slashes. -/
theorem strip_eq_self {text : List Char} (h : '/' ∉ text) : strip text = text := by
  have honto : ∀ acc, stripOnto acc .code text = acc.reverse ++ text := by
    induction text with
    | nil => simp [stripOnto]
    | cons c cs ih =>
      intro acc
      rw [List.mem_cons, not_or] at h
      rw [stripOnto, step_of_ne_slash (Ne.symm h.1)]
      dsimp only
      rw [ih h.2]
      simp
  rw [strip, honto]
  simp

/-! ### Code -/

/-- All characters of a text that begins in the code are code, whatever follows the text. -/
def IsCode (s : List Char) : Prop :=
  ∀ front c back, s = front ++ c :: back →
    ∀ rest, Mode.code.step c (back ++ rest).head? = (.code, .code)

@[simp] theorem isCode_nil : IsCode [] := by
  intro front c back h
  simp at h

theorem isCode_cons_iff {c : Char} {s : List Char} :
    IsCode (c :: s) ↔
      (∀ rest, Mode.code.step c (s ++ rest).head? = (.code, .code)) ∧ IsCode s := by
  constructor
  · intro h
    refine ⟨h [] c s rfl, fun front d back hs => h (c :: front) d back ?_⟩
    rw [hs, List.cons_append]
  · rintro ⟨hc, hs⟩ front d back heq
    cases front with
    | nil =>
      obtain ⟨rfl, rfl⟩ := List.cons_eq_cons.1 heq
      exact hc
    | cons e front => exact hs front d back (List.cons_eq_cons.1 heq).2

theorem IsCode.append {s t : List Char} (hs : IsCode s) (ht : IsCode t) : IsCode (s ++ t) := by
  induction s with
  | nil => exact ht
  | cons c s ih =>
    obtain ⟨hc, hs⟩ := isCode_cons_iff.1 hs
    refine isCode_cons_iff.2 ⟨fun rest => ?_, ih hs⟩
    show Mode.code.step c (s ++ t ++ rest).head? = _
    rw [List.append_assoc]
    exact hc (t ++ rest)

/-- A text without slashes is code. -/
theorem isCode_of_not_mem {s : List Char} (h : '/' ∉ s) : IsCode s := by
  rintro front c back rfl rest
  exact step_of_ne_slash (fun hc => h (by simp [hc])) _

/-- A comment that is open is one of the comments of the text. -/
theorem spansFrom_ne_nil (mode : Mode) (pos start : Nat) (s : List Char) :
    spansFrom mode pos (some start) s ≠ [] := by
  induction s generalizing mode pos with
  | nil => exact List.cons_ne_nil _ _
  | cons c s ih =>
    obtain ⟨kind, mode', hstep⟩ : ∃ kind mode', mode.step c s.head? = (kind, mode') := ⟨_, _, rfl⟩
    cases kind with
    | inside =>
      simp only [spansFrom, hstep]
      exact ih _ _
    | opening =>
      simp only [spansFrom, hstep]
      exact List.cons_ne_nil _ _
    | code =>
      simp only [spansFrom, hstep]
      exact List.cons_ne_nil _ _

/-- A character of code is code or opens a comment. -/
theorem step_code_eq_or (c : Char) (next : Option Char) :
    Mode.code.step c next = (.code, .code) ∨ ∃ mode, Mode.code.step c next = (.opening, mode) := by
  rw [Mode.step]
  split
  · exact .inr ⟨_, rfl⟩
  · split
    · exact .inr ⟨_, rfl⟩
    · exact .inl rfl

/-- A text without comments is code if it is ended by a character that cannot be the second one of a
comment. -/
theorem isCode_concat {s : List Char} (h : spans s = []) {c : Char} (hslash : c ≠ '/')
    (hstar : c ≠ '*') : IsCode (s ++ [c]) := by
  have hfrom : ∀ pos, spansFrom .code pos none s = [] → IsCode (s ++ [c]) := by
    clear h
    induction s with
    | nil =>
      intro _ _
      exact isCode_of_not_mem (by simpa using Ne.symm hslash)
    | cons d s ih =>
      intro pos h
      rcases step_code_eq_or d s.head? with hcode | ⟨mode, hopening⟩
      · simp only [spansFrom, hcode] at h
        refine isCode_cons_iff.2 ⟨fun rest => ?_, ih _ h⟩
        cases s with
        | nil => simp [Mode.step, hslash, hstar]
        | cons e s => exact hcode
      · simp only [spansFrom, hopening] at h
        exact absurd h (spansFrom_ne_nil _ _ _ _)
  exact hfrom 0 h

/-- The search for comments passes over code. -/
theorem IsCode.spansFrom_append {s : List Char} (h : IsCode s) (pos : Nat) (rest : List Char) :
    spansFrom .code pos none (s ++ rest) = spansFrom .code (pos + Text.byteSize s) none rest := by
  induction s generalizing pos with
  | nil => rfl
  | cons c s ih =>
    obtain ⟨hc, hs⟩ := isCode_cons_iff.1 h
    simp only [List.cons_append, spansFrom, hc]
    rw [ih hs, Text.byteSize_cons, Nat.add_assoc]

/-- Code has no comments. -/
theorem IsCode.spans_eq_nil {s : List Char} (h : IsCode s) : spans s = [] := by
  have hspans := h.spansFrom_append 0 []
  rw [List.append_nil] at hspans
  exact hspans

end StructUnfold.Comment
