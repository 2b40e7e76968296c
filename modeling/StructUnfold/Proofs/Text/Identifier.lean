import StructUnfold.Proofs.Text.Space
import StructUnfold.Text.WordChar

/-!
# Characters of identifiers

The characters of identifiers are ASCII letters, digits and the underscore, so no white space and no
punctuation is among them, and all of them make up words.

* `IsIdent`: a text consists of such characters and is not empty.
-/

namespace StructUnfold.Text

/-- The characters of identifiers by their code points. -/
theorem isIdentChar_iff {c : Char} :
    isIdentChar c = true ↔ (48 ≤ c.toNat ∧ c.toNat ≤ 57) ∨ (65 ≤ c.toNat ∧ c.toNat ≤ 90) ∨
      c.toNat = 95 ∨ (97 ≤ c.toNat ∧ c.toNat ≤ 122) := by
  have hunderscore : c = '_' ↔ c.toNat = 95 := by
    rw [← Char.toNat_inj]
    rfl
  unfold isIdentChar Char.isAlphanum Char.isAlpha Char.isUpper Char.isLower Char.isDigit
  simp only [Bool.or_eq_true, Bool.and_eq_true, decide_eq_true_eq, beq_iff_eq, ge_iff_le,
    hunderscore, UInt32.le_iff_toNat_le]
  -- Comparing characters is comparing their code points.
  show (((65 ≤ c.toNat ∧ c.toNat ≤ 90) ∨ 97 ≤ c.toNat ∧ c.toNat ≤ 122) ∨
    48 ≤ c.toNat ∧ c.toNat ≤ 57) ∨ c.toNat = 95 ↔ _
  omega

/-- A character of an identifier is none that is not. -/
theorem ne_of_isIdentChar {c d : Char} (hc : isIdentChar c = true)
    (hd : isIdentChar d = false) : c ≠ d := by
  rintro rfl
  rw [hc] at hd
  cases hd

/-- No white space occurs in identifiers. -/
theorem isSpace_eq_false_of_isIdentChar {c : Char} (h : isIdentChar c = true) :
    isSpace c = false := by
  have hc := isIdentChar_iff.1 h
  simp only [isSpace, Bool.or_eq_false_iff, Bool.and_eq_false_iff, decide_eq_false_iff_not,
    beq_eq_false_iff_ne]
  omega

/-- No space or tab occurs in identifiers. -/
theorem isBlank_eq_false_of_isIdentChar {c : Char} (h : isIdentChar c = true) :
    isBlank c = false := by
  have hne : ∀ d, isIdentChar d = false → (c == d) = false := fun d hd =>
    beq_false_of_ne (ne_of_isIdentChar h hd)
  rw [isBlank, hne ' ' (by decide), hne '\t' (by decide)]
  rfl

/-- Identifiers are made up of word characters. -/
theorem isWordChar_of_isIdentChar {c : Char} (h : isIdentChar c = true) :
    isWordChar c = true := by
  have hascii : c.val < 0x80 := by
    have hc := isIdentChar_iff.1 h
    rw [UInt32.lt_iff_toNat_lt]
    show c.toNat < 128
    omega
  rw [isWordChar, if_pos hascii]
  exact h

/-- The code points of white space. -/
def spaceCodes : List Nat :=
  List.range' 9 5 ++ [0x20, 0x85, 0xA0, 0x1680] ++ List.range' 0x2000 11 ++
    [0x2028, 0x2029, 0x202F, 0x205F, 0x3000]

theorem toNat_mem_spaceCodes {c : Char} (h : isSpace c = true) : c.toNat ∈ spaceCodes := by
  simp only [isSpace, Bool.or_eq_true, Bool.and_eq_true, decide_eq_true_eq, beq_iff_eq] at h
  simp only [spaceCodes, List.mem_append, List.mem_range'_1, List.mem_cons, List.not_mem_nil,
    or_false]
  omega

/-- White space makes up no words. -/
theorem isWordChar_eq_false_of_isSpace {c : Char} (h : isSpace c = true) :
    isWordChar c = false := by
  have hcodes : ∀ n ∈ spaceCodes, isWordChar (Char.ofNat n) = false := by decide +kernel
  rw [← Char.ofNat_toNat c]
  exact hcodes _ (toNat_mem_spaceCodes h)

/-- A text consists of characters of identifiers and is not empty. -/
structure IsIdent (w : List Char) : Prop where
  /-- It is not empty. -/
  ne_nil : w ≠ []
  /-- Its characters occur in identifiers. -/
  chars : ∀ c ∈ w, isIdentChar c = true

instance : DecidablePred IsIdent := fun w =>
  have : Decidable (∀ c ∈ w, isIdentChar c = true) := List.decidableBAll _ w
  decidable_of_iff (w ≠ [] ∧ ∀ c ∈ w, isIdentChar c = true)
    ⟨fun h => ⟨h.1, h.2⟩, fun h => ⟨h.ne_nil, h.chars⟩⟩

/-- Identifiers are such texts. -/
theorem isIdent_of_isIdentifier {w : List Char} (h : isIdentifier w = true) : IsIdent w := by
  cases w with
  | nil => cases h
  | cons c cs =>
    rw [isIdentifier, Bool.and_eq_true] at h
    refine ⟨List.cons_ne_nil _ _, List.forall_mem_cons.2 ⟨?_, List.all_eq_true.1 h.2⟩⟩
    have hstart := h.1
    simp only [isIdentStart, isIdentChar, Char.isAlphanum, Bool.or_eq_true] at hstart ⊢
    exact hstart.imp_left Or.inl

namespace IsIdent

variable {w : List Char}

/-- No other character occurs in it. -/
theorem not_mem (h : IsIdent w) {d : Char} (hd : isIdentChar d = false) : d ∉ w :=
  fun hmem => ne_of_isIdentChar (h.chars d hmem) hd rfl

/-- A text that begins with it begins with one of its characters. -/
theorem exists_cons_append (h : IsIdent w) (s : List Char) :
    ∃ c cs, w ++ s = c :: cs ∧ isIdentChar c = true := by
  obtain ⟨c, cs, rfl⟩ := List.exists_cons_of_ne_nil h.ne_nil
  exact ⟨c, cs ++ s, rfl, h.chars c List.mem_cons_self⟩

/-- No white space occurs in it. -/
theorem no_space (h : IsIdent w) : ∀ c ∈ w, isSpace c = false :=
  fun c hc => isSpace_eq_false_of_isIdentChar (h.chars c hc)

theorem isWord (h : IsIdent w) : IsWord w :=
  ⟨h.ne_nil, h.no_space⟩

/-- It begins with a character of identifiers. -/
theorem head?_append (h : IsIdent w) (s : List Char) :
    ∃ c, isIdentChar c = true ∧ (w ++ s).head? = some c := by
  obtain ⟨c, cs, rfl⟩ := List.exists_cons_of_ne_nil h.ne_nil
  exact ⟨c, h.chars c List.mem_cons_self, rfl⟩

end IsIdent

end StructUnfold.Text
