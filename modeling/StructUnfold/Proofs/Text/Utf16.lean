import StructUnfold.Text.Offset

/-!
# The UTF-16 form of a text

An editor holds a text as UTF-16 code units: one for a character of the basic plane, a pair for any
other. The second unit of a pair is told by its value, so the boundaries between characters can be
seen in the units.

* `utf16`: the units of a text; `length_utf16`: their number.
* `isTrailing`: a unit is the second one of a pair.
* `feedUnit_not_mem_utf16`: line feeds are where they are in the text.
-/

namespace StructUnfold.Text

/-- The code units of a character. -/
def codeUnits (c : Char) : List UInt16 :=
  if c.val < 0x10000 then [.ofNat c.toNat]
  else
    let n := c.toNat - 0x10000
    [.ofNat (0xD800 + n / 0x400), .ofNat (0xDC00 + n % 0x400)]

/-- The code units of a text. -/
def utf16 (s : List Char) : List UInt16 :=
  s.flatMap codeUnits

/-- Whether a unit is the second one of a pair. -/
def isTrailing (u : UInt16) : Bool :=
  0xDC00 ≤ u.toNat && u.toNat < 0xE000

/-- The unit of a line feed. -/
def feedUnit : UInt16 := 10

@[simp] theorem utf16_nil : utf16 [] = [] := rfl

@[simp] theorem utf16_cons (c : Char) (s : List Char) : utf16 (c :: s) = codeUnits c ++ utf16 s :=
  rfl

@[simp] theorem utf16_append (s t : List Char) : utf16 (s ++ t) = utf16 s ++ utf16 t :=
  List.flatMap_append

/-- A character has one unit, which is its code and no second one of a pair, or it has a pair of
units. -/
theorem codeUnits_cases (c : Char) :
    (charUnits c = 1 ∧ ∃ u : UInt16, codeUnits c = [u] ∧ u.toNat = c.toNat ∧
        isTrailing u = false) ∨
      charUnits c = 2 ∧ ∃ u v : UInt16, codeUnits c = [u, v] ∧ 0xD800 ≤ u.toNat ∧
        isTrailing u = false ∧ isTrailing v = true := by
  have hval : c.val.toNat = c.toNat := rfl
  have hlt : c.val < 0x10000 ↔ c.toNat < 0x10000 := by
    rw [UInt32.lt_iff_toNat_lt, hval]
    rfl
  -- The codes of both parts of pairs are codes of no character.
  have hvalid : c.toNat < 0xD800 ∨ 0xDFFF < c.toNat ∧ c.toNat < 0x110000 := c.valid
  rw [charUnits, codeUnits]
  by_cases h : c.val < 0x10000
  · have hone : (UInt16.ofNat c.toNat).toNat = c.toNat :=
      UInt16.toNat_ofNat_of_lt' (hlt.1 h)
    rw [if_pos h, if_pos h]
    refine .inl ⟨rfl, _, rfl, hone, ?_⟩
    rw [isTrailing, hone, Bool.and_eq_false_iff, decide_eq_false_iff_not, decide_eq_false_iff_not]
    omega
  · have hlarge : 0x10000 ≤ c.toNat := Nat.le_of_not_lt fun hsmall => h (hlt.2 hsmall)
    have hfirst : (UInt16.ofNat (0xD800 + (c.toNat - 0x10000) / 0x400)).toNat =
        0xD800 + (c.toNat - 0x10000) / 0x400 := UInt16.toNat_ofNat_of_lt' (by
      show _ < 65536
      omega)
    have hsecond : (UInt16.ofNat (0xDC00 + (c.toNat - 0x10000) % 0x400)).toNat =
        0xDC00 + (c.toNat - 0x10000) % 0x400 := UInt16.toNat_ofNat_of_lt' (by
      show _ < 65536
      omega)
    rw [if_neg h, if_neg h]
    refine .inr ⟨rfl, _, _, rfl, by omega, ?_, ?_⟩
    · rw [isTrailing, hfirst, Bool.and_eq_false_iff, decide_eq_false_iff_not,
        decide_eq_false_iff_not]
      omega
    · rw [isTrailing, hsecond, Bool.and_eq_true, decide_eq_true_eq, decide_eq_true_eq]
      omega

@[simp] theorem length_codeUnits (c : Char) : (codeUnits c).length = charUnits c := by
  rcases codeUnits_cases c with ⟨hone, u, hu, -⟩ | ⟨htwo, u, v, huv, -⟩
  · rw [hu, hone]
    rfl
  · rw [huv, htwo]
    rfl

@[simp] theorem length_utf16 (s : List Char) : (utf16 s).length = units s := by
  induction s with
  | nil => rfl
  | cons c s ih => rw [utf16_cons, List.length_append, length_codeUnits, ih, units_cons]

@[simp] theorem units_append (s t : List Char) : units (s ++ t) = units s + units t := by
  rw [← length_utf16, utf16_append, List.length_append, length_utf16, length_utf16]

@[simp] theorem units_reverse (s : List Char) : units s.reverse = units s := by
  induction s with
  | nil => rfl
  | cons c s ih => simp [ih, Nat.add_comm]

theorem charUnits_pos (c : Char) : 0 < charUnits c := by
  rw [charUnits]
  split <;> decide

/-- No unit of another character is that of a line feed. -/
theorem feedUnit_not_mem_codeUnits {c : Char} (h : c ≠ '\n') : feedUnit ∉ codeUnits c := by
  rcases codeUnits_cases c with ⟨-, u, hu, hval, -⟩ | ⟨-, u, v, huv, hfirst, -, hsecond⟩
  · rw [hu, List.mem_singleton]
    rintro rfl
    exact h (Char.toNat_inj.1 hval.symm)
  · rw [huv, List.mem_cons, List.mem_singleton, not_or]
    constructor
    · rintro rfl
      exact absurd hfirst (by decide)
    · rintro rfl
      cases hsecond

theorem feedUnit_not_mem_utf16 {s : List Char} (h : '\n' ∉ s) : feedUnit ∉ utf16 s := by
  rw [utf16, List.mem_flatMap]
  rintro ⟨c, hc, hfeed⟩
  exact feedUnit_not_mem_codeUnits (fun heq => h (heq ▸ hc)) hfeed

end StructUnfold.Text
