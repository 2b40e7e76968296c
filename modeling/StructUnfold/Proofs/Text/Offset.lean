import StructUnfold.Text.Offset

/-!
# Places in a text

A byte offset denotes a place when it falls between two characters. Both ways to go there, forwards
with `dropBytes?` and backwards with `takeBytesOnto?`, are read as statements on a text that is cut
in two at that place.
-/

namespace StructUnfold.Text

@[simp] theorem byteSize_eq_zero_iff {s : List Char} : byteSize s = 0 ↔ s = [] := by
  cases s with
  | nil => simp
  | cons c cs =>
    have hc := c.utf8Size_pos
    simp only [byteSize_cons, reduceCtorEq, iff_false]
    omega

theorem byteSize_newline_cons (s : List Char) : byteSize ('\n' :: s) = byteSize s + 1 := by
  rw [byteSize_cons, Nat.add_comm]
  rfl

theorem byteSize_brace_cons (s : List Char) : byteSize ('{' :: s) = byteSize s + 1 := by
  rw [byteSize_cons, Nat.add_comm]
  rfl

theorem byteSize_concat (s : List Char) (c : Char) :
    byteSize (s ++ [c]) = byteSize s + c.utf8Size := by
  rw [byteSize_append, byteSize_cons, byteSize_nil, Nat.add_zero]

/-- A text is no longer than one it begins. -/
theorem byteSize_le_append (s t : List Char) : byteSize s ≤ byteSize (s ++ t) := by
  rw [byteSize_append]
  exact Nat.le_add_right _ _

@[simp] theorem byteSize_reverse (s : List Char) : byteSize s.reverse = byteSize s := by
  induction s with
  | nil => rfl
  | cons c cs ih => simp [ih, Nat.add_comm]

/-- A text that is cut behind its start is cut in what follows its first character, as far as that
character does not reach beyond the place. -/
theorem cut_cons_iff {c : Char} {cs p t : List Char} {n : Nat} :
    c :: cs = p ++ t ∧ byteSize p = n + 1 ↔
      ∃ q, p = c :: q ∧ c.utf8Size ≤ n + 1 ∧ cs = q ++ t ∧ byteSize q = n + 1 - c.utf8Size := by
  constructor
  · rintro ⟨hs, hp⟩
    cases p with
    | nil => cases hp
    | cons d q =>
      obtain ⟨rfl, rfl⟩ := List.cons_eq_cons.1 hs
      rw [byteSize_cons] at hp
      exact ⟨q, rfl, by omega, rfl, by omega⟩
  · rintro ⟨q, rfl, hle, rfl, hq⟩
    exact ⟨rfl, by rw [byteSize_cons, hq, Nat.add_sub_cancel' hle]⟩

/-- What is left behind a place follows a text that ends there. -/
theorem dropBytes?_eq_some_iff {n : Nat} {s t : List Char} :
    dropBytes? n s = some t ↔ ∃ p, s = p ++ t ∧ byteSize p = n := by
  fun_induction dropBytes? n s with
  | case1 s =>
    constructor
    · rintro ⟨⟩
      exact ⟨[], rfl, rfl⟩
    · rintro ⟨p, rfl, hp⟩
      obtain rfl := byteSize_eq_zero_iff.1 hp
      rfl
  | case2 n =>
    simp only [reduceCtorEq, false_iff, not_exists, not_and]
    intro p hp
    obtain ⟨rfl, -⟩ := List.append_eq_nil_iff.1 hp.symm
    simp
  | case3 n c cs h ih =>
    rw [ih]
    constructor
    · rintro ⟨q, hq⟩
      exact ⟨c :: q, cut_cons_iff.2 ⟨q, rfl, h, hq⟩⟩
    · rintro ⟨p, hp⟩
      obtain ⟨q, rfl, -, hq⟩ := cut_cons_iff.1 hp
      exact ⟨q, hq⟩
  | case4 n c cs h =>
    simp only [reduceCtorEq, false_iff, not_exists]
    intro p hp
    obtain ⟨q, -, hle, -⟩ := cut_cons_iff.1 hp
    exact h hle

/-- A text is cut where its first part ends. -/
@[simp] theorem dropBytes?_byteSize_append (p t : List Char) :
    dropBytes? (byteSize p) (p ++ t) = some t :=
  dropBytes?_eq_some_iff.2 ⟨p, rfl, rfl⟩

/-- What is read backwards from a place comes before what has been read already. -/
theorem takeBytesOnto?_onto (acc : List Char) (n : Nat) (s r : List Char) :
    takeBytesOnto? acc n s = some r ↔
      ∃ p t, (s = p ++ t ∧ byteSize p = n) ∧ r = p.reverse ++ acc := by
  fun_induction takeBytesOnto? acc n s with
  | case1 acc s =>
    constructor
    · rintro ⟨⟩
      exact ⟨[], s, ⟨rfl, rfl⟩, rfl⟩
    · rintro ⟨p, t, ⟨rfl, hp⟩, rfl⟩
      obtain rfl := byteSize_eq_zero_iff.1 hp
      rfl
  | case2 acc n =>
    simp only [reduceCtorEq, false_iff, not_exists, not_and, and_imp]
    intro p t hp
    obtain ⟨rfl, -⟩ := List.append_eq_nil_iff.1 hp.symm
    simp
  | case3 acc n c cs h ih =>
    rw [ih]
    constructor
    · rintro ⟨q, t, hq, rfl⟩
      exact ⟨c :: q, t, cut_cons_iff.2 ⟨q, rfl, h, hq⟩, by simp⟩
    · rintro ⟨p, t, hp, rfl⟩
      obtain ⟨q, rfl, -, hq⟩ := cut_cons_iff.1 hp
      exact ⟨q, t, hq, by simp⟩
  | case4 acc n c cs h =>
    simp only [reduceCtorEq, false_iff, not_exists, not_and]
    intro p t hp
    obtain ⟨q, -, hle, -⟩ := cut_cons_iff.1 hp
    exact absurd hle h

/-- The text before a place is read backwards from there. -/
theorem takeBytesOnto?_eq_some_iff {n : Nat} {s r : List Char} :
    takeBytesOnto? [] n s = some r ↔ ∃ t, s = r.reverse ++ t ∧ byteSize r = n := by
  rw [takeBytesOnto?_onto]
  constructor
  · rintro ⟨p, t, ⟨rfl, hp⟩, rfl⟩
    exact ⟨t, by simp, by simpa using hp⟩
  · rintro ⟨t, rfl, hr⟩
    exact ⟨r.reverse, t, ⟨rfl, by simpa using hr⟩, by simp⟩

/-- The text before a place ends there. -/
theorem takeBytes?_eq_some_iff {n : Nat} {s p : List Char} :
    takeBytes? n s = some p ↔ ∃ t, s = p ++ t ∧ byteSize p = n := by
  simp only [takeBytes?, Option.map_eq_some_iff, takeBytesOnto?_eq_some_iff]
  constructor
  · rintro ⟨r, ⟨t, rfl, hr⟩, rfl⟩
    exact ⟨t, rfl, by simpa using hr⟩
  · rintro ⟨t, rfl, hp⟩
    exact ⟨p.reverse, ⟨t, by simp, by simpa using hp⟩, by simp⟩

@[simp] theorem takeBytes?_byteSize_append (p t : List Char) :
    takeBytes? (byteSize p) (p ++ t) = some p :=
  takeBytes?_eq_some_iff.2 ⟨t, rfl, rfl⟩

end StructUnfold.Text
