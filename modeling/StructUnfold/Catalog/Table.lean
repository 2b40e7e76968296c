/-!
# Tables

A table maps names to values. Its entries are kept in strictly increasing order of the names, so two
tables are equal as soon as every name has the same value in both.
-/

namespace StructUnfold

/-- A map from names to values of type `α`. -/
structure Table (α : Type) where
  /-- The names with their values. -/
  entries : List (String × α)
  /-- The names increase strictly. -/
  sorted : entries.Pairwise fun a b => a.1 < b.1

namespace Table

variable {α : Type}

/-- The entries with `key` mapped to `value`. -/
def insertEntry (key : String) (value : α) : List (String × α) → List (String × α)
  | [] => [(key, value)]
  | e :: es =>
    if key < e.1 then (key, value) :: e :: es
    else if key = e.1 then (key, value) :: es
    else e :: insertEntry key value es

theorem mem_insertEntry {key : String} {value : α} {e : String × α} {es : List (String × α)}
    (h : e ∈ insertEntry key value es) : e = (key, value) ∨ e ∈ es := by
  induction es with
  | nil => simpa [insertEntry] using h
  | cons a as ih =>
    rw [insertEntry] at h
    split at h
    · simpa using h
    · split at h
      · rcases List.mem_cons.1 h with rfl | h
        · exact .inl rfl
        · exact .inr (List.mem_cons_of_mem _ h)
      · rcases List.mem_cons.1 h with rfl | h
        · exact .inr (List.mem_cons_self ..)
        · exact (ih h).imp_right (List.mem_cons_of_mem _)

private theorem lt_of_not_lt_of_ne {a b : String} (h : ¬a < b) (hne : ¬a = b) : b < a := by
  by_cases hba : b < a
  · exact hba
  · exact absurd (String.le_antisymm hba h) hne

theorem insertEntry_sorted {key : String} {value : α} {es : List (String × α)}
    (h : es.Pairwise fun a b => a.1 < b.1) :
    (insertEntry key value es).Pairwise fun a b => a.1 < b.1 := by
  induction es with
  | nil => simp [insertEntry]
  | cons a as ih =>
    obtain ⟨ha, has⟩ := List.pairwise_cons.1 h
    rw [insertEntry]
    split
    · rename_i hlt
      refine List.pairwise_cons.2 ⟨fun b hb => ?_, h⟩
      rcases List.mem_cons.1 hb with rfl | hb
      · exact hlt
      · exact String.lt_trans hlt (ha b hb)
    · split
      · rename_i heq
        exact List.pairwise_cons.2 ⟨fun b hb => heq ▸ ha b hb, has⟩
      · rename_i hlt hne
        refine List.pairwise_cons.2 ⟨fun b hb => ?_, ih has⟩
        rcases mem_insertEntry hb with rfl | hb
        · exact lt_of_not_lt_of_ne hlt hne
        · exact ha b hb

/-- The table without entries. -/
def empty : Table α :=
  ⟨[], .nil⟩

instance : Inhabited (Table α) := ⟨empty⟩

/-- The value of a name. -/
def get? (t : Table α) (key : String) : Option α :=
  (t.entries.find? fun e => e.1 == key).map Prod.snd

/-- Whether a name has a value. -/
def contains (t : Table α) (key : String) : Bool :=
  (t.get? key).isSome

/-- The table with `key` mapped to `value`. -/
def insert (t : Table α) (key : String) (value : α) : Table α :=
  ⟨insertEntry key value t.entries, insertEntry_sorted t.sorted⟩

/-- The entries of the table that satisfy `p`. -/
def filter (t : Table α) (p : String → α → Bool) : Table α :=
  ⟨t.entries.filter fun e => p e.1 e.2, t.sorted.filter _⟩

/-- The table without `key`. -/
def erase (t : Table α) (key : String) : Table α :=
  t.filter fun k _ => k != key

/-- Number of entries. -/
def size (t : Table α) : Nat :=
  t.entries.length

/-- The names in increasing order. -/
def keys (t : Table α) : List String :=
  t.entries.map Prod.fst

/-- The values in the order of their names. -/
def values (t : Table α) : List α :=
  t.entries.map Prod.snd

/-- Whether two tables have the same names, with values that `eq` holds of. -/
def sameBy (eq : α → α → Bool) (t u : Table α) : Bool :=
  t.size == u.size && (t.entries.zip u.entries).all fun (a, b) => a.1 == b.1 && eq a.2 b.2

@[simp] theorem get?_empty (key : String) : (empty : Table α).get? key = none := rfl

theorem find?_insertEntry_self (key : String) (value : α) (es : List (String × α)) :
    (insertEntry key value es).find? (fun e => e.1 == key) = some (key, value) := by
  induction es with
  | nil => simp [insertEntry]
  | cons a as ih =>
    rw [insertEntry]
    split
    · simp
    · split
      · simp
      · rename_i hne
        rw [List.find?_cons_of_neg (by simpa using fun h => hne h.symm), ih]

theorem find?_insertEntry_of_ne {key other : String} (value : α) (es : List (String × α))
    (h : other ≠ key) :
    (insertEntry key value es).find? (fun e => e.1 == other) = es.find? fun e => e.1 == other := by
  induction es with
  | nil => simp [insertEntry, h.symm]
  | cons a as ih =>
    rw [insertEntry]
    split
    · rw [List.find?_cons_of_neg (by simpa using h.symm)]
    · split
      · rename_i heq
        rw [List.find?_cons_of_neg (by simpa using h.symm),
          List.find?_cons_of_neg (by simpa [← heq] using h.symm)]
      · rw [List.find?_cons, List.find?_cons, ih]

@[simp] theorem get?_insert_self (t : Table α) (key : String) (value : α) :
    (t.insert key value).get? key = some value := by
  simp [get?, insert, find?_insertEntry_self]

theorem get?_insert_of_ne (t : Table α) {key other : String} (value : α) (h : other ≠ key) :
    (t.insert key value).get? other = t.get? other := by
  simp [get?, insert, find?_insertEntry_of_ne value t.entries h]

theorem get?_eq_some_iff {t : Table α} {key : String} {value : α} :
    t.get? key = some value ↔ (key, value) ∈ t.entries := by
  rcases t with ⟨es, hs⟩
  show (es.find? fun e => e.1 == key).map Prod.snd = some value ↔ (key, value) ∈ es
  induction es with
  | nil => simp
  | cons a as ih =>
    obtain ⟨ha, has⟩ := List.pairwise_cons.1 hs
    by_cases h : a.1 = key
    · subst h
      have hnot : (a.1, value) ∉ as := fun hm =>
        String.lt_irrefl a.1 (ha (a.1, value) hm)
      rw [List.find?_cons_of_pos (by simp)]
      constructor
      · intro heq
        simp only [Option.map_some, Option.some.injEq] at heq
        exact heq ▸ List.mem_cons_self ..
      · intro hm
        rcases List.mem_cons.1 hm with heq | hm
        · rw [← heq]; rfl
        · exact absurd hm hnot
    · rw [List.find?_cons_of_neg (by simpa using h), ih has]
      constructor
      · exact List.mem_cons_of_mem _
      · intro hm
        rcases List.mem_cons.1 hm with heq | hm
        · exact absurd (by rw [← heq]) h
        · exact hm

@[simp] theorem get?_filter (t : Table α) (p : String → α → Bool) (key : String) :
    (t.filter p).get? key = (t.get? key).filter (p key) := by
  apply Option.ext
  intro value
  rw [get?_eq_some_iff, Option.filter_eq_some_iff, get?_eq_some_iff]
  simp [filter]

theorem get?_insert (t : Table α) (key other : String) (value : α) :
    (t.insert key value).get? other = if other = key then some value else t.get? other := by
  split
  · rename_i h
    rw [h, get?_insert_self]
  · rename_i h
    exact get?_insert_of_ne t value h

@[simp] theorem get?_erase (t : Table α) (key other : String) :
    (t.erase key).get? other = if other = key then none else t.get? other := by
  rw [erase, get?_filter]
  split
  · rename_i h
    cases t.get? other <;> simp [h]
  · rename_i h
    cases t.get? other <;> simp [h]

theorem contains_eq_true_iff {t : Table α} {key : String} :
    t.contains key = true ↔ ∃ value, t.get? key = some value := by
  rw [contains, Option.isSome_iff_exists]

theorem contains_eq_false_iff {t : Table α} {key : String} :
    t.contains key = false ↔ t.get? key = none := by
  rw [contains, Option.isSome_eq_false_iff, Option.isNone_iff_eq_none]

theorem mem_keys_iff {t : Table α} {key : String} : key ∈ t.keys ↔ t.contains key = true := by
  rw [contains_eq_true_iff, keys, List.mem_map]
  constructor
  · rintro ⟨⟨_, value⟩, hmem, rfl⟩
    exact ⟨value, get?_eq_some_iff.2 hmem⟩
  · rintro ⟨value, hget⟩
    exact ⟨(key, value), get?_eq_some_iff.1 hget, rfl⟩

/-- Tables in which every name has the same value are equal. -/
theorem ext_get? {t u : Table α} (h : ∀ key, t.get? key = u.get? key) : t = u := by
  have hmem : ∀ e, e ∈ t.entries ↔ e ∈ u.entries := fun (key, value) => by
    rw [← get?_eq_some_iff, ← get?_eq_some_iff, h]
  rcases t with ⟨es, hs⟩
  rcases u with ⟨fs, hf⟩
  congr
  clear h
  simp only at hmem
  induction es generalizing fs with
  | nil =>
    match fs with
    | [] => rfl
    | b :: bs => exact absurd ((hmem b).2 (List.mem_cons_self ..)) (List.not_mem_nil)
  | cons a as ih =>
    match fs with
    | [] => exact absurd ((hmem a).1 (List.mem_cons_self ..)) (List.not_mem_nil)
    | b :: bs =>
      obtain ⟨ha, has⟩ := List.pairwise_cons.1 hs
      obtain ⟨hb, hbs⟩ := List.pairwise_cons.1 hf
      have hab : a = b := by
        rcases List.mem_cons.1 ((hmem a).1 (List.mem_cons_self ..)) with h | h
        · exact h
        · rcases List.mem_cons.1 ((hmem b).2 (List.mem_cons_self ..)) with h' | h'
          · exact h'.symm
          · exact absurd (String.lt_trans (hb _ h) (ha _ h')) (String.lt_irrefl _)
      subst hab
      congr
      refine ih has bs hbs fun e => ?_
      constructor
      · intro he
        rcases List.mem_cons.1 ((hmem e).1 (List.mem_cons_of_mem _ he)) with rfl | h
        · exact absurd (ha _ he) (String.lt_irrefl _)
        · exact h
      · intro he
        rcases List.mem_cons.1 ((hmem e).2 (List.mem_cons_of_mem _ he)) with rfl | h
        · exact absurd (hb _ he) (String.lt_irrefl _)
        · exact h

end Table

end StructUnfold
