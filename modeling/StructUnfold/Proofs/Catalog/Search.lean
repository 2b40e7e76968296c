import Mathlib.Data.List.Basic
import StructUnfold.Catalog.Search
import StructUnfold.Proofs.Text.Search

/-!
# What a search finds

The entries of a catalog are told apart by their names and by the tables they stand in. So there is
only one order in which they can be listed, however the tables are gone through, and what a search
gives depends on nothing but the entries.

## Main definitions

* `Catalog.Lists`: the rows that a catalog has to offer.
* `Catalog.Entry.Precedes`: the strict order of rows.
* `Catalog.Entry.Contains`: the name of a row contains a query.

## Main results

* `Catalog.pairwise_allEntries`: no two rows have the same name and kind.
* `Catalog.eq_of_pairwise_precedes`: rows in strict order are told by which rows they are.
* `Catalog.search_takes_first`: a search gives the first of them.
-/

namespace StructUnfold.Catalog

variable {c d : Catalog} {query : String}

/-- The places of the kinds are different. -/
theorem EntryKind.eq_of_rank_eq {a b : EntryKind} (h : a.rank = b.rank) : a = b := by
  cases a <;> cases b <;> first | rfl | cases h

namespace Entry

/-- A row comes before another one: by its name, and under one name by the table it stands in. -/
def Precedes (a b : Entry) : Prop :=
  a.name < b.name ∨ a.name = b.name ∧ a.kind.rank < b.kind.rank

/-- The name of a row contains a query, case aside. -/
def Contains (query : String) (e : Entry) : Prop :=
  Text.lowercase query.toList <:+: Text.lowercase e.name.toList

theorem nameMatches_iff {e : Entry} :
    nameMatches (Text.lowercase query.toList) e.name = true ↔ e.Contains query :=
  Text.containsText_eq_true_iff

theorem Precedes.asymm {a b : Entry} (h : a.Precedes b) : ¬b.Precedes a := by
  rintro (h' | ⟨hname', h'⟩)
  · rcases h with h | ⟨hname, -⟩
    · exact String.lt_irrefl _ (String.lt_trans h h')
    · exact String.lt_irrefl _ (hname ▸ h')
  · rcases h with h | ⟨-, h⟩
    · exact String.lt_irrefl _ (hname' ▸ h)
    · exact Nat.lt_asymm h h'

theorem Precedes.ne {a b : Entry} (h : a.Precedes b) : a ≠ b := by
  rintro rfl
  exact h.asymm h

/-- Only one row of each kind can come under a name. -/
theorem precedes_of_sortsBefore {a b : Entry} (h : a.sortsBefore b = true)
    (hkey : a.name = b.name → a.kind ≠ b.kind) : a.Precedes b := by
  rw [sortsBefore] at h
  split at h
  · rename_i hname
    have hrank : a.kind.rank ≠ b.kind.rank := fun heq => hkey hname (EntryKind.eq_of_rank_eq heq)
    exact .inr ⟨hname, Nat.lt_of_le_of_ne (of_decide_eq_true h) hrank⟩
  · exact .inl (of_decide_eq_true h)

theorem sortsBefore_trans (a b e : Entry) (hab : a.sortsBefore b = true)
    (hbe : b.sortsBefore e = true) : a.sortsBefore e = true := by
  rw [sortsBefore] at hab hbe ⊢
  split at hab
  · rename_i hname
    rw [hname]
    split at hbe
    · rename_i hname'
      rw [if_pos hname', decide_eq_true_iff]
      exact Nat.le_trans (of_decide_eq_true hab) (of_decide_eq_true hbe)
    · rename_i hname'
      rwa [if_neg hname']
  · have hlt := of_decide_eq_true hab
    split at hbe
    · rename_i hname hname'
      rwa [← hname', if_neg hname]
    · have hlt' := String.lt_trans hlt (of_decide_eq_true hbe)
      rw [if_neg fun heq => String.lt_irrefl _ (heq ▸ hlt'), decide_eq_true_iff]
      exact hlt'

theorem sortsBefore_total (a b : Entry) : (a.sortsBefore b || b.sortsBefore a) = true := by
  rw [Bool.or_eq_true, sortsBefore, sortsBefore]
  by_cases hname : a.name = b.name
  · rw [if_pos hname, if_pos hname.symm, decide_eq_true_iff, decide_eq_true_iff]
    exact Nat.le_total _ _
  · rw [if_neg hname, if_neg (Ne.symm hname), decide_eq_true_iff, decide_eq_true_iff]
    by_contra hnone
    exact hname (String.le_antisymm (not_or.1 hnone).2 (not_or.1 hnone).1)

end Entry

/-! ### The rows of a catalog -/

/-- The rows that a catalog has to offer: one for each entry of each of its tables. -/
inductive Lists (c : Catalog) : Entry → Prop where
  /-- A struct. -/
  | struct {name : String} {d : StructDefinition} (h : c.structs.get? name = some d) :
      Lists c (structEntry name d)
  /-- An alias. -/
  | aliasName {name : String} {a : Alias} (h : c.aliases.get? name = some a) :
      Lists c (aliasEntry name a)
  /-- A name that could not be parsed. -/
  | unparseable {name : String} {u : UnparseableStruct} (h : c.unparseable.get? name = some u) :
      Lists c (unparseableEntry name u)

/-- The rows are those of the tables. -/
theorem mem_allEntries_iff {e : Entry} : e ∈ c.allEntries ↔ c.Lists e := by
  rw [allEntries, List.mem_append, List.mem_append, List.mem_map, List.mem_map, List.mem_map]
  constructor
  · rintro ((⟨⟨name, d⟩, hmem, rfl⟩ | ⟨⟨name, a⟩, hmem, rfl⟩) | ⟨⟨name, u⟩, hmem, rfl⟩)
    · exact .struct (Table.get?_eq_some_iff.2 hmem)
    · exact .aliasName (Table.get?_eq_some_iff.2 hmem)
    · exact .unparseable (Table.get?_eq_some_iff.2 hmem)
  · rintro (h | h | h)
    · exact .inl (.inl ⟨_, Table.get?_eq_some_iff.1 h, rfl⟩)
    · exact .inl (.inr ⟨_, Table.get?_eq_some_iff.1 h, rfl⟩)
    · exact .inr ⟨_, Table.get?_eq_some_iff.1 h, rfl⟩

/-- The rows of a table differ in their names. -/
theorem pairwise_map_entries {α : Type} (t : Table α) {row : String × α → Entry}
    (hname : ∀ e, (row e).name = e.1) :
    (t.entries.map row).Pairwise fun a b => a.name = b.name → a.kind ≠ b.kind := by
  refine List.pairwise_map.2 (t.sorted.imp fun hlt heq => ?_)
  rw [hname, hname] at heq
  exact absurd (heq ▸ hlt) (String.lt_irrefl _)

/-- No two rows have the same name and kind. -/
theorem pairwise_allEntries (c : Catalog) :
    c.allEntries.Pairwise fun a b => a.name = b.name → a.kind ≠ b.kind := by
  rw [allEntries, List.pairwise_append, List.pairwise_append]
  refine ⟨⟨pairwise_map_entries c.structs fun _ => rfl, pairwise_map_entries c.aliases fun _ => rfl,
    fun a ha b hb _ => ?_⟩, pairwise_map_entries c.unparseable fun _ => rfl, fun a ha b hb _ => ?_⟩
  · obtain ⟨-, -, rfl⟩ := List.mem_map.1 ha
    obtain ⟨-, -, rfl⟩ := List.mem_map.1 hb
    exact nofun
  · obtain ⟨-, -, rfl⟩ := List.mem_map.1 hb
    rcases List.mem_append.1 ha with ha | ha
    · obtain ⟨-, -, rfl⟩ := List.mem_map.1 ha
      exact nofun
    · obtain ⟨-, -, rfl⟩ := List.mem_map.1 ha
      exact nofun

/-! ### The rows in order -/

/-- Rows in strict order are told by which rows they are. -/
theorem eq_of_pairwise_precedes {rows rows' : List Entry} (h : rows.Pairwise Entry.Precedes)
    (h' : rows'.Pairwise Entry.Precedes) (hmem : ∀ e, e ∈ rows ↔ e ∈ rows') : rows = rows' := by
  have hperm : rows.Perm rows' :=
    (List.perm_ext_iff_of_nodup (h.imp Entry.Precedes.ne) (h'.imp Entry.Precedes.ne)).2 hmem
  exact hperm.eq_of_pairwise (fun _ _ _ _ hab hba => absurd hba hab.asymm) h h'

/-- The rows that match a query, from a list in which the tables were gone through. -/
def ordered (query : String) (listed : List Entry) : List Entry :=
  (listed.filter fun e => nameMatches (Text.lowercase query.toList) e.name).mergeSort
    Entry.sortsBefore

theorem mem_ordered_iff {listed : List Entry} (hlisted : listed.Perm c.allEntries) {e : Entry} :
    e ∈ ordered query listed ↔ c.Lists e ∧ e.Contains query := by
  rw [ordered, List.mem_mergeSort, List.mem_filter, hlisted.mem_iff, mem_allEntries_iff,
    Entry.nameMatches_iff]

/-- A row that is found is one of the catalog. -/
theorem lists_of_mem_search {limit : Nat} {e : Entry} (h : e ∈ c.search query limit) : c.Lists e :=
  ((mem_ordered_iff (.refl _)).1 (List.mem_of_mem_take h)).1

/-- However the tables are gone through, the rows end up in strict order. -/
theorem pairwise_ordered {listed : List Entry} (hlisted : listed.Perm c.allEntries) :
    (ordered query listed).Pairwise Entry.Precedes := by
  have hkeys : listed.Pairwise fun a b => a.name = b.name → a.kind ≠ b.kind :=
    (hlisted.pairwise_iff fun h hname => (h hname.symm).symm).2 c.pairwise_allEntries
  have hsorted := List.pairwise_mergeSort Entry.sortsBefore_trans Entry.sortsBefore_total
    (listed.filter fun e => nameMatches (Text.lowercase query.toList) e.name)
  have hdiffer : (ordered query listed).Pairwise fun a b => a.name = b.name → a.kind ≠ b.kind :=
    ((List.mergeSort_perm _ _).pairwise_iff fun h hname => (h hname.symm).symm).2
      (hkeys.filter _)
  exact (hsorted.and hdiffer).imp fun h => Entry.precedes_of_sortsBefore h.1 h.2

/-- Rows in strict order that are those of a catalog which match a query are the ones that a search
goes through. -/
theorem searchAll_eq {rows : List Entry} (hrows : rows.Pairwise Entry.Precedes)
    (hmem : ∀ e, e ∈ rows ↔ c.Lists e ∧ e.Contains query) : c.searchAll query = rows := by
  refine eq_of_pairwise_precedes (pairwise_ordered (.refl _)) hrows fun e => ?_
  rw [hmem]
  exact mem_ordered_iff (.refl _)

/-- A search gives the first rows of a list that does not depend on how many are asked for: the
structs, aliases and unparseable names that contain the query, case aside, each of them once, in
strict order of their names and, under one name, of the kinds. Nothing else matters: neither the
order in which the tables are gone through nor anything that was done to the catalog before it held
these entries. -/
theorem search_takes_first (c : Catalog) (query : String) :
    (∃ rows : List Entry, rows.Pairwise Entry.Precedes ∧
      (∀ e, e ∈ rows ↔ c.Lists e ∧ e.Contains query) ∧
      ∀ limit, c.search query limit = rows.take limit) ∧
    (∀ listed : List Entry, listed.Perm c.allEntries →
      ∀ limit, (ordered query listed).take limit = c.search query limit) ∧
    (∀ d : Catalog, (∀ e, d.Lists e ↔ c.Lists e) →
      ∀ limit, d.search query limit = c.search query limit) ∧
    ∀ limit limit', limit ≤ limit' → c.search query limit <+: c.search query limit' := by
  have hpairwise : (c.searchAll query).Pairwise Entry.Precedes := pairwise_ordered (.refl _)
  have hmem : ∀ e, e ∈ c.searchAll query ↔ c.Lists e ∧ e.Contains query := fun e =>
    mem_ordered_iff (.refl _)
  refine ⟨⟨_, hpairwise, hmem, fun limit => rfl⟩, fun listed hlisted limit => ?_,
    fun d hd limit => ?_, fun limit limit' hle => List.take_prefix_take_left hle⟩
  · rw [search, searchAll_eq (pairwise_ordered hlisted) fun e => mem_ordered_iff hlisted]
  · rw [search, search, searchAll_eq hpairwise fun e => by rw [hmem, hd]]

end StructUnfold.Catalog
