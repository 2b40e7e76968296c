import StructUnfold.Proofs.Scan.Recording

/-!
# Scanning a file twice

What a sequence of findings leaves at a name can be told without running through it. Of several
structs of a name the last one counts, and so with aliases. An entry that could not be parsed counts
only if no struct of its name is found and none was there before, so the order in which structs and
such entries come makes no difference.

When a file is scanned again, all that the first scan has recorded is forgotten and then recorded
anew. What the first scan took from other files is not given back in between, but the second scan
would have taken it as well. This holds of every catalog, in whatever way it came about.

## Main results

* `get?_structs_foldl_record`, `get?_aliases_foldl_record`, `get?_unparseable_foldl_record`: what a
  sequence of findings leaves at a name.
* `replaceFindings_replaceFindings`: forgetting a file and recording its findings, twice over.
* `rescan_rescan`: scanning a file again with the same text changes nothing.
-/

namespace StructUnfold.Scan

open Catalog

/-- The struct that a finding defines under a name. -/
def Finding.structOf? (name : String) : Finding → Option StructDefinition
  | .struct n d => if n = name then some d else none
  | _ => none

/-- What a finding declares a name to be an alias of. -/
def Finding.aliasOf? (name : String) : Finding → Option Alias
  | .aliased n a => if n = name then some a else none
  | _ => none

/-- The entry that a finding records for a name that could not be parsed. -/
def Finding.unparseableOf? (name : String) : Finding → Option UnparseableStruct
  | .unparseable n u => if n = name then some u else none
  | _ => none

/-- The entry of the last of the findings that have one. -/
def last? {α : Type} (pick : Finding → Option α) (fs : List Finding) : Option α :=
  fs.reverse.findSome? pick

section

variable {α : Type} (pick : Finding → Option α)

@[simp] theorem last?_nil : last? pick [] = none := rfl

@[simp] theorem last?_cons (f : Finding) (fs : List Finding) :
    last? pick (f :: fs) = (last? pick fs).or (pick f) := by
  rw [last?, List.reverse_cons, List.findSome?_append, List.findSome?_singleton, last?]

end

/-! ### What findings leave at a name -/

section

variable (fs : List Finding) (c : Catalog) (n : String)

/-- Where each finding puts its own entry, if it has one, in the place of the one before, the last
one counts. -/
theorem lookup_foldl_record {α : Type} {pick : Finding → Option α} (look : Catalog → Option α)
    (hstep : ∀ (f : Finding) (c : Catalog), look (f.record c) = (pick f).or (look c)) :
    look (fs.foldl Finding.record c) = (last? pick fs).or (look c) := by
  induction fs generalizing c with
  | nil => rfl
  | cons f fs ih => rw [List.foldl_cons, ih, hstep, last?_cons, Option.or_assoc]

/-- Of several structs of a name the last one counts. -/
theorem get?_structs_foldl_record :
    (fs.foldl Finding.record c).structs.get? n =
      (last? (Finding.structOf? n) fs).or (c.structs.get? n) := by
  refine lookup_foldl_record fs c (fun c => c.structs.get? n) fun f c => ?_
  cases f with
  | struct m d =>
    simp only [Finding.record, insertStruct, Table.get?_insert, Finding.structOf?, eq_comm]
    split <;> rfl
  | unparseable m u =>
    simp only [Finding.record, insertUnparseable]
    split <;> rfl
  | _ => rfl

/-- Of several aliases of a name the last one counts. -/
theorem get?_aliases_foldl_record :
    (fs.foldl Finding.record c).aliases.get? n =
      (last? (Finding.aliasOf? n) fs).or (c.aliases.get? n) := by
  refine lookup_foldl_record fs c (fun c => c.aliases.get? n) fun f c => ?_
  cases f with
  | aliased m a =>
    simp only [Finding.record, insertAlias, Table.get?_insert, Finding.aliasOf?, eq_comm]
    split <;> rfl
  | unparseable m u =>
    simp only [Finding.record, insertUnparseable]
    split <;> rfl
  | _ => rfl

/-- A struct among the findings leaves no other entry of its name, wherever it comes. Failing that, a
struct that was there before keeps such entries out, and failing that the last one counts. -/
theorem get?_unparseable_foldl_record :
    (fs.foldl Finding.record c).unparseable.get? n =
      if (last? (Finding.structOf? n) fs).isSome then none
      else if c.structs.contains n then c.unparseable.get? n
      else (last? (Finding.unparseableOf? n) fs).or (c.unparseable.get? n) := by
  induction fs generalizing c with
  | nil => simp
  | cons f fs ih =>
    rw [List.foldl_cons, ih, last?_cons, last?_cons]
    by_cases hlater : (last? (Finding.structOf? n) fs).isSome = true
    · -- A struct that comes later decides, whatever this finding is.
      rw [if_pos hlater, Option.isSome_or, hlater, Bool.true_or, if_pos rfl]
    · rw [if_neg hlater, Option.isSome_or]
      cases f with
      | struct m d =>
        by_cases hm : m = n
        · -- The struct takes the entries away that came before it, and keeps out those behind it.
          subst hm
          simp [Finding.record, insertStruct, Finding.structOf?, Table.contains]
        · have hn : n ≠ m := Ne.symm hm
          simp [Finding.record, insertStruct, Finding.structOf?, Finding.unparseableOf?,
            Table.contains, Table.get?_insert_of_ne, hlater, hm, hn]
      | aliased m a =>
        simp only [Finding.structOf?, Finding.unparseableOf?, Option.or_none, Option.isSome_none,
          Bool.or_false, if_neg hlater]
        rfl
      | unparseable m u =>
        by_cases hm : m = n
        · subst hm
          by_cases hstruct : c.structs.contains m = true
          · simp [Finding.record, insertUnparseable, Finding.structOf?, hlater, hstruct]
          · simp [Finding.record, insertUnparseable, Finding.structOf?, Finding.unparseableOf?,
              hlater, hstruct]
        · have hn : n ≠ m := Ne.symm hm
          by_cases hstruct : c.structs.contains m = true
          · simp [Finding.record, insertUnparseable, Finding.structOf?, Finding.unparseableOf?,
              hlater, hstruct, hm]
          · simp [Finding.record, insertUnparseable, Finding.structOf?, Finding.unparseableOf?,
              Table.get?_insert_of_ne, hlater, hstruct, hm, hn]
      | problem p =>
        simp only [Finding.structOf?, Finding.unparseableOf?, Option.or_none, Option.isSome_none,
          Bool.or_false, if_neg hlater]
        rfl

end

/-! ### Forgetting and recording anew -/

section

variable {α : Type} {keep : α → Bool}

/-- What is found is found again, and what is kept beside it is kept again. -/
theorem or_filter_or (found : Option α) {before : Option α} (h : before.filter keep = before) :
    found.or ((found.or before).filter keep) = found.or before := by
  cases found with
  | none => rw [Option.none_or, Option.none_or, h]
  | some e => rw [Option.some_or, Option.some_or]

/-- An entry of a table that keeps entries by a test passes that test. -/
theorem filter_get?_filter (t : Table α) (n : String) :
    ((t.filter fun _ => keep).get? n).filter keep = (t.filter fun _ => keep).get? n := by
  have hforgotten := Table.get?_filter (t.filter fun _ => keep) (fun _ => keep) n
  rw [Table.filter_filter_self] at hforgotten
  exact hforgotten.symm

end

section

variable (fs : List Finding) (c : Catalog) (path : Path)

/-- Forget a file and record findings instead. -/
def replaceFindings : Catalog :=
  fs.foldl Finding.record (c.removePath path)

theorem get?_structs_replaceFindings (n : String) :
    (replaceFindings fs (replaceFindings fs c path) path).structs.get? n =
      (replaceFindings fs c path).structs.get? n := by
  unfold replaceFindings
  rw [get?_structs_foldl_record, removePath, Table.get?_filter, get?_structs_foldl_record]
  exact or_filter_or _ (filter_get?_filter c.structs n)

theorem get?_aliases_replaceFindings (n : String) :
    (replaceFindings fs (replaceFindings fs c path) path).aliases.get? n =
      (replaceFindings fs c path).aliases.get? n := by
  unfold replaceFindings
  rw [get?_aliases_foldl_record, removePath, Table.get?_filter, get?_aliases_foldl_record]
  exact or_filter_or _ (filter_get?_filter c.aliases n)

/-- A struct that is found is found again, and where none is found the second time meets the same
structs of other files as the first. -/
theorem get?_unparseable_replaceFindings (n : String) :
    (replaceFindings fs (replaceFindings fs c path) path).unparseable.get? n =
      (replaceFindings fs c path).unparseable.get? n := by
  have hkept : (((c.removePath path).unparseable.get? n).filter fun u => !u.path.same path) =
      (c.removePath path).unparseable.get? n := filter_get?_filter c.unparseable n
  rw [replaceFindings, get?_unparseable_foldl_record]
  by_cases hfound : (last? (Finding.structOf? n) fs).isSome = true
  · rw [if_pos hfound, replaceFindings, get?_unparseable_foldl_record, if_pos hfound]
  · -- Without a struct of the name among the findings, the structs of that name are the old ones.
    have hnone : last? (Finding.structOf? n) fs = none := by simpa using hfound
    have hcontains : ((replaceFindings fs c path).removePath path).structs.contains n =
        (c.removePath path).structs.contains n := by
      rw [Table.contains, removePath, Table.get?_filter, replaceFindings,
        get?_structs_foldl_record, hnone, Option.none_or, removePath, filter_get?_filter]
      rfl
    have hforgotten : ((replaceFindings fs c path).removePath path).unparseable.get? n =
        ((replaceFindings fs c path).unparseable.get? n).filter fun u => !u.path.same path :=
      Table.get?_filter _ _ n
    rw [if_neg hfound, hcontains, hforgotten, replaceFindings, get?_unparseable_foldl_record,
      if_neg hfound]
    by_cases hstruct : (c.removePath path).structs.contains n = true
    · rw [if_pos hstruct, if_pos hstruct, hkept]
    · rw [if_neg hstruct, if_neg hstruct]
      exact or_filter_or _ hkept

/-- Forgetting a file and recording what is found, twice over, is the same as once. -/
theorem replaceFindings_replaceFindings :
    replaceFindings fs (replaceFindings fs c path) path = replaceFindings fs c path := by
  have hhops (d : Catalog) : (replaceFindings fs d path).maxAliasHops = d.maxAliasHops :=
    maxAliasHops_foldl_record fs (d.removePath path)
  rw [Catalog.mk.injEq]
  refine ⟨?_, ?_, ?_, ?_⟩
  · exact Table.ext_get? (get?_structs_replaceFindings fs c path)
  · exact Table.ext_get? (get?_aliases_replaceFindings fs c path)
  · exact Table.ext_get? (get?_unparseable_replaceFindings fs c path)
  · rw [hhops, hhops]

end

/-- Scanning a file again with the same text leaves the catalog as the first time left it, and
reports the same. -/
theorem rescan_rescan (maxScan : Nat) (c : Catalog) (path : Path) (text : List Char) :
    rescan maxScan (rescan maxScan c path text).1 path text = rescan maxScan c path text := by
  apply Prod.ext
  · show replaceFindings (findings maxScan path text) _ path = replaceFindings _ c path
    exact replaceFindings_replaceFindings (findings maxScan path text) c path
  · -- A report counts the findings, whatever catalog they are recorded in.
    rfl

end StructUnfold.Scan
