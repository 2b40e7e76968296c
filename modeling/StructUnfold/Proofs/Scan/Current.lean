import StructUnfold.Proofs.Scan.Recording

/-!
# Catalogs that are up to date with a text

A catalog is up to date with the text of a file if all it holds in that file is held by the file
scanned alone. Scanning the file anew brings the catalog up to date with its new text, and scanning
another file leaves it up to date. It may hold less, for a name that several files declare is
recorded for the one that was scanned last.

* `Catalog.IsConsistent`: no name is both a struct and unparseable.
* `Catalog.IsCurrent`: a catalog is up to date with a text.
* `heldBy_alone_or_of_scan`: a scan adds nothing that the file scanned alone does not hold.
* `Catalog.AgreeAt.rescan_self`, `Catalog.AgreeAt.rescan_other`: a name that one file declares.
-/

namespace StructUnfold

open Scan

namespace Table

variable {α : Type} {t u : Table α} {n m : String} {v w : α} {p : Prop}

/-- An insertion into both of two tables leaves in the second one what it leaves in the first. -/
theorem get?_insert_or (h : t.get? n = some w → u.get? n = some w ∨ p)
    (hn : (t.insert m v).get? n = some w) : (u.insert m v).get? n = some w ∨ p := by
  rw [get?_insert] at hn ⊢
  split at hn
  · rename_i hm
    rw [if_pos hm]
    exact .inl hn
  · rename_i hm
    rw [if_neg hm]
    exact h hn

/-- An erasure in both of two tables leaves in the second one what it leaves in the first. -/
theorem get?_erase_or (h : t.get? n = some w → u.get? n = some w ∨ p)
    (hn : (t.erase m).get? n = some w) : (u.erase m).get? n = some w ∨ p := by
  rw [get?_erase] at hn ⊢
  split at hn
  · cases hn
  · rename_i hm
    rw [if_neg hm]
    exact h hn

theorem contains_insert (h : t.contains n = true → u.contains n = true)
    (hn : (t.insert m v).contains n = true) : (u.insert m v).contains n = true := by
  rw [contains, get?_insert] at hn ⊢
  split
  · rfl
  · rename_i hm
    rw [if_neg hm] at hn
    exact h hn

end Table

namespace Catalog

/-- No name is both a struct and unparseable. -/
def IsConsistent (c : Catalog) : Prop :=
  ∀ n, c.structs.contains n = true → c.unparseable.get? n = none

theorem isConsistent_empty : empty.IsConsistent := fun _ _ => rfl

variable {c d : Catalog}

theorem IsConsistent.record (h : c.IsConsistent) (f : Finding) : (f.record c).IsConsistent := by
  intro n hn
  cases f with
  | struct m s =>
    simp only [Finding.record, insertStruct, Table.get?_erase]
    split
    · rfl
    · rename_i hne
      refine h n ?_
      rwa [Finding.record, insertStruct, Table.contains, Table.get?_insert, if_neg hne] at hn
  | aliased m a => exact h n hn
  | unparseable m u =>
    rw [Finding.record, insertUnparseable] at hn ⊢
    split at hn
    · rename_i hm
      rw [if_pos hm]
      exact h n hn
    · rename_i hm
      rw [if_neg hm]
      -- A name is recorded as one that cannot be used only if it is that of no struct.
      have hne : n ≠ m := by
        rintro rfl
        exact hm hn
      exact (Table.get?_insert_of_ne _ u hne).trans (h n hn)
  | problem p => exact h n hn

theorem IsConsistent.foldl_record (h : c.IsConsistent) (fs : List Finding) :
    (fs.foldl Finding.record c).IsConsistent := by
  induction fs generalizing c with
  | nil => exact h
  | cons f fs ih => exact ih (h.record f)

theorem IsConsistent.removePath (h : c.IsConsistent) (path : Path) :
    (c.removePath path).IsConsistent := by
  intro n hn
  have hstruct : c.structs.contains n = true := by
    obtain ⟨d, hd⟩ := Table.contains_eq_true_iff.1 hn
    rw [Catalog.removePath, Table.get?_filter, Option.filter_eq_some_iff] at hd
    exact Table.contains_eq_true_iff.2 ⟨d, hd.1⟩
  simp [Catalog.removePath, h n hstruct]

theorem IsConsistent.rescan (h : c.IsConsistent) (maxScan : Nat) (path : Path)
    (text : List Char) : (rescan maxScan c path text).1.IsConsistent :=
  (h.removePath path).foldl_record _

theorem defines_of_heldBy {f : Finding} {n : String} (h : f.HeldBy c) (hname : f.name? = some n) :
    c.Defines n := by
  cases f with
  | problem p => cases hname
  | struct m s =>
    obtain rfl := Option.some.inj hname
    exact .inl (Table.contains_eq_true_iff.2 ⟨s, h⟩)
  | aliased m a =>
    obtain rfl := Option.some.inj hname
    exact .inr (.inl (Table.contains_eq_true_iff.2 ⟨a, h⟩))
  | unparseable m u =>
    obtain rfl := Option.some.inj hname
    exact .inr (.inr (Table.contains_eq_true_iff.2 ⟨u, h⟩))

/-- What is left when a file is forgotten was held before and stands in another file. -/
theorem heldBy_removePath {path : Path} {f : Finding} (h : f.HeldBy (c.removePath path)) :
    f.HeldBy c ∧ ¬f.StandsIn path := by
  have hother : ∀ p : Path, (!p.same path) = true → p ≠ path := by
    rintro p hp rfl
    simp at hp
  cases f with
  | struct n s =>
    simp only [Finding.HeldBy, removePath, Table.get?_filter, Option.filter_eq_some_iff] at h
    exact ⟨h.1, hother _ h.2⟩
  | aliased n a =>
    simp only [Finding.HeldBy, removePath, Table.get?_filter, Option.filter_eq_some_iff] at h
    exact ⟨h.1, hother _ h.2⟩
  | unparseable n u =>
    simp only [Finding.HeldBy, removePath, Table.get?_filter, Option.filter_eq_some_iff] at h
    exact ⟨h.1, hother _ h.2⟩
  | problem p => exact h.elim

/-! ### What a scan adds -/

/-- What `c` holds is held by `d` or by `rest`, and `d` has no struct that `c` has not. -/
structure Covers (rest c d : Catalog) : Prop where
  /-- What `c` holds. -/
  held : ∀ f : Finding, f.HeldBy c → f.HeldBy d ∨ f.HeldBy rest
  /-- The structs of `d`. -/
  structs : ∀ n, d.structs.contains n = true → c.structs.contains n = true

/-- Recording a finding in `c` adds no more than recording it in `d`. -/
theorem Covers.record {rest : Catalog} (h : rest.Covers c d) (hc : c.IsConsistent) (g : Finding) :
    rest.Covers (g.record c) (g.record d) := by
  obtain ⟨hheld, hstructs⟩ := h
  cases g with
  | struct m s =>
    refine ⟨fun f hf => ?_, fun n => Table.contains_insert (hstructs n)⟩
    cases f with
    | struct n x => exact Table.get?_insert_or (hheld (.struct n x)) hf
    | aliased n x => exact hheld (.aliased n x) hf
    | unparseable n x => exact Table.get?_erase_or (hheld (.unparseable n x)) hf
    | problem x => exact hf.elim
  | aliased m a =>
    refine ⟨fun f hf => ?_, hstructs⟩
    cases f with
    | struct n x => exact hheld (.struct n x) hf
    | aliased n x => exact Table.get?_insert_or (hheld (.aliased n x)) hf
    | unparseable n x => exact hheld (.unparseable n x) hf
    | problem x => exact hf.elim
  | unparseable m u =>
    by_cases hm : c.structs.contains m = true
    · have hcm : (Finding.unparseable m u).record c = c := if_pos hm
      rw [hcm]
      by_cases hdm : d.structs.contains m = true
      · have hd : (Finding.unparseable m u).record d = d := if_pos hdm
        rw [hd]
        exact ⟨hheld, hstructs⟩
      · have hd : (Finding.unparseable m u).record d =
            { d with unparseable := d.unparseable.insert m u } := if_neg hdm
        rw [hd]
        refine ⟨fun f hf => ?_, hstructs⟩
        cases f with
        | struct n x => exact hheld (.struct n x) hf
        | aliased n x => exact hheld (.aliased n x) hf
        | unparseable n x =>
          -- In `c` there is a struct of the name and so no unparseable entry.
          have hne : n ≠ m := by
            rintro rfl
            have hnone := hc n hm
            rw [Finding.HeldBy, hnone] at hf
            cases hf
          exact (hheld (.unparseable n x) hf).imp_left
            ((Table.get?_insert_of_ne _ u hne).trans ·)
        | problem x => exact hf.elim
    · have hdm : ¬d.structs.contains m = true := fun hdm => hm (hstructs m hdm)
      have hcm : (Finding.unparseable m u).record c =
          { c with unparseable := c.unparseable.insert m u } := if_neg hm
      have hd : (Finding.unparseable m u).record d =
          { d with unparseable := d.unparseable.insert m u } := if_neg hdm
      rw [hcm, hd]
      refine ⟨fun f hf => ?_, hstructs⟩
      cases f with
      | struct n x => exact hheld (.struct n x) hf
      | aliased n x => exact hheld (.aliased n x) hf
      | unparseable n x => exact Table.get?_insert_or (hheld (.unparseable n x)) hf
      | problem x => exact hf.elim
  | problem p => exact ⟨hheld, hstructs⟩

theorem Covers.foldl_record {rest : Catalog} (h : rest.Covers c d) (hc : c.IsConsistent)
    (fs : List Finding) :
    rest.Covers (fs.foldl Finding.record c) (fs.foldl Finding.record d) := by
  induction fs generalizing c d with
  | nil => exact h
  | cons f fs ih => exact ih (h.record hc f) (hc.record f)

/-! ### One file -/

/-- All that a catalog holds in a file is held by the file scanned alone. -/
def IsCurrent (maxScan : Nat) (c : Catalog) (file : Path × List Char) : Prop :=
  ∀ f : Finding, f.HeldBy c → f.StandsIn file.1 → f.HeldBy (alone maxScan file)

variable {maxScan : Nat} {path : Path} {text : List Char} {file : Path × List Char}

/-- A scan adds nothing to a catalog that the file scanned alone does not hold. -/
theorem heldBy_alone_or_of_scan (hc : c.IsConsistent) {f : Finding}
    (h : f.HeldBy (scan maxScan c path text).1) :
    f.HeldBy (alone maxScan (path, text)) ∨ f.HeldBy c := by
  have hcovers : c.Covers c empty := ⟨fun _ => .inr, fun _ hn => by cases hn⟩
  exact (hcovers.foldl_record hc _).held f h

/-- Scanning a file anew brings the catalog up to date with it. -/
theorem isCurrent_rescan (hc : c.IsConsistent) (maxScan : Nat) (path : Path) (text : List Char) :
    (rescan maxScan c path text).1.IsCurrent maxScan (path, text) := by
  intro f hf hpath
  exact (heldBy_alone_or_of_scan (hc.removePath path) hf).resolve_right fun hold =>
    (heldBy_removePath hold).2 hpath

/-- Scanning another file leaves the catalog up to date. -/
theorem IsCurrent.rescan (h : c.IsCurrent maxScan file) (hne : path ≠ file.1)
    (text : List Char) : (rescan maxScan c path text).1.IsCurrent maxScan file := by
  intro f hf hfile
  rcases mem_or_heldBy_of_foldl_record hf with hmem | hold
  · -- What is found in the text stands in the other file.
    have hpath := standsIn_of_mem_findings hmem
    cases f with
    | problem p => exact hf.elim
    | _ => exact absurd (hpath.symm.trans hfile) hne
  · exact h f (heldBy_removePath hold).1 hfile

/-! ### A name that one file declares -/

variable {n : String}

theorem AgreeAt.heldBy_iff (h : c.AgreeAt d n) {f : Finding} (hf : f.name? = some n) :
    f.HeldBy c ↔ f.HeldBy d := by
  cases f with
  | problem p => cases hf
  | struct m s =>
    obtain rfl := Option.some.inj hf
    simp only [Finding.HeldBy, h.structs]
  | aliased m a =>
    obtain rfl := Option.some.inj hf
    simp only [Finding.HeldBy, h.aliases]
  | unparseable m u =>
    obtain rfl := Option.some.inj hf
    simp only [Finding.HeldBy, h.unparseable]

/-- What a file scanned alone holds stands in it. -/
theorem standsIn_of_heldBy_alone {f : Finding} (h : f.HeldBy (alone maxScan file)) :
    f.StandsIn file.1 :=
  standsIn_of_mem_findings (mem_findings_of_heldBy_alone h)

/-- A catalog that agrees at a name with a file scanned alone does so after the file is scanned
anew. -/
theorem AgreeAt.rescan_self {old : List Char} (h : c.AgreeAt (alone maxScan (path, old)) n)
    (text : List Char) : (rescan maxScan c path text).1.AgreeAt (alone maxScan (path, text)) n := by
  refine agreeAt_scan_alone (fun hdefines => ?_) maxScan path text
  -- All that the catalog held under the name stood in the file and was forgotten.
  obtain ⟨f, hf, hname⟩ := exists_heldBy_of_defines hdefines
  obtain ⟨hold, hother⟩ := heldBy_removePath hf
  exact hother (standsIn_of_heldBy_alone ((h.heldBy_iff hname).1 hold))

/-- Forgetting a file changes nothing at a name that stands in another one. -/
theorem agreeAt_removePath {other : Path}
    (h : ∀ f : Finding, f.HeldBy c → f.name? = some n → f.StandsIn other)
    (hdiffer : other.same path = false) : (c.removePath path).AgreeAt c n := by
  have hkeep : ∀ {α : Type} (t : Table α) (pathOf : α → Path),
      (∀ v, t.get? n = some v → pathOf v = other) →
      (t.filter fun _ v => !(pathOf v).same path).get? n = t.get? n := by
    intro α t pathOf hstands
    rw [Table.get?_filter]
    cases hget : t.get? n with
    | none => rfl
    | some v => simp [Option.filter, hstands v hget, hdiffer]
  exact ⟨hkeep _ _ fun s hs => h (.struct n s) hs rfl,
    hkeep _ _ fun a ha => h (.aliased n a) ha rfl,
    hkeep _ _ fun u hu => h (.unparseable n u) hu rfl⟩

/-- Nothing changes at a name when a file that does not declare it is scanned. -/
theorem AgreeAt.rescan_other (h : c.AgreeAt (alone maxScan file) n)
    (hdiffer : file.1.same path = false) (hnew : ¬(alone maxScan (path, text)).Defines n) :
    (rescan maxScan c path text).1.AgreeAt (alone maxScan file) n := by
  have hstands : ∀ f : Finding, f.HeldBy c → f.name? = some n → f.StandsIn file.1 :=
    fun f hf hname => standsIn_of_heldBy_alone ((h.heldBy_iff hname).1 hf)
  exact ((agreeAt_scan_of_not_defines hnew _).trans (agreeAt_removePath hstands hdiffer)).trans h

theorem agreeAt_removePath_of_not_defines (h : ¬c.Defines n) (path : Path) :
    (c.removePath path).AgreeAt c n := by
  refine (agreeAt_empty_iff.2 fun hdefines => ?_).trans (agreeAt_empty_iff.2 h).symm
  obtain ⟨f, hf, hname⟩ := exists_heldBy_of_defines hdefines
  exact h (defines_of_heldBy (heldBy_removePath hf).1 hname)

end Catalog

end StructUnfold
