import Mathlib.Data.List.Induction
import StructUnfold.Proofs.LineEnding.Finding
import StructUnfold.Proofs.Scan.Report
import StructUnfold.Proofs.Sources

/-!
# Scanning lines with carriage returns

A workspace whose texts are brought into their other form has the same catalog but for the offsets,
which are moved in each file by its last text, and the same counts in its report.

* `Table.map`: a table with other values.
* `Catalog.relocate`: a catalog with other offsets.
* `Report.SameCounts`: two reports that count the same.
* `workspace_crlf`: scanning a workspace in both forms.
-/

namespace StructUnfold

open Text

namespace Table

variable {α β : Type}

/-- The table with a function applied to its values. -/
def map (f : α → β) (t : Table α) : Table β :=
  ⟨t.entries.map fun e => (e.1, f e.2), List.pairwise_map.2 t.sorted⟩

@[simp] theorem get?_map (f : α → β) (t : Table α) (key : String) :
    (t.map f).get? key = (t.get? key).map f := by
  rw [get?, map, List.find?_map, get?, Option.map_map, Option.map_map]
  rfl

@[simp] theorem contains_map (f : α → β) (t : Table α) (key : String) :
    (t.map f).contains key = t.contains key := by
  rw [contains, get?_map, Option.isSome_map, contains]

theorem map_insert (f : α → β) (t : Table α) (key : String) (value : α) :
    (t.insert key value).map f = (t.map f).insert key (f value) := by
  refine ext_get? fun other => ?_
  rw [get?_map, get?_insert, get?_insert, get?_map]
  split <;> rfl

theorem map_erase (f : α → β) (t : Table α) (key : String) :
    (t.erase key).map f = (t.map f).erase key := by
  refine ext_get? fun other => ?_
  rw [get?_map, get?_erase, get?_erase, get?_map]
  split <;> rfl

/-- A condition that a function keeps selects the same entries before and behind it, and another
function may be applied in its place that agrees with it on these entries. -/
theorem map_filter {f g : α → β} {p : String → α → Bool} {q : String → β → Bool}
    (hq : ∀ key value, q key (f value) = p key value)
    (hg : ∀ key value, p key value = true → g value = f value) (t : Table α) :
    (t.filter p).map g = (t.map f).filter q := by
  refine ext_get? fun key => ?_
  rw [get?_map, get?_filter, get?_filter, get?_map]
  cases t.get? key with
  | none => rfl
  | some value =>
    rw [Option.map_some, Option.filter_some, Option.filter_some, hq]
    split
    · rename_i h
      exact congrArg some (hg key value h)
    · rfl

end Table

namespace Catalog

/-- The catalog with other offsets. -/
def relocate (f : Relocation) (c : Catalog) : Catalog :=
  { c with
    structs := c.structs.map (StructDefinition.relocate f)
    unparseable := c.unparseable.map (UnparseableStruct.relocate f) }

@[simp] theorem relocate_empty (f : Relocation) : empty.relocate f = empty := rfl

theorem relocate_record (f : Relocation) (c : Catalog) (finding : Scan.Finding) :
    (finding.record c).relocate f = (finding.relocate f).record (c.relocate f) := by
  cases finding with
  | struct name d =>
    simp only [relocate, Scan.Finding.record, Scan.Finding.relocate, insertStruct,
      Table.map_insert, Table.map_erase]
  | aliased name a => rfl
  | unparseable name u =>
    have hcontains : (c.relocate f).structs.contains name = c.structs.contains name :=
      Table.contains_map _ _ _
    simp only [Scan.Finding.record, Scan.Finding.relocate, insertUnparseable, hcontains]
    split
    · rfl
    · simp only [relocate, Table.map_insert]
  | problem p => rfl

theorem relocate_foldl_record (f : Relocation) (c : Catalog) (findings : List Scan.Finding) :
    (findings.foldl Scan.Finding.record c).relocate f =
      (findings.map (Scan.Finding.relocate f)).foldl Scan.Finding.record (c.relocate f) := by
  induction findings generalizing c with
  | nil => rfl
  | cons finding findings ih =>
    rw [List.foldl_cons, ih, relocate_record, List.map_cons, List.foldl_cons]

/-- What is left of a catalog without the entries of one file is moved alike by relocations that
agree on all other files. -/
theorem relocate_removePath {f g : Relocation} {path : Path}
    (h : ∀ other, other.same path = false → g other = f other) (c : Catalog) :
    (c.removePath path).relocate g = (c.relocate f).removePath path := by
  -- Only entries of other files are left, and on these files the relocations agree.
  have hstructs : (c.structs.filter fun _ d => !d.path.same path).map
      (StructDefinition.relocate g) = (c.structs.map (StructDefinition.relocate f)).filter
        fun _ d => !d.path.same path := by
    refine Table.map_filter (fun _ _ => ?_) (fun _ d hd => ?_) c.structs
    · rfl
    · rw [StructDefinition.relocate, h _ (Bool.not_eq_true' _ ▸ hd), StructDefinition.relocate]
  have hunparseable : (c.unparseable.filter fun _ u => !u.path.same path).map
      (UnparseableStruct.relocate g) = (c.unparseable.map (UnparseableStruct.relocate f)).filter
        fun _ u => !u.path.same path := by
    refine Table.map_filter (fun _ _ => ?_) (fun _ u hu => ?_) c.unparseable
    · rfl
    · rw [UnparseableStruct.relocate, h _ (Bool.not_eq_true' _ ▸ hu), UnparseableStruct.relocate]
  simp only [removePath, relocate, hstructs, hunparseable]

end Catalog

namespace Scan

namespace Report

/-- The report with other offsets in its problems. -/
def relocate (f : Relocation) (r : Report) : Report :=
  { r with problems := r.problems.map (Problem.relocate f) }

/-- Two reports count the same. -/
structure SameCounts (r r' : Report) : Prop where
  /-- The files scanned. -/
  filesScanned : r'.filesScanned = r.filesScanned
  /-- The files passed over. -/
  filesSkipped : r'.filesSkipped = r.filesSkipped
  /-- The structs. -/
  structs : r'.structs = r.structs
  /-- The aliases. -/
  aliases : r'.aliases = r.aliases
  /-- The names that could not be parsed. -/
  unparseable : r'.unparseable = r.unparseable
  /-- The problems. -/
  problems : r'.problems.length = r.problems.length

theorem SameCounts.refl (r : Report) : r.SameCounts r :=
  ⟨rfl, rfl, rfl, rfl, rfl, rfl⟩

theorem SameCounts.absorb {r r' s s' : Report} (hr : r.SameCounts r') (hs : s.SameCounts s') :
    (r.absorb s).SameCounts (r'.absorb s') := by
  constructor
  · exact congrArg₂ (· + ·) hr.filesScanned hs.filesScanned
  · exact congrArg₂ (· + ·) hr.filesSkipped hs.filesSkipped
  · exact congrArg₂ (· + ·) hr.structs hs.structs
  · exact congrArg₂ (· + ·) hr.aliases hs.aliases
  · exact congrArg₂ (· + ·) hr.unparseable hs.unparseable
  · rw [problems_absorb, problems_absorb, List.length_append, List.length_append, hr.problems,
      hs.problems]

theorem sameCounts_relocate (f : Relocation) (r : Report) : r.SameCounts (r.relocate f) :=
  ⟨rfl, rfl, rfl, rfl, rfl, List.length_map _⟩

theorem relocate_absorb (f : Relocation) (r s : Report) :
    (r.absorb s).relocate f = (r.relocate f).absorb (s.relocate f) := by
  rw [relocate, problems_absorb, List.map_append]
  rfl

theorem relocate_ofFindings (f : Relocation) (findings : List Finding) :
    (ofFindings findings).relocate f = ofFindings (findings.map (Finding.relocate f)) := by
  have hfold : ∀ r : Report, (findings.foldl (fun r f => r.absorb f.report) r).relocate f =
      (findings.map (Finding.relocate f)).foldl (fun r f => r.absorb f.report) (r.relocate f) := by
    induction findings with
    | nil => exact fun r => rfl
    | cons finding findings ih =>
      intro r
      have hreport : finding.report.relocate f = (finding.relocate f).report := by
        cases finding <;> rfl
      rw [List.foldl_cons, ih, relocate_absorb, hreport, List.map_cons, List.foldl_cons]
  exact hfold _

end Report

/-- Scanning a file in its other form into a catalog with other offsets. -/
theorem rescan_crlf {maxScan : Nat} {path : Path} {text : List Char} {f g : Relocation}
    (hg : g path = crlfOffset text) (hothers : ∀ other, other.same path = false → g other = f other)
    (hceiling : byteSize (crlf text) ≤ maxScan) (c : Catalog) :
    rescan maxScan (c.relocate f) path (crlf text) =
      ((rescan maxScan c path text).1.relocate g, (rescan maxScan c path text).2.relocate g) := by
  -- The findings are those of the text with other offsets; what they make of a catalog and of a
  -- report is compared apart.
  refine Prod.ext ?_ ?_
  · show (findings maxScan path (crlf text)).foldl Finding.record
        ((c.relocate f).removePath path) =
      ((findings maxScan path text).foldl Finding.record (c.removePath path)).relocate g
    rw [findings_crlf hg hceiling, Catalog.relocate_foldl_record,
      Catalog.relocate_removePath hothers]
  · show Report.ofFindings (findings maxScan path (crlf text)) =
      (Report.ofFindings (findings maxScan path text)).relocate g
    rw [findings_crlf hg hceiling, Report.relocate_ofFindings]

end Scan

/-- The files with a carriage return before each line feed. -/
def crlfFiles (files : List (Path × List Char)) : List (Path × List Char) :=
  files.map fun file => (file.1, crlf file.2)

/-- Where the offsets in each file come to lie, by the text of the file. -/
def Sources.relocation (s : Sources) : Relocation := fun path =>
  crlfOffset ((s.get? path).getD [])

/-- What is held of the files in their other form is the other form of what is held. -/
theorem Sources.get?_ofList_crlfFiles (files : List (Path × List Char)) (path : Path) :
    (ofList (crlfFiles files)).get? path = ((ofList files).get? path).map crlf := by
  rw [get?_ofList, get?_ofList, crlfFiles, ← List.map_reverse, List.find?_map, Option.map_map,
    Option.map_map]
  rfl

namespace Scan

/-- Scanning a workspace in its other form gives the same catalog but for the offsets, and the same
counts, where the ceiling is not reached. -/
theorem workspace_crlf {maxScan : Nat} {files : List (Path × List Char)}
    (hceiling : ∀ file ∈ files, byteSize (crlf file.2) ≤ maxScan) :
    (workspace maxScan (crlfFiles files)).1 =
        (workspace maxScan files).1.relocate (Sources.ofList files).relocation ∧
      (workspace maxScan files).2.SameCounts (workspace maxScan (crlfFiles files)).2 := by
  induction files using List.reverseRecOn with
  | nil => exact ⟨rfl, .refl _⟩
  | append_singleton files file ih =>
    obtain ⟨hcatalog, hreport⟩ := ih fun other hother =>
      hceiling other (List.mem_append_left _ hother)
    have hfiles : crlfFiles (files ++ [file]) = crlfFiles files ++ [(file.1, crlf file.2)] :=
      List.map_append
    -- The last file moves its own offsets by its new text and leaves those of all other files.
    have hrescan := @rescan_crlf maxScan file.1 file.2 (Sources.ofList files).relocation
      (Sources.ofList (files ++ [file])).relocation
      (by rw [Sources.relocation, Sources.ofList_concat, Sources.get?_put_self, Option.getD_some])
      (fun other hother => by
        rw [Sources.relocation, Sources.ofList_concat,
          Sources.get?_put_of_differ _ (by rwa [Path.same_comm]), Sources.relocation])
      (hceiling file (by simp)) (workspace maxScan files).1
    rw [hfiles, workspace_concat, workspace_concat, scanNext, scanNext, hcatalog, hrescan]
    exact ⟨rfl, hreport.absorb (Report.sameCounts_relocate _ _)⟩

end Scan

end StructUnfold
