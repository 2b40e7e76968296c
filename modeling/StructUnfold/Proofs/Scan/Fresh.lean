import StructUnfold.Proofs.Scan.Incremental
import StructUnfold.Proofs.Source.Header
import StructUnfold.Proofs.Sources

/-!
# Structs of a fresh catalog

A catalog is fresh for a set of texts if each of its structs is registered by the text of its file:
a header that names the struct stands there, its brace at the offset that the catalog gives and
outside all comments. Scanning a file and putting its text keeps a catalog fresh, whatever other
files define, for the entries of that file are all made anew.

* `Registers text name offset`: a text registers a struct.
* `Catalog.FreshIn c s`: the catalog `c` is fresh for the texts `s`.
* `freshIn_rescan`, `freshIn_workspace`: scanning keeps a catalog fresh.
-/

namespace StructUnfold

namespace Scan

/-- A text registers a struct of a name, with its brace at an offset: a header of that name ends
there, outside all comments. -/
structure Registers (text : List Char) (name : String) (offset : Nat) : Prop where
  /-- A header of the name ends there. -/
  header : ∃ header, Header.StandsAt text offset header ∧ header.name = name.toList
  /-- No comment covers the brace. -/
  code : ∀ span ∈ Comment.spans text, span.contains offset = false

/-- The name of a registered struct is read back at its offset. -/
theorem Registers.nameAt? {text : List Char} {name : String} {offset : Nat}
    (h : Registers text name offset) : Header.nameAt? text offset = some name.toList :=
  Header.nameAt?_eq_some_iff.2 h.header

/-- A brace stands at the offset of a registered struct. -/
theorem Registers.exists_brace {text : List Char} {name : String} {offset : Nat}
    (h : Registers text name offset) :
    ∃ rest, Text.dropBytes? offset text = some ('{' :: rest) := by
  obtain ⟨header, ⟨before, head, ⟨-, -, after, rfl⟩, rfl, -⟩, -⟩ := h.header
  exact ⟨after, by rw [← List.append_assoc, Text.dropBytes?_byteSize_append]⟩

end Scan

namespace Catalog

/-- Each struct of the catalog is registered by the text of its file. -/
def FreshIn (c : Catalog) (s : Sources) : Prop :=
  ∀ name d, c.structs.get? name = some d →
    ∃ text, s.get? d.path = some text ∧ Scan.Registers text name d.offset

end Catalog

namespace Scan

open Catalog

/-- A header declares one struct, under its own name and at its brace. -/
theorem eq_of_struct_mem_headerFindings {maxScan : Nat} {path : Path} {text : List Char}
    {brace : Nat} {header : Header} {n : String} {d : StructDefinition}
    (h : Finding.struct n d ∈ headerFindings maxScan path text brace header) :
    d.path = path ∧ d.offset = brace ∧ header.name = n.toList := by
  cases declaredBy_of_mem_headerFindings h with
  | struct hfault =>
    refine ⟨rfl, rfl, ?_⟩
    -- A name that is not qualified is taken as it stands in the header.
    revert hfault
    rw [Header.declared]
    split <;> simp

/-- A struct that is found in a text is registered by the text. -/
theorem registers_of_mem_findings {maxScan : Nat} {path : Path} {text : List Char} {n : String}
    {d : StructDefinition} (h : Finding.struct n d ∈ findings maxScan path text) :
    d.path = path ∧ Registers text n d.offset := by
  rw [findings, List.mem_append, List.mem_flatMap, List.mem_flatMap] at h
  rcases h with ⟨⟨brace, header⟩, hmem, h⟩ | ⟨statement, -, h⟩
  · obtain ⟨hall, hcode⟩ := List.mem_filter.1 hmem
    obtain ⟨hpath, rfl, hname⟩ := eq_of_struct_mem_headerFindings h
    have hcode : Comment.inSpans (Comment.spans text) d.offset = false := by simpa using hcode
    refine ⟨hpath, ⟨header, Header.mem_all_iff.1 hall, hname⟩, fun span hspan => ?_⟩
    simpa using List.any_eq_false.1 hcode span hspan
  · cases statedBy_of_mem_statementFindings h

/-- Scanning a file and putting its text keeps a catalog fresh. -/
theorem freshIn_rescan {c : Catalog} {s : Sources} (h : c.FreshIn s) (maxScan : Nat) (path : Path)
    (text : List Char) : (rescan maxScan c path text).1.FreshIn (s.put path text) := by
  intro name d hd
  have hheld : (Finding.struct name d).HeldBy (rescan maxScan c path text).1 := hd
  rcases mem_or_heldBy_of_foldl_record hheld with hmem | hget
  · -- What is found now is registered by the text that is put.
    obtain ⟨rfl, hreg⟩ := registers_of_mem_findings hmem
    exact ⟨text, by simp [Sources.get?_put], hreg⟩
  · -- What was defined in the file before is forgotten, so the entry stands in another one.
    simp only [Finding.HeldBy, removePath, Table.get?_filter, Option.filter_eq_some_iff,
      Bool.not_eq_true'] at hget
    obtain ⟨hget, hpath⟩ := hget
    obtain ⟨text', htext, hreg⟩ := h name d hget
    refine ⟨text', ?_, hreg⟩
    rw [Sources.get?_put, Path.same_comm, hpath]
    simpa using htext

/-- The catalog of a workspace is fresh for the texts that were scanned, the last one of each
path. -/
theorem freshIn_workspace (maxScan : Nat) (files : List (Path × List Char)) :
    (workspace maxScan files).1.FreshIn (Sources.ofList files) := by
  rw [workspace_fst]
  have hrun : ∀ (c : Catalog) (s : Sources), c.FreshIn s →
      (rescans maxScan c files).FreshIn (files.foldl (fun s f => s.put f.1 f.2) s) := by
    induction files with
    | nil => exact fun c s h => h
    | cons file files ih => exact fun c s h => ih _ _ (freshIn_rescan h maxScan file.1 file.2)
  exact hrun _ _ fun name d h => by simp [Catalog.empty] at h

end Scan

end StructUnfold
