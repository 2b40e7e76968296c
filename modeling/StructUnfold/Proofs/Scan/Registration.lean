import StructUnfold.Proofs.Scan.Current
import StructUnfold.Proofs.Scan.Fresh

/-!
# What every run of scans keeps

A catalog is built up by scans, by rescans and by forgetting files, and a caller may enter names by
hand. Whatever is done to it, no name is both a struct and unparseable. As long as it is filled by
scanning alone, its entries are moreover as sound as a single text makes them: names and targets
are identifiers, and each place is that of a brace which the scan that registered it has seen.

* `Scan.Step`, `Scan.run`: what is done to a catalog by scanning, and a run of such steps.
* `Catalog.Update`, `Catalog.run`: the same with entries made by hand.
* `Finding.WellNamed`, `wellNamed_of_mem_findings`: the names in what a text holds.
* `CodeBrace`, `codeBrace_of_mem_findings`: the places in what a text holds.
* `RegisteredBy`, `registeredBy_of_heldBy_run`: the scan of a run that registered an entry.
* `run_keeps_catalog_sound`: both together.
-/

namespace StructUnfold

namespace Scan

open Catalog

/-! ## Runs -/

/-- What is done to a catalog by scanning. -/
inductive Step where
  /-- The text of a file is scanned. -/
  | scan (maxScan : Nat) (path : Path) (text : List Char)
  /-- A file is forgotten and its text scanned. -/
  | rescan (maxScan : Nat) (path : Path) (text : List Char)
  /-- A file is forgotten. -/
  | removePath (path : Path)
deriving DecidableEq, Repr

namespace Step

/-- The catalog behind a step. -/
def apply (c : Catalog) : Step → Catalog
  | scan maxScan path text => (Scan.scan maxScan c path text).1
  | rescan maxScan path text => (Scan.rescan maxScan c path text).1
  | removePath path => c.removePath path

/-- The file that is scanned, with its text. -/
def file? : Step → Option (Path × List Char)
  | scan _ path text => some (path, text)
  | rescan _ path text => some (path, text)
  | removePath _ => none

/-- What is found in the text that is scanned. -/
def findings : Step → List Finding
  | scan maxScan path text => Scan.findings maxScan path text
  | rescan maxScan path text => Scan.findings maxScan path text
  | removePath _ => []

end Step

/-- The catalog behind a run that starts with no entries. -/
def run (steps : List Step) : Catalog :=
  steps.foldl Step.apply Catalog.empty

theorem run_concat (steps : List Step) (step : Step) :
    run (steps ++ [step]) = step.apply (run steps) := by
  rw [run, List.foldl_concat, run]

/-- What a catalog holds behind a step was found in it or held before. -/
theorem Step.mem_or_heldBy_of_apply {c : Catalog} {step : Step} {f : Finding}
    (h : f.HeldBy (step.apply c)) : f ∈ step.findings ∨ f.HeldBy c := by
  cases step with
  | scan maxScan path text => exact mem_or_heldBy_of_foldl_record h
  | rescan maxScan path text =>
    exact (mem_or_heldBy_of_foldl_record h).imp_right fun hold => (heldBy_removePath hold).1
  | removePath path => exact .inr (heldBy_removePath h).1

/-- What a step finds is found in its file. -/
theorem Step.exists_of_mem_findings {step : Step} {f : Finding} (h : f ∈ step.findings) :
    ∃ maxScan path text, step.file? = some (path, text) ∧ f ∈ Scan.findings maxScan path text := by
  cases step with
  | scan maxScan path text => exact ⟨maxScan, path, text, rfl, h⟩
  | rescan maxScan path text => exact ⟨maxScan, path, text, rfl, h⟩
  | removePath path => cases h

end Scan

namespace Catalog

/-- What is done to a catalog by scanning or by hand. -/
inductive Update where
  /-- A step of scanning. -/
  | scanned (step : Scan.Step)
  /-- A struct is defined. -/
  | insertStruct (name : String) (definition : StructDefinition)
  /-- An alias is declared. -/
  | insertAlias (name : String) (value : Alias)
  /-- A name is recorded that could not be parsed. -/
  | insertUnparseable (name : String) (entry : UnparseableStruct)

/-- The catalog behind an update. -/
def Update.apply (c : Catalog) : Update → Catalog
  | scanned step => step.apply c
  | insertStruct name definition => c.insertStruct name definition
  | insertAlias name value => c.insertAlias name value
  | insertUnparseable name entry => c.insertUnparseable name entry

/-- The catalog behind a run of updates that starts with no entries. -/
def run (updates : List Update) : Catalog :=
  updates.foldl Update.apply empty

theorem IsConsistent.step {c : Catalog} (h : c.IsConsistent) (step : Scan.Step) :
    (step.apply c).IsConsistent := by
  cases step with
  | scan maxScan path text => exact h.foldl_record _
  | rescan maxScan path text => exact (h.removePath path).foldl_record _
  | removePath path => exact h.removePath path

/-- An entry made by hand is made as a finding is recorded. -/
theorem IsConsistent.update {c : Catalog} (h : c.IsConsistent) (update : Update) :
    (update.apply c).IsConsistent := by
  cases update with
  | scanned step => exact h.step step
  | insertStruct name definition => exact h.record (.struct name definition)
  | insertAlias name value => exact h.record (.aliased name value)
  | insertUnparseable name entry => exact h.record (.unparseable name entry)

theorem isConsistent_run (updates : List Update) : (run updates).IsConsistent := by
  have hrun : ∀ c : Catalog, c.IsConsistent → (updates.foldl Update.apply c).IsConsistent := by
    induction updates with
    | nil => exact fun c h => h
    | cons update updates ih => exact fun c h => ih _ (h.update update)
  exact hrun empty isConsistent_empty

end Catalog

namespace Scan

open Catalog

/-! ## The names in what a text holds -/

/-- The names of a finding are names of structs and aliases: identifiers, none of them the keyword
that introduces a struct, and an alias is not its own target. -/
def Finding.WellNamed : Finding → Prop
  | .struct name _ => Text.isIdentifier name.toList = true ∧ name ≠ "struct"
  | .aliased name a =>
    Text.isIdentifier name.toList = true ∧ Text.isIdentifier a.target.toList = true ∧
      a.target ≠ name
  | .unparseable _ _ => True
  | .problem _ => True

/-- The name of a declarator is an identifier. -/
theorem isIdentifier_of_parse? {raw : List Char} {d : Declarator}
    (h : Declarator.parse? raw = some d) : Text.isIdentifier d.name.toList = true := by
  rw [Declarator.parse?] at h
  split at h
  · split at h
    · rename_i hident
      obtain rfl := Option.some.inj h
      rwa [String.toList_ofList]
    · cases h
  · cases h

theorem isIdentifier_of_mem_parseList {list : List Char} {d : Declarator}
    (h : d ∈ Declarator.parseList list) : Text.isIdentifier d.name.toList = true := by
  obtain ⟨raw, -, hraw⟩ := List.mem_filterMap.1 h
  exact isIdentifier_of_parse? hraw

/-- A struct without fault has an identifier for a name. -/
theorem wellNamed_declared {header : Header} (h : header.declared.fault = none) :
    Text.isIdentifier header.declared.name.toList = true ∧ header.declared.name ≠ "struct" := by
  rw [Header.declared] at h ⊢
  split at h
  · cases h
  · dsimp only at h ⊢
    rw [Header.nameFault?] at h
    split at h
    · cases h
    · split at h
      · cases h
      · rename_i hstruct
        split at h
        · cases h
        · rename_i hident
          rw [String.toList_ofList]
          refine ⟨by simpa using hident, fun hname => hstruct ?_⟩
          rw [← hname, String.toList_ofList]
          exact beq_self_eq_true _

theorem wellNamed_of_mem_headerFindings {maxScan : Nat} {path : Path} {text : List Char}
    {brace : Nat} {header : Header} {f : Finding}
    (h : f ∈ headerFindings maxScan path text brace header) : f.WellNamed := by
  cases declaredBy_of_mem_headerFindings h with
  | struct hfault => exact wellNamed_declared hfault
  | aliased _ _ hfault hd hne =>
    exact ⟨isIdentifier_of_mem_parseList hd, (wellNamed_declared hfault).1, hne.symm⟩
  | unparseable | malformed | unnamed => trivial

theorem wellNamed_of_mem_statementFindings {path : Path} {statement : AliasStatement}
    {f : Finding} (h : f ∈ statementFindings path statement) : f.WellNamed := by
  cases statedBy_of_mem_statementFindings h with
  | aliased hparse hd hne =>
    rw [AliasStatement.parse?] at hparse
    split at hparse
    · rename_i hcheck
      obtain ⟨rfl, rfl⟩ := Prod.mk.inj (Option.some.inj hparse)
      rw [Bool.and_eq_true] at hcheck
      refine ⟨isIdentifier_of_mem_parseList hd, ?_, hne.symm⟩
      rw [String.toList_ofList]
      exact hcheck.1
    · cases hparse
  | malformed => trivial

/-- All that a text holds is well named. -/
theorem wellNamed_of_mem_findings {maxScan : Nat} {path : Path} {text : List Char} {f : Finding}
    (h : f ∈ findings maxScan path text) : f.WellNamed := by
  rw [findings, List.mem_append, List.mem_flatMap, List.mem_flatMap] at h
  rcases h with ⟨_, -, h⟩ | ⟨_, -, h⟩
  · exact wellNamed_of_mem_headerFindings h
  · exact wellNamed_of_mem_statementFindings h

/-! ## The places in what a text holds -/

/-- The place a finding holds, if it holds one: a file and an offset in it. -/
def Finding.place? : Finding → Option (Path × Nat)
  | .struct _ d => some (d.path, d.offset)
  | .aliased _ _ => none
  | .unparseable _ u => some (u.path, u.offset)
  | .problem _ => none

/-- A brace stands at an offset of a text, outside all comments. -/
structure CodeBrace (text : List Char) (offset : Nat) : Prop where
  /-- A brace stands there. -/
  brace : ∃ rest, Text.dropBytes? offset text = some ('{' :: rest)
  /-- No comment covers it. -/
  code : ∀ span ∈ Comment.spans text, span.contains offset = false

/-- A header gives its own brace for the place of all that it declares. -/
theorem place?_of_mem_headerFindings {maxScan : Nat} {path : Path} {text : List Char}
    {brace : Nat} {header : Header} {f : Finding} {place : Path × Nat}
    (h : f ∈ headerFindings maxScan path text brace header) (hplace : f.place? = some place) :
    place = (path, brace) := by
  cases declaredBy_of_mem_headerFindings h with
  | struct | unparseable | unnamed => exact (Option.some.inj hplace).symm
  | malformed | aliased => cases hplace

/-- An alias statement gives no places. -/
theorem place?_of_mem_statementFindings {path : Path} {statement : AliasStatement} {f : Finding}
    (h : f ∈ statementFindings path statement) : f.place? = none := by
  cases statedBy_of_mem_statementFindings h <;> rfl

/-- Each place in what a text holds is that of a brace in its code. -/
theorem codeBrace_of_mem_findings {maxScan : Nat} {path : Path} {text : List Char} {f : Finding}
    {place : Path × Nat} (h : f ∈ findings maxScan path text) (hplace : f.place? = some place) :
    place.1 = path ∧ CodeBrace text place.2 := by
  rw [findings, List.mem_append, List.mem_flatMap, List.mem_flatMap] at h
  rcases h with ⟨⟨brace, header⟩, hheader, h⟩ | ⟨statement, -, h⟩
  · obtain rfl := place?_of_mem_headerFindings h hplace
    obtain ⟨hall, hcode⟩ := List.mem_filter.1 hheader
    have hcode : Comment.inSpans (Comment.spans text) brace = false := by simpa using hcode
    -- Where a header stands, its brace stands at the offset that is given for it.
    have hregisters : Registers text (String.ofList header.name) brace :=
      ⟨⟨header, Header.mem_all_iff.1 hall, String.toList_ofList.symm⟩,
        fun span hspan => by simpa using List.any_eq_false.1 hcode span hspan⟩
    exact ⟨rfl, hregisters.exists_brace, hregisters.code⟩
  · rw [place?_of_mem_statementFindings h] at hplace
    cases hplace

/-! ## The scan that registered an entry -/

/-- A step of a run registers a finding: the step finds it, it is held from there on, and no later
step finds it again. -/
structure RegisteredBy (steps : List Step) (f : Finding) (step : Step) : Prop where
  /-- The step finds it. -/
  found : f ∈ step.findings
  /-- It is held from there on and not found again. -/
  since : ∃ before after, steps = before ++ step :: after ∧
    (∀ done, done <+: after → f.HeldBy (run (before ++ step :: done))) ∧
    ∀ later ∈ after, f ∉ later.findings

/-- What is held behind a run has been registered by one of its steps. -/
theorem registeredBy_of_heldBy_run {steps : List Step} {f : Finding} (h : f.HeldBy (run steps)) :
    ∃ step, RegisteredBy steps f step := by
  -- On the last step: it finds the entry itself, or it has left what was held before.
  induction steps using List.reverseRecOn with
  | nil => cases f <;> simp [Finding.HeldBy, run, Catalog.empty] at h
  | append_singleton steps last ih =>
    by_cases hfound : f ∈ last.findings
    · refine ⟨last, hfound, steps, [], rfl, fun done hdone => ?_, by simp⟩
      rwa [List.prefix_nil.1 hdone]
    · have hold : f.HeldBy (run steps) := by
        rw [run_concat] at h
        exact (Step.mem_or_heldBy_of_apply h).resolve_left hfound
      obtain ⟨step, hstep, before, after, rfl, hheld, hlater⟩ := ih hold
      refine ⟨step, hstep, before, after ++ [last], by simp, fun done hdone => ?_, ?_⟩
      -- The run up to the last step is the whole one, for which the entry is held by assumption.
      · rcases List.prefix_concat_iff.1 hdone with rfl | hdone
        · simpa using h
        · exact hheld done hdone
      · intro later hmem
        rcases List.mem_append.1 hmem with hmem | hmem
        · exact hlater later hmem
        · obtain rfl := List.mem_singleton.1 hmem
          exact hfound

/-- The place of an entry is one that the text of the step had which registered it. -/
theorem RegisteredBy.exists_codeBrace {steps : List Step} {f : Finding} {step : Step}
    (h : RegisteredBy steps f step) {place : Path × Nat} (hplace : f.place? = some place) :
    ∃ text, step.file? = some (place.1, text) ∧ CodeBrace text place.2 := by
  obtain ⟨maxScan, path, text, hfile, hmem⟩ := Step.exists_of_mem_findings h.found
  obtain ⟨hpath, hbrace⟩ := codeBrace_of_mem_findings hmem hplace
  exact ⟨text, by rw [hfile, hpath], hbrace⟩

theorem wellNamed_of_heldBy_run {steps : List Step} {f : Finding} (h : f.HeldBy (run steps)) :
    f.WellNamed := by
  obtain ⟨step, hstep⟩ := registeredBy_of_heldBy_run h
  obtain ⟨maxScan, path, text, -, hmem⟩ := Step.exists_of_mem_findings hstep.found
  exact wellNamed_of_mem_findings hmem

/-- Whatever is done to a catalog, no name is both a struct and unparseable. Whatever is scanned,
structs have identifiers other than the keyword for names, aliases lead from one identifier to
another, and structs and unparseable names hold the file and the place of a brace in the code of the
text whose scan registered them. -/
theorem run_keeps_catalog_sound :
    (∀ (updates : List Catalog.Update) (name : String),
      ¬((Catalog.run updates).structs.contains name = true ∧
        (Catalog.run updates).unparseable.contains name = true)) ∧
    ∀ steps : List Step,
      (∀ name d, (run steps).structs.get? name = some d →
        Text.isIdentifier name.toList = true ∧ name ≠ "struct" ∧
        ∃ step text, RegisteredBy steps (.struct name d) step ∧
          step.file? = some (d.path, text) ∧ CodeBrace text d.offset) ∧
      (∀ name a, (run steps).aliases.get? name = some a →
        Text.isIdentifier name.toList = true ∧ Text.isIdentifier a.target.toList = true ∧
        a.target ≠ name) ∧
      (∀ name u, (run steps).unparseable.get? name = some u →
        ∃ step text, RegisteredBy steps (.unparseable name u) step ∧
          step.file? = some (u.path, text) ∧ CodeBrace text u.offset) := by
  refine ⟨fun updates name => ?_, fun steps => ⟨fun name d h => ?_, fun name a h => ?_,
    fun name u h => ?_⟩⟩
  -- Updates keep the tables apart.
  · rintro ⟨hstruct, hunparseable⟩
    have hnone := Catalog.isConsistent_run updates name hstruct
    rw [Table.contains, hnone] at hunparseable
    cases hunparseable
  -- An entry of a table is a finding that is held, so a step of the run registered it.
  · have hheld : (Finding.struct name d).HeldBy (run steps) := h
    obtain ⟨hident, hkeyword⟩ := wellNamed_of_heldBy_run hheld
    obtain ⟨step, hstep⟩ := registeredBy_of_heldBy_run hheld
    obtain ⟨text, hfile, hbrace⟩ := hstep.exists_codeBrace rfl
    exact ⟨hident, hkeyword, step, text, hstep, hfile, hbrace⟩
  · have hheld : (Finding.aliased name a).HeldBy (run steps) := h
    exact wellNamed_of_heldBy_run hheld
  · have hheld : (Finding.unparseable name u).HeldBy (run steps) := h
    obtain ⟨step, hstep⟩ := registeredBy_of_heldBy_run hheld
    obtain ⟨text, hfile, hbrace⟩ := hstep.exists_codeBrace rfl
    exact ⟨step, text, hstep, hfile, hbrace⟩

end Scan

end StructUnfold
