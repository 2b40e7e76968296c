import StructUnfold.Problem
import StructUnfold.Scan.Finding

/-!
# Scanning

Scanning a text records its findings in a catalog and counts them in a report, which keeps the
problems that were met, in order. Scanning a file again first forgets what stood in it.
-/

namespace StructUnfold.Scan

/-! ### Reports -/

/-- Counts and problems of one scan or of several. -/
structure Report where
  /-- Number of files scanned. -/
  filesScanned : Nat
  /-- Number of files passed over. -/
  filesSkipped : Nat
  /-- Number of structs found. -/
  structs : Nat
  /-- Number of aliases found. -/
  aliases : Nat
  /-- Number of names found that could not be parsed. -/
  unparseable : Nat
  /-- The problems met, in order. -/
  problems : List Problem
deriving DecidableEq, Repr, Inhabited

namespace Report

/-- The report of no scan. -/
def empty : Report :=
  ⟨0, 0, 0, 0, 0, []⟩

/-- The report that a number of files were passed over. -/
def ofSkipped (files : Nat) : Report :=
  { empty with filesSkipped := files }

/-- The report of two scans, one after the other. -/
def absorb (r s : Report) : Report :=
  { filesScanned := r.filesScanned + s.filesScanned
    filesSkipped := r.filesSkipped + s.filesSkipped
    structs := r.structs + s.structs
    aliases := r.aliases + s.aliases
    unparseable := r.unparseable + s.unparseable
    problems := r.problems ++ s.problems }

/-- A report in one line. -/
def summary (r : Report) : String :=
  toString r.filesScanned ++ " file(s) scanned, " ++ toString r.filesSkipped ++ " skipped: " ++
    toString r.structs ++ " struct(s), " ++ toString r.aliases ++ " alias(es), " ++
    toString r.unparseable ++ " unparseable, " ++ toString r.problems.length ++ " problem(s)"

@[simp] theorem empty_absorb (r : Report) : empty.absorb r = r := by
  simp [absorb, empty]

@[simp] theorem absorb_empty (r : Report) : r.absorb empty = r := by
  simp [absorb, empty]

theorem absorb_assoc (r s t : Report) : (r.absorb s).absorb t = r.absorb (s.absorb t) := by
  simp [absorb, Nat.add_assoc]

end Report

/-! ### Scans -/

/-- Record a finding. -/
def Finding.record (c : Catalog) : Finding → Catalog
  | .struct name definition => c.insertStruct name definition
  | .aliased name value => c.insertAlias name value
  | .unparseable name entry => c.insertUnparseable name entry
  | .problem _ => c

/-- The report of the finding alone. -/
def Finding.report : Finding → Report
  | .struct _ _ => { Report.empty with structs := 1 }
  | .aliased _ _ => { Report.empty with aliases := 1 }
  | .unparseable _ _ => { Report.empty with unparseable := 1 }
  | .problem p => { Report.empty with problems := [p] }

/-- The report of one file with these findings. -/
def Report.ofFindings (findings : List Finding) : Report :=
  findings.foldl (fun r f => r.absorb f.report) { Report.empty with filesScanned := 1 }

/-- Scan a text: the catalog with its findings, and their report. -/
def scan (maxScan : Nat) (c : Catalog) (path : Path) (text : List Char) : Catalog × Report :=
  let found := findings maxScan path text
  (found.foldl Finding.record c, Report.ofFindings found)

/-- Forget what stood in a file and scan its text. -/
def rescan (maxScan : Nat) (c : Catalog) (path : Path) (text : List Char) : Catalog × Report :=
  scan maxScan (c.removePath path) path text

/-- Scan files in order into an empty catalog. -/
def workspace (maxScan : Nat) (files : List (Path × List Char)) : Catalog × Report :=
  files.foldl
    (fun (c, report) (path, text) =>
      let (c, r) := rescan maxScan c path text
      (c, report.absorb r))
    (Catalog.empty, Report.empty)

end StructUnfold.Scan
