import StructUnfold.Scan.Basic
import StructUnfold.Workspace.Discovery

/-!
# Building the catalog of a workspace

The source files of a workspace are read and scanned one after the other. A file that cannot be read
is passed over and reported. Many files are scanned batch by batch, so that it can be told in
between how far the work has come; the batches add up to one scan of all files.
-/

namespace StructUnfold.Workspace

/-! ### One file after the other -/

/-- A catalog, the report of the scans that led to it, and how many files the reader was asked
for. -/
structure Scanned where
  /-- The catalog. -/
  catalog : Catalog
  /-- The report. -/
  report : Scan.Report
  /-- How many files the reader was asked for. -/
  reads : Nat

/-- The report of a file that could not be read. -/
def unreadable (path : Path) (error : ReadError) : Scan.Report :=
  { Scan.Report.ofSkipped 1 with problems := [.fileRead path error] }

/-- Read and scan one more file. -/
def scanFile (maxScan : Nat) (reader : Reader) (s : Scanned) (path : Path) : Scanned :=
  match reader s.reads path with
  | .ok text =>
    let (catalog, report) := Scan.rescan maxScan s.catalog path text
    ⟨catalog, s.report.absorb report, s.reads + 1⟩
  | .error error => ⟨s.catalog, s.report.absorb (unreadable path error), s.reads + 1⟩

/-- Read and scan files into a catalog when the reader was asked for `reads` files before. -/
def scanInto (maxScan : Nat) (reader : Reader) (catalog : Catalog) (reads : Nat)
    (paths : List Path) : Scanned :=
  paths.foldl (scanFile maxScan reader) ⟨catalog, .empty, reads⟩

/-- Read and scan the source files that have been found. -/
def scanFound (reader : Reader) (flatten : FlattenSettings) (found : Discovered) :
    Catalog × Scan.Report :=
  let scanned := scanInto flatten.maxScanBytes reader .empty 0 found.files
  (scanned.catalog.setMaxAliasHops flatten.aliasHopCap,
    scanned.report.absorb (.ofSkipped found.skipped))

/-- Find, read and scan the source files in and beneath the roots. -/
def build (d : Disk) (reader : Reader) (roots : List Path) (indexing : IndexingSettings)
    (flatten : FlattenSettings) : Catalog × Scan.Report :=
  scanFound reader flatten (discover d roots indexing)

/-! ### Scanning in batches -/

/-- The items of a list in batches of `size`, of which only the last may be smaller. A size of zero
counts as one. -/
def batches {α : Type} (size : Nat) : List α → List (List α)
  | [] => []
  | a :: rest => (a :: rest.take (size - 1)) :: batches size (rest.drop (size - 1))
termination_by items => items.length
decreasing_by simp only [List.length_drop, List.length_cons]; omega

/-- The sums of the first numbers of a list, one number more each time, on top of `start`. -/
def runningTotals (start : Nat) : List Nat → List Nat
  | [] => []
  | n :: rest => (start + n) :: runningTotals (start + n) rest

/-- How many files are done after each batch. -/
def doneAfter (batches : List (List Path)) : List Nat :=
  runningTotals 0 (batches.map List.length)

/-- Read and scan one more batch. -/
def scanBatch (maxScan : Nat) (reader : Reader) (s : Scanned) (batch : List Path) : Scanned :=
  let scanned := scanInto maxScan reader s.catalog s.reads batch
  ⟨scanned.catalog, s.report.absorb scanned.report, scanned.reads⟩

/-- Read and scan files batch by batch into an empty catalog, where `skipped` files were passed over
before. -/
def scanBatches (maxScan : Nat) (reader : Reader) (skipped : Nat) (batches : List (List Path)) :
    Scanned :=
  batches.foldl (scanBatch maxScan reader) ⟨.empty, .ofSkipped skipped, 0⟩

/-- Read and scan the source files that have been found, in batches of `size`. -/
def scanFoundInBatches (size : Nat) (reader : Reader) (flatten : FlattenSettings)
    (found : Discovered) : Catalog × Scan.Report :=
  let scanned :=
    scanBatches flatten.maxScanBytes reader found.skipped (batches size found.files)
  (scanned.catalog.setMaxAliasHops flatten.aliasHopCap, scanned.report)

end StructUnfold.Workspace
