import StructUnfold.Progress
import StructUnfold.Server.Session
import StructUnfold.Workspace.Build

/-!
# Keeping the catalog of a session

The catalog comes from a scan of the whole workspace, which the editor can follow batch by batch.
After that single files are scanned anew when they change.
-/

namespace StructUnfold.Server.Session

/-- Number of files in a batch. -/
def batchSize : Nat := 64

/-- The token under which a scan can be followed. -/
def scanToken (scan : Nat) : String :=
  "destructify/scanning/" ++ toString scan

/-- How far a scan has come when so many of all files are done. -/
def reached (total done : Nat) : ScanProgress :=
  .reached done total (min 100 (Progress.percentage done.toUInt64 total.toUInt64).toNat)

/-- The steps of a scan of files in batches, before its end. -/
def scanSteps (files : List Path) : List ScanProgress :=
  .begun files.length ::
    (Workspace.doneAfter (Workspace.batches batchSize files)).map (reached files.length)

/-- Tell the editor under a token how far a scan has come, step by step. -/
def sendSteps (s : Session) (token : String) (steps : List ScanProgress) : Session :=
  steps.foldl (fun s step => s.send (.progress token step)) s

/-- Scan the whole workspace, unless no source files are to be looked for. The result holds the
report of the scan. -/
def index (s : Session) : Session × Option Scan.Report :=
  let settings := s.state.settings
  if settings.indexing.enable then
    let found := Workspace.discover s.disk s.state.roots settings.indexing
    let (catalog, report) :=
      Workspace.scanFoundInBatches batchSize s.reader settings.flatten found
    let token := scanToken (s.state.scans + 1)
    let s := s.update fun state =>
      { state with catalog, ready := true, scans := state.scans + 1 }
    let s := (s.send (.follow token)).sendSteps token (scanSteps found.files)
    let s := s.logInfo ("Scanned workspace: " ++ report.summary)
    (s.send (.progress token (.ended catalog.structs.size)), some report)
  else (s.update fun state => { state with ready := true }, none)

/-- Scan one file anew. Files that are no source files are passed over, and a file that cannot be
read loses its entries. -/
def rescanFile (s : Session) (path : Path) : Session :=
  let settings := s.state.settings
  if settings.indexing.enable && Workspace.hasExtension settings.indexing.extensions path then
    -- The entries go first, so that none is left if the file cannot be read.
    let scanned := Workspace.scanInto settings.flatten.maxScanBytes s.reader
      (s.state.catalog.removePath path) 0 [path]
    s.update fun state => { state with catalog := scanned.catalog }
  else s

/-- Scan the file of a document anew, if it is one. -/
def rescan (s : Session) (uri : Uri) : Session :=
  match uri.toFilePath? with
  | some path => s.rescanFile (s.disk.normalize path)
  | none => s

/-- Run a rescan that was put off, unless another edit of the document has come since. -/
def rescanAfter (s : Session) (uri : Uri) (edit : Nat) : Session :=
  if s.state.editsOf? uri == some edit then s.rescan uri else s

/-- Let the edits come to rest and run the rescans that were put off. -/
def settle (s : Session) : Session :=
  let due := s.state.putOff
  due.foldl (fun s (uri, edit) => s.rescanAfter uri edit)
    (s.update fun state => { state with putOff := [] })

end StructUnfold.Server.Session
