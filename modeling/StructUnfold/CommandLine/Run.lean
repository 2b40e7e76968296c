import StructUnfold.CommandLine.Arguments
import StructUnfold.CommandLine.Help
import StructUnfold.CommandLine.Listing
import StructUnfold.Expansion.Basic
import StructUnfold.Output.Results
import StructUnfold.Settings.File
import StructUnfold.Workspace.Build

/-!
# Running a command

A command scans its roots, by default the current directory, under the settings file it is given or
the one nearest to its first root. What it prints or writes and how it ends is determined by its
arguments and the state of the disk.
-/

namespace StructUnfold.CommandLine

/-- Why a command fails. -/
inductive Failure where
  /-- The settings file gives no settings. -/
  | settings (error : Settings.FileError)
  /-- The query names no struct. -/
  | query (problem : Problem)
  /-- The result cannot be written. -/
  | output (fault : SystemFault)
deriving DecidableEq, Repr

/-- The wording of a failure. -/
def Failure.message : Failure → String
  | settings error => error.message
  | query problem => problem.message
  | output fault => fault.message

/-- The name and number of this version. -/
def versionText : String :=
  "destructify 0.1.0"

/-- The directories to scan: those given, or else the current one. -/
def scanRoots (d : Disk) (roots : List Path) : List Path :=
  if roots.isEmpty then [Path.ofNames d.current] else roots

/-- The settings for a command. -/
def loadSettings (d : Disk) (roots : List Path) (config : Option Path) :
    Except Settings.FileError Settings :=
  match config, roots with
  | some path, _ => Settings.mergeFile d .default path
  | none, root :: _ => Settings.discover d root
  | none, [] => .ok .default

/-- The catalog of the roots. -/
def catalogOf (d : Disk) (roots : List Path) (s : Settings) : Catalog :=
  (Workspace.build d d.reader roots s.indexing s.flatten).1

/-- How a command ends. -/
structure Outcome where
  /-- The exit code. -/
  exitCode : Nat
  /-- What is printed. -/
  printed : String
  /-- The failure that is logged. -/
  failure : Option Failure
  /-- The disk at the end. -/
  disk : Disk

/-- The end of a command that does what it is asked. -/
def Outcome.done (printed : String) (d : Disk) : Outcome :=
  ⟨0, printed, none, d⟩

/-- The end of a command that fails. -/
def Outcome.failed (failure : Failure) (d : Disk) : Outcome :=
  ⟨1, "", some failure, d⟩

/-- Expand a symbol and print the result, or write it to a file. -/
def runExpand (d : Disk) (symbol : String) (roots : List Path) (config output : Option Path) :
    Outcome :=
  let roots := scanRoots d roots
  match loadSettings d roots config with
  | .error e => .failed (.settings e) d
  | .ok s =>
    let ctx : Expansion.Context := ⟨catalogOf d roots s, d.reader, s.flatten.options⟩
    match Expansion.expand ctx symbol.toList with
    | .error p => .failed (.query p) d
    | .ok e =>
      let text := e.text s.flatten.indentWidth
      match output with
      | none => .done (Output.written text) d
      | some path =>
        match (Output.Target.file path).write d symbol text with
        | (d, .error fault) => .failed (.output fault) d
        | (d, .ok _) => .done "" d

/-- The line of a byte offset in a file. -/
def lineOfFile (d : Disk) (path : Path) (offset : Nat) : Option Nat :=
  match d.read path with
  | .ok content => lineNumber? content.toList offset
  | .error _ => none

/-- List the names that match a query. -/
def runSymbols (d : Disk) (query : String) (roots : List Path) : Outcome :=
  let roots := scanRoots d roots
  match loadSettings d roots none with
  | .error e => .failed (.settings e) d
  | .ok s =>
    let rows := (catalogOf d roots s).searchAll query
    .done (Output.written (listing (lineOfFile d) rows)) d

/-- The file that the log goes to when a path is given for it, which may name a directory only. -/
def logFile (path : Path) : Path :=
  (path.parent?.getD (.ofString ".")).join
    (path.fileName?.elim (.ofString "destructify.log") fun name => ⟨name⟩)

/-- Open the file that the log goes to. If that fails, it is tried once more after making the
directory it is to stand in. -/
def openLog (d : Disk) (path : Path) : Disk × Except SystemFault Unit :=
  let file := logFile path
  match d.openToAppend file with
  | .ok d => (d, .ok ())
  | .error _ =>
    match Output.makeRoom d file with
    | (d, .error fault) => (d, .error fault)
    | (d, .ok ()) =>
      match d.openToAppend file with
      | .ok d => (d, .ok ())
      | .error fault => (d, .error fault)

/-- Begin to serve, and end again because nobody speaks. Without its log the server breaks off. -/
def runServe (d : Disk) : Option Path → Outcome
  | none => .done "" d
  | some path =>
    match openLog d path with
    | (d, .ok ()) => .done "" d
    | (d, .error _) => ⟨101, "", none, d⟩

/-- Run a command. -/
def Command.run (d : Disk) : Command → Outcome
  | .serve log => runServe d log
  | .expand symbol roots config output => runExpand d symbol roots config output
  | .symbols query roots => runSymbols d query roots

/-- The end of a command line that gives no command. -/
def Stop.outcome (d : Disk) : Stop → Outcome
  | help topic => ⟨0, topic.text, none, d⟩
  | version => ⟨0, versionText ++ "\n", none, d⟩
  | misuse => ⟨2, "", none, d⟩

/-- Run a command line. -/
def run (d : Disk) (args : List String) : Outcome :=
  match parse args with
  | .ok command => command.run d
  | .error stop => stop.outcome d

end StructUnfold.CommandLine
