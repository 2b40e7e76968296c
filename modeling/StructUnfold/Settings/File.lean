import StructUnfold.Disk.Basic
import StructUnfold.Settings.Layer

/-!
# Settings files

Settings may stand in a file `destructify.toml` in the workspace or in a directory above it; the
nearest one counts.
-/

namespace StructUnfold.Settings

/-- Why a settings file gives no settings. -/
inductive FileError where
  /-- It cannot be read. -/
  | unreadable (path : Path) (error : ReadError)
  /-- It is no TOML document, or one with an ill-typed value. -/
  | malformed (path : Path)
deriving DecidableEq, Repr

/-- The wording of an error. -/
def FileError.message : FileError → String
  | unreadable path error => (Problem.fileRead path error).message
  | malformed path => "invalid configuration in " ++ path.display

/-- The name of a settings file. -/
def fileName : Path :=
  .ofString "destructify.toml"

/-- The settings file in a directory or in the nearest one above it; `fuel` bounds their number. -/
def findFrom? (d : Disk) (directory : Path) : Nat → Option Path
  | 0 => none
  | fuel + 1 =>
    let candidate := directory.join fileName
    if d.isFile candidate then some candidate
    else directory.parent?.bind fun parent => findFrom? d parent fuel

/-- The settings file for a file or directory. -/
def findFile? (d : Disk) (start : Path) : Option Path :=
  let fuel := start.bytes.length + 2
  if d.isFile start then start.parent?.bind fun directory => findFrom? d directory fuel
  else findFrom? d start fuel

/-- Settings merged with a settings file. -/
def mergeFile (d : Disk) (s : Settings) (path : Path) : Except FileError Settings :=
  match d.read path with
  | .error fault => .error (.unreadable path (.system fault))
  | .ok content =>
    match s.mergeToml? content.toList with
    | some s => .ok s
    | none => .error (.malformed path)

/-- The default settings merged with the settings file for a file or directory, if there is one. -/
def discover (d : Disk) (start : Path) : Except FileError Settings :=
  match findFile? d start with
  | some path => mergeFile d .default path
  | none => .ok .default

end StructUnfold.Settings
