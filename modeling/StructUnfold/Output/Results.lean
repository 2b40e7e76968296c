import StructUnfold.Disk.Change
import StructUnfold.Path
import StructUnfold.Text.Space

/-!
# Where results go

The text of an expansion goes into a file of a results directory, named for its symbol, or into one
given file, instead of what the file held. Directories that are missing are made, except for a file
in the current directory.
-/

namespace StructUnfold.Output

/-! ### Destinations -/

/-- A destination for expansions. -/
inductive Target where
  /-- A file for each symbol in one directory. -/
  | directory (path : Path)
  /-- One file for all. -/
  | file (path : Path)
deriving DecidableEq, Repr

/-- The results directory of a workspace: `directory` as seen from the root. -/
def resultsDirectory (root : Path) (directory : String) : Path :=
  root.join (.ofString directory)

/-- A symbol as the name of a file: each character that is no identifier character becomes an
underscore. -/
def fileStem (symbol : String) : String :=
  let stem := (Text.trim symbol.toList).map fun c => if c.isAlphanum || c == '_' then c else '_'
  if stem.isEmpty then "expansion" else String.ofList stem

/-- The file that the expansion of a symbol goes to. -/
def Target.pathFor (target : Target) (symbol : String) : Path :=
  match target with
  | .directory path => path.join (.ofString (fileStem symbol ++ ".txt"))
  | .file path => path

/-- An expansion as it is written. -/
def written (text : String) : String :=
  text ++ "\n"

/-! ### Writing -/

/-- Make the directory that a file is to stand in. -/
def makeRoom (d : Disk) (path : Path) : Disk × Except SystemFault Unit :=
  match path.parent? with
  | some parent => d.createDirectories parent
  | none => (d, .ok ())

/-- Write the expansion of a symbol. The result is the disk, on which directories may have been made
even if the file cannot be written, and the file written. -/
def Target.write (target : Target) (d : Disk) (symbol text : String) :
    Disk × Except SystemFault Path :=
  let path := target.pathFor symbol
  match makeRoom d path with
  | (d, .error fault) => (d, .error fault)
  | (d, .ok ()) =>
    match d.write path (written text) with
    | .ok d => (d, .ok path)
    | .error fault => (d, .error fault)

end StructUnfold.Output
