import StructUnfold.Disk.Basic
import StructUnfold.Settings.Basic

/-!
# Finding source files

Source files are looked for in and beneath the roots of a workspace. Links are followed, except into
a directory that is being looked through. Directories of certain names are passed over, and so is
all that lies beneath an excluded path. Files are known by the normal forms of the paths on which
they are met, and each is found once.
-/

namespace StructUnfold.Workspace

/-- A file or directory met on the way. -/
structure Visit where
  /-- The path on which it was met. -/
  path : Path
  /-- Where it stands. -/
  place : Place
deriving DecidableEq, Repr

/-- Names of directories that are passed over. -/
def skippedNames : List String :=
  ["target", "node_modules", "out", "bin", "obj", "CMakeFiles"]

/-- Whether a directory of this name is passed over beneath a root. -/
def isSkippedName (name : FileName) : Bool :=
  name.head? == some Path.dot || !Text.isUtf8 name ||
    skippedNames.any fun skipped => FileName.ofString skipped == name

/-- The paths beneath which nothing is looked at: absolute ones as they are, others as seen from
each root. -/
def excludedPrefixes (d : Disk) (roots : List Path) (excludePaths : List String) : List Path :=
  excludePaths.flatMap fun text =>
    let path := Path.ofString text
    if path.isAbsolute then [d.normalize path]
    else roots.map fun root => d.normalize (root.join path)

/-- Whether a path in normal form lies beneath one of the paths. -/
def isExcluded (excluded : List Path) (path : Path) : Bool :=
  excluded.any fun p => path.startsWith p

/-- An entry of a directory, a link followed; none for a link that leads nowhere or into a directory
that is being looked through. -/
def follow? (d : Disk) (around : List Place) (v : Visit) : Option Visit :=
  match d.entryAt? v.place with
  | some (.link _) =>
    -- Links that were followed on the way to this one count with it.
    match d.resolve v.path with
    | .ok found =>
      if d.entryAt? found == some .directory && around.contains found then none
      else some ⟨v.path, found⟩
    | .error _ => none
  | some _ => some v
  | none => none

/-- The files in and beneath what stands at a place. `around` are the directories that are being
looked through, and `fuel` bounds how deep they nest. -/
def filesAt (d : Disk) (excluded : List Path) (around : List Place) (v : Visit) :
    Nat → List Visit
  | 0 => []
  | fuel + 1 =>
    if isExcluded excluded (d.normalize v.path) then []
    else
      match d.entryAt? v.place with
      | some .directory =>
        -- A root is looked through whatever its name is.
        if !around.isEmpty && (v.path.fileName?.any isSkippedName) then []
        else if Disk.maxPathBytes < v.path.bytes.length then []
        else
          let around := v.place :: around
          (d.children v.place).flatMap fun name =>
            match follow? d around ⟨v.path.join ⟨name⟩, v.place ++ [name]⟩ with
            | some v => filesAt d excluded around v fuel
            | none => []
      | some entry => if entry.isFile then [v] else []
      | none => []

/-- How deep directories can nest in each other on a disk, links followed. -/
def nestingBound (d : Disk) : Nat :=
  (d.entries.length + 2) * (d.entries.length + 2)

/-- The files in and beneath a root. -/
def filesUnder (d : Disk) (excluded : List Path) (root : Path) : List Visit :=
  match d.resolve root with
  | .ok place => filesAt d excluded [] ⟨root, place⟩ (nestingBound d)
  | .error _ => []

/-- The byte of a letter in lower case. -/
def lowerByte (b : UInt8) : UInt8 :=
  if 65 ≤ b && b ≤ 90 then b + 32 else b

/-- Whether a path has one of the extensions, case aside. -/
def hasExtension (extensions : List String) (path : Path) : Bool :=
  path.extension?.any fun ext =>
    extensions.any fun allowed => Text.utf8 allowed.toLower == ext.map lowerByte

/-- The source files of a workspace. -/
structure Discovered where
  /-- The files, each once. -/
  files : List Path
  /-- Number of times a file was met that is too large. -/
  skipped : Nat
deriving DecidableEq, Repr

/-- The source files in and beneath the roots. -/
def discover (d : Disk) (roots : List Path) (settings : IndexingSettings) : Discovered :=
  let excluded := excludedPrefixes d roots settings.excludePaths
  let met := (roots.flatMap (filesUnder d excluded)).filter fun v =>
    hasExtension settings.extensions v.path
  let isLarge (v : Visit) : Bool :=
    -- The size of a file cannot be asked for through a path that is too long.
    v.path.bytes.length ≤ Disk.maxPathBytes &&
      (d.entryAt? v.place).any fun entry => settings.maxFileSizeBytes < entry.size
  let found := (met.filter fun v => !isLarge v).map fun v => d.normalize v.path
  { files := found.eraseDupsBy Path.same
    skipped := met.countP isLarge }

end StructUnfold.Workspace
