import StructUnfold.Expansion.Run
import StructUnfold.Problem

/-!
# Disks

A disk is the state of a file system at one moment, as far as it matters: which files, directories
and links there are, what the files hold, and which directory is the current one. A place on it is
the list of names from the root, all of them directories but the last. A path leads to a place
through links, of which no more than forty are followed; longer paths and names than the system
takes lead nowhere.
-/

namespace StructUnfold

/-- The names on the way from the root to where something stands or may stand. -/
abbrev Place := List FileName

/-- What stands at a place. -/
inductive DiskEntry where
  /-- A file that holds text. -/
  | text (content : String)
  /-- A file of some size whose content is no text. -/
  | binary (size : Nat)
  /-- A directory. -/
  | directory
  /-- A link and the path it holds. -/
  | link (target : Path)
deriving DecidableEq, Repr

namespace DiskEntry

/-- Whether an entry is a file. -/
def isFile : DiskEntry → Bool
  | .text _ => true
  | .binary _ => true
  | _ => false

/-- Size of a file in bytes. -/
def size : DiskEntry → Nat
  | .text content => content.utf8ByteSize
  | .binary size => size
  | _ => 0

end DiskEntry

/-- The state of a file system. -/
structure Disk where
  /-- What stands where, the root aside. -/
  entries : List (Place × DiskEntry)
  /-- The current directory. -/
  current : Place
deriving Repr

namespace Disk

/-- A disk with nothing on it. -/
def empty : Disk :=
  ⟨[], []⟩

/-- What stands at a place; a link is not followed. -/
def entryAt? (d : Disk) (place : Place) : Option DiskEntry :=
  if place.isEmpty then some .directory
  else (d.entries.find? fun e => e.1 == place).map Prod.snd

/-- The names in a directory. -/
def children (d : Disk) (place : Place) : List FileName :=
  d.entries.filterMap fun e =>
    if e.1.length = place.length + 1 && place.isPrefixOf e.1 then e.1.getLast? else none

/-- One step on the way along a path. -/
inductive Step where
  /-- Go to the root. -/
  | root
  /-- Stay, which only a directory allows. -/
  | stay
  /-- Go to the directory above. -/
  | up
  /-- Go to the entry of a name. -/
  | down (name : FileName)
deriving DecidableEq, Repr

/-- The step of a piece of a path between two separators. -/
def Step.ofPiece (piece : FileName) : Step :=
  if Path.isFiller piece then stay
  else if piece == [Path.dot, Path.dot] then up
  else down piece

/-- The steps along a path. -/
def steps (path : Path) : List Step :=
  let pieces := (path.bytes.splitOn Path.separator).map Step.ofPiece
  if path.isAbsolute then .root :: pieces.drop 1 else pieces

/-- Longest name in bytes. -/
def maxNameBytes : Nat := 255

/-- Longest path in bytes. -/
def maxPathBytes : Nat := 4095

/-- Number of links that are followed along one path. -/
def maxLinks : Nat := 40

/-- Go along a path from a place. The result is the place the path leads to and whether anything
stands there; only at the end of a path may nothing stand. From a link the way goes on through
`follow`. -/
def walkThrough (d : Disk) (follow : Place → List Step → Except SystemFault (Place × Bool))
    (place : Place) : List Step → Except SystemFault (Place × Bool)
  | [] => .ok (place, true)
  | .root :: rest => walkThrough d follow [] rest
  | .stay :: rest => walkThrough d follow place rest
  | .up :: rest => walkThrough d follow place.dropLast rest
  | .down name :: rest =>
    if maxNameBytes < name.length then .error .nameTooLong
    else
      let next := place ++ [name]
      match d.entryAt? next with
      | none => if rest.isEmpty then .ok (next, false) else .error .notFound
      | some .directory => walkThrough d follow next rest
      -- The path in a link is meant as seen from the directory the link is in.
      | some (.link target) => follow place (steps target ++ rest)
      | some (.text _) => if rest.isEmpty then .ok (next, true) else .error .notADirectory
      | some (.binary _) => if rest.isEmpty then .ok (next, true) else .error .notADirectory

/-- Go along a path from a place and follow so many links at most. -/
def walk (d : Disk) : Nat → Place → List Step → Except SystemFault (Place × Bool)
  | 0 => d.walkThrough fun _ _ => .error .linkLoop
  | links + 1 => d.walkThrough (d.walk links)

/-- Why the system does not take a path at all. -/
def refusal? (path : Path) : Option SystemFault :=
  if path.bytes.contains 0 then some .nulByte
  else if path.bytes.isEmpty then some .notFound
  else if maxPathBytes < path.bytes.length then some .nameTooLong
  else none

/-- The place a path leads to, whether or not anything stands there. -/
def locate (d : Disk) (path : Path) : Except SystemFault (Place × Bool) :=
  match refusal? path with
  | some fault => .error fault
  | none => d.walk maxLinks d.current (steps path)

/-- The place a path leads to, where something stands that is no link. -/
def resolve (d : Disk) (path : Path) : Except SystemFault Place :=
  match d.locate path with
  | .ok (place, true) => .ok place
  | .ok (_, false) => .error .notFound
  | .error fault => .error fault

/-- What a path leads to. -/
def find? (d : Disk) (path : Path) : Option DiskEntry :=
  match d.resolve path with
  | .ok place => d.entryAt? place
  | .error _ => none

/-- Whether a path leads to a file. -/
def isFile (d : Disk) (path : Path) : Bool :=
  (d.find? path).any DiskEntry.isFile

/-- Whether a path leads to a directory. -/
def isDirectory (d : Disk) (path : Path) : Bool :=
  d.find? path == some .directory

/-- The path without links and dots to what a path leads to; a path that leads nowhere is its
own. -/
def normalize (d : Disk) (path : Path) : Path :=
  if path.bytes.isEmpty || path.bytes.contains 0 then path
  else
    -- The path is gone along name by name, so only that of the place must not be too long.
    match d.walk maxLinks d.current (steps path) with
    | .ok (place, true) =>
      if (Path.ofNames place).bytes.length ≤ maxPathBytes then Path.ofNames place else path
    | _ => path

/-- The text of the file that a path leads to. -/
def read (d : Disk) (path : Path) : Except SystemFault String :=
  match d.resolve path with
  | .error fault => .error fault
  | .ok place =>
    match d.entryAt? place with
    | some (.text content) => .ok content
    | some (.binary _) => .error .invalidData
    | some .directory => .error .isADirectory
    | some (.link _) => .error .notFound
    | none => .error .notFound

/-- The reader that gives the texts of files on the disk. -/
def reader (d : Disk) : Reader := fun _ path =>
  match d.read path with
  | .ok content => .ok content.toList
  | .error fault => .error (.system fault)

end Disk

end StructUnfold
