import StructUnfold.Disk.Basic

/-!
# Changing a disk

Making directories and links, writing and removing files. A change that takes several steps may fail
half-way; the disk then holds what has been done until then.
-/

namespace StructUnfold.Disk

/-- Put an entry at a place, instead of what stands there. -/
def put (d : Disk) (place : Place) (entry : DiskEntry) : Disk :=
  { d with entries := d.entries.filter (fun e => e.1 != place) ++ [(place, entry)] }

/-- A path without the separators at its end. -/
def dropSeparators (path : Path) : Path :=
  ⟨(path.bytes.reverse.dropWhile (· == Path.separator)).reverse⟩

/-- The place at which a path makes a new entry: a name in a directory. A link at that place is not
followed. -/
def newPlace (d : Disk) (path : Path) : Except SystemFault Place :=
  match refusal? path with
  | some fault => .error fault
  | none =>
    let steps := steps (dropSeparators path)
    match d.walk maxLinks d.current steps.dropLast with
    | .error fault => .error fault
    | .ok (_, false) => .error .notFound
    | .ok (place, true) =>
      if d.entryAt? place != some .directory then .error .notADirectory
      else
        match steps.getLast? with
        | some (.down name) =>
          if maxNameBytes < name.length then .error .nameTooLong
          else if (d.entryAt? (place ++ [name])).isSome then .error .alreadyExists
          else .ok (place ++ [name])
        -- A dot, two dots and the root stand wherever there is a directory.
        | _ => .error .alreadyExists

/-- Make a directory. -/
def createDirectory (d : Disk) (path : Path) : Except SystemFault Disk :=
  (d.newPlace path).map fun place => d.put place .directory

/-- Make a directory unless it stands already. -/
def ensureDirectory (d : Disk) (path : Path) : Except SystemFault Disk :=
  match d.createDirectory path with
  | .error .alreadyExists => if d.isDirectory path then .ok d else .error .alreadyExists
  | made => made

/-- Go up a path until a directory stands or can be made. The result holds the paths whose
directories are still missing, the outermost first. -/
def climb (d : Disk) (missing : List Path) : List Path → Disk × Except SystemFault (List Path)
  | [] => (d, .ok missing)
  | path :: above =>
    if path.parent?.isNone then (d, .ok missing)
    else
      match d.ensureDirectory path with
      | .ok d => (d, .ok missing)
      | .error .notFound => climb d (path :: missing) above
      | .error fault => (d, .error fault)

/-- Make the directories of some paths, each unless it stands already, until one cannot be made. -/
def ensureAll (d : Disk) : List Path → Disk × Except SystemFault Unit
  | [] => (d, .ok ())
  | path :: rest =>
    match d.ensureDirectory path with
    | .ok d => ensureAll d rest
    | .error fault => (d, .error fault)

/-- Make a directory and those above it that are missing. -/
def createDirectories (d : Disk) (path : Path) : Disk × Except SystemFault Unit :=
  match d.climb [] path.ancestors with
  | (d, .ok missing) => d.ensureAll missing
  | (d, .error fault) => (d, .error fault)

/-- The place of the file that is written through a path. -/
def filePlace (d : Disk) (path : Path) : Except SystemFault Place :=
  match d.locate path with
  | .ok (place, _) =>
    if d.entryAt? place == some .directory then .error .isADirectory else .ok place
  | .error fault =>
    match fault, (d.newPlace path).isOk, (steps path).getLast? with
    | .notFound, true, some .stay => .error .isADirectory
    | fault, _, _ => .error fault

/-- Write a file, instead of what it holds. -/
def write (d : Disk) (path : Path) (content : String) : Except SystemFault Disk :=
  (d.filePlace path).map fun place => d.put place (.text content)

/-- Open a file to add to it; one that is missing is made. -/
def openToAppend (d : Disk) (path : Path) : Except SystemFault Disk :=
  (d.filePlace path).map fun place =>
    if (d.entryAt? place).isSome then d else d.put place (.text "")

/-- Make a link that holds a path. -/
def createLink (d : Disk) (path target : Path) : Except SystemFault Disk :=
  (d.newPlace path).map fun place => d.put place (.link target)

/-- Take the entry of a name away, a link itself and not what it leads to. -/
def remove (d : Disk) (path : Path) : Disk :=
  match (steps path).reverse with
  | .down name :: front =>
    match d.walk maxLinks d.current front.reverse with
    | .ok (place, true) => { d with entries := d.entries.filter fun e => e.1 != place ++ [name] }
    | _ => d
  | _ => d

end StructUnfold.Disk
