import StructUnfold.Expansion.Run

/-!
# Source texts in memory

A set of files by path. Paths are compared by components; a file that is put a second time keeps the
path it was put under first.
-/

namespace StructUnfold

/-- Source files held in memory. -/
structure Sources where
  /-- The files with their texts, no two of one path. -/
  files : List (Path × List Char)
deriving Repr, Inhabited

namespace Sources

/-- No files. -/
def empty : Sources :=
  ⟨[]⟩

/-- The text of a file. -/
def get? (s : Sources) (path : Path) : Option (List Char) :=
  (s.files.find? fun f => f.1.same path).map Prod.snd

/-- Put a file, in place of the one of the same path. -/
def put (s : Sources) (path : Path) (text : List Char) : Sources :=
  if (s.get? path).isSome then
    ⟨s.files.map fun f => if f.1.same path then (f.1, text) else f⟩
  else ⟨s.files ++ [(path, text)]⟩

/-- Take a file away. -/
def remove (s : Sources) (path : Path) : Sources :=
  ⟨s.files.filter fun f => !f.1.same path⟩

/-- The files put one after the other. -/
def ofList (files : List (Path × List Char)) : Sources :=
  files.foldl (fun s f => s.put f.1 f.2) empty

/-- The paths of the files, in order. -/
def paths (s : Sources) : List Path :=
  (s.files.map Prod.fst).mergeSort Path.sortsBefore

/-- The reader that gives these texts. -/
def reader (s : Sources) : Reader := fun _ path =>
  match s.get? path with
  | some text => .ok text
  | none => .error (.notLoaded path)

end Sources

end StructUnfold
