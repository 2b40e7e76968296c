import StructUnfold.Text.Utf8

/-!
# Paths

A path is kept as it was written, for that is how it is shown, and compared by its components:
repeated separators and inner `.` components do not count, a leading `.` does, and `..` is never
resolved here. To the system a path is bytes, which are mostly but not always UTF-8.
-/

namespace StructUnfold

/-- A name between two separators of a path. -/
abbrev FileName := List UInt8

/-- A path as it was written. -/
structure Path where
  /-- The bytes of the path. -/
  bytes : List UInt8
deriving DecidableEq, Repr, Inhabited

/-- The name of a text. -/
def FileName.ofString (text : String) : FileName :=
  Text.utf8 text

namespace Path

/-- The path of a text. -/
def ofString (text : String) : Path :=
  ⟨Text.utf8 text⟩

/-- The path as a text for readers. -/
def display (p : Path) : String :=
  String.ofList (Text.readable p.bytes)

/-- The byte that parts the names of a path. -/
def separator : UInt8 :=
  '/'.toUInt8

/-- The byte of a dot. -/
def dot : UInt8 :=
  '.'.toUInt8

/-- One step of a path. -/
inductive Component where
  /-- The separator an absolute path starts with. -/
  | root
  /-- The `.` a relative path starts with. -/
  | current
  /-- The component `..`. -/
  | parent
  /-- Any other name. -/
  | name (name : FileName)
deriving DecidableEq, Repr

namespace Component

/-- Order of the kinds of components. -/
def rank : Component → Nat
  | root => 0
  | current => 1
  | parent => 2
  | name _ => 3

/-- Whether one component comes before another: by kind, then by name. -/
def before : Component → Component → Bool
  | name a, name b => decide (a < b)
  | a, b => decide (a.rank < b.rank)

/-- The component a piece between two separators stands for, if any. -/
def ofPiece? (piece : FileName) : Option Component :=
  if piece.isEmpty || piece == [dot] then none
  else if piece == [dot, dot] then some parent
  else some (name piece)

end Component

/-- Whether a path starts at the root. -/
def isAbsolute (p : Path) : Bool :=
  p.bytes.head? == some separator

/-- The leading part of a path that is no ordinary component, and the bytes after it. -/
def splitRoot (bytes : List UInt8) : List Component × List UInt8 :=
  match bytes with
  | [] => ([], [])
  | b :: body =>
    if b == separator then ([.root], body)
    else if b == dot && (body.isEmpty || body.head? == some separator) then ([.current], body)
    else ([], bytes)

/-- The components of a path, in order. -/
def components (p : Path) : List Component :=
  let (start, body) := splitRoot p.bytes
  start ++ (body.splitOn separator).filterMap Component.ofPiece?

/-- Whether two paths have the same components. -/
def same (p q : Path) : Bool :=
  decide (p.components = q.components)

theorem same_eq_true_iff {p q : Path} : p.same q = true ↔ p.components = q.components := by
  simp [same]

@[simp] theorem same_refl (p : Path) : p.same p = true := by
  simp [same]

theorem same_comm (p q : Path) : p.same q = q.same p := by
  simp only [same, eq_comm]

/-- Paths that are the same are the same as the same paths. -/
theorem same_congr {p q : Path} (h : p.same q = true) (r : Path) : p.same r = q.same r := by
  rw [same, same, same_eq_true_iff.1 h]

/-- Lexicographic order on lists of components. -/
def componentsLE : List Component → List Component → Bool
  | [], _ => true
  | _ :: _, [] => false
  | a :: as, b :: bs =>
    if a.before b then true else if b.before a then false else componentsLE as bs

/-- Whether one path sorts before or with another. -/
def sortsBefore (p q : Path) : Bool :=
  componentsLE p.components q.components

/-- The path `q` taken from the directory `p`; an absolute `q` stands for itself. -/
def join (p q : Path) : Path :=
  if q.isAbsolute || p.bytes.isEmpty then q
  else if p.bytes.getLast? == some separator then ⟨p.bytes ++ q.bytes⟩
  else ⟨p.bytes ++ separator :: q.bytes⟩

/-- The name a path ends in, unless it ends in `..` or is a bare root. -/
def fileName? (p : Path) : Option FileName :=
  match p.components.getLast? with
  | some (.name name) => some name
  | _ => none

/-- The part of the file name after its last dot, when something stands before the dot. -/
def extension? (p : Path) : Option FileName :=
  p.fileName?.bind fun name =>
    let backwards := name.reverse
    match backwards.dropWhile (· != dot) with
    | _ :: _ :: _ => some (backwards.takeWhile (· != dot)).reverse
    | _ => none

/-- Whether a piece between two separators is no component. -/
def isFiller (piece : FileName) : Bool :=
  piece.isEmpty || piece == [dot]

/-- The path without its last component, as a prefix of its bytes; none for a bare root and for the
empty path. -/
def parent? (p : Path) : Option Path :=
  let (start, body) := splitRoot p.bytes
  let startBytes := p.bytes.take (p.bytes.length - body.length)
  match (body.splitOn separator).reverse.dropWhile isFiller with
  | _ :: front =>
    let kept := (front.dropWhile isFiller).reverse
    some ⟨startBytes ++ List.intercalate [separator] kept⟩
  | [] => if start == [.current] then some ⟨[]⟩ else none

/-- A path and the paths above it, the path itself first; `fuel` bounds their number. -/
def ancestorsWithin (p : Path) : Nat → List Path
  | 0 => [p]
  | fuel + 1 => p :: p.parent?.elim [] fun parent => ancestorsWithin parent fuel

/-- A path and the paths above it, the path itself first. -/
def ancestors (p : Path) : List Path :=
  p.ancestorsWithin (p.bytes.length + 1)

/-- Whether the components of `q` begin those of `p`. -/
def startsWith (p q : Path) : Bool :=
  q.components.isPrefixOf p.components

/-- The absolute path through the given names. -/
def ofNames (names : List FileName) : Path :=
  ⟨separator :: List.intercalate [separator] names⟩

end Path

end StructUnfold
