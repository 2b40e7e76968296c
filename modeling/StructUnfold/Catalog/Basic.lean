import StructUnfold.Catalog.Table
import StructUnfold.Path

/-!
# The catalog of structs

A catalog holds what is known of the names in the scanned files, in three tables: where each struct
is defined, what each alias stands for, and which names look like structs but could not be parsed.
No name is both a struct and unparseable.
-/

namespace StructUnfold

/-- Where a struct is defined. -/
structure StructDefinition where
  /-- The file that defines it. -/
  path : Path
  /-- Byte offset of the opening brace. -/
  offset : Nat
  /-- Name of the base. -/
  base : Option String
deriving DecidableEq, Repr

/-- What an alias stands for. -/
structure Alias where
  /-- The name it stands for. -/
  target : String
  /-- Whether it stands for a pointer to that. -/
  isPointer : Bool
  /-- The file that declares it. -/
  path : Path
deriving DecidableEq, Repr

/-- A struct whose name could not be parsed, or an alias of one. -/
structure UnparseableStruct where
  /-- The file it stands in. -/
  path : Path
  /-- Byte offset of the opening brace. -/
  offset : Nat
  /-- Why it could not be parsed. -/
  reason : String
deriving DecidableEq, Repr

/-- What is known of the names in the scanned files. -/
structure Catalog where
  /-- The structs by name. -/
  structs : Table StructDefinition
  /-- The aliases by name. -/
  aliases : Table Alias
  /-- The names that could not be parsed. -/
  unparseable : Table UnparseableStruct
  /-- The longest chain of aliases that is followed, if limited. -/
  maxAliasHops : Option Nat

namespace Catalog

/-- The catalog that knows no name and follows chains of any length. -/
def empty : Catalog :=
  ⟨.empty, .empty, .empty, none⟩

instance : Inhabited Catalog := ⟨empty⟩

/-- Define a struct. An earlier definition of the name is replaced, and the name counts as
parsed. -/
def insertStruct (c : Catalog) (name : String) (definition : StructDefinition) : Catalog :=
  { c with
    structs := c.structs.insert name definition
    unparseable := c.unparseable.erase name }

/-- Declare an alias. An earlier one of the name is replaced. -/
def insertAlias (c : Catalog) (name : String) (a : Alias) : Catalog :=
  { c with aliases := c.aliases.insert name a }

/-- Record a name that could not be parsed, unless a struct of that name is defined. -/
def insertUnparseable (c : Catalog) (name : String) (entry : UnparseableStruct) : Catalog :=
  if c.structs.contains name then c
  else { c with unparseable := c.unparseable.insert name entry }

/-- Forget all that stands in one file. -/
def removePath (c : Catalog) (path : Path) : Catalog :=
  { c with
    structs := c.structs.filter fun _ d => !d.path.same path
    aliases := c.aliases.filter fun _ a => !a.path.same path
    unparseable := c.unparseable.filter fun _ u => !u.path.same path }

/-- Limit the length of the chains of aliases that are followed; a limit of zero is none. -/
def setMaxAliasHops (c : Catalog) (hops : Option Nat) : Catalog :=
  { c with maxAliasHops := hops.filter (0 < ·) }

/-- Whether nothing is known. -/
def isEmpty (c : Catalog) : Bool :=
  c.structs.size == 0 && c.aliases.size == 0 && c.unparseable.size == 0

/-- A list in which each path stands only where the one before it has other components. -/
def dropRepeats : List Path → List Path
  | [] => []
  | p :: ps =>
    match dropRepeats ps with
    | [] => [p]
    | q :: qs => if p.same q then p :: qs else p :: q :: qs

/-- The files in which some name stands, in order and each once. -/
def paths (c : Catalog) : List Path :=
  let all := c.structs.values.map StructDefinition.path ++ c.aliases.values.map Alias.path ++
    c.unparseable.values.map UnparseableStruct.path
  dropRepeats (all.mergeSort Path.sortsBefore)

/-- Whether two catalogs hold the same entries, their paths compared by components, and follow
chains of aliases equally far. -/
def same (c d : Catalog) : Bool :=
  c.structs.sameBy (fun a b => a.path.same b.path && a.offset == b.offset && a.base == b.base)
      d.structs &&
    c.aliases.sameBy
      (fun a b => a.target == b.target && a.isPointer == b.isPointer && a.path.same b.path)
      d.aliases &&
    c.unparseable.sameBy
      (fun a b => a.path.same b.path && a.offset == b.offset && a.reason == b.reason)
      d.unparseable &&
    c.maxAliasHops == d.maxAliasHops

end Catalog

end StructUnfold
