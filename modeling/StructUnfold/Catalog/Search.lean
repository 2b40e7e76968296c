import StructUnfold.Catalog.Basic
import StructUnfold.Text.Lowercase
import StructUnfold.Text.Search

/-!
# Searching the catalog

A search gives the entries whose name contains the query, case aside, in order of name and kind.
-/

namespace StructUnfold.Catalog

/-- The table an entry stands in. -/
inductive EntryKind where
  /-- A struct. -/
  | struct
  /-- An alias. -/
  | aliasName
  /-- A name that could not be parsed. -/
  | unparseable
deriving DecidableEq, Repr

/-- The place of a kind among entries of one name. -/
def EntryKind.rank : EntryKind → Nat
  | struct => 0
  | aliasName => 1
  | unparseable => 2

/-- The word for a kind. -/
def EntryKind.word : EntryKind → String
  | struct => "struct"
  | aliasName => "alias"
  | unparseable => "unparseable"

/-- A row of a search. -/
structure Entry where
  /-- The name found. -/
  name : String
  /-- The table it stands in. -/
  kind : EntryKind
  /-- The file it stands in. -/
  path : Path
  /-- Byte offset of the opening brace; none for an alias. -/
  offset : Option Nat
  /-- The base of a struct, the target of an alias, or why the name could not be parsed. -/
  detail : Option String
deriving DecidableEq, Repr

/-- Whether an entry comes before another one or with it: by name, then by kind. -/
def Entry.sortsBefore (a b : Entry) : Bool :=
  if a.name = b.name then decide (a.kind.rank ≤ b.kind.rank) else decide (a.name < b.name)

/-- The row of a struct. -/
def structEntry (name : String) (d : StructDefinition) : Entry :=
  ⟨name, .struct, d.path, some d.offset, d.base.map fun base => ": " ++ base⟩

/-- The row of an alias. -/
def aliasEntry (name : String) (a : Alias) : Entry :=
  ⟨name, .aliasName, a.path, none, some (if a.isPointer then "*" ++ a.target else a.target)⟩

/-- The row of a name that could not be parsed. -/
def unparseableEntry (name : String) (u : UnparseableStruct) : Entry :=
  ⟨name, .unparseable, u.path, some u.offset, some u.reason⟩

/-- The rows of all entries. -/
def allEntries (c : Catalog) : List Entry :=
  c.structs.entries.map (fun e => structEntry e.1 e.2) ++
    c.aliases.entries.map (fun e => aliasEntry e.1 e.2) ++
    c.unparseable.entries.map (fun e => unparseableEntry e.1 e.2)

/-- Whether a name contains a query that is given in lower case. -/
def nameMatches (lowered : List Char) (name : String) : Bool :=
  Text.containsText lowered (Text.lowercase name.toList)

/-- The rows whose name contains the query, case aside, in order. -/
def searchAll (c : Catalog) (query : String) : List Entry :=
  let lowered := Text.lowercase query.toList
  (c.allEntries.filter fun e => nameMatches lowered e.name).mergeSort Entry.sortsBefore

/-- The first `limit` rows of a search. -/
def search (c : Catalog) (query : String) (limit : Nat) : List Entry :=
  (c.searchAll query).take limit

end StructUnfold.Catalog
