import StructUnfold.Catalog.Search
import StructUnfold.Expansion.Basic
import StructUnfold.Server.Reply
import StructUnfold.Server.Session

/-!
# Looking up names in a session

What to show for the word at a place, and which names of the workspace match a query. A name is
found at the offset where its block was scanned, seen in the present text of the file.
-/

namespace StructUnfold.Server.Session

/-- Expand the struct that a symbol names. -/
def expand (s : Session) (symbol : List Char) : Except Problem Expansion :=
  Expansion.expand ⟨s.state.catalog, s.reader, s.state.settings.flatten.options⟩ symbol

/-- The text of an expansion under the settings. -/
def textOf (s : Session) (e : Expansion) : String :=
  e.text s.state.settings.flatten.indentWidth

/-- Whether a word names a struct or an alias. -/
def isKnown (s : Session) (word : List Char) : Bool :=
  let name := String.ofList word
  s.state.catalog.structs.contains name || s.state.catalog.aliases.contains name

/-- What to show for a place in an open document: the expansion of the struct that the word there
names. -/
def hover (s : Session) (uri : Uri) (position : Position) : Answer :=
  if s.state.settings.hover.enable && s.state.ready then
    match (s.state.documents.get? uri).bind fun d => d.wordAt? position with
    | none => .nothing
    | some (word, range) =>
      if s.isKnown word then
        match s.expand word with
        | .ok e => .hover (s.textOf e) range
        | .error _ => .nothing
      else .nothing
  else .nothing

/-- Most names that are found at once. -/
def symbolLimit : Nat := 100

/-- The present document of a file: the open one, or else the file on the disk. -/
def present? (s : Session) (uri : Uri) (path : Path) : Option Document :=
  match s.state.documents.get? uri with
  | some document => some document
  | none => (s.disk.read path).toOption.map fun text => ⟨text.toList, 0⟩

/-- The place of an entry in the present text of its file, or the start of the file if it has none.
There is no place if its offset has come to lie inside a character. -/
def placeOf? (s : Session) (uri : Uri) (entry : Catalog.Entry) : Option Position :=
  match entry.offset, s.present? uri entry.path with
  | some offset, some document => document.positionOf? offset
  | _, _ => some ⟨0, 0⟩

/-- The names for rows of a search, as far as their files have URIs; none if an entry has no
place. -/
def symbolsOf? (s : Session) : List Catalog.Entry → Option (List WorkspaceSymbol)
  | [] => some []
  | entry :: rest =>
    match Uri.ofFilePath? entry.path with
    | none => symbolsOf? s rest
    | some uri => do
      let position ← s.placeOf? uri entry
      let found ← symbolsOf? s rest
      return ⟨entry.name, uri, position, entry.detail⟩ :: found

/-- The names of the workspace that match a query. -/
def symbols (s : Session) (query : String) : Reply :=
  match s.symbolsOf? (s.state.catalog.search query symbolLimit) with
  | some found => .answered (.symbols found)
  | none => .aborted

end StructUnfold.Server.Session
