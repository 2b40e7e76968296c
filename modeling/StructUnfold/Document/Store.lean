import StructUnfold.Document.Basic
import StructUnfold.Expansion.Run
import StructUnfold.Uri.Basic

/-!
# Open documents

The documents that are open in an editor, by URI. While a document is open, its text stands in for
that of its file.
-/

namespace StructUnfold

/-- The documents open in an editor. -/
structure DocumentStore where
  /-- The documents by URI, no two of one URI. -/
  documents : List (Uri × Document)
deriving Repr

namespace DocumentStore

/-- No document is open. -/
def empty : DocumentStore :=
  ⟨[]⟩

/-- The document of a URI. -/
def get? (s : DocumentStore) (uri : Uri) : Option Document :=
  (s.documents.find? fun d => d.1 == uri).map Prod.snd

/-- Close a document. -/
def close (s : DocumentStore) (uri : Uri) : DocumentStore :=
  ⟨s.documents.filter fun d => d.1 != uri⟩

/-- Open a document, or give an open one a new text. -/
def put (s : DocumentStore) (uri : Uri) (document : Document) : DocumentStore :=
  if (s.get? uri).isSome then
    ⟨s.documents.map fun d => if d.1 == uri then (uri, document) else d⟩
  else ⟨s.documents ++ [(uri, document)]⟩

/-- Change an open document; one that is not open is left alone. -/
def change (s : DocumentStore) (uri : Uri) (changes : List Change) (version : Int) :
    DocumentStore :=
  match s.get? uri with
  | some document => s.put uri (document.applyChanges changes version)
  | none => s

/-- The text of the document that is open for a file: the one of the URI of its path, or else one
whose URI leads to the same file. `normalize` brings paths of one file together. -/
def textOf? (s : DocumentStore) (normalize : Path → Path) (path : Path) : Option (List Char) :=
  let target := normalize path
  match Uri.ofFilePath? target with
  | none => none
  | some uri =>
    match s.get? uri with
    | some document => some document.text
    | none =>
      (s.documents.find? fun d => d.1.toFilePath?.any fun p => (normalize p).same target).map
        fun d => d.2.text

/-- The reader that asks the open documents first. -/
def overlay (s : DocumentStore) (normalize : Path → Path) (fallback : Reader) : Reader :=
  fun reads path =>
    match s.textOf? normalize path with
    | some text => .ok text
    | none => fallback reads path

end DocumentStore

end StructUnfold
