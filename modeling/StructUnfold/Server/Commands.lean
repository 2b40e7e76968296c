import StructUnfold.Output.Results
import StructUnfold.Server.Indexing
import StructUnfold.Server.Symbols

/-!
# Commands of the server

One command expands a struct, writes the result into the results directory and has the editor show
it; the other one scans the workspace anew.
-/

namespace StructUnfold.Server

/-- What the command to expand is given: a symbol, or a stretch of an open document that holds
one. -/
structure Selection where
  /-- The symbol. -/
  symbol : Option String
  /-- The document. -/
  uri : Option Uri
  /-- The stretch of the document. -/
  range : Option Range
deriving DecidableEq, Repr

namespace Selection

/-- Nothing is given. -/
def none : Selection :=
  ⟨Option.none, Option.none, Option.none⟩

/-- The names of the fields, in order. -/
def fields : List String :=
  ["symbol", "uri", "range"]

/-- A selection written as an object or as an array of its first fields. -/
def ofJson? (v : Json) : Option Selection := do
  let v : Json ←
    match v with
    | .obj members => some (.obj members)
    | .arr items =>
      if items.length ≤ fields.length then some (.obj (fields.zip items)) else Option.none
    | _ => Option.none
  let symbol ← v.field? "symbol" Json.str?
  let uri ← v.field? "uri" uri?
  let range ← v.field? "range" range?
  return ⟨symbol, uri, range⟩

/-- The selection that the arguments of a command give: the first one, which may be the symbol
itself. -/
def ofArguments : List Json → Selection
  | [] => none
  | .str symbol :: _ => ⟨some symbol, Option.none, Option.none⟩
  | v :: _ => (ofJson? v).getD none

/-- A text without the white space around it, unless nothing is left. -/
def nonBlank? (text : List Char) : Option (List Char) :=
  let text := Text.trim text
  if text.isEmpty then Option.none else some text

/-- The symbol in a stretch of a document: the word there if the stretch is empty, else its text. -/
def symbolIn? (document : Document) (range : Range) : Option (List Char) :=
  if range.start = range.stop then (document.wordAt? range.start).map Prod.fst
  else (document.textIn? range).bind nonBlank?

/-- The symbol of a selection. One that is given comes before one that is selected. -/
def resolve? (documents : DocumentStore) (s : Selection) : Option (List Char) :=
  match s.symbol.bind fun symbol => nonBlank? symbol.toList with
  | some symbol => some symbol
  | Option.none => do
    let uri ← s.uri
    let range ← s.range
    let document ← documents.get? uri
    symbolIn? document range

end Selection

namespace Session

/-- The directory that results belong to: the first root of the workspace, or else the directory of
the document they were asked for in. -/
def resultsRoot? (s : Session) (origin : Option Uri) : Option Path :=
  match s.state.roots with
  | root :: _ => some root
  | [] => (origin.bind Uri.toFilePath?).bind Path.parent?

/-- Write an expansion into the results directory and ask the editor to show it. That it cannot be
written is only logged. -/
def publish (s : Session) (symbol text : String) (origin : Option Uri) : Session :=
  match s.resultsRoot? origin with
  | none => s
  | some root =>
    let output := s.state.settings.output
    let target := Output.Target.directory (Output.resultsDirectory root output.directory)
    let (disk, written) := target.write s.disk symbol text
    let s := { s with disk }
    match written with
    | .error fault => s.logWarning ("Could not write results: " ++ fault.message)
    | .ok path =>
      match Uri.ofFilePath? path with
      | some uri => if output.showDocument then s.send (.showDocument uri) else s
      | none => s

/-- Expand what is selected. Before the first scan has been completed this waits. -/
def runExpand (s : Session) (selection : Selection) : Session × Reply :=
  match selection.resolve? s.state.documents with
  | none => (s, .refused .nothingSelected)
  | some symbol =>
    if s.state.ready then
      match s.expand symbol with
      | .error problem => (s.send (.notice .warning problem.message), .refused (.query problem))
      | .ok e =>
        let name := String.ofList symbol
        let text := s.textOf e
        ((s.logInfo ("Expanded " ++ name)).publish name text selection.uri, .answered (.text text))
    else (s, .pending)

/-- Scan the workspace anew; the answer is the summary of the scan. -/
def runRescan (s : Session) : Session × Reply :=
  match s.index with
  | (s, some report) => (s, .answered (.text report.summary))
  | (s, none) => (s, .answered .nothing)

/-- Carry out a command. -/
def execute (s : Session) (command : String) (arguments : List Json) : Session × Reply :=
  if command == expandCommand then s.runExpand (.ofArguments arguments)
  else if command == rescanCommand then s.runRescan
  else (s, .refused (.unknownCommand command))

end Session

end StructUnfold.Server
