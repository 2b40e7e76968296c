import StructUnfold.Catalog.Resolve
import StructUnfold.Expansion.Declaration
import StructUnfold.Problem
import StructUnfold.Source.Header

/-!
# The state of an expansion

One query keeps the structs it has entered, the files it has asked for and the issues it has met. A
file is asked for once: its text, or that it could not be read, holds for the rest of the query.
-/

namespace StructUnfold

/-- A reader gives the text of a file. It is told how many files it was asked for before, since its
answers may change from one time to the next. -/
abbrev Reader := Nat → Path → Except ReadError (List Char)

namespace Expansion

/-- How far an expansion goes and how it is drawn. -/
structure Options where
  /-- Number of columns by which items are indented. -/
  indentWidth : Nat
  /-- Number of levels of blocks. -/
  maxDepth : Nat
  /-- Number of bytes examined to find a body. -/
  maxScan : Nat
deriving DecidableEq, Repr

/-- What an expansion works with. -/
structure Context where
  /-- The structs and aliases. -/
  catalog : Catalog
  /-- Where the texts of files come from. -/
  reader : Reader
  /-- The limits. -/
  options : Options

/-- The state of an expansion. -/
structure Run where
  /-- The structs entered, the latest first. -/
  visited : List String
  /-- The files asked for, with what was answered. -/
  sources : List (Path × Except SystemFault (List Char))
  /-- How many times the reader was asked. -/
  reads : Nat
  /-- The issues met, in order. -/
  issues : List Problem

namespace Run

/-- The state before anything was entered. -/
def start : Run :=
  ⟨[], [], 0, []⟩

/-- Add an issue. -/
def note (run : Run) (issue : Problem) : Run :=
  { run with issues := run.issues ++ [issue] }

/-- Add issues. -/
def noteAll (run : Run) (issues : List Problem) : Run :=
  { run with issues := run.issues ++ issues }

/-- Mark a struct as entered. -/
def visit (run : Run) (root : String) : Run :=
  if run.visited.contains root then run else { run with visited := root :: run.visited }

/-- What was answered for a file. -/
def source? (run : Run) (path : Path) : Option (Except SystemFault (List Char)) :=
  (run.sources.find? fun s => s.1.same path).map Prod.snd

/-- The text of a file. -/
def read (reader : Reader) (path : Path) (run : Run) : Except ReadError (List Char) × Run :=
  match run.source? path with
  | some (.ok text) => (.ok text, run)
  | some (.error fault) => (.error (.remembered fault), run)
  | none =>
    -- A failure is kept as well, so that a file is never asked for a second time.
    let answer := reader run.reads path
    (answer, { run with
      sources := (path, answer.mapError ReadError.fault) :: run.sources
      reads := run.reads + 1 })

end Run

/-- The body of a struct in the text of its file, without comments. The brace must still end a
header that names the struct, for the text may have changed since it was scanned. -/
def bodyIn (maxScan : Nat) (root : String) (offset : Nat) (text : List Char) :
    Except Block.Error (List Char) :=
  match StructUnfold.Block.extract (StructUnfold.Block.Options.body maxScan) text offset with
  | .error e => .error e
  | .ok span =>
    if Header.nameAt? text offset = some root.toList then .ok (Comment.strip (span.text text))
    else .error (.staleHeader offset root)

/-- The body of a struct. -/
def body (ctx : Context) (root : String) (definition : StructDefinition) (run : Run) :
    Except Problem (List Char) × Run :=
  match run.read ctx.reader definition.path with
  | (.error e, run) => (.error (.fileRead definition.path e), run)
  | (.ok text, run) =>
    match bodyIn ctx.options.maxScan root definition.offset text with
    | .error e => (.error (.malformedBlock definition.path e), run)
    | .ok body => (.ok body, run)

end Expansion

end StructUnfold
