import StructUnfold.Catalog.Search
import StructUnfold.Text.Offset
import StructUnfold.Text.Space

/-!
# Listings of names

A listing has a line for each row of a search: name, kind, place and detail, parted by tabs. White
space at the end of the whole listing is dropped.
-/

namespace StructUnfold.CommandLine

/-- Number of the line, counted from one, on which a byte offset lies. -/
def lineNumber? (text : List Char) (offset : Nat) : Option Nat :=
  (Text.takeBytes? offset text).map fun before => before.count '\n' + 1

/-- Where a row is found: the path, and the line where it is known. -/
def location (lineOf : Path → Nat → Option Nat) (e : Catalog.Entry) : String :=
  match e.offset.bind (lineOf e.path) with
  | some line => e.path.display ++ ":" ++ toString line
  | none => e.path.display

/-- The line of a row. -/
def row (lineOf : Path → Nat → Option Nat) (e : Catalog.Entry) : String :=
  e.name ++ "\t" ++ e.kind.word ++ "\t" ++ location lineOf e ++ "\t" ++ e.detail.getD "" ++ "\n"

/-- The listing of rows. -/
def listing (lineOf : Path → Nat → Option Nat) (rows : List Catalog.Entry) : String :=
  String.ofList (Text.trimEnd (String.join (rows.map (row lineOf))).toList)

end StructUnfold.CommandLine
