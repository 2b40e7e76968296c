/-!
# Lines

`splitLines` cuts a text at every line feed and keeps all else. `lines` gives the lines a reader
sees: a carriage return before a line feed belongs to the line's end, and a line feed at the end of
the text begins no further line.
-/

namespace StructUnfold.Text

/-- The pieces of a text between its line feeds; a text without line feed is one piece. -/
def splitLines (s : List Char) : List (List Char) :=
  s.splitOn '\n'

/-- The line without one carriage return at its end. -/
def dropReturn (line : List Char) : List Char :=
  match line.reverse with
  | '\r' :: front => front.reverse
  | _ => line

/-- The lines among the pieces of a text: the last piece counts unless it is empty. -/
def linesOfPieces : List (List Char) → List (List Char)
  | [] => []
  | [last] => if last.isEmpty then [] else [last]
  | piece :: pieces => dropReturn piece :: linesOfPieces pieces

/-- The lines of a text without their ends. -/
def lines (s : List Char) : List (List Char) :=
  linesOfPieces (splitLines s)

end StructUnfold.Text
