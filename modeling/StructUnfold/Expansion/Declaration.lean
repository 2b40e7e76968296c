import StructUnfold.Text.Search
import StructUnfold.Text.Space

/-!
# Declarations of a struct body

A body is a sequence of declarations, each ended by a semicolon outside inner braces. A declaration
is kept as the list of its words; access labels at its start are no part of it.
-/

namespace StructUnfold

/-- A declaration as the list of its words. -/
abbrev Declaration := List (List Char)

namespace Declaration

/-- The pieces of a body up to and with each semicolon outside braces, and what follows the last
one. `depth` braces are open, and `acc` is the piece so far, backwards. -/
def piecesFrom (depth : Nat) (acc : List Char) : List Char → List (List Char)
  | [] => [acc.reverse]
  | c :: cs =>
    if c = '{' then piecesFrom (depth + 1) (c :: acc) cs
    else if c = '}' then piecesFrom (depth - 1) (c :: acc) cs
    else if c = ';' ∧ depth = 0 then (c :: acc).reverse :: piecesFrom 0 [] cs
    else piecesFrom depth (c :: acc) cs

/-- The pieces of a body, each but the last ended by a semicolon outside braces. -/
def pieces (body : List Char) : List (List Char) :=
  piecesFrom 0 [] body

/-- The words without `label` at the start of the first one. -/
def dropLabel (label : List Char) : Declaration → Declaration
  | [] => []
  | word :: rest =>
    match Text.after? label word with
    | none => word :: rest
    | some [] => rest
    | some (c :: cs) => (c :: cs) :: rest

/-- The access labels, in the order in which they are dropped. -/
def accessLabels : List (List Char) :=
  ["public:".toList, "protected:".toList, "private:".toList]

/-- The declaration in a piece of a body. -/
def ofPiece (piece : List Char) : Declaration :=
  accessLabels.foldl (fun words label => dropLabel label words) (Text.words piece)

/-- Whether a declaration declares nothing. -/
def isVoid (d : Declaration) : Bool :=
  d == [] || d == [[';']]

/-- The declarations of a body. -/
def all (body : List Char) : List Declaration :=
  ((pieces body).map ofPiece).filter fun d => !isVoid d

/-- A declaration in one line. -/
def text (d : Declaration) : List Char :=
  Text.joinWords d

end Declaration

end StructUnfold
