import StructUnfold.Source.Comment
import StructUnfold.Text.Line
import StructUnfold.Text.Search
import StructUnfold.Text.Space
import StructUnfold.Text.WordChar

/-!
# Struct headers

The header of a struct stands on one line and ends in the first brace of that line. Before the brace
come words, the keyword `struct`, a name and, behind a colon, a base. Of several words `struct` the
first one counts behind which the rest of the line has this form. The name is taken as loosely as
possible, so that a header whose name is missing or no identifier is still noticed.
-/

namespace StructUnfold

/-- The parts of a struct header as they are written. -/
structure Header where
  /-- Whether the line starts with `typedef`. -/
  isTypedef : Bool
  /-- What stands where the name belongs. -/
  name : List Char
  /-- What stands behind the colon, blanks at its ends aside. -/
  base : Option (List Char)
deriving DecidableEq, Repr

namespace Header

/-- Whether a character may occur where a name belongs. -/
def isNameChar (c : Char) : Bool :=
  !Text.isSpace c && c != ':' && c != '{' && c != ';' && c != '(' && c != ')' && c != ',' &&
    c != '*'

/-- The text without blanks at either end. -/
def trimBlanks (s : List Char) : List Char :=
  Text.dropEndWhile Text.isBlank (s.dropWhile Text.isBlank)

/-- Name and base in the text between the keyword `struct` and the brace. -/
def nameAndBase? (s : List Char) : Option (List Char × Option (List Char)) :=
  let s := s.dropWhile Text.isBlank
  let name := s.takeWhile isNameChar
  match (s.dropWhile isNameChar).dropWhile Text.isBlank with
  | [] => some (name, none)
  | ':' :: base => if base.contains ';' then none else some (name, some (trimBlanks base))
  | _ => none

/-- Name and base in a text that starts with the keyword `struct`. -/
def fromKeyword? (s : List Char) : Option (List Char × Option (List Char)) :=
  match Text.after? "struct".toList s with
  | none => none
  | some rest => if rest.head?.any Text.isWordChar then none else nameAndBase? rest

/-- Name and base in a text that starts with words or with the keyword `struct`; `inWord` tells that
the text starts inside a word. -/
def fromWords? (inWord : Bool) : List Char → Option (List Char × Option (List Char))
  | [] => none
  | c :: cs =>
    if Text.isBlank c then fromWords? false cs
    else if inWord then (if Text.isWordChar c then fromWords? true cs else none)
    else
      -- A word that does not lead to a header is passed over, be it the keyword itself.
      match fromKeyword? (c :: cs) with
      | some found => some found
      | none => if Text.isIdentStart c then fromWords? true cs else none

/-- Whether a line starts with the word `typedef`. -/
def startsWithTypedef (s : List Char) : Bool :=
  match Text.after? "typedef".toList (s.dropWhile Text.isBlank) with
  | some (c :: _) => Text.isBlank c
  | _ => false

/-- The header in the text before the first brace of a line. -/
def parse? (head : List Char) : Option Header :=
  (fromWords? false head).map fun (name, base) => ⟨startsWithTypedef head, name, base⟩

/-- The header on a line, with the text before its brace. -/
def ofLine? (line : List Char) : Option (List Char × Header) :=
  let head := line.takeWhile (· != '{')
  if head.length < line.length then (parse? head).map fun h => (head, h) else none

/-- The headers on lines that begin at offset `pos`, each with the offset of its brace. -/
def ofLinesFrom (pos : Nat) : List (List Char) → List (Nat × Header)
  | [] => []
  | line :: lines =>
    match ofLine? line with
    | none => ofLinesFrom (pos + Text.byteSize line + 1) lines
    | some (head, header) =>
      (pos + Text.byteSize head, header) :: ofLinesFrom (pos + Text.byteSize line + 1) lines

/-- The headers of a text, each with the offset of its brace, in order. -/
def all (text : List Char) : List (Nat × Header) :=
  ofLinesFrom 0 (Text.splitLines text)

/-- The name in the header whose brace stands at an offset. -/
def nameAt? (text : List Char) (brace : Nat) : Option (List Char) :=
  match Text.takeBytesOnto? [] (brace + 1) text with
  | some ('{' :: before) =>
    -- Only the first brace of a line can end a header.
    let head := (before.takeWhile (· != '\n')).reverse
    if head.contains '{' then none else (parse? head).map Header.name
  | _ => none

/-- Why the name of a struct cannot be used. -/
inductive NameFault where
  /-- Nothing stands where the name belongs. -/
  | missing
  /-- The keyword `struct` stands there. -/
  | keyword
  /-- Something else stands there. -/
  | notIdentifier
  /-- The name is qualified by `::`. -/
  | qualified
deriving DecidableEq, Repr

/-- The wording of a fault. -/
def NameFault.message : NameFault → String
  | missing => "missing struct name"
  | keyword => "keyword `struct` in name position"
  | notIdentifier => "name is not an identifier"
  | qualified => "qualified struct names are not supported"

/-- What is wrong with a name, if anything. -/
def nameFault? (name : List Char) : Option NameFault :=
  if name.isEmpty then some .missing
  else if name == "struct".toList then some .keyword
  else if !Text.isIdentifier name then some .notIdentifier
  else none

/-- What a header declares. -/
structure Declared where
  /-- Name of the struct, qualifiers included. -/
  name : String
  /-- Name of its base: the last word behind the colon. -/
  base : Option String
  /-- What is wrong with the name. -/
  fault : Option NameFault
deriving DecidableEq, Repr

/-- What a header declares. A base that starts with a second colon is the rest of a qualified
name. -/
def declared (h : Header) : Declared :=
  let base := h.base.map Text.trim
  match base with
  | some (':' :: rest) =>
    let word := ((Text.words (':' :: rest)).head?).getD (':' :: rest)
    ⟨String.ofList (h.name ++ ':' :: word), none, some .qualified⟩
  | _ =>
    ⟨String.ofList h.name, (base.bind fun b => (Text.words b).getLast?).map String.ofList,
      nameFault? h.name⟩

end Header

end StructUnfold
