import StructUnfold.Text.Search
import StructUnfold.Text.Space
import StructUnfold.Text.WordChar

/-!
# Declarators and alias statements

The names behind a struct's closing brace, or behind `typedef struct Name`, form a list parted by
commas. Each name may be preceded by stars and by the words `const` and `volatile`. Entries of any
other form are passed over.
-/

namespace StructUnfold

/-- A name in a declarator list. -/
structure Declarator where
  /-- The name. -/
  name : String
  /-- Whether a star stands before it. -/
  isPointer : Bool
deriving DecidableEq, Repr

namespace Declarator

/-- A star or a run of other characters in a declarator. -/
inductive Token where
  /-- A star. -/
  | star
  /-- Characters between white space and stars. -/
  | word (text : List Char)
deriving DecidableEq, Repr

/-- Whether a token may stand before the name. -/
def Token.isMark : Token → Bool
  | star => true
  | word text => text == "const".toList || text == "volatile".toList

/-- The tokens of a declarator. -/
def tokens (raw : List Char) : List Token :=
  List.intercalate [Token.star] ((raw.splitOn '*').map fun s => (Text.words s).map Token.word)

/-- The declarator an entry of a list declares. -/
def parse? (raw : List Char) : Option Declarator :=
  let tokens := tokens raw
  match tokens.dropWhile Token.isMark with
  | [.word text] =>
    if Text.isIdentifier text then
      some ⟨String.ofList text, (tokens.takeWhile Token.isMark).contains .star⟩
    else none
  | _ => none

/-- The declarators of a list, which semicolons may end. -/
def parseList (list : List Char) : List Declarator :=
  ((Text.dropEndWhile (· == ';') (Text.trim list)).splitOn ',').filterMap parse?

end Declarator

/-- A statement of the form `typedef struct … ;` without braces, all on one line. -/
structure AliasStatement where
  /-- Offset of its first byte. -/
  offset : Nat
  /-- Its text, from `typedef` to the semicolon. -/
  text : List Char
  /-- What stands between `struct` and the semicolon. -/
  body : List Char
deriving DecidableEq, Repr

namespace AliasStatement

/-- Whether a character may occur between `struct` and the semicolon. -/
def isBodyChar (c : Char) : Bool :=
  c != '{' && c != '}' && c != ';' && c != '\n'

/-- The body of a statement that starts with the keyword `struct`. -/
def bodyFromKeyword? (s : List Char) : Option (List Char) :=
  match Text.after? "struct".toList s with
  | none => none
  | some rest =>
    if rest.head?.any Text.isWordChar then none
    else if (rest.dropWhile isBodyChar).head? = some ';' then some (rest.takeWhile isBodyChar)
    else none

/-- The statement a text starts with, given as its length and its body. -/
def startOf? (s : List Char) : Option (Nat × List Char) :=
  match Text.after? "typedef".toList s with
  | none => none
  | some rest =>
    let keyword := rest.dropWhile Text.isBlank
    if keyword.length < rest.length then
      (bodyFromKeyword? keyword).map fun body =>
        (s.length - keyword.length + "struct".length + body.length + 1, body)
    else none

/-- The statements in the rest of a line. `previous` is the character before it, `skip` the number
of its characters that belong to the statement found last. -/
def ofTextFrom (previous : Option Char) (skip pos : Nat) : List Char → List AliasStatement
  | [] => []
  | c :: cs =>
    match skip with
    | k + 1 => ofTextFrom (some c) k (pos + c.utf8Size) cs
    | 0 =>
      -- The statement that is found is passed over as a whole, so that none starts inside it.
      match if previous.any Text.isWordChar then none else startOf? (c :: cs) with
      | none => ofTextFrom (some c) 0 (pos + c.utf8Size) cs
      | some (length, body) =>
        ⟨pos, (c :: cs).take length, body⟩ :: ofTextFrom (some c) (length - 1) (pos + c.utf8Size) cs

/-- The alias statements of a text, in order. -/
def all (text : List Char) : List AliasStatement :=
  ofTextFrom none 0 0 text

/-- The struct named in the body of a statement and the aliases declared for it. -/
def parse? (body : List Char) : Option (String × List Declarator) :=
  let body := Text.trim body
  let name := body.takeWhile Text.isIdentChar
  let declarators := Declarator.parseList (body.dropWhile Text.isIdentChar)
  if Text.isIdentifier name && !declarators.isEmpty then some (String.ofList name, declarators)
  else none

end AliasStatement

end StructUnfold
