import StructUnfold.Json.Parser

/-!
# The lexemes of TOML

Layout, comments, strings and keys. Each reader takes the text at hand and gives what it has read
with the text behind it, or nothing where the text has another form.
-/

namespace StructUnfold.Toml

/-- What a reader gives: a value and the text behind it. -/
abbrev Read (α : Type) := Option (α × List Char)

/-- Whether a character is a space or a tab. -/
def isBlank (c : Char) : Bool :=
  c == ' ' || c == '\t'

/-- Whether a character may stand in a comment: a tab, or no control character. -/
def isPlain (c : Char) : Bool :=
  c == '\t' || (' ' ≤ c && c ≤ '~') || 0x80 ≤ c.toNat

/-- The text behind the blanks at its start. -/
def skipBlanks (cs : List Char) : List Char :=
  cs.dropWhile isBlank

/-- The text behind a line end. -/
def lineEnd? : List Char → Option (List Char)
  | '\n' :: cs => some cs
  | '\r' :: '\n' :: cs => some cs
  | _ => none

/-- The text behind the rest of a line that may hold a comment only. -/
def restOfLine? (cs : List Char) : Option (List Char) :=
  let cs := skipBlanks cs
  let cs :=
    match cs with
    | '#' :: comment => comment.dropWhile isPlain
    | cs => cs
  if cs.isEmpty then some [] else lineEnd? cs

/-- The text behind blanks, line ends and comments; `inComment` tells that a comment is open. -/
def skipLayoutFrom (inComment : Bool) : List Char → List Char
  | [] => []
  | c :: cs =>
    if inComment && isPlain c then skipLayoutFrom true cs
    else if isBlank c || c == '\n' || (c == '\r' && cs.head? == some '\n') then
      skipLayoutFrom false cs
    else if c == '#' then skipLayoutFrom true cs
    else c :: cs

/-- The text behind blanks, line ends and comments. -/
def skipLayout (cs : List Char) : List Char :=
  skipLayoutFrom false cs

/-- The text behind blanks and line ends. -/
def skipBlankLines : List Char → List Char
  | [] => []
  | c :: cs =>
    if isBlank c || c == '\n' || (c == '\r' && cs.head? == some '\n') then skipBlankLines cs
    else c :: cs

/-- The character with a given code, unless it is a surrogate or there is none. -/
def charOfCode? (n : Nat) : Option Char :=
  if n < 0xD800 || (0xE000 ≤ n && n < 0x110000) then some (Char.ofNat n) else none

/-- The character an escape stands for, given the text behind the backslash. -/
def escape? : List Char → Option (Char × List Char)
  | 'b' :: cs => some (Char.ofNat 8, cs)
  | 't' :: cs => some ('\t', cs)
  | 'n' :: cs => some ('\n', cs)
  | 'f' :: cs => some (Char.ofNat 12, cs)
  | 'r' :: cs => some ('\r', cs)
  | '"' :: cs => some ('"', cs)
  | '\\' :: cs => some ('\\', cs)
  | 'u' :: a :: b :: c :: d :: cs => do
    let n ← Json.hex4? a b c d
    let char ← charOfCode? n
    return (char, cs)
  | 'U' :: a :: b :: c :: d :: e :: f :: g :: h :: cs => do
    let high ← Json.hex4? a b c d
    let low ← Json.hex4? e f g h
    let char ← charOfCode? (high * 65536 + low)
    return (char, cs)
  | _ => none

/-- The rest of a string in double quotes on one line. `acc` is what has been read, backwards. -/
def basicString (acc : List Char) : Nat → List Char → Read String
  | 0, _ => none
  | _ + 1, '"' :: cs => some (String.ofList acc.reverse, cs)
  | fuel + 1, '\\' :: cs =>
    match escape? cs with
    | some (c, cs) => basicString (c :: acc) fuel cs
    | none => none
  | fuel + 1, c :: cs => if isPlain c then basicString (c :: acc) fuel cs else none
  | _ + 1, [] => none

/-- The text behind a backslash, blanks and a line end, all further blanks and line ends skipped. -/
def folded? (cs : List Char) : Option (List Char) :=
  (lineEnd? (skipBlanks cs)).map skipBlankLines

/-- The end of a string in three quotes: up to two more quotes before the closing ones belong
to it. -/
def closeLong (quote : Char) (acc : List Char) : List Char → String × List Char
  | a :: b :: cs =>
    if a = quote ∧ b = quote then (String.ofList (quote :: quote :: acc).reverse, cs)
    else if a = quote then (String.ofList (quote :: acc).reverse, b :: cs)
    else (String.ofList acc.reverse, a :: b :: cs)
  | [a] =>
    if a = quote then (String.ofList (quote :: acc).reverse, [])
    else (String.ofList acc.reverse, [a])
  | [] => (String.ofList acc.reverse, [])

/-- The rest of a string in three double quotes. -/
def longBasicString (acc : List Char) : Nat → List Char → Read String
  | 0, _ => none
  | _ + 1, '"' :: '"' :: '"' :: cs => some (closeLong '"' acc cs)
  | fuel + 1, '\\' :: cs =>
    match folded? cs with
    | some cs => longBasicString acc fuel cs
    | none =>
      match escape? cs with
      | some (c, cs) => longBasicString (c :: acc) fuel cs
      | none => none
  | fuel + 1, c :: cs =>
    match lineEnd? (c :: cs) with
    | some cs => longBasicString ('\n' :: acc) fuel cs
    | none => if isPlain c then longBasicString (c :: acc) fuel cs else none
  | _ + 1, [] => none

/-- The rest of a string in single quotes on one line. -/
def literalString (acc : List Char) : List Char → Read String
  | '\'' :: cs => some (String.ofList acc.reverse, cs)
  | c :: cs => if isPlain c then literalString (c :: acc) cs else none
  | [] => none

/-- The rest of a string in three single quotes. -/
def longLiteralString (acc : List Char) : Nat → List Char → Read String
  | 0, _ => none
  | _ + 1, '\'' :: '\'' :: '\'' :: cs => some (closeLong '\'' acc cs)
  | fuel + 1, c :: cs =>
    match lineEnd? (c :: cs) with
    | some cs => longLiteralString ('\n' :: acc) fuel cs
    | none => if isPlain c then longLiteralString (c :: acc) fuel cs else none
  | _ + 1, [] => none

/-- The text without a line end at its start. -/
def dropLineEnd (cs : List Char) : List Char :=
  (lineEnd? cs).getD cs

/-- A string of any kind. -/
def string? : List Char → Read String
  | '"' :: '"' :: '"' :: cs => longBasicString [] (cs.length + 1) (dropLineEnd cs)
  | '"' :: cs => basicString [] (cs.length + 1) cs
  | '\'' :: '\'' :: '\'' :: cs => longLiteralString [] (cs.length + 1) (dropLineEnd cs)
  | '\'' :: cs => literalString [] cs
  | _ => none

/-- Whether a character may occur in a key without quotes. -/
def isBareChar (c : Char) : Bool :=
  c.isAlphanum || c == '-' || c == '_'

/-- One name of a key. -/
def name? : List Char → Read String
  | '"' :: cs => basicString [] (cs.length + 1) cs
  | '\'' :: cs => literalString [] cs
  | cs =>
    let bare := cs.takeWhile isBareChar
    if bare.isEmpty then none else some (String.ofList bare, cs.dropWhile isBareChar)

/-- The names of a key, parted by dots. -/
def names? : Nat → List Char → Read (List String)
  | 0, _ => none
  | fuel + 1, cs =>
    match name? (skipBlanks cs) with
    | none => none
    | some (name, cs) =>
      match skipBlanks cs with
      | '.' :: cs =>
        match names? fuel cs with
        | none => none
        | some (names, cs) => some (name :: names, cs)
      | cs => some ([name], cs)

/-- Number from which on names and brackets nest too deep. -/
def nestingLimit : Nat := 80

/-- A key, as its last name and the names before it. -/
def key? (cs : List Char) : Read (List String × String) :=
  match names? (cs.length + 1) cs with
  | none => none
  | some (names, cs) =>
    match names.getLast? with
    | none => none
    | some last => if names.length < nestingLimit then some ((names.dropLast, last), cs) else none

end StructUnfold.Toml
