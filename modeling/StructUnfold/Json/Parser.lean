import StructUnfold.Json.Basic

/-!
# Reading JSON

A text is cut into tokens, and the tokens drive a machine with a stack of the arrays and objects
that are open. `Json.parse?` accepts one value with white space around it, nested in fewer than 128
brackets.
-/

namespace StructUnfold.Json

/-- A token of a JSON text. -/
inductive Token where
  /-- `[` -/
  | openArr
  /-- `]` -/
  | closeArr
  /-- `{` -/
  | openObj
  /-- `}` -/
  | closeObj
  /-- `,` -/
  | comma
  /-- `:` -/
  | colon
  /-- A string. -/
  | text (value : String)
  /-- A number, `true`, `false` or `null`. -/
  | scalar (value : Json)

/-- The value of a hexadecimal digit. -/
def hexDigit? (c : Char) : Option Nat :=
  if c.isDigit then some (c.toNat - 48)
  else if 'a' ≤ c && c ≤ 'f' then some (c.toNat - 87)
  else if 'A' ≤ c && c ≤ 'F' then some (c.toNat - 55)
  else none

/-- The number four hexadecimal digits stand for. -/
def hex4? (a b c d : Char) : Option Nat := do
  let a ← hexDigit? a
  let b ← hexDigit? b
  let c ← hexDigit? c
  let d ← hexDigit? d
  return ((a * 16 + b) * 16 + c) * 16 + d

/-- The character an escape of one letter stands for. -/
def escaped? : Char → Option Char
  | '"' => some '"'
  | '\\' => some '\\'
  | '/' => some '/'
  | 'b' => some (Char.ofNat 8)
  | 'f' => some (Char.ofNat 12)
  | 'n' => some '\n'
  | 'r' => some '\r'
  | 't' => some '\t'
  | _ => none

/-- The rest of a string up to its closing quote, and the text after it. `high` is a leading
surrogate that still waits for its partner, `acc` what has been read, backwards. -/
def readString (high : Option Nat) (acc : List Char) : List Char → Option (String × List Char)
  | [] => none
  | '"' :: cs => if high.isSome then none else some (String.ofList acc.reverse, cs)
  | '\\' :: 'u' :: a :: b :: c :: d :: cs =>
    match hex4? a b c d, high with
    | none, _ => none
    | some n, none =>
      if 0xD800 ≤ n && n < 0xDC00 then readString (some n) acc cs
      else if 0xDC00 ≤ n && n < 0xE000 then none
      else readString none (Char.ofNat n :: acc) cs
    | some n, some h =>
      if 0xDC00 ≤ n && n < 0xE000 then
        readString none (Char.ofNat (0x10000 + (h - 0xD800) * 0x400 + (n - 0xDC00)) :: acc) cs
      else none
  | '\\' :: e :: cs =>
    match escaped? e, high with
    | some c, none => readString none (c :: acc) cs
    | _, _ => none
  | c :: cs => if high.isSome || c < ' ' then none else readString none (c :: acc) cs

/-- Whether a text is a non-empty run of digits. -/
def isDigits (cs : List Char) : Bool :=
  !cs.isEmpty && cs.all Char.isDigit

/-- The number a run of digits stands for. -/
def natOfDigits (cs : List Char) : Nat :=
  cs.foldl (fun n c => n * 10 + (c.toNat - 48)) 0

/-- Whether a text is an exponent: nothing, or `e`, a sign if any, and digits. -/
def isExponent : List Char → Bool
  | [] => true
  | c :: '+' :: cs => (c == 'e' || c == 'E') && isDigits cs
  | c :: '-' :: cs => (c == 'e' || c == 'E') && isDigits cs
  | c :: cs => (c == 'e' || c == 'E') && isDigits cs

/-- Whether a text is a fraction, if any, and an exponent. -/
def isFraction : List Char → Bool
  | '.' :: cs => !(cs.takeWhile Char.isDigit).isEmpty && isExponent (cs.dropWhile Char.isDigit)
  | cs => isExponent cs

/-- The number a text stands for: an integer when it is written as one and fits 64 bits, never for a
negative zero. -/
def number? (cs : List Char) : Option Json :=
  let (negative, body) :=
    match cs with
    | '-' :: body => (true, body)
    | body => (false, body)
  let whole := body.takeWhile Char.isDigit
  let rest := body.dropWhile Char.isDigit
  if whole.isEmpty || (whole.length > 1 && whole.head? == some '0') || !isFraction rest then none
  else
    let n := natOfDigits whole
    if !rest.isEmpty then some (.decimal (String.ofList cs))
    else if negative then
      -- Zero with a sign is no integer, so that the sign is not lost.
      if n = 0 || n > Nat.pow 2 63 then some (.decimal (String.ofList cs))
      else some (.int (-(n : Int)))
    else if n < Nat.pow 2 64 then some (.int n) else some (.decimal (String.ofList cs))

/-- Whether a character may occur in a number or in one of the three words. -/
def isScalarChar (c : Char) : Bool :=
  c.isAlphanum || c == '+' || c == '-' || c == '.'

/-- The value of a number or a word. -/
def scalar? (cs : List Char) : Option Json :=
  if cs == "null".toList then some .null
  else if cs == "true".toList then some (.bool true)
  else if cs == "false".toList then some (.bool false)
  else number? cs

/-- The first token of a text and what follows it; no token at the end of the text. -/
def nextToken? (cs : List Char) : Option (Option Token × List Char) :=
  match cs.dropWhile fun c => c == ' ' || c == '\t' || c == '\n' || c == '\r' with
  | [] => some (none, [])
  | '[' :: cs => some (some .openArr, cs)
  | ']' :: cs => some (some .closeArr, cs)
  | '{' :: cs => some (some .openObj, cs)
  | '}' :: cs => some (some .closeObj, cs)
  | ',' :: cs => some (some .comma, cs)
  | ':' :: cs => some (some .colon, cs)
  | '"' :: cs => (readString none [] cs).map fun (s, rest) => (some (.text s), rest)
  | cs =>
    let (word, rest) := cs.span isScalarChar
    (scalar? word).map fun v => (some (.scalar v), rest)

/-- The tokens of a text; `fuel` bounds their number and `acc` holds those read, backwards. -/
def tokensOnto (acc : List Token) : Nat → List Char → Option (List Token)
  | 0, _ => none
  | fuel + 1, cs =>
    match nextToken? cs with
    | none => none
    | some (none, _) => some acc.reverse
    | some (some token, rest) => tokensOnto (token :: acc) fuel rest

/-- The tokens of a text. -/
def tokens? (cs : List Char) : Option (List Token) :=
  tokensOnto [] (cs.length + 1) cs

/-- An array or object that is open, with what it holds so far, backwards. -/
inductive Frame where
  /-- An open array. -/
  | arr (items : List Json)
  /-- An open object and the key whose value is awaited. -/
  | obj (members : List (String × Json)) (key : String)

/-- What may come next. -/
inductive Expectation where
  /-- A value. -/
  | value
  /-- A value or the end of the array just opened. -/
  | firstItem
  /-- A key or the end of the object just opened. -/
  | firstKey
  /-- A key. -/
  | key
  /-- The colon after a key. -/
  | colon
  /-- A comma or the end of the innermost array or object. -/
  | separator
  /-- Nothing: the value is complete. -/
  | nothing (value : Json)

/-- The state of the machine. -/
structure Machine where
  /-- The arrays and objects that are open, innermost first. -/
  stack : List Frame
  /-- What may come next. -/
  expects : Expectation

namespace Machine

/-- Put a complete value where it belongs. -/
def accept (v : Json) : List Frame → Machine
  | [] => ⟨[], .nothing v⟩
  | .arr items :: stack => ⟨.arr (v :: items) :: stack, .separator⟩
  | .obj members key :: stack => ⟨.obj ((key, v) :: members) key :: stack, .separator⟩

/-- Open an array or object, unless 127 are open. -/
def enter (frame : Frame) (expects : Expectation) (stack : List Frame) : Option Machine :=
  if stack.length < 127 then some ⟨frame :: stack, expects⟩ else none

/-- Start a value. -/
def startValue (stack : List Frame) : Token → Option Machine
  | .openArr => enter (.arr []) .firstItem stack
  | .openObj => enter (.obj [] "") .firstKey stack
  | .text s => some (accept (.str s) stack)
  | .scalar v => some (accept v stack)
  | _ => none

/-- Take in one token. -/
def step (m : Machine) (token : Token) : Option Machine :=
  match m.expects, token, m.stack with
  | .firstItem, .closeArr, .arr items :: stack => some (accept (.arr items.reverse) stack)
  | .firstItem, token, stack => startValue stack token
  | .value, token, stack => startValue stack token
  | .firstKey, .closeObj, .obj members _ :: stack => some (accept (.obj members.reverse) stack)
  | .firstKey, .text key, .obj members _ :: stack => some ⟨.obj members key :: stack, .colon⟩
  | .key, .text key, .obj members _ :: stack => some ⟨.obj members key :: stack, .colon⟩
  | .colon, .colon, stack => some ⟨stack, .value⟩
  | .separator, .comma, .arr items :: stack => some ⟨.arr items :: stack, .value⟩
  | .separator, .comma, .obj members key :: stack => some ⟨.obj members key :: stack, .key⟩
  | .separator, .closeArr, .arr items :: stack => some (accept (.arr items.reverse) stack)
  | .separator, .closeObj, .obj members _ :: stack => some (accept (.obj members.reverse) stack)
  | _, _, _ => none

end Machine

/-- The value a text stands for, unless it is not JSON. -/
def parse? (s : String) : Option Json := do
  let tokens ← tokens? s.toList
  let final ← tokens.foldlM Machine.step ⟨[], .value⟩
  match final.expects with
  | .nothing v => some v
  | _ => none

end StructUnfold.Json
