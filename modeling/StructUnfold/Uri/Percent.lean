import StructUnfold.Json.Parser
import StructUnfold.Json.Printer
import StructUnfold.Text.Utf8

/-!
# Percent encoding

A byte is written as a percent sign and two hexadecimal digits. Which characters are written so
depends on the part of a URI; control characters and all that is not ASCII are written so
everywhere.
-/

namespace StructUnfold.Uri

/-- A digit below 16 in upper case. -/
def upperHex (n : Nat) : Char :=
  (Json.hexLetter n).toUpper

/-- A byte in percent encoding. -/
def encodeByte (b : UInt8) : List Char :=
  ['%', upperHex (b.toNat / 16), upperHex (b.toNat % 16)]

/-- Whether a byte is written as it is nowhere. -/
def isControl (b : UInt8) : Bool :=
  b < 32 || 126 < b

/-- Bytes as a text in which the characters of the class `p`, controls and all that is not ASCII are
encoded. -/
def encodeBytes (p : Char → Bool) (bytes : List UInt8) : List Char :=
  bytes.flatMap fun b =>
    let c := Char.ofNat b.toNat
    if isControl b || p c then encodeByte b else [c]

/-- A text in which the characters of the class `p`, controls and all that is not ASCII are
encoded. -/
def encode (p : Char → Bool) (cs : List Char) : List Char :=
  encodeBytes p (Text.utf8 (String.ofList cs))

/-- Whether a character is encoded in a fragment. -/
def inFragment (c : Char) : Bool :=
  c == ' ' || c == '"' || c == '<' || c == '>' || c.toNat == 0x60

/-- Whether a character is encoded in a query. -/
def inQuery (c : Char) : Bool :=
  c == ' ' || c == '"' || c == '#' || c == '<' || c == '>'

/-- Whether a character is encoded in a path. -/
def inPath (c : Char) : Bool :=
  inFragment c || c == '#' || c == '?' || c == '\x7b' || c == '\x7d'

/-- Whether a character is encoded in a name of a path. -/
def inSegment (c : Char) : Bool :=
  inPath c || c == '/' || c == '%' || c == '\\'

/-- Whether a character is encoded in the name of a user. -/
def inUser (c : Char) : Bool :=
  inPath c || c == '/' || c == ':' || c == ';' || c == '=' || c == '@' || c == '[' || c == '\\' ||
    c == ']' || c == '^' || c == '|'

/-- The bytes of a text in percent encoding; a percent sign without two digits stands for itself. -/
def decode : List Char → List UInt8
  | [] => []
  | '%' :: a :: b :: cs =>
    match Json.hexDigit? a, Json.hexDigit? b with
    | some x, some y => UInt8.ofNat (x * 16 + y) :: decode cs
    | _, _ => 37 :: decode (a :: b :: cs)
  | c :: cs => Text.utf8 (String.singleton c) ++ decode cs

end StructUnfold.Uri
