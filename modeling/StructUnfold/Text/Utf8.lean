/-!
# UTF-8

Texts as bytes, and bytes as texts. Where bytes are not UTF-8 they fall into pieces: characters, and
between them the shortest runs that no character starts with.
-/

namespace StructUnfold.Text

/-- The bytes of a text. -/
def utf8 (text : String) : List UInt8 :=
  text.toUTF8.data.toList

/-- Read the bytes that a character still owes, the next of which lies between `low` and `high`. The
result is the character, unless it breaks off, and the number of bytes read. -/
def readOwed : Nat → UInt8 → UInt8 → Nat → List UInt8 → Option Char × Nat
  | 0, _, _, bits, _ => (some (Char.ofNat bits), 0)
  | _ + 1, _, _, _, [] => (none, 0)
  | owed + 1, low, high, bits, b :: rest =>
    if low ≤ b && b ≤ high then
      let (c, count) := readOwed owed 0x80 0xBF (bits * 64 + b.toNat % 64) rest
      (c, count + 1)
    else (none, 0)

/-- Read a character behind its first byte. -/
def readBehind (first : UInt8) (rest : List UInt8) : Option Char × Nat :=
  if first < 0x80 then (some (Char.ofNat first.toNat), 0)
  else if first < 0xC2 then (none, 0)
  else if first < 0xE0 then readOwed 1 0x80 0xBF (first.toNat % 32) rest
  else if first == 0xE0 then readOwed 2 0xA0 0xBF 0 rest
  else if first == 0xED then readOwed 2 0x80 0x9F 13 rest
  else if first < 0xF0 then readOwed 2 0x80 0xBF (first.toNat % 16) rest
  else if first == 0xF0 then readOwed 3 0x90 0xBF 0 rest
  else if first < 0xF4 then readOwed 3 0x80 0xBF (first.toNat % 8) rest
  else if first == 0xF4 then readOwed 3 0x80 0x8F 4 rest
  else (none, 0)

/-- The pieces that bytes fall into; what is no character is `none`. -/
def pieces : List UInt8 → List (Option Char)
  | [] => []
  | first :: rest =>
    let (c, count) := readBehind first rest
    c :: pieces (rest.drop count)
termination_by bytes => bytes.length
decreasing_by simp only [List.length_drop, List.length_cons]; omega

/-- Whether bytes are the UTF-8 form of a text. -/
def isUtf8 (bytes : List UInt8) : Bool :=
  (pieces bytes).all Option.isSome

/-- The character that stands for bytes that are none. -/
def replacement : Char :=
  Char.ofNat 0xFFFD

/-- Bytes as a text for readers. -/
def readable (bytes : List UInt8) : List Char :=
  (pieces bytes).map fun c => c.getD replacement

end StructUnfold.Text
