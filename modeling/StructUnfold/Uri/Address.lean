import StructUnfold.Json.Parser

/-!
# Addresses of machines

A machine may be named by its address: four bytes, or eight words of 16 bits. Both can be written in
many ways; the normal form of bytes is decimal with points between, that of words hexadecimal with
colons between and one run of zeros left out.
-/

namespace StructUnfold.Uri

/-- A number in digits of a base. No digits are zero. -/
def numberIn? (base : Nat) (cs : List Char) : Option Nat :=
  cs.foldlM
    (fun n c => ((Json.hexDigit? c).filter (· < base)).map fun d => n * base + d) 0

/-- A part of an address of bytes: a number in decimal, in octal behind a zero, or in hexadecimal
behind a zero and the letter x. -/
def part? : List Char → Option Nat
  | [] => none
  | ['0'] => some 0
  | '0' :: c :: cs => if c == 'x' || c == 'X' then numberIn? 16 cs else numberIn? 8 (c :: cs)
  | cs => numberIn? 10 cs

/-- The parts between the points of a name; a point at its end does not count. -/
def pointedParts (name : List Char) : List (List Char) :=
  let parts := name.splitOn '.'
  if 1 < parts.length && parts.getLast? == some [] then parts.dropLast else parts

/-- Whether a name ends in a number, so that it must be an address. -/
def endsInNumber (name : List Char) : Bool :=
  (pointedParts name).getLast?.any fun part =>
    (!part.isEmpty && part.all Char.isDigit) || (part? part).isSome

/-- The number of an address of bytes. Each part is one byte, but the last one makes up all that are
left. -/
def byteAddress? (name : List Char) : Option Nat := do
  let numbers ← (pointedParts name).mapM part?
  let last ← numbers.getLast?
  let front := numbers.dropLast
  let room := Nat.pow 256 (4 - front.length)
  if front.length ≤ 3 && front.all (· < 256) && last < room then
    return front.foldl (fun n part => n * 256 + part) 0 * room + last
  else none

/-- An address of bytes in normal form. -/
def byteAddressText (n : Nat) : String :=
  ".".intercalate ([16777216, 65536, 256, 1].map fun place => toString (n / place % 256))

/-- A word of an address in hexadecimal digits. -/
def word? (cs : List Char) : Option Nat :=
  if cs.isEmpty || 4 < cs.length then none else numberIn? 16 cs

/-- A byte in decimal digits without a zero in front. -/
def byte? (cs : List Char) : Option Nat :=
  if cs.isEmpty || (cs.head? == some '0' && 1 < cs.length) then none
  else (numberIn? 10 cs).filter (· < 256)

/-- Two words that are written as four bytes. -/
def wordPair? (cs : List Char) : Option (List Nat) := do
  match ← (cs.splitOn '.').mapM byte? with
  | [a, b, c, d] => return [a * 256 + b, c * 256 + d]
  | _ => none

/-- Words with colons between them, of which the last two may be written as bytes. -/
def words? : List (List Char) → Option (List Nat)
  | [] => some []
  | [last] => if last.contains '.' then wordPair? last else (word? last).map fun n => [n]
  | first :: rest => do return (← word? first) :: (← words? rest)

/-- The words on one side of the gap in an address; there may be none. -/
def sideWords? (cs : List Char) : Option (List Nat) :=
  if cs.isEmpty then some [] else words? (cs.splitOn ':')

/-- The texts on the two sides of two colons. -/
def splitGap? : List Char → Option (List Char × List Char)
  | ':' :: ':' :: rest => some ([], rest)
  | c :: rest => (splitGap? rest).map fun (before, after) => (c :: before, after)
  | [] => none

/-- The eight words of an address. Two colons stand for as many zeros as are missing, one at
least. -/
def wordAddress? (cs : List Char) : Option (List Nat) :=
  match splitGap? cs with
  | none => (words? (cs.splitOn ':')).filter fun words => words.length == 8
  | some (before, after) => do
    let front ← if before.contains '.' then none else sideWords? before
    let back ← sideWords? after
    if front.length + back.length ≤ 7 then
      return front ++ List.replicate (8 - front.length - back.length) 0 ++ back
    else none

/-- A word in hexadecimal digits. -/
def wordText (n : Nat) : String :=
  String.ofList (Nat.toDigits 16 n)

/-- The number of zeros that a list begins with. -/
def leadingZeros (words : List Nat) : Nat :=
  (words.takeWhile (· == 0)).length

/-- An address of words in normal form: the first of the longest runs of zeros is left out, if it is
longer than one. -/
def wordAddressText (words : List Nat) : String :=
  let runs := (List.range words.length).map fun start => leadingZeros (words.drop start)
  let longest := runs.foldl max 0
  let text (words : List Nat) : String := ":".intercalate (words.map wordText)
  if longest < 2 then text words
  else
    let start := runs.idxOf longest
    text (words.take start) ++ "::" ++ text (words.drop (start + longest))

end StructUnfold.Uri
