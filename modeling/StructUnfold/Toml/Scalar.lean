import StructUnfold.Toml.Lexeme

/-!
# The scalars of TOML

Numbers, truth values, dates and times. Of a date or a time only its form counts: it becomes an
object with one member. A number with fraction or exponent is kept as it is written.
-/

namespace StructUnfold.Toml

/-- The rest of a run of digits, in which single underscores may stand between digits. -/
def digitRun (isDigit : Char → Bool) (acc : List Char) : List Char → Read (List Char)
  | [] => some (acc.reverse, [])
  | [c] =>
    if isDigit c then some ((c :: acc).reverse, [])
    else if c = '_' then none
    else some (acc.reverse, [c])
  | c :: d :: cs =>
    if isDigit c then digitRun isDigit (c :: acc) (d :: cs)
    else if c = '_' then (if isDigit d then digitRun isDigit acc (d :: cs) else none)
    else some (acc.reverse, c :: d :: cs)

/-- A run of one or more digits, in which single underscores may stand between digits. -/
def digits? (isDigit : Char → Bool) : List Char → Read (List Char)
  | [] => none
  | c :: cs => if isDigit c then digitRun isDigit [] (c :: cs) else none

/-- The number that digits of a base stand for. -/
def natOfDigits (base : Nat) (digits : List Char) : Nat :=
  digits.foldl (fun n c => n * base + (Json.hexDigit? c).getD 0) 0

/-- Whether a character is a digit of base sixteen. -/
def isHexDigit (c : Char) : Bool :=
  (Json.hexDigit? c).isSome

/-- An integer that fits 64 bits with sign. -/
def int64? (negative : Bool) (n : Nat) : Option Json :=
  if negative then (if n ≤ Nat.pow 2 63 then some (.int (-(n : Int))) else none)
  else if n < Nat.pow 2 63 then some (.int n) else none

/-- An integer of a base other than ten, behind its mark. -/
def basedInteger? (isDigit : Char → Bool) (base : Nat) (cs : List Char) :
    Option (Json × List Char) := do
  let (digits, cs) ← digits? isDigit cs
  let value ← int64? false (natOfDigits base digits)
  return (value, cs)

/-- The sign at the start of a number: whether it is negative, and the text behind it. -/
def sign (cs : List Char) : Bool × List Char :=
  match cs with
  | '-' :: cs => (true, cs)
  | '+' :: cs => (false, cs)
  | cs => (false, cs)

/-- The digits of a decimal integer; a leading zero stands alone. -/
def decimalDigits? : List Char → Read (List Char)
  | '0' :: cs => some (['0'], cs)
  | cs => digits? Char.isDigit cs

/-- An integer. -/
def integer? : List Char → Option (Json × List Char)
  | '0' :: 'x' :: cs => basedInteger? isHexDigit 16 cs
  | '0' :: 'o' :: cs => basedInteger? (fun c => '0' ≤ c && c ≤ '7') 8 cs
  | '0' :: 'b' :: cs => basedInteger? (fun c => c == '0' || c == '1') 2 cs
  | cs => do
    let (negative, cs) := sign cs
    let (digits, cs) ← decimalDigits? cs
    let value ← int64? negative (natOfDigits 10 digits)
    return (value, cs)

/-- An exponent, as its sign and digits. -/
def exponent? : List Char → Option ((Bool × List Char) × List Char)
  | c :: cs =>
    if c == 'e' || c == 'E' then do
      let (negative, cs) := sign cs
      let (digits, cs) ← digits? Char.isDigit cs
      return ((negative, digits), cs)
    else none
  | [] => none

/-- The least number that rounds to infinity among the numbers of double precision. -/
def doubleCeiling : Nat := Nat.pow 2 1024 - Nat.pow 2 970

/-- Whether the number `n · 10 ^ (up - down)` is too large for double precision. -/
def overflows (n up down : Nat) : Bool :=
  let size := (toString n).length
  -- Exponents far out of range are settled by the number of digits, without a huge power.
  if n = 0 then false
  else if down + 400 < size + up then true
  else if size + up < down + 300 then false
  else decide (doubleCeiling * Nat.pow 10 (down - up) ≤ n * Nat.pow 10 (up - down))

/-- A number with a fraction, an exponent or both, unless it is positive and too large. -/
def float? (cs : List Char) : Option (Json × List Char) := do
  let (negative, body) := sign cs
  let (whole, rest) ← decimalDigits? body
  let (fraction, rest) ←
    match rest with
    | '.' :: rest => digits? Char.isDigit rest
    | rest => some ([], rest)
  let (down, rest) ←
    match exponent? rest with
    | some ((negative, digits), rest) =>
      let e := natOfDigits 10 digits
      some (if negative then (0, e) else (e, 0), rest)
    | none =>
      -- Without fraction and exponent it is no float, and an exponent must be complete.
      match rest with
      | c :: _ => if fraction.isEmpty || c == 'e' || c == 'E' then none else some ((0, 0), rest)
      | [] => if fraction.isEmpty then none else some ((0, 0), rest)
  let n := natOfDigits 10 (whole ++ fraction)
  if !negative && overflows n down.1 (down.2 + fraction.length) then none
  else some (.decimal (String.ofList (cs.take (cs.length - rest.length))), rest)

/-- Infinity or no number, either with a sign. -/
def specialFloat? (cs : List Char) : Read Json :=
  match (sign cs).2 with
  | 'i' :: 'n' :: 'f' :: rest => some (.decimal "inf", rest)
  | 'n' :: 'a' :: 'n' :: rest => some (.decimal "nan", rest)
  | _ => none

/-- A number of exactly `count` digits. -/
def fixedDigits? (count : Nat) (cs : List Char) : Read Nat :=
  let digits := cs.take count
  if digits.length = count ∧ digits.all Char.isDigit then
    some (natOfDigits 10 digits, cs.drop count)
  else none

/-- The text behind a given character. -/
def past? (c : Char) : List Char → Option (List Char)
  | d :: cs => if c = d then some cs else none
  | [] => none

/-- Number of days of a month. -/
def daysOfMonth (year month : Nat) : Nat :=
  if month = 2 then
    if year % 4 = 0 ∧ (year % 100 ≠ 0 ∨ year % 400 = 0) then 29 else 28
  else if month = 4 ∨ month = 6 ∨ month = 9 ∨ month = 11 then 30
  else 31

/-- The text behind a date. -/
def date? (cs : List Char) : Option (List Char) := do
  let (year, cs) ← fixedDigits? 4 cs
  let cs ← past? '-' cs
  let (month, cs) ← fixedDigits? 2 cs
  let cs ← past? '-' cs
  let (day, cs) ← fixedDigits? 2 cs
  if 1 ≤ month ∧ month ≤ 12 ∧ 1 ≤ day ∧ day ≤ daysOfMonth year month then some cs else none

/-- The text behind hours and minutes. -/
def hourMinute? (cs : List Char) : Option (List Char) := do
  let (hour, cs) ← fixedDigits? 2 cs
  let cs ← past? ':' cs
  let (minute, cs) ← fixedDigits? 2 cs
  if hour < 24 ∧ minute < 60 then some cs else none

/-- The text behind a time of day. -/
def time? (cs : List Char) : Option (List Char) := do
  let cs ← hourMinute? cs
  let cs ← past? ':' cs
  let (second, cs) ← fixedDigits? 2 cs
  if second ≤ 60 then
    match cs with
    | '.' :: c :: rest => if c.isDigit then some (rest.dropWhile Char.isDigit) else some cs
    | cs => some cs
  else none

/-- The text behind the distance of a time from universal time, if it is given. -/
def skipOffset (cs : List Char) : List Char :=
  match cs with
  | 'Z' :: cs => cs
  | 'z' :: cs => cs
  | '+' :: rest => (hourMinute? rest).getD cs
  | '-' :: rest => (hourMinute? rest).getD cs
  | cs => cs

/-- The text behind a date, a time or both. -/
def dateTime? (cs : List Char) : Option (List Char) :=
  match date? cs with
  | none => time? cs
  | some rest =>
    match rest with
    | c :: clock =>
      if c == 'T' || c == 't' || c == ' ' then
        match time? clock with
        | some rest => some (skipOffset rest)
        | none => some rest
      else some rest
    | [] => some []

/-- A date or time as a value. -/
def dateTimeValue (text : List Char) : Json :=
  .obj [("date", .str (String.ofList text))]

/-- A number, a date or a time. -/
def number? (cs : List Char) : Read Json :=
  match dateTime? cs with
  | some rest => some (dateTimeValue (cs.take (cs.length - rest.length)), rest)
  | none => (float? cs).orElse fun _ => (specialFloat? cs).orElse fun _ => integer? cs

/-- A scalar. -/
def scalar? : List Char → Read Json
  | 't' :: 'r' :: 'u' :: 'e' :: cs => some (.bool true, cs)
  | 'f' :: 'a' :: 'l' :: 's' :: 'e' :: cs => some (.bool false, cs)
  | c :: cs =>
    if c == '"' || c == '\'' then (string? (c :: cs)).map fun (s, rest) => (.str s, rest)
    else number? (c :: cs)
  | [] => none

end StructUnfold.Toml
