/-!
# Punycode

A label with characters outside ASCII is written in ASCII as its ASCII characters and, behind a
dash, where the other characters go and which they are. The other characters are taken in ascending
order, and each is told by one number: how many pairs of a character and a place for it are passed
over since the last one. Numbers are written in digits of base 36, the lowest first, and small
numbers take few digits because the thresholds that end them follow the numbers before.
-/

namespace StructUnfold.Domain.Punycode

/-- A digit below 36. -/
def digit (n : Nat) : Char :=
  if n < 26 then Char.ofNat (97 + n) else Char.ofNat (48 + (n - 26))

/-- The value of a digit. -/
def value? (c : Char) : Option Nat :=
  if c.isLower then some (c.toNat - 97)
  else if c.isUpper then some (c.toNat - 65)
  else if c.isDigit then some (c.toNat - 48 + 26)
  else none

/-- The threshold of the digit at a position: a digit below it is the last one of its number.
Positions are counted in steps of 36 from 36 on. -/
def threshold (bias position : Nat) : Nat :=
  if position ≤ bias then 1 else if bias + 26 ≤ position then 26 else position - bias

theorem threshold_pos (bias position : Nat) : 1 ≤ threshold bias position := by
  unfold threshold
  split
  · exact Nat.le_refl 1
  · split <;> omega

/-- Scale a number down to 455 at most, and count the divisions by 35 in steps of 36. -/
def scale (n steps : Nat) : Nat × Nat :=
  if 455 < n then scale (n / 35) (steps + 36) else (n, steps)
termination_by n
decreasing_by exact Nat.div_lt_self (by omega) (by omega)

/-- The bias for the next number, after a number for the one that makes up `count` characters. -/
def adapt (n count : Nat) (isFirst : Bool) : Nat :=
  let n := if isFirst then n / 700 else n / 2
  let (n, steps) := scale (n + n / count) 0
  steps + 36 * n / (n + 38)

/-! ## Writing -/

/-- The digits of a number from a position on. -/
def digits (bias position n : Nat) : List Char :=
  let t := threshold bias position
  if n < t then [digit n]
  else digit (t + (n - t) % (36 - t)) :: digits bias (position + 36) ((n - t) / (36 - t))
termination_by n
decreasing_by
  have low := threshold_pos bias position
  have le := Nat.div_le_self (n - threshold bias position) (36 - threshold bias position)
  omega

/-- What has been written of a label. -/
structure Written where
  /-- The digits. -/
  text : List Char
  /-- The number for the next character. -/
  passed : Nat
  /-- The bias for that number. -/
  bias : Nat
  /-- How many characters have been told. -/
  told : Nat

/-- Pass over a place of a label, or tell that `code` stands there. -/
def Written.visit (basic code : Nat) (w : Written) (c : Char) : Written :=
  if c.toNat < code then { w with passed := w.passed + 1 }
  else if c.toNat = code then
    { text := w.text ++ digits w.bias 36 w.passed
      passed := 0
      bias := adapt w.passed (w.told + 1) (w.told == basic)
      told := w.told + 1 }
  else w

/-- Tell where the characters of ascending codes stand in a label, from the code `next` on. -/
def tell (label : List Char) (basic next : Nat) (w : Written) : List Nat → Written
  | [] => w
  | code :: codes =>
    let w := { w with passed := w.passed + (code - next) * (w.told + 1) }
    let w := label.foldl (Written.visit basic code) w
    tell label basic (code + 1) { w with passed := w.passed + 1 } codes

/-- The ASCII form of a label. -/
def encode (label : List Char) : List Char :=
  let basic := label.filter fun c => c.val < 0x80
  let codes := ((label.filter fun c => 0x80 ≤ c.val).map Char.toNat).mergeSort
  let told := tell label basic.length 128 ⟨[], 0, 72, basic.length⟩ codes.eraseDups
  (if basic.isEmpty then [] else basic ++ ['-']) ++ told.text

/-! ## Reading -/

/-- Read a number from a position on: the number, and what follows it, which is shorter. -/
def number? (bias position weight n : Nat) :
    (cs : List Char) → Option (Nat × { rest : List Char // rest.length < cs.length })
  | [] => none
  | c :: cs =>
    match value? c with
    | none => none
    | some d =>
      let t := threshold bias position
      if d < t then some (n + d * weight, ⟨cs, by simp⟩)
      else
        (number? bias (position + 36) (weight * (36 - t)) (n + d * weight) cs).map
          fun (n, rest) => (n, ⟨rest.1, Nat.lt_succ_of_lt rest.2⟩)

/-- Whether a number is that of a character. -/
def isCode (n : Nat) : Bool :=
  n < 0xD800 || (0xDFFF < n && n < 0x110000)

/-- Put the characters that are told of into a label. The next one comes at `place` or later, and
its code is `code` or higher. -/
def insert? (label : List Char) (code place bias : Nat) (isFirst : Bool) (cs : List Char) :
    Option (List Char) :=
  if cs.isEmpty then some label
  else
    match number? bias 36 1 0 cs with
    | none => none
    | some (n, ⟨rest, shorter⟩) =>
      let count := label.length + 1
      let code := code + (place + n) / count
      let place := (place + n) % count
      if isCode code then
        insert? (label.take place ++ Char.ofNat code :: label.drop place) code (place + 1)
          (adapt n count isFirst) false rest
      else none
termination_by cs.length

/-- The label of an ASCII form. A dash stands only behind ASCII characters of the label. -/
def decode? (cs : List Char) : Option (List Char) :=
  let told := (cs.reverse.takeWhile (· != '-')).reverse
  let front := cs.take (cs.length - told.length)
  if front == ['-'] || front.any fun c => 0x80 ≤ c.val then none
  else insert? front.dropLast 128 0 72 true told

end StructUnfold.Domain.Punycode
