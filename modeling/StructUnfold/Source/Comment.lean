import StructUnfold.Text.Offset

/-!
# Comments

Comments are told from code by an automaton that reads a text from left to right and sees one
character ahead. A line comment ends before the line feed, a block comment after its closing mark,
and a block comment that is never closed runs to the end of the text. String literals are nothing
special.
-/

namespace StructUnfold.Comment

/-- Where the automaton stands between two characters. -/
inductive Mode where
  /-- Outside all comments. -/
  | code
  /-- Before the second slash that opens a line comment. -/
  | openingLine
  /-- Before the star that opens a block comment. -/
  | openingBlock
  /-- Inside a line comment. -/
  | line
  /-- Inside a block comment. -/
  | block
  /-- Before the slash that closes a block comment. -/
  | closingBlock
deriving DecidableEq, Repr

/-- What a character is to its text. -/
inductive Kind where
  /-- Code. -/
  | code
  /-- The first character of a comment. -/
  | opening
  /-- A later character of a comment. -/
  | inside
deriving DecidableEq, Repr

/-- The kind of a character, given the one after it, and the mode behind it. -/
def Mode.step (mode : Mode) (c : Char) (next : Option Char) : Kind × Mode :=
  match mode with
  | .code =>
    if c = '/' && next == some '/' then (.opening, .openingLine)
    else if c = '/' && next == some '*' then (.opening, .openingBlock)
    else (.code, .code)
  | .openingLine => (.inside, .line)
  | .openingBlock => (.inside, .block)
  | .line => if c = '\n' then (.code, .code) else (.inside, .line)
  | .block => if c = '*' && next == some '/' then (.inside, .closingBlock) else (.inside, .block)
  | .closingBlock => (.inside, .code)

/-- A range of byte offsets, the end excluded. -/
structure Span where
  /-- Offset of the first byte. -/
  start : Nat
  /-- Offset behind the last byte. -/
  stop : Nat
deriving DecidableEq, Repr

/-- Whether an offset lies in a span. -/
def Span.contains (s : Span) (offset : Nat) : Bool :=
  s.start ≤ offset && offset < s.stop

/-- The comments of a text that begins at offset `pos` in the given mode; `opened` is where the
comment began that is still open. -/
def spansFrom (mode : Mode) (pos : Nat) (opened : Option Nat) : List Char → List Span
  | [] =>
    match opened with
    | none => []
    | some start => [⟨start, pos⟩]
  | c :: cs =>
    match mode.step c cs.head?, opened with
    | (.inside, mode), opened => spansFrom mode (pos + c.utf8Size) opened cs
    | (.opening, mode), none => spansFrom mode (pos + c.utf8Size) (some pos) cs
    -- A comment ends right where the next one begins.
    | (.opening, mode), some start =>
      ⟨start, pos⟩ :: spansFrom mode (pos + c.utf8Size) (some pos) cs
    | (.code, mode), none => spansFrom mode (pos + c.utf8Size) none cs
    | (.code, mode), some start => ⟨start, pos⟩ :: spansFrom mode (pos + c.utf8Size) none cs

/-- The comments of a text, in order. -/
def spans (text : List Char) : List Span :=
  spansFrom .code 0 none text

/-- Whether an offset lies in one of the spans. -/
def inSpans (spans : List Span) (offset : Nat) : Bool :=
  spans.any fun s => s.contains offset

/-- The rest of a text with one space for each comment, after what has been written, backwards. -/
def stripOnto (acc : List Char) (mode : Mode) : List Char → List Char
  | [] => acc.reverse
  | c :: cs =>
    match mode.step c cs.head? with
    | (.code, mode) => stripOnto (c :: acc) mode cs
    | (.opening, mode) => stripOnto (' ' :: acc) mode cs
    | (.inside, mode) => stripOnto acc mode cs

/-- The text with one space for each comment. -/
def strip (text : List Char) : List Char :=
  stripOnto [] .code text

theorem stripOnto_eq (acc : List Char) (mode : Mode) (text : List Char) :
    stripOnto acc mode text = acc.reverse ++ stripOnto [] mode text := by
  induction text generalizing acc mode with
  | nil => simp [stripOnto]
  | cons c cs ih =>
    rw [stripOnto, stripOnto]
    split
    · rw [ih, ih [c]]
      simp
    · rw [ih, ih [' ']]
      simp
    · rw [ih]

end StructUnfold.Comment
