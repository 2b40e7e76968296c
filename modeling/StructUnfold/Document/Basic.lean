import StructUnfold.Text.Line
import StructUnfold.Text.Offset
import StructUnfold.Text.Space
import StructUnfold.Text.WordChar

/-!
# Documents

A document is the text of an open buffer. A place in it is given by an editor as a line and a
column, which counts UTF-16 units, and kept here as a byte offset. A column past the end of its line
stands for the end, and one inside a character for the end of that character.

Lines are looked up in an index of their starts, which is kept beside a text and made anew with each
change of it.
-/

namespace StructUnfold

/-- A place in a document. -/
structure Position where
  /-- Number of lines before it. -/
  line : Nat
  /-- Number of UTF-16 units before it on its line. -/
  character : Nat
deriving DecidableEq, Repr, Inhabited

/-- A stretch of a document. -/
structure Range where
  /-- Where it starts. -/
  start : Position
  /-- Where it ends. -/
  stop : Position
deriving DecidableEq, Repr

/-- A change of a document: a text that takes the place of a stretch, or of all. -/
structure Change where
  /-- The stretch that is replaced; all if there is none. -/
  range : Option Range
  /-- The text that takes its place. -/
  text : List Char
deriving DecidableEq, Repr

/-- A text with an index of its lines. -/
structure IndexedText where
  /-- The text. -/
  chars : List Char
  /-- Byte offsets at which its lines start. -/
  lineStarts : List Nat
deriving DecidableEq, Repr

namespace IndexedText

/-- The offsets at which lines start, the first one at offset `pos`. -/
def startsFrom (pos : Nat) : List (List Char) → List Nat
  | [] => []
  | line :: lines => pos :: startsFrom (pos + Text.byteSize line + 1) lines

/-- A text with the index that is made for it. -/
def ofChars (s : List Char) : IndexedText :=
  ⟨s, startsFrom 0 (Text.splitLines s)⟩

/-- Cut a line at a column: what stands before it, backwards on top of `before`, and what follows. A
column inside a character is moved behind it. -/
def cutAt (before : List Char) (column : Nat) : List Char → List Char × List Char
  | [] => (before, [])
  | c :: cs =>
    if column = 0 then (before, c :: cs) else cutAt (c :: before) (column - Text.charUnits c) cs

/-- The line that starts at a byte offset, without its line feed. -/
def lineFrom (t : IndexedText) (start : Nat) : List Char :=
  ((Text.dropBytes? start t.chars).getD []).takeWhile (· != '\n')

/-- Byte offset of a place; none if there is no such line. -/
def offsetOf? (t : IndexedText) (p : Position) : Option Nat :=
  t.lineStarts[p.line]?.map fun start =>
    start + Text.byteSize (cutAt [] p.character (t.lineFrom start)).1

/-- The text before a range, the text in it and the text after it; none unless the range lies in the
text and its start not after its end. -/
def cut? (t : IndexedText) (r : Range) : Option (List Char × List Char × List Char) := do
  let start ← t.offsetOf? r.start
  let stop ← t.offsetOf? r.stop
  if start ≤ stop then
    let before ← Text.takeBytes? start t.chars
    let rest ← Text.dropBytes? start t.chars
    let inner ← Text.takeBytes? (stop - start) rest
    let after ← Text.dropBytes? (stop - start) rest
    return (before, inner, after)
  else none

/-- The text after a change, with a new index. A range that does not lie in the text changes
nothing. -/
def change (t : IndexedText) (c : Change) : IndexedText :=
  match c.range with
  | none => ofChars c.text
  | some range =>
    match t.cut? range with
    | some (before, _, after) => ofChars (before ++ c.text ++ after)
    | none => ofChars t.chars

end IndexedText

/-- The text of an open buffer, with the number an editor gives to its state. -/
structure Document where
  /-- The text. -/
  text : List Char
  /-- The number of its state. -/
  version : Int
deriving DecidableEq, Repr

namespace Document

/-- The text with the index of its lines. -/
def indexed (d : Document) : IndexedText :=
  .ofChars d.text

/-- Number of lines, an empty one after a final line feed included. -/
def lineCount (d : Document) : Nat :=
  d.indexed.lineStarts.length

/-- A line without its line feed and the carriage returns before that. -/
def lineText? (d : Document) (line : Nat) : Option (List Char) :=
  (Text.splitLines d.text)[line]?.map (Text.dropEndWhile (· == '\r'))

/-- Byte offset of a place; none if there is no such line. -/
def offsetOf? (d : Document) (p : Position) : Option Nat :=
  d.indexed.offsetOf? p

/-- The place of a byte offset, one past the end standing for the end; none inside a character. -/
def positionOf? (d : Document) (offset : Nat) : Option Position :=
  (Text.takeBytesOnto? [] (min offset (Text.byteSize d.text)) d.text).map fun before =>
    ⟨before.countP (· == '\n'), Text.units (before.takeWhile (· != '\n'))⟩

/-- The text in a range. -/
def textIn? (d : Document) (r : Range) : Option (List Char) :=
  (d.indexed.cut? r).map fun (_, inner, _) => inner

/-- Whether a character may occur in a word: one of a class of letters and numbers, or an
underscore. -/
def isWordLetter (isAlphanumeric : Char → Bool) (c : Char) : Bool :=
  isAlphanumeric c || c == '_'

/-- The word at a place, with its range: the longest run of word letters that touches the place. -/
def wordOf? (isAlphanumeric : Char → Bool) (d : Document) (p : Position) :
    Option (List Char × Range) :=
  (d.lineText? p.line).bind fun line =>
    -- A column past the text of the line stands for the end of that text.
    let (before, after) := IndexedText.cutAt [] p.character line
    let head := before.takeWhile (isWordLetter isAlphanumeric)
    let word := head.reverse ++ after.takeWhile (isWordLetter isAlphanumeric)
    if word.isEmpty then none
    else
      let start := Text.units (before.drop head.length)
      some (word, ⟨⟨p.line, start⟩, ⟨p.line, start + Text.units word⟩⟩)

/-- The word at a place, of letters and numbers of every kind. -/
def wordAt? (d : Document) (p : Position) : Option (List Char × Range) :=
  d.wordOf? Text.isAlphanumeric p

/-- The document after changes, one after the other, with the number of its new state. -/
def applyChanges (d : Document) (changes : List Change) (version : Int) : Document :=
  ⟨(changes.foldl IndexedText.change d.indexed).chars, version⟩

end Document

end StructUnfold
