/-!
# White space

Three classes of white space occur: `isSpace` is Unicode's property `White_Space`, `isAsciiSpace`
the five ASCII blanks that may stand before a brace, and `isBlank` the space and the tab between the
words of one line. Trimming and splitting into words go by the first.
-/

namespace StructUnfold.Text

/-- Whether a character has the Unicode property `White_Space`. -/
def isSpace (c : Char) : Bool :=
  let n := c.toNat
  (9 ≤ n && n ≤ 13) || n == 0x20 || n == 0x85 || n == 0xA0 || n == 0x1680 ||
    (0x2000 ≤ n && n ≤ 0x200A) || n == 0x2028 || n == 0x2029 || n == 0x202F || n == 0x205F ||
    n == 0x3000

/-- Whether a character is a space, a tab, a line feed, a form feed or a carriage return. -/
def isAsciiSpace (c : Char) : Bool :=
  c == ' ' || c == '\t' || c == '\n' || c.toNat == 12 || c == '\r'

/-- Whether a character is a space or a tab. -/
def isBlank (c : Char) : Bool :=
  c == ' ' || c == '\t'

/-- The text without the longest run of characters in the class `p` at its end. -/
def dropEndWhile (p : Char → Bool) (s : List Char) : List Char :=
  (s.reverse.dropWhile p).reverse

/-- The text without white space at its start. -/
def trimStart (s : List Char) : List Char :=
  s.dropWhile isSpace

/-- The text without white space at its end. -/
def trimEnd (s : List Char) : List Char :=
  dropEndWhile isSpace s

/-- The text without white space at either end. -/
def trim (s : List Char) : List Char :=
  trimEnd (trimStart s)

/-- The maximal runs of characters that are not white space, in order. -/
def words (s : List Char) : List (List Char) :=
  (s.splitOnP isSpace).filter fun w => !w.isEmpty

/-- The words of a list with one space between neighbours. -/
def joinWords (ws : List (List Char)) : List Char :=
  List.intercalate [' '] ws

end StructUnfold.Text
