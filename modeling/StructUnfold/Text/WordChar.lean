import StructUnfold.Text.Alphabetic
import StructUnfold.Text.Marks
import StructUnfold.Text.Numeric

/-!
# Identifiers and word characters

An identifier is an ASCII letter or underscore followed by ASCII letters, digits and underscores.

Two more classes of characters make up words. `isWordChar` is the class of Unicode's annex on
regular expressions: alphabetic characters, marks, decimal digits, connector punctuation and the
joiners, as of version 16. `isAlphanumeric` is letters and numbers of every kind, as of version 17.
-/

namespace StructUnfold.Text

/-! ### Identifiers -/

/-- Whether a character may begin an identifier. -/
def isIdentStart (c : Char) : Bool :=
  c.isAlpha || c == '_'

/-- Whether a character may occur in an identifier. -/
def isIdentChar (c : Char) : Bool :=
  c.isAlphanum || c == '_'

/-- Whether a text is an identifier. -/
def isIdentifier : List Char → Bool
  | [] => false
  | c :: cs => isIdentStart c && cs.all isIdentChar

/-! ### Words -/

/-- Connector punctuation from U+0080 on and the two joiners. -/
def connectorRanges : Ranges := [
  (0x200C, 0x200D), (0x203F, 0x2040), (0x2054, 0x2054), (0xFE33, 0xFE34), (0xFE4D, 0xFE4F),
  (0xFF3F, 0xFF3F)]

/-- The letters, marks and decimal digits that are new in version 17 of Unicode. -/
def newRanges : Ranges := [
  (0x88F, 0x88F), (0xC5C, 0xC5C), (0xCDC, 0xCDC), (0x1ACF, 0x1ADD), (0x1AE0, 0x1AEB),
  (0xA7CE, 0xA7CF), (0xA7D2, 0xA7D2), (0xA7D4, 0xA7D4), (0xA7F1, 0xA7F1), (0x10940, 0x10959),
  (0x10EC5, 0x10EC7), (0x10EFA, 0x10EFB), (0x11B60, 0x11B67), (0x11DB0, 0x11DDB),
  (0x11DE0, 0x11DE9), (0x16EA0, 0x16EB8), (0x16EBB, 0x16ED3), (0x16FF2, 0x16FF6),
  (0x187F8, 0x187FF), (0x18D09, 0x18D1E), (0x18D80, 0x18DF2), (0x1E6C0, 0x1E6DE),
  (0x1E6E0, 0x1E6F5), (0x1E6FE, 0x1E6FF), (0x2B73A, 0x2B73F), (0x2CEA2, 0x2CEAD),
  (0x323B0, 0x33479)]

/-- Whether a character belongs to a word: a letter, a mark, a decimal digit or a connector of
version 16. -/
def isWordChar (c : Char) : Bool :=
  if c.val < 0x80 then c.isAlphanum || c == '_'
  else
    (isAlphabetic c || isMark c || isDecimal c || connectorRanges.mem c.toNat) &&
      !newRanges.mem c.toNat

/-- Whether a character is a letter or a number. -/
def isAlphanumeric (c : Char) : Bool :=
  if c.val < 0x80 then c.isAlphanum
  else isAlphabetic c || isDecimal c || isOtherNumber c

end StructUnfold.Text
