import StructUnfold.Domain.Direction
import StructUnfold.Domain.Joiner
import StructUnfold.Domain.Mapping
import StructUnfold.Domain.Punycode

/-!
# The ASCII form of domain names

Whatever the letters of a domain name, it goes over the wire in ASCII. Two names are the same if
their ASCII forms are. Labels that are given in this form already must be those of proper names.
-/

namespace StructUnfold.Domain

/-- What the ASCII form of a label begins with if the label is not ASCII itself. -/
def asciiMark : List Char :=
  ['x', 'n', '-', '-']

/-- Longest form of a label that is decoded, in characters. -/
def maxEncoded : Nat := 2000

/-- Longest label that is encoded, in characters. -/
def maxDecoded : Nat := 1000

/-- Whether all characters of a label are ASCII. -/
def isAscii (label : List Char) : Bool :=
  label.all fun c => c.val < 0x80

/-- The label that a label of a mapped name stands for. One in ASCII form must be the form of a
label that is not ASCII, and whose characters stand for themselves. -/
def plainLabel? (label : List Char) : Option (List Char) :=
  if asciiMark.isPrefixOf label then
    let encoded := label.drop asciiMark.length
    if maxEncoded < encoded.length then none
    else
      (Punycode.decode? encoded).filter fun decoded =>
        !isAscii decoded && !asciiMark.isPrefixOf decoded && decoded.all isPlain &&
          Text.compose decoded == decoded
  else some label

/-- Whether a label may stand in a name. -/
def isProper (label : List Char) : Bool :=
  !label.head?.any Text.isMark && joinersFit [] label

/-- The ASCII form of a label. -/
def asciiLabel? (label : List Char) : Option (List Char) :=
  if isAscii label then some label
  else if maxDecoded < label.length then none
  else some (asciiMark ++ Punycode.encode label)

/-- The ASCII form of a domain name. -/
def ascii? (name : List Char) : Option (List Char) := do
  let mapped ← map? name
  let labels ← (mapped.splitOn '.').mapM plainLabel?
  let isOrdered :=
    if labels.any runsRight then labels.all fun label => isUniform (label.map Direction.of)
    else true
  if labels.all isProper && isOrdered then
    return List.intercalate ['.'] (← labels.mapM asciiLabel?)
  else none

end StructUnfold.Domain
