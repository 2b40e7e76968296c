import StructUnfold.Uri.Percent
import StructUnfold.Uri.Scheme

/-!
# Paths in URIs

A path is read name by name. The names `.` and `..` are resolved on the way, and what must be is
percent-encoded. The name of a drive, a letter and a colon, is never gone up from.
-/

namespace StructUnfold.Uri

/-- Whether a name stands for the directory itself. -/
def isSingleDot (name : List Char) : Bool :=
  let name := String.ofList (name.map Char.toLower)
  name == "." || name == "%2e"

/-- Whether a name stands for the directory above. -/
def isDoubleDot (name : List Char) : Bool :=
  let name := String.ofList (name.map Char.toLower)
  name == ".." || name == "%2e." || name == ".%2e" || name == "%2e%2e"

/-- Whether a name is a letter and a colon or bar. -/
def isDrive : List Char → Bool
  | [letter, mark] => letter.isAlpha && (mark == ':' || mark == '|')
  | _ => false

/-- Whether a name is that of a drive, behind which a backslash and more may stand. -/
def startsWithDrive (name : String) : Bool :=
  let cs := name.toList
  isDrive (cs.take 2) && (cs.length == 2 || cs[2]? == some '\\')

/-- The names of a path, the last first, without the last one unless it is that of a drive. -/
def shorten : List String → List String
  | [] => []
  | name :: names => if startsWithDrive name then name :: names else names

/-- The names of a path after one more piece, the last first; `isLast` tells that no slash follows.
A drive that a path of files begins with is written with a colon. -/
def addSegment (kind : SchemeKind) (names : List String) (piece : List Char) (isLast : Bool) :
    List String :=
  if isDoubleDot piece then (if isLast then "" :: shorten names else shorten names)
  else if isSingleDot piece then (if isLast then "" :: names else names)
  else if kind == .file && names.isEmpty && isDrive piece then
    String.ofList (piece.take 1 ++ [':']) :: names
  else String.ofList (encode inPath piece) :: names

/-- The names of a path after further pieces, the last first. -/
def addSegments (kind : SchemeKind) (names : List String) : List (List Char) → List String
  | [] => names
  | [piece] => addSegment kind names piece true
  | piece :: pieces => addSegments kind (addSegment kind names piece false) pieces

/-- The names of a path, given the text behind its first slash. -/
def segments (kind : SchemeKind) (path : List Char) : List String :=
  (addSegments kind [] (path.splitOnP (isSlash kind))).reverse

/-- The text behind the first slash of a path, which may be missing. -/
def dropSlash (kind : SchemeKind) (path : List Char) : List Char :=
  if path.head?.any (isSlash kind) then path.drop 1 else path

/-- Names without the empty ones in front; one name is left at least. -/
def dropEmpty (names : List String) : List String :=
  let names := names.dropWhile String.isEmpty
  if names.isEmpty then [""] else names

end StructUnfold.Uri
