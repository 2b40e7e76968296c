import StructUnfold.Text.WordChar

/-!
# Searching a text

`containsText` is the plain substring test. `splitAtWord?` finds a word that stands by itself: no
identifier character touches it on either side.
-/

namespace StructUnfold.Text

/-- What is left of a text after a given beginning. -/
def after? : List Char → List Char → Option (List Char)
  | [], s => some s
  | _ :: _, [] => none
  | p :: ps, c :: cs => if p = c then after? ps cs else none

/-- Whether a text occurs in another. -/
def containsText (needle : List Char) : List Char → Bool
  | [] => needle.isEmpty
  | c :: cs => (after? needle (c :: cs)).isSome || containsText needle cs

/-- Whether no identifier character stands at this place. -/
def isEdge : Option Char → Bool
  | none => true
  | some c => !isIdentChar c

/-- The text before and after the first place where `word` stands by itself. `before` is the text
already passed, read backwards; `skip` characters belong to an occurrence of the word that was
refused. -/
def splitAtWordFrom (word : List Char) (before : List Char) (skip : Nat) :
    List Char → Option (List Char × List Char)
  | [] => none
  | c :: cs =>
    match skip with
    | k + 1 => splitAtWordFrom word (c :: before) k cs
    | 0 =>
      match after? word (c :: cs) with
      | none => splitAtWordFrom word (c :: before) 0 cs
      | some rest =>
        if isEdge before.head? && isEdge rest.head? then some (before.reverse, rest)
        else splitAtWordFrom word (c :: before) (word.length - 1) cs

/-- The text before and after the first place where `word` stands by itself, among the occurrences
that do not overlap. -/
def splitAtWord? (word s : List Char) : Option (List Char × List Char) :=
  if word.isEmpty then none else splitAtWordFrom word [] 0 s

end StructUnfold.Text
