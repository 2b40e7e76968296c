import StructUnfold.Catalog.Basic
import StructUnfold.Problem
import StructUnfold.Text.Space

/-!
# Resolving a symbol

A symbol is a name behind which stars may stand. It is followed through the table of aliases to a
name that is no alias. A chain with more hops than there are aliases runs in a circle, so one hop
more than that is the bound, or the catalog's limit if it is lower.
-/

namespace StructUnfold

/-- The name a symbol comes down to. -/
structure Resolved where
  /-- The name, which is no alias. -/
  root : String
  /-- Whether a star or an alias on the way made it a pointer. -/
  isPointer : Bool
deriving DecidableEq, Repr

namespace Catalog

/-- Whether a character may be left away at the end of a symbol. -/
def isSymbolTail (c : Char) : Bool :=
  c == '*' || Text.isSpace c

/-- The symbol without the stars and white space at its end. -/
def stripStars (symbol : List Char) : List Char :=
  Text.dropEndWhile isSymbolTail symbol

/-- Follow the aliases from a name for at most `hops` hops. -/
def follow? (aliases : Table Alias) (hops : Nat) (name : String) (isPointer : Bool) :
    Option Resolved :=
  match aliases.get? name with
  | none => some ⟨name, isPointer⟩
  | some a =>
    match hops with
    | 0 => none
    | hops + 1 => follow? aliases hops a.target (isPointer || a.isPointer)

/-- Number of hops after which a chain of aliases is given up. -/
def aliasHopBound (c : Catalog) : Nat :=
  match c.maxAliasHops with
  | some cap => min cap (c.aliases.size + 1)
  | none => c.aliases.size + 1

/-- The name a symbol comes down to, unless its aliases form too long a chain. -/
def resolve (c : Catalog) (symbol : List Char) : Except Problem Resolved :=
  let trimmed := Text.trim symbol
  let stripped := stripStars trimmed
  let name := String.ofList stripped
  match follow? c.aliases c.aliasHopBound name (stripped.length != trimmed.length) with
  | some found => .ok found
  | none => .error (.cyclicAlias name c.aliasHopBound)

end Catalog

end StructUnfold
