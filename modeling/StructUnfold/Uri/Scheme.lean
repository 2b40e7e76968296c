/-!
# Schemes

A URI begins with its scheme, on which it depends how the rest is read. In schemes such as `http`
and `file` a backslash counts as a slash.
-/

namespace StructUnfold.Uri

/-- The kinds of schemes. -/
inductive SchemeKind where
  /-- The scheme of files. -/
  | file
  /-- Another scheme that always has a host. -/
  | special
  /-- Any other scheme. -/
  | plain
deriving DecidableEq, Repr

/-- The numbers that schemes use where none stands behind the host. -/
def defaultNumbers : List (String × Nat) :=
  [("http", 80), ("https", 443), ("ws", 80), ("wss", 443), ("ftp", 21)]

/-- The kind of a scheme. -/
def SchemeKind.of (scheme : String) : SchemeKind :=
  if scheme == "file" then file
  else if defaultNumbers.any fun p => p.1 == scheme then special
  else plain

/-- Whether a character parts the names of a path. -/
def isSlash (kind : SchemeKind) (c : Char) : Bool :=
  c == '/' || (c == '\\' && kind != .plain)

/-- Whether a character ends a path. -/
def endsPath (c : Char) : Bool :=
  c == '?' || c == '#'

/-- Whether a character ends an authority. -/
def endsAuthority (kind : SchemeKind) (c : Char) : Bool :=
  isSlash kind c || endsPath c

/-- Scheme and rest of a text. -/
def scheme? (cs : List Char) : Option (String × List Char) :=
  let isSchemeChar (c : Char) : Bool := c.isAlphanum || c == '+' || c == '-' || c == '.'
  match cs.head?, cs.dropWhile isSchemeChar with
  | some c, ':' :: rest =>
    if c.isAlpha then some (String.ofList ((cs.takeWhile isSchemeChar).map Char.toLower), rest)
    else none
  | _, _ => none

end StructUnfold.Uri
