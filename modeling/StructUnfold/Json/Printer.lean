import StructUnfold.Json.Basic

/-!
# Writing JSON

`Json.render` writes a value without white space. Only the quote, the backslash and control
characters are escaped, the usual ones by a letter. The members of an object are written in the
order of their keys, each key once.
-/

namespace StructUnfold.Json

/-- The digits of a number below 16. -/
def hexLetter (n : Nat) : Char :=
  if n < 10 then Char.ofNat (48 + n) else Char.ofNat (87 + n)

/-- A character as it stands inside a string. -/
def escapeChar (c : Char) : List Char :=
  if c == '"' then ['\\', '"']
  else if c == '\\' then ['\\', '\\']
  else if c == '\n' then ['\\', 'n']
  else if c == '\r' then ['\\', 'r']
  else if c == '\t' then ['\\', 't']
  else if c.toNat = 8 then ['\\', 'b']
  else if c.toNat = 12 then ['\\', 'f']
  else if c.toNat < 32 then
    ['\\', 'u', '0', '0', hexLetter (c.toNat / 16), hexLetter (c.toNat % 16)]
  else [c]

/-- A string in quotes. -/
def quote (s : String) : String :=
  "\"" ++ String.ofList (s.toList.flatMap escapeChar) ++ "\""

/-- Put a member among members that are in order, instead of one with its key. -/
def placeMember (m : String × String) : List (String × String) → List (String × String)
  | [] => [m]
  | n :: rest =>
    if m.1 < n.1 then m :: n :: rest
    else if m.1 = n.1 then m :: rest
    else n :: placeMember m rest

/-- The text of an object, given its keys and the texts of its values. -/
def objectText (members : List (String × String)) : String :=
  let ordered := members.foldl (fun ms m => placeMember m ms) []
  "\x7b" ++ ",".intercalate (ordered.map fun m => quote m.1 ++ ":" ++ m.2) ++ "\x7d"

mutual

/-- The text of a value. -/
def render : Json → String
  | .null => "null"
  | .bool b => if b then "true" else "false"
  | .int n => toString n
  | .decimal text => text
  | .str s => quote s
  | .arr items => "[" ++ ",".intercalate (renderItems items) ++ "]"
  | .obj members => objectText (renderMembers members)

/-- The texts of the items of an array. -/
def renderItems : List Json → List String
  | [] => []
  | v :: rest => render v :: renderItems rest

/-- The members of an object with the texts of their values. -/
def renderMembers : List (String × Json) → List (String × String)
  | [] => []
  | (key, v) :: rest => (key, render v) :: renderMembers rest

end

end StructUnfold.Json
