import StructUnfold.Toml.Scalar
import StructUnfold.Toml.Tree

/-!
# TOML documents

`Toml.parse?` reads a document of TOML 1.0 as an object. Tables are objects, and so is an array of
tables an array of objects.
-/

namespace StructUnfold.Toml

mutual

/-- A value `depth` brackets deep. -/
def value? (depth : Nat) : Nat → List Char → Read Json
  | 0, _ => none
  | fuel + 1, cs =>
    match cs with
    | '[' :: cs =>
      if depth + 1 < nestingLimit then
        (items? (depth + 1) [] fuel cs).map fun (items, rest) => (.arr items, rest)
      else none
    | '\x7b' :: cs =>
      if depth + 1 < nestingLimit then
        match skipBlanks cs with
        | '\x7d' :: rest => some (.obj [], rest)
        | cs =>
          (pairs? (depth + 1) [] fuel cs).map fun (ms, rest) => (.obj (membersToJson ms), rest)
      else none
    | cs => scalar? cs

/-- The rest of an array. `acc` holds the items read, backwards. -/
def items? (depth : Nat) (acc : List Json) : Nat → List Char → Read (List Json)
  | 0, _ => none
  | fuel + 1, cs =>
    match skipLayout cs with
    | ']' :: rest => some (acc.reverse, rest)
    | cs =>
      match value? depth fuel cs with
      | none => none
      | some (v, rest) =>
        match skipLayout rest with
        | ',' :: rest => items? depth (v :: acc) fuel rest
        | ']' :: rest => some ((v :: acc).reverse, rest)
        | _ => none

/-- The rest of an inline table from a key on. -/
def pairs? (depth : Nat) (ms : Members) : Nat → List Char → Read Members
  | 0, _ => none
  | fuel + 1, cs =>
    match key? cs with
    | some ((path, name), '=' :: rest) =>
      match value? depth fuel (skipBlanks rest) with
      | none => none
      | some (v, rest) =>
        match ms.addValue .headed path name v with
        | none => none
        | some ms =>
          match skipBlanks rest with
          | ',' :: rest => pairs? depth ms fuel rest
          | '\x7d' :: rest => some (ms, rest)
          | _ => none
    | _ => none

end

/-- A document while it is read: its tables, and the header under which keys stand. -/
structure Draft where
  /-- All tables. -/
  root : Members
  /-- The names of the header that was read last. -/
  header : List String

/-- The draft behind the next line of a document that is no blank one, and the text behind that
line. -/
def Draft.line? (d : Draft) : List Char → Option (Draft × List Char)
  | '[' :: '[' :: cs =>
    match key? cs with
    | some ((path, name), ']' :: ']' :: rest) => do
      let rest ← restOfLine? rest
      let root ← d.root.openElement path name
      return (⟨root, path ++ [name]⟩, rest)
    | _ => none
  | '[' :: cs =>
    match key? cs with
    | some ((path, name), ']' :: rest) => do
      let rest ← restOfLine? rest
      let root ← d.root.openTable path name
      return (⟨root, path ++ [name]⟩, rest)
    | _ => none
  | cs =>
    match key? cs with
    | some ((path, name), '=' :: rest) => do
      let (v, rest) ← value? 0 (rest.length + 1) (skipBlanks rest)
      let rest ← restOfLine? rest
      let root ← d.root.addUnder d.header path name v
      return (⟨root, d.header⟩, rest)
    | _ => none

/-- The draft behind all lines of a text. -/
def Draft.lines? (d : Draft) : Nat → List Char → Option Draft
  | 0, _ => none
  | fuel + 1, cs =>
    match skipBlanks cs with
    | [] => some d
    | c :: cs =>
      if c == '#' || c == '\n' || c == '\r' then
        match restOfLine? (c :: cs) with
        | some rest => d.lines? fuel rest
        | none => none
      else
        match d.line? (c :: cs) with
        | some (d, rest) => d.lines? fuel rest
        | none => none

/-- The text without a byte order mark at its start. -/
def dropByteOrderMark (cs : List Char) : List Char :=
  match cs with
  | c :: rest => if c.toNat = 0xFEFF then rest else cs
  | [] => []

/-- The object a document stands for, unless the text is no document. -/
def parse? (text : List Char) : Option Json :=
  let text := dropByteOrderMark text
  (Draft.lines? ⟨[], []⟩ (text.length + 2) text).map fun d => .obj (membersToJson d.root)

end StructUnfold.Toml
