import StructUnfold.Json.Basic

/-!
# The tables of a TOML document

While a document is read, each table remembers how it came about, for that decides what may still be
added: a table opened by a header is closed to dotted keys from outside, one made by dotted keys
cannot be opened by a header, and one that a longer header implies can be opened once.
-/

namespace StructUnfold.Toml

/-- How a table came about. -/
inductive TableKind where
  /-- By a header of its own. -/
  | headed
  /-- By a longer header. -/
  | implied
  /-- By a dotted key. -/
  | dotted
deriving DecidableEq, Repr

/-- What a name stands for. -/
inductive Node where
  /-- A value. -/
  | value (v : Json)
  /-- A table. -/
  | table (kind : TableKind) (members : List (String × Node))
  /-- An array of tables: those before the last, the latest first, and the last. -/
  | tables (earlier : List (List (String × Node))) (last : List (String × Node))

/-- The members of a table. -/
abbrev Members := List (String × Node)

namespace Members

/-- What a name stands for in a table. -/
def find? (ms : Members) (name : String) : Option Node :=
  (List.find? (fun m => m.1 == name) ms).map Prod.snd

/-- The members with another meaning of a name that stands among them. -/
def replace (ms : Members) (name : String) (node : Node) : Members :=
  ms.map fun m => if m.1 == name then (name, node) else m

/-- Change the table at the end of a path, making those tables that do not exist. A dotted path may
not lead through a table with a header of its own. -/
def update (isDotted : Bool) (edit : TableKind → Members → Option Members) (kind : TableKind)
    (ms : Members) : List String → Option Members
  | [] => edit kind ms
  | name :: path =>
    match ms.find? name with
    | none =>
      let kind := if isDotted then .dotted else .implied
      (update isDotted edit kind [] path).map fun inner => ms ++ [(name, .table kind inner)]
    | some (.value _) => none
    | some (.table kind inner) =>
      if isDotted && kind == .headed then none
      else
        (update isDotted edit kind inner path).map fun inner =>
          ms.replace name (.table kind inner)
    | some (.tables earlier last) =>
      (update isDotted edit .headed last path).map fun last =>
        ms.replace name (.tables earlier last)

/-- Add a value under a dotted key. The table it goes into must be made by dotted keys, or be the
one at hand if there is no dot. -/
def addValue (ms : Members) (kind : TableKind) (path : List String) (name : String) (v : Json) :
    Option Members :=
  update true
    (fun kind ms =>
      -- Behind a dot the table must be one of dotted keys; without a dot it must not be.
      if (kind == .dotted) == path.isEmpty || (ms.find? name).isSome then none
      else some (ms ++ [(name, .value v)]))
    kind ms path

/-- Open the table of a header. -/
def openTable (ms : Members) (path : List String) (name : String) : Option Members :=
  update false
    (fun _ ms =>
      match ms.find? name with
      | none => some (ms ++ [(name, .table .headed [])])
      | some (.table .implied inner) => some (ms.replace name (.table .headed inner))
      | some _ => none)
    .headed ms path

/-- Open a further table of an array of tables. -/
def openElement (ms : Members) (path : List String) (name : String) : Option Members :=
  update false
    (fun _ ms =>
      match ms.find? name with
      | none => some (ms ++ [(name, .tables [] [])])
      | some (.tables earlier last) => some (ms.replace name (.tables (last :: earlier) []))
      | some _ => none)
    .headed ms path

/-- Add a value under a dotted key to the table that was opened last. -/
def addUnder (ms : Members) (header : List String) (path : List String) (name : String) (v : Json) :
    Option Members :=
  update false (fun kind ms => ms.addValue kind path name v) .headed ms header

end Members

mutual

/-- What a name stands for, as a value. -/
def Node.toJson : Node → Json
  | .value v => v
  | .table _ ms => .obj (membersToJson ms)
  | .tables earlier last => .arr ((tablesToJson earlier).reverse ++ [.obj (membersToJson last)])

/-- The members of a table, as members of an object. -/
def membersToJson : List (String × Node) → List (String × Json)
  | [] => []
  | (name, node) :: ms => (name, node.toJson) :: membersToJson ms

/-- Tables as objects. -/
def tablesToJson : List (List (String × Node)) → List Json
  | [] => []
  | ms :: rest => .obj (membersToJson ms) :: tablesToJson rest

end

end StructUnfold.Toml
