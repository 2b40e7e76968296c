/-!
# JSON values

Integers are kept apart from all other numbers, for a setting accepts the one and refuses the other.
The members of an object are kept in order, and of two members with one key the later counts.
-/

namespace StructUnfold

/-- A JSON value. -/
inductive Json where
  /-- The value `null`. -/
  | null
  /-- A truth value. -/
  | bool (value : Bool)
  /-- A number written without fraction and exponent that fits a 64-bit word, signed or not. -/
  | int (value : Int)
  /-- Any other number, as it was written. -/
  | decimal (text : String)
  /-- A string. -/
  | str (value : String)
  /-- An array. -/
  | arr (items : List Json)
  /-- An object. -/
  | obj (members : List (String × Json))
deriving Repr, Inhabited

namespace Json

/-- The last member with a given key. -/
def lookup (key : String) (members : List (String × Json)) : Option Json :=
  (members.reverse.find? fun m => m.1 == key).map Prod.snd

/-- The member of an object with a given key. -/
def get? (key : String) : Json → Option Json
  | obj members => lookup key members
  | _ => none

/-- A member that is present and not `null`. -/
def getValue? (key : String) (v : Json) : Option Json :=
  match v.get? key with
  | some null | none => none
  | some value => some value

/-- The member of an object that has one key only. -/
def only? : Json → Option (String × Json)
  | obj members => members.getLast?.filter fun last => members.all fun m => m.1 == last.1
  | _ => none

/-- The value of a string. -/
def str? : Json → Option String
  | str s => some s
  | _ => none

/-- The value of a truth value. -/
def bool? : Json → Option Bool
  | bool b => some b
  | _ => none

/-- The value of an integer. -/
def int? : Json → Option Int
  | int n => some n
  | _ => none

/-- The value of an integer that is not negative. -/
def nat? : Json → Option Nat
  | int (.ofNat n) => some n
  | _ => none

/-- The items of an array. -/
def arr? : Json → Option (List Json)
  | arr items => some items
  | _ => none

/-- The members of an object. -/
def obj? : Json → Option (List (String × Json))
  | obj members => some members
  | _ => none

/-- A value that must be an object. -/
def object? : Json → Option Json
  | obj members => some (obj members)
  | _ => none

/-- The items of an array, each decoded. -/
def list? {α : Type} (decode : Json → Option α) (v : Json) : Option (List α) :=
  v.arr?.bind fun items => items.mapM decode

/-- A list of strings. -/
def strings? : Json → Option (List String) :=
  list? str?

/-- The decoded value of a key: failure if the key is absent or its value ill-typed. -/
def required? {α : Type} (v : Json) (key : String) (decode : Json → Option α) : Option α :=
  (v.get? key).bind decode

/-- The decoded value of a key: nothing if the key is absent or `null`, failure if it is
ill-typed. -/
def field? {α : Type} (v : Json) (key : String) (decode : Json → Option α) : Option (Option α) :=
  match v.getValue? key with
  | none => some none
  | some value => (decode value).map some

/-- A natural number as a value. -/
def ofNat (n : Nat) : Json :=
  int (Int.ofNat n)

/-- A value, or `null` where there is none. -/
def ofOption : Option Json → Json
  | some v => v
  | none => null

/-- An object without the members that have no value. -/
def ofMembers (members : List (String × Option Json)) : Json :=
  obj (members.filterMap fun (key, value) => value.map fun v => (key, v))

end Json

end StructUnfold
