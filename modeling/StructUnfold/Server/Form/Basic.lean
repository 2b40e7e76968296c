import StructUnfold.Server.Value

/-!
# Forms of values

The parameters of a method have a form: which fields they have and what the values of the fields may
be. A form is a test of values; the forms of records, lists and choices are put together from those
of their parts.
-/

namespace StructUnfold.Server

/-- A form of values: whether a value has it. -/
abbrev Form := Json → Bool

/-- A field of a record. -/
structure Field where
  /-- The key of the field. -/
  name : String
  /-- Whether the field must be given. -/
  mandatory : Bool
  /-- The form of its value. -/
  form : Form

namespace Field

/-- A field that must be given. -/
def needed (name : String) (form : Form) : Field :=
  ⟨name, true, form⟩

/-- A field that may be absent or `null`. -/
def optional (name : String) (form : Form) : Field :=
  ⟨name, false, form⟩

/-- Whether a field may be given so, or not at all. -/
def admits (field : Field) : Option Json → Bool
  | none => !field.mandatory
  | some .null => !field.mandatory || field.form .null
  | some v => field.form v

end Field

namespace Form

/-- A value, if it has the form. -/
def check? (form : Form) (v : Json) : Option Json :=
  if form v then some v else none

/-- Any value. -/
def any : Form :=
  fun _ => true

/-- A truth value. -/
def truth : Form :=
  fun v => v.bool?.isSome

/-- A signed 32-bit number. -/
def integer : Form :=
  fun v => (int32? v).isSome

/-- An unsigned 32-bit number. -/
def count : Form :=
  fun v => (word32? v).isSome

/-- A number, with a fraction or without. -/
def number : Form
  | .int _ => true
  | .decimal _ => true
  | _ => false

/-- A text. -/
def text : Form :=
  fun v => v.str?.isSome

/-- A URI. -/
def uri : Form :=
  fun v => (uri? v).isSome

/-- A token under which an editor follows some work. -/
def token : Form :=
  fun v => (token? v).isSome

/-- A place in a document. -/
def position : Form :=
  fun v => (position? v).isSome

/-- A stretch of a document. -/
def range : Form :=
  fun v => (range? v).isSome

/-- A document that is named. -/
def document : Form :=
  fun v => (document? v).isSome

/-- One of some words: a string, or the only key of an object, with `null` as its value. -/
def word (words : List String) : Form
  | .str w => words.contains w
  | v =>
    match v.only? with
    | some (w, .null) => words.contains w
    | _ => false

/-- Either of two forms. -/
def either (a b : Form) : Form :=
  fun v => a v || b v

/-- An array of values of one form. -/
def list (form : Form) : Form
  | .arr items => items.all form
  | _ => false

/-- An array of two values of one form. -/
def pair (form : Form) : Form
  | .arr [a, b] => form a && form b
  | _ => false

/-- An object in which all keys and all values have one form each. -/
def table (key : String → Bool) (form : Form) : Form
  | .obj members => members.all fun m => key m.1 && (Json.lookup m.1 members).all form
  | _ => false

/-- An object with the given fields, and any others. -/
def object (fields : List Field) : Form
  | .obj members => fields.all fun field => field.admits (Json.lookup field.name members)
  | _ => false

/-- An object with the given fields, in which the values of all others have one form. -/
def openObject (fields : List Field) (others : Form) : Form :=
  fun v => object fields v &&
    (v.obj?.getD []).all fun m =>
      fields.any (fun field => field.name == m.1) || (v.get? m.1).all others

/-- A record with the given fields: an object, or else the array of the values of its fields in
order. -/
def record (fields : List Field) : Form
  | .arr items =>
    items.length == fields.length &&
      (fields.zip items).all fun (field, v) => field.admits (some v)
  | v => object fields v

/-- A record of truth values that may all be absent. -/
def flags (names : List String) : Form :=
  record (names.map fun name => .optional name truth)

/-- A record of one of several kinds. The kind is the value of a key, or else the first item of an
array, and is written as its name or its number. -/
def kinds (key : String) (forms : List (String × Form)) : Form :=
  let ofKind? : Json → Option Form
    | .str name => (forms.find? fun f => f.1 == name).map Prod.snd
    | .int (.ofNat n) => forms[n]?.map Prod.snd
    | _ => none
  fun
    | .obj members => ((Json.lookup key members).bind ofKind?).any fun form => form (.obj members)
    | .arr (kind :: items) => (ofKind? kind).any fun form => form (.arr items)
    | _ => false

end Form

end StructUnfold.Server
