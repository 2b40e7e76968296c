import StructUnfold.Document.Basic
import StructUnfold.Json.Basic
import StructUnfold.Uri.Parser

/-!
# Values of the editor protocol

How places, ranges, changes and documents are written in the messages between an editor and the
server. A record is an object, or else the array of the values of its fields in order.
-/

namespace StructUnfold.Server

/-- A record with the given fields, as an object. -/
def record? (fields : List String) : Json → Option Json
  | .obj members => some (.obj members)
  | .arr items => if items.length = fields.length then some (.obj (fields.zip items)) else none
  | _ => none

/-- An unsigned 32-bit number. -/
def word32? (v : Json) : Option Nat :=
  v.nat?.filter (· < 4294967296)

/-- A signed 32-bit number. -/
def int32? (v : Json) : Option Int :=
  v.int?.filter fun n => -2147483648 ≤ n && n < 2147483648

/-- A URI. -/
def uri? (v : Json) : Option Uri :=
  v.str?.bind Uri.parse?

/-- A place in a document. -/
def position? (v : Json) : Option Position := do
  let v ← record? ["line", "character"] v
  let line ← v.required? "line" word32?
  let character ← v.required? "character" word32?
  return ⟨line, character⟩

/-- A stretch of a document. -/
def range? (v : Json) : Option Range := do
  let v ← record? ["start", "end"] v
  let start ← v.required? "start" position?
  let stop ← v.required? "end" position?
  return ⟨start, stop⟩

/-- A change of a document. The length of the stretch it replaces may be given, but has no
effect. -/
def change? (v : Json) : Option Change := do
  let v ← record? ["range", "rangeLength", "text"] v
  let range ← v.field? "range" range?
  let _ ← v.field? "rangeLength" word32?
  let text ← v.required? "text" Json.str?
  return ⟨range, text.toList⟩

/-- A document that is named. -/
def document? (v : Json) : Option Uri := do
  let v ← record? ["uri"] v
  v.required? "uri" uri?

/-- A document that is named together with the number of its state. -/
def versioned? (v : Json) : Option (Uri × Int) := do
  let v ← record? ["uri", "version"] v
  let uri ← v.required? "uri" uri?
  let version ← v.required? "version" int32?
  return (uri, version)

/-- A document that is given in full. -/
def content? (v : Json) : Option (Uri × Document) := do
  let v ← record? ["uri", "languageId", "version", "text"] v
  let uri ← v.required? "uri" uri?
  let _ ← v.required? "languageId" Json.str?
  let version ← v.required? "version" int32?
  let text ← v.required? "text" Json.str?
  return (uri, ⟨text.toList, version⟩)

/-- A folder of a workspace. -/
def folder? (v : Json) : Option Uri := do
  let v ← record? ["uri", "name"] v
  let uri ← v.required? "uri" uri?
  let _ ← v.required? "name" Json.str?
  return uri

/-- The token under which an editor follows some work. -/
def token? : Json → Option Unit
  | .str _ => some ()
  | v => (int32? v).map fun _ => ()

/-- A place in a named document, as an object that may hold the token for the work it causes. -/
def place? (v : Json) : Option (Uri × Position) := do
  let v ← v.object?
  let uri ← v.required? "textDocument" document?
  let position ← v.required? "position" position?
  let _ ← v.field? "workDoneToken" token?
  return (uri, position)

/-- A place as a value. -/
def ofPosition (p : Position) : Json :=
  .obj [("line", .ofNat p.line), ("character", .ofNat p.character)]

/-- A stretch as a value. -/
def ofRange (r : Range) : Json :=
  .obj [("start", ofPosition r.start), ("end", ofPosition r.stop)]

/-- A URI as a value. -/
def ofUri (u : Uri) : Json :=
  .str u.text

end StructUnfold.Server
