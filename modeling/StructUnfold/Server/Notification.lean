import StructUnfold.Server.Value

/-!
# Notifications of the editor

What the editor tells the server without waiting for a reply. A notification with parameters that
are not those of its method says nothing.
-/

namespace StructUnfold.Server

/-- Something the editor tells the server. -/
inductive Notification where
  /-- The editor is ready for messages. -/
  | initialized
  /-- Settings have changed. -/
  | configured (settings : Json)
  /-- A document has been opened. -/
  | opened (uri : Uri) (document : Document)
  /-- An open document has been changed. -/
  | changed (uri : Uri) (changes : List Change) (version : Int)
  /-- A document has been saved, with its text if the editor sends it along. -/
  | saved (uri : Uri) (text : Option (List Char))
  /-- A document has been closed. -/
  | closed (uri : Uri)
deriving Repr

namespace Notification

/-- The names of the methods of notifications, of which some tell the server nothing. -/
def methods : List String :=
  ["initialized", "textDocument/didOpen", "textDocument/didChange", "textDocument/willSave",
    "textDocument/didSave", "textDocument/didClose", "workspace/didChangeConfiguration",
    "workspace/didChangeWorkspaceFolders", "workspace/didCreateFiles", "workspace/didRenameFiles",
    "workspace/didDeleteFiles", "workspace/didChangeWatchedFiles"]

/-- The notification of an open document. -/
def opened? (v : Json) : Option Notification := do
  let v ← record? ["textDocument"] v
  let (uri, document) ← v.required? "textDocument" content?
  return opened uri document

/-- The notification of a changed document. -/
def changed? (v : Json) : Option Notification := do
  let v ← record? ["textDocument", "contentChanges"] v
  let (uri, version) ← v.required? "textDocument" versioned?
  let changes ← v.required? "contentChanges" (Json.list? change?)
  return changed uri changes version

/-- The notification of a saved document. -/
def saved? (v : Json) : Option Notification := do
  let v ← record? ["textDocument", "text"] v
  let uri ← v.required? "textDocument" document?
  let text ← v.field? "text" Json.str?
  return saved uri (text.map String.toList)

/-- The notification of a closed document. -/
def closed? (v : Json) : Option Notification := do
  let v ← record? ["textDocument"] v
  let uri ← v.required? "textDocument" document?
  return closed uri

/-- The notification of changed settings. -/
def configured? (v : Json) : Option Notification := do
  let v ← record? ["settings"] v
  let settings ← v.get? "settings"
  return configured settings

/-- The notification with a method and parameters. -/
def decode? (method : String) (params : Json) : Option Notification :=
  match method with
  | "initialized" => (record? [] params).map fun _ => initialized
  | "workspace/didChangeConfiguration" => configured? params
  | "textDocument/didOpen" => opened? params
  | "textDocument/didChange" => changed? params
  | "textDocument/didSave" => saved? params
  | "textDocument/didClose" => closed? params
  | _ => none

/-- The document that a notification is about. -/
def uri? : Notification → Option Uri
  | opened uri _ => some uri
  | changed uri .. => some uri
  | saved uri _ => some uri
  | closed uri => some uri
  | _ => none

end Notification

end StructUnfold.Server
