import StructUnfold.Json.Printer
import StructUnfold.Server.Form.Abilities
import StructUnfold.Server.Form.Parameters
import StructUnfold.Server.Notification
import StructUnfold.Server.Reply
import StructUnfold.Server.Value

/-!
# Requests of the editor

What the editor asks the server. Besides the requests it can answer, the server knows many methods
only by name and by the form of their parameters.
-/

namespace StructUnfold.Server

/-- Something the editor asks the server. -/
inductive Request where
  /-- To set itself up for a workspace with these roots, under the options of the editor. -/
  | setUp (roots : List Uri) (options : Option Json)
  /-- To come to an end. -/
  | shutDown
  /-- What to show for a place in a document. -/
  | hover (uri : Uri) (position : Position)
  /-- Which names of the workspace match a query. -/
  | symbols (query : String)
  /-- To carry out a command. -/
  | execute (command : String) (arguments : List Json)
  /-- Something the server does not do. -/
  | unsupported
deriving Repr

/-- A method that the server knows. -/
inductive Method where
  /-- To set itself up. -/
  | setUp
  /-- To come to an end. -/
  | shutDown
  /-- What to show for a place. -/
  | hover
  /-- Which names match a query. -/
  | symbols
  /-- To carry out a command. -/
  | execute
  /-- Something the server does not do, with the form of its parameters. -/
  | unsupported (params : Form)
  /-- To know something, which the editor may tell but not ask. -/
  | notice
  /-- To give up another request, which the editor may tell but not ask. -/
  | cancel
  /-- To be gone. -/
  | exit

namespace Request

/-- The fields of the parameters to set up, in order. -/
def setUpFields : List String :=
  ["processId", "rootPath", "rootUri", "initializationOptions", "capabilities", "trace",
    "workspaceFolders", "clientInfo", "locale"]

/-- What an editor says of itself. -/
def client : Form :=
  .record [.needed "name" .text, .optional "version" .text]

/-- The request to set up. The roots are the folders of the workspace, or else its one root. -/
def setUp? (v : Json) : Option Request := do
  let v ← record? setUpFields v
  let _ ← v.required? "capabilities" Form.abilities.check?
  let _ ← v.field? "processId" word32?
  let _ ← v.field? "rootPath" Json.str?
  let root ← v.field? "rootUri" uri?
  let _ ← v.field? "trace" (Form.word ["off", "messages", "verbose"]).check?
  let folders ← v.field? "workspaceFolders" (Json.list? folder?)
  let _ ← v.field? "clientInfo" client.check?
  let _ ← v.field? "locale" Json.str?
  let roots :=
    match folders with
    | some (folder :: rest) => folder :: rest
    | _ => root.toList
  return setUp roots (v.getValue? "initializationOptions")

/-- The request for what to show. -/
def hover? (v : Json) : Option Request :=
  (place? v).map fun (uri, position) => hover uri position

/-- The request for names. -/
def symbols? (v : Json) : Option Request := do
  let v ← v.object?
  let _ ← v.field? "partialResultToken" token?
  let _ ← v.field? "workDoneToken" token?
  let query ← v.required? "query" Json.str?
  return symbols query

/-- The request to carry out a command. -/
def execute? (v : Json) : Option Request := do
  let v ← v.object?
  let command ← v.required? "command" Json.str?
  let arguments ← (v.get? "arguments").elim (some []) Json.arr?
  let _ ← v.field? "workDoneToken" token?
  return execute command arguments

/-- The documents and directories that a request names. -/
def uris : Request → List Uri
  | setUp roots _ => roots
  | hover uri _ => [uri]
  | execute _ arguments => arguments.filterMap fun v => (v.get? "uri").bind uri?
  | _ => []

end Request

namespace Method

/-- The method of a name. -/
def ofName? (name : String) : Option Method :=
  match name with
  | "initialize" => some setUp
  | "shutdown" => some shutDown
  | "textDocument/hover" => some hover
  | "workspace/symbol" => some symbols
  | "workspace/executeCommand" => some execute
  | "$/cancelRequest" => some cancel
  | "exit" => some exit
  | _ =>
    if Notification.methods.contains name then some notice
    else (Form.unsupported? name).map unsupported

/-- The request with a method and parameters, unless they are not those of the method. -/
def decode? (method : Method) (params : Json) : Option Request :=
  match method with
  | setUp => Request.setUp? params
  | hover => Request.hover? params
  | symbols => Request.symbols? params
  | execute => Request.execute? params
  | unsupported form => (form.check? params).map fun _ => .unsupported
  | _ => none

/-- The request with a method and parameters, if any are given. Only the end is asked for
without. What can only be told is refused whatever its parameters are. -/
def decode (method : Method) (params : Option Json) : Except Refusal Request :=
  match method, params with
  | notice, _ => .error .invalidRequest
  | shutDown, none => .ok .shutDown
  | shutDown, some params => .error (.unexpectedParams params.render)
  | _, none => .error .missingParams
  | method, some params => ((method.decode? params).map Except.ok).getD (.error .malformedParams)

end Method

end StructUnfold.Server
