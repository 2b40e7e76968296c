import StructUnfold.Problem
import StructUnfold.Server.Value

/-!
# Replies to the editor

A request of the editor is answered or refused. One that has to wait for the first scan may never be
answered, and after its exit the server answers nothing at all.
-/

namespace StructUnfold.Server

/-- The name of the command that expands a struct. -/
def expandCommand : String := "destructify.expand"

/-- The name of the command that scans the workspace anew. -/
def rescanCommand : String := "destructify.rescan"

/-- Why a request is refused. -/
inductive Refusal where
  /-- The server has not been set up yet. -/
  | notInitialized
  /-- The request makes no sense at this time. -/
  | invalidRequest
  /-- The server has no such method. -/
  | methodNotFound
  /-- The method needs parameters. -/
  | missingParams
  /-- The method takes no parameters, but was given these. -/
  | unexpectedParams (text : String)
  /-- The parameters are not those of the method. -/
  | malformedParams
  /-- The server has no such command. -/
  | unknownCommand (name : String)
  /-- No struct is named or selected. -/
  | nothingSelected
  /-- The name stands for no struct that can be expanded. -/
  | query (problem : Problem)
deriving DecidableEq, Repr

namespace Refusal

/-- The number of a refusal in the protocol. -/
def code : Refusal → Int
  | notInitialized => -32002
  | invalidRequest => -32600
  | methodNotFound => -32601
  | missingParams => -32602
  | unexpectedParams _ => -32602
  | malformedParams => -32602
  | unknownCommand _ => -32602
  | nothingSelected => -32602
  | query _ => -32602

/-- The wording of a refusal. -/
def message : Refusal → String
  | notInitialized => "Server not initialized"
  | invalidRequest => "Invalid request"
  | methodNotFound => "Method not found"
  | missingParams => "Missing params field"
  | unexpectedParams text => "Unexpected params: " ++ text
  | malformedParams => "Invalid params"
  | unknownCommand name => "unknown command `" ++ name ++ "`"
  | nothingSelected =>
    expandCommand ++ " needs a `symbol`, or a `uri` and `range` selecting one"
  | query problem => problem.message

end Refusal

/-- A name found in the workspace. -/
structure WorkspaceSymbol where
  /-- The name. -/
  name : String
  /-- The file it stands in. -/
  uri : Uri
  /-- The place of its block. -/
  position : Position
  /-- What else is known of it. -/
  detail : Option String
deriving DecidableEq, Repr

/-- The answer to a request. -/
inductive Answer where
  /-- There is nothing to say. -/
  | nothing
  /-- What the server can do. -/
  | capabilities
  /-- What to show for a range: a text of the language C. -/
  | hover (text : String) (range : Range)
  /-- Names found in the workspace. -/
  | symbols (found : List WorkspaceSymbol)
  /-- A text. -/
  | text (content : String)
deriving DecidableEq, Repr

/-- What the server can do, as a value. -/
def capabilities : Json :=
  .obj [
    ("capabilities", .obj [
      ("textDocumentSync", .obj [
        ("openClose", .bool true), ("change", .ofNat 2), ("save", .bool true)]),
      ("hoverProvider", .bool true),
      ("workspaceSymbolProvider", .bool true),
      ("executeCommandProvider", .obj [
        ("commands", .arr [.str expandCommand, .str rescanCommand])])]),
    ("serverInfo", .obj [("name", .str "destructify"), ("version", .str "0.1.0")])]

/-- A name found in the workspace, as a value; all are of the kind of structs. -/
def WorkspaceSymbol.toJson (s : WorkspaceSymbol) : Json :=
  .ofMembers [
    ("name", some (.str s.name)),
    ("kind", some (.ofNat 23)),
    ("location", some (.obj [("uri", ofUri s.uri), ("range", ofRange ⟨s.position, s.position⟩)])),
    ("containerName", s.detail.map Json.str)]

/-- A text of the language C for display. -/
def codeBlock (text : String) : String :=
  "```c\n" ++ text ++ "\n```"

/-- The answer to a request, as a value. -/
def Answer.toJson : Answer → Json
  | .nothing => .null
  | .capabilities => Server.capabilities
  | .hover code range =>
    .obj [
      ("contents", .obj [("kind", .str "markdown"), ("value", .str (codeBlock code))]),
      ("range", ofRange range)]
  | .symbols found => .arr (found.map WorkspaceSymbol.toJson)
  | .text content => .str content

/-- What becomes of a request. -/
inductive Reply where
  /-- It is answered. -/
  | answered (answer : Answer)
  /-- It is refused. -/
  | refused (refusal : Refusal)
  /-- It is taken, but nothing is said to it. -/
  | unanswered
  /-- It waits for a scan that has not been asked for. -/
  | pending
  /-- Work on it breaks off. -/
  | aborted
  /-- The server is gone. -/
  | gone
deriving DecidableEq, Repr

end StructUnfold.Server
