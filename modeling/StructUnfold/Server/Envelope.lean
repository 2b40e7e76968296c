import StructUnfold.Server.Message
import StructUnfold.Server.Reply

/-!
# Envelopes of messages

Every message between the editor and the server travels in an envelope that says whether it is a
request, a notification or a response, and to which request a response belongs.
-/

namespace StructUnfold.Server

/-- What an envelope of the editor holds. -/
inductive Incoming where
  /-- A request. -/
  | request (id : Json) (method : String) (params : Option Json)
  /-- A notification. -/
  | notification (method : String) (params : Option Json)
  /-- The response to a request of the server. -/
  | response

/-- What an envelope holds, unless it is none. -/
def Incoming.ofJson? (v : Json) : Option Incoming := do
  let v ← v.object?
  match v.get? "method", v.get? "id" with
  | some method, some id => return request id (← method.str?) (v.get? "params")
  | some method, none => return notification (← method.str?) (v.get? "params")
  | none, some _ => return response
  | none, none => none

/-- An envelope with what it holds. -/
def envelope (members : List (String × Json)) : Json :=
  .obj (("jsonrpc", .str "2.0") :: members)

/-- The envelope of a refusal. -/
def refusal (id : Json) (code : Int) (message : String) : Json :=
  envelope [("id", id), ("error", .obj [("code", .int code), ("message", .str message)])]

/-- The envelope for a text that is no envelope. -/
def parseError : Json :=
  refusal .null (-32700) "Parse error"

/-- The envelope of a reply, if there is anything to reply. -/
def Reply.envelope? (id : Json) : Reply → Option Json
  | .answered a => some (envelope [("id", id), ("result", a.toJson)])
  | .refused r => some (refusal id r.code r.message)
  | .aborted => some (refusal id (-32603) "Internal error")
  | .unanswered => none
  | .pending => none
  | .gone => none

/-- The envelope of a message; `number` is the number of the request if it is one. -/
def Message.envelope (number : Nat) (m : Message) : Json :=
  let content := [("method", .str m.method), ("params", m.params)]
  Server.envelope (if m.isRequest then ("id", .ofNat number) :: content else content)

end StructUnfold.Server
