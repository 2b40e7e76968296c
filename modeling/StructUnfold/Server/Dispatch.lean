import StructUnfold.Server.Commands
import StructUnfold.Server.Notification
import StructUnfold.Server.Request
import StructUnfold.Settings.File

/-!
# Serving an editor

The server takes the notifications and requests of its editor one after the other. Before it is set
up and after it is asked to come to an end it refuses requests and passes over notifications. What
is only to be told has no effect as a request, and what is to be asked has none as a notification,
but for the end of the server.
-/

namespace StructUnfold.Server

/-- Why requests are refused in a phase, setting up aside. -/
def Phase.refusal? : Phase → Option Refusal
  | new => some .notInitialized
  | running => none
  | shutDown => some .invalidRequest
  | gone => some .invalidRequest

/-- Why a method is refused in a phase. The server is set up once, and never asked to give up a
request. -/
def Phase.refusalOf? (phase : Phase) : Method → Option Refusal
  | .setUp => if phase = new then none else some .invalidRequest
  | .cancel => some .invalidRequest
  | _ => phase.refusal?

/-- Whether a method belongs to the protocol itself, which a server may not know in full. -/
def isProtocolMethod (name : String) : Bool :=
  "$/".toList.isPrefixOf name.toList

namespace Session

/-- The settings of a workspace: those of its settings file, if they can be had, under the options
of the editor. -/
def initialSettings (d : Disk) (roots : List Path) (options : Option Json) : Settings :=
  let base := roots.head?.elim .default fun root =>
    (Settings.discover d root).toOption.getD .default
  options.elim base base.mergePayload

/-- Set the server up for a workspace. -/
def setUp (s : Session) (roots : List Uri) (options : Option Json) : Session :=
  let roots := (roots.filterMap Uri.toFilePath?).map s.disk.normalize
  let settings := initialSettings s.disk roots options
  s.update fun state => { state with phase := .running, roots, settings }

/-- Whether a change of settings changes what a scan of the workspace finds. -/
def affectsScan (before after : Settings) : Bool :=
  after.indexing != before.indexing ||
    after.flatten.maxScanBytes != before.flatten.maxScanBytes ||
    after.flatten.maxAliasHops != before.flatten.maxAliasHops

/-- Merge the settings with those of the editor. -/
def configure (s : Session) (payload : Json) : Session :=
  let before := s.state.settings
  let after := before.mergePayload payload
  if after = before then s
  else
    -- The scan is run under the settings that have just come into force.
    let s := s.update fun state => { state with settings := after }
    if affectsScan before after then s.index.1 else s

/-- Note that a document has been saved. A text that is sent along becomes that of the open
document. -/
def save (s : Session) (uri : Uri) (text : Option (List Char)) : Session :=
  let s :=
    match text with
    | none => s
    | some text => s.update fun state =>
      let version := (state.documents.get? uri).elim 0 Document.version
      { state with documents := state.documents.put uri ⟨text, version⟩ }
  s.rescan uri

/-- Take a notification. -/
def notice (s : Session) : Notification → Session
  | .initialized => (s.logInfo "Server initialized").index.1
  | .configured payload => s.configure payload
  | .opened uri document =>
    s.update fun state => { state with documents := state.documents.put uri document }
  | .changed uri changes version =>
    s.update fun state =>
      { state with documents := state.documents.change uri changes version }.countEdit uri
  | .saved uri text => s.save uri text
  | .closed uri =>
    let s := s.update fun state =>
      { state with documents := state.documents.close uri }.forgetEdits uri
    s.rescan uri

/-- Answer a request. -/
def answer (s : Session) : Request → Session × Reply
  | .setUp roots options => (s.setUp roots options, .answered .capabilities)
  | .shutDown => (s, .answered .nothing)
  | .hover uri position => (s, .answered (s.hover uri position))
  | .symbols query => (s, s.symbols query)
  | .execute command arguments => s.execute command arguments
  | .unsupported => (s, .refused .methodNotFound)

/-- Leave the present phase for another. -/
def leaveFor (s : Session) (phase : Phase) : Session :=
  s.update fun state => { state with phase }

/-- Take a request by its name. An unknown name is refused first, unless it is one of the protocol
itself, then a wrong phase, then parameters that are not those of the method. -/
def request (s : Session) (name : String) (params : Option Json) : Session × Reply :=
  if s.state.phase = .gone then (s, .gone)
  else
    match Method.ofName? name with
    | none => (s, if isProtocolMethod name then .unanswered else .refused .methodNotFound)
    | some .exit => (s.leaveFor .gone, .unanswered)
    | some method =>
      match s.state.phase.refusalOf? method with
      | some refusal => (s, .refused refusal)
      | none =>
        -- Also a request with parameters, which is refused, brings the server to an end.
        let s := if method matches .shutDown then s.leaveFor .shutDown else s
        match method.decode params with
        | .ok request => s.answer request
        | .error refusal => (s, .refused refusal)

/-- Take a notification by its name. One that is not known, or makes no sense at this time, is
passed over. -/
def notify (s : Session) (name : String) (params : Option Json) : Session :=
  if name == "exit" then s.leaveFor .gone
  else if s.state.phase = .running then
    if name == "shutdown" then s.leaveFor .shutDown
    else
      match params.bind (Notification.decode? name) with
      | some notification => s.notice notification
      | none => s
  else s

end Session

end StructUnfold.Server
