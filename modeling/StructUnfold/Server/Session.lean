import StructUnfold.Catalog.Basic
import StructUnfold.Disk.Basic
import StructUnfold.Document.Store
import StructUnfold.Server.Message
import StructUnfold.Settings.Basic

/-!
# Sessions of an editor with the server

A session is what the server remembers, the disk it works on and the messages it has sent. A
document is rescanned only when its edits have come to rest: every edit is counted, and a rescan
that was put off runs only if no other edit has come since.
-/

namespace StructUnfold.Server

/-- Where a server is in its life. -/
inductive Phase where
  /-- It has not been set up. -/
  | new
  /-- It has been set up. -/
  | running
  /-- It has been asked to come to an end. -/
  | shutDown
  /-- It has come to an end. -/
  | gone
deriving DecidableEq, Repr

/-- What the server remembers. -/
structure State where
  /-- Where it is in its life. -/
  phase : Phase
  /-- Whether a scan of the workspace has been completed. -/
  ready : Bool
  /-- The roots of the workspace. -/
  roots : List Path
  /-- The settings. -/
  settings : Settings
  /-- The open documents. -/
  documents : DocumentStore
  /-- What is known of the workspace. -/
  catalog : Catalog
  /-- How many edits the documents have seen. -/
  edits : List (Uri × Nat)
  /-- The rescans that were put off, each for one edit of a document. -/
  putOff : List (Uri × Nat)
  /-- How many scans have been followed by the editor. -/
  scans : Nat

/-- A session of an editor with the server. -/
structure Session where
  /-- What the server remembers. -/
  state : State
  /-- The disk. -/
  disk : Disk
  /-- The messages sent, in order. -/
  sent : List Message

namespace State

/-- A server at its start. -/
def start : State :=
  { phase := .new
    ready := false
    roots := []
    settings := .default
    documents := .empty
    catalog := .empty
    edits := []
    putOff := []
    scans := 0 }

/-- How many edits a document has seen; none if it has not been edited since it was closed. -/
def editsOf? (s : State) (uri : Uri) : Option Nat :=
  (s.edits.find? fun e => e.1 == uri).map Prod.snd

/-- Forget the edits of a document. -/
def forgetEdits (s : State) (uri : Uri) : State :=
  { s with edits := s.edits.filter fun e => e.1 != uri }

/-- Count an edit of a document, and put off its rescan if it is a file. -/
def countEdit (s : State) (uri : Uri) : State :=
  let count := (s.editsOf? uri).getD 0 + 1
  { s with
    edits := (uri, count) :: s.edits.filter fun e => e.1 != uri
    putOff := if uri.toFilePath?.isSome then s.putOff ++ [(uri, count)] else s.putOff }

end State

namespace Session

/-- The session of a new server on a disk. -/
def start (d : Disk) : Session :=
  ⟨.start, d, []⟩

/-- Change what the server remembers. -/
def update (s : Session) (f : State → State) : Session :=
  { s with state := f s.state }

/-- Send a message. -/
def send (s : Session) (message : Message) : Session :=
  { s with sent := s.sent ++ [message] }

/-- Tell the log what has been done, if the settings allow it. -/
def logInfo (s : Session) (text : String) : Session :=
  if s.state.settings.logging.level.allowsInfo then s.send (.log .info text) else s

/-- Tell the log what has gone wrong, if the settings allow it. -/
def logWarning (s : Session) (text : String) : Session :=
  if s.state.settings.logging.level.allowsWarn then s.send (.log .warning text) else s

/-- The reader of the server: the texts of open documents, then the files on the disk. -/
def reader (s : Session) : Reader :=
  s.state.documents.overlay s.disk.normalize s.disk.reader

end Session

end StructUnfold.Server
