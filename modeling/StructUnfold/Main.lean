import Std.Data.HashMap
import Std.Data.HashSet
import StructUnfold.CommandLine.Run
import StructUnfold.Json.Parser
import StructUnfold.Json.Printer
import StructUnfold.Server.Dispatch
import StructUnfold.Server.Envelope

/-!
# The program

All that is decided is decided on a picture of the disk. The program takes the picture, runs a
command or takes a message of the editor on it, carries out the changes of the picture and passes on
what is said.
-/

namespace StructUnfold.Main

/-! ## Pictures of the disk -/

/-- A picture of the disk that is being taken. -/
structure Picture where
  /-- What stands where, as far as it has been seen. -/
  entries : Array (Place × DiskEntry)
  /-- The places seen. -/
  seen : Std.HashSet Place
  /-- The directories seen with all that lies beneath them. -/
  whole : Std.HashSet Place

/-- Nothing has been seen. -/
def Picture.empty : Picture :=
  ⟨#[], ∅, ∅⟩

/-- Add what stands at a place. -/
def Picture.add (p : Picture) (place : Place) (entry : DiskEntry) : Picture :=
  if p.seen.contains place then p
  else { p with entries := p.entries.push (place, entry), seen := p.seen.insert place }

/-- The path through the names of a place, as it is written for the system. -/
def textOf (place : Place) : String :=
  (Path.ofNames place).display

/-- Files above this size are not read. -/
def largestFile : UInt64 := 67108864

/-- What stands at a place; a link holds the path it leads to, and what cannot be looked at is not
there. -/
def probe (place : Place) : IO (Option DiskEntry) := do
  let file := (← IO.currentDir) / textOf place
  try
    let about ← file.symlinkMetadata
    match about.type with
    | .dir => return some .directory
    | .symlink =>
      let target ← IO.FS.realPath file
      return if target == file then none else some (.link (.ofString target.toString))
    | .file =>
      if largestFile < about.byteSize then return some (.binary about.byteSize.toNat)
      else
        let bytes ← IO.FS.readBinFile file
        return some ((String.fromUTF8? bytes).elim (.binary bytes.size) .text)
    | .other => return none
  catch _ => return none

/-- The names in a directory. -/
def namesIn (place : Place) : IO (List FileName) := do
  let directory := (← IO.currentDir) / textOf place
  try
    return (← directory.readDir).toList.map fun entry => .ofString entry.fileName
  catch _ => return []

/-- The place of the settings file in a directory. -/
def settingsIn (place : Place) : Place :=
  place ++ [Settings.fileName.bytes]

mutual

/-- Add what stands at a place and all beneath it. -/
partial def Picture.addAll (p : Picture) (place : Place) : IO Picture := do
  if p.whole.contains place then return p
  match ← probe place with
  | none => return p
  | some .directory =>
    let mut p := { p.add place .directory with whole := p.whole.insert place }
    for name in ← namesIn place do
      let next := place ++ [name]
      if Workspace.isSkippedName name then
        if let some entry ← probe next then p := p.add next entry
      else p ← p.addAll next
    return p
  | some (.link target) => (p.add place (.link target)).addAlong [] (Disk.steps target)
  | some entry => return p.add place entry

/-- Add what stands along a path, with the settings files, and all beneath its end. -/
partial def Picture.addAlong (p : Picture) (place : Place) : List Disk.Step → IO Picture
  | [] => p.addAll place
  | .root :: rest => p.addAlong [] rest
  | .stay :: rest => p.addAlong place rest
  | .up :: rest => p.addAlong place.dropLast rest
  | .down name :: rest => do
    let next := place ++ [name]
    match ← probe next with
    | none => return p
    | some (.link target) => (p.add next (.link target)).addAlong [] (Disk.steps target ++ rest)
    | some .directory =>
      let p ← (p.add next .directory).addAll (settingsIn next)
      p.addAlong next rest
    | some entry => return p.add next entry

end

/-- The place of the current directory. -/
def currentPlace : IO Place := do
  let current := Path.ofString (← IO.currentDir).toString
  return current.components.filterMap fun c =>
    match c with
    | .name name => some name
    | _ => none

/-- The disk, as far as it lies at, above or beneath some paths. -/
def picture (paths : List Path) : IO Disk := do
  let current ← currentPlace
  let mut p ← Picture.empty.addAll (settingsIn current)
  for place in (List.range current.length).map fun n => current.take (n + 1) do
    p := p.add place .directory
  for path in paths do
    p ← p.addAlong current (Disk.steps path)
  return ⟨p.entries.toList, current⟩

/-- Carry out what has changed between two pictures of the disk. -/
def carryOut (before after : Disk) : IO Unit := do
  let known := Std.HashMap.ofList before.entries
  for (place, entry) in after.entries do
    if known[place]? != some entry then
      let file := (← IO.currentDir) / textOf place
      match entry with
      | .directory => IO.FS.createDirAll file
      | .text content => IO.FS.writeFile file content
      | _ => pure ()

/-! ## Serving an editor -/

/-- A connection with an editor. -/
structure Connection where
  /-- The session with the editor. -/
  session : Server.Session
  /-- Number of requests sent to the editor. -/
  asked : Nat
  /-- The requests of the editor that wait for the first scan. -/
  waiting : List (Json × String × Option Json)

/-- Read so many bytes, or fewer if the input ends. -/
partial def readBytes (input : IO.FS.Stream) (acc : ByteArray) (count : Nat) : IO ByteArray := do
  if count ≤ acc.size then return acc
  let more ← input.read (count - acc.size).toUSize
  if more.isEmpty then return acc
  readBytes input (acc ++ more) count

/-- The number that a line of a header gives for the length of the content. -/
def contentLength? (line : String) : Option Nat :=
  match line.splitOn ":" with
  | [name, value] =>
    if name.toLower == "content-length" then (String.ofList (Text.trim value.toList)).toNat?
    else none
  | _ => none

/-- Let the edits come to rest. -/
def Connection.settle (c : Connection) : Connection :=
  { c with session := c.session.settle }

/-- Receive the text of a message; none when the input has ended. -/
partial def receive (input : IO.FS.Stream) (length : Nat) : IO (Option String) := do
  let line ← input.getLine
  if line.isEmpty then return none
  else if (Text.trim line.toList).isEmpty then
    let bytes ← readBytes input .empty length
    return some ((String.fromUTF8? bytes).getD "")
  else receive input ((contentLength? line).getD length)

/-- Send a message. -/
def transmit (output : IO.FS.Stream) (message : Json) : IO Unit := do
  let text := message.render
  output.putStr ("Content-Length: " ++ toString text.utf8ByteSize ++ "\r\n\r\n" ++ text)
  output.flush

/-- Pass on the messages of a session. -/
def Connection.deliver (c : Connection) (output : IO.FS.Stream) : IO Connection := do
  let mut asked := c.asked
  for message in c.session.sent do
    transmit output (message.envelope asked)
    if message.isRequest then asked := asked + 1
  return { c with asked, session := { c.session with sent := [] } }

/-- Take the picture of the disk anew. -/
def Connection.look (c : Connection) (uris : List Server.Request) (others : List Uri) :
    IO Connection := do
  let mentioned := (uris.flatMap Server.Request.uris ++ others).filterMap Uri.toFilePath?
  let disk ← picture (c.session.state.roots ++ mentioned)
  return { c with session := { c.session with disk } }

/-- Take a request of the editor. -/
def Connection.take (c : Connection) (output : IO.FS.Stream) (id : Json) (name : String)
    (params : Option Json) : IO Connection := do
  let request := (Server.Method.ofName? name).bind fun method => (method.decode params).toOption
  let c ← c.look request.toList []
  let (session, reply) := c.session.request name params
  try carryOut c.session.disk session.disk
  catch e => IO.eprintln e
  let c ← { c with session }.deliver output
  if let some answer := reply.envelope? id then transmit output answer
  return if reply = .pending then { c with waiting := c.waiting ++ [(id, name, params)] } else c

/-- Take the requests that have waited, once the first scan has been completed. -/
def Connection.resume (c : Connection) (output : IO.FS.Stream) : IO Connection := do
  if c.session.state.ready then
    let mut resumed := { c with waiting := [] }
    for (id, name, params) in c.waiting do
      resumed ← resumed.take output id name params
    return resumed
  else return c

/-- Take a message of the editor. -/
def Connection.handle (c : Connection) (output : IO.FS.Stream) (text : String) :
    IO Connection := do
  match (Json.parse? text).bind Server.Incoming.ofJson? with
  | none =>
    transmit output Server.parseError
    return c
  | some .response => return c
  | some (.request id name params) => (← c.take output id name params).resume output
  | some (.notification name params) =>
    let uri := (params.bind (Server.Notification.decode? name)).bind Server.Notification.uri?
    let c ← c.look [] uri.toList
    let c ← { c with session := c.session.notify name params }.deliver output
    c.resume output

/-- Wait until a task has finished, for so many hundredths of a second at most. -/
def pause {α : Type} (task : Task α) : Nat → IO Unit
  | 0 => pure ()
  | n + 1 => do
    unless ← IO.hasFinished task do
      IO.sleep 10
      pause task n

/-- Serve an editor until it leaves. Edits have come to rest when nothing is heard for a while. -/
partial def serve (c : Connection) (input output : IO.FS.Stream) : IO Unit := do
  let next ← IO.asTask (receive input 0)
  pause next 30
  let c ←
    if ← IO.hasFinished next then pure c
    else c.settle.deliver output
  match ← IO.wait next with
  | .ok (some text) =>
    let c ← c.handle output text
    if c.session.state.phase = .gone then return
    serve c input output
  | _ => return

/-! ## Running a command -/

/-- The roots given, or else the current directory. -/
def rootsOf (roots : List Path) : List Path :=
  if roots.isEmpty then [.ofString "."] else roots

/-- The paths that a command looks at. -/
def pathsOf : CommandLine.Command → List Path
  | .serve log => log.toList.map CommandLine.logFile
  | .expand _ roots config output => rootsOf roots ++ config.toList ++ output.toList
  | .symbols _ roots => rootsOf roots

/-- Run a command line to its end. -/
def runOnce (args : List String) (paths : List Path) : IO UInt32 := do
  let disk ← picture paths
  let outcome := CommandLine.run disk args
  carryOut disk outcome.disk
  IO.print outcome.printed
  if let some failure := outcome.failure then IO.eprintln failure.message
  return outcome.exitCode.toUInt32

/-- Run a command line; one that serves an editor has opened its log when it begins. -/
def run (args : List String) : IO UInt32 := do
  match CommandLine.parse args with
  | .error _ => runOnce args []
  | .ok command =>
    let code ← runOnce args (pathsOf command)
    match command with
    | .serve _ =>
      if code = 0 then
        serve ⟨.start (← picture []), 0, []⟩ (← IO.getStdin) (← IO.getStdout)
      return code
    | _ => return code

end StructUnfold.Main

/-- Run the program. -/
def main (args : List String) : IO UInt32 :=
  StructUnfold.Main.run args
