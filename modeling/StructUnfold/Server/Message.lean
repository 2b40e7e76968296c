import StructUnfold.Server.Value

/-!
# Messages to the editor

What the server tells or asks its editor on its own: lines for a log, notices for the user, how far
a scan has come, and which document to show.
-/

namespace StructUnfold.Server

/-- How weighty a line of the log or a notice is. -/
inductive Weight where
  /-- Something has gone wrong, but the work goes on. -/
  | warning
  /-- Something has been done. -/
  | info
deriving DecidableEq, Repr

/-- The number of a weight in the protocol. -/
def Weight.code : Weight → Nat
  | warning => 2
  | info => 3

/-- How far a scan has come. -/
inductive ScanProgress where
  /-- It begins, with so many files to scan. -/
  | begun (total : Nat)
  /-- So many of the files are done. -/
  | reached (done total : Nat) (percentage : Nat)
  /-- It has ended, with so many structs in the catalog. -/
  | ended (structs : Nat)
deriving DecidableEq, Repr

/-- A message to the editor. -/
inductive Message where
  /-- A line for the log. -/
  | log (weight : Weight) (text : String)
  /-- A notice for the user. -/
  | notice (weight : Weight) (text : String)
  /-- The request to follow a scan under a token. -/
  | follow (token : String)
  /-- How far the scan of a token has come. -/
  | progress (token : String) (value : ScanProgress)
  /-- The request to show a document. -/
  | showDocument (uri : Uri)
deriving DecidableEq, Repr

/-- The name of the server, in front of all that a user may read. -/
def titled (text : String) : String :=
  "destructify: " ++ text

/-- How many of all files are done. -/
def filesText (done total : Nat) : String :=
  toString done ++ " / " ++ toString total ++ " files"

/-- How far a scan has come, as a value. -/
def ScanProgress.toJson : ScanProgress → Json
  | begun total =>
    .obj [
      ("kind", .str "begin"),
      ("title", .str (titled "Scanning")),
      ("cancellable", .bool false),
      ("message", .str (filesText 0 total)),
      ("percentage", .ofNat 0)]
  | reached done total percentage =>
    .obj [
      ("kind", .str "report"),
      ("cancellable", .bool false),
      ("message", .str (filesText done total)),
      ("percentage", .ofNat percentage)]
  | ended structs =>
    .obj [("kind", .str "end"), ("message", .str (toString structs ++ " struct(s)"))]

namespace Message

/-- The method of a message. -/
def method : Message → String
  | log .. => "window/logMessage"
  | notice .. => "window/showMessage"
  | follow .. => "window/workDoneProgress/create"
  | progress .. => "$/progress"
  | showDocument .. => "window/showDocument"

/-- Whether the editor has to answer a message. -/
def isRequest : Message → Bool
  | follow .. => true
  | showDocument .. => true
  | _ => false

/-- The parameters of a message. -/
def params : Message → Json
  | log weight text => .obj [("type", .ofNat weight.code), ("message", .str (titled text))]
  | notice weight text => .obj [("type", .ofNat weight.code), ("message", .str (titled text))]
  | follow token => .obj [("token", .str token)]
  | progress token value => .obj [("token", .str token), ("value", value.toJson)]
  | showDocument uri =>
    .obj [("uri", ofUri uri), ("external", .bool false), ("takeFocus", .bool true)]

end Message

end StructUnfold.Server
