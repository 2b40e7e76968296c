import StructUnfold.Expansion.Run
import StructUnfold.Source.Block
import StructUnfold.Text.Space

/-!
# Settings

What may be chosen about finding, expanding, writing and showing structs, with the defaults and the
ranges that numbers are brought into. `Settings.normalize` brings settings into normal form.
-/

namespace StructUnfold

/-- Which source files are looked at. -/
structure IndexingSettings where
  /-- Look for source files at all. -/
  enable : Bool
  /-- The file extensions of source files, without dot. -/
  extensions : List String
  /-- Largest size of a source file, in units of 1024 bytes. -/
  maxFileSizeKb : Nat
  /-- Paths beneath which no file is looked at. -/
  excludePaths : List String
deriving DecidableEq, Repr

/-- How structs are expanded. -/
structure FlattenSettings where
  /-- Number of columns by which the items of a block are indented. -/
  indentWidth : Nat
  /-- Number of levels of blocks. -/
  maxDepth : Nat
  /-- Number of bytes examined to find a block. -/
  maxScanBytes : Nat
  /-- Longest chain of aliases that is followed; zero leaves it to the number of aliases. -/
  maxAliasHops : Nat
deriving DecidableEq, Repr

/-- Where results go. -/
structure OutputSettings where
  /-- The results directory, as seen from the root of the workspace. -/
  directory : String
  /-- Ask the editor to show what was written. -/
  showDocument : Bool
deriving DecidableEq, Repr

/-- What is shown for a word under the cursor. -/
structure HoverSettings where
  /-- Show anything at all. -/
  enable : Bool
deriving DecidableEq, Repr

/-- How much is told, from least to most. -/
inductive LogLevel where
  /-- Errors only. -/
  | error
  /-- Also warnings. -/
  | warn
  /-- Also what has been done. -/
  | info
  /-- Also details. -/
  | debug
  /-- All there is. -/
  | trace
deriving DecidableEq, Repr

namespace LogLevel

/-- All levels by name. -/
def names : List (String × LogLevel) :=
  [("error", error), ("warn", warn), ("info", info), ("debug", debug), ("trace", trace)]

/-- The level of a name. -/
def ofName? (name : String) : Option LogLevel :=
  (names.find? fun n => n.1 == name).map Prod.snd

/-- The name of a level. -/
def name : LogLevel → String
  | error => "error"
  | warn => "warn"
  | info => "info"
  | debug => "debug"
  | trace => "trace"

/-- Whether warnings are told. -/
def allowsWarn (level : LogLevel) : Bool :=
  level != error

/-- Whether it is told what has been done. -/
def allowsInfo (level : LogLevel) : Bool :=
  level != error && level != warn

end LogLevel

/-- How much the editor is told. -/
structure LoggingSettings where
  /-- The level up to which it is told. -/
  level : LogLevel
deriving DecidableEq, Repr

/-- All settings. -/
structure Settings where
  /-- Which source files are looked at. -/
  indexing : IndexingSettings
  /-- How structs are expanded. -/
  flatten : FlattenSettings
  /-- Where results go. -/
  output : OutputSettings
  /-- What is shown for a word under the cursor. -/
  hover : HoverSettings
  /-- How much the editor is told. -/
  logging : LoggingSettings
deriving DecidableEq, Repr

/-- The nearest number of a range. -/
def clamp (low high n : Nat) : Nat :=
  max low (min n high)

namespace IndexingSettings

/-- The extensions looked for where none are chosen. -/
def defaultExtensions : List String :=
  ["c", "cc", "cpp", "cxx", "h", "hh", "hpp", "hxx"]

/-- An extension in lower case, without the white space around it and then without dots before
it. -/
def normalizeExtension (ext : String) : String :=
  String.ofList (((Text.trim ext.toList).dropWhile (· == '.')).map Char.toLower)

/-- A path without the white space around it. -/
def trimmed (path : String) : String :=
  String.ofList (Text.trim path.toList)

/-- The distinct texts of a list that are not empty. -/
def distinct (texts : List String) : List String :=
  (texts.filter fun t => !t.isEmpty).eraseDups

/-- Bring sizes into range and lists into normal form. Where no extension is left, the default ones
hold. -/
def normalize (s : IndexingSettings) : IndexingSettings :=
  let extensions := distinct (s.extensions.map normalizeExtension)
  { s with
    maxFileSizeKb := clamp 16 65536 s.maxFileSizeKb
    extensions := if extensions.isEmpty then defaultExtensions else extensions
    excludePaths := distinct (s.excludePaths.map trimmed) }

/-- Largest size of a source file, in bytes. -/
def maxFileSizeBytes (s : IndexingSettings) : Nat :=
  s.maxFileSizeKb * 1024

end IndexingSettings

namespace FlattenSettings

/-- Bring numbers into range. -/
def normalize (s : FlattenSettings) : FlattenSettings :=
  { indentWidth := clamp 0 16 s.indentWidth
    maxDepth := clamp 1 1024 s.maxDepth
    maxScanBytes := clamp 1024 67108864 s.maxScanBytes
    maxAliasHops := clamp 0 4096 s.maxAliasHops }

/-- The longest chain of aliases that is followed, if limited. -/
def aliasHopCap (s : FlattenSettings) : Option Nat :=
  if s.maxAliasHops = 0 then none else some s.maxAliasHops

/-- What an expansion has to know. -/
def options (s : FlattenSettings) : Expansion.Options :=
  ⟨s.indentWidth, s.maxDepth, s.maxScanBytes⟩

end FlattenSettings

namespace OutputSettings

/-- The results directory where none is chosen. -/
def defaultDirectory : String := ".destructify"

/-- Take the white space around the directory away; where nothing is left, the default one holds. -/
def normalize (s : OutputSettings) : OutputSettings :=
  let directory := Text.trim s.directory.toList
  { s with directory := if directory.isEmpty then defaultDirectory else String.ofList directory }

end OutputSettings

namespace Settings

/-- The settings that hold where nothing is chosen. -/
def default : Settings :=
  { indexing := ⟨true, IndexingSettings.defaultExtensions, 512, []⟩
    flatten := ⟨4, 64, Block.defaultMaxScan, 0⟩
    output := ⟨OutputSettings.defaultDirectory, true⟩
    hover := ⟨true⟩
    logging := ⟨.info⟩ }

instance : Inhabited Settings := ⟨default⟩

/-- Bring settings into normal form. -/
def normalize (s : Settings) : Settings :=
  { s with
    indexing := s.indexing.normalize
    flatten := s.flatten.normalize
    output := s.output.normalize }

end Settings

end StructUnfold
