import StructUnfold.Json.Basic
import StructUnfold.Settings.Basic

/-!
# Patches of settings

A patch sets some of the settings and leaves the others alone. It is decoded from a value as a
whole: one ill-typed value under a known key, and there is no patch. Absent keys and `null` set
nothing, and unknown keys are passed over.
-/

namespace StructUnfold

/-- The kind of text a patch was written in. -/
inductive PatchFormat where
  /-- A JSON value. -/
  | json
  /-- A TOML document. -/
  | toml
deriving DecidableEq, Repr

/-- A patch of the indexing settings. -/
structure IndexingPatch where
  /-- Look for source files at all. -/
  enable : Option Bool
  /-- The file extensions of source files. -/
  extensions : Option (List String)
  /-- Largest size of a source file, in units of 1024 bytes. -/
  maxFileSizeKb : Option Nat
  /-- Paths beneath which no file is looked at. -/
  excludePaths : Option (List String)
deriving DecidableEq, Repr

/-- A patch of the flatten settings. -/
structure FlattenPatch where
  /-- Number of columns by which the items of a block are indented. -/
  indentWidth : Option Nat
  /-- Number of levels of blocks. -/
  maxDepth : Option Nat
  /-- Number of bytes examined to find a block. -/
  maxScanBytes : Option Nat
  /-- Longest chain of aliases that is followed. -/
  maxAliasHops : Option Nat
deriving DecidableEq, Repr

/-- A patch of the output settings. -/
structure OutputPatch where
  /-- The results directory. -/
  directory : Option String
  /-- Ask the editor to show what was written. -/
  showDocument : Option Bool
deriving DecidableEq, Repr

/-- A patch of the hover settings. -/
structure HoverPatch where
  /-- Show anything at all. -/
  enable : Option Bool
deriving DecidableEq, Repr

/-- A patch of the logging settings. -/
structure LoggingPatch where
  /-- The level up to which the editor is told. -/
  level : Option LogLevel
deriving DecidableEq, Repr

/-- A patch of all settings. -/
structure SettingsPatch where
  /-- The part for indexing. -/
  indexing : Option IndexingPatch
  /-- The part for flattening. -/
  flatten : Option FlattenPatch
  /-- The part for output. -/
  output : Option OutputPatch
  /-- The part for hovering. -/
  hover : Option HoverPatch
  /-- The part for logging. -/
  logging : Option LoggingPatch
deriving DecidableEq, Repr

/-- Whether a value stands for nothing: `null` in JSON, something empty in TOML. -/
def PatchFormat.isUnit : PatchFormat → Json → Bool
  | json, .null => true
  | toml, .arr [] => true
  | toml, .obj [] => true
  | _, _ => false

/-- A level given by its name, or by an object with the name as its only key and nothing under
it. -/
def PatchFormat.level? (format : PatchFormat) : Json → Option LogLevel
  | .str name => LogLevel.ofName? name
  | v => (v.only?.filter fun member => format.isUnit member.2).bind fun member =>
    LogLevel.ofName? member.1

/-- The indexing part of a patch. -/
def IndexingPatch.ofJson? (v : Json) : Option IndexingPatch := do
  let v ← v.object?
  let enable ← v.field? "enable" Json.bool?
  let extensions ← v.field? "extensions" Json.strings?
  let maxFileSizeKb ← v.field? "maxFileSizeKb" Json.nat?
  let excludePaths ← v.field? "excludePaths" Json.strings?
  return ⟨enable, extensions, maxFileSizeKb, excludePaths⟩

/-- The flatten part of a patch. -/
def FlattenPatch.ofJson? (v : Json) : Option FlattenPatch := do
  let v ← v.object?
  let indentWidth ← v.field? "indentWidth" Json.nat?
  let maxDepth ← v.field? "maxDepth" Json.nat?
  let maxScanBytes ← v.field? "maxScanBytes" Json.nat?
  let maxAliasHops ← v.field? "maxAliasHops" Json.nat?
  return ⟨indentWidth, maxDepth, maxScanBytes, maxAliasHops⟩

/-- The output part of a patch. -/
def OutputPatch.ofJson? (v : Json) : Option OutputPatch := do
  let v ← v.object?
  let directory ← v.field? "directory" Json.str?
  let showDocument ← v.field? "showDocument" Json.bool?
  return ⟨directory, showDocument⟩

/-- The hover part of a patch. -/
def HoverPatch.ofJson? (v : Json) : Option HoverPatch := do
  let v ← v.object?
  let enable ← v.field? "enable" Json.bool?
  return ⟨enable⟩

/-- The logging part of a patch. -/
def LoggingPatch.ofJson? (format : PatchFormat) (v : Json) : Option LoggingPatch := do
  let v ← v.object?
  let level ← v.field? "level" format.level?
  return ⟨level⟩

namespace SettingsPatch

/-- The patch a value stands for. -/
def ofJson? (format : PatchFormat) (v : Json) : Option SettingsPatch := do
  let v ← v.object?
  let indexing ← v.field? "indexing" IndexingPatch.ofJson?
  let flatten ← v.field? "flatten" FlattenPatch.ofJson?
  let output ← v.field? "output" OutputPatch.ofJson?
  let hover ← v.field? "hover" HoverPatch.ofJson?
  let logging ← v.field? "logging" (LoggingPatch.ofJson? format)
  return ⟨indexing, flatten, output, hover, logging⟩

end SettingsPatch

/-- Indexing settings under a patch. -/
def IndexingSettings.apply (s : IndexingSettings) (p : IndexingPatch) : IndexingSettings :=
  { enable := p.enable.getD s.enable
    extensions := p.extensions.getD s.extensions
    maxFileSizeKb := p.maxFileSizeKb.getD s.maxFileSizeKb
    excludePaths := p.excludePaths.getD s.excludePaths }

/-- Flatten settings under a patch. -/
def FlattenSettings.apply (s : FlattenSettings) (p : FlattenPatch) : FlattenSettings :=
  { indentWidth := p.indentWidth.getD s.indentWidth
    maxDepth := p.maxDepth.getD s.maxDepth
    maxScanBytes := p.maxScanBytes.getD s.maxScanBytes
    maxAliasHops := p.maxAliasHops.getD s.maxAliasHops }

/-- Output settings under a patch. -/
def OutputSettings.apply (s : OutputSettings) (p : OutputPatch) : OutputSettings :=
  { directory := p.directory.getD s.directory
    showDocument := p.showDocument.getD s.showDocument }

/-- Hover settings under a patch. -/
def HoverSettings.apply (s : HoverSettings) (p : HoverPatch) : HoverSettings :=
  { enable := p.enable.getD s.enable }

/-- Logging settings under a patch. -/
def LoggingSettings.apply (s : LoggingSettings) (p : LoggingPatch) : LoggingSettings :=
  { level := p.level.getD s.level }

/-- Settings under a patch, not in normal form. -/
def Settings.apply (s : Settings) (p : SettingsPatch) : Settings :=
  { indexing := p.indexing.elim s.indexing s.indexing.apply
    flatten := p.flatten.elim s.flatten s.flatten.apply
    output := p.output.elim s.output s.output.apply
    hover := p.hover.elim s.hover s.hover.apply
    logging := p.logging.elim s.logging s.logging.apply }

end StructUnfold
