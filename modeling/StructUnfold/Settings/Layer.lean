import StructUnfold.Settings.Patch
import StructUnfold.Toml.Document

/-!
# Layers of settings

Settings are merged layer by layer. A payload from an editor is two layers: the payload itself, then
what stands under its key `destructify`; one that is no patch contributes nothing. A settings file
is one layer, and must be a patch.
-/

namespace StructUnfold.Settings

/-- The key under which an editor may put the settings. -/
def sectionKey : String := "destructify"

/-- The layers of a payload, in the order in which they apply. -/
def layers (payload : Json) : List Json :=
  payload :: (payload.get? sectionKey).toList

/-- Settings under a layer of a payload. -/
def applyLayer (s : Settings) (layer : Json) : Settings :=
  match SettingsPatch.ofJson? .json layer with
  | some patch => s.apply patch
  | none => s

/-- Settings merged with a payload. -/
def mergePayload (s : Settings) (payload : Json) : Settings :=
  ((layers payload).foldl applyLayer s).normalize

/-- The default settings merged with a payload, if there is one. -/
def ofPayload (payload : Option Json) : Settings :=
  payload.elim .default fun p => Settings.default.mergePayload p

/-- Settings merged with the text of a settings file, unless that is no patch. -/
def mergeToml? (s : Settings) (text : List Char) : Option Settings :=
  ((Toml.parse? text).bind (SettingsPatch.ofJson? .toml)).map fun patch => (s.apply patch).normalize

end StructUnfold.Settings
