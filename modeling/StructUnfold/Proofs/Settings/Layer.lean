import Mathlib.Data.List.Induction
import StructUnfold.Proofs.Settings.Normal
import StructUnfold.Settings.Layer

/-!
# Settings layer by layer

Settings come about by merging payloads and files into the default ones. Each merge has layers, and
what a layer gives to a setting takes the place of what the layers before it gave. A layer that is
ill-typed at some place gives nothing to any setting.

## Main definitions

* `Settings.Merge`, `Settings.merged`: merges, and what they make of the default settings.
* `Settings.Merge.layers`: the layers of a merge.
* `Settings.Layer.Gives`: what a layer gives to a setting.

## Main results

* `Settings.exists_merged_eq_normalize`: merged settings are the normal form of some settings.
* `Settings.Key.get_merged`: a setting after merges, as it is computed from the layers.
* `Settings.layers_overlay`: a setting is the normal form of what the last layer gives to it.
-/

namespace StructUnfold.Settings

/-- What settings are merged with. -/
inductive Merge where
  /-- A payload of an editor. -/
  | payload (v : Json)
  /-- The text of a settings file. -/
  | file (text : List Char)
deriving Repr

/-- Settings after a merge. An error in a file leaves them as they are. -/
def merge (s : Settings) : Merge → Settings
  | .payload v => s.mergePayload v
  | .file text => (s.mergeToml? text).getD s

/-- The default settings after merges, one after the other. -/
def merged (ms : List Merge) : Settings :=
  ms.foldl merge default

/-- A layer of settings. -/
structure Layer where
  /-- The kind of text it was written in. -/
  format : PatchFormat
  /-- Its value. -/
  value : Json
deriving Repr

/-- The layers of a merge, in order. A payload is followed by what it holds under a key of its own;
a file is a layer unless it is no TOML document. -/
def Merge.layers : Merge → List Layer
  | payload v => ⟨.json, v⟩ :: (v.get? "destructify").toList.map (⟨.json, ·⟩)
  | file text => (Toml.parse? text).toList.map (⟨.toml, ·⟩)

/-- A layer gives a value to a setting. -/
structure Layer.Gives (layer : Layer) (k : Key) (x : k.kind.Value) : Prop where
  /-- It is well-typed throughout. -/
  wellTyped : WellTyped layer.format layer.value
  /-- The value stands under the name of the setting in its section. -/
  written : ∃ part value, layer.value.getValue? k.place.1 = some part ∧
    part.getValue? k.place.2 = some value ∧ k.kind.Written layer.format value x

/-! ### One layer -/

/-- The value that a layer gives to a setting. -/
def Key.givenBy? (k : Key) (layer : Layer) : Option k.kind.Value :=
  if WellTyped layer.format layer.value then k.setBy? layer.format layer.value else none

theorem Key.givenBy?_eq_some_iff {k : Key} {layer : Layer} {x : k.kind.Value} :
    k.givenBy? layer = some x ↔ layer.Gives k x := by
  rw [givenBy?]
  split
  · rename_i h
    rw [setBy?_eq_some_iff]
    exact ⟨fun hx => ⟨h, hx⟩, fun hx => hx.written⟩
  · rename_i h
    simp only [reduceCtorEq, false_iff]
    exact fun hx => h hx.wellTyped

theorem Key.givenBy?_eq_none_iff {k : Key} {layer : Layer} :
    k.givenBy? layer = none ↔ ∀ x, ¬layer.Gives k x := by
  simp only [Option.eq_none_iff_forall_ne_some, ne_eq, givenBy?_eq_some_iff]

/-- Settings under a layer; one that is no patch leaves them as they are. -/
def applyOn (s : Settings) (layer : Layer) : Settings :=
  match SettingsPatch.ofJson? layer.format layer.value with
  | some patch => s.apply patch
  | none => s

theorem applyOn_of_not {layer : Layer} (h : ¬WellTyped layer.format layer.value) (s : Settings) :
    s.applyOn layer = s := by
  rw [← exists_ofJson?_iff] at h
  rw [applyOn]
  split
  · rename_i patch hpatch
    exact absurd ⟨patch, hpatch⟩ h
  · rfl

/-- A layer changes the settings it gives a value to, and no others. -/
theorem Key.get_applyOn (s : Settings) (layer : Layer) (k : Key) :
    k.get (s.applyOn layer) = (k.givenBy? layer).getD (k.get s) := by
  rw [givenBy?]
  split
  · rename_i h
    obtain ⟨patch, hpatch⟩ := exists_ofJson?_iff.2 h
    rw [applyOn, hpatch]
    exact get_apply hpatch s k
  · rename_i h
    rw [applyOn_of_not h]
    rfl

/-- Of several layers the last one that gives a value counts. -/
theorem Key.get_foldl_applyOn (s : Settings) (layers : List Layer) (k : Key) :
    k.get (layers.foldl applyOn s) = (layers.reverse.findSome? k.givenBy?).getD (k.get s) := by
  induction layers using List.reverseRecOn with
  | nil => rfl
  | append_singleton layers layer ih =>
    rw [List.foldl_concat, get_applyOn, ih, List.reverse_concat, List.findSome?_cons]
    cases k.givenBy? layer <;> rfl

/-! ### One merge -/

theorem merge_payload (s : Settings) (v : Json) :
    s.merge (.payload v) = ((Merge.payload v).layers.foldl applyOn s).normalize := by
  rw [merge, mergePayload, layers, sectionKey, Merge.layers]
  cases v.get? "destructify" <;> rfl

/-- A file is merged if it is a well-typed TOML document. -/
theorem mergeToml?_eq (s : Settings) (text : List Char) :
    s.mergeToml? text = ((Toml.parse? text).filter (WellTyped .toml ·)).map fun v =>
      (s.applyOn ⟨.toml, v⟩).normalize := by
  rw [mergeToml?]
  cases Toml.parse? text with
  | none => rfl
  | some v =>
    rw [Option.bind_some]
    by_cases h : WellTyped .toml v
    · obtain ⟨patch, hpatch⟩ := exists_ofJson?_iff.2 h
      rw [Option.filter_some_pos (by simpa using h), hpatch, Option.map_some, Option.map_some,
        applyOn, hpatch]
    · have hnone : SettingsPatch.ofJson? .toml v = none := by
        rw [Option.eq_none_iff_forall_ne_some]
        exact fun patch hpatch => h (exists_ofJson?_iff.1 ⟨patch, hpatch⟩)
      rw [Option.filter_some_neg (by simpa using h), hnone]
      rfl

/-- A setting that is in normal form before a merge is so behind it. -/
theorem Key.get_merge {s : Settings} {k : Key} (h : k.normal (k.get s) = k.get s) (m : Merge) :
    k.get (s.merge m) = k.normal ((m.layers.reverse.findSome? k.givenBy?).getD (k.get s)) := by
  rw [← get_foldl_applyOn]
  cases m with
  | payload v => rw [merge_payload, get_normalize]
  | file text =>
    rw [merge, mergeToml?_eq, Merge.layers]
    cases Toml.parse? text with
    | none => exact h.symm
    | some v =>
      show _ = k.normal (k.get (s.applyOn ⟨.toml, v⟩))
      by_cases hv : WellTyped .toml v
      · rw [Option.filter_some_pos (by simpa using hv), ← get_normalize]
        rfl
      · rw [Option.filter_some_neg (by simpa using hv), applyOn_of_not hv, h]
        rfl

/-! ### Merges -/

theorem merged_concat (ms : List Merge) (m : Merge) : merged (ms ++ [m]) = (merged ms).merge m :=
  List.foldl_concat ..

/-- Merged settings are the normal form of some settings. -/
theorem exists_merged_eq_normalize (ms : List Merge) : ∃ s : Settings, merged ms = s.normalize := by
  induction ms using List.reverseRecOn with
  | nil => exact ⟨default, by decide⟩
  | append_singleton ms m ih =>
    rw [merged_concat]
    cases m with
    | payload v => exact ⟨_, rfl⟩
    | file text =>
      rw [merge, mergeToml?]
      cases (Toml.parse? text).bind (SettingsPatch.ofJson? .toml) with
      | none => exact ih
      | some patch => exact ⟨_, rfl⟩

/-- A setting after merges, as it is computed from the layers. -/
theorem Key.get_merged {k : Key} (hk : k ≠ extensions) (ms : List Merge) :
    k.get (merged ms) =
      ((ms.flatMap Merge.layers).reverse.findSome? k.givenBy?).elim (k.get default) k.normal := by
  induction ms using List.reverseRecOn with
  | nil => rfl
  | append_singleton ms m ih =>
    have hnormal : k.normal (k.get (merged ms)) = k.get (merged ms) := by
      obtain ⟨s, hs⟩ := exists_merged_eq_normalize ms
      rw [hs, get_normalize, normal_normal hk]
    rw [merged_concat, get_merge hnormal, List.flatMap_append, List.flatMap_singleton,
      List.reverse_append, List.findSome?_append]
    cases m.layers.reverse.findSome? k.givenBy? with
    | none => exact hnormal.trans ih
    | some x => rfl

/-- Settings overlay one another key by key.

A setting has, in normal form, the value that the last of the layers gives that gives one, and its
default value if none does. A file that is no well-typed TOML document leaves all settings as they
are. -/
theorem layers_overlay {k : Key} (hk : k ≠ .extensions) (ms : List Merge) :
    (∀ before layer after x, ms.flatMap Merge.layers = before ++ layer :: after →
        layer.Gives k x → (∀ later ∈ after, ∀ y, ¬later.Gives k y) →
          k.get (merged ms) = k.normal x) ∧
      ((∀ layer ∈ ms.flatMap Merge.layers, ∀ x, ¬layer.Gives k x) →
        k.get (merged ms) = k.get default) ∧
      ∀ (s : Settings) text, (∀ v, Toml.parse? text = some v → ¬WellTyped .toml v) →
        s.mergeToml? text = none ∧ s.merge (.file text) = s := by
  refine ⟨fun before layer after x hlayers hx hafter => ?_, fun hnone => ?_, fun s text h => ?_⟩
  · have hlast : (ms.flatMap Merge.layers).reverse.findSome? k.givenBy? = some x := by
      have hnone : after.reverse.findSome? k.givenBy? = none := by
        simpa [Key.givenBy?_eq_none_iff] using hafter
      rw [hlayers, List.reverse_append, List.reverse_cons, List.append_assoc,
        List.findSome?_append, hnone, List.singleton_append, List.findSome?_cons,
        Key.givenBy?_eq_some_iff.2 hx]
      rfl
    rw [Key.get_merged hk, hlast]
    rfl
  · have hlast : (ms.flatMap Merge.layers).reverse.findSome? k.givenBy? = none := by
      rw [List.findSome?_eq_none_iff]
      exact fun layer hlayer => Key.givenBy?_eq_none_iff.2 (hnone layer (List.mem_reverse.1 hlayer))
    rw [Key.get_merged hk, hlast]
    rfl
  · have herror : s.mergeToml? text = none := by
      rw [mergeToml?_eq, Option.map_eq_none_iff, Option.filter_eq_none_iff]
      simpa using h
    exact ⟨herror, by rw [merge, herror]; rfl⟩

/-- A payload with two layers, a settings file, a payload that is ill-typed at one place and one
that sets nothing. -/
def depthMerges : List Merge :=
  [.payload (.obj [("flatten", .obj [("maxDepth", .int 5)]),
      ("destructify", .obj [("flatten", .obj [("maxDepth", .int 9)])])]),
    .file "[flatten]\nmaxDepth = 5000\n".toList,
    .payload (.obj [("flatten", .obj [("maxDepth", .int 3), ("indentWidth", .str "wide")])]),
    .payload (.obj [("flatten", .obj [("maxDepth", .null)]), ("depth", .int 7)])]

/-- `layers_overlay` at the merges: the settings file is the last layer that gives a number, and this
is brought into its range. -/
theorem layers_overlay_depthMerges :
    Key.maxDepth ≠ .extensions ∧
      (merged depthMerges).flatten.maxDepth = clamp 1 1024 5000 ∧ clamp 1 1024 5000 = 1024 := by
  have hfile : @Eq (Option Nat)
      ((depthMerges.flatMap Merge.layers)[2]?.bind Key.maxDepth.givenBy?) (some 5000) := by
    decide +kernel
  have hafter : ∀ later ∈ (depthMerges.flatMap Merge.layers).drop 3,
      Key.maxDepth.givenBy? later = none := by
    decide +kernel
  obtain ⟨file, hget, hgiven⟩ := Option.bind_eq_some_iff.1 hfile
  obtain ⟨hlength, rfl⟩ := List.getElem?_eq_some_iff.1 hget
  have hlayers := (List.take_append_drop 2 (depthMerges.flatMap Merge.layers)).symm
  rw [List.drop_eq_getElem_cons hlength] at hlayers
  refine ⟨by decide, ?_, by decide⟩
  exact (layers_overlay (k := .maxDepth) (by decide) depthMerges).1 _ _ _ _ hlayers
    (Key.givenBy?_eq_some_iff.1 hgiven)
    fun later hlater => Key.givenBy?_eq_none_iff.1 (hafter later hlater)

end StructUnfold.Settings
