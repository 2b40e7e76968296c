import StructUnfold.Settings.Patch

/-!
# Settings by key

A setting stands under a key in a section, and its value is of a kind that the key decides. This
tells, key by key, what a patch sets, and when a value is a patch at all.

## Main definitions

* `Settings.Kind.Written`: how values of a kind are written.
* `Settings.Key`: the settings, with their names, their values and their normal forms.
* `Settings.Key.setBy?`: the value that a key has in a patch.
* `Settings.WellTyped`: every known key has a value of its kind, or none.

## Main results

* `Settings.Kind.decode?_eq_some_iff`: what is decoded is what is written.
* `Settings.exists_ofJson?_iff`: the patches are the well-typed values.
* `Settings.Key.get_apply`: settings under a patch, key by key.
-/

namespace StructUnfold

namespace Json

variable {α : Type} {v : Json} {key : String} {decode : Json → Option α}

/-- A value is an object. -/
def IsObject (v : Json) : Prop :=
  ∃ members, v = obj members

theorem object?_eq_some_iff {w : Json} : v.object? = some w ↔ v.IsObject ∧ w = v := by
  cases v <;> simp [object?, IsObject, eq_comm]

theorem strings?_eq_some_iff {texts : List String} :
    v.strings? = some texts ↔ v = arr (texts.map str) := by
  have hitems : ∀ items : List Json, items.mapM str? = some texts ↔ items = texts.map str := by
    intro items
    induction items generalizing texts with
    | nil => cases texts <;> simp
    | cons item items ih =>
      rw [List.mapM_cons]
      cases item with
      | str text => cases texts <;> simp [str?, Option.bind_eq_some_iff, ih, and_assoc, and_comm]
      | _ => cases texts <;> simp [str?]
  cases v <;> simp [strings?, list?, arr?, hitems]

/-- A field is decoded if it has a value that is, or none. -/
theorem field?_eq_some_iff {r : Option α} :
    v.field? key decode = some r ↔
      r = (v.getValue? key).bind decode ∧
        ∀ value, v.getValue? key = some value → ∃ x, decode value = some x := by
  rw [field?]
  cases v.getValue? key with
  | none => simp [eq_comm]
  | some value => cases hdecode : decode value <;> simp [hdecode, eq_comm]

theorem exists_field?_iff :
    (∃ r, v.field? key decode = some r) ↔
      ∀ value, v.getValue? key = some value → ∃ x, decode value = some x := by
  simp only [field?_eq_some_iff, exists_eq_left]

end Json

theorem LogLevel.ofName?_eq_some_iff {name : String} {level : LogLevel} :
    ofName? name = some level ↔ name = level.name := by
  constructor
  · intro h
    obtain ⟨n, hn, rfl⟩ := Option.map_eq_some_iff.1 h
    have hname : n.1 = name := by simpa using List.find?_some hn
    rw [← hname]
    have hmem := List.mem_of_find?_eq_some hn
    simp only [names, List.mem_cons, List.not_mem_nil, or_false] at hmem
    rcases hmem with rfl | rfl | rfl | rfl | rfl <;> rfl
  · rintro rfl
    cases level <;> rfl

namespace Settings

/-! ### Kinds of values -/

/-- The kinds of values that settings have. -/
inductive Kind where
  /-- True or false. -/
  | truth
  /-- A number that is not negative. -/
  | number
  /-- A text. -/
  | text
  /-- A list of texts. -/
  | texts
  /-- A level of logging. -/
  | level
deriving DecidableEq, Repr

namespace Kind

/-- The values of a kind. -/
abbrev Value : Kind → Type
  | truth => Bool
  | number => Nat
  | text => String
  | texts => List String
  | level => LogLevel

instance : (kind : Kind) → DecidableEq kind.Value
  | truth => inferInstanceAs (DecidableEq Bool)
  | number => inferInstanceAs (DecidableEq Nat)
  | text => inferInstanceAs (DecidableEq String)
  | texts => inferInstanceAs (DecidableEq (List String))
  | level => inferInstanceAs (DecidableEq LogLevel)

/-- How values of a kind are written. A level is written as its name, or as an object with the name
as its only key and nothing under it. -/
def Written (format : PatchFormat) : (kind : Kind) → Json → kind.Value → Prop
  | truth, v, b => v = .bool b
  | number, v, n => v = .int (.ofNat n)
  | text, v, s => v = .str s
  | texts, v, ss => v = .arr (ss.map .str)
  | level, v, l => v = .str l.name ∨
      ∃ members value, v = .obj members ∧ members.getLast? = some (l.name, value) ∧
        (∀ m ∈ members, m.1 = l.name) ∧ format.isUnit value = true

/-- The value of a kind that is decoded from a text of a format. -/
def decode? (format : PatchFormat) : (kind : Kind) → Json → Option kind.Value
  | truth => Json.bool?
  | number => Json.nat?
  | text => Json.str?
  | texts => Json.strings?
  | level => format.level?

theorem level?_eq_some_iff {format : PatchFormat} {v : Json} {l : LogLevel} :
    format.level? v = some l ↔ level.Written format v l := by
  cases v with
  | str name => simp [PatchFormat.level?, Written, LogLevel.ofName?_eq_some_iff]
  | obj members =>
    simp only [PatchFormat.level?, Json.only?, Option.bind_eq_some_iff, Option.filter_eq_some_iff,
      List.all_eq_true, beq_iff_eq, LogLevel.ofName?_eq_some_iff, Written, reduceCtorEq, false_or,
      Json.obj.injEq]
    constructor
    · rintro ⟨m, ⟨⟨hlast, honly⟩, hunit⟩, hname⟩
      exact ⟨members, m.2, rfl, hname ▸ hlast, fun n hn => hname ▸ honly n hn, hunit⟩
    · rintro ⟨_, value, rfl, hlast, honly, hunit⟩
      exact ⟨_, ⟨⟨hlast, honly⟩, hunit⟩, rfl⟩
  | _ => simp [PatchFormat.level?, Json.only?, Written]

/-- What is decoded is what is written. -/
theorem decode?_eq_some_iff {format : PatchFormat} {kind : Kind} {v : Json} {x : kind.Value} :
    kind.decode? format v = some x ↔ kind.Written format v x := by
  cases kind with
  | truth => cases v <;> simp [decode?, Written, Json.bool?]
  | number =>
    cases v with
    | int n =>
      cases n with
      | ofNat n => exact ⟨fun h => Option.some.inj h ▸ rfl, fun h => by cases h; rfl⟩
      | negSucc n => simp [decode?, Written, Json.nat?]
    | _ => simp [decode?, Written, Json.nat?]
  | text => cases v <;> simp [decode?, Written, Json.str?]
  | texts => exact Json.strings?_eq_some_iff
  | level => exact level?_eq_some_iff

end Kind

/-! ### Keys -/

/-- The settings. -/
inductive Key where
  /-- Look for source files at all. -/
  | indexingEnable
  /-- The file extensions of source files. -/
  | extensions
  /-- Largest size of a source file. -/
  | maxFileSizeKb
  /-- Paths beneath which no file is looked at. -/
  | excludePaths
  /-- Number of columns by which the items of a block are indented. -/
  | indentWidth
  /-- Number of levels of blocks. -/
  | maxDepth
  /-- Number of bytes examined to find a block. -/
  | maxScanBytes
  /-- Longest chain of aliases that is followed. -/
  | maxAliasHops
  /-- The results directory. -/
  | directory
  /-- Ask the editor to show what was written. -/
  | showDocument
  /-- Show anything for a word under the cursor. -/
  | hoverEnable
  /-- The level up to which the editor is told. -/
  | loggingLevel
deriving DecidableEq, Repr

/-- The names of the sections. -/
def sectionNames : List String :=
  ["indexing", "flatten", "output", "hover", "logging"]

namespace Key

/-- The section of a setting and its name there. -/
def place : Key → String × String
  | indexingEnable => ("indexing", "enable")
  | extensions => ("indexing", "extensions")
  | maxFileSizeKb => ("indexing", "maxFileSizeKb")
  | excludePaths => ("indexing", "excludePaths")
  | indentWidth => ("flatten", "indentWidth")
  | maxDepth => ("flatten", "maxDepth")
  | maxScanBytes => ("flatten", "maxScanBytes")
  | maxAliasHops => ("flatten", "maxAliasHops")
  | directory => ("output", "directory")
  | showDocument => ("output", "showDocument")
  | hoverEnable => ("hover", "enable")
  | loggingLevel => ("logging", "level")

/-- The kind of the values of a setting. -/
def kind : Key → Kind
  | indexingEnable => .truth
  | extensions => .texts
  | maxFileSizeKb => .number
  | excludePaths => .texts
  | indentWidth => .number
  | maxDepth => .number
  | maxScanBytes => .number
  | maxAliasHops => .number
  | directory => .text
  | showDocument => .truth
  | hoverEnable => .truth
  | loggingLevel => .level

/-- The value of a setting. -/
def get : (k : Key) → Settings → k.kind.Value
  | indexingEnable, s => s.indexing.enable
  | extensions, s => s.indexing.extensions
  | maxFileSizeKb, s => s.indexing.maxFileSizeKb
  | excludePaths, s => s.indexing.excludePaths
  | indentWidth, s => s.flatten.indentWidth
  | maxDepth, s => s.flatten.maxDepth
  | maxScanBytes, s => s.flatten.maxScanBytes
  | maxAliasHops, s => s.flatten.maxAliasHops
  | directory, s => s.output.directory
  | showDocument, s => s.output.showDocument
  | hoverEnable, s => s.hover.enable
  | loggingLevel, s => s.logging.level

/-- Settings are told apart by some key. -/
theorem eq_of_get_eq {s t : Settings} (h : ∀ k : Key, k.get s = k.get t) : s = t := by
  obtain ⟨⟨e, x, f, p⟩, ⟨w, d, b, a⟩, ⟨o, sd⟩, ⟨he⟩, ⟨l⟩⟩ := s
  obtain ⟨⟨e', x', f', p'⟩, ⟨w', d', b', a'⟩, ⟨o', sd'⟩, ⟨he'⟩, ⟨l'⟩⟩ := t
  obtain rfl : e = e' := h indexingEnable
  obtain rfl : x = x' := h extensions
  obtain rfl : f = f' := h maxFileSizeKb
  obtain rfl : p = p' := h excludePaths
  obtain rfl : w = w' := h indentWidth
  obtain rfl : d = d' := h maxDepth
  obtain rfl : b = b' := h maxScanBytes
  obtain rfl : a = a' := h maxAliasHops
  obtain rfl : o = o' := h directory
  obtain rfl : sd = sd' := h showDocument
  obtain rfl : he = he' := h hoverEnable
  obtain rfl : l = l' := h loggingLevel
  rfl

/-! ### Patches -/

/-- What stands under the name of a setting in a section is of its kind. -/
def AcceptedIn (k : Key) (format : PatchFormat) (part : Json) : Prop :=
  ∀ value, part.getValue? k.place.2 = some value → ∃ x, k.kind.Written format value x

/-- The value that a patch has for a setting. -/
def setBy? (k : Key) (format : PatchFormat) (v : Json) : Option k.kind.Value :=
  ((v.getValue? k.place.1).bind (Json.getValue? k.place.2)).bind (k.kind.decode? format)

theorem setBy?_eq_some_iff {k : Key} {format : PatchFormat} {v : Json} {x : k.kind.Value} :
    k.setBy? format v = some x ↔ ∃ part value, v.getValue? k.place.1 = some part ∧
      part.getValue? k.place.2 = some value ∧ k.kind.Written format value x := by
  simp only [setBy?, Option.bind_eq_some_iff, Kind.decode?_eq_some_iff]
  constructor
  · rintro ⟨value, ⟨part, hpart, hvalue⟩, hx⟩
    exact ⟨part, value, hpart, hvalue, hx⟩
  · rintro ⟨part, value, hpart, hvalue, hx⟩
    exact ⟨value, ⟨part, hpart, hvalue⟩, hx⟩

theorem exists_field?_iff {k : Key} {format : PatchFormat} {part : Json} :
    (∃ r, part.field? k.place.2 (k.kind.decode? format) = some r) ↔ k.AcceptedIn format part := by
  simp only [Json.exists_field?_iff, Kind.decode?_eq_some_iff, AcceptedIn]

end Key

/-- All settings. -/
def Key.all : List Key :=
  [.indexingEnable, .extensions, .maxFileSizeKb, .excludePaths, .indentWidth, .maxDepth,
    .maxScanBytes, .maxAliasHops, .directory, .showDocument, .hoverEnable, .loggingLevel]

/-- The settings of a section. -/
def Key.ofSection (name : String) : List Key :=
  all.filter (·.place.1 == name)

/-- What a section holds is of the kinds that its settings have. -/
structure PartWellTyped (format : PatchFormat) (name : String) (part : Json) : Prop where
  /-- It is an object. -/
  object : part.IsObject
  /-- What stands there under the name of a setting is of its kind. -/
  keys : ∀ k ∈ Key.ofSection name, k.AcceptedIn format part

/-- A value is well-typed: it is an object, and so are its sections, and every known name in a
section has a value of its kind, or none. -/
structure WellTyped (format : PatchFormat) (v : Json) : Prop where
  /-- It is an object. -/
  object : v.IsObject
  /-- What its sections hold is of the kinds that the settings have. -/
  parts : ∀ name ∈ sectionNames, ∀ part, v.getValue? name = some part →
    PartWellTyped format name part

end Settings

open Settings

/-! ### The sections of a patch -/

section Sections

variable {v : Json} {name : String}

theorem IndexingPatch.ofJson?_eq_some_iff {p : IndexingPatch} :
    ofJson? v = some p ↔ v.IsObject ∧
      v.field? "enable" Json.bool? = some p.enable ∧
      v.field? "extensions" Json.strings? = some p.extensions ∧
      v.field? "maxFileSizeKb" Json.nat? = some p.maxFileSizeKb ∧
      v.field? "excludePaths" Json.strings? = some p.excludePaths := by
  simp only [ofJson?, Option.bind_eq_bind, Option.bind_eq_some_iff, Json.object?_eq_some_iff]
  constructor
  · rintro ⟨_, ⟨hv, rfl⟩, _, h₁, _, h₂, _, h₃, _, h₄, ⟨⟩⟩
    exact ⟨hv, h₁, h₂, h₃, h₄⟩
  · rintro ⟨hv, h₁, h₂, h₃, h₄⟩
    exact ⟨v, ⟨hv, rfl⟩, _, h₁, _, h₂, _, h₃, _, h₄, rfl⟩

theorem FlattenPatch.ofJson?_eq_some_iff {p : FlattenPatch} :
    ofJson? v = some p ↔ v.IsObject ∧
      v.field? "indentWidth" Json.nat? = some p.indentWidth ∧
      v.field? "maxDepth" Json.nat? = some p.maxDepth ∧
      v.field? "maxScanBytes" Json.nat? = some p.maxScanBytes ∧
      v.field? "maxAliasHops" Json.nat? = some p.maxAliasHops := by
  simp only [ofJson?, Option.bind_eq_bind, Option.bind_eq_some_iff, Json.object?_eq_some_iff]
  constructor
  · rintro ⟨_, ⟨hv, rfl⟩, _, h₁, _, h₂, _, h₃, _, h₄, ⟨⟩⟩
    exact ⟨hv, h₁, h₂, h₃, h₄⟩
  · rintro ⟨hv, h₁, h₂, h₃, h₄⟩
    exact ⟨v, ⟨hv, rfl⟩, _, h₁, _, h₂, _, h₃, _, h₄, rfl⟩

theorem OutputPatch.ofJson?_eq_some_iff {p : OutputPatch} :
    ofJson? v = some p ↔ v.IsObject ∧
      v.field? "directory" Json.str? = some p.directory ∧
      v.field? "showDocument" Json.bool? = some p.showDocument := by
  simp only [ofJson?, Option.bind_eq_bind, Option.bind_eq_some_iff, Json.object?_eq_some_iff]
  constructor
  · rintro ⟨_, ⟨hv, rfl⟩, _, h₁, _, h₂, ⟨⟩⟩
    exact ⟨hv, h₁, h₂⟩
  · rintro ⟨hv, h₁, h₂⟩
    exact ⟨v, ⟨hv, rfl⟩, _, h₁, _, h₂, rfl⟩

theorem HoverPatch.ofJson?_eq_some_iff {p : HoverPatch} :
    ofJson? v = some p ↔ v.IsObject ∧ v.field? "enable" Json.bool? = some p.enable := by
  simp only [ofJson?, Option.bind_eq_bind, Option.bind_eq_some_iff, Json.object?_eq_some_iff]
  constructor
  · rintro ⟨_, ⟨hv, rfl⟩, _, h₁, ⟨⟩⟩
    exact ⟨hv, h₁⟩
  · rintro ⟨hv, h₁⟩
    exact ⟨v, ⟨hv, rfl⟩, _, h₁, rfl⟩

theorem LoggingPatch.ofJson?_eq_some_iff {format : PatchFormat} {p : LoggingPatch} :
    ofJson? format v = some p ↔ v.IsObject ∧ v.field? "level" format.level? = some p.level := by
  simp only [ofJson?, Option.bind_eq_bind, Option.bind_eq_some_iff, Json.object?_eq_some_iff]
  constructor
  · rintro ⟨_, ⟨hv, rfl⟩, _, h₁, ⟨⟩⟩
    exact ⟨hv, h₁⟩
  · rintro ⟨hv, h₁⟩
    exact ⟨v, ⟨hv, rfl⟩, _, h₁, rfl⟩

theorem SettingsPatch.ofJson?_eq_some_iff {format : PatchFormat} {p : SettingsPatch} :
    ofJson? format v = some p ↔ v.IsObject ∧
      v.field? "indexing" IndexingPatch.ofJson? = some p.indexing ∧
      v.field? "flatten" FlattenPatch.ofJson? = some p.flatten ∧
      v.field? "output" OutputPatch.ofJson? = some p.output ∧
      v.field? "hover" HoverPatch.ofJson? = some p.hover ∧
      v.field? "logging" (LoggingPatch.ofJson? format) = some p.logging := by
  simp only [ofJson?, Option.bind_eq_bind, Option.bind_eq_some_iff, Json.object?_eq_some_iff]
  constructor
  · rintro ⟨_, ⟨hv, rfl⟩, _, h₁, _, h₂, _, h₃, _, h₄, _, h₅, ⟨⟩⟩
    exact ⟨hv, h₁, h₂, h₃, h₄, h₅⟩
  · rintro ⟨hv, h₁, h₂, h₃, h₄, h₅⟩
    exact ⟨v, ⟨hv, rfl⟩, _, h₁, _, h₂, _, h₃, _, h₄, _, h₅, rfl⟩

end Sections

namespace Settings

variable {format : PatchFormat} {v : Json}

/-! ### Well-typed values -/

theorem partWellTyped_iff {name : String} {part : Json} {keys : List Key}
    (h : Key.ofSection name = keys) : PartWellTyped format name part ↔
      part.IsObject ∧ ∀ k ∈ keys,
        ∃ r, part.field? k.place.2 (k.kind.decode? format) = some r := by
  subst h
  simp only [Key.exists_field?_iff]
  exact ⟨fun h => ⟨h.object, h.keys⟩, fun h => ⟨h.1, h.2⟩⟩

theorem exists_indexing_iff :
    (∃ p, IndexingPatch.ofJson? v = some p) ↔ PartWellTyped format "indexing" v := by
  rw [partWellTyped_iff
    (show _ = [.indexingEnable, .extensions, .maxFileSizeKb, .excludePaths] from rfl)]
  simp only [IndexingPatch.ofJson?_eq_some_iff, List.forall_mem_cons]
  constructor
  · rintro ⟨p, hv, h₁, h₂, h₃, h₄⟩
    exact ⟨hv, ⟨_, h₁⟩, ⟨_, h₂⟩, ⟨_, h₃⟩, ⟨_, h₄⟩, List.forall_mem_nil _⟩
  · rintro ⟨hv, ⟨_, h₁⟩, ⟨_, h₂⟩, ⟨_, h₃⟩, ⟨_, h₄⟩, -⟩
    exact ⟨⟨_, _, _, _⟩, hv, h₁, h₂, h₃, h₄⟩

theorem exists_flatten_iff :
    (∃ p, FlattenPatch.ofJson? v = some p) ↔ PartWellTyped format "flatten" v := by
  rw [partWellTyped_iff
    (show _ = [.indentWidth, .maxDepth, .maxScanBytes, .maxAliasHops] from rfl)]
  simp only [FlattenPatch.ofJson?_eq_some_iff, List.forall_mem_cons]
  constructor
  · rintro ⟨p, hv, h₁, h₂, h₃, h₄⟩
    exact ⟨hv, ⟨_, h₁⟩, ⟨_, h₂⟩, ⟨_, h₃⟩, ⟨_, h₄⟩, List.forall_mem_nil _⟩
  · rintro ⟨hv, ⟨_, h₁⟩, ⟨_, h₂⟩, ⟨_, h₃⟩, ⟨_, h₄⟩, -⟩
    exact ⟨⟨_, _, _, _⟩, hv, h₁, h₂, h₃, h₄⟩

theorem exists_output_iff :
    (∃ p, OutputPatch.ofJson? v = some p) ↔ PartWellTyped format "output" v := by
  rw [partWellTyped_iff (show _ = [.directory, .showDocument] from rfl)]
  simp only [OutputPatch.ofJson?_eq_some_iff, List.forall_mem_cons]
  constructor
  · rintro ⟨p, hv, h₁, h₂⟩
    exact ⟨hv, ⟨_, h₁⟩, ⟨_, h₂⟩, List.forall_mem_nil _⟩
  · rintro ⟨hv, ⟨_, h₁⟩, ⟨_, h₂⟩, -⟩
    exact ⟨⟨_, _⟩, hv, h₁, h₂⟩

theorem exists_hover_iff :
    (∃ p, HoverPatch.ofJson? v = some p) ↔ PartWellTyped format "hover" v := by
  rw [partWellTyped_iff (show _ = [.hoverEnable] from rfl)]
  simp only [HoverPatch.ofJson?_eq_some_iff, List.forall_mem_singleton]
  exact ⟨fun ⟨p, hv, h⟩ => ⟨hv, _, h⟩, fun ⟨hv, r, h⟩ => ⟨⟨r⟩, hv, h⟩⟩

theorem exists_logging_iff :
    (∃ p, LoggingPatch.ofJson? format v = some p) ↔ PartWellTyped format "logging" v := by
  rw [partWellTyped_iff (show _ = [.loggingLevel] from rfl)]
  simp only [LoggingPatch.ofJson?_eq_some_iff, List.forall_mem_singleton]
  exact ⟨fun ⟨p, hv, h⟩ => ⟨hv, _, h⟩, fun ⟨hv, r, h⟩ => ⟨⟨r⟩, hv, h⟩⟩

/-- The patches are the well-typed values. -/
theorem exists_ofJson?_iff :
    (∃ p, SettingsPatch.ofJson? format v = some p) ↔ WellTyped format v := by
  have hparts : WellTyped format v ↔ v.IsObject ∧ ∀ name ∈ sectionNames, ∀ part,
      v.getValue? name = some part → PartWellTyped format name part :=
    ⟨fun h => ⟨h.object, h.parts⟩, fun h => ⟨h.1, h.2⟩⟩
  rw [hparts]
  simp only [sectionNames, List.forall_mem_cons, ← exists_indexing_iff, ← exists_flatten_iff,
    ← exists_output_iff, ← exists_hover_iff, ← exists_logging_iff, ← Json.exists_field?_iff]
  simp only [SettingsPatch.ofJson?_eq_some_iff]
  constructor
  · rintro ⟨p, hv, h₁, h₂, h₃, h₄, h₅⟩
    exact ⟨hv, ⟨_, h₁⟩, ⟨_, h₂⟩, ⟨_, h₃⟩, ⟨_, h₄⟩, ⟨_, h₅⟩, List.forall_mem_nil _⟩
  · rintro ⟨hv, ⟨_, h₁⟩, ⟨_, h₂⟩, ⟨_, h₃⟩, ⟨_, h₄⟩, ⟨_, h₅⟩, -⟩
    exact ⟨⟨_, _, _, _, _⟩, hv, h₁, h₂, h₃, h₄, h₅⟩

instance : Decidable (WellTyped format v) :=
  decidable_of_iff ((SettingsPatch.ofJson? format v).isSome = true)
    (Option.isSome_iff_exists.trans exists_ofJson?_iff)

/-! ### Settings under a patch -/

/-- A setting under the part of a patch for its section, if there is one. -/
theorem Key.get_elim {P S : Type} (k : Key) {decode : Json → Option P} {r : Option P}
    (h : v.field? k.place.1 decode = some r) {s : S} {apply : P → S} (get : S → k.kind.Value)
    (field : P → Option k.kind.Value) (happly : ∀ p, get (apply p) = (field p).getD (get s))
    (hfield : ∀ part p, decode part = some p →
      part.field? k.place.2 (k.kind.decode? format) = some (field p)) :
    get (r.elim s apply) = (k.setBy? format v).getD (get s) := by
  obtain ⟨rfl, hdecode⟩ := Json.field?_eq_some_iff.1 h
  rw [setBy?]
  cases hpart : v.getValue? k.place.1 with
  | none => rfl
  | some part =>
    obtain ⟨p, hp⟩ := hdecode part hpart
    rw [Option.bind_some, Option.bind_some, hp, Option.elim_some, happly,
      (Json.field?_eq_some_iff.1 (hfield part p hp)).1]

/-- A patch gives a setting the value it has for it, or leaves it alone. -/
theorem Key.get_apply {p : SettingsPatch} (h : SettingsPatch.ofJson? format v = some p)
    (s : Settings) (k : Key) : k.get (s.apply p) = (k.setBy? format v).getD (k.get s) := by
  obtain ⟨-, hindexing, hflatten, houtput, hhover, hlogging⟩ :=
    SettingsPatch.ofJson?_eq_some_iff.1 h
  -- Each setting is read from the part of the patch for its section, if there is one.
  cases k with
  | indexingEnable =>
    refine get_elim .indexingEnable hindexing IndexingSettings.enable IndexingPatch.enable
      (fun _ => rfl) fun _ _ hp => ?_
    exact (IndexingPatch.ofJson?_eq_some_iff.1 hp).2.1
  | extensions =>
    refine get_elim .extensions hindexing IndexingSettings.extensions IndexingPatch.extensions
      (fun _ => rfl) fun _ _ hp => ?_
    exact (IndexingPatch.ofJson?_eq_some_iff.1 hp).2.2.1
  | maxFileSizeKb =>
    refine get_elim .maxFileSizeKb hindexing IndexingSettings.maxFileSizeKb
      IndexingPatch.maxFileSizeKb (fun _ => rfl) fun _ _ hp => ?_
    exact (IndexingPatch.ofJson?_eq_some_iff.1 hp).2.2.2.1
  | excludePaths =>
    refine get_elim .excludePaths hindexing IndexingSettings.excludePaths IndexingPatch.excludePaths
      (fun _ => rfl) fun _ _ hp => ?_
    exact (IndexingPatch.ofJson?_eq_some_iff.1 hp).2.2.2.2
  | indentWidth =>
    refine get_elim .indentWidth hflatten FlattenSettings.indentWidth FlattenPatch.indentWidth
      (fun _ => rfl) fun _ _ hp => ?_
    exact (FlattenPatch.ofJson?_eq_some_iff.1 hp).2.1
  | maxDepth =>
    refine get_elim .maxDepth hflatten FlattenSettings.maxDepth FlattenPatch.maxDepth
      (fun _ => rfl) fun _ _ hp => ?_
    exact (FlattenPatch.ofJson?_eq_some_iff.1 hp).2.2.1
  | maxScanBytes =>
    refine get_elim .maxScanBytes hflatten FlattenSettings.maxScanBytes FlattenPatch.maxScanBytes
      (fun _ => rfl) fun _ _ hp => ?_
    exact (FlattenPatch.ofJson?_eq_some_iff.1 hp).2.2.2.1
  | maxAliasHops =>
    refine get_elim .maxAliasHops hflatten FlattenSettings.maxAliasHops FlattenPatch.maxAliasHops
      (fun _ => rfl) fun _ _ hp => ?_
    exact (FlattenPatch.ofJson?_eq_some_iff.1 hp).2.2.2.2
  | directory =>
    refine get_elim .directory houtput OutputSettings.directory OutputPatch.directory
      (fun _ => rfl) fun _ _ hp => ?_
    exact (OutputPatch.ofJson?_eq_some_iff.1 hp).2.1
  | showDocument =>
    refine get_elim .showDocument houtput OutputSettings.showDocument OutputPatch.showDocument
      (fun _ => rfl) fun _ _ hp => ?_
    exact (OutputPatch.ofJson?_eq_some_iff.1 hp).2.2
  | hoverEnable =>
    refine get_elim .hoverEnable hhover HoverSettings.enable HoverPatch.enable
      (fun _ => rfl) fun _ _ hp => ?_
    exact (HoverPatch.ofJson?_eq_some_iff.1 hp).2
  | loggingLevel =>
    refine get_elim .loggingLevel hlogging LoggingSettings.level LoggingPatch.level
      (fun _ => rfl) fun _ _ hp => ?_
    exact (LoggingPatch.ofJson?_eq_some_iff.1 hp).2

end Settings

end StructUnfold
