import StructUnfold.Proofs.Server.Editing
import StructUnfold.Proofs.Settings.Layer

/-!
# The settings of a session

A session takes its settings from merges alone, so they are always in normal form. But a merge that
gives nothing to any setting brings them into normal form once more, and that changes an extension
that begins with white space. It does so if white space stands behind the dots in front of what was
given. Then a notification that sets nothing has the workspace scanned anew.

## Main definitions

* `Settings.GivesNothing`: a payload gives nothing to any setting.
* `Settings.HasGap`: white space stands behind the dots in front of a text.
* `Session.Reached`: the sessions that the server gets into.

## Main results

* `Settings.isSettled_merged`: no extension begins with white space if none is given with a gap.
* `Session.Reached.exists_merged`: the settings of a session come from merges.
* `Session.merged_normal_and_settled`: what merges that give nothing do to settings and sessions.
-/

namespace StructUnfold

namespace Settings

open IndexingSettings

variable {ms : List Merge} {payload : Json}

/-! ### Merges that give nothing -/

/-- No layer of a payload gives a value to a setting. -/
def GivesNothing (payload : Json) : Prop :=
  ∀ layer ∈ (Merge.payload payload).layers, ∀ k x, ¬layer.Gives k x

theorem givesNothing_empty : GivesNothing (.obj []) := by
  intro layer hlayer k x hgives
  obtain ⟨part, -, hpart, -⟩ := hgives.written
  obtain rfl : layer = ⟨.json, .obj []⟩ := List.mem_singleton.1 hlayer
  cases hpart

/-- A payload that gives nothing brings settings into normal form once more. -/
theorem mergePayload_of_givesNothing (h : GivesNothing payload) (s : Settings) :
    s.mergePayload payload = s.normalize := by
  have hlayers : (Merge.payload payload).layers.foldl applyOn s = s := by
    refine Key.eq_of_get_eq fun k => ?_
    have hnone : (Merge.payload payload).layers.reverse.findSome? k.givenBy? = none := by
      rw [List.findSome?_eq_none_iff]
      exact fun layer hlayer => Key.givenBy?_eq_none_iff.2 (h layer (List.mem_reverse.1 hlayer) k)
    rw [Key.get_foldl_applyOn, hnone]
    rfl
  have hmerge := merge_payload s payload
  rwa [hlayers] at hmerge

/-! ### White space behind dots -/

/-- White space stands behind the dots in front of a text. -/
def HasGap (t : String) : Prop :=
  ((Text.trim t.toList).dropWhile (· == '.')).head?.any Text.isSpace = true

theorem beginsBlank_normalizeExtension {t : String} :
    BeginsBlank (normalizeExtension t) ↔ HasGap t := by
  rw [BeginsBlank, toList_normalizeExtension, List.head?_map, HasGap]
  cases ((Text.trim t.toList).dropWhile (· == '.')).head? with
  | none => rfl
  | some c => rw [Option.map_some, Option.any_some, Option.any_some, isSpace_toLower]

/-- The normal forms of extensions do not begin with white space if these have no gaps. -/
theorem not_beginsBlank_normalExtensions {es : List String} (h : ∀ t ∈ es, ¬HasGap t) :
    ∀ e ∈ normalExtensions es, ¬BeginsBlank e := by
  intro e he
  rw [normalExtensions] at he
  split at he
  · exact (by decide : ∀ e ∈ defaultExtensions, ¬BeginsBlank e) e he
  · obtain ⟨t, ht, rfl⟩ := List.mem_map.1 (mem_distinct_iff.1 he).1
    rw [beginsBlank_normalizeExtension]
    exact h t ht

theorem isNormal_merged (ms : List Merge) : (merged ms).IsNormal := by
  obtain ⟨s, hs⟩ := exists_merged_eq_normalize ms
  rw [hs]
  exact isNormal_normalize s

/-- The extensions of merged settings are left alone if none of them begins with white space. -/
theorem normalExtensions_merged_iff (ms : List Merge) :
    normalExtensions (merged ms).indexing.extensions = (merged ms).indexing.extensions ↔
      (merged ms).IsSettled :=
  let h := isNormal_merged ms
  normalExtensions_eq_self_iff h.extensions_ne_nil h.extensions_nodup h.extensions

/-- Merged settings are left alone if none of their extensions begins with white space. -/
theorem normalize_merged_iff (ms : List Merge) :
    (merged ms).normalize = merged ms ↔ (merged ms).IsSettled := by
  obtain ⟨s, hs⟩ := exists_merged_eq_normalize ms
  rw [hs]
  exact normalize_normalize_iff s

/-- No extension begins with white space if none is given with a gap. -/
theorem isSettled_merged (h : ∀ layer ∈ ms.flatMap Merge.layers, ∀ es : List String,
    layer.Gives .extensions es → ∀ t ∈ es, ¬HasGap t) : (merged ms).IsSettled := by
  induction ms using List.reverseRecOn with
  | nil => decide
  | append_singleton ms m ih =>
    have hsettled : (merged ms).IsSettled := ih fun layer hlayer =>
      h layer (by simpa using Or.inl hlayer)
    have hself := (normalExtensions_merged_iff ms).2 hsettled
    have hget := Key.get_merge (k := .extensions) hself m
    rw [← merged_concat] at hget
    cases hlast : m.layers.reverse.findSome? Key.extensions.givenBy? with
    -- No layer gives extensions, so they stay as they were.
    | none =>
      rw [hlast] at hget
      have hkept : (merged (ms ++ [m])).indexing.extensions = (merged ms).indexing.extensions :=
        hget.trans hself
      rwa [IsSettled, hkept]
    -- The last layer that gives extensions decides about them.
    | some es =>
      rw [hlast] at hget
      have hgiven : (merged (ms ++ [m])).indexing.extensions = normalExtensions es := hget
      obtain ⟨layer, hlayer, hes⟩ := List.exists_of_findSome?_eq_some hlast
      rw [IsSettled, hgiven]
      refine not_beginsBlank_normalExtensions (h layer ?_ es (Key.givenBy?_eq_some_iff.1 hes))
      rw [List.flatMap_append, List.flatMap_singleton]
      exact List.mem_append_right _ (List.mem_reverse.1 hlayer)

end Settings

namespace Server.Session

open Settings

variable {s : Session}

/-! ### The settings of a session -/

/-- The sessions that the server gets into: it is started, takes requests and notifications and
comes to rest, while the disk may change. -/
inductive Reached : Session → Prop where
  /-- It is started. -/
  | start (d : Disk) : Reached (.start d)
  /-- It takes a request. -/
  | request {s : Session} (h : Reached s) (name : String) (params : Option Json) :
    Reached (s.request name params).1
  /-- It takes a notification. -/
  | notify {s : Session} (h : Reached s) (name : String) (params : Option Json) :
    Reached (s.notify name params)
  /-- The edits of its documents come to rest. -/
  | settle {s : Session} (h : Reached s) : Reached s.settle
  /-- The disk changes. -/
  | onDisk {s : Session} (h : Reached s) (d : Disk) : Reached { s with disk := d }

theorem settings_index (s : Session) : s.index.1.state.settings = s.state.settings := by
  cases h : s.state.settings.indexing.enable with
  | true => exact (index_eq h).1.settings
  | false =>
    rw [index]
    simp [h]

theorem settings_settle (s : Session) : s.settle.state.settings = s.state.settings := by
  have hfold : ∀ (due : List (Uri × Nat)) (t : Session),
      (due.foldl (fun s edit => s.rescanAfter edit.1 edit.2) t).state.settings =
        t.state.settings := by
    intro due
    induction due with
    | nil => exact fun _ => rfl
    | cons edit due ih =>
      intro t
      rw [List.foldl_cons, ih, rescanAfter]
      split
      · exact (keeps_rescan t _).settings
      · rfl
  exact hfold s.state.putOff _

theorem logWarning_state (s : Session) (text : String) : (s.logWarning text).state = s.state := by
  rw [logWarning]
  split <;> rfl

/-- Writing a result changes nothing that the server remembers. -/
theorem publish_state (s : Session) (symbol text : String) (origin : Option Uri) :
    (s.publish symbol text origin).state = s.state := by
  rw [publish]
  split
  · rfl
  · dsimp only
    split
    · exact logWarning_state _ _
    · split
      · split
        · exact send_state _ _
        · rfl
      · rfl

/-- No command changes the settings. -/
theorem settings_execute (s : Session) (command : String) (arguments : List Json) :
    (s.execute command arguments).1.state.settings = s.state.settings := by
  rw [execute]
  split
  · rw [runExpand]
    split
    · rfl
    split
    · split
      · rfl
      · dsimp only
        rw [publish_state, logInfo_state]
    · rfl
  split
  · rw [← s.settings_index, runRescan]
    split
    · rename_i t report h
      rw [h]
    · rename_i t h
      rw [h]
  · rfl

/-- The settings after they are configured. -/
theorem settings_configure (s : Session) (payload : Json) :
    (s.configure payload).state.settings = s.state.settings.mergePayload payload := by
  rw [configure]
  dsimp only
  split
  · rename_i h
    exact h.symm
  · split
    · exact settings_index _
    · rfl

/-- A notification that is not about settings keeps them. -/
theorem settings_notice (s : Session) (notification : Notification) :
    (s.notice notification).state.settings = s.state.settings ∨
      ∃ payload, (s.notice notification).state.settings =
        s.state.settings.mergePayload payload := by
  cases notification with
  | configured payload => exact .inr ⟨payload, s.settings_configure payload⟩
  | initialized => exact .inl ((settings_index _).trans (by simp))
  | opened uri document => exact .inl rfl
  | changed uri changes version => exact .inl rfl
  | saved uri text =>
    obtain ⟨documents, -, hsave⟩ := save_eq s uri text
    refine .inl ?_
    rw [notice, hsave, (keeps_rescan _ uri).settings]
    rfl
  | closed uri => exact .inl (keeps_rescan _ uri).settings

/-- The settings of a workspace come from the file and the options that it has. -/
theorem exists_initialSettings (d : Disk) (roots : List Path) (options : Option Json) :
    ∃ ms, initialSettings d roots options = merged ms := by
  -- The file of a root is one merge, and a file that cannot be read is none.
  have hfile : ∀ root, ∃ ms, (Settings.discover d root).toOption.getD .default = merged ms := by
    intro root
    rw [Settings.discover]
    split
    · rw [Settings.mergeFile]
      split
      · exact ⟨[], rfl⟩
      · rename_i content _
        refine ⟨[.file content.toList], ?_⟩
        show _ = (Settings.mergeToml? .default content.toList).getD .default
        cases Settings.mergeToml? .default content.toList <;> rfl
    · exact ⟨[], rfl⟩
  have hbase : ∃ ms, roots.head?.elim .default (fun root =>
      (Settings.discover d root).toOption.getD .default) = merged ms := by
    cases roots.head? with
    | none => exact ⟨[], rfl⟩
    | some root => exact hfile root
  obtain ⟨ms, hms⟩ := hbase
  rw [initialSettings, hms]
  cases options with
  | none => exact ⟨ms, rfl⟩
  | some v =>
    refine ⟨ms ++ [.payload v], ?_⟩
    rw [merged_concat]
    rfl

theorem settings_answer (s : Session) (request : Request) :
    (s.answer request).1.state.settings = s.state.settings ∨
      ∃ ms, (s.answer request).1.state.settings = merged ms := by
  cases request with
  | setUp roots options => exact .inr (exists_initialSettings _ _ _)
  | execute command arguments => exact .inl (s.settings_execute command arguments)
  | _ => exact .inl rfl

/-- The settings of a session come from merges. -/
theorem Reached.exists_merged (h : s.Reached) : ∃ ms, s.state.settings = merged ms := by
  induction h with
  | start d => exact ⟨[], rfl⟩
  | @request s h name params ih =>
    obtain ⟨ms, hms⟩ := ih
    rw [Session.request]
    split
    · exact ⟨ms, hms⟩
    split
    · exact ⟨ms, hms⟩
    · exact ⟨ms, hms⟩
    split
    · exact ⟨ms, hms⟩
    -- Leaving puts no settings in force.
    have hleave : ∀ b : Bool,
        (if b = true then s.leaveFor .shutDown else s).state.settings = s.state.settings := by
      intro b
      cases b <;> rfl
    dsimp only
    split
    · rename_i request _
      rcases settings_answer _ request with hkept | hmerged
      · exact ⟨ms, (hkept.trans (hleave _)).trans hms⟩
      · exact hmerged
    · exact ⟨ms, (hleave _).trans hms⟩
  | @notify s h name params ih =>
    obtain ⟨ms, hms⟩ := ih
    rw [Session.notify]
    split
    · exact ⟨ms, hms⟩
    split
    · split
      · exact ⟨ms, hms⟩
      split
      · rename_i notification _
        rcases s.settings_notice notification with hkept | ⟨payload, hmerge⟩
        · exact ⟨ms, hkept.trans hms⟩
        · exact ⟨ms ++ [.payload payload], by rw [hmerge, hms, merged_concat]; rfl⟩
      · exact ⟨ms, hms⟩
    · exact ⟨ms, hms⟩
  | @settle s h ih =>
    obtain ⟨ms, hms⟩ := ih
    exact ⟨ms, s.settings_settle.trans hms⟩
  | onDisk h d ih => exact ih

/-- The settings of a session are in normal form. -/
theorem Reached.isNormal (h : s.Reached) : s.state.settings.IsNormal := by
  obtain ⟨ms, hms⟩ := h.exists_merged
  rw [hms]
  exact isNormal_merged ms

/-! ### Notifications that set nothing -/

/-- A notification that sets nothing has no effect on settled settings; on others it has the
workspace scanned anew. -/
theorem notice_givesNothing {ms : List Merge} {payload : Json} (hpayload : GivesNothing payload)
    (hs : s.state.settings = merged ms) :
    ((merged ms).IsSettled → s.notice (.configured payload) = s) ∧
      (¬(merged ms).IsSettled → s.notice (.configured payload) =
        (s.update fun state => { state with settings := (merged ms).normalize }).index.1) := by
  have hafter := mergePayload_of_givesNothing hpayload (merged ms)
  have hself := normalize_merged_iff ms
  constructor
  · intro hsettled
    rw [notice, configure, hs, hafter]
    exact if_pos (hself.2 hsettled)
  · intro hsettled
    have hne : (merged ms).normalize ≠ merged ms := fun h => hsettled (hself.1 h)
    -- It is the extensions that change, and they say which files are looked at.
    have hindexing : (merged ms).normalize.indexing ≠ (merged ms).indexing := by
      intro h
      refine hsettled ((normalExtensions_merged_iff ms).1 ?_)
      exact (Key.extensions.get_normalize (merged ms)).symm.trans
        (congrArg IndexingSettings.extensions h)
    have haffects : affectsScan (merged ms) (merged ms).normalize = true := by
      simp [affectsScan, hindexing]
    rw [notice, configure, hs, hafter]
    dsimp only
    rw [if_neg hne, if_pos haffects]

/-- What merges make of the settings, and what is left to merges that give nothing.

Merged settings are in normal form, up to white space at the start of an extension, and there is
none if no extension is given with white space behind the dots in front of it. Bringing them into
normal form once more changes nothing exactly if there is none. Then a notification that gives
nothing is passed over; otherwise it changes the settings and has the workspace scanned anew. -/
theorem merged_normal_and_settled (ms : List Merge) :
    (merged ms).IsNormal ∧
      ((∀ layer ∈ ms.flatMap Merge.layers, ∀ es : List String, layer.Gives .extensions es →
        ∀ t ∈ es, ¬HasGap t) → (merged ms).IsSettled) ∧
      ((merged ms).normalize = merged ms ↔ (merged ms).IsSettled) ∧
      ∀ payload, GivesNothing payload →
        ((merged ms).mergePayload payload = merged ms ↔ (merged ms).IsSettled) ∧
        ∀ s : Session, s.state.settings = merged ms →
          ((merged ms).IsSettled → s.notice (.configured payload) = s) ∧
          (¬(merged ms).IsSettled → s.notice (.configured payload) =
            (s.update fun state => { state with settings := (merged ms).normalize }).index.1) := by
  have hself := normalize_merged_iff ms
  refine ⟨isNormal_merged ms, isSettled_merged, hself, fun payload hpayload => ⟨?_, fun s hs => ?_⟩⟩
  · rw [mergePayload_of_givesNothing hpayload, hself]
  · exact notice_givesNothing hpayload hs

/-- A session with the settings that merges give. -/
def configuredSession (ms : List Merge) : Session :=
  nodeSession.update fun state => { state with settings := merged ms }

/-- Extensions with dots, blanks and capital letters. -/
def spacedExtensions : List Merge :=
  [.payload (.obj [("indexing", .obj [("extensions", .arr [.str " ..H", .str "c\t"])])])]

/-- `merged_normal_and_settled` at a payload that sets nothing. -/
theorem merged_normal_and_settled_spacedExtensions :
    (merged spacedExtensions).indexing.extensions = ["h", "c"] ∧ GivesNothing (.obj []) ∧
      (merged spacedExtensions).IsSettled ∧
      (configuredSession spacedExtensions).notice (.configured (.obj [])) =
        configuredSession spacedExtensions := by
  have hsettled : (merged spacedExtensions).IsSettled := by decide +kernel
  obtain ⟨-, -, -, hnotice⟩ := merged_normal_and_settled spacedExtensions
  exact ⟨by decide +kernel, givesNothing_empty, hsettled,
    ((hnotice _ givesNothing_empty).2 _ rfl).1 hsettled⟩

/-- An extension with white space behind its dot. -/
def gappedExtension : List Merge :=
  [.payload (.obj [("indexing", .obj [("extensions", .arr [.str ". c"])])])]

/-- White space that stood behind a dot stays until settings are merged with something else, even if
that sets nothing. Then it is taken away, and the workspace is scanned anew. -/
theorem merged_not_settled_gappedExtension :
    let after := (configuredSession gappedExtension).notice (.configured (.obj []))
    (merged gappedExtension).indexing.extensions = [" c"] ∧
      (merged gappedExtension).mergePayload (.obj []) ≠ merged gappedExtension ∧
      after.state.settings.indexing.extensions = ["c"] ∧
      after.state.scans = (configuredSession gappedExtension).state.scans + 1 := by
  decide +kernel

end Server.Session

end StructUnfold
