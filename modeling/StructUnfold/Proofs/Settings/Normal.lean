import StructUnfold.Proofs.Distinct
import StructUnfold.Proofs.Settings.Key
import StructUnfold.Proofs.Text.Space

/-!
# Settings in normal form

Settings are brought into normal form whenever they are merged: numbers into their ranges, texts
without white space around them, lists without empty texts and repetitions. One pass is enough for
all settings but the file extensions. White space is taken away from these before the dots in front
of them are, so that what stood behind a dot may begin with white space.

## Main definitions

* `Settings.Key.normal`: the normal form of the value of a setting.
* `Settings.IsNormal`: settings are in normal form, up to white space before an extension.
* `Settings.IsSettled`: no extension begins with white space.

## Main results

* `Settings.Key.get_normalize`, `Settings.Key.normal_normal`: the normal form, key by key.
* `Settings.isNormal_normalize`: the normal form has the properties of one.
* `Settings.normalize_normalize_iff`: where a second pass changes nothing.
-/

namespace StructUnfold

namespace IndexingSettings

theorem mem_distinct_iff {texts : List String} {t : String} :
    t ∈ distinct texts ↔ t ∈ texts ∧ t ≠ "" := by
  simp [distinct, List.mem_eraseDups]

theorem nodup_distinct (texts : List String) : (distinct texts).Nodup :=
  nodup_eraseDups _

theorem distinct_eq_self {texts : List String} (hnodup : texts.Nodup) (h : ∀ t ∈ texts, t ≠ "") :
    distinct texts = texts := by
  rw [distinct, List.filter_eq_self.2 fun t ht => by simpa using h t ht, eraseDups_eq_self hnodup]

/-- Where texts are distinct, a change of some of them shows in the list. -/
theorem distinct_map_eq_self_iff {f : String → String} {texts : List String}
    (hnodup : texts.Nodup) (hne : ∀ t ∈ texts, t ≠ "") :
    distinct (texts.map f) = texts ↔ ∀ t ∈ texts, f t = t := by
  constructor
  · intro h
    have hsublist : (distinct (texts.map f)).Sublist (texts.map f) :=
      (eraseDupsBy_sublist _ _).trans List.filter_sublist
    rw [h] at hsublist
    have heq := hsublist.eq_of_length (by rw [List.length_map])
    rw [← List.map_id texts, List.map_map] at heq
    exact fun t ht => (List.map_inj_left.1 heq t ht).symm
  · intro h
    rw [List.map_congr_left h, List.map_id', distinct_eq_self hnodup hne]

end IndexingSettings

/-! ### Texts without white space around them -/

namespace Text

/-- A text that is trimmed does not begin with white space. -/
theorem not_isSpace_of_head?_trim {s : List Char} {c : Char} (h : (trim s).head? = some c) :
    isSpace c = false := by
  obtain ⟨t, ht, -⟩ := exists_dropEndWhile_append isSpace (trimStart s)
  have hfirst : (trimStart s).head? = some c := by
    obtain ⟨rest, hrest⟩ := List.head?_eq_some_iff.1 h
    rw [ht, ← trimEnd, ← trim, hrest]
    rfl
  exact not_of_head?_dropWhile hfirst

/-- A text that is trimmed does not end in white space. -/
theorem not_isSpace_of_getLast?_trim {s : List Char} {c : Char}
    (h : (trim s).getLast? = some c) : isSpace c = false :=
  not_of_getLast?_dropEndWhile h

theorem trim_trim (s : List Char) : trim (trim s) = trim s :=
  trim_eq_self (fun _ => not_isSpace_of_head?_trim) fun _ => not_isSpace_of_getLast?_trim

end Text

/-! ### Extensions -/

namespace IndexingSettings

open Text

/-- An extension in normal form, but for white space at its start. -/
structure IsExtension (e : String) : Prop where
  /-- It is not empty. -/
  ne_empty : e ≠ ""
  /-- It has no dot in front. -/
  no_dot : e.toList.head? ≠ some '.'
  /-- It has no capital letters. -/
  lower : ∀ c ∈ e.toList, c.isUpper = false
  /-- It does not end in white space. -/
  no_space : e.toList.getLast?.any isSpace = false

instance : DecidablePred IsExtension := fun e =>
  have : Decidable (∀ c ∈ e.toList, c.isUpper = false) := List.decidableBAll _ _
  decidable_of_iff (e ≠ "" ∧ e.toList.head? ≠ some '.' ∧ (∀ c ∈ e.toList, c.isUpper = false) ∧
      e.toList.getLast?.any isSpace = false)
    ⟨fun ⟨h₁, h₂, h₃, h₄⟩ => ⟨h₁, h₂, h₃, h₄⟩, fun ⟨h₁, h₂, h₃, h₄⟩ => ⟨h₁, h₂, h₃, h₄⟩⟩

/-- A text begins with white space. -/
def BeginsBlank (t : String) : Prop :=
  t.toList.head?.any isSpace = true

instance : DecidablePred BeginsBlank := fun t =>
  inferInstanceAs (Decidable (t.toList.head?.any isSpace = true))

/-- A capital letter is moved among the small ones, all else is left alone. -/
theorem toLower_cases (c : Char) :
    (65 ≤ c.toNat ∧ c.toNat ≤ 90 ∧ c.toLower.toNat = c.toNat + 32) ∨
      c.isUpper = false ∧ c.toLower = c := by
  by_cases h : c.val ≥ 'A'.val ∧ c.val ≤ 'Z'.val
  · refine .inl ⟨UInt32.le_iff_toNat_le.1 h.1, UInt32.le_iff_toNat_le.1 h.2, ?_⟩
    have hle : c.val.toNat ≤ 90 := UInt32.le_iff_toNat_le.1 h.2
    have hlower : c.toLower.toNat = (c.val + 32).toNat := congrArg Char.toNat (dif_pos h)
    rw [hlower, UInt32.toNat_add]
    show (c.val.toNat + 32) % 4294967296 = c.val.toNat + 32
    omega
  · exact .inr ⟨decide_eq_false h, dif_neg h⟩

theorem isUpper_toLower (c : Char) : c.toLower.isUpper = false := by
  rcases toLower_cases c with ⟨hge, -, hlower⟩ | ⟨hupper, hlower⟩
  · refine decide_eq_false fun h => ?_
    have hle : c.toLower.toNat ≤ 90 := UInt32.le_iff_toNat_le.1 h.2
    omega
  · rw [hlower, hupper]

theorem toLower_eq_self {c : Char} (h : c.isUpper = false) : c.toLower = c :=
  dif_neg (of_decide_eq_false h)

/-- Letters are no white space. -/
theorem isSpace_toLower (c : Char) : isSpace c.toLower = isSpace c := by
  rcases toLower_cases c with ⟨hge, hle, hlower⟩ | ⟨-, hlower⟩
  · have hletter : ∀ d : Char, 65 ≤ d.toNat → d.toNat ≤ 122 → isSpace d = false := by
      intro d hd hd'
      simp only [isSpace, Bool.or_eq_false_iff, Bool.and_eq_false_iff, decide_eq_false_iff_not,
        beq_eq_false_iff_ne]
      omega
    rw [hletter c hge (by omega), hletter c.toLower (by omega) (by omega)]
  · rw [hlower]

theorem eq_dot_of_toLower {c : Char} (h : c.toLower = '.') : c = '.' := by
  rcases toLower_cases c with ⟨hge, -, hlower⟩ | ⟨-, hlower⟩
  · have hdot : ('.' : Char).toNat = 46 := rfl
    rw [h] at hlower
    omega
  · rwa [hlower] at h

theorem toList_normalizeExtension (t : String) : (normalizeExtension t).toList =
    ((trim t.toList).dropWhile (· == '.')).map Char.toLower :=
  String.toList_ofList

/-- What is left of a text is an extension. -/
theorem isExtension_normalizeExtension {t : String} (h : normalizeExtension t ≠ "") :
    IsExtension (normalizeExtension t) where
  ne_empty := h
  no_dot := by
    intro hhead
    rw [toList_normalizeExtension, List.head?_map, Option.map_eq_some_iff] at hhead
    obtain ⟨c, hc, hlower⟩ := hhead
    -- Lower case makes a dot of nothing but a dot.
    have hnot := not_of_head?_dropWhile hc
    rw [eq_dot_of_toLower hlower] at hnot
    cases hnot
  lower := by
    intro c hc
    rw [toList_normalizeExtension, List.mem_map] at hc
    obtain ⟨d, -, rfl⟩ := hc
    exact isUpper_toLower d
  no_space := by
    rw [Option.any_eq_false]
    intro c hc
    rw [toList_normalizeExtension, List.getLast?_map, Option.map_eq_some_iff] at hc
    obtain ⟨d, hd, rfl⟩ := hc
    obtain ⟨dots, hdots⟩ := List.dropWhile_suffix (· == '.') (l := trim t.toList)
    rw [isSpace_toLower]
    refine not_isSpace_of_getLast?_trim (s := t.toList) ?_
    rw [← hdots, List.getLast?_append_of_ne_nil _ (by rintro hnil; rw [hnil] at hd; cases hd), hd]

/-- White space at the start of a text gets lost. -/
theorem length_trim_lt {s : List Char} (h : s.head?.any isSpace = true) :
    (trim s).length < s.length := by
  cases s with
  | nil => cases h
  | cons c s =>
    have htrim := trim_append_of_all s (List.forall_mem_singleton.2 (h : isSpace c = true))
    rw [List.singleton_append] at htrim
    rw [htrim, trim, trimEnd, dropEndWhile, List.length_reverse, List.length_cons]
    have hend := (List.dropWhile_sublist isSpace (l := (trimStart s).reverse)).length_le
    have hstart := (List.dropWhile_sublist isSpace (l := s)).length_le
    rw [List.length_reverse] at hend
    exact Nat.lt_succ_of_le (Nat.le_trans hend hstart)

/-- An extension is left alone unless it begins with white space. -/
theorem normalizeExtension_eq_self_iff {e : String} (h : IsExtension e) :
    normalizeExtension e = e ↔ ¬BeginsBlank e := by
  rw [← String.toList_inj, toList_normalizeExtension]
  constructor
  · intro heq hblank
    have hlength := congrArg List.length heq
    rw [List.length_map] at hlength
    have hdots := (List.dropWhile_sublist (· == '.') (l := trim e.toList)).length_le
    -- White space is trimmed away and nothing is put in its place, so the result is shorter.
    have hlt := length_trim_lt hblank
    omega
  · intro hblank
    have hstart : ∀ c, e.toList.head? = some c → isSpace c = false := by
      intro c hc
      rw [BeginsBlank, hc] at hblank
      simpa using hblank
    have hend : ∀ c, e.toList.getLast? = some c → isSpace c = false := by
      intro c hc
      have hno := h.no_space
      rwa [hc] at hno
    -- No dot is dropped.
    have hdots : e.toList.dropWhile (· == '.') = e.toList := by
      cases hchars : e.toList with
      | nil => rfl
      | cons c cs =>
        have hne := h.no_dot
        rw [hchars] at hne
        exact List.dropWhile_cons_of_neg (by simpa using hne)
    rw [trim_eq_self hstart hend, hdots,
      List.map_congr_left fun c hc => toLower_eq_self (h.lower c hc), List.map_id']

theorem trimmed_trimmed (t : String) : trimmed (trimmed t) = trimmed t := by
  rw [trimmed, trimmed, String.toList_ofList, trim_trim]

end IndexingSettings

/-! ### Normal forms by key -/

namespace Settings

open IndexingSettings

/-- The normal form of extensions. -/
def normalExtensions (es : List String) : List String :=
  if distinct (es.map normalizeExtension) = [] then defaultExtensions
  else distinct (es.map normalizeExtension)

/-- The normal form of a results directory. -/
def normalDirectory (d : String) : String :=
  if Text.trim d.toList = [] then OutputSettings.defaultDirectory else trimmed d

/-- The normal form of the value of a setting. -/
def Key.normal : (k : Key) → k.kind.Value → k.kind.Value
  | indexingEnable => id
  | extensions => normalExtensions
  | maxFileSizeKb => clamp 16 65536
  | excludePaths => fun ps => distinct (ps.map trimmed)
  | indentWidth => clamp 0 16
  | maxDepth => clamp 1 1024
  | maxScanBytes => clamp 1024 67108864
  | maxAliasHops => clamp 0 4096
  | directory => normalDirectory
  | showDocument => id
  | hoverEnable => id
  | loggingLevel => id

theorem Key.get_normalize (s : Settings) (k : Key) : k.get s.normalize = k.normal (k.get s) := by
  cases k with
  | extensions =>
    show (if (distinct _).isEmpty then _ else _) = normalExtensions _
    simp only [normalExtensions, List.isEmpty_iff]
    rfl
  | directory =>
    show (OutputSettings.normalize _).directory = normalDirectory _
    simp only [OutputSettings.normalize, normalDirectory, List.isEmpty_iff]
    rfl
  | _ => rfl

theorem clamp_bounds {low high : Nat} (n : Nat) (h : low ≤ high) :
    low ≤ clamp low high n ∧ clamp low high n ≤ high := by
  simp only [clamp]
  omega

theorem clamp_clamp {low high : Nat} (n : Nat) (h : low ≤ high) :
    clamp low high (clamp low high n) = clamp low high n := by
  simp only [clamp]
  omega

/-- Excluded paths in normal form. -/
theorem trimmed_of_mem_distinct {ps : List String} {p : String}
    (h : p ∈ distinct (ps.map trimmed)) : p ≠ "" ∧ trimmed p = p := by
  obtain ⟨hmem, hne⟩ := mem_distinct_iff.1 h
  obtain ⟨t, -, rfl⟩ := List.mem_map.1 hmem
  exact ⟨hne, trimmed_trimmed t⟩

/-- A results directory in normal form. -/
theorem trimmed_normalDirectory (d : String) :
    normalDirectory d ≠ "" ∧ trimmed (normalDirectory d) = normalDirectory d := by
  rw [normalDirectory]
  split
  · exact ⟨by decide, by decide⟩
  · rename_i h
    refine ⟨fun hempty => h ?_, trimmed_trimmed d⟩
    rw [trimmed] at hempty
    exact (String.ofList_eq_empty_iff.1 hempty)

/-- Extensions in normal form. -/
theorem isExtension_normalExtensions (es : List String) :
    normalExtensions es ≠ [] ∧ (normalExtensions es).Nodup ∧
      ∀ e ∈ normalExtensions es, IsExtension e := by
  rw [normalExtensions]
  split
  · exact ⟨by decide, by decide, by decide⟩
  · rename_i h
    refine ⟨h, nodup_distinct _, fun e he => ?_⟩
    obtain ⟨hmem, hne⟩ := mem_distinct_iff.1 he
    obtain ⟨t, -, rfl⟩ := List.mem_map.1 hmem
    exact isExtension_normalizeExtension hne

/-- One pass is enough for all settings but the extensions. -/
theorem Key.normal_normal {k : Key} (hk : k ≠ extensions) (x : k.kind.Value) :
    k.normal (k.normal x) = k.normal x := by
  cases k with
  | extensions => exact absurd rfl hk
  | maxFileSizeKb | indentWidth | maxDepth | maxScanBytes | maxAliasHops =>
    exact clamp_clamp _ (by decide)
  | excludePaths =>
    exact (distinct_map_eq_self_iff (nodup_distinct _)
      fun _ hp => (trimmed_of_mem_distinct hp).1).2 fun _ hp => (trimmed_of_mem_distinct hp).2
  | directory =>
    obtain ⟨hne, htrimmed⟩ := trimmed_normalDirectory x
    have hnil : Text.trim (normalDirectory x).toList ≠ [] := by
      intro hnil
      rw [← htrimmed, trimmed, hnil] at hne
      exact hne rfl
    exact (if_neg hnil).trans htrimmed
  | _ => rfl

/-- Extensions in normal form are left alone unless one of them begins with white space. -/
theorem normalExtensions_eq_self_iff {es : List String} (hne : es ≠ []) (hnodup : es.Nodup)
    (h : ∀ e ∈ es, IsExtension e) : normalExtensions es = es ↔ ∀ e ∈ es, ¬BeginsBlank e := by
  have hmap : distinct (es.map normalizeExtension) = es ↔ ∀ e ∈ es, ¬BeginsBlank e := by
    rw [distinct_map_eq_self_iff hnodup fun e he => (h e he).ne_empty]
    exact forall₂_congr fun e he => normalizeExtension_eq_self_iff (h e he)
  rw [normalExtensions]
  split
  · rename_i hnil
    constructor
    · rintro rfl
      decide
    · intro hblank
      exact absurd ((hmap.2 hblank).symm.trans hnil) hne
  · exact hmap

/-! ### Settings -/

/-- Settings are in normal form, up to white space at the start of an extension. -/
structure IsNormal (s : Settings) : Prop where
  /-- The largest size of a source file is in its range. -/
  maxFileSizeKb : 16 ≤ s.indexing.maxFileSizeKb ∧ s.indexing.maxFileSizeKb ≤ 65536
  /-- There is an extension. -/
  extensions_ne_nil : s.indexing.extensions ≠ []
  /-- No extension is there twice. -/
  extensions_nodup : s.indexing.extensions.Nodup
  /-- Extensions are in normal form, up to white space at their start. -/
  extensions : ∀ e ∈ s.indexing.extensions, IsExtension e
  /-- No excluded path is there twice. -/
  excludePaths_nodup : s.indexing.excludePaths.Nodup
  /-- Excluded paths are not empty and have no white space around them. -/
  excludePaths : ∀ p ∈ s.indexing.excludePaths, p ≠ "" ∧ trimmed p = p
  /-- The number of columns is in its range. -/
  indentWidth : s.flatten.indentWidth ≤ 16
  /-- The number of levels is in its range. -/
  maxDepth : 1 ≤ s.flatten.maxDepth ∧ s.flatten.maxDepth ≤ 1024
  /-- The number of bytes is in its range. -/
  maxScanBytes : 1024 ≤ s.flatten.maxScanBytes ∧ s.flatten.maxScanBytes ≤ 67108864
  /-- The length of chains is in its range. -/
  maxAliasHops : s.flatten.maxAliasHops ≤ 4096
  /-- The results directory is not empty and has no white space around it. -/
  directory : s.output.directory ≠ "" ∧ trimmed s.output.directory = s.output.directory

/-- No extension begins with white space. -/
def IsSettled (s : Settings) : Prop :=
  ∀ e ∈ s.indexing.extensions, ¬BeginsBlank e

instance : DecidablePred IsSettled := fun s =>
  inferInstanceAs (Decidable (∀ e ∈ s.indexing.extensions, ¬BeginsBlank e))

/-- What is brought into normal form is in normal form. -/
theorem isNormal_normalize (s : Settings) : s.normalize.IsNormal := by
  obtain ⟨hne, hnodup, hext⟩ := isExtension_normalExtensions s.indexing.extensions
  have hextensions : s.normalize.indexing.extensions = normalExtensions s.indexing.extensions :=
    Key.extensions.get_normalize s
  have hdirectory : s.normalize.output.directory = normalDirectory s.output.directory :=
    Key.directory.get_normalize s
  exact {
    maxFileSizeKb := clamp_bounds _ (by decide)
    extensions_ne_nil := by rwa [hextensions]
    extensions_nodup := by rwa [hextensions]
    extensions := by rwa [hextensions]
    excludePaths_nodup := nodup_distinct _
    excludePaths := fun _ hp => trimmed_of_mem_distinct hp
    indentWidth := (clamp_bounds _ (by decide)).2
    maxDepth := clamp_bounds _ (by decide)
    maxScanBytes := clamp_bounds _ (by decide)
    maxAliasHops := (clamp_bounds _ (by decide)).2
    directory := by
      rw [hdirectory]
      exact trimmed_normalDirectory _ }

/-- A second pass changes nothing unless an extension begins with white space. -/
theorem normalize_normalize_iff (s : Settings) :
    s.normalize.normalize = s.normalize ↔ s.normalize.IsSettled := by
  have hnormal := s.isNormal_normalize
  have hiff := normalExtensions_eq_self_iff hnormal.extensions_ne_nil hnormal.extensions_nodup
    hnormal.extensions
  rw [IsSettled, ← hiff]
  constructor
  · intro h
    exact (Key.extensions.get_normalize s.normalize).symm.trans (congrArg Key.extensions.get h)
  · intro h
    refine Key.eq_of_get_eq fun k => ?_
    by_cases hk : k = .extensions
    · subst hk
      exact (Key.extensions.get_normalize s.normalize).trans h
    · rw [k.get_normalize, k.get_normalize, Key.normal_normal hk]

end Settings

end StructUnfold
