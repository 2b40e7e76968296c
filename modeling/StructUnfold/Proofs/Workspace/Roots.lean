import StructUnfold.Proofs.Distinct
import StructUnfold.Proofs.Workspace.Loops

/-!
# Roots that overlap

The roots of a workspace may be listed repeatedly, lie in each other or be linked to each other.
The source files are the same ones all the same, each found once, and those that can be reached from
some root. A directory that is listed beside one above it adds nothing to what is found from there.
But this does not hold of a directory that is passed over for its name, for a root is looked through
whatever its name is, nor where exclusions are relative, for they hold beneath each root.

## Main definitions

* `Workspace.IsSourceFile`: a source file that can be reached from a root.
* `Workspace.MeetsOnce`: no file that is too large is met twice.
* `Workspace.FindsSources`: what is found, and what it depends on.
* `Workspace.FindsOnce`: each file is found once.

## Main results

* `Workspace.files_eq`: files are told apart by where they stand.
* `Workspace.mem_files_iff`: the files that are found.
* `Workspace.exists_tooLarge`: the files that are too large, and how many there are.
* `Workspace.discover_finds_once`: this is so on every disk that is a tree.
-/

namespace StructUnfold.Workspace

/-- A file that is larger than it may be. -/
def Exceeds (d : Disk) (settings : IndexingSettings) (place : Place) : Prop :=
  ∃ entry, d.entryAt? place = some entry ∧ settings.maxFileSizeBytes < entry.size

/-- What is met is a file that is known to be larger than it may be; the size of a file cannot be
asked for through a path that is too long. -/
structure IsTooLarge (d : Disk) (settings : IndexingSettings) (v : Visit) : Prop where
  /-- Its path is taken by the system. -/
  short : v.path.bytes.length ≤ Disk.maxPathBytes
  /-- It is larger than it may be. -/
  exceeds : Exceeds d settings v.place

/-- A source file that is reached from one of the roots. -/
structure IsSourceFile (d : Disk) (roots : List Path) (settings : IndexingSettings) (v : Visit) :
    Prop where
  /-- It is reached from a root. -/
  reached : ∃ root ∈ roots, ∃ place, d.resolve root = .ok place ∧
    Reaches d (excludedPrefixes d roots settings.excludePaths) ⟨root, place⟩ v
  /-- It is a file. -/
  file : (d.entryAt? v.place).any DiskEntry.isFile = true
  /-- It has the extension of a source file. -/
  extension : hasExtension settings.extensions v.path = true

/-- A source file is met beneath the root of some number. -/
structure MeetsFile (d : Disk) (roots : List Path) (settings : IndexingSettings) (i : Nat)
    (v : Visit) : Prop where
  /-- It is found beneath that root. -/
  found : ∃ root, roots[i]? = some root ∧
    v ∈ filesUnder d (excludedPrefixes d roots settings.excludePaths) root
  /-- It has the extension of a source file. -/
  extension : hasExtension settings.extensions v.path = true

/-- No file that is too large is met twice, beneath two roots or on two paths beneath one. -/
def MeetsOnce (d : Disk) (roots : List Path) (settings : IndexingSettings) : Prop :=
  ∀ i j v w, MeetsFile d roots settings i v → MeetsFile d roots settings j w →
    IsTooLarge d settings v → IsTooLarge d settings w → v.place = w.place → i = j ∧ v = w

/-- What is found in and beneath the roots where all that is reached is known by the path of its
place, and what it depends on. -/
structure FindsSources (d : Disk) (roots : List Path) (settings : IndexingSettings) : Prop where
  /-- What is found is a source file that is not known to be too large. -/
  sound : ∀ path ∈ (discover d roots settings).files, ∃ v, IsSourceFile d roots settings v ∧
    ¬IsTooLarge d settings v ∧ .ofNames v.place = path
  /-- All source files that are not too large are found. -/
  complete : ∀ v, IsSourceFile d roots settings v → ¬Exceeds d settings v.place →
    .ofNames v.place ∈ (discover d roots settings).files
  /-- Those that are too large are counted, if each of them is met once. -/
  skipped : ∃ large : List Place, large.Nodup ∧
    (∀ place, place ∈ large ↔ ∃ v, IsSourceFile d roots settings v ∧ IsTooLarge d settings v ∧
      v.place = place) ∧
    (MeetsOnce d roots settings → (discover d roots settings).skipped = large.length)
  /-- It does not matter how often and in which order roots are listed. -/
  repeated : ∀ others : List Path, (∀ root, root ∈ others ↔ root ∈ roots) → ∀ path,
    path ∈ (discover d others settings).files ↔ path ∈ (discover d roots settings).files
  /-- Listing what is reached from a root beside it, where this excludes nothing more, adds nothing
  but files that are too large and met there on a path too long to ask for their size. -/
  nested : ∀ root ∈ roots, ∀ place s, d.resolve root = .ok place →
    Reaches d (excludedPrefixes d roots settings.excludePaths) ⟨root, place⟩ s →
    (∀ p : Place,
      isExcluded (excludedPrefixes d [s.path] settings.excludePaths) (.ofNames p) = true →
      isExcluded (excludedPrefixes d roots settings.excludePaths) (.ofNames p) = true) →
    ∀ path, path ∈ (discover d (s.path :: roots) settings).files ↔
      path ∈ (discover d roots settings).files ∨
        ∃ v ∈ filesUnder d (excludedPrefixes d roots settings.excludePaths) s.path,
          hasExtension settings.extensions v.path = true ∧
          Disk.maxPathBytes < v.path.bytes.length ∧ Exceeds d settings v.place ∧
          .ofNames v.place = path

/-- What is found in and beneath the roots. -/
structure FindsOnce (d : Disk) (roots : List Path) (settings : IndexingSettings) : Prop where
  /-- No file is found twice. -/
  nodup : (discover d roots settings).files.Nodup
  /-- Files are found by their normal forms, which have no links. -/
  canonical : ∀ path ∈ (discover d roots settings).files, d.normalize path = path
  /-- No file is found beneath an excluded path. -/
  included : ∀ path ∈ (discover d roots settings).files,
    ∀ p ∈ excludedPrefixes d roots settings.excludePaths, path.startsWith p = false
  /-- The source files are found, if all that is reached is known by the path of its place. -/
  sources : (∀ root ∈ roots, Normalizes d root) → FindsSources d roots settings

variable {d : Disk} {roots : List Path} {settings : IndexingSettings} {excluded : List Path}
  {root s v w : Visit}

/-! ### Exclusions -/

theorem isExcluded_eq_true_iff {path : Path} :
    isExcluded excluded path = true ↔ ∃ p ∈ excluded, path.startsWith p = true := by
  simp [isExcluded]

/-- An exclusion is one of some root. -/
theorem mem_excludedPrefixes_iff {texts : List String} {p : Path} :
    p ∈ excludedPrefixes d roots texts ↔ ∃ text ∈ texts,
      if (Path.ofString text).isAbsolute then p = d.normalize (.ofString text)
      else ∃ root ∈ roots, p = d.normalize (root.join (.ofString text)) := by
  rw [excludedPrefixes, List.mem_flatMap]
  refine exists_congr fun text => and_congr_right fun _ => ?_
  dsimp only
  split
  · exact List.mem_singleton
  · rw [List.mem_map]
    exact exists_congr fun root => and_congr_right fun _ => eq_comm

/-- What is met depends on what is excluded, not on how that is said. -/
theorem Meets.congr {others : List Path} {around : List Place}
    (hsame : ∀ u, Reaches d [] root u →
      isExcluded excluded (d.normalize u.path) = isExcluded others (d.normalize u.path))
    (h : Meets d excluded root around v) : Meets d others root around v := by
  induction h with
  | root h =>
    rw [hsame root (.root rfl)] at h
    exact .root h
  | step hv h ih =>
    have hincluded := h.included
    rw [hsame _ (hv.reaches.step h.nil).unexcluded] at hincluded
    exact .step ih ⟨h.directory, h.short, h.entry, hincluded, h.kept⟩

/-- So it is with what is found, where things are known by the paths of their places. -/
theorem mem_filesUnder_congr (hd : d.IsTree) {others : List Path} {path : Path}
    (hnormal : Normalizes d path)
    (h : ∀ p : Place, isExcluded excluded (.ofNames p) = isExcluded others (.ofNames p)) :
    v ∈ filesUnder d excluded path ↔ v ∈ filesUnder d others path := by
  simp only [mem_filesUnder_iff hd]
  refine exists_congr fun place => and_congr_right fun hplace => ?_
  have hsame : ∀ u, Reaches d [] ⟨path, place⟩ u →
      isExcluded excluded (d.normalize u.path) = isExcluded others (d.normalize u.path) := by
    intro u hu
    rw [hnormal place u hplace hu, h]
  refine and_congr_left fun _ => exists_congr fun around => ?_
  exact ⟨Meets.congr hsame, Meets.congr fun u hu => (hsame u hu).symm⟩

/-! ### What is found -/

/-- Whether what is met is too large. -/
def isTooLarge (d : Disk) (settings : IndexingSettings) (v : Visit) : Bool :=
  v.path.bytes.length ≤ Disk.maxPathBytes &&
    (d.entryAt? v.place).any fun entry => settings.maxFileSizeBytes < entry.size

theorem isTooLarge_eq_true_iff : isTooLarge d settings v = true ↔ IsTooLarge d settings v := by
  rw [isTooLarge, Bool.and_eq_true, decide_eq_true_eq, Option.any_eq_true]
  simp only [decide_eq_true_eq]
  exact ⟨fun ⟨hshort, hexceeds⟩ => ⟨hshort, hexceeds⟩, fun h => ⟨h.short, h.exceeds⟩⟩

/-- The source files that are met in and beneath the roots. -/
def met (d : Disk) (roots : List Path) (settings : IndexingSettings) : List Visit :=
  (roots.flatMap (filesUnder d (excludedPrefixes d roots settings.excludePaths))).filter fun v =>
    hasExtension settings.extensions v.path

theorem mem_met_iff :
    v ∈ met d roots settings ↔ (∃ root ∈ roots,
      v ∈ filesUnder d (excludedPrefixes d roots settings.excludePaths) root) ∧
      hasExtension settings.extensions v.path = true := by
  rw [met, List.mem_filter, List.mem_flatMap]

/-- What is met is reached. -/
theorem isSourceFile_of_mem_met (hd : d.IsTree) (h : v ∈ met d roots settings) :
    IsSourceFile d roots settings v := by
  obtain ⟨⟨root, hroot, hv⟩, hext⟩ := mem_met_iff.1 h
  obtain ⟨place, hplace, ⟨around, hmeets⟩, hfile⟩ := (mem_filesUnder_iff hd).1 hv
  exact ⟨⟨root, hroot, place, hplace, hmeets.reaches⟩, hfile, hext⟩

theorem stands_of_mem_met (hd : d.IsTree) (h : v ∈ met d roots settings) : d.Stands v.place := by
  obtain ⟨⟨root, -, place, hplace, hreaches⟩, -, -⟩ := isSourceFile_of_mem_met hd h
  exact hreaches.stands hd (hd.stands_of_resolve hplace)

theorem normalize_of_mem_met (hd : d.IsTree) (hnormal : ∀ root ∈ roots, Normalizes d root)
    (h : v ∈ met d roots settings) : d.normalize v.path = .ofNames v.place := by
  obtain ⟨⟨root, hroot, place, hplace, hreaches⟩, -, -⟩ := isSourceFile_of_mem_met hd h
  exact hnormal root hroot place v hplace hreaches.unexcluded

/-- Where things are known by the paths of their places, the files that are found are told apart by
where they stand. -/
theorem files_eq (hd : d.IsTree) (hnormal : ∀ root ∈ roots, Normalizes d root) :
    (discover d roots settings).files =
      (((met d roots settings).filter fun v => !isTooLarge d settings v).map
        Visit.place).eraseDups.map Path.ofNames := by
  have hfiles : (discover d roots settings).files =
      (((met d roots settings).filter fun v => !isTooLarge d settings v).map fun v =>
        d.normalize v.path).eraseDupsBy Path.same := rfl
  have hplaces : (((met d roots settings).filter fun v => !isTooLarge d settings v).map fun v =>
      d.normalize v.path) =
        (((met d roots settings).filter fun v => !isTooLarge d settings v).map
          Visit.place).map Path.ofNames := by
    rw [List.map_map]
    exact List.map_congr_left fun v hv =>
      normalize_of_mem_met hd hnormal (List.mem_of_mem_filter hv)
  have hproper : ∀ place ∈ ((met d roots settings).filter fun v =>
      !isTooLarge d settings v).map Visit.place, ∀ name ∈ place, name.IsProper := by
    intro place hplace
    obtain ⟨v, hv, rfl⟩ := List.mem_map.1 hplace
    exact (stands_of_mem_met hd (List.mem_of_mem_filter hv)).isProper
  rw [hfiles, hplaces]
  exact eraseDupsBy_map _ fun p hp q hq => Path.same_ofNames (hproper p hp) (hproper q hq)

/-- The files that are found. -/
theorem mem_files_iff (hd : d.IsTree) (hnormal : ∀ root ∈ roots, Normalizes d root) {path : Path} :
    path ∈ (discover d roots settings).files ↔
      ∃ v ∈ met d roots settings, ¬IsTooLarge d settings v ∧ .ofNames v.place = path := by
  simp only [files_eq hd hnormal, List.mem_map, List.mem_eraseDups, List.mem_filter,
    Bool.not_eq_true', ← Bool.not_eq_true, isTooLarge_eq_true_iff]
  constructor
  · rintro ⟨_, ⟨v, ⟨hmet, hlarge⟩, rfl⟩, hpath⟩
    exact ⟨v, hmet, hlarge, hpath⟩
  · rintro ⟨v, hmet, hlarge, hpath⟩
    exact ⟨v.place, ⟨v, ⟨hmet, hlarge⟩, rfl⟩, hpath⟩

/-- What is reached is met, if on another path. -/
theorem IsSourceFile.exists_mem_met (hd : d.IsTree) (hnormal : ∀ root ∈ roots, Normalizes d root)
    (h : IsSourceFile d roots settings w) :
    ∃ v ∈ met d roots settings, Replaces d v w := by
  obtain ⟨root, hroot, place, hplace, hreaches⟩ := h.reached
  obtain ⟨around, v, hmeets, hreplaces, hname⟩ :=
    hreaches.exists_meets hd (hnormal root hroot) hplace
  have hdirectory : d.entryAt? w.place ≠ some .directory := by
    intro hentry
    have hfile := h.file
    rw [hentry] at hfile
    cases hfile
  have hext : hasExtension settings.extensions v.path = true := by
    rw [← h.extension, hasExtension, hasExtension, Path.extension?, Path.extension?,
      hname hdirectory]
  have hfile : (d.entryAt? v.place).any DiskEntry.isFile = true := by
    rw [hreplaces.place]
    exact h.file
  refine ⟨v, mem_met_iff.2 ⟨⟨root, hroot, ?_⟩, hext⟩, hreplaces⟩
  exact (mem_filesUnder_iff hd).2 ⟨place, hplace, ⟨around, hmeets⟩, hfile⟩

theorem included_of_mem_filesUnder (hd : d.IsTree) {path : Path}
    (h : v ∈ filesUnder d excluded path) : isExcluded excluded (d.normalize v.path) = false := by
  obtain ⟨place, -, ⟨around, hmeets⟩, -⟩ := (mem_filesUnder_iff hd).1 h
  exact hmeets.included

/-- All source files that are not too large are found. -/
theorem IsSourceFile.mem_files (hd : d.IsTree) (hnormal : ∀ root ∈ roots, Normalizes d root)
    (h : IsSourceFile d roots settings v) (hlarge : ¬Exceeds d settings v.place) :
    .ofNames v.place ∈ (discover d roots settings).files := by
  obtain ⟨w, hmet, hreplaces⟩ := h.exists_mem_met hd hnormal
  rw [← hreplaces.place] at hlarge ⊢
  exact (mem_files_iff hd hnormal).2 ⟨w, hmet, fun htoo => hlarge htoo.exceeds, rfl⟩

/-! ### What is too large -/

/-- The places of the files that are met and too large, as often as they are met. -/
def largePlaces (d : Disk) (roots : List Path) (settings : IndexingSettings) : List Place :=
  ((met d roots settings).filter (isTooLarge d settings)).map Visit.place

theorem skipped_eq (d : Disk) (roots : List Path) (settings : IndexingSettings) :
    (discover d roots settings).skipped = (largePlaces d roots settings).length := by
  rw [largePlaces, List.length_map, ← List.countP_eq_length_filter]
  rfl

theorem mem_largePlaces_iff (hd : d.IsTree) (hnormal : ∀ root ∈ roots, Normalizes d root)
    {place : Place} :
    place ∈ largePlaces d roots settings ↔
      ∃ v, IsSourceFile d roots settings v ∧ IsTooLarge d settings v ∧ v.place = place := by
  rw [largePlaces, List.mem_map]
  constructor
  · rintro ⟨v, hv, rfl⟩
    obtain ⟨hmet, hlarge⟩ := List.mem_filter.1 hv
    exact ⟨v, isSourceFile_of_mem_met hd hmet, isTooLarge_eq_true_iff.1 hlarge, rfl⟩
  · rintro ⟨w, hw, hlarge, rfl⟩
    obtain ⟨v, hmet, hreplaces⟩ := hw.exists_mem_met hd hnormal
    refine ⟨v, List.mem_filter.2 ⟨hmet, isTooLarge_eq_true_iff.2 ⟨?_, ?_⟩⟩, hreplaces.place⟩
    · exact hreplaces.bytes.length_le.trans hlarge.short
    · rw [hreplaces.place]
      exact hlarge.exceeds

/-- Where no file that is too large is met twice, no place comes twice. -/
theorem MeetsOnce.nodup_largePlaces (hd : d.IsTree) (h : MeetsOnce d roots settings) :
    (largePlaces d roots settings).Nodup := by
  have hmeets : ∀ {i : Nat} {root : Path} {v : Visit}, roots[i]? = some root →
      v ∈ (filesUnder d (excludedPrefixes d roots settings.excludePaths) root).filter
        (fun v => isTooLarge d settings v && hasExtension settings.extensions v.path) →
      MeetsFile d roots settings i v ∧ IsTooLarge d settings v := by
    intro i root v hroot hv
    obtain ⟨hfound, hboth⟩ := List.mem_filter.1 hv
    obtain ⟨hlarge, hext⟩ := Bool.and_eq_true_iff.1 hboth
    exact ⟨⟨⟨root, hroot, hfound⟩, hext⟩, isTooLarge_eq_true_iff.1 hlarge⟩
  rw [largePlaces, met, List.filter_filter, List.filter_flatMap, List.map_flatMap,
    List.nodup_flatMap]
  constructor
  · -- Beneath one root.
    intro root hroot
    obtain ⟨i, hi⟩ := List.getElem?_of_mem hroot
    refine ((nodup_filesUnder hd root).filter _).map_on fun v hv w hw heq => ?_
    obtain ⟨hv, hlarge⟩ := hmeets hi hv
    obtain ⟨hw, hlarge'⟩ := hmeets hi hw
    exact (h i i v w hv hw hlarge hlarge' heq).2
  · -- Beneath different roots.
    refine List.pairwise_iff_getElem.2 fun i j hi hj hlt place hplace hplace' => ?_
    obtain ⟨v, hv, rfl⟩ := List.mem_map.1 hplace
    obtain ⟨w, hw, heq⟩ := List.mem_map.1 hplace'
    obtain ⟨hv, hlarge⟩ := hmeets (List.getElem?_eq_getElem hi) hv
    obtain ⟨hw, hlarge'⟩ := hmeets (List.getElem?_eq_getElem hj) hw
    exact Nat.ne_of_lt hlt (h i j v w hv hw hlarge hlarge' heq.symm).1

/-- The files that are too large, and how many there are. -/
theorem exists_tooLarge (hd : d.IsTree) (hnormal : ∀ root ∈ roots, Normalizes d root)
    (settings : IndexingSettings) :
    ∃ large : List Place, large.Nodup ∧
      (∀ place, place ∈ large ↔ ∃ v, IsSourceFile d roots settings v ∧ IsTooLarge d settings v ∧
        v.place = place) ∧
      (MeetsOnce d roots settings → (discover d roots settings).skipped = large.length) := by
  refine ⟨(largePlaces d roots settings).eraseDups, nodup_eraseDups _, fun place => ?_,
    fun h => ?_⟩
  · rw [List.mem_eraseDups, mem_largePlaces_iff hd hnormal]
  · rw [skipped_eq, eraseDups_eq_self (h.nodup_largePlaces hd)]

/-! ### Which roots are listed -/

theorem isExcluded_congr_roots {roots others : List Path} (texts : List String)
    (h : ∀ root, root ∈ others ↔ root ∈ roots) (path : Path) :
    isExcluded (excludedPrefixes d others texts) path =
      isExcluded (excludedPrefixes d roots texts) path := by
  rw [Bool.eq_iff_iff, isExcluded_eq_true_iff, isExcluded_eq_true_iff]
  simp only [mem_excludedPrefixes_iff, h]

/-- It does not matter how often and in which order roots are listed. -/
theorem mem_files_of_mem_iff (hd : d.IsTree) (hnormal : ∀ root ∈ roots, Normalizes d root)
    {others : List Path} (h : ∀ root, root ∈ others ↔ root ∈ roots) {path : Path} :
    path ∈ (discover d others settings).files ↔ path ∈ (discover d roots settings).files := by
  rw [mem_files_iff hd fun root hroot => hnormal root ((h root).1 hroot), mem_files_iff hd hnormal]
  simp only [mem_met_iff, h]
  refine exists_congr fun v => and_congr_left fun _ => and_congr_left fun _ => ?_
  refine exists_congr fun root => and_congr_right fun hroot => ?_
  exact mem_filesUnder_congr hd (hnormal root hroot) fun p =>
    isExcluded_congr_roots settings.excludePaths h (.ofNames p)

theorem mem_excludedPrefixes_cons {texts : List String} {path p : Path} :
    p ∈ excludedPrefixes d (path :: roots) texts ↔
      p ∈ excludedPrefixes d [path] texts ∨ p ∈ excludedPrefixes d roots texts := by
  simp only [mem_excludedPrefixes_iff, ← exists_or, ← and_or_left]
  refine exists_congr fun text => and_congr_right fun _ => ?_
  split
  · rw [or_self]
  · simp only [List.exists_mem_cons_iff, List.mem_singleton, exists_eq_left]

/-- A root that does not exclude a path that was not excluded before changes nothing for it. -/
theorem isExcluded_cons {texts : List String} {path p : Path}
    (h : isExcluded (excludedPrefixes d [path] texts) p = true →
      isExcluded (excludedPrefixes d roots texts) p = true) :
    isExcluded (excludedPrefixes d (path :: roots) texts) p =
      isExcluded (excludedPrefixes d roots texts) p := by
  rw [Bool.eq_iff_iff]
  constructor
  · intro hexcluded
    obtain ⟨q, hq, hstarts⟩ := isExcluded_eq_true_iff.1 hexcluded
    rcases mem_excludedPrefixes_cons.1 hq with hq | hq
    · exact h (isExcluded_eq_true_iff.2 ⟨q, hq, hstarts⟩)
    · exact isExcluded_eq_true_iff.2 ⟨q, hq, hstarts⟩
  · intro hexcluded
    obtain ⟨q, hq, hstarts⟩ := isExcluded_eq_true_iff.1 hexcluded
    exact isExcluded_eq_true_iff.2 ⟨q, mem_excludedPrefixes_cons.2 (.inr hq), hstarts⟩

/-- What is found from what is reached from a root is reached from that root. -/
theorem IsSourceFile.of_reaches (hd : d.IsTree) {path : Path} {place : Place}
    (hroot : path ∈ roots) (hplace : d.resolve path = .ok place)
    (hs : Reaches d (excludedPrefixes d roots settings.excludePaths) ⟨path, place⟩ s)
    (hv : v ∈ filesUnder d (excludedPrefixes d roots settings.excludePaths) s.path)
    (hext : hasExtension settings.extensions v.path = true) : IsSourceFile d roots settings v := by
  obtain ⟨found, hfound, ⟨around, hmeets⟩, hfile⟩ := (mem_filesUnder_iff hd).1 hv
  obtain rfl := hs.eq_of_resolve hd hplace hfound
  exact ⟨⟨path, hroot, place, hplace, hs.trans hmeets.reaches⟩, hfile, hext⟩

/-- Listing what is reached from a root beside it, where this excludes nothing more, adds nothing
but files that are too large and met there on a path too long to ask for their size. -/
theorem mem_files_cons_iff (hd : d.IsTree) (hnormal : ∀ root ∈ roots, Normalizes d root)
    {root : Path} {place : Place} (hroot : root ∈ roots) (hplace : d.resolve root = .ok place)
    (hs : Reaches d (excludedPrefixes d roots settings.excludePaths) ⟨root, place⟩ s)
    (hexcluded : ∀ p : Place,
      isExcluded (excludedPrefixes d [s.path] settings.excludePaths) (.ofNames p) = true →
      isExcluded (excludedPrefixes d roots settings.excludePaths) (.ofNames p) = true)
    {path : Path} :
    path ∈ (discover d (s.path :: roots) settings).files ↔
      path ∈ (discover d roots settings).files ∨
        ∃ v ∈ filesUnder d (excludedPrefixes d roots settings.excludePaths) s.path,
          hasExtension settings.extensions v.path = true ∧
          Disk.maxPathBytes < v.path.bytes.length ∧ Exceeds d settings v.place ∧
          .ofNames v.place = path := by
  have hnormals : ∀ path ∈ s.path :: roots, Normalizes d path :=
    List.forall_mem_cons.2 ⟨(hnormal root hroot).of_reaches hd hplace hs, hnormal⟩
  have hmet : ∀ v, v ∈ met d (s.path :: roots) settings ↔
      v ∈ met d roots settings ∨
        v ∈ filesUnder d (excludedPrefixes d roots settings.excludePaths) s.path ∧
          hasExtension settings.extensions v.path = true := by
    intro v
    have hfound : ∀ path ∈ s.path :: roots,
        (v ∈ filesUnder d (excludedPrefixes d (s.path :: roots) settings.excludePaths) path ↔
          v ∈ filesUnder d (excludedPrefixes d roots settings.excludePaths) path) :=
      fun path hpath => mem_filesUnder_congr hd (hnormals path hpath) fun p =>
        isExcluded_cons (hexcluded p)
    rw [mem_met_iff, mem_met_iff, ← or_and_right, or_comm,
      exists_congr fun path => and_congr_right (hfound path)]
    exact and_congr_left fun _ => List.exists_mem_cons_iff ..
  rw [mem_files_iff hd hnormals]
  constructor
  · rintro ⟨v, hv, hlarge, rfl⟩
    rcases (hmet v).1 hv with hv | ⟨hv, hext⟩
    · exact .inl ((mem_files_iff hd hnormal).2 ⟨v, hv, hlarge, rfl⟩)
    -- A file of the right size is listed beside it already.
    by_cases hexceeds : Exceeds d settings v.place
    · have hlong : Disk.maxPathBytes < v.path.bytes.length :=
        Nat.lt_of_not_le fun hshort => hlarge ⟨hshort, hexceeds⟩
      exact .inr ⟨v, hv, hext, hlong, hexceeds, rfl⟩
    · have hsource := IsSourceFile.of_reaches hd hroot hplace hs hv hext
      exact .inl (hsource.mem_files hd hnormal hexceeds)
  · rintro (hpath | ⟨v, hv, hext, hlong, -, rfl⟩)
    · obtain ⟨v, hv, hlarge, rfl⟩ := (mem_files_iff hd hnormal).1 hpath
      exact ⟨v, (hmet v).2 (.inl hv), hlarge, rfl⟩
    · exact ⟨v, (hmet v).2 (.inr ⟨hv, hext⟩), fun h => Nat.not_le.2 hlong h.short, rfl⟩

/-- Each file is found once, in normal form, and none beneath an excluded path. The files that are
found are the source files that are reached from some root through what is neither excluded nor
passed over, links followed, except those that are known to be too large. These are counted, if none
of them is met twice. Neither the number of times nor the order in which roots are listed makes a
difference to what is found, nor does a root that is reached from another one, unless it excludes
something. This is so where all that is reached has the path of its place as its normal form; it has
another one only where that path is too long. -/
theorem discover_finds_once (d : Disk) (hd : d.IsTree) (roots : List Path)
    (settings : IndexingSettings) : FindsOnce d roots settings where
  nodup := (pairwise_files d roots settings).imp fun h heq => by simp [heq] at h
  canonical := by
    intro path hpath
    obtain ⟨v, -, -, rfl⟩ := exists_of_mem_discover hpath
    exact d.normalize_normalize (.inr hd.current)
  included := by
    intro path hpath p hp
    obtain ⟨v, hv, -, rfl⟩ := exists_of_mem_discover hpath
    obtain ⟨root, -, hv⟩ := List.mem_flatMap.1 hv
    exact Bool.eq_false_iff.2 (List.any_eq_false.1 (included_of_mem_filesUnder hd hv) p hp)
  sources hnormal :=
    { sound := by
        intro path hpath
        obtain ⟨v, hv, hlarge, rfl⟩ := (mem_files_iff hd hnormal).1 hpath
        exact ⟨v, isSourceFile_of_mem_met hd hv, hlarge, rfl⟩
      complete := fun v h hlarge => h.mem_files hd hnormal hlarge
      skipped := exists_tooLarge hd hnormal settings
      repeated := fun _ h _ => mem_files_of_mem_iff hd hnormal h
      nested := fun _ hroot _ _ hplace hs hexcluded _ =>
        mem_files_cons_iff hd hnormal hroot hplace hs hexcluded }

/-- A directory with a file, and one in it with a large file and a link that leads back. -/
def linkedDisk : Disk where
  entries :=
    [([.ofString "w"], .directory),
      ([.ofString "w", .ofString "a.h"], .text "int a;\n"),
      ([.ofString "w", .ofString "sub"], .directory),
      ([.ofString "w", .ofString "sub", .ofString "big.h"], .binary 20000),
      ([.ofString "w", .ofString "sub", .ofString "up"], .link (.ofString "/w"))]
  current := []

/-- The smallest cap there is. -/
def lowCap : IndexingSettings :=
  { Settings.default.indexing with maxFileSizeKb := 16 }

theorem isTree_linkedDisk : linkedDisk.IsTree :=
  ⟨by decide +kernel, by decide +kernel, by decide +kernel, .root⟩

theorem normalizes_linkedDisk : ∀ root ∈ [.ofString "/w"], Normalizes linkedDisk root :=
  fun root _ => normalizes_of_fits isTree_linkedDisk (by decide +kernel) (by decide +kernel) root

theorem filesUnder_linkedDisk : filesUnder linkedDisk [] (.ofString "/w") =
    [⟨.ofString "/w/a.h", [.ofString "w", .ofString "a.h"]⟩,
      ⟨.ofString "/w/sub/big.h", [.ofString "w", .ofString "sub", .ofString "big.h"]⟩] := by
  decide +kernel

/-- The link back is not followed, so the large file is met once. -/
theorem meetsOnce_linkedDisk : MeetsOnce linkedDisk [.ofString "/w"] lowCap := by
  have hone : ∀ i v, MeetsFile linkedDisk [.ofString "/w"] lowCap i v →
      IsTooLarge linkedDisk lowCap v → i = 0 ∧ v =
        ⟨.ofString "/w/sub/big.h", [.ofString "w", .ofString "sub", .ofString "big.h"]⟩ := by
    rintro i v ⟨⟨root, hroot, hv⟩, -⟩ hlarge
    obtain ⟨hi, hroot⟩ := List.getElem?_eq_some_iff.1 hroot
    obtain rfl : i = 0 := Nat.lt_one_iff.1 hi
    obtain rfl : .ofString "/w" = root := hroot
    have hv : v ∈ filesUnder linkedDisk [] (.ofString "/w") := hv
    rw [filesUnder_linkedDisk, List.mem_pair] at hv
    rcases hv with rfl | rfl
    · exact absurd (isTooLarge_eq_true_iff.2 hlarge) (by decide +kernel)
    · exact ⟨rfl, rfl⟩
  intro i j v w hv hw hlarge hlarge' _
  obtain ⟨rfl, rfl⟩ := hone i v hv hlarge
  obtain ⟨rfl, rfl⟩ := hone j w hw hlarge'
  exact ⟨rfl, rfl⟩

/-- The directory in the root is reached from it. -/
theorem reaches_linkedDisk :
    Reaches linkedDisk [] ⟨.ofString "/w", [.ofString "w"]⟩
      ⟨.ofString "/w/sub", [.ofString "w", .ofString "sub"]⟩ :=
  .step (.root (by decide +kernel)) ⟨by decide +kernel, by decide +kernel,
    ⟨.ofString "sub", by decide +kernel, by decide +kernel⟩, by decide +kernel, by decide +kernel⟩

/-- `discover_finds_once` on a directory with a link back into it: its large file is counted, and
the other file is found as well with the root listed twice or with the directory in it listed beside
it. -/
theorem discover_finds_once_linkedDisk : linkedDisk.IsTree ∧
    (∃ large : List Place, [.ofString "w", .ofString "sub", .ofString "big.h"] ∈ large ∧
      (discover linkedDisk [.ofString "/w"] lowCap).skipped = large.length) ∧
    .ofString "/w/a.h" ∈ (discover linkedDisk [.ofString "/w", .ofString "/w"] lowCap).files ∧
    .ofString "/w/a.h" ∈
      (discover linkedDisk [.ofString "/w/sub", .ofString "/w"] lowCap).files := by
  have hfinds := (discover_finds_once linkedDisk isTree_linkedDisk [.ofString "/w"] lowCap).sources
    normalizes_linkedDisk
  have hfound : .ofString "/w/a.h" ∈ (discover linkedDisk [.ofString "/w"] lowCap).files := by
    decide +kernel
  obtain ⟨large, -, hlarge, hskipped⟩ := hfinds.skipped
  refine ⟨isTree_linkedDisk, ⟨large, (hlarge _).2 ?_, hskipped meetsOnce_linkedDisk⟩, ?_, ?_⟩
  · refine ⟨⟨.ofString "/w/sub/big.h", _⟩, isSourceFile_of_mem_met isTree_linkedDisk ?_,
      isTooLarge_eq_true_iff.1 ?_, rfl⟩ <;> decide +kernel
  · exact (hfinds.repeated _ (by simp) _).2 hfound
  · refine (hfinds.nested (.ofString "/w") (by simp) _ _ rfl reaches_linkedDisk ?_ _).2
      (.inl hfound)
    exact fun _ h => h

/-- A directory with a directory of a name that is passed over, and another one with an excluded
one. -/
def passedDisk : Disk where
  entries :=
    [([.ofString "w"], .directory),
      ([.ofString "w", .ofString "target"], .directory),
      ([.ofString "w", .ofString "target", .ofString "a.h"], .text "int a;\n"),
      ([.ofString "w", .ofString "sub"], .directory),
      ([.ofString "w", .ofString "sub", .ofString "gen"], .directory),
      ([.ofString "w", .ofString "sub", .ofString "gen", .ofString "b.h"], .text "int b;\n")]
  current := []

/-- A directory that is passed over adds a file when it is listed beside the one above it, and one
beneath which an excluded path lies takes a file away. -/
theorem nested_roots_change_files :
    (discover passedDisk [.ofString "/w"] Settings.default.indexing).files =
      [.ofString "/w/sub/gen/b.h"] ∧
    (discover passedDisk [.ofString "/w", .ofString "/w/target"] Settings.default.indexing).files =
      [.ofString "/w/sub/gen/b.h", .ofString "/w/target/a.h"] ∧
    (discover passedDisk [.ofString "/w"]
      { Settings.default.indexing with excludePaths := ["gen"] }).files =
      [.ofString "/w/sub/gen/b.h"] ∧
    (discover passedDisk [.ofString "/w", .ofString "/w/sub"]
      { Settings.default.indexing with excludePaths := ["gen"] }).files = [] := by
  decide +kernel

end StructUnfold.Workspace
