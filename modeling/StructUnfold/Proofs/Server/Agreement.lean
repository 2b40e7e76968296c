import StructUnfold.Proofs.Server.Editing

/-!
# Scans of single files and of the workspace

The catalog is made anew by a scan of the workspace and kept up to date by scans of single files. A
scan of the workspace takes in the files that are found beneath the roots; a scan of a single file
looks at its extension alone. So the catalog stays the one that a scan of the workspace would make
for as long as the files that are scanned because of events are found, or declare nothing.

* `Session.Agrees`: the catalog is the one that a scan of the workspace would make.
* `isUnion_index`, `IsKept.isUnion_after`: the catalog as the union of what files declare.
* `agrees_iff`: the files of such a union are those that are found, but for one that declares
  nothing.
* `agrees_run_iff`: the catalog agrees throughout a run if the events fit.
* `not_agrees_excluded`: an event that does not fit.
-/

namespace StructUnfold

instance {α : Type} [DecidableEq α] : DecidableEq (Table α) := fun t u =>
  decidable_of_iff (t.entries = u.entries) <| by
    cases t
    cases u
    simp only [Table.mk.injEq]

deriving instance DecidableEq for Catalog

/-- Parts without entries do not matter in a union. -/
theorem Table.IsUnion.congr {α : Type} {t : Table α} {table : Catalog → Table α}
    {parts parts' : List Catalog} (h : t.IsUnion (parts.map table))
    (hparts : ∀ p n, (table p).contains n = true → (p ∈ parts ↔ p ∈ parts')) :
    t.IsUnion (parts'.map table) := by
  intro n v
  rw [h n v]
  simp only [List.mem_map, exists_exists_and_eq_and]
  refine exists_congr fun p => and_congr_left fun hv => ?_
  exact hparts p n (Table.contains_eq_true_iff.2 ⟨v, hv⟩)

theorem Catalog.IsUnion.congr {c : Catalog} {parts parts' : List Catalog} (h : c.IsUnion parts)
    (hparts : ∀ p n, p.Defines n → (p ∈ parts ↔ p ∈ parts')) : c.IsUnion parts' where
  structs := h.structs.congr fun p n hn => hparts p n (.inl hn)
  aliases := h.aliases.congr fun p n hn => hparts p n (.inr (.inl hn))
  unparseable := h.unparseable.congr fun p n hn => hparts p n (.inr (.inr hn))

/-- A union defines what its parts define. -/
theorem Catalog.IsUnion.defines {c p : Catalog} {parts : List Catalog} (h : c.IsUnion parts)
    (hp : p ∈ parts) {n : String} (hn : p.Defines n) : c.Defines n := by
  have hholds : ∀ {α : Type} {t : Table α} {table : Catalog → Table α},
      t.IsUnion (parts.map table) → (table p).contains n = true → t.contains n = true := by
    intro α t table ht hcontains
    obtain ⟨v, hv⟩ := Table.contains_eq_true_iff.1 hcontains
    exact Table.contains_eq_true_iff.2 ⟨v, (ht n v).2 ⟨_, List.mem_map_of_mem hp, hv⟩⟩
  exact hn.imp (hholds h.structs) (Or.imp (hholds h.aliases) (hholds h.unparseable))

instance (c : Catalog) : Decidable (∀ n, ¬c.Defines n) :=
  decidable_of_iff (c.names = []) <| by
    simp only [List.eq_nil_iff_forall_not_mem, Catalog.mem_names_iff]

/-- A text without characters declares nothing. -/
theorem Scan.not_defines_alone_nil (maxScan : Nat) (path : Path) (n : String) :
    ¬(alone maxScan (path, [])).Defines n :=
  Catalog.not_defines_empty n

namespace Server.Session

open Catalog Workspace

variable {s : Session} {event : Event}

/-- What the present text of a file declares. -/
def declared (s : Session) (file : Path) : Catalog :=
  Scan.alone s.maxScan (file, s.textAt file)

/-- No two of the files declare a name in common. -/
def DeclaredApart (s : Session) (files : List Path) : Prop :=
  ∀ f ∈ files, ∀ g ∈ files, f ≠ g → (s.declared f).Apart (s.declared g)

instance (s : Session) (files : List Path) : Decidable (s.DeclaredApart files) :=
  inferInstanceAs (Decidable (∀ f ∈ files, ∀ g ∈ files, f ≠ g →
    (s.declared f).Apart (s.declared g)))

theorem DeclaredApart.mono {files files' : List Path} (h : s.DeclaredApart files')
    (hsub : files ⊆ files') : s.DeclaredApart files :=
  fun f hf g hg => h f (hsub hf) g (hsub hg)

/-- The files and directories beneath the roots are met on paths in normal form. -/
def MeetsNormal (s : Session) : Prop :=
  ∀ v ∈ s.state.roots.flatMap (filesUnder s.disk
      (excludedPrefixes s.disk s.state.roots s.state.settings.indexing.excludePaths)),
    v.path = .ofNames v.place ∧ s.disk.normalize v.path = v.path

instance (s : Session) : Decidable s.MeetsNormal :=
  inferInstanceAs (Decidable (∀ v ∈ s.state.roots.flatMap (filesUnder s.disk
      (excludedPrefixes s.disk s.state.roots s.state.settings.indexing.excludePaths)),
    v.path = .ofNames v.place ∧ s.disk.normalize v.path = v.path))

/-- The catalog is the one that a scan of the workspace would make. -/
def Agrees (s : Session) : Prop :=
  s.state.catalog = s.index.1.state.catalog

instance (s : Session) : Decidable s.Agrees :=
  inferInstanceAs (Decidable (s.state.catalog = s.index.1.state.catalog))

/-- Where files are met on paths in normal form, they are known by plain paths. -/
theorem MeetsNormal.isPlain (hnormal : s.MeetsNormal) (hd : s.disk.HasProperNames) :
    ∀ path ∈ s.sourceFiles, path.IsPlain := fun _ => by
  refine isPlain_of_mem_discover hd fun v hv => ?_
  obtain ⟨hpath, hself⟩ := hnormal v hv
  exact hself.trans hpath

/-- A file that is found is one that is scanned when it changes. -/
theorem isSource_of_mem_sourceFiles (henabled : s.state.settings.indexing.enable = true)
    (hd : s.disk.HasProperNames) (hnormal : s.MeetsNormal) {path : Path}
    (h : path ∈ s.sourceFiles) : s.IsSource path := by
  have hplain := hnormal.isPlain hd path h
  obtain ⟨v, hv, hext, rfl⟩ := exists_of_mem_discover h
  obtain ⟨-, hself⟩ := hnormal v hv
  rw [hself] at hplain ⊢
  exact ⟨hplain, hself, by rw [isScanned, henabled, hext]; rfl⟩

/-! ### Unions -/

/-- Scanning one file anew keeps the catalog the union of what files declare, if the texts of the
others have not changed. -/
theorem isUnion_rescan_declared {c : Catalog} {files : List Path} {texts : Path → List Char}
    (h : c.IsUnion (files.map fun f => Scan.alone s.maxScan (f, texts f)))
    (hplain : ∀ f ∈ files, f.IsPlain) {file : Path} (hfile : file.IsPlain)
    (htexts : ∀ f ∈ files, f ≠ file → texts f = s.textAt f)
    (hapart : ∀ f ∈ files, f ≠ file → (s.declared f).Apart (s.declared file)) :
    (Scan.rescan s.maxScan c file (s.textAt file)).1.IsUnion
      ((files ++ [file]).map s.declared) := by
  -- Paths that are plain are the same only if they are equal.
  have hdiffer : ∀ f ∈ files, f.same file = false ↔ f ≠ file := by
    intro f hf
    constructor
    · rintro hsame rfl
      rw [Path.same_refl] at hsame
      cases hsame
    · exact fun hne => Bool.eq_false_iff.2 fun hsame =>
        hne ((hplain f hf).eq_of_same hfile hsame)
  have hmap : files.map (fun f => Scan.alone s.maxScan (f, texts f)) =
      (files.map fun f => (f, texts f)).map (Scan.alone s.maxScan) := by
    rw [List.map_map]
    rfl
  rw [hmap] at h
  have hunion := @Scan.isUnion_rescan_of_apart s.maxScan c _ h (file, s.textAt file) <| by
    intro g hg hsame
    obtain ⟨f, hf, rfl⟩ := List.mem_map.1 hg
    have hne := (hdiffer f hf).1 hsame
    show (Scan.alone s.maxScan (f, texts f)).Apart _
    rw [htexts f hf hne]
    exact hapart f hf hne
  -- The texts that are put together are those of today: of the others nothing has changed.
  refine hunion.congr fun p _ _ => ?_
  simp only [Scan.putFile, List.mem_map, List.mem_append, List.mem_filter, List.mem_singleton]
  constructor
  · rintro ⟨_, ⟨⟨f, hf, rfl⟩, hsame⟩ | rfl, rfl⟩
    · refine ⟨f, .inl hf, ?_⟩
      rw [htexts f hf ((hdiffer f hf).1 (by simpa using hsame))]
      rfl
    · exact ⟨file, .inr rfl, rfl⟩
  · rintro ⟨f, hf, rfl⟩
    by_cases hne : f = file
    · subst hne
      exact ⟨_, .inr rfl, rfl⟩
    · have hmem := hf.resolve_right hne
      refine ⟨(f, texts f), .inl ⟨⟨f, hmem, rfl⟩, ?_⟩, ?_⟩
      · simpa using (hdiffer f hmem).2 hne
      · rw [htexts f hmem hne]
        rfl

/-- Scanning files one after the other makes the catalog the union of what they declare. -/
theorem isUnion_foldl_scanFile {done : Scanned} {before files : List Path}
    (h : done.catalog.IsUnion (before.map s.declared))
    (hplain : ∀ f ∈ before ++ files, f.IsPlain) (hapart : s.DeclaredApart (before ++ files)) :
    (files.foldl (scanFile s.maxScan s.reader) done).catalog.IsUnion
      ((before ++ files).map s.declared) := by
  induction files generalizing before done with
  | nil => rwa [List.append_nil]
  | cons file files ih =>
    have hmem : file ∈ before ++ file :: files :=
      List.mem_append_right _ List.mem_cons_self
    rw [List.append_cons] at hplain hapart ⊢
    refine ih ?_ hplain hapart
    rcases catalog_scanFile s s.maxScan done file with hrescan | ⟨hkept, hempty⟩
    · rw [hrescan]
      have hsub : ∀ f ∈ before, f ∈ before ++ [file] ++ files := fun f hf => by simp [hf]
      exact isUnion_rescan_declared h (fun f hf => hplain f (hsub f hf))
        (hplain file (by simp)) (fun _ _ _ => rfl)
        fun f hf hne => hapart f (hsub f hf) file (by simp) hne
    · -- A file that cannot be read declares nothing.
      rw [hkept]
      refine h.congr fun p n hn => ?_
      rw [List.map_append, List.mem_append, List.map_singleton, List.mem_singleton]
      refine ⟨.inl, fun hp => hp.resolve_right ?_⟩
      rintro rfl
      rw [declared, hempty] at hn
      exact Scan.not_defines_alone_nil _ _ _ hn

/-- The longest chain of aliases that a scan of the workspace lets the catalog follow. -/
def hopCap (s : Session) : Option Nat :=
  s.state.settings.flatten.aliasHopCap.filter (0 < ·)

/-- A scan of the workspace makes the catalog the union of what the files declare that it finds. -/
theorem isUnion_index (henabled : s.state.settings.indexing.enable = true)
    (hplain : ∀ path ∈ s.sourceFiles, path.IsPlain) (hapart : s.DeclaredApart s.sourceFiles) :
    s.index.1.state.catalog.IsUnion (s.sourceFiles.map s.declared) ∧
      s.index.1.state.catalog.maxAliasHops = s.hopCap := by
  rw [(index_eq henabled).2]
  have hunion := @isUnion_foldl_scanFile s ⟨.empty, .ofSkipped
    (discover s.disk s.state.roots s.state.settings.indexing).skipped, 0⟩ [] s.sourceFiles
    isUnion_nil hplain hapart
  exact ⟨⟨hunion.structs, hunion.aliases, hunion.unparseable⟩, rfl⟩

/-- The catalog is the one that a scan of the workspace would make, if it is the union of what the
files declare that are found and of what one more file declares, and that one is found or declares
nothing. -/
theorem agrees_iff (henabled : s.state.settings.indexing.enable = true)
    (hplain : ∀ path ∈ s.sourceFiles, path.IsPlain) {more : Option Path}
    (hapart : s.DeclaredApart (s.sourceFiles ++ more.toList))
    (hunion : s.state.catalog.IsUnion ((s.sourceFiles ++ more.toList).map s.declared))
    (hhops : s.state.catalog.maxAliasHops = s.hopCap) :
    s.Agrees ↔
      ∀ file ∈ more, file ∈ s.sourceFiles ∨ ∀ n, ¬(s.declared file).Defines n := by
  obtain ⟨hindex, hcap⟩ :=
    isUnion_index henabled hplain (hapart.mono (List.subset_append_left _ _))
  constructor
  · intro hagrees file hfile
    obtain rfl : more = some file := hfile
    by_contra hnot
    simp only [not_or, not_forall, not_not] at hnot
    obtain ⟨hmissing, n, hn⟩ := hnot
    -- What the file declares is held by the catalog, and so declared by a file that is found.
    have hmem : file ∈ s.sourceFiles ++ (some file).toList := by simp
    have hheld : s.state.catalog.Defines n := hunion.defines (List.mem_map_of_mem hmem) hn
    rw [hagrees] at hheld
    obtain ⟨_, hp, hdefines⟩ := hindex.exists_defines hheld
    obtain ⟨f, hf, rfl⟩ := List.mem_map.1 hp
    have hne : f ≠ file := by
      rintro rfl
      exact hmissing hf
    exact hapart f (List.mem_append_left _ hf) file hmem hne n ⟨hdefines, hn⟩
  · intro hmore
    refine (hunion.congr (fun p n hn => ?_)).eq hindex (fun _ => Iff.rfl) (hhops.trans hcap.symm)
    rw [List.map_append, List.mem_append]
    refine ⟨fun hp => hp.elim id fun hp => ?_, .inl⟩
    obtain ⟨file, hfile, rfl⟩ := List.mem_map.1 hp
    rcases hmore file (Option.mem_toList.1 hfile) with hfound | hnone
    · exact List.mem_map_of_mem hfound
    · exact absurd hn (hnone n)

/-- A session at rest that keeps a catalog of files on paths in normal form. -/
structure IsKept (s : Session) : Prop where
  /-- The server keeps a catalog. -/
  enabled : s.state.settings.indexing.enable = true
  /-- No rescan is put off. -/
  idle : s.state.putOff = []
  /-- All names on the disk are proper. -/
  proper : s.disk.HasProperNames
  /-- Files are met on paths in normal form. -/
  normal : s.MeetsNormal

theorem IsKept.of_sameWorkspace {t : Session} (h : s.IsKept) (hsame : s.SameWorkspace t)
    (hidle : t.state.putOff = []) : t.IsKept where
  enabled := by rw [hsame.settings, h.enabled]
  idle := hidle
  proper := by rw [hsame.disk]; exact h.proper
  normal := by
    rw [MeetsNormal, hsame.disk, hsame.roots, hsame.settings]
    exact h.normal

/-! ### One event -/

/-- The file that is scanned because of an event is found by a scan of the workspace, or declares
nothing. -/
def Fits (s : Session) (event : Event) : Prop :=
  ∀ file ∈ s.scannedFile? event,
    file ∈ s.sourceFiles ∨ ∀ n, ¬((s.after event).declared file).Defines n

instance (s : Session) (event : Event) : Decidable (s.Fits event) :=
  inferInstanceAs (Decidable (∀ file ∈ s.scannedFile? event,
    file ∈ s.sourceFiles ∨ ∀ n, ¬((s.after event).declared file).Defines n))

/-- After an event the catalog holds what the files declare that are found, and what the file
declares that was scanned. -/
theorem IsKept.isUnion_after (h : s.IsKept) (hplain : event.IsPlain)
    (hlags : ∀ path ∈ s.sourceFiles, event.lags s path false = false)
    (hapart : s.DeclaredApart s.sourceFiles)
    (hapart' : (s.after event).DeclaredApart (s.sourceFiles ++ (s.scannedFile? event).toList))
    (hagrees : s.Agrees) :
    let t := s.after event
    t.state.catalog.IsUnion ((s.sourceFiles ++ (s.scannedFile? event).toList).map t.declared) ∧
      t.state.catalog.maxAliasHops = s.hopCap := by
  intro t
  obtain ⟨hindex, hcap⟩ := isUnion_index h.enabled (h.normal.isPlain h.proper) hapart
  rw [Agrees] at hagrees
  obtain ⟨hsame, -, heffect⟩ := after_effect h.enabled h.idle hplain
  have hsource : ∀ path ∈ s.sourceFiles, s.IsSource path :=
    fun path => isSource_of_mem_sourceFiles h.enabled h.proper h.normal
  -- Where no text changes, neither does what is declared.
  have hdeclared : (∀ path ∈ s.sourceFiles, t.textAt path = s.textAt path) →
      s.sourceFiles.map t.declared = s.sourceFiles.map s.declared := fun htext =>
    List.map_congr_left fun path hpath => by
      rw [declared, declared, hsame.maxScan, htext path hpath]
  rcases heffect with ⟨file, hscans, -, hfile, hcatalog, hother⟩ | ⟨hscans, hcatalog, htext⟩ |
    ⟨hscans, hcatalog, htext⟩
  · rw [hscans] at hapart' ⊢
    rw [hcatalog, hagrees]
    constructor
    · have hmem : file ∈ s.sourceFiles ++ (some file).toList := by simp
      rw [← hsame.maxScan]
      refine @isUnion_rescan_declared t _ _ s.textAt ?_ (fun f hf => (hsource f hf).plain) _ hfile
        (fun f hf hne => ?_) fun f hf hne => ?_
      · rw [hsame.maxScan]
        exact hindex
      · exact (hother f (hsource f hf) (Ne.symm hne)).1.symm
      · exact hapart' f (List.mem_append_left _ hf) file hmem hne
    · rw [Scan.rescan, Scan.maxAliasHops_scan, removePath, hcap]
  · rw [hscans, hcatalog, hagrees, Option.toList_none, List.append_nil, hdeclared]
    · exact ⟨hindex, hcap⟩
    · exact fun path hpath => (htext path (hsource path hpath) false (hlags path hpath)).2
  · rw [hscans, hcatalog, Option.toList_none, List.append_nil, hdeclared fun path _ => htext path]
    exact ⟨hindex, hcap⟩

/-- The catalog agrees after an event if the event fits, and holds nothing but what stands in the
files that are found and in the one that was scanned. -/
theorem IsKept.agrees_after_iff (h : s.IsKept) (hagrees : s.Agrees) (hplain : event.IsPlain)
    (hlags : ∀ path ∈ s.sourceFiles, event.lags s path false = false)
    (hapart : s.DeclaredApart s.sourceFiles)
    (hapart' : (s.after event).DeclaredApart (s.sourceFiles ++ (s.scannedFile? event).toList)) :
    ((s.after event).Agrees ↔ s.Fits event) ∧
      ∀ f : Scan.Finding, f.HeldBy (s.after event).state.catalog →
        ∃ path, f.StandsIn path ∧ (path ∈ s.sourceFiles ∨ s.scannedFile? event = some path) := by
  obtain ⟨hsame, hidle, -⟩ := after_effect h.enabled h.idle hplain
  have hkept := h.of_sameWorkspace hsame hidle
  obtain ⟨hunion, hhops⟩ := h.isUnion_after hplain hlags hapart hapart' hagrees
  constructor
  · rw [← hsame.sourceFiles] at hapart' hunion
    have hcap : (s.after event).hopCap = s.hopCap := by rw [hopCap, hopCap, hsame.settings]
    rw [agrees_iff hkept.enabled (hkept.normal.isPlain hkept.proper) hapart' hunion
      (hhops.trans hcap.symm), Fits, hsame.sourceFiles]
  · intro f hf
    -- What the catalog holds comes from one of the files whose declarations it is put together
    -- from.
    have hmap : (s.sourceFiles ++ (s.scannedFile? event).toList).map (s.after event).declared =
        ((s.sourceFiles ++ (s.scannedFile? event).toList).map
          fun file => (file, (s.after event).textAt file)).map
            (Scan.alone (s.after event).maxScan) := by
      rw [List.map_map]
      rfl
    rw [hmap] at hunion
    obtain ⟨_, hmem, hheld⟩ := (Scan.heldBy_iff_of_isUnion hunion).1 hf
    obtain ⟨path, hpath, rfl⟩ := List.mem_map.1 hmem
    refine ⟨path, standsIn_of_heldBy_alone hheld, ?_⟩
    exact (List.mem_append.1 hpath).imp_right Option.mem_toList.1

/-! ### Runs -/

theorem SameWorkspace.scannedFile? {t : Session} (h : s.SameWorkspace t) (event : Event) :
    t.scannedFile? event = s.scannedFile? event := by
  have hscanned : t.isScanned = s.isScanned := funext h.isScanned
  cases event with
  | opened uri document => rfl
  | _ => simp only [Session.scannedFile?, fileOf?, h.disk, hscanned]

theorem run_append (s : Session) (events : List Event) (event : Event) :
    s.run (events ++ [event]) = (s.run events).after event :=
  List.foldl_concat ..

theorem IsKept.run (h : s.IsKept) {events : List Event} (hplain : ∀ e ∈ events, e.IsPlain) :
    (s.run events).IsKept ∧ s.SameWorkspace (s.run events) := by
  induction events using List.reverseRecOn with
  | nil => exact ⟨h, .refl s⟩
  | append_singleton events event ih =>
    obtain ⟨hevents, hevent⟩ := List.forall_mem_append.1 hplain
    obtain ⟨hkept, hsame⟩ := ih hevents
    obtain ⟨hafter, hidle, -⟩ :=
      after_effect hkept.enabled hkept.idle (hevent event (List.mem_singleton_self event))
    rw [run_append]
    exact ⟨hkept.of_sameWorkspace hafter hidle, hsame.trans hafter⟩

/-- A document that is opened with the text that its file has leaves the catalog behind no source
file, and neither does any other event. -/
theorem lags_eq_false_of_opened
    (hopened : ∀ uri document, event = .opened uri document → ∀ path ∈ s.sourceFiles,
      s.fileOf? event = some path → s.textAt path = document.text)
    {path : Path} (hpath : path ∈ s.sourceFiles) : event.lags s path false = false := by
  cases event with
  | opened uri document =>
    rw [Event.lags, Bool.false_or, Bool.and_eq_false_iff, beq_eq_false_iff_ne, bne_eq_false_iff_eq]
    by_cases hfile : s.fileOf? (.opened uri document) = some path
    · exact .inr (hopened uri document rfl path hpath hfile)
    · exact .inl hfile
  | _ => rfl

/-- **Scans of single files and of the workspace.** Start with the catalog that a scan of the
workspace makes, and let an editor open documents with the texts of their files, change, save and
close them and ask for further scans, the server coming to rest each time. Let no two files declare
a name in common. Then the catalog stays the one that a scan of the workspace would make exactly as
long as each file that is scanned because of an event is found by such a scan or declares nothing.
What the catalog holds after an event stands in a file that is found or in the one that was scanned
because of it. -/
theorem agrees_run_iff (h : s.IsKept) (hagrees : s.Agrees) {events : List Event}
    (hplain : ∀ e ∈ events, e.IsPlain)
    (hopened : ∀ done uri document, done ++ [.opened uri document] <+: events →
      ∀ path ∈ s.sourceFiles, s.fileOf? (.opened uri document) = some path →
        (s.run done).textAt path = document.text)
    (hapart : ∀ done, done <+: events →
      (s.run done).DeclaredApart (s.sourceFiles ++ events.filterMap s.scannedFile?)) :
    ((∀ done, done <+: events → (s.run done).Agrees) ↔
        ∀ done event, done ++ [event] <+: events → (s.run done).Fits event) ∧
      ∀ done event, done ++ [event] <+: events → (s.run done).Agrees →
        ∀ f : Scan.Finding, f.HeldBy (s.run (done ++ [event])).state.catalog →
          ∃ path, f.StandsIn path ∧
            (path ∈ s.sourceFiles ∨ s.scannedFile? event = some path) := by
  -- One event more: the session before it is kept by the events so far.
  have hone : ∀ done event, done ++ [event] <+: events → (s.run done).Agrees →
      ((s.run (done ++ [event])).Agrees ↔ (s.run done).Fits event) ∧
        ∀ f : Scan.Finding, f.HeldBy (s.run (done ++ [event])).state.catalog →
          ∃ path, f.StandsIn path ∧
            (path ∈ s.sourceFiles ∨ s.scannedFile? event = some path) := by
    intro done event hdone hbefore
    have hbegun : done <+: events := (List.prefix_append done [event]).trans hdone
    have hevent : event ∈ events := hdone.subset (by simp)
    obtain ⟨hkept, hsame⟩ := h.run fun e he => hplain e (hbegun.subset he)
    have hsources : (s.run done).sourceFiles = s.sourceFiles := hsame.sourceFiles
    rw [run_append, ← hsources, ← hsame.scannedFile?]
    refine hkept.agrees_after_iff hbefore (hplain event hevent) (fun path hpath => ?_) ?_ ?_
    · refine lags_eq_false_of_opened (fun uri document heq path hpath hfile => ?_) hpath
      subst heq
      rw [hsources] at hpath
      rw [fileOf?, hsame.disk] at hfile
      exact hopened done uri document hdone path hpath hfile
    · rw [hsources]
      exact (hapart done hbegun).mono (List.subset_append_left _ _)
    · rw [← run_append, hsources, hsame.scannedFile?]
      refine (hapart _ hdone).mono (List.append_subset.2 ⟨List.subset_append_left _ _, ?_⟩)
      intro file hfile
      have hscanned := Option.mem_toList.1 hfile
      exact List.mem_append_right _ (List.mem_filterMap.2 ⟨event, hevent, hscanned⟩)
  refine ⟨⟨fun hall done event hdone => ?_, fun hfits done hdone => ?_⟩,
    fun done event hdone hbefore => (hone done event hdone hbefore).2⟩
  · have hbefore := hall done ((List.prefix_append done [event]).trans hdone)
    exact (hone done event hdone hbefore).1.1 (hall _ hdone)
  · induction done using List.reverseRecOn with
    | nil => exact hagrees
    | append_singleton done event ih =>
      have hbefore := ih ((List.prefix_append done [event]).trans hdone)
      exact (hone done event hdone hbefore).1.2 (hfits done event hdone)

/-- A disk with a source file and another one in a directory of its own. -/
def vendorDisk : Disk where
  entries :=
    [([.ofString "w"], .directory),
      ([.ofString "w", .ofString "node.h"], .text "struct Node \x7b\n    int value;\n\x7d;\n"),
      ([.ofString "w", .ofString "vendor"], .directory),
      ([.ofString "w", .ofString "vendor", .ofString "v.h"],
        .text "struct Vendor \x7b\n    int value;\n\x7d;\n")]
  current := []

/-- A session that leaves the directory out, after a scan of the workspace. -/
def vendorSession : Session :=
  let settings : Settings :=
    { Settings.default with
      indexing := { Settings.default.indexing with excludePaths := ["vendor"] } }
  let state : State :=
    { State.start with phase := .running, roots := [.ofString "/w"], settings := settings }
  (Session.mk state vendorDisk []).index.1

/-- The first file is opened, changed, saved and closed. -/
def vendorEvents : List Event :=
  [.opened (nodeUri "node.h") ⟨"struct Node \x7b\n    int value;\n\x7d;\n".toList, 1⟩,
    .changed (nodeUri "node.h") [⟨some ⟨⟨0, 7⟩, ⟨0, 11⟩⟩, "List".toList⟩] 2,
    .saved (nodeUri "node.h") none,
    .closed (nodeUri "node.h")]

/-- `agrees_run_iff` at the events: all of them fit, and the catalog agrees throughout. -/
theorem agrees_run_vendorEvents :
    (∀ done, done <+: vendorEvents → (vendorSession.run done).Agrees) ∧
      (vendorSession.run vendorEvents).state.catalog.structs.keys = ["Node"] := by
  have hkept : vendorSession.IsKept :=
    ⟨by decide +kernel, by decide +kernel, by decide +kernel, by decide +kernel⟩
  have hopened : ∀ done uri document, done ++ [.opened uri document] <+: vendorEvents →
      ∀ path ∈ vendorSession.sourceFiles,
        vendorSession.fileOf? (.opened uri document) = some path →
          (vendorSession.run done).textAt path = document.text := by
    intro done uri document hdone
    rcases done with - | ⟨first, done⟩
    · obtain ⟨heq, -⟩ := List.cons_prefix_cons.1 hdone
      cases heq
      decide +kernel
    · -- No document is opened later.
      have hmem := (List.cons_prefix_cons.1 hdone).2.subset
        (List.mem_append_right done (List.mem_singleton_self _))
      simp at hmem
  have hapart : ∀ done ∈ vendorEvents.inits, (vendorSession.run done).DeclaredApart
      (vendorSession.sourceFiles ++ vendorEvents.filterMap vendorSession.scannedFile?) := by
    decide +kernel
  have hfits : ∀ done ∈ vendorEvents.inits, ∀ event ∈ vendorEvents,
      (vendorSession.run done).Fits event := by
    decide +kernel
  have hiff := (agrees_run_iff hkept (by decide +kernel) (by decide +kernel) hopened
    fun done hdone => hapart done ((List.mem_inits _ _).2 hdone)).1
  refine ⟨hiff.2 fun done event hdone => ?_, by decide +kernel⟩
  exact hfits done ((List.mem_inits _ _).2 ((List.prefix_append done [event]).trans hdone)) event
    (hdone.subset (by simp))

/-- A file that lies beneath an excluded path is scanned when it is saved, and the catalog is no
longer the one that a scan of the workspace would make. -/
theorem not_agrees_excluded :
    let event : Event :=
      .saved ⟨"file", some "", none, .segments ["w", "vendor", "v.h"], none, none⟩ none
    let path := Path.ofString "/w/vendor/v.h"
    vendorSession.Agrees ∧ path ∉ vendorSession.sourceFiles ∧
      (vendorSession.after event).state.catalog.structs.get? "Vendor" = some ⟨path, 14, none⟩ ∧
      (vendorSession.after event).index.1.state.catalog.structs.get? "Vendor" = none ∧
      ¬(vendorSession.after event).Agrees := by
  decide +kernel

end Server.Session

end StructUnfold
