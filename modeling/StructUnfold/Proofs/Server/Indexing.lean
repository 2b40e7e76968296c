import StructUnfold.Proofs.Scan.Current
import StructUnfold.Proofs.Workspace.Batch
import StructUnfold.Server.Indexing

/-!
# What a scan does to a session

* `Session.textAt`: the text that the server reads for a file.
* `catalog_rescanFile`: scanning one file changes the catalog as scanning its text does.
* `Session.SameWorkspace`, `Session.Keeps`: what scans leave alone.
* `isCurrent_index`, `agreeAt_index`: the catalog after a scan of the workspace.
* `index_eq_build`: a scan of the workspace in batches comes to building its catalog at once.
-/

namespace StructUnfold.Server.Session

open Workspace Catalog

/-- The text that the server reads for a file; the empty one where it cannot read any. -/
def textAt (s : Session) (path : Path) : List Char :=
  match s.reader 0 path with
  | .ok text => text
  | .error _ => []

/-- The number of bytes examined to find a body. -/
def maxScan (s : Session) : Nat :=
  s.state.settings.flatten.maxScanBytes

/-- Whether a file is scanned anew when it changes. -/
def isScanned (s : Session) (path : Path) : Bool :=
  s.state.settings.indexing.enable &&
    hasExtension s.state.settings.indexing.extensions path

/-- The server reads the same text each time. -/
theorem reader_eq (s : Session) (reads : Nat) (path : Path) :
    s.reader reads path = s.reader 0 path := rfl

/-- The text of the open document that stands for a file is read for it. -/
theorem textAt_of_textOf? {s : Session} {path : Path} {text : List Char}
    (h : s.state.documents.textOf? s.disk.normalize path = some text) :
    s.reader 0 path = .ok text ∧ s.textAt path = text := by
  have hreader : s.reader 0 path = .ok text := by
    simp only [reader, DocumentStore.overlay, h]
  exact ⟨hreader, by rw [textAt, hreader]⟩

/-- What is read for a file depends on the disk and on what the open documents say about it. -/
theorem textAt_congr {s t : Session} {path : Path} (hdisk : s.disk = t.disk)
    (hdocuments : s.state.documents.textOf? s.disk.normalize path =
      t.state.documents.textOf? t.disk.normalize path) : s.textAt path = t.textAt path := by
  rw [← hdisk] at hdocuments
  simp only [textAt, reader, DocumentStore.overlay, ← hdisk, hdocuments]

/-- The files that a scan of the workspace finds. -/
def sourceFiles (s : Session) : List Path :=
  (discover s.disk s.state.roots s.state.settings.indexing).files

/-- Two sessions have the same workspace. -/
structure SameWorkspace (s t : Session) : Prop where
  /-- The disk. -/
  disk : t.disk = s.disk
  /-- The settings. -/
  settings : t.state.settings = s.state.settings
  /-- The roots of the workspace. -/
  roots : t.state.roots = s.state.roots

namespace SameWorkspace

variable {r s t : Session}

theorem refl (s : Session) : s.SameWorkspace s := ⟨rfl, rfl, rfl⟩

theorem trans (h : r.SameWorkspace s) (h' : s.SameWorkspace t) : r.SameWorkspace t :=
  ⟨h'.disk.trans h.disk, h'.settings.trans h.settings, h'.roots.trans h.roots⟩

theorem maxScan (h : s.SameWorkspace t) : t.maxScan = s.maxScan := by
  rw [Session.maxScan, Session.maxScan, h.settings]

theorem isScanned (h : s.SameWorkspace t) (path : Path) : t.isScanned path = s.isScanned path := by
  rw [Session.isScanned, Session.isScanned, h.settings]

theorem sourceFiles (h : s.SameWorkspace t) : t.sourceFiles = s.sourceFiles := by
  rw [Session.sourceFiles, Session.sourceFiles, h.disk, h.settings, h.roots]

end SameWorkspace

/-- What a session keeps when files are scanned. -/
structure Keeps (s t : Session) : Prop extends s.SameWorkspace t where
  /-- The open documents. -/
  documents : t.state.documents = s.state.documents
  /-- The rescans that were put off. -/
  putOff : t.state.putOff = s.state.putOff

theorem Keeps.textAt {s t : Session} (h : s.Keeps t) (path : Path) :
    t.textAt path = s.textAt path :=
  textAt_congr h.disk (by rw [h.documents, h.disk])

/-! ### One file -/

/-- Reading and scanning a file changes the catalog as scanning its text does, or not at all if it
cannot be read. -/
theorem catalog_scanFile (s : Session) (maxScan : Nat) (done : Scanned) (path : Path) :
    (scanFile maxScan s.reader done path).catalog =
        (Scan.rescan maxScan done.catalog path (s.textAt path)).1 ∨
      ((scanFile maxScan s.reader done path).catalog = done.catalog ∧ s.textAt path = []) := by
  rw [scanFile, reader_eq, textAt]
  cases s.reader 0 path with
  | ok text => exact .inl rfl
  | error e => exact .inr ⟨rfl, rfl⟩

theorem keeps_rescanFile (s : Session) (path : Path) : s.Keeps (s.rescanFile path) := by
  rw [rescanFile]
  dsimp only
  split <;> exact ⟨⟨rfl, rfl, rfl⟩, rfl, rfl⟩

/-- A file that is no source file is not scanned. -/
theorem rescanFile_of_not {s : Session} {path : Path} (h : s.isScanned path = false) :
    s.rescanFile path = s :=
  if_neg (ne_true_of_eq_false h)

/-- Scanning a file anew changes the catalog as scanning its text does; a file that cannot be read
counts as empty. -/
theorem catalog_rescanFile {s : Session} {path : Path} (h : s.isScanned path = true) :
    (s.rescanFile path).state.catalog =
      (Scan.rescan s.maxScan s.state.catalog path (s.textAt path)).1 := by
  have hscan : (s.rescanFile path).state.catalog = (scanFile s.maxScan s.reader
      ⟨s.state.catalog.removePath path, .empty, 0⟩ path).catalog :=
    congrArg (fun s : Session => s.state.catalog) (if_pos h)
  rw [hscan]
  rcases catalog_scanFile s s.maxScan ⟨s.state.catalog.removePath path, .empty, 0⟩ path with
    hrescan | ⟨hkept, hempty⟩
  · rw [hrescan, Scan.rescan, removePath_removePath]
    rfl
  · rw [hkept, hempty]
    rfl

/-! ### The workspace -/

section

variable (s : Session)

@[simp] theorem send_state (message : Message) : (s.send message).state = s.state := rfl

@[simp] theorem send_disk (message : Message) : (s.send message).disk = s.disk := rfl

@[simp] theorem update_state (f : State → State) : (s.update f).state = f s.state := rfl

@[simp] theorem update_disk (f : State → State) : (s.update f).disk = s.disk := rfl

@[simp] theorem sendSteps_state (token : String) (steps : List ScanProgress) :
    (s.sendSteps token steps).state = s.state := by
  induction steps generalizing s with
  | nil => rfl
  | cons step steps ih => exact ih _

@[simp] theorem sendSteps_disk (token : String) (steps : List ScanProgress) :
    (s.sendSteps token steps).disk = s.disk := by
  induction steps generalizing s with
  | nil => rfl
  | cons step steps ih => exact ih _

@[simp] theorem logInfo_state (text : String) : (s.logInfo text).state = s.state := by
  rw [logInfo]
  split <;> rfl

@[simp] theorem logInfo_disk (text : String) : (s.logInfo text).disk = s.disk := by
  rw [logInfo]
  split <;> rfl

variable {s}

/-- A scan of the workspace makes the catalog anew and tells how far it has come. -/
theorem index_eq (h : s.state.settings.indexing.enable = true) :
    s.Keeps s.index.1 ∧ s.index.1.state.catalog =
      (s.sourceFiles.foldl (scanFile s.maxScan s.reader)
        ⟨.empty, .ofSkipped (discover s.disk s.state.roots s.state.settings.indexing).skipped,
          0⟩).catalog.setMaxAliasHops s.state.settings.flatten.aliasHopCap := by
  rw [index]
  simp only [h, if_true]
  rw [sourceFiles, ← scanBatches_batches s.maxScan s.reader _ batchSize]
  exact ⟨⟨⟨by simp, by simp, by simp⟩, by simp, by simp⟩, by simp [scanFoundInBatches, maxScan]⟩

/-- What holds of the catalog while files are scanned one after the other. -/
theorem isCurrent_foldl_scanFile {done : Scanned} (hdone : done.catalog.IsConsistent)
    (h : ∀ path, done.catalog.IsCurrent s.maxScan (path, s.textAt path)) (files : List Path) :
    let scanned := files.foldl (scanFile s.maxScan s.reader) done
    scanned.catalog.IsConsistent ∧
      ∀ path, scanned.catalog.IsCurrent s.maxScan (path, s.textAt path) := by
  induction files generalizing done with
  | nil => exact ⟨hdone, h⟩
  | cons file files ih =>
    rw [List.foldl_cons]
    rcases catalog_scanFile s s.maxScan done file with hrescan | ⟨hkept, -⟩
    · refine ih (by rw [hrescan]; exact hdone.rescan _ _ _) fun path => ?_
      rw [hrescan]
      by_cases hpath : file = path
      · subst hpath
        exact isCurrent_rescan hdone _ _ _
      · exact (h path).rescan hpath _
    · exact ih (by rwa [hkept]) fun path => by rw [hkept]; exact h path

/-- After a scan of the workspace the catalog is up to date with all texts. -/
theorem isCurrent_index (h : s.state.settings.indexing.enable = true) :
    s.index.1.state.catalog.IsConsistent ∧
      ∀ path, s.index.1.state.catalog.IsCurrent s.maxScan (path, s.textAt path) := by
  rw [(index_eq h).2]
  refine isCurrent_foldl_scanFile isConsistent_empty (fun path f hf => ?_) s.sourceFiles
  exact absurd hf (by cases f <;> simp [Scan.Finding.HeldBy, Catalog.empty])

/-- A file is the only one of some that declares a name. -/
def DeclaresAlone (s : Session) (n : String) (path : Path) (files : List Path) : Prop :=
  ∀ file ∈ files, file ≠ path →
    path.same file = false ∧ ¬(Scan.alone s.maxScan (file, s.textAt file)).Defines n

variable {n : String} {path : Path}

/-- A name that one file declares keeps agreeing with that file. -/
theorem agreeAt_foldl_scanFile {done : Scanned} {files : List Path}
    (hothers : s.DeclaresAlone n path files)
    (h : done.catalog.AgreeAt (Scan.alone s.maxScan (path, s.textAt path)) n) :
    (files.foldl (scanFile s.maxScan s.reader) done).catalog.AgreeAt
      (Scan.alone s.maxScan (path, s.textAt path)) n := by
  induction files generalizing done with
  | nil => exact h
  | cons file files ih =>
    obtain ⟨hfile, hfiles⟩ := List.forall_mem_cons.1 hothers
    rw [List.foldl_cons]
    refine ih hfiles ?_
    rcases catalog_scanFile s s.maxScan done file with hrescan | ⟨hkept, -⟩
    · rw [hrescan]
      by_cases hpath : file = path
      · subst hpath
        exact h.rescan_self _
      · exact h.rescan_other (hfile hpath).1 (hfile hpath).2
    · rwa [hkept]

/-- A name that one file declares agrees with that file once it is scanned. -/
theorem agreeAt_foldl_scanFile_of_mem {done : Scanned} {files : List Path}
    (hothers : s.DeclaresAlone n path files) (hpath : path ∈ files)
    (h : ¬done.catalog.Defines n) :
    (files.foldl (scanFile s.maxScan s.reader) done).catalog.AgreeAt
      (Scan.alone s.maxScan (path, s.textAt path)) n := by
  induction files generalizing done with
  | nil => cases hpath
  | cons file files ih =>
    obtain ⟨hfile, hfiles⟩ := List.forall_mem_cons.1 hothers
    rw [List.foldl_cons]
    -- Forgetting a file brings no name back.
    have hremoved := (agreeAt_removePath_of_not_defines h file).defines_iff
    -- Before the file itself is scanned the name stays undefined, and behind it no other file
    -- defines it.
    by_cases heq : file = path
    · subst heq
      refine agreeAt_foldl_scanFile hfiles ?_
      rcases catalog_scanFile s s.maxScan done file with hrescan | ⟨hkept, hempty⟩
      · rw [hrescan]
        exact Scan.agreeAt_scan_alone (fun hn => h (hremoved.1 hn)) _ _ _
      · rw [hkept, hempty]
        exact agreeAt_empty_iff.2 h
    · refine ih hfiles ((List.mem_cons.1 hpath).resolve_left (Ne.symm heq)) ?_
      rcases catalog_scanFile s s.maxScan done file with hrescan | ⟨hkept, -⟩
      · rw [hrescan, Scan.rescan, (Scan.agreeAt_scan_of_not_defines (hfile heq).2 _).defines_iff,
          hremoved]
        exact h
      · rwa [hkept]

/-- After a scan of the workspace a name that one source file declares agrees with that file. -/
theorem agreeAt_index (h : s.state.settings.indexing.enable = true)
    (hothers : s.DeclaresAlone n path s.sourceFiles) (hpath : path ∈ s.sourceFiles) :
    s.index.1.state.catalog.AgreeAt (Scan.alone s.maxScan (path, s.textAt path)) n := by
  rw [(index_eq h).2]
  have hagree := @agreeAt_foldl_scanFile_of_mem s n path ⟨.empty, .ofSkipped
    (discover s.disk s.state.roots s.state.settings.indexing).skipped, 0⟩ _ hothers hpath
    (not_defines_empty n)
  exact ⟨hagree.structs, hagree.aliases, hagree.unparseable⟩

end

/-! ### Batches -/

/-- Files are scanned in batches as they are all at once, whatever their number, the size of the
batches and the reader: with the same catalog, and with a report of the same counts and the same
problems in the same order that counts each file found as scanned or as passed over. So a scan of
the workspace that the editor can follow leaves the catalog and the report that building it has. -/
theorem index_eq_build :
    (∀ (size : Nat) (reader : Reader) (flatten : FlattenSettings) (found : Discovered),
      let batched := scanFoundInBatches size reader flatten found
      let built := scanFound reader flatten found
      batched.1 = built.1 ∧ batched.2 = built.2 ∧
        batched.2.filesScanned + batched.2.filesSkipped = found.files.length + found.skipped ∧
        built.2.filesScanned + built.2.filesSkipped = found.files.length + found.skipped) ∧
    ∀ s : Session,
      let settings := s.state.settings
      let built := build s.disk s.reader s.state.roots settings.indexing settings.flatten
      s.index.1.state.catalog =
          (if settings.indexing.enable = true then built.1 else s.state.catalog) ∧
        s.index.2 = if settings.indexing.enable = true then some built.2 else none := by
  refine ⟨fun size reader flatten found => ?_, fun s => ?_⟩
  · have hfiles := files_scanFound reader flatten found
    dsimp only
    rw [scanFoundInBatches_eq]
    exact ⟨rfl, rfl, hfiles, hfiles⟩
  · dsimp only
    rw [index, build]
    by_cases h : s.state.settings.indexing.enable = true
    · simp [h, scanFoundInBatches_eq]
    · simp [h]

end StructUnfold.Server.Session
