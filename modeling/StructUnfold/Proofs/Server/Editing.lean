import Mathlib.Data.List.Infix
import StructUnfold.Proofs.Document
import StructUnfold.Proofs.Scan.Fresh
import StructUnfold.Proofs.Server.Indexing
import StructUnfold.Proofs.Workspace.Discovery
import StructUnfold.Server.Dispatch

/-!
# The catalog while documents are edited

An editor opens, changes, saves and closes documents and asks for scans of the workspace, and each
time the server comes to rest before the next. All of these but the opening of a document are
followed by a scan of the file. So the catalog holds what some text of the file declares, and that
is the present one, unless a document was opened with another text and nothing has happened to it
since.

* `Event`, `Session.run`: what an editor does, and what it leads to.
* `Event.lags`, `Session.lagsAfter`: whether the catalog lags behind the text of a file.
* `after_cases`, `after_effect`: what an event can do.
* `exists_text_after`, `exists_text_run`: the text that the catalog is up to date with.
* `catalog_of_run`: the entries of a file that is open after a run.
-/

namespace StructUnfold.Server

open Catalog Workspace

/-- What an editor does while documents are edited. -/
inductive Event where
  /-- It opens a document. -/
  | opened (uri : Uri) (document : Document)
  /-- It changes a document. -/
  | changed (uri : Uri) (changes : List Change) (version : Int)
  /-- It saves a document. -/
  | saved (uri : Uri) (text : Option (List Char))
  /-- It closes a document. -/
  | closed (uri : Uri)
  /-- It asks for a scan of the workspace. -/
  | rescan

namespace Event

/-- The document that an event is about. -/
def uri? : Event → Option Uri
  | opened uri _ => some uri
  | changed uri .. => some uri
  | saved uri _ => some uri
  | closed uri => some uri
  | rescan => none

/-- What the server does when it is told of an event. -/
def tell (s : Session) : Event → Session
  | opened uri document => s.notice (.opened uri document)
  | changed uri changes version => s.notice (.changed uri changes version)
  | saved uri text => s.notice (.saved uri text)
  | closed uri => s.notice (.closed uri)
  | rescan => (s.execute rescanCommand []).1

/-- An event that is about a file names it by a plain path. -/
def IsPlain (event : Event) : Prop :=
  ∀ uri ∈ event.uri?, ∀ file ∈ uri.toFilePath?, file.IsPlain

instance : DecidablePred IsPlain := fun event =>
  inferInstanceAs (Decidable (∀ uri ∈ event.uri?, ∀ file ∈ uri.toFilePath?, file.IsPlain))

end Event

namespace Session

/-- The session once the server has come to rest after an event. -/
def after (s : Session) (event : Event) : Session :=
  (event.tell s).settle

/-- The session after one event and another, each followed by rest. -/
def run (s : Session) (events : List Event) : Session :=
  events.foldl after s

/-- The file that an event is about. -/
def fileOf? (s : Session) (event : Event) : Option Path :=
  (event.uri?.bind Uri.toFilePath?).map s.disk.normalize

/-- The file that is scanned because of an event; none for a document that is opened. -/
def scannedFile? (s : Session) : Event → Option Path
  | .opened .. => none
  | event => (s.fileOf? event).filter s.isScanned

end Session

/-- Whether the catalog lags behind the text of a file after an event, given whether it did before:
a document that is opened with another text than the file had leaves it behind, and all else that
happens to the file brings it up to date. -/
def Event.lags (s : Session) (path : Path) (before : Bool) : Event → Bool
  | rescan => false
  | opened uri document =>
    before || (s.fileOf? (opened uri document) == some path && s.textAt path != document.text)
  | event => before && s.fileOf? event != some path

namespace Session

/-- Whether the catalog lags behind the text of a file after a run. -/
def lagsAfter (s : Session) (path : Path) : Bool → List Event → Bool
  | before, [] => before
  | before, event :: events => (s.after event).lagsAfter path (event.lags s path before) events

/-! ### What an event can do -/

/-- Sessions that differ in one document, and in what edits were counted, the second of them at
rest. -/
structure EditedAt (uri : Uri) (s t : Session) : Prop extends s.SameWorkspace t where
  /-- The catalog is the same. -/
  catalog : t.state.catalog = s.state.catalog
  /-- All other documents are the same. -/
  documents : t.state.documents.SameBut uri s.state.documents
  /-- No rescan is put off. -/
  putOff : t.state.putOff = []

theorem settle_of_idle {s : Session} (h : s.state.putOff = []) : s.settle = s := by
  obtain ⟨state, disk, sent⟩ := s
  obtain ⟨phase, ready, roots, settings, documents, catalog, edits, putOff, scans⟩ := state
  obtain rfl : putOff = [] := h
  rfl

theorem keeps_rescan (s : Session) (uri : Uri) : s.Keeps (s.rescan uri) := by
  rw [rescan]
  split
  · exact keeps_rescanFile s _
  · exact ⟨.refl s, rfl, rfl⟩

/-- The rescan that is put off for an edit of a document is run when the edits come to rest. -/
theorem settle_countEdit {s : Session} (h : s.state.putOff = []) (uri : Uri) :
    ∃ t : Session, t = { s with state := { s.state.countEdit uri with putOff := [] } } ∧
      (s.update fun state => state.countEdit uri).settle = t.rescan uri := by
  refine ⟨_, rfl, ?_⟩
  have hputOff : (s.state.countEdit uri).putOff = if uri.toFilePath?.isSome then
      [(uri, (s.state.editsOf? uri).getD 0 + 1)] else [] := by
    rw [State.countEdit, h]
    rfl
  rw [settle, update_state, hputOff]
  split
  · -- The edit is the last one of the document.
    have hlast : (s.state.countEdit uri).editsOf? uri =
        some ((s.state.editsOf? uri).getD 0 + 1) := by
      simp [State.countEdit, State.editsOf?]
    show rescanAfter _ uri _ = _
    rw [rescanAfter, if_pos]
    · rfl
    · exact beq_iff_eq.2 hlast
  · rename_i hnone
    rw [Option.not_isSome_iff_eq_none] at hnone
    rw [rescan, hnone]
    rfl

theorem save_eq (s : Session) (uri : Uri) (text : Option (List Char)) :
    ∃ documents : DocumentStore, documents.SameBut uri s.state.documents ∧
      s.save uri text = (s.update fun state => { state with documents }).rescan uri := by
  cases text with
  | none => exact ⟨s.state.documents, .refl _ _, rfl⟩
  | some text => exact ⟨_, DocumentStore.sameBut_put _ _ _, rfl⟩

/-- What an event can do to a session at rest. -/
theorem after_cases {s : Session} (h : s.state.putOff = []) (event : Event) :
    (∃ uri document, event = .opened uri document ∧ s.EditedAt uri (s.after event) ∧
        (s.after event).state.documents = s.state.documents.put uri document) ∨
      (∃ uri t, event.uri? = some uri ∧
          s.scannedFile? event = (s.fileOf? event).filter s.isScanned ∧ (∀ path before,
          event.lags s path before = (before && s.fileOf? event != some path)) ∧
          s.EditedAt uri t ∧ s.after event = t.rescan uri) ∨
        event = .rescan ∧ s.after event = s.index.1.settle := by
  have hsettle : ∀ t uri, EditedAt uri s t → (t.rescan uri).settle = t.rescan uri :=
    fun t uri hedited => settle_of_idle ((t.keeps_rescan uri).putOff.trans hedited.putOff)
  cases event with
  | opened uri document =>
    have hafter : s.after (.opened uri document) = s.update fun state =>
        { state with documents := state.documents.put uri document } := settle_of_idle h
    rw [hafter]
    exact .inl ⟨uri, document, rfl,
      ⟨⟨rfl, rfl, rfl⟩, rfl, DocumentStore.sameBut_put _ _ _, h⟩, rfl⟩
  | changed uri changes version =>
    -- The scan that was put off is run once the server comes to rest.
    obtain ⟨t, ht, hsettled⟩ := @settle_countEdit (s.update fun state =>
      { state with documents := state.documents.change uri changes version }) h uri
    refine .inr (.inl ⟨uri, t, rfl, rfl, fun _ _ => rfl, ?_, hsettled⟩)
    rw [ht]
    exact ⟨⟨rfl, rfl, rfl⟩, rfl, DocumentStore.sameBut_change _ _ _ _, rfl⟩
  | saved uri text =>
    obtain ⟨documents, hdocuments, hsave⟩ := s.save_eq uri text
    have hedited : s.EditedAt uri (s.update fun state => { state with documents }) :=
      ⟨⟨rfl, rfl, rfl⟩, rfl, hdocuments, h⟩
    refine .inr (.inl ⟨uri, _, rfl, rfl, fun _ _ => rfl, hedited, ?_⟩)
    exact (congrArg settle hsave).trans (hsettle _ _ hedited)
  | closed uri =>
    have hedited : s.EditedAt uri (s.update fun state =>
        { state with documents := state.documents.close uri }.forgetEdits uri) :=
      ⟨⟨rfl, rfl, rfl⟩, rfl, DocumentStore.sameBut_close _ _, h⟩
    exact .inr (.inl ⟨uri, _, rfl, rfl, fun _ _ => rfl, hedited, hsettle _ _ hedited⟩)
  | rescan =>
    refine .inr (.inr ⟨rfl, congrArg settle ?_⟩)
    show s.runRescan.1 = _
    rw [runRescan]
    split <;> rename_i hindex <;> rw [hindex]

/-! ### What an event does to texts and catalog -/

/-- A source file, known by its plain path in normal form. -/
structure IsSource (s : Session) (path : Path) : Prop where
  /-- The path is plain. -/
  plain : path.IsPlain
  /-- It is in normal form. -/
  normal : s.disk.normalize path = path
  /-- The file is scanned when it changes. -/
  scanned : s.isScanned path = true

variable {s : Session} {event : Event}

theorem SameWorkspace.isSource {t : Session} (h : s.SameWorkspace t) {path : Path} :
    t.IsSource path ↔ s.IsSource path := by
  constructor
  · intro ⟨hplain, hnormal, hscanned⟩
    exact ⟨hplain, h.disk ▸ hnormal, h.isScanned path ▸ hscanned⟩
  · intro ⟨hplain, hnormal, hscanned⟩
    exact ⟨hplain, h.disk ▸ hnormal, (h.isScanned path).trans hscanned⟩

/-- A document changes the texts of no files but its own. -/
theorem EditedAt.textAt {t : Session} {uri : Uri} (h : s.EditedAt uri t) {path : Path}
    (hpath : s.IsSource path)
    (huri : ∀ file, uri.toFilePath? = some file →
      file.IsPlain ∧ s.disk.normalize file ≠ path) : t.textAt path = s.textAt path := by
  refine textAt_congr h.disk ?_
  rw [h.disk]
  refine DocumentStore.textOf?_congr h.documents ?_
  rw [hpath.normal]
  refine Uri.standsFor_eq_false hpath.plain hpath.normal fun file hfile => ?_
  obtain ⟨hplain, hne⟩ := huri file hfile
  refine ⟨hplain, Bool.eq_false_iff.2 fun hsame => hne ?_⟩
  exact (hplain.normalize s.disk).eq_of_same hpath.plain hsame

/-- A document that is opened changes no text if that leaves the catalog up to date. -/
theorem textAt_opened {t : Session} {uri : Uri} {document : Document}
    (hplain : (Event.opened uri document).IsPlain) (hedited : s.EditedAt uri t)
    (hput : t.state.documents = s.state.documents.put uri document) {path : Path}
    (hpath : s.IsSource path) {before : Bool}
    (hlags : (Event.opened uri document).lags s path before = false) :
    before = false ∧ t.textAt path = s.textAt path := by
  obtain ⟨hbefore, hnew⟩ := Bool.or_eq_false_iff.1 hlags
  refine ⟨hbefore, ?_⟩
  by_cases hfile : ∃ file, uri.toFilePath? = some file ∧ s.disk.normalize file = path
  · obtain ⟨file, hfile, rfl⟩ := hfile
    rcases s.state.documents.textOf?_put uri document with hsame | hdocument
    · refine textAt_congr hedited.disk ?_
      rw [hput, hedited.disk]
      exact hsame
    · have htext : t.state.documents.textOf? t.disk.normalize (s.disk.normalize file) =
          some document.text := by rwa [hput, hedited.disk]
      have hopened : s.fileOf? (.opened uri document) = some (s.disk.normalize file) := by
        rw [fileOf?, Event.uri?, Option.bind_some, hfile, Option.map_some]
      rw [hopened, beq_self_eq_true, Bool.true_and] at hnew
      rw [(textAt_of_textOf? htext).2]
      exact (bne_eq_false_iff_eq.1 hnew).symm
  · refine hedited.textAt hpath fun file huri => ⟨hplain uri rfl file huri, fun heq => hfile ?_⟩
    exact ⟨file, huri, heq⟩

/-- What an event does: the file it is about is scanned, or the catalog stays as it is and lags
behind where a text changes, or the workspace is scanned. -/
theorem after_effect (henabled : s.state.settings.indexing.enable = true)
    (hidle : s.state.putOff = []) (hplain : event.IsPlain) :
    let t := s.after event
    s.SameWorkspace t ∧ t.state.putOff = [] ∧
      ((∃ file, s.scannedFile? event = some file ∧ s.fileOf? event = some file ∧ file.IsPlain ∧
          t.state.catalog = (Scan.rescan s.maxScan s.state.catalog file (t.textAt file)).1 ∧
          ∀ path, s.IsSource path → file ≠ path →
            t.textAt path = s.textAt path ∧ ∀ before, event.lags s path before = before) ∨
        (s.scannedFile? event = none ∧ t.state.catalog = s.state.catalog ∧
          ∀ path, s.IsSource path → ∀ before, event.lags s path before = false →
            before = false ∧ t.textAt path = s.textAt path) ∨
        s.scannedFile? event = none ∧ t.state.catalog = s.index.1.state.catalog ∧
          ∀ path, t.textAt path = s.textAt path) := by
  intro t
  rcases after_cases hidle event with
    ⟨uri, document, rfl, hedited, hput⟩ | ⟨uri, r, huri, hscans, hlags, hedited, hafter⟩ |
    ⟨rfl, hafter⟩
  · exact ⟨hedited.toSameWorkspace, hedited.putOff, .inr (.inl ⟨rfl, hedited.catalog,
      fun path hpath _ hlags => textAt_opened hplain hedited hput hpath hlags⟩)⟩
  · have hkeeps := r.keeps_rescan uri
    rw [← hafter] at hkeeps
    refine ⟨hedited.toSameWorkspace.trans hkeeps.toSameWorkspace,
      hkeeps.putOff.trans hedited.putOff, ?_⟩
    have hfileOf : s.fileOf? event = uri.toFilePath?.map s.disk.normalize := by
      rw [fileOf?, huri, Option.bind_some]
    -- Texts change where the document does, before anything is scanned.
    have hother : ∀ path, s.IsSource path → s.fileOf? event ≠ some path →
        t.textAt path = s.textAt path ∧ ∀ before, event.lags s path before = before := by
      refine fun path hpath hne => ⟨?_, fun before => ?_⟩
      · rw [hkeeps.textAt]
        refine hedited.textAt hpath fun file hfile => ⟨hplain uri huri file hfile, fun heq => ?_⟩
        rw [hfileOf, hfile, Option.map_some, heq] at hne
        exact hne rfl
      · rw [hlags, bne_iff_ne.2 hne, Bool.and_true]
    cases hfile : uri.toFilePath? with
    | none =>
      rw [hfile, Option.map_none] at hfileOf
      refine .inr (.inl ⟨by rw [hscans, hfileOf]; rfl, ?_, fun path hpath before hbehind => ?_⟩)
      · show (s.after event).state.catalog = _
        rw [hafter, rescan, hfile]
        exact hedited.catalog
      · obtain ⟨htext, hsame⟩ := hother path hpath (by rw [hfileOf]; exact nofun)
        exact ⟨(hsame before).symm.trans hbehind, htext⟩
    | some file =>
      rw [hfile, Option.map_some] at hfileOf
      rw [hfileOf] at hscans
      have hrescan : t = r.rescanFile (s.disk.normalize file) := by
        show s.after event = _
        rw [hafter, rescan, hfile, hedited.disk]
      cases hscanned : s.isScanned (s.disk.normalize file) with
      | true =>
        refine .inl ⟨s.disk.normalize file, hscans.trans (Option.filter_some_pos hscanned), hfileOf,
          (hplain uri huri file hfile).normalize s.disk, ?_,
          fun path hpath hne => hother path hpath ?_⟩
        · rw [hkeeps.textAt, hrescan, catalog_rescanFile (by rw [hedited.isScanned, hscanned]),
            hedited.maxScan, hedited.catalog]
        · rw [hfileOf]
          exact fun heq => hne (Option.some.inj heq)
      | false =>
        refine .inr (.inl ⟨?_, ?_, fun path hpath before hbehind => ?_⟩)
        · rw [hscans, Option.filter_some_neg hscanned]
        · rw [hrescan, rescanFile_of_not (by rw [hedited.isScanned, hscanned])]
          exact hedited.catalog
        · have hne : s.fileOf? event ≠ some path := by
            intro heq
            rw [Option.some.inj (hfileOf.symm.trans heq), hpath.scanned] at hscanned
            cases hscanned
          obtain ⟨htext, hsame⟩ := hother path hpath hne
          exact ⟨(hsame before).symm.trans hbehind, htext⟩
  · have hkeeps := (index_eq henabled).1
    have hindex : t = s.index.1 := hafter.trans (settle_of_idle (hkeeps.putOff.trans hidle))
    rw [hindex]
    exact ⟨hkeeps.toSameWorkspace, hkeeps.putOff.trans hidle, .inr (.inr ⟨rfl, rfl, hkeeps.textAt⟩)⟩

/-! ### What an event preserves -/

/-- A session at rest that keeps a catalog. -/
structure IsIndexing (s : Session) : Prop where
  /-- The server keeps a catalog. -/
  enabled : s.state.settings.indexing.enable = true
  /-- No rescan is put off. -/
  idle : s.state.putOff = []
  /-- No name is both a struct and unparseable. -/
  consistent : s.state.catalog.IsConsistent

/-- The catalog is up to date with a text of a file, and that is the present one unless it lags
behind. -/
structure IsCurrentAt (s : Session) (path : Path) (behind : Bool) (text : List Char) : Prop where
  /-- The catalog is up to date with the text. -/
  current : s.state.catalog.IsCurrent s.maxScan (path, text)
  /-- The text is the present one. -/
  text : behind = false → s.textAt path = text

theorem isIndexing_index (henabled : s.state.settings.indexing.enable = true)
    (hidle : s.state.putOff = []) : s.index.1.IsIndexing := by
  have hkeeps := (index_eq henabled).1
  exact ⟨by rwa [hkeeps.settings], hkeeps.putOff.trans hidle, (isCurrent_index henabled).1⟩

/-- A scan of the workspace brings the catalog up to date. -/
theorem isCurrentAt_index (henabled : s.state.settings.indexing.enable = true) (path : Path) :
    s.index.1.IsCurrentAt path false (s.index.1.textAt path) := by
  have hkeeps := (index_eq henabled).1
  refine ⟨?_, fun _ => rfl⟩
  rw [hkeeps.maxScan, hkeeps.textAt]
  exact (isCurrent_index henabled).2 path

theorem IsIndexing.after (h : s.IsIndexing) (hplain : event.IsPlain) :
    (s.after event).IsIndexing := by
  obtain ⟨hsame, hidle, heffect⟩ := after_effect h.enabled h.idle hplain
  refine ⟨by rw [hsame.settings]; exact h.enabled, hidle, ?_⟩
  rcases heffect with ⟨file, -, -, -, hcatalog, -⟩ | ⟨-, hcatalog, -⟩ | ⟨-, hcatalog, -⟩ <;>
    rw [hcatalog]
  · exact h.consistent.rescan _ _ _
  · exact h.consistent
  · exact (isCurrent_index h.enabled).1

/-- The files that are scanned in a run: those of the workspace and those that events are about. -/
def scannedFiles (s : Session) (events : List Event) : List Path :=
  s.sourceFiles ++ events.filterMap s.fileOf?

/-- No other file of some declares a name. -/
def DeclaredOnlyIn (s : Session) (n : String) (path : Path) (files : List Path) : Prop :=
  ∀ file ∈ files, file ≠ path → ¬(Scan.alone s.maxScan (file, s.textAt file)).Defines n

instance (c : Catalog) (n : String) : Decidable (c.Defines n) :=
  inferInstanceAs (Decidable (_ ∨ _ ∨ _))

instance (s : Session) (n : String) (path : Path) (files : List Path) :
    Decidable (s.DeclaredOnlyIn n path files) :=
  inferInstanceAs (Decidable (∀ file ∈ files, file ≠ path →
    ¬(Scan.alone s.maxScan (file, s.textAt file)).Defines n))

variable {n : String} {path : Path} {events : List Event}

/-- Source files have different components. -/
theorem DeclaredOnlyIn.declaresAlone (hfound : path ∈ s.sourceFiles)
    (h : s.DeclaredOnlyIn n path s.sourceFiles) : s.DeclaresAlone n path s.sourceFiles := by
  have hsymm : Std.Symm fun p q : Path => p.same q = false :=
    ⟨fun p q hsame => (Path.same_comm q p).trans hsame⟩
  exact fun file hfile hne =>
    ⟨(pairwise_files _ _ _).forall hfound hfile hne.symm, h file hfile hne⟩

/-- After an event there is again a text that the catalog is up to date with, and a name that no
other file declares still agrees with it. -/
theorem exists_text_after (h : s.IsIndexing) (hplain : event.IsPlain) (hpath : s.IsSource path)
    (hfound : path ∈ s.sourceFiles) {behind : Bool} {old : List Char}
    (hold : s.IsCurrentAt path behind old) :
    ∃ new, (s.after event).IsCurrentAt path (event.lags s path behind) new ∧
      ∀ n, (s.after event).DeclaredOnlyIn n path (s.scannedFiles [event]) →
        s.state.catalog.AgreeAt (Scan.alone s.maxScan (path, old)) n →
        (s.after event).state.catalog.AgreeAt (Scan.alone s.maxScan (path, new)) n := by
  obtain ⟨hsame, -, heffect⟩ := after_effect h.enabled h.idle hplain
  rcases heffect with ⟨file, -, hfile, hfilePlain, hcatalog, hother⟩ | ⟨-, hcatalog, htext⟩ |
    ⟨-, hcatalog, htext⟩
  · -- One file was scanned: the file itself, or another one.
    by_cases hne : file = path
    · subst hne
      refine ⟨(s.after event).textAt file, ⟨?_, fun _ => rfl⟩, fun n _ hagree => ?_⟩
      · rw [hcatalog, hsame.maxScan]
        exact isCurrent_rescan h.consistent _ _ _
      · rw [hcatalog]
        exact hagree.rescan_self _
    · obtain ⟨htext, hlags⟩ := hother path hpath hne
      refine ⟨old, ⟨?_, fun hbehind => ?_⟩, fun n honly hagree => ?_⟩
      · rw [hcatalog, hsame.maxScan]
        exact hold.current.rescan hne _
      · rw [htext]
        exact hold.text ((hlags behind).symm.trans hbehind)
      · rw [hcatalog]
        have hmem : file ∈ s.scannedFiles [event] :=
          List.mem_append_right _ (List.mem_filterMap.2 ⟨event, List.mem_singleton_self _, hfile⟩)
        have hnot := honly file hmem hne
        rw [hsame.maxScan] at hnot
        refine hagree.rescan_other (Bool.eq_false_iff.2 fun heq => hne ?_) hnot
        exact (hpath.plain.eq_of_same hfilePlain heq).symm
  · -- No file was scanned.
    refine ⟨old, ⟨?_, fun hbehind => ?_⟩, fun n _ hagree => ?_⟩
    · rw [hcatalog, hsame.maxScan]
      exact hold.current
    · obtain ⟨hbefore, hunchanged⟩ := htext path hpath behind hbehind
      rw [hunchanged]
      exact hold.text hbefore
    · rwa [hcatalog]
  · -- The whole workspace was scanned.
    refine ⟨s.textAt path, ⟨?_, fun _ => htext path⟩, fun n honly _ => ?_⟩
    · rw [hcatalog, hsame.maxScan]
      exact (isCurrent_index h.enabled).2 path
    · have hothers : s.DeclaredOnlyIn n path s.sourceFiles := by
        intro file hfile hne
        rw [← htext file, ← hsame.maxScan]
        exact honly file (List.mem_append_left _ hfile) hne
      rw [hcatalog]
      exact agreeAt_index h.enabled (hothers.declaresAlone hfound) hfound

/-! ### Runs -/

theorem SameWorkspace.scannedFiles {t : Session} (h : s.SameWorkspace t) (events : List Event) :
    t.scannedFiles events = s.scannedFiles events := by
  have hfile : t.fileOf? = s.fileOf? := by
    funext event
    rw [fileOf?, fileOf?, h.disk]
  rw [Session.scannedFiles, Session.scannedFiles, h.sourceFiles, hfile]

theorem mem_scannedFiles_of_subset {events' : List Event} (h : events ⊆ events') {file : Path}
    (hfile : file ∈ s.scannedFiles events) : file ∈ s.scannedFiles events' := by
  rcases List.mem_append.1 hfile with hfile | hfile
  · exact List.mem_append_left _ hfile
  · obtain ⟨event, hevent, hfile⟩ := List.mem_filterMap.1 hfile
    exact List.mem_append_right _ (List.mem_filterMap.2 ⟨event, h hevent, hfile⟩)

/-- After a run there is again a text that the catalog is up to date with, and a name that no other
file ever declares still agrees with it. -/
theorem exists_text_run (h : s.IsIndexing) (hplain : ∀ event ∈ events, event.IsPlain)
    (hpath : s.IsSource path)
    (hfound : path ∈ s.sourceFiles) {behind : Bool} {old : List Char}
    (hold : s.IsCurrentAt path behind old) :
    s.SameWorkspace (s.run events) ∧
      ∃ new, (s.run events).IsCurrentAt path (s.lagsAfter path behind events) new ∧
        ∀ n, (∀ done, done <+: events →
            (s.run done).DeclaredOnlyIn n path (s.scannedFiles events)) →
          s.state.catalog.AgreeAt (Scan.alone s.maxScan (path, old)) n →
          (s.run events).state.catalog.AgreeAt (Scan.alone s.maxScan (path, new)) n := by
  induction events generalizing s behind old with
  | nil => exact ⟨.refl s, old, hold, fun n _ hagree => hagree⟩
  | cons event events ih =>
    obtain ⟨hfirst, hrest⟩ := List.forall_mem_cons.1 hplain
    have hsame := (after_effect h.enabled h.idle hfirst).1
    obtain ⟨mid, hmid, hagreeMid⟩ := exists_text_after h hfirst hpath hfound hold
    obtain ⟨hlast, new, hnew, hagreeNew⟩ := ih (h.after hfirst) hrest
      (hsame.isSource.2 hpath) (by rwa [hsame.sourceFiles]) hmid
    refine ⟨hsame.trans hlast, new, hnew, fun n honly hagree => ?_⟩
    rw [hsame.scannedFiles, hsame.maxScan] at hagreeNew
    refine hagreeNew n (fun done hdone file hfile => ?_) (hagreeMid n (fun file hfile => ?_) hagree)
    · exact honly (event :: done) (List.cons_prefix_cons.2 ⟨rfl, hdone⟩) file
        (mem_scannedFiles_of_subset (List.subset_cons_self event events) hfile)
    · exact honly [event] (List.prefix_append [event] events) file
        (mem_scannedFiles_of_subset (List.cons_subset_cons event (List.nil_subset events)) hfile)

/-- **Open documents and the catalog.** Scan the workspace, and then let an editor open, change,
save and close documents and ask for further scans, the server coming to rest each time. Take an
open document that alone stands for a source file, one that is known by a plain path. If the last
opening of it with another text was followed by some other event of the file or by a scan of the
workspace, the server reads the text of the document, and all that the catalog holds in the file is
held by that text scanned alone. Its structs are found at their offsets. What the text declares
under a name that no other file declares at any time is in the catalog as the text declares it. -/
theorem catalog_of_run (henabled : s.state.settings.indexing.enable = true)
    (hidle : s.state.putOff = []) (hplain : ∀ event ∈ events, event.IsPlain) {uri : Uri}
    {file : Path} {document : Document} (hfile : uri.toFilePath? = some file)
    (hpathPlain : (s.disk.normalize file).IsPlain) (hfound : s.disk.normalize file ∈ s.sourceFiles)
    (hscanned : s.isScanned (s.disk.normalize file) = true)
    (hlags : s.index.1.lagsAfter (s.disk.normalize file) false events = false)
    (hopen : (s.index.1.run events).state.documents.get? uri = some document)
    (honly : ∀ d ∈ (s.index.1.run events).state.documents.documents,
      d.1.standsFor s.disk.normalize (s.disk.normalize file) = true → d.1 = uri) :
    let t := s.index.1.run events
    let path := s.disk.normalize file
    t.reader 0 path = .ok document.text ∧
      t.state.catalog.IsCurrent s.maxScan (path, document.text) ∧
      (∀ name d, t.state.catalog.structs.get? name = some d → d.path = path →
        Scan.Registers document.text name d.offset) ∧
      ∀ name, (∀ done, done <+: events →
          (s.index.1.run done).DeclaredOnlyIn name path (s.scannedFiles events)) →
        t.state.catalog.AgreeAt (Scan.alone s.maxScan (path, document.text)) name := by
  intro t path
  have hnormal : s.disk.normalize path = path := by
    rcases Uri.isAbsolute_or_eq_of_toFilePath? hfile with habsolute | rfl
    · exact s.disk.normalize_normalize (.inl habsolute)
    · cases hpathPlain.isAbsolute
  have hsource : s.IsSource path := ⟨hpathPlain, hnormal, hscanned⟩
  have hkeeps := (index_eq henabled).1
  obtain ⟨hsame, text, htext, hagree⟩ := exists_text_run
    (isIndexing_index henabled hidle) hplain (hkeeps.isSource.2 hsource)
    (by rwa [hkeeps.sourceFiles]) (isCurrentAt_index henabled path)
  have hworkspace : s.SameWorkspace t := hkeeps.toSameWorkspace.trans hsame
  -- The one document that stands for the file is read.
  have hstands : uri.standsFor s.disk.normalize path = true := by
    rw [Uri.standsFor, hfile, Bool.or_eq_true]
    exact .inr (Path.same_refl path)
  have htextOf : t.state.documents.textOf? t.disk.normalize path = some document.text := by
    rw [hworkspace.disk]
    exact DocumentStore.textOf?_of_only hpathPlain.isAbsolute hnormal hopen hstands honly
  obtain ⟨hreader, hdocument⟩ := textAt_of_textOf? htextOf
  obtain rfl : document.text = text := hdocument.symm.trans (htext.text hlags)
  have hcurrent : t.state.catalog.IsCurrent s.maxScan (path, document.text) := by
    rw [← hworkspace.maxScan]
    exact htext.current
  refine ⟨hreader, hcurrent, fun name d hget hdpath => ?_, fun name hname => ?_⟩
  · have hmem := Scan.mem_findings_of_heldBy_alone (hcurrent (.struct name d) hget hdpath)
    exact (Scan.registers_of_mem_findings hmem).2
  · have hsources : s.DeclaredOnlyIn name path s.sourceFiles := by
      intro other hother hne
      have hnot := hname [] List.nil_prefix other (List.mem_append_left _ hother) hne
      rwa [run, List.foldl_nil, hkeeps.maxScan, hkeeps.textAt] at hnot
    have hstart := agreeAt_index henabled (hsources.declaresAlone hfound) hfound
    rw [hkeeps.maxScan, hkeeps.scannedFiles, hkeeps.textAt] at hagree
    exact hagree name hname hstart

/-- A disk with two source files. -/
def nodeDisk : Disk where
  entries :=
    [([.ofString "w"], .directory),
      ([.ofString "w", .ofString "list.h"], .text "struct List \x7b\n    Node *head;\n\x7d;\n"),
      ([.ofString "w", .ofString "node.h"], .text "struct Node \x7b\n    int value;\n\x7d;\n")]
  current := []

/-- A session that has been set up for the files. -/
def nodeSession : Session :=
  ⟨{ State.start with phase := .running, roots := [.ofString "/w"] }, nodeDisk, []⟩

/-- The URI of one of the files. -/
def nodeUri (name : String) : Uri :=
  ⟨"file", some "", none, .segments ["w", name], none, none⟩

/-- Both files are opened, one of them with another text than it has, and one is closed. The other
one is changed, saved and changed again, with a scan of the workspace in between. -/
def nodeEvents : List Event :=
  [.opened (nodeUri "node.h") ⟨"struct Node \x7b\n    char value;\n\x7d;\n".toList, 1⟩,
    .changed (nodeUri "node.h") [⟨some ⟨⟨0, 0⟩, ⟨0, 0⟩⟩, "#pragma once\n".toList⟩] 2,
    .opened (nodeUri "list.h") ⟨"struct List \x7b\n    Node *head;\n\x7d;\n".toList, 1⟩,
    .saved (nodeUri "node.h") none,
    .closed (nodeUri "list.h"),
    .rescan,
    .changed (nodeUri "node.h") [⟨some ⟨⟨2, 4⟩, ⟨2, 8⟩⟩, "List".toList⟩] 3]

/-- `catalog_of_run` at the events: `Node` is held at the offset it has in the document. -/
theorem catalog_of_run_nodeEvents :
    let t := nodeSession.index.1.run nodeEvents
    let path := Path.ofString "/w/node.h"
    let text := "#pragma once\nstruct Node \x7b\n    List value;\n\x7d;\n".toList
    nodeSession.index.1.lagsAfter path false nodeEvents = false ∧ t.reader 0 path = .ok text ∧
      t.state.catalog.IsCurrent nodeSession.maxScan (path, text) ∧
      t.state.catalog.structs.get? "Node" = some ⟨path, 25, none⟩ := by
  intro t path text
  have hpath : nodeSession.disk.normalize path = path := by decide +kernel
  have hlags : nodeSession.index.1.lagsAfter path false nodeEvents = false := by decide +kernel
  have hopen : t.state.documents.get? (nodeUri "node.h") = some ⟨text, 3⟩ := by decide +kernel
  obtain ⟨hreader, hcurrent, -, hagree⟩ :=
    @catalog_of_run nodeSession nodeEvents (by decide +kernel) rfl (by decide +kernel)
      (nodeUri "node.h") path ⟨text, 3⟩ (by decide +kernel) (by decide +kernel) (by decide +kernel)
      (by decide +kernel) (by rwa [hpath]) hopen (by decide +kernel)
  rw [hpath] at hreader hcurrent hagree
  -- There are eight beginnings of the run, and each is checked.
  have hall : ∀ done ∈ nodeEvents.inits,
      (nodeSession.index.1.run done).DeclaredOnlyIn "Node" path
        (nodeSession.scannedFiles nodeEvents) := by
    decide +kernel
  have hnode := hagree "Node" fun done hdone => hall done ((List.mem_inits _ _).2 hdone)
  refine ⟨hlags, hreader, hcurrent, hnode.structs.trans ?_⟩
  decide +kernel

/-- A document that is opened with another text than its file has is not scanned, and the catalog
lags behind it. -/
theorem catalog_of_opened :
    let text := "#pragma once\nstruct Node \x7b\n    int value;\n\x7d;\n".toList
    let t := nodeSession.index.1.after (.opened (nodeUri "node.h") ⟨text, 1⟩)
    let path := Path.ofString "/w/node.h"
    path ∈ nodeSession.sourceFiles ∧ t.textAt path = text ∧
      t.state.catalog.structs.get? "Node" = some ⟨path, 12, none⟩ ∧
      Header.nameAt? text 12 = none ∧
      (Scan.alone nodeSession.maxScan (path, text)).structs.get? "Node" =
        some ⟨path, 25, none⟩ := by
  decide +kernel

end Session

end StructUnfold.Server
