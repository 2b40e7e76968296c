import StructUnfold.Proofs.Expansion.Semantics
import StructUnfold.Proofs.Scan.Fresh
import StructUnfold.Proofs.Source.Block

/-!
# Expanding with a fresh catalog

With a catalog that is fresh for the texts its files are read from, no struct is found missing from
its place: no file lacks, and each brace that is looked for stands where the catalog says, behind a
header of the right name. What can still fail is the search for the closing brace.

* `Problem.IsStale`: a problem that shows that a catalog and a text do not fit.
* `Run.Sound`: the texts of a run are the right ones and no such problem was met.
* `Performs.sound`: every run on a fresh catalog is sound.
* `structs_and_queries_fresh`: what scanning a workspace finds is there when it is expanded.
-/

namespace StructUnfold

/-- A problem that arises when the text of a file is not the one that was scanned: the file is
missing, or the brace of a struct is not where the catalog says. -/
def Problem.IsStale : Problem → Prop
  | .fileRead _ _ => True
  | .malformedBlock _ (.invalidStart _) => True
  | .malformedBlock _ (.missingOpenBrace _) => True
  | .malformedBlock _ (.staleHeader _ _) => True
  | _ => False

/-- A problem that arises when a text is read or searched. -/
def Problem.NeedsText : Problem → Prop
  | .fileRead _ _ => True
  | .malformedBlock _ _ => True
  | _ => False

theorem Problem.IsStale.needsText {p : Problem} (h : p.IsStale) : p.NeedsText := by
  cases p with
  | fileRead => exact trivial
  | malformedBlock => exact trivial
  | _ => exact h.elim

/-- The search for the end of a block meets no problem of the first kind. -/
theorem Block.not_isStale_of_extractAfterBrace {options : Block.Options} {pos : Nat}
    {text : List Char} {e : Block.Error} (h : extractAfterBrace options pos text = .error e)
    (path : Path) : ¬(Problem.malformedBlock path e).IsStale := by
  rw [extractAfterBrace] at h
  split at h
  · cases h
    exact not_false
  · cases h
    exact not_false
  · split at h
    · split at h
      · cases h
        exact not_false
      · cases h
        exact not_false
      · cases h
    · cases h

/-- Where a brace stands, the block behind it may be too long or not closed, no more. -/
theorem Block.not_isStale_of_extract {options : Block.Options} {text rest : List Char}
    {start : Nat} {e : Block.Error} (hbrace : Text.dropBytes? start text = some ('{' :: rest))
    (h : extract options text start = .error e) (path : Path) :
    ¬(Problem.malformedBlock path e).IsStale := by
  rw [extract_of_brace options hbrace] at h
  split at h
  · split at h
    · cases h
    · cases h
      exact not_false
  · rename_i hextract
    split at h
    · cases h
      exact not_false
    · cases h
      exact Block.not_isStale_of_extractAfterBrace hextract path

namespace Catalog

/-- A name whose aliases form too long a chain has nothing to do with a text. -/
theorem not_needsText_of_resolve {c : Catalog} {symbol : List Char} {issue : Problem}
    (h : c.resolve symbol = .error issue) : ¬issue.NeedsText := by
  obtain ⟨name, bound, rfl⟩ := exists_of_resolve_eq_error h
  exact not_false

theorem not_isStale_of_resolve {c : Catalog} {symbol : List Char} {issue : Problem}
    (h : c.resolve symbol = .error issue) : ¬issue.IsStale :=
  mt Problem.IsStale.needsText (not_needsText_of_resolve h)

end Catalog

namespace Expansion

variable {ctx : Context} {s : Sources}

/-- Settling a word without entering a struct needs no text. -/
theorem not_needsText_of_verdict {depth : Nat} {word text : List Char} {rest : Declaration}
    {visited : List String} {issue : Problem}
    (h : verdict ctx depth word rest visited = .settle text (some issue)) :
    ¬issue.NeedsText := by
  rcases issue_of_verdict h with
    ⟨name, bound, rfl⟩ | ⟨name, path, reason, rfl⟩ | ⟨root, rfl⟩ | ⟨root, deep, rfl⟩ <;>
    exact not_false

theorem not_isStale_of_verdict {depth : Nat} {word text : List Char} {rest : Declaration}
    {visited : List String} {issue : Problem}
    (h : verdict ctx depth word rest visited = .settle text (some issue)) : ¬issue.IsStale :=
  mt Problem.IsStale.needsText (not_needsText_of_verdict h)

/-- The texts a run has been given are the right ones, and nothing was found missing. -/
structure Run.Sound (s : Sources) (run : Run) : Prop where
  /-- A file that was asked for is there, with this text. -/
  sources : ∀ entry ∈ run.sources, ∃ text, entry.2 = .ok text ∧ s.get? entry.1 = some text
  /-- No problem shows that a text does not fit the catalog. -/
  issues : ∀ issue ∈ run.issues, ¬issue.IsStale

namespace Run.Sound

theorem start (s : Sources) : Run.start.Sound s :=
  ⟨by simp [Run.start], by simp [Run.start]⟩

theorem visit {run : Run} (h : run.Sound s) (root : String) : (run.visit root).Sound s := by
  rw [Run.visit]
  split
  · exact h
  · exact ⟨h.sources, h.issues⟩

theorem noteAll {run : Run} (h : run.Sound s) {issues : List Problem}
    (hissues : ∀ issue ∈ issues, ¬issue.IsStale) : (run.noteAll issues).Sound s := by
  refine ⟨h.sources, fun issue hissue => ?_⟩
  rcases List.mem_append.1 hissue with hissue | hissue
  · exact h.issues issue hissue
  · exact hissues issue hissue

theorem note {run : Run} (h : run.Sound s) {issue : Problem} (hissue : ¬issue.IsStale) :
    (run.note issue).Sound s := by
  have hall : ∀ p ∈ [issue], ¬p.IsStale := by simpa using hissue
  exact h.noteAll hall

/-- A file that is there is read, the first time and later. -/
theorem read {run : Run} (h : run.Sound s) {path : Path} {text : List Char}
    (htext : s.get? path = some text) :
    (run.read s.reader path).1 = .ok text ∧ (run.read s.reader path).2.Sound s := by
  rw [Run.read]
  cases hsource : run.source? path with
  | none =>
    have hreader : s.reader run.reads path = .ok text := by
      rw [Sources.reader, htext]
    refine ⟨hreader, fun entry hentry => ?_, h.issues⟩
    rcases List.mem_cons.1 hentry with rfl | hentry
    · exact ⟨text, by rw [hreader]; rfl, htext⟩
    · exact h.sources entry hentry
  | some answer =>
    obtain ⟨entry, hfind, rfl⟩ := Option.map_eq_some_iff.1 hsource
    have hsame : entry.1.same path = true := by simpa using List.find?_some hfind
    obtain ⟨text', hanswer, hget⟩ := h.sources entry (List.mem_of_find?_eq_some hfind)
    -- The file may have been asked for under another spelling of its path.
    rw [s.get?_congr hsame, htext] at hget
    obtain rfl := Option.some.inj hget
    rw [hanswer]
    exact ⟨rfl, h⟩

/-- The body of a struct that its text registers is read, unless its end is not found. -/
theorem body {run : Run} (h : run.Sound s) (hreader : ctx.reader = s.reader) {root : String}
    {definition : StructDefinition} {text : List Char} (htext : s.get? definition.path = some text)
    (hregisters : Scan.Registers text root definition.offset) :
    (Expansion.body ctx root definition run).2.Sound s ∧
      ∀ issue, (Expansion.body ctx root definition run).1 = .error issue → ¬issue.IsStale := by
  obtain ⟨hok, hread⟩ := h.read htext
  rw [Expansion.body, hreader]
  revert hok hread
  obtain ⟨answer, read⟩ := run.read s.reader definition.path
  rintro rfl hread
  obtain ⟨rest, hbrace⟩ := hregisters.exists_brace
  dsimp only
  split
  · rename_i e hbody
    refine ⟨hread, fun issue hissue => ?_⟩
    obtain rfl := Except.error.inj hissue
    rw [bodyIn] at hbody
    split at hbody
    · rename_i hextract
      cases hbody
      exact Block.not_isStale_of_extract hbrace hextract _
    · rw [if_pos hregisters.nameAt?] at hbody
      cases hbody
  · exact ⟨hread, by simp⟩

end Run.Sound

/-- Entering a struct of a fresh catalog finds nothing missing. -/
theorem Opens.sound {symbol : List Char} {depth : Nat} {run read : Run} {found : Opening}
    (h : Opens ctx symbol depth run found read) (hreader : ctx.reader = s.reader)
    (hfresh : ctx.catalog.FreshIn s) (hrun : run.Sound s) : read.Sound s := by
  cases h with
  | unresolved hresolve => exact hrun.note (Catalog.not_isStale_of_resolve hresolve)
  | visited => exact hrun
  | undefined => exact (hrun.visit _).note not_false
  | @unreadable resolved definition issue read hresolve _ hget hbody =>
    obtain ⟨text, htext, hregisters⟩ := hfresh _ _ hget
    obtain ⟨hread, hissue⟩ := (hrun.visit resolved.root).body hreader htext hregisters
    rw [hbody] at hread hissue
    exact hread.note (hissue issue rfl)
  | @body resolved definition text read hresolve _ hget hbody =>
    obtain ⟨text', htext, hregisters⟩ := hfresh _ _ hget
    obtain ⟨hread, -⟩ := (hrun.visit resolved.root).body hreader htext hregisters
    rw [hbody] at hread
    exact hread

/-- Noting the issue of a word keeps a state sound. -/
theorem Run.Sound.noteAll_verdict {run : Run} (hrun : run.Sound s) {depth : Nat}
    {word text : List Char} {rest : Declaration} {visited : List String} {issue : Option Problem}
    (hverdict : verdict ctx depth word rest visited = .settle text issue) :
    (run.noteAll issue.toList).Sound s :=
  hrun.noteAll fun p hp => by
    obtain rfl := Option.mem_toList.1 hp
    exact not_isStale_of_verdict hverdict

/-- Every run on a fresh catalog is sound. -/
theorem Performs.sound {task : Task} {run run' : Run} {outcome : Outcome}
    (h : Performs ctx task run outcome run') (hreader : ctx.reader = s.reader)
    (hfresh : ctx.catalog.FreshIn s) (hrun : run.Sound s) : run'.Sound s := by
  induction h with
  | leaf hopening => exact (opens_of_opening_eq hopening).sound hreader hfresh hrun
  | block hopening _ ih => exact ih ((opens_of_opening_eq hopening).sound hreader hfresh hrun)
  | nil => exact hrun
  | cons _ _ ihitem ihitems => exact ihitems (ihitem hrun)
  | line => exact hrun
  | settle hverdict _ ih => exact ih (hrun.noteAll_verdict hverdict)
  | name _ _ _ ihenter ihrest => exact ihrest (ihenter hrun)
  | nest _ _ ih => exact ih hrun

/-- A query on a fresh catalog finds nothing missing, whether it is refused or performed. -/
theorem not_isStale_of_expand (hreader : ctx.reader = s.reader) (hfresh : ctx.catalog.FreshIn s)
    (query : List Char) :
    (∀ p, expand ctx query = .error p → ¬p.IsStale) ∧
      ∀ e, expand ctx query = .ok e → ∀ issue ∈ e.issues, ¬issue.IsStale := by
  -- An accepted query is performed from the start, and a refused one reads nothing.
  by_cases haccepts : Accepts ctx.catalog query
  · obtain ⟨e, hexpand, hperforms⟩ := performs_expand haccepts
    rw [hexpand]
    refine ⟨by simp, fun e' he' => ?_⟩
    obtain rfl := Except.ok.inj he'
    exact (hperforms.sound hreader hfresh (.start s)).issues
  · obtain ⟨p, hexpand⟩ := expand_eq_error_iff.2 haccepts
    rw [hexpand]
    refine ⟨fun p' hp' => ?_, by simp⟩
    obtain rfl := Except.error.inj hp'
    rw [expand] at hexpand
    dsimp only at hexpand
    split at hexpand
    · rename_i hresolve
      cases hexpand
      exact Catalog.not_isStale_of_resolve hresolve
    · split at hexpand
      · cases hexpand
      · cases hexpand
        rw [refusal]
        split
        · exact not_false
        · exact not_false

/-- What scanning a workspace finds is there when it is expanded: each struct of the catalog stands
in the last text of its file, its brace behind a header of its name and outside all comments, so
that no query meets a missing file, a missing brace or a header of another name. -/
theorem structs_and_queries_fresh (maxScan : Nat) (files : List (Path × List Char)) :
    (∀ name d, (Scan.workspace maxScan files).1.structs.get? name = some d →
      ∃ text, (files.reverse.find? fun f => f.1.same d.path).map Prod.snd = some text ∧
        (∀ reads, (Sources.ofList files).reader reads d.path = .ok text) ∧
        (∃ rest, Text.dropBytes? d.offset text = some ('{' :: rest)) ∧
        (∀ span ∈ Comment.spans text, span.contains d.offset = false) ∧
        Header.nameAt? text d.offset = some name.toList) ∧
    ∀ hops options query,
      let ctx : Context := ⟨(Scan.workspace maxScan files).1.setMaxAliasHops hops,
        (Sources.ofList files).reader, options⟩
      (∀ p, expand ctx query = .error p → ¬p.IsStale) ∧
        ∀ e, expand ctx query = .ok e → ∀ issue ∈ e.issues, ¬issue.IsStale := by
  have hfresh := Scan.freshIn_workspace maxScan files
  refine ⟨fun name d hget => ?_, fun hops options query => ?_⟩
  · obtain ⟨text, htext, hregisters⟩ := hfresh name d hget
    refine ⟨text, ?_, fun reads => ?_, hregisters.exists_brace, hregisters.code,
      hregisters.nameAt?⟩
    · rw [← Sources.get?_ofList, htext]
    · rw [Sources.reader, htext]
  · exact not_isStale_of_expand rfl (fun name d hget => hfresh name d hget) query

end Expansion

end StructUnfold
