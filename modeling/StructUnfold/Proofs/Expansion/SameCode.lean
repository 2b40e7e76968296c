import Mathlib.Data.List.Forall2
import StructUnfold.Proofs.Comment.Body
import StructUnfold.Proofs.Expansion.Graph
import StructUnfold.Scan.Basic

/-!
# Expanding structs whatever comments say

Two readers may give texts of a file that differ in what their comments say. Whatever that is, the
bodies of structs are the same once their comments are taken away, and so are the declarations, the
structs that are entered and the text of an expansion. The issues are the same as well, but for one
case: where a comment is left open in one of two texts and closed at the end of the other one, the
reason why a block is not closed is told in two ways.

## Main definitions

* `Catalog.SameFile`, `Catalog.SameReaders`: texts and readers that differ in what comments say.
* `Problem.Alike`: problems that differ at most in whether a comment is left open.
* `Run.Mirrors`: states of an expansion with either reader.

## Main results

* `body_mirrors`, `opening_mirrors`: a struct is entered in the same way.
* `Performs.mirrors`: what is performed with one reader is performed with the other one.
* `expand_mirrors`, `comments_never_reach_expansions`: the expansion is the same.
-/

namespace StructUnfold

open Text

/-! ### Readers -/

/-- Two answers for a file: related texts or the same error. -/
inductive SameAnswer {ε : Type} (R : List Char → List Char → Prop) :
    Except ε (List Char) → Except ε (List Char) → Prop where
  /-- Related texts. -/
  | texts {s t : List Char} (related : R s t) : SameAnswer R (.ok s) (.ok t)
  /-- The same error. -/
  | error (e : ε) : SameAnswer R (.error e) (.error e)

theorem SameAnswer.mapError {ε δ : Type} {R : List Char → List Char → Prop}
    {a a' : Except ε (List Char)} (h : SameAnswer R a a') (f : ε → δ) :
    SameAnswer R (a.mapError f) (a'.mapError f) := by
  cases h with
  | texts related => exact .texts related
  | error e => exact .error (f e)

namespace Catalog

/-- Two texts of a file differ in nothing but what their comments say. The brace of each struct that
the catalog places in the file stands outside comments, and the line of the brace is the same. -/
structure SameFile (c : Catalog) (path : Path) (s t : List Char) : Prop where
  /-- They hold the same code. -/
  code : Comment.SameCode s t
  /-- The braces stand outside comments. -/
  outside : ∀ name d, c.structs.get? name = some d → d.path.same path = true →
    Comment.inSpans (Comment.spans s) d.offset = false
  /-- The lines of the braces are the same. -/
  lines : ∀ name d, c.structs.get? name = some d → d.path.same path = true →
    Comment.charAt? d.offset s = some '{' → Comment.SameLine d.offset s t

/-- Whether a catalog sees no difference is told by the structs it places in the file. -/
instance (c : Catalog) (path : Path) (s t : List Char) : Decidable (c.SameFile path s t) :=
  decidable_of_iff (Comment.SameCode s t ∧
      ∀ entry ∈ c.structs.entries, entry.2.path.same path = true →
        Comment.inSpans (Comment.spans s) entry.2.offset = false ∧
          (Comment.charAt? entry.2.offset s = some '{' → Comment.SameLine entry.2.offset s t))
    ⟨fun ⟨hcode, hall⟩ =>
      ⟨hcode, fun _ _ hget hsame => (hall _ (Table.get?_eq_some_iff.1 hget) hsame).1,
        fun _ _ hget hsame => (hall _ (Table.get?_eq_some_iff.1 hget) hsame).2⟩,
    fun h => ⟨h.code, fun entry hentry hsame =>
      ⟨h.outside entry.1 entry.2 (Table.get?_eq_some_iff.2 hentry) hsame,
        h.lines entry.1 entry.2 (Table.get?_eq_some_iff.2 hentry) hsame⟩⟩⟩

/-- For each file two readers give texts that differ in nothing but what their comments say, or the
same error. -/
def SameReaders (c : Catalog) (reader reader' : Reader) : Prop :=
  ∀ reads path, SameAnswer (c.SameFile path) (reader reads path) (reader' reads path)

/-- Readers of two texts of one file. -/
theorem SameFile.sameReaders {c : Catalog} {path : Path} {s t : List Char}
    (h : c.SameFile path s t) : c.SameReaders (Sources.ofList [(path, s)]).reader
      (Sources.ofList [(path, t)]).reader := by
  have hget : ∀ (text : List Char) (other : Path), (Sources.ofList [(path, text)]).get? other =
      if path.same other then some text else none :=
    fun text other => Sources.get?_put .empty path other text
  intro reads other
  rw [Sources.reader, Sources.reader, hget, hget]
  by_cases hsame : path.same other = true
  · rw [if_pos hsame, if_pos hsame]
    have hother : ∀ p : Path, p.same other = true → p.same path = true := by
      intro p hp
      rw [Path.same_comm, Path.same_congr hsame, Path.same_comm, hp]
    exact .texts ⟨h.code, fun name d hd hp => h.outside name d hd (hother _ hp),
      fun name d hd hp => h.lines name d hd (hother _ hp)⟩
  · rw [if_neg hsame, if_neg hsame]
    exact .error _

end Catalog

/-- Two texts are answers of two readers for the same file, under some spelling of its path. -/
def BothRead (reader reader' : Reader) (path : Path) (s t : List Char) : Prop :=
  ∃ reads file, file.same path = true ∧ reader reads file = .ok s ∧ reader' reads file = .ok t

/-- What two readers answer for a file they have both answered for each spelling of its path. -/
theorem Catalog.SameReaders.bothRead {c : Catalog} {reader reader' : Reader}
    (h : c.SameReaders reader reader') (reads : Nat) {path other : Path}
    (hsame : path.same other = true) :
    SameAnswer (BothRead reader reader' other) (reader reads path) (reader' reads path) := by
  have hanswer := h reads path
  generalize hs : reader reads path = answer at hanswer ⊢
  generalize ht : reader' reads path = answer' at hanswer ⊢
  cases hanswer with
  | texts _ => exact .texts ⟨reads, path, hsame, hs, ht⟩
  | error e => exact .error e

/-- Problems that are the same, or speak of a block of a file in whose texts a comment is left open
and is not. -/
inductive Problem.Alike (reader reader' : Reader) : Problem → Problem → Prop where
  /-- The same problem. -/
  | same (p : Problem) : Alike reader reader' p p
  /-- Errors of the same block. -/
  | block {path : Path} {s t : List Char} {e e' : Block.Error}
    (read : BothRead reader reader' path s t) (alike : e.Alike s t e') :
    Alike reader reader' (.malformedBlock path e) (.malformedBlock path e')

namespace Expansion

variable {reader reader' : Reader}

/-- A state mirrors another one: the same structs have been entered, the same files have been asked
for, and problems that are alike have been met. -/
structure Run.Mirrors (reader reader' : Reader) (run run' : Run) : Prop where
  /-- The structs entered. -/
  visited : run'.visited = run.visited
  /-- How many times the readers were asked. -/
  reads : run'.reads = run.reads
  /-- What they answered. -/
  sources : ∀ path, Option.Rel (SameAnswer (BothRead reader reader' path)) (run.source? path)
    (run'.source? path)
  /-- The problems met. -/
  issues : List.Forall₂ (Problem.Alike reader reader') run.issues run'.issues

namespace Run.Mirrors

variable {run run' : Run}

theorem start : Run.start.Mirrors reader reader' Run.start :=
  ⟨rfl, rfl, fun _ => .none, .nil⟩

theorem note (h : run.Mirrors reader reader' run') {p p' : Problem}
    (halike : p.Alike reader reader' p') :
    (run.note p).Mirrors reader reader' (run'.note p') :=
  ⟨h.visited, h.reads, h.sources, List.rel_append h.issues (.cons halike .nil)⟩

theorem noteAll (h : run.Mirrors reader reader' run') (issues : List Problem) :
    (run.noteAll issues).Mirrors reader reader' (run'.noteAll issues) :=
  ⟨h.visited, h.reads, h.sources,
    List.rel_append h.issues (List.forall₂_same.2 fun p _ => .same p)⟩

theorem visit (h : run.Mirrors reader reader' run') (root : String) :
    (run.visit root).Mirrors reader reader' (run'.visit root) := by
  rw [Run.visit, Run.visit, h.visited]
  split
  · exact h
  · exact ⟨rfl, h.reads, h.sources, h.issues⟩

/-- An answer that is kept is found under each spelling of its path. -/
theorem source?_cons (run : Run) (path other : Path) (answer : Except SystemFault (List Char))
    (reads : Nat) :
    Run.source? { run with sources := (path, answer) :: run.sources, reads := reads } other =
      if path.same other then some answer else run.source? other := by
  rw [Run.source?, List.find?_cons]
  dsimp only
  cases path.same other with
  | true => rfl
  | false => rfl

/-- The same is read, and a file is asked for with either reader or with none. -/
theorem read {c : Catalog} (hreaders : c.SameReaders reader reader')
    (h : run.Mirrors reader reader' run') (path : Path) :
    SameAnswer (BothRead reader reader' path) (run.read reader path).1
        (run'.read reader' path).1 ∧
      (run.read reader path).2.Mirrors reader reader' (run'.read reader' path).2 := by
  have hsource := h.sources path
  rw [Run.read, Run.read]
  revert hsource
  generalize run.source? path = answer
  generalize run'.source? path = answer'
  rintro (⟨⟨related⟩ | ⟨fault⟩⟩ | _)
  · exact ⟨.texts related, h⟩
  · exact ⟨.error _, h⟩
  · -- The file is asked for now, and both answers are kept.
    dsimp only
    rw [h.reads]
    refine ⟨hreaders.bothRead run.reads (Path.same_refl path), h.visited, rfl, fun other => ?_,
      h.issues⟩
    rw [source?_cons, source?_cons]
    split
    · rename_i hsame
      exact .some ((hreaders.bothRead run.reads hsame).mapError _)
    · exact h.sources other

end Run.Mirrors

/-! ### One step -/

variable {c : Catalog} {options : Options}

/-- Texts that two readers give for the file of a struct are seen alike by the catalog. -/
theorem sameFile_of_bothRead (hreaders : c.SameReaders reader reader') {path : Path}
    {s t : List Char} (h : BothRead reader reader' path s t) :
    ∃ file, file.same path = true ∧ c.SameFile file s t := by
  obtain ⟨reads, file, hsame, hs, ht⟩ := h
  have hanswer := hreaders reads file
  rw [hs, ht] at hanswer
  cases hanswer with
  | texts related => exact ⟨file, hsame, related⟩

/-- The same body of a struct is read with either reader, or problems that are alike are met. -/
theorem body_mirrors (hreaders : c.SameReaders reader reader') (options : Options)
    {run run' : Run} (h : run.Mirrors reader reader' run') {root : String} {d : StructDefinition}
    (hget : c.structs.get? root = some d) :
    ((∃ text, (body ⟨c, reader, options⟩ root d run).1 = .ok text ∧
        (body ⟨c, reader', options⟩ root d run').1 = .ok text) ∨
      ∃ p p', (body ⟨c, reader, options⟩ root d run).1 = .error p ∧
        (body ⟨c, reader', options⟩ root d run').1 = .error p' ∧ p.Alike reader reader' p') ∧
    (body ⟨c, reader, options⟩ root d run).2.Mirrors reader reader'
      (body ⟨c, reader', options⟩ root d run').2 := by
  obtain ⟨hanswer, hread⟩ := h.read hreaders d.path
  refine ⟨?_, by rwa [body_snd, body_snd]⟩
  rw [body, body]
  revert hanswer
  obtain ⟨answer, read⟩ := run.read reader d.path
  obtain ⟨answer', read'⟩ := run'.read reader' d.path
  rintro (⟨related⟩ | ⟨e⟩)
  · rename_i s t
    -- The texts may have been read under another spelling of the path.
    obtain ⟨file, hsame, hfile⟩ := sameFile_of_bothRead hreaders related
    rw [Path.same_comm] at hsame
    rcases bodyIn_sameCode hfile.code (hfile.outside root d hget hsame)
        (hfile.lines root d hget hsame) options.maxScan root with
      ⟨text, hs, ht⟩ | ⟨e, e', hs, ht, halike⟩
    · exact .inl ⟨text, by simp only [hs], by simp only [ht]⟩
    · exact .inr ⟨_, _, by simp only [hs], by simp only [ht], .block related halike⟩
  · exact .inr ⟨_, _, rfl, rfl, .same _⟩

/-- A struct is entered in the same way with either reader. -/
theorem opening_mirrors (hreaders : c.SameReaders reader reader') (options : Options)
    {run run' : Run} (h : run.Mirrors reader reader' run') (symbol : List Char) (depth : Nat) :
    (opening ⟨c, reader', options⟩ symbol depth run').1 =
        (opening ⟨c, reader, options⟩ symbol depth run).1 ∧
      (opening ⟨c, reader, options⟩ symbol depth run).2.Mirrors reader reader'
        (opening ⟨c, reader', options⟩ symbol depth run').2 := by
  rw [opening, opening, h.visited]
  dsimp only
  cases c.resolve symbol with
  | error issue => exact ⟨rfl, h.note (.same issue)⟩
  | ok resolved =>
    dsimp only
    -- The same structs have been entered, so the struct is met again in both runs or in none.
    by_cases hvisited : 0 < depth ∧ resolved.root ∈ run.visited
    · rw [if_pos hvisited, if_pos hvisited]
      exact ⟨rfl, h⟩
    rw [if_neg hvisited, if_neg hvisited]
    have hvisit := h.visit resolved.root
    cases hget : c.structs.get? resolved.root with
    | none => exact ⟨rfl, hvisit.note (.same _)⟩
    | some d =>
      have hbody := body_mirrors hreaders options hvisit hget
      dsimp only
      revert hbody
      obtain ⟨answer, read⟩ := body ⟨c, reader, options⟩ resolved.root d (run.visit resolved.root)
      obtain ⟨answer', read'⟩ :=
        body ⟨c, reader', options⟩ resolved.root d (run'.visit resolved.root)
      rintro ⟨⟨text, rfl, rfl⟩ | ⟨p, p', rfl, rfl, halike⟩, hread⟩
      · exact ⟨rfl, hread⟩
      · exact ⟨rfl, hread.note halike⟩

theorem exists_opening_mirrors (hreaders : c.SameReaders reader reader') {run run' read : Run}
    (h : run.Mirrors reader reader' run') {symbol : List Char} {depth : Nat} {found : Opening}
    (hopening : opening ⟨c, reader, options⟩ symbol depth run = (found, read)) :
    ∃ read', opening ⟨c, reader', options⟩ symbol depth run' = (found, read') ∧
      read.Mirrors reader reader' read' := by
  obtain ⟨hfound, hread⟩ := opening_mirrors hreaders options h symbol depth
  rw [hopening] at hfound hread
  exact ⟨(opening ⟨c, reader', options⟩ symbol depth run').2, Prod.ext hfound rfl, hread⟩

/-! ### Whole runs -/

/-- What is performed with one reader is performed with the other one, with the same outcome. -/
theorem Performs.mirrors (hreaders : c.SameReaders reader reader') {task : Task} {run last : Run}
    {outcome : Outcome} (hperforms : Performs ⟨c, reader, options⟩ task run outcome last)
    {run' : Run} (h : run.Mirrors reader reader' run') :
    ∃ last', Performs ⟨c, reader', options⟩ task run' outcome last' ∧
      last.Mirrors reader reader' last' := by
  -- By induction on the derivation, with `Run.Mirrors` carried from each state to the next. What is
  -- to be done about a word depends on the structs entered, and these are the same.
  induction hperforms generalizing run' with
  | leaf hopening =>
    obtain ⟨read', hopening', hread⟩ := exists_opening_mirrors hreaders h hopening
    exact ⟨read', .leaf hopening', hread⟩
  | block hopening _ ih =>
    obtain ⟨read', hopening', hread⟩ := exists_opening_mirrors hreaders h hopening
    obtain ⟨last', hitems', hlast⟩ := ih hread
    exact ⟨last', .block hopening' hitems', hlast⟩
  | nil => exact ⟨run', .nil, h⟩
  | cons _ _ ihitem ihitems =>
    obtain ⟨mid', hitem', hmid⟩ := ihitem h
    obtain ⟨last', hitems', hlast⟩ := ihitems hmid
    exact ⟨last', .cons hitem' hitems', hlast⟩
  | line => exact ⟨run', .line, h⟩
  | @settle depth done word rest run text issue item last hverdict _ ih =>
    rw [← h.visited] at hverdict
    obtain ⟨last', hrest', hlast⟩ := ih (h.noteAll issue.toList)
    exact ⟨last', .settle hverdict hrest', hlast⟩
  | name hverdict _ _ ihenter ihrest =>
    rw [← h.visited] at hverdict
    obtain ⟨mid', henter', hmid⟩ := ihenter h
    obtain ⟨last', hrest', hlast⟩ := ihrest hmid
    exact ⟨last', .name hverdict henter' hrest', hlast⟩
  | nest hverdict _ ihenter =>
    rw [← h.visited] at hverdict
    obtain ⟨last', henter', hlast⟩ := ihenter h
    exact ⟨last', .nest hverdict henter', hlast⟩

/-- A query is refused whatever the reader, for no file is read before. -/
theorem expand_eq_error_of_reader {query : List Char} {p : Problem} (reader' : Reader)
    (h : expand ⟨c, reader, options⟩ query = .error p) :
    expand ⟨c, reader', options⟩ query = .error p := by
  rw [expand] at h ⊢
  dsimp only at h ⊢
  cases hresolve : c.resolve (trim query) with
  | error issue => rwa [hresolve] at h
  | ok resolved =>
    rw [hresolve] at h
    dsimp only at h ⊢
    split at h
    · cases h
    · rename_i hundefined
      rwa [if_neg hundefined]

/-- A query that is expanded with one reader is expanded with the other one, to the same block, and
problems that are alike are met. -/
theorem expand_mirrors (hreaders : c.SameReaders reader reader') {query : List Char}
    {e : Expansion} (hexpand : expand ⟨c, reader, options⟩ query = .ok e) :
    ∃ e', expand ⟨c, reader', options⟩ query = .ok e' ∧ e'.entered = e.entered ∧
      List.Forall₂ (Problem.Alike reader reader') e.issues e'.issues := by
  obtain ⟨haccepts, hperforms⟩ := performs_of_expand hexpand
  obtain ⟨e', he', hperforms'⟩ := @performs_expand ⟨c, reader', options⟩ query haccepts
  obtain ⟨last', hmirrors, hlast⟩ := hperforms.mirrors hreaders .start
  -- What is performed with the other reader is unique, so it is the run that mirrors the first one.
  obtain ⟨hentered, hrun⟩ := hmirrors.unique hperforms'
  refine ⟨e', he', (Outcome.entered.inj hentered).symm, ?_⟩
  rw [issues, issues, ← hrun]
  exact hlast.issues

/-- Problems that are alike are the same where a comment is left open in both texts of a file or in
none. -/
theorem eq_of_alike (hopen : ∀ reads path s t, reader reads path = .ok s →
      reader' reads path = .ok t →
      ((∃ start, Comment.Unclosed s start) ↔ ∃ start, Comment.Unclosed t start))
    {p p' : Problem} (h : p.Alike reader reader' p') : p = p' := by
  cases h with
  | same => rfl
  | block read halike =>
    obtain ⟨reads, file, -, hs, ht⟩ := read
    rw [halike.eq (hopen reads file _ _ hs ht)]

/-- **What comments say never reaches an expansion.** Let two readers give texts for each file that
differ in nothing but what their comments say, while the braces the catalog knows stand outside
comments and their lines are the same. Then the same queries are refused with both readers, for the
same reasons, and all others have the same text. The issues are the same as well, except that where a
comment is left open in one of two texts and not in the other one, a block that is not closed may be
told as a comment that is not. -/
theorem comments_never_reach_expansions (hreaders : c.SameReaders reader reader')
    (options : Options) (query : List Char) :
    (∀ p, expand ⟨c, reader, options⟩ query = .error p ↔
      expand ⟨c, reader', options⟩ query = .error p) ∧
    ∀ e, expand ⟨c, reader, options⟩ query = .ok e →
      ∃ e', expand ⟨c, reader', options⟩ query = .ok e' ∧
        e'.text options.indentWidth = e.text options.indentWidth ∧
        List.Forall₂ (Problem.Alike reader reader') e.issues e'.issues ∧
        ((∀ reads path s t, reader reads path = .ok s → reader' reads path = .ok t →
            ((∃ start, Comment.Unclosed s start) ↔ ∃ start, Comment.Unclosed t start)) →
          e'.issues = e.issues) := by
  refine ⟨fun p => ⟨?_, ?_⟩, fun e hexpand => ?_⟩
  · exact expand_eq_error_of_reader reader'
  · exact expand_eq_error_of_reader reader
  · obtain ⟨e', he', hentered, hissues⟩ := expand_mirrors hreaders hexpand
    refine ⟨e', he', by rw [text, text, hentered], hissues, fun hopen => ?_⟩
    have hsame : List.Forall₂ Eq e.issues e'.issues := hissues.imp fun _ _ => eq_of_alike hopen
    rw [List.forall₂_eq_eq_eq] at hsame
    exact hsame.symm

/-! ### Comments that are edited -/

/-- A file with comments in its structs, the last of which is left open. -/
def potText : String :=
  "struct pot \x7b\n lid *top/*, */; // a\n struct \x7b int x; \x7d rim;\n\x7d;\n" ++
    "struct lid \x7b\n int w/* \x7d; */;\n"

/-- The same with other comments. -/
def potEdited : String :=
  "struct pot \x7b\n lid *top/*\x7d;*/; //\x7d;\n struct \x7b int x; \x7d rim;\n\x7d;\n" ++
    "struct lid \x7b\n int w/*\x7dlid*/;\n"

/-- A struct in whose block a comment is left open. -/
def openText : String :=
  "struct A \x7b\n/* abc"

/-- The same, but the comment is closed where the text ends. -/
def closedText : String :=
  "struct A \x7b\n/*ab*/"

/-- A reader of one file. -/
def readerOf (name text : String) : Reader :=
  (Sources.ofList [(.ofString name, text.toList)]).reader

theorem eq_of_readerOf {name text : String} {reads : Nat} {path : Path} {s : List Char}
    (h : readerOf name text reads path = .ok s) : s = text.toList := by
  obtain ⟨file, hfile, rfl⟩ := Sources.exists_mem_of_get?_ofList (Sources.reader_eq_ok_iff.1 h)
  rw [List.mem_singleton.1 hfile]

/-- The catalog of one file. -/
def catalogOf (name text : String) : Catalog :=
  (Scan.workspace 4096 [(.ofString name, text.toList)]).1

/-- `comments_never_reach_expansions` at comments that hold braces, semicolons and names. -/
theorem comments_never_reach_expansions_pot :
    let c := catalogOf "pot.h" potText
    let reader := readerOf "pot.h" potText
    let reader' := readerOf "pot.h" potEdited
    c.SameReaders reader reader' ∧
      ∃ e, expand ⟨c, reader, ⟨2, 8, 4096⟩⟩ "pot".toList = .ok e ∧
        e.text 2 = "|\n  lid *top ;\n  struct \x7b int x; \x7d rim;\n|\n| pot" ∧
        e.issues = [.malformedBlock (.ofString "pot.h") (.unbalanced 73)] ∧
        ∃ e', expand ⟨c, reader', ⟨2, 8, 4096⟩⟩ "pot".toList = .ok e' ∧
          e'.text 2 = e.text 2 ∧ e'.issues = e.issues := by
  intro c reader reader'
  have hfile : c.SameFile (.ofString "pot.h") potText.toList potEdited.toList := by
    decide +kernel
  have hreaders : c.SameReaders reader reader' := hfile.sameReaders
  obtain ⟨-, hquery⟩ := comments_never_reach_expansions hreaders ⟨2, 8, 4096⟩ "pot".toList
  have hrun : (expand ⟨c, reader, ⟨2, 8, 4096⟩⟩ "pot".toList).map
      (fun e => (e.text 2, e.issues)) =
        .ok ("|\n  lid *top ;\n  struct \x7b int x; \x7d rim;\n|\n| pot",
          [.malformedBlock (.ofString "pot.h") (.unbalanced 73)]) := by
    decide +kernel
  -- Both texts end in a line feed that is code.
  have hclosed : ∀ start, ¬Comment.Unclosed potText.toList start := by
    have hlast : Comment.codeAt? 90 potText.toList = some '\n' := by decide +kernel
    have hsize : byteSize potText.toList ≤ 90 + 1 := by decide +kernel
    exact Comment.not_unclosed_of_codeAt? hlast hsize
  have hclosed' : ∀ start, ¬Comment.Unclosed potEdited.toList start := by
    have hlast : Comment.codeAt? 90 potEdited.toList = some '\n' := by decide +kernel
    have hsize : byteSize potEdited.toList ≤ 90 + 1 := by decide +kernel
    exact Comment.not_unclosed_of_codeAt? hlast hsize
  have hopen : ∀ reads path s t, reader reads path = .ok s → reader' reads path = .ok t →
      ((∃ start, Comment.Unclosed s start) ↔ ∃ start, Comment.Unclosed t start) := by
    intro reads path s t hs ht
    rw [eq_of_readerOf hs, eq_of_readerOf ht]
    exact iff_of_false (not_exists.2 hclosed) (not_exists.2 hclosed')
  cases hexpand : expand ⟨c, reader, ⟨2, 8, 4096⟩⟩ "pot".toList with
  | error p =>
    rw [hexpand] at hrun
    cases hrun
  | ok e =>
    rw [hexpand] at hrun
    obtain ⟨htext, hissues⟩ := Prod.mk.inj (Except.ok.inj hrun)
    obtain ⟨e', he', htext', -, hsame⟩ := hquery e hexpand
    exact ⟨hreaders, e, rfl, htext, hissues, e', he', htext', hsame hopen⟩

/-- Where the comment that is left open in a block is closed at the end of the other text, the issue
is another one. -/
theorem open_comment_told_apart :
    let c := catalogOf "a.h" openText
    let reader := readerOf "a.h" openText
    let reader' := readerOf "a.h" closedText
    c.SameReaders reader reader' ∧
      (expand ⟨c, reader, ⟨4, 8, 4096⟩⟩ "A".toList).map (fun e => (e.text 4, e.issues)) =
        .ok ("A", [.malformedBlock (.ofString "a.h") (.unterminatedComment 11)]) ∧
      (expand ⟨c, reader', ⟨4, 8, 4096⟩⟩ "A".toList).map (fun e => (e.text 4, e.issues)) =
        .ok ("A", [.malformedBlock (.ofString "a.h") (.unbalanced 9)]) := by
  intro c reader reader'
  have hfile : c.SameFile (.ofString "a.h") openText.toList closedText.toList := by
    decide +kernel
  exact ⟨hfile.sameReaders, by decide +kernel, by decide +kernel⟩

end Expansion

end StructUnfold
