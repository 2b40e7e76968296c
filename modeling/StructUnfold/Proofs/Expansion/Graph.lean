import StructUnfold.Proofs.Expansion.Termination
import StructUnfold.Proofs.Sources

/-!
# The graph of structs

The structs of a catalog form a graph: a struct leads to another one that a declaration of its body
names. The graph is nowhere stored. Its edges are found in the texts while these are read, so it is
stated for the texts that a run has been given, which are kept to the end of the run.

* `structOf?`, `Run.Leads`: the struct that a word names, and the edges of the graph.
* `Context.NamesOneEach`: each declaration names at most one struct.
* `Performs.keepsSources`, `Performs.answered`: the texts of a run stay, and the reader gave them.
* `Opens.bodyOf?`: the body that is read is the one in these texts.
-/

namespace StructUnfold.Expansion

/-! ### The graph of structs -/

/-- The struct that a word of a declaration names: the one its name comes down to, if that is
defined. A word of stars alone names none. -/
def structOf? (c : Catalog) (word : List Char) : Option String :=
  if (nameIn word).isEmpty then none
  else
    match c.resolve (nameIn word) with
    | .ok resolved => if c.structs.contains resolved.root then some resolved.root else none
    | .error _ => none

/-- The body of a struct in the texts that a run has been given. -/
def Run.bodyOf? (ctx : Context) (run : Run) (root : String) : Option (List Char) :=
  (ctx.catalog.structs.get? root).bind fun definition =>
    match run.source? definition.path with
    | some (.ok text) => (bodyIn ctx.options.maxScan root definition.offset text).toOption
    | _ => none

/-- A declaration in the body of a struct names another struct. -/
def Run.Leads (ctx : Context) (run : Run) (root target : String) : Prop :=
  ∃ body, run.bodyOf? ctx root = some body ∧
    ∃ d ∈ Declaration.all body, ∃ word ∈ d, structOf? ctx.catalog word = some target

/-- A declaration names at most one struct. -/
def NamesOne (c : Catalog) (d : Declaration) : Prop :=
  d.countP (fun word => (structOf? c word).isSome) ≤ 1

instance (c : Catalog) (d : Declaration) : Decidable (NamesOne c d) :=
  inferInstanceAs (Decidable (_ ≤ 1))

/-- Each declaration names at most one struct, in all bodies that the reader may give, under any
spelling of the path of a file. -/
def Context.NamesOneEach (ctx : Context) : Prop :=
  ∀ root definition, ctx.catalog.structs.get? root = some definition →
    ∀ path, path.same definition.path = true →
      ∀ reads text, ctx.reader reads path = .ok text →
        ∀ body, bodyIn ctx.options.maxScan root definition.offset text = .ok body →
          ∀ d ∈ Declaration.all body, NamesOne ctx.catalog d

variable {ctx : Context}

theorem structOf?_eq_some_iff {c : Catalog} {word : List Char} {root : String} :
    structOf? c word = some root ↔
      nameIn word ≠ [] ∧ (∃ isPointer, c.resolve (nameIn word) = .ok ⟨root, isPointer⟩) ∧
        c.structs.contains root = true := by
  rw [structOf?]
  split
  · rename_i hempty
    simp [List.isEmpty_iff.1 hempty]
  · rename_i hne
    rw [List.isEmpty_iff] at hne
    cases hresolve : c.resolve (nameIn word) with
    | error p => simp
    | ok resolved =>
      obtain ⟨root', isPointer⟩ := resolved
      simp only [Option.ite_none_right_eq_some, Option.some.injEq, Except.ok.injEq,
        Resolved.mk.injEq, exists_and_left, exists_eq', and_true]
      constructor
      · rintro ⟨hdefined, rfl⟩
        exact ⟨hne, rfl, hdefined⟩
      · rintro ⟨-, rfl, hdefined⟩
        exact ⟨hdefined, rfl⟩

/-- What is to be done about a word that names a struct: the struct has been entered, or it lies too
deep, or it is entered now. -/
theorem verdict_of_structOf?_eq_some {depth : Nat} {word : List Char} {root : String}
    (h : structOf? ctx.catalog word = some root) (rest : Declaration) (visited : List String) :
    (∃ text, verdict ctx depth word rest visited = .settle text none ∧ root ∈ visited) ∨
      (∃ text, verdict ctx depth word rest visited =
        .settle text (some (.depthLimit root (depth + 1)))) ∨
      verdict ctx depth word rest visited = .enter := by
  obtain ⟨hname, ⟨isPointer, hresolve⟩, hdefined⟩ := structOf?_eq_some_iff.1 h
  by_cases hvisited : root ∈ visited
  · exact .inl ⟨_, verdict_eq_iff.2 (.visited hname hresolve hvisited), hvisited⟩
  by_cases hdeep : ctx.options.maxDepth ≤ depth + 1
  · exact .inr (.inl ⟨_, verdict_eq_iff.2 (.deep hname hresolve hvisited hdefined hdeep)⟩)
  · exact .inr (.inr (verdict_eq_iff.2
      (.enter hname hresolve hvisited hdefined (Nat.lt_of_not_le hdeep))))

/-! ### Texts that a run has been given -/

namespace Run

/-- Texts that a run has been given are kept. -/
def KeepsSources (run later : Run) : Prop :=
  ∀ path answer, run.source? path = some answer → later.source? path = some answer

theorem KeepsSources.refl (run : Run) : run.KeepsSources run :=
  fun _ _ h => h

theorem KeepsSources.trans {run mid later : Run} (h : run.KeepsSources mid)
    (hlater : mid.KeepsSources later) : run.KeepsSources later :=
  fun path answer hanswer => hlater path answer (h path answer hanswer)

theorem keepsSources_visit (run : Run) (root : String) : run.KeepsSources (run.visit root) := by
  rw [visit]
  split
  · exact .refl _
  · exact fun _ _ h => h

/-- A file that has not been asked for has another path than those that have. -/
theorem keepsSources_read (reader : Reader) (path : Path) (run : Run) :
    run.KeepsSources (run.read reader path).2 := by
  rw [read]
  split
  · exact .refl _
  · exact .refl _
  · rename_i hnone
    intro other answer hanswer
    rw [source?] at hanswer hnone ⊢
    rw [List.find?_cons_of_neg, hanswer]
    intro hsame
    simp only [Path.same_congr_right hsame, hanswer, reduceCtorEq] at hnone

theorem invariant_keepsSources (reader : Reader) (run : Run) :
    Invariant reader fun later => run.KeepsSources later where
  note _ h := h
  visit root h := h.trans (keepsSources_visit _ root)
  read path h := h.trans (keepsSources_read reader path _)

/-- What is read is kept as the answer for the file, an error by its fault. -/
theorem source?_read (reader : Reader) (path : Path) (run : Run) :
    (run.read reader path).2.source? path =
      some ((run.read reader path).1.mapError ReadError.fault) := by
  rw [read]
  split
  · rename_i h
    exact h
  · rename_i h
    exact h
  · have hself : ((path, (reader run.reads path).mapError ReadError.fault) :: run.sources).find?
        (fun s => s.1.same path) = some (path, (reader run.reads path).mapError ReadError.fault) :=
      List.find?_cons_of_pos (Path.same_refl path)
    exact congrArg (Option.map Prod.snd) hself

/-- The texts of a run are answers of the reader. -/
def Answered (reader : Reader) (run : Run) : Prop :=
  ∀ entry ∈ run.sources, ∀ text, entry.2 = .ok text → ∃ reads, reader reads entry.1 = .ok text

theorem Answered.read {reader : Reader} {run : Run} (h : run.Answered reader) (path : Path) :
    (run.read reader path).2.Answered reader := by
  rw [Run.read]
  split
  · exact h
  · exact h
  · intro entry hentry text htext
    rcases List.mem_cons.1 hentry with rfl | hentry
    · refine ⟨run.reads, ?_⟩
      dsimp only at htext ⊢
      cases hanswer : reader run.reads path with
      | ok text' =>
        rw [hanswer] at htext
        exact congrArg Except.ok (Except.ok.inj htext)
      | error e =>
        rw [hanswer] at htext
        cases htext
    · exact h entry hentry text htext

theorem invariant_answered (reader : Reader) : Invariant reader (Answered reader) where
  note _ h := h
  visit root h := by
    rw [Run.visit]
    split
    · exact h
    · exact h
  read path h := h.read path

/-- The text of a file was read under some spelling of its path. -/
theorem Answered.exists_of_source? {reader : Reader} {run : Run} (h : run.Answered reader)
    {path : Path} {text : List Char} (hsource : run.source? path = some (.ok text)) :
    ∃ path', path'.same path = true ∧ ∃ reads, reader reads path' = .ok text := by
  obtain ⟨entry, hfind, hentry⟩ := Option.map_eq_some_iff.1 hsource
  exact ⟨entry.1, by simpa using List.find?_some hfind,
    h entry (List.mem_of_find?_eq_some hfind) text hentry⟩

end Run

theorem Performs.keepsSources {task : Task} {run run' : Run} {outcome : Outcome}
    (h : Performs ctx task run outcome run') : run.KeepsSources run' :=
  h.invariant (run.invariant_keepsSources ctx.reader) (.refl _)

/-- The texts of every run are answers of the reader. -/
theorem Performs.answered {task : Task} {run run' : Run} {outcome : Outcome}
    (h : Performs ctx task run outcome run') (hrun : run.Answered ctx.reader) :
    run'.Answered ctx.reader :=
  h.invariant (Run.invariant_answered ctx.reader) hrun

/-- What comes of reading a body is what stands in the text of its file, or an error that tells why
there is none. -/
theorem source?_body (ctx : Context) (root : String) (definition : StructDefinition) (run : Run) :
    (∃ error, (body ctx root definition run).1 = .error (.fileRead definition.path error) ∧
        (body ctx root definition run).2.source? definition.path = some (.error error.fault)) ∨
      ∃ text, (body ctx root definition run).2.source? definition.path = some (.ok text) ∧
        (body ctx root definition run).1 =
          (bodyIn ctx.options.maxScan root definition.offset text).mapError
            (.malformedBlock definition.path) := by
  have hsource := run.source?_read ctx.reader definition.path
  rw [body]
  rcases hread : run.read ctx.reader definition.path with ⟨answer, read⟩
  rw [hread] at hsource
  cases answer with
  | error error => exact .inl ⟨error, rfl, hsource⟩
  | ok text =>
    refine .inr ⟨text, ?_⟩
    dsimp only
    cases bodyIn ctx.options.maxScan root definition.offset text with
    | error e => exact ⟨hsource, rfl⟩
    | ok text' => exact ⟨hsource, rfl⟩

/-- A body that is read is the one in the texts of the run. -/
theorem Opens.bodyOf? {symbol text : List Char} {depth : Nat} {run read : Run}
    {resolved : Resolved} (h : Opens ctx symbol depth run (.body resolved text) read) :
    read.bodyOf? ctx resolved.root = some text := by
  cases h with
  | @body _ definition _ _ _ _ hget hbody =>
    have hsource := source?_body ctx resolved.root definition (run.visit resolved.root)
    rw [hbody] at hsource
    obtain ⟨error, herror, -⟩ | ⟨file, hfile, htext⟩ := hsource
    · cases herror
    · rw [Run.bodyOf?, hget, Option.bind_some, hfile]
      cases hin : bodyIn ctx.options.maxScan resolved.root definition.offset file with
      | error e =>
        rw [hin] at htext
        cases htext
      | ok body =>
        rw [hin] at htext
        dsimp only
        rw [hin]
        exact congrArg some (Except.ok.inj htext).symm

theorem Run.KeepsSources.bodyOf? {run later : Run} (h : run.KeepsSources later) {root : String}
    {text : List Char} (hbody : run.bodyOf? ctx root = some text) :
    later.bodyOf? ctx root = some text := by
  obtain ⟨definition, hget, hin⟩ := Option.bind_eq_some_iff.1 hbody
  rw [Run.bodyOf?, hget, Option.bind_some]
  cases hsource : run.source? definition.path with
  | none =>
    rw [hsource] at hin
    cases hin
  | some answer =>
    rw [hsource] at hin
    rwa [h _ _ hsource]

/-- The bodies that a run has read are among those of which `NamesOneEach` speaks. -/
theorem Run.Answered.namesOne {run : Run} (h : run.Answered ctx.reader) (hone : ctx.NamesOneEach)
    {root : String} {text : List Char} (hbody : run.bodyOf? ctx root = some text) :
    ∀ d ∈ Declaration.all text, NamesOne ctx.catalog d := by
  obtain ⟨definition, hget, hin⟩ := Option.bind_eq_some_iff.1 hbody
  cases hsource : run.source? definition.path with
  | none =>
    rw [hsource] at hin
    cases hin
  | some answer =>
    rw [hsource] at hin
    cases answer with
    | error fault => cases hin
    | ok file =>
      obtain ⟨path, hsame, reads, hreader⟩ := h.exists_of_source? hsource
      cases hfile : bodyIn ctx.options.maxScan root definition.offset file with
      | error e =>
        simp only [hfile, Except.toOption, reduceCtorEq] at hin
      | ok body =>
        simp only [hfile, Except.toOption, Option.some.injEq] at hin
        exact hin ▸ hone root definition hget path hsame reads file hreader body hfile

end StructUnfold.Expansion
