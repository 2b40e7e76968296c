import StructUnfold.Proofs.Expansion.Arising
import StructUnfold.Proofs.Expansion.SameCode

/-!
# How an expansion reads files

The reader may give another answer each time it is asked, and any answer may be an error. An
expansion asks it for a file when it needs the body of a struct in it for the first time, and what is
answered then holds for all structs of the file.

## Main definitions

* `Run.calls`: the paths that were asked for, in order.
* `Run.Logged`: the state keeps the answers to its calls, and no file was asked for twice.
* `Requests`, `Finds`: the body of a struct is asked for, and what is found of it in an answer.
* `SettledBy`: one call settles what is found of the struct.
* `ReadsOnce`: how an expansion asks for files.

## Main results

* `settledBy_of_requests`: each request is settled by a call, an earlier one or a new one.
* `Performs.of_sameAnswers`: what is performed depends on the answers to the calls alone.
* `reads_each_file_once`: each file is asked for at most once in an expansion.
-/

namespace StructUnfold.Expansion

/-! ### Calls -/

namespace Run

/-- The paths for which the reader was asked, in order. -/
def calls (run : Run) : List Path :=
  (run.sources.map Prod.fst).reverse

/-- A later state has the calls and the issues of an earlier one, and perhaps more behind them. -/
structure Grows (run later : Run) : Prop where
  /-- The calls. -/
  calls : run.calls <+: later.calls
  /-- The issues. -/
  issues : run.issues <+: later.issues

/-- A state keeps the answers to its calls, and no file was asked for twice. -/
structure Logged (reader : Reader) (run : Run) : Prop where
  /-- The calls are counted. -/
  reads : run.reads = run.calls.length
  /-- Of each call its answer is kept, of an error its fault. -/
  sources : run.sources.reverse =
    run.calls.mapIdx fun i path => (path, (reader i path).mapError ReadError.fault)
  /-- No file was asked for under two spellings of its path. -/
  apart : run.calls.Pairwise fun p q => p.same q = false

/-- The state after a file is asked for. -/
def asked (reader : Reader) (path : Path) (run : Run) : Run :=
  { run with
    sources := (path, (reader run.reads path).mapError ReadError.fault) :: run.sources
    reads := run.reads + 1 }

/-- Two readers give the same answers to calls. -/
def SameAnswers (reader reader' : Reader) (calls : List Path) : Prop :=
  ∀ i path, calls[i]? = some path → reader' i path = reader i path

variable {reader reader' : Reader} {path : Path} {run later : Run}

/-- What stands at a place of a list stands there in each list that begins with it. -/
theorem getElem?_of_isPrefix {α : Type} {as bs : List α} (h : as <+: bs) {i : Nat} {a : α}
    (hi : as[i]? = some a) : bs[i]? = some a := by
  obtain ⟨rest, rfl⟩ := h
  rw [List.getElem?_append_left (List.getElem?_eq_some_iff.1 hi).1, hi]

theorem SameAnswers.of_isPrefix {calls more : List Path} (h : SameAnswers reader reader' more)
    (hext : calls <+: more) : SameAnswers reader reader' calls :=
  fun i path hcall => h i path (getElem?_of_isPrefix hext hcall)

@[simp] theorem calls_visit (run : Run) (root : String) : (run.visit root).calls = run.calls := by
  rw [visit]
  split <;> rfl

@[simp] theorem reads_visit (run : Run) (root : String) : (run.visit root).reads = run.reads := by
  rw [visit]
  split <;> rfl

@[simp] theorem calls_asked (reader : Reader) (path : Path) (run : Run) :
    (run.asked reader path).calls = run.calls ++ [path] := by
  rw [calls, asked, List.map_cons, List.reverse_cons, calls]

theorem calls_isPrefix_read (reader : Reader) (path : Path) (run : Run) :
    run.calls <+: (run.read reader path).2.calls := by
  rw [read]
  split
  · exact List.prefix_refl _
  · exact List.prefix_refl _
  · show run.calls <+: (run.asked reader path).calls
    rw [calls_asked]
    exact List.prefix_append _ _

theorem Grows.refl (run : Run) : run.Grows run :=
  ⟨List.prefix_refl _, List.prefix_refl _⟩

theorem invariant_grows (reader : Reader) (run : Run) :
    Invariant reader fun later => run.Grows later where
  note issue h := ⟨h.calls, h.issues.trans (List.prefix_append _ [issue])⟩
  visit root h := ⟨by rw [calls_visit]; exact h.calls, by rw [issues_visit]; exact h.issues⟩
  read path h :=
    ⟨h.calls.trans (calls_isPrefix_read reader path _), by rw [issues_read]; exact h.issues⟩

/-! ### Answers -/

theorem Logged.start (reader : Reader) : Run.start.Logged reader :=
  ⟨rfl, rfl, .nil⟩

/-- What is kept of a file is the answer to a call, under some spelling of its path. -/
theorem Logged.exists_call (h : run.Logged reader) {answer : Except SystemFault (List Char)}
    (hsource : run.source? path = some answer) :
    ∃ i path', run.calls[i]? = some path' ∧ path'.same path = true ∧
      answer = (reader i path').mapError ReadError.fault := by
  obtain ⟨entry, hfind, rfl⟩ := Option.map_eq_some_iff.1 hsource
  have hmem := List.mem_reverse.2 (List.mem_of_find?_eq_some hfind)
  rw [h.sources] at hmem
  obtain ⟨i, hi, rfl⟩ := List.mem_mapIdx.1 hmem
  exact ⟨i, _, List.getElem?_eq_getElem hi, by simpa using List.find?_some hfind, rfl⟩

/-- A file of which nothing is kept was not asked for. -/
theorem same_eq_false_of_source?_eq_none (hsource : run.source? path = none) :
    ∀ q ∈ run.calls, q.same path = false := by
  intro q hq
  obtain ⟨entry, hentry, rfl⟩ := List.mem_map.1 (List.mem_reverse.1 hq)
  have hnot := List.find?_eq_none.1 (Option.map_eq_none_iff.1 hsource) entry hentry
  exact Bool.eq_false_iff.2 hnot

/-- There is one call for a file. -/
theorem Logged.call_unique (h : run.Logged reader) {i j : Nat} {p q : Path}
    (hi : run.calls[i]? = some p) (hj : run.calls[j]? = some q) (hsame : p.same q = true) :
    i = j := by
  obtain ⟨hilt, rfl⟩ := List.getElem?_eq_some_iff.1 hi
  obtain ⟨hjlt, rfl⟩ := List.getElem?_eq_some_iff.1 hj
  have hapart := List.pairwise_iff_getElem.1 h.apart
  rcases Nat.lt_trichotomy i j with hlt | heq | hgt
  · rw [hapart i j hilt hjlt hlt] at hsame
    cases hsame
  · exact heq
  · rw [Path.same_comm, hapart j i hjlt hilt hgt] at hsame
    cases hsame

/-- The answer to a call is kept for its file. -/
theorem Logged.source?_eq (h : run.Logged reader) {i : Nat} {path' : Path}
    (hcall : run.calls[i]? = some path') (hsame : path'.same path = true) :
    run.source? path = some ((reader i path').mapError ReadError.fault) := by
  cases hsource : run.source? path with
  | none =>
    rw [same_eq_false_of_source?_eq_none hsource path' (List.mem_of_getElem? hcall)] at hsame
    cases hsame
  | some answer =>
    obtain ⟨j, q, hcall', hsame', rfl⟩ := h.exists_call hsource
    obtain rfl : i = j :=
      h.call_unique hcall hcall' (by rw [Path.same_congr hsame, Path.same_comm, hsame'])
    obtain rfl := Option.some.inj (hcall.symm.trans hcall')
    rfl

/-- A file is read by an earlier call for it, whose answer is given again, or by a new one. -/
theorem Logged.read_cases (h : run.Logged reader) (path : Path) :
    (∃ i path', run.calls[i]? = some path' ∧ path'.same path = true ∧
        run.read reader path =
          ((reader i path').mapError fun e => .remembered e.fault, run)) ∨
      (∀ q ∈ run.calls, q.same path = false) ∧
        run.read reader path = (reader run.reads path, run.asked reader path) := by
  cases hsource : run.source? path with
  | none => exact .inr ⟨same_eq_false_of_source?_eq_none hsource, by rw [read, hsource]; rfl⟩
  | some answer =>
    obtain ⟨i, path', hcall, hsame, rfl⟩ := h.exists_call hsource
    refine .inl ⟨i, path', hcall, hsame, ?_⟩
    rw [read, hsource]
    cases reader i path' with
    | ok text => rfl
    | error e => rfl

/-- A new call is put behind the others. -/
theorem Logged.asked (h : run.Logged reader) (hnew : ∀ q ∈ run.calls, q.same path = false) :
    (run.asked reader path).Logged reader where
  reads := by
    rw [calls_asked, List.length_append, List.length_singleton, ← h.reads]
    rfl
  sources := by
    rw [calls_asked, List.mapIdx_concat, ← h.sources, ← h.reads, Run.asked, List.reverse_cons]
  apart := by
    rw [calls_asked, List.pairwise_append]
    exact ⟨h.apart, List.pairwise_singleton _ _, fun q hq p hp =>
      List.mem_singleton.1 hp ▸ hnew q hq⟩

theorem invariant_logged (reader : Reader) : Invariant reader (Logged reader) where
  note _ h := ⟨h.reads, h.sources, h.apart⟩
  visit root h := by
    rw [visit]
    split
    · exact h
    · exact ⟨h.reads, h.sources, h.apart⟩
  read path h := by
    rcases h.read_cases path with ⟨i, path', -, -, hread⟩ | ⟨hnew, hread⟩
    · rw [hread]
      exact h
    · rw [hread]
      exact h.asked hnew

/-- With a reader that gives the same answers to the calls, the same is read. -/
theorem Logged.read_eq (h : run.Logged reader)
    (hsame : SameAnswers reader reader' (run.read reader path).2.calls) :
    run.read reader' path = run.read reader path := by
  cases hsource : run.source? path with
  | none =>
    have hread : run.read reader path = (reader run.reads path, run.asked reader path) := by
      rw [read, hsource]
      rfl
    -- The file is asked for by the last call.
    have hanswer : reader' run.reads path = reader run.reads path := by
      refine hsame _ _ ?_
      rw [hread, calls_asked, h.reads, List.getElem?_concat_length]
    rw [hread, read, hsource, Run.asked, hanswer]
  | some answer =>
    rw [read, read, hsource]
    cases answer with
    | ok text => rfl
    | error fault => rfl

/-- What is read is the answer to one call, the `i`-th. Of an error that was met before only the
fault is told. -/
theorem Logged.exists_answer (h : run.Logged reader) (path : Path) :
    ∃ i path', (run.read reader path).2.calls[i]? = some path' ∧ path'.same path = true ∧
      (i < run.reads ∧ (run.read reader path).2.reads = run.reads ∨
        i = run.reads ∧ path' = path ∧ (run.read reader path).2.reads = run.reads + 1) ∧
      (run.read reader path).1 = (reader i path').mapError fun e =>
        if i < run.reads then .remembered e.fault else e := by
  rcases h.read_cases path with ⟨i, path', hcall, hsame, hread⟩ | ⟨-, hread⟩
  · have hlt : i < run.reads := h.reads ▸ (List.getElem?_eq_some_iff.1 hcall).1
    rw [hread]
    exact ⟨i, path', hcall, hsame, .inl ⟨hlt, rfl⟩, by simp only [if_pos hlt]⟩
  · rw [hread]
    refine ⟨run.reads, path, ?_, Path.same_refl path, .inr ⟨rfl, rfl, rfl⟩, ?_⟩
    · rw [calls_asked, h.reads, List.getElem?_concat_length]
    · cases reader run.reads path with
      | ok text => rfl
      | error e => simp only [Except.mapError, Nat.lt_irrefl, if_false]

end Run

variable {ctx : Context}

/-! ### Requests -/

/-- The body of a struct is asked for where it is to be entered: the symbol comes down to it, it has
not been entered before, and it is defined. -/
structure Requests (ctx : Context) (symbol : List Char) (depth : Nat) (run : Run)
    (resolved : Resolved) (definition : StructDefinition) : Prop where
  /-- The symbol comes down to the struct. -/
  resolves : ctx.catalog.resolve symbol = .ok resolved
  /-- It has not been entered, or it is the struct of the query. -/
  fresh : 0 < depth → resolved.root ∉ run.visited
  /-- It is defined. -/
  defined : ctx.catalog.structs.get? resolved.root = some definition

/-- What is found of a struct in what was read for its file, and the issue about it. -/
inductive Finds (ctx : Context) (resolved : Resolved) (definition : StructDefinition) :
    Except ReadError (List Char) → Opening → Option Problem → Prop where
  /-- Its body. -/
  | body {text body}
    (hbody : bodyIn ctx.options.maxScan resolved.root definition.offset text = .ok body) :
    Finds ctx resolved definition (.ok text) (.body resolved body) none
  /-- No body. -/
  | malformed {text e}
    (hbody : bodyIn ctx.options.maxScan resolved.root definition.offset text = .error e) :
    Finds ctx resolved definition (.ok text) (.leaf resolved.root.toList .unreadable)
      (some (.malformedBlock definition.path e))
  /-- No text. -/
  | failed {e} :
    Finds ctx resolved definition (.error e) (.leaf resolved.root.toList .unreadable)
      (some (.fileRead definition.path e))

/-- What is found of a struct is settled by the `i`-th call, which asked for its file under the
spelling `path`. Either it was made before the state `run`, and none is made now, or it is made now.
Its answer is what the struct is found in, except that of an error that was met before only the
fault is told. -/
structure SettledBy (ctx : Context) (i : Nat) (path : Path) (run : Run) (resolved : Resolved)
    (definition : StructDefinition) (found : Opening) (later : Run) : Prop where
  /-- The call asked for the file of the struct. -/
  same : path.same definition.path = true
  /-- It was made before or is made now. -/
  made : i < run.reads ∧ later.reads = run.reads ∨
    i = run.reads ∧ path = definition.path ∧ later.reads = run.reads + 1
  /-- Its answer is what the struct is found in, and the issue about it is noted. -/
  finds : ∃ issue,
    Finds ctx resolved definition
      ((ctx.reader i path).mapError fun e => if i < run.reads then .remembered e.fault else e)
      found issue ∧
    later.issues = run.issues ++ issue.toList

/-- What is found where a body is asked for is found in what is read for the file. -/
theorem Requests.finds {symbol : List Char} {depth : Nat} {run : Run} {resolved : Resolved}
    {definition : StructDefinition} (h : Requests ctx symbol depth run resolved definition) :
    ∃ issue,
      Finds ctx resolved definition
        ((run.visit resolved.root).read ctx.reader definition.path).1
        (opening ctx symbol depth run).1 issue ∧
      (opening ctx symbol depth run).2 =
        ((run.visit resolved.root).read ctx.reader definition.path).2.noteAll issue.toList := by
  have hfresh : ¬(0 < depth ∧ resolved.root ∈ run.visited) := fun hvisited =>
    h.fresh hvisited.1 hvisited.2
  rw [opening, h.resolves]
  dsimp only
  rw [if_neg hfresh, h.defined]
  dsimp only
  rw [body]
  obtain ⟨answer, read⟩ := (run.visit resolved.root).read ctx.reader definition.path
  cases answer with
  | error e => exact ⟨_, .failed, rfl⟩
  | ok text =>
    dsimp only
    cases hbody : bodyIn ctx.options.maxScan resolved.root definition.offset text with
    | error e => exact ⟨_, .malformed hbody, rfl⟩
    | ok body => exact ⟨_, .body hbody, by rw [Run.noteAll, Option.toList_none, List.append_nil]⟩

/-- Each request is settled by a call, an earlier one or a new one. -/
theorem settledBy_of_requests {symbol : List Char} {depth : Nat} {run : Run} {resolved : Resolved}
    {definition : StructDefinition} (hrun : run.Logged ctx.reader)
    (h : Requests ctx symbol depth run resolved definition) :
    ∃ i path, (opening ctx symbol depth run).2.calls[i]? = some path ∧
      SettledBy ctx i path run resolved definition (opening ctx symbol depth run).1
        (opening ctx symbol depth run).2 := by
  obtain ⟨issue, hfinds, hlater⟩ := h.finds
  obtain ⟨i, path, hcall, hsame, hmade, hanswer⟩ :=
    ((Run.invariant_logged ctx.reader).visit resolved.root hrun).exists_answer definition.path
  have hissues := Run.issues_read ctx.reader definition.path (run.visit resolved.root)
  rw [Run.issues_visit] at hissues
  simp only [Run.reads_visit] at hmade hanswer
  rw [hanswer] at hfinds
  rw [hlater]
  exact ⟨i, path, hcall, hsame, hmade, issue, hfinds, by rw [Run.noteAll, hissues]⟩

/-- Where a call for its file was answered by an error, a struct becomes a leaf without a call. -/
theorem Requests.opening_of_failed {symbol : List Char} {depth : Nat} {run : Run}
    {resolved : Resolved} {definition : StructDefinition}
    (h : Requests ctx symbol depth run resolved definition) (hrun : run.Logged ctx.reader) {i : Nat}
    {path : Path} {error : ReadError} (hcall : run.calls[i]? = some path)
    (hsame : path.same definition.path = true) (hreader : ctx.reader i path = .error error) :
    opening ctx symbol depth run =
      (.leaf resolved.root.toList .unreadable,
        (run.visit resolved.root).note (.fileRead definition.path (.remembered error.fault))) := by
  rw [← run.calls_visit resolved.root] at hcall
  have hsource :=
    ((Run.invariant_logged ctx.reader).visit resolved.root hrun).source?_eq hcall hsame
  obtain ⟨issue, hfinds, hlater⟩ := h.finds
  rw [hreader] at hsource
  have hread : (run.visit resolved.root).read ctx.reader definition.path =
      (.error (.remembered error.fault), run.visit resolved.root) := by
    rw [Run.read, hsource]
    rfl
  rw [hread] at hfinds hlater
  rcases hopening : opening ctx symbol depth run with ⟨found, later⟩
  rw [hopening] at hfinds hlater
  cases hfinds with
  | failed => exact Prod.ext rfl hlater

/-! ### Whole runs -/

/-- With a reader that gives the same answers to the calls, the same is found. -/
theorem opening_of_sameAnswers {reader' : Reader} {symbol : List Char} {depth : Nat} {run : Run}
    (hrun : run.Logged ctx.reader)
    (hsame : Run.SameAnswers ctx.reader reader' (opening ctx symbol depth run).2.calls) :
    opening { ctx with reader := reader' } symbol depth run = opening ctx symbol depth run := by
  cases hresolve : ctx.catalog.resolve symbol with
  | error issue => rw [opening, opening, hresolve]
  | ok resolved =>
    by_cases hvisited : 0 < depth ∧ resolved.root ∈ run.visited
    · rw [opening, opening, hresolve]
      dsimp only
      rw [if_pos hvisited, if_pos hvisited]
    · cases hget : ctx.catalog.structs.get? resolved.root with
      | none =>
        rw [opening, opening, hresolve]
        dsimp only
        rw [if_neg hvisited, if_neg hvisited, hget]
      | some definition =>
        -- Only here the reader may be asked, and the call is among those of the state behind.
        have hrequests : Requests ctx symbol depth run resolved definition :=
          ⟨hresolve, fun hdepth hmem => hvisited ⟨hdepth, hmem⟩, hget⟩
        obtain ⟨issue, -, hlater⟩ := hrequests.finds
        rw [hlater] at hsame
        have hread := ((Run.invariant_logged ctx.reader).visit resolved.root hrun).read_eq hsame
        rw [opening, opening, hresolve]
        dsimp only
        rw [if_neg hvisited, if_neg hvisited, hget]
        dsimp only
        rw [body, body, hread]

/-- What is performed depends on the answers to the calls alone. -/
theorem Performs.of_sameAnswers {reader' : Reader} {task : Task} {run later : Run}
    {outcome : Outcome} (h : Performs ctx task run outcome later) (hrun : run.Logged ctx.reader)
    (hsame : Run.SameAnswers ctx.reader reader' later.calls) :
    Performs { ctx with reader := reader' } task run outcome later := by
  -- By induction on the derivation. The calls of each state are the first ones of the last state.
  have hcalls : ∀ {task : Task} {run later : Run} {outcome : Outcome},
      Performs ctx task run outcome later → run.calls <+: later.calls := fun {_ run _ _} h =>
    (h.invariant (run.invariant_grows ctx.reader) (.refl run)).calls
  have hlogged := Run.invariant_logged ctx.reader
  induction h with
  | leaf hopening =>
    refine .leaf ?_
    rw [opening_of_sameAnswers hrun (by rwa [hopening]), hopening]
  | @block symbol label depth run resolved text read items later hopening hitems ih =>
    have hread := (opens_of_opening_eq hopening).invariant hlogged hrun
    refine .block ?_ (ih hread hsame)
    rw [opening_of_sameAnswers hrun (by rw [hopening]; exact hsame.of_isPrefix (hcalls hitems)),
      hopening]
  | nil => exact .nil
  | cons hitem hitems ihitem ihitems =>
    exact .cons (ihitem hrun (hsame.of_isPrefix (hcalls hitems)))
      (ihitems (hitem.invariant hlogged hrun) hsame)
  | line => exact .line
  | settle hverdict _ ih => exact .settle hverdict (ih (hlogged.noteAll _ hrun) hsame)
  | name hverdict henter hrest ihenter ihrest =>
    exact .name hverdict (ihenter hrun (hsame.of_isPrefix (hcalls hrest)))
      (ihrest (henter.invariant hlogged hrun) hsame)
  | nest hverdict _ ih => exact .nest hverdict (ih hrun hsame)

/-- What is done behind a struct that is entered adds to the calls and issues. -/
theorem ArisesIn.opening_grows {query symbol label : List Char} {depth : Nat} {before : Run}
    {e : Expansion} (h : ArisesIn ctx query (.enter symbol label depth) before)
    (hexpand : expand ctx query = .ok e) : (opening ctx symbol depth before).2.Grows e.run := by
  obtain ⟨-, hperforms⟩ := performs_of_expand hexpand
  obtain ⟨part, after, hpart, -, hlast⟩ := Arises.exists_part h hperforms
  have hgrows := Run.invariant_grows ctx.reader (opening ctx symbol depth before).2
  refine hlast hgrows ?_
  cases hpart with
  | leaf hopening =>
    rw [hopening]
    exact .refl _
  | block hopening hitems =>
    rw [hopening] at hgrows ⊢
    exact hitems.invariant hgrows (.refl _)

/-! ### Queries -/

/-- How an expansion asks for files. -/
structure ReadsOnce (ctx : Context) (query : List Char) (e : Expansion) : Prop where
  /-- The calls are counted. -/
  count : e.run.reads = e.run.calls.length
  /-- No file is asked for twice, under whatever spellings of its path. -/
  apart : e.run.calls.Pairwise fun p q => p.same q = false
  /-- There are no other calls: a reader that gives the same answers to these leads to the same
  expansion. -/
  frame : ∀ reader', Run.SameAnswers ctx.reader reader' e.run.calls →
    expand { ctx with reader := reader' } query = .ok e
  /-- Each struct whose body is asked for is found in the answer to the call for its file, and the
  issue about it is one of the expansion. -/
  settled : ∀ symbol label depth before resolved definition,
    ArisesIn ctx query (.enter symbol label depth) before →
    Requests ctx symbol depth before resolved definition →
      ∃ i path, e.run.calls[i]? = some path ∧
        SettledBy ctx i path before resolved definition (opening ctx symbol depth before).1
          (opening ctx symbol depth before).2 ∧
        (opening ctx symbol depth before).2.issues <+: e.issues
  /-- If a call for its file was answered by an error, the struct becomes a leaf, it is marked and an
  issue of its own is noted, but nothing is asked for. -/
  failed : ∀ symbol label depth before resolved definition,
    ArisesIn ctx query (.enter symbol label depth) before →
    Requests ctx symbol depth before resolved definition →
      ∀ i path error, before.calls[i]? = some path → path.same definition.path = true →
        ctx.reader i path = .error error →
          Performs ctx (.enter symbol label depth) before
            (.entered (.leaf resolved.root.toList .unreadable))
            ((before.visit resolved.root).note
              (.fileRead definition.path (.remembered error.fault))) ∧
          e.issues[before.issues.length]? =
            some (.fileRead definition.path (.remembered error.fault))

/-- **Each file is asked for at most once.** A query that is refused asks for no file. One that is
accepted asks for no file twice, whatever the reader answers. All structs of a file are found in the
one answer for it; if that is an error, each of them becomes a leaf and has an issue. -/
theorem reads_each_file_once (ctx : Context) (query : List Char) :
    (∀ p, expand ctx query = .error p →
        ∀ reader', expand { ctx with reader := reader' } query = .error p) ∧
      ∀ e, expand ctx query = .ok e → ReadsOnce ctx query e := by
  refine ⟨fun p h reader' => expand_eq_error_of_reader reader' h, fun e hexpand => ?_⟩
  obtain ⟨haccepts, hperforms⟩ := performs_of_expand hexpand
  have hlogged := Run.invariant_logged ctx.reader
  have hrun := hperforms.invariant hlogged (.start ctx.reader)
  refine ⟨hrun.reads, hrun.apart, fun reader' hsame => ?_, ?_, ?_⟩
  · obtain ⟨e', he', hperforms'⟩ :=
      @performs_expand { ctx with reader := reader' } query haccepts
    -- What is performed with the other reader is unique, so it is the same run.
    obtain ⟨hentered, hlast⟩ :=
      (hperforms.of_sameAnswers (.start ctx.reader) hsame).unique hperforms'
    obtain ⟨entered, run⟩ := e
    obtain ⟨entered', run'⟩ := e'
    obtain rfl : entered = entered' := Outcome.entered.inj hentered
    obtain rfl : run = run' := hlast
    exact he'
  · intro symbol label depth before resolved definition harises hrequests
    have hgrows := harises.opening_grows hexpand
    obtain ⟨i, path, hcall, hsettled⟩ :=
      settledBy_of_requests (Arises.invariant harises hlogged (.start ctx.reader)) hrequests
    exact ⟨i, path, Run.getElem?_of_isPrefix hgrows.calls hcall, hsettled, hgrows.issues⟩
  · intro symbol label depth before resolved definition harises hrequests i path error hcall hsame
      hreader
    have hopening := hrequests.opening_of_failed
      (Arises.invariant harises hlogged (.start ctx.reader)) hcall hsame hreader
    have hgrows := harises.opening_grows hexpand
    rw [hopening] at hgrows
    refine ⟨.leaf hopening, Run.getElem?_of_isPrefix hgrows.issues ?_⟩
    show ((before.visit resolved.root).issues ++ [_])[before.issues.length]? = _
    rw [Run.issues_visit, List.getElem?_concat_length]

/-- Two structs of a file that is lost: it is asked for once, and both have an issue. -/
example :
    let box := "struct box \x7b gear a; cog b; \x7d;\n".toList
    let lost := "struct gear \x7b int x; \x7d;\nstruct cog \x7b int y; \x7d;\n".toList
    let c := (Scan.workspace 4096 [(.ofString "box.h", box), (.ofString "lost.h", lost)]).1
    let reader : Reader := fun _ path =>
      if path.same (.ofString "box.h") then .ok box else .error (.system .notFound)
    (expand ⟨c, reader, ⟨2, 8, 4096⟩⟩ "box".toList).map
        (fun e => (e.text 2, e.run.reads, e.issues)) =
      .ok ("|\n  gear a;\n  cog b;\n|\n| box", 2,
        [.fileRead (.ofString "lost.h") (.system .notFound),
          .fileRead (.ofString "lost.h") (.remembered .notFound)]) := by
  decide +kernel

end StructUnfold.Expansion
