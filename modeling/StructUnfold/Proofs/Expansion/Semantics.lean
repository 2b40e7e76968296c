import StructUnfold.Expansion.Basic
import StructUnfold.Proofs.Catalog.Resolve

/-!
# What an expansion performs

An expansion is described by a relation that mentions no bound on how deep structs nest: `Performs`
holds of a task, the state it starts in, its outcome and the state it ends in. A derivation of it is
a finite record of all that is done, so whatever holds along every run is proved by induction on it.

* `Run.Invariant`: what each effect of an expansion on its state keeps; `Opens.invariant` and
  `Performs.invariant` for whole runs.
* `Opens`: all that can be found where a struct is to be entered.
* `Decides`, `verdict_eq_iff`: what is done about a word, case by case.
* `Enters`, `enters_of_verdict_eq_enter`: when the struct of a word is entered.
* `Performs`: what is performed, step by step; `Performs.unique`: the outcome is unique.
* `Performs.visited_suffix`, `Performs.issues_isPrefix`: structs are marked as entered and stay so,
  and issues are kept.
* `performs_expand`, `performs_of_expand`: an accepted query performs its expansion.
-/

namespace StructUnfold.Expansion

/-! ### Effects on the state -/

namespace Run

@[simp] theorem visited_note (run : Run) (issue : Problem) :
    (run.note issue).visited = run.visited := rfl

@[simp] theorem visited_noteAll (run : Run) (issues : List Problem) :
    (run.noteAll issues).visited = run.visited := rfl

theorem visited_visit (run : Run) (root : String) :
    (run.visit root).visited =
      if root ∈ run.visited then run.visited else root :: run.visited := by
  simp only [visit, List.contains_iff_mem]
  split <;> rfl

theorem visited_suffix_visit (run : Run) (root : String) :
    run.visited <:+ (run.visit root).visited := by
  rw [visited_visit]
  split
  · exact List.suffix_refl _
  · exact List.suffix_cons _ _

/-- Reading a file marks no struct. -/
@[simp] theorem visited_read (reader : Reader) (path : Path) (run : Run) :
    (run.read reader path).2.visited = run.visited := by
  rw [read]
  split <;> rfl

@[simp] theorem issues_visit (run : Run) (root : String) :
    (run.visit root).issues = run.issues := by
  rw [visit]
  split <;> rfl

/-- Reading a file notes no issue by itself. -/
@[simp] theorem issues_read (reader : Reader) (path : Path) (run : Run) :
    (run.read reader path).2.issues = run.issues := by
  rw [read]
  split <;> rfl

/-- What holds of a state holds still after each of the effects that an expansion has on it: an issue
is noted, a struct is marked, or a file is read. -/
structure Invariant (reader : Reader) (P : Run → Prop) : Prop where
  /-- After an issue. -/
  note : ∀ {run} issue, P run → P (run.note issue)
  /-- After a mark. -/
  visit : ∀ {run} root, P run → P (run.visit root)
  /-- After a file. -/
  read : ∀ {run} path, P run → P (run.read reader path).2

/-- Issues are noted one after the other. -/
theorem Invariant.noteAll {reader : Reader} {P : Run → Prop} (h : Invariant reader P) {run : Run}
    (issue : Option Problem) (hrun : P run) : P (run.noteAll issue.toList) := by
  cases issue with
  | none =>
    rw [Run.noteAll, Option.toList_none, List.append_nil]
    exact hrun
  | some issue => exact h.note issue hrun

end Run

/-- Reading a body does no more to the state than reading its file. -/
theorem body_snd (ctx : Context) (root : String) (definition : StructDefinition) (run : Run) :
    (body ctx root definition run).2 = (run.read ctx.reader definition.path).2 := by
  rw [body]
  split
  · rename_i hread
    rw [hread]
  · rename_i hread
    rw [hread]
    split <;> rfl

/-- Reading a body marks no struct. -/
@[simp] theorem visited_body (ctx : Context) (root : String) (definition : StructDefinition)
    (run : Run) : (body ctx root definition run).2.visited = run.visited := by
  rw [body_snd, Run.visited_read]

@[simp] theorem issues_body (ctx : Context) (root : String) (definition : StructDefinition)
    (run : Run) : (body ctx root definition run).2.issues = run.issues := by
  rw [body_snd, Run.issues_read]

variable {ctx : Context}

theorem visited_of_body_eq {root : String} {definition : StructDefinition} {run read : Run}
    {answer : Except Problem (List Char)} (h : body ctx root definition run = (answer, read)) :
    read.visited = run.visited := by
  have hvisited := visited_body ctx root definition run
  rwa [h] at hvisited

theorem issues_of_body_eq {root : String} {definition : StructDefinition} {run read : Run}
    {answer : Except Problem (List Char)} (h : body ctx root definition run = (answer, read)) :
    read.issues = run.issues := by
  have hissues := issues_body ctx root definition run
  rwa [h] at hissues

/-- What is found where a struct is to be entered, and the state behind it. -/
inductive Opens (ctx : Context) (symbol : List Char) (depth : Nat) (run : Run) :
    Opening → Run → Prop where
  /-- The aliases of the symbol form too long a chain. -/
  | unresolved {issue} (hresolve : ctx.catalog.resolve symbol = .error issue) :
    Opens ctx symbol depth run (.leaf (Text.dropEndWhile isStar symbol) .unresolved)
      (run.note issue)
  /-- The struct has been entered before. -/
  | visited {resolved} (hresolve : ctx.catalog.resolve symbol = .ok resolved) (hdepth : 0 < depth)
    (hvisited : resolved.root ∈ run.visited) :
    Opens ctx symbol depth run (.leaf resolved.root.toList .visited) run
  /-- The struct is defined nowhere. -/
  | undefined {resolved} (hresolve : ctx.catalog.resolve symbol = .ok resolved)
    (hfresh : 0 < depth → resolved.root ∉ run.visited)
    (hget : ctx.catalog.structs.get? resolved.root = none) :
    Opens ctx symbol depth run (.leaf resolved.root.toList .undefined)
      ((run.visit resolved.root).note (.unresolvedSymbol resolved.root))
  /-- The body of the struct cannot be read. -/
  | unreadable {resolved definition issue read}
    (hresolve : ctx.catalog.resolve symbol = .ok resolved)
    (hfresh : 0 < depth → resolved.root ∉ run.visited)
    (hget : ctx.catalog.structs.get? resolved.root = some definition)
    (hbody : body ctx resolved.root definition (run.visit resolved.root) = (.error issue, read)) :
    Opens ctx symbol depth run (.leaf resolved.root.toList .unreadable) (read.note issue)
  /-- The body of the struct has been read. -/
  | body {resolved definition text read} (hresolve : ctx.catalog.resolve symbol = .ok resolved)
    (hfresh : 0 < depth → resolved.root ∉ run.visited)
    (hget : ctx.catalog.structs.get? resolved.root = some definition)
    (hbody : body ctx resolved.root definition (run.visit resolved.root) = (.ok text, read)) :
    Opens ctx symbol depth run (.body resolved text) read

/-- Nothing else is found than `Opens` says. -/
theorem opens_opening (ctx : Context) (symbol : List Char) (depth : Nat) (run : Run) :
    Opens ctx symbol depth run (opening ctx symbol depth run).1
      (opening ctx symbol depth run).2 := by
  rw [opening]
  split
  · rename_i hresolve
    exact .unresolved hresolve
  · rename_i resolved hresolve
    dsimp only
    split
    · rename_i h
      exact .visited hresolve h.1 h.2
    · rename_i h
      have hfresh : 0 < depth → resolved.root ∉ run.visited := fun hdepth hmem => h ⟨hdepth, hmem⟩
      split
      · rename_i hget
        exact .undefined hresolve hfresh hget
      · rename_i hget
        split
        · rename_i hbody
          exact .unreadable hresolve hfresh hget hbody
        · rename_i hbody
          exact .body hresolve hfresh hget hbody

theorem opens_of_opening_eq {symbol : List Char} {depth : Nat} {run read : Run} {found : Opening}
    (h : opening ctx symbol depth run = (found, read)) : Opens ctx symbol depth run found read := by
  have hopens := opens_opening ctx symbol depth run
  rw [h] at hopens
  exact hopens

/-- Entering a struct does no more to the state than marking it, reading its file and noting an
issue. -/
theorem Opens.invariant {symbol : List Char} {depth : Nat} {run read : Run} {found : Opening}
    (h : Opens ctx symbol depth run found read) {P : Run → Prop}
    (hP : Run.Invariant ctx.reader P) (hrun : P run) : P read := by
  cases h with
  | unresolved => exact hP.note _ hrun
  | visited => exact hrun
  | undefined => exact hP.note _ (hP.visit _ hrun)
  | @unreadable resolved definition issue read _ _ _ hbody =>
    have hread := hP.read definition.path (hP.visit resolved.root hrun)
    rw [← body_snd ctx resolved.root, hbody] at hread
    exact hP.note _ hread
  | @body resolved definition text read _ _ _ hbody =>
    have hread := hP.read definition.path (hP.visit resolved.root hrun)
    rwa [← body_snd ctx resolved.root, hbody] at hread

/-- A struct whose body is read is marked as entered. -/
theorem Opens.visited_eq_of_body {symbol text : List Char} {depth : Nat} {run read : Run}
    {resolved : Resolved} (h : Opens ctx symbol depth run (.body resolved text) read) :
    read.visited = (run.visit resolved.root).visited := by
  cases h with
  | body _ _ _ hbody => exact visited_of_body_eq hbody

/-! ### What is done about a word -/

/-- What is done about the word `word` before the words `rest`, `depth` blocks deep: it is settled
with an issue or without one, or its struct is entered. -/
inductive Decides (ctx : Context) (depth : Nat) (word : List Char) (rest : Declaration)
    (visited : List String) : Verdict → Prop where
  /-- There is no name in the word. -/
  | unnamed (hname : nameIn word = []) : Decides ctx depth word rest visited (.settle word none)
  /-- The aliases of its name lead nowhere. -/
  | unresolved {issue : Problem} (hname : nameIn word ≠ [])
    (hresolve : ctx.catalog.resolve (nameIn word) = .error issue) :
    Decides ctx depth word rest visited (.settle word (some issue))
  /-- The struct has been entered. -/
  | visited {resolved : Resolved} (hname : nameIn word ≠ [])
    (hresolve : ctx.catalog.resolve (nameIn word) = .ok resolved)
    (hvisited : resolved.root ∈ visited) :
    Decides ctx depth word rest visited
      (.settle (leafName resolved (hasStar word rest) ++ starsOf word) none)
  /-- There is no struct of that name. -/
  | undefined {resolved : Resolved} {issue : Option Problem} (hname : nameIn word ≠ [])
    (hresolve : ctx.catalog.resolve (nameIn word) = .ok resolved)
    (hfresh : resolved.root ∉ visited)
    (hundefined : ctx.catalog.structs.contains resolved.root = false)
    (hissue : unexpandable? ctx.catalog (nameIn word) resolved.root = issue) :
    Decides ctx depth word rest visited (.settle word issue)
  /-- The block of the struct would lie too deep. -/
  | deep {resolved : Resolved} (hname : nameIn word ≠ [])
    (hresolve : ctx.catalog.resolve (nameIn word) = .ok resolved)
    (hfresh : resolved.root ∉ visited)
    (hdefined : ctx.catalog.structs.contains resolved.root = true)
    (hdeep : ctx.options.maxDepth ≤ depth + 1) :
    Decides ctx depth word rest visited
      (.settle (leafName resolved (hasStar word rest) ++ starsOf word)
        (some (.depthLimit resolved.root (depth + 1))))
  /-- The struct is entered. -/
  | enter {resolved : Resolved} (hname : nameIn word ≠ [])
    (hresolve : ctx.catalog.resolve (nameIn word) = .ok resolved)
    (hfresh : resolved.root ∉ visited)
    (hdefined : ctx.catalog.structs.contains resolved.root = true)
    (hshallow : depth + 1 < ctx.options.maxDepth) : Decides ctx depth word rest visited .enter

theorem verdict_eq_iff {depth : Nat} {word : List Char} {rest : Declaration}
    {visited : List String} {v : Verdict} :
    verdict ctx depth word rest visited = v ↔ Decides ctx depth word rest visited v := by
  constructor
  · rintro rfl
    rw [verdict]
    dsimp only
    by_cases hname : nameIn word = []
    · rw [if_pos (List.isEmpty_iff.2 hname)]
      exact .unnamed hname
    rw [if_neg (mt List.isEmpty_iff.1 hname)]
    cases hresolve : ctx.catalog.resolve (nameIn word) with
    | error issue => exact .unresolved hname hresolve
    | ok resolved =>
      dsimp only
      by_cases hvisited : resolved.root ∈ visited
      · rw [if_pos (List.contains_iff_mem.2 hvisited)]
        exact .visited hname hresolve hvisited
      rw [if_neg (mt List.contains_iff_mem.1 hvisited)]
      cases hdefined : ctx.catalog.structs.contains resolved.root with
      | false => exact .undefined hname hresolve hvisited hdefined rfl
      | true =>
        rw [Bool.not_true, if_neg Bool.false_ne_true]
        split
        · rename_i hdeep
          exact .deep hname hresolve hvisited hdefined hdeep
        · rename_i hshallow
          exact .enter hname hresolve hvisited hdefined (Nat.lt_of_not_le hshallow)
  · intro h
    cases h with
    | unnamed hname => simp [verdict, hname]
    | unresolved hname hresolve => simp [verdict, hname, hresolve]
    | visited hname hresolve hvisited => simp [verdict, hname, hresolve, hvisited]
    | undefined hname hresolve hfresh hundefined hissue =>
      simp [verdict, hname, hresolve, hfresh, hundefined, hissue]
    | deep hname hresolve hfresh hdefined hdeep =>
      simp [verdict, hname, hresolve, hfresh, hdefined, hdeep]
    | enter hname hresolve hfresh hdefined hshallow =>
      simp [verdict, hname, hresolve, hfresh, hdefined, Nat.not_le.2 hshallow]

theorem of_unexpandable?_eq_some {c : Catalog} {name : List Char} {root : String} {issue : Problem}
    (h : unexpandable? c name root = some issue) :
    (∃ name path reason, issue = .unparseable name path reason) ∨
      ∃ root, issue = .unresolvedSymbol root := by
  rw [unexpandable?] at h
  split at h
  · exact .inl ⟨_, _, _, (Option.some.inj h).symm⟩
  · obtain ⟨-, hissue⟩ := Option.ite_none_left_eq_some.1 h
    exact .inr ⟨_, (Option.some.inj hissue).symm⟩

/-- The issues with which words are settled. -/
theorem issue_of_verdict {depth : Nat} {word text : List Char} {rest : Declaration}
    {visited : List String} {issue : Problem}
    (h : verdict ctx depth word rest visited = .settle text (some issue)) :
    (∃ name bound, issue = .cyclicAlias name bound) ∨
      (∃ name path reason, issue = .unparseable name path reason) ∨
      (∃ root, issue = .unresolvedSymbol root) ∨ ∃ root deep, issue = .depthLimit root deep := by
  cases verdict_eq_iff.1 h with
  | unresolved hname hresolve => exact .inl (Catalog.exists_of_resolve_eq_error hresolve)
  | undefined hname hresolve hfresh hundefined hissue =>
    rcases of_unexpandable?_eq_some hissue with hunparseable | hunknown
    · exact .inr (.inl hunparseable)
    · exact .inr (.inr (.inl hunknown))
  | deep => exact .inr (.inr (.inr ⟨_, _, rfl⟩))

/-! ### When a struct is entered -/

/-- A word `depth` blocks deep names the struct `root`, which is defined, not too deep and has not
been entered. -/
structure Enters (ctx : Context) (depth : Nat) (word : List Char) (visited : List String)
    (root : String) : Prop where
  /-- The name of the word comes down to the struct. -/
  resolves : ∃ isPointer, ctx.catalog.resolve (nameIn word) = .ok ⟨root, isPointer⟩
  /-- The struct has not been entered. -/
  fresh : root ∉ visited
  /-- The struct is defined. -/
  defined : ctx.catalog.structs.contains root = true
  /-- Its block does not lie too deep. -/
  shallow : depth + 1 < ctx.options.maxDepth

/-- The struct of a word is entered under no other circumstances than these. -/
theorem enters_of_verdict_eq_enter {depth : Nat} {word : List Char} {rest : Declaration}
    {visited : List String} (h : verdict ctx depth word rest visited = .enter) :
    ∃ root, Enters ctx depth word visited root := by
  cases verdict_eq_iff.1 h with
  | @enter resolved hname hresolve hfresh hdefined hshallow =>
    exact ⟨resolved.root, ⟨resolved.isPointer, hresolve⟩, hfresh, hdefined, hshallow⟩

/-- The symbol that is passed on for a word comes down to the same name as the word, and a star in
the declaration makes it a pointer. -/
theorem resolve_symbolOf {word : List Char} {resolved : Resolved}
    (h : ctx.catalog.resolve (nameIn word) = .ok resolved) (rest : Declaration) :
    ctx.catalog.resolve (symbolOf word rest) =
      .ok ⟨resolved.root, hasStar word rest || resolved.isPointer⟩ := by
  rw [symbolOf]
  split
  · rename_i hstar
    rw [Catalog.resolve_concat_star, h, hstar, Bool.true_or]
    rfl
  · rename_i hstar
    rw [h, Bool.eq_false_iff.2 hstar, Bool.false_or]

/-- The symbol that is passed on names the struct that is entered. -/
theorem Enters.resolve_symbolOf {depth : Nat} {word : List Char} {visited : List String}
    {root : String} (h : Enters ctx depth word visited root) (rest : Declaration) :
    ∃ isPointer, ctx.catalog.resolve (symbolOf word rest) = .ok ⟨root, isPointer⟩ := by
  obtain ⟨isPointer, hresolve⟩ := h.resolves
  exact ⟨_, Expansion.resolve_symbolOf hresolve rest⟩

/-! ### What is performed -/

/-- What is to be done. -/
inductive Task where
  /-- Enter the struct of a symbol, inside `depth` blocks. -/
  | enter (symbol label : List Char) (depth : Nat)
  /-- Flatten the declarations of a body. -/
  | declarations (depth : Nat) (ds : List Declaration)
  /-- Flatten what is left of a declaration, of which the words `done` are settled, the latest
  first. -/
  | words (depth : Nat) (done todo : Declaration)

/-- What a task comes to. -/
inductive Outcome where
  /-- What comes of entering a struct. -/
  | entered (e : Entered)
  /-- What the declarations have become. -/
  | items (items : List Item)
  /-- What the declaration has become. -/
  | item (i : Item)

/-- A task that starts in a state comes to an outcome and ends in a state. -/
inductive Performs (ctx : Context) : Task → Run → Outcome → Run → Prop where
  /-- A struct without a body that can be read is named. -/
  | leaf {symbol label depth run name cause run'}
    (hopening : opening ctx symbol depth run = (.leaf name cause, run')) :
    Performs ctx (.enter symbol label depth) run (.entered (.leaf name cause)) run'
  /-- A struct becomes the block of what its declarations become. -/
  | block {symbol label depth run resolved text read items run'}
    (hopening : opening ctx symbol depth run = (.body resolved text, read))
    (hitems : Performs ctx (.declarations depth (Declaration.all text)) read (.items items) run') :
    Performs ctx (.enter symbol label depth) run
      (.entered (.block ⟨resolved.root, labelOf resolved label, items⟩)) run'
  /-- No declaration is left. -/
  | nil {depth run} : Performs ctx (.declarations depth []) run (.items []) run
  /-- The declarations are flattened in order, each in the state that the ones before it left. -/
  | cons {depth d ds run item mid items run'}
    (hitem : Performs ctx (.words depth [] d) run (.item item) mid)
    (hitems : Performs ctx (.declarations depth ds) mid (.items items) run') :
    Performs ctx (.declarations depth (d :: ds)) run (.items (item :: items)) run'
  /-- All words of a declaration are settled. -/
  | line {depth done run} :
    Performs ctx (.words depth done []) run (.item (.line (Declaration.text done.reverse))) run
  /-- A word is settled without entering a struct. -/
  | settle {depth done word rest run text issue item run'}
    (hverdict : verdict ctx depth word rest run.visited = .settle text issue)
    (hrest : Performs ctx (.words depth (text :: done) rest) (run.noteAll issue.toList)
      (.item item) run') :
    Performs ctx (.words depth done (word :: rest)) run (.item item) run'
  /-- A word is replaced by the name of its struct, which could not be entered. -/
  | name {depth done word rest run leaf cause mid item run'}
    (hverdict : verdict ctx depth word rest run.visited = .enter)
    (henter : Performs ctx (.enter (symbolOf word rest) (declaratorOf rest.text) (depth + 1)) run
      (.entered (.leaf leaf cause)) mid)
    (hrest : Performs ctx (.words depth ((leaf ++ starsOf word) :: done) rest) mid
      (.item item) run') :
    Performs ctx (.words depth done (word :: rest)) run (.item item) run'
  /-- The block of the struct that a word names ends the declaration. -/
  | nest {depth done word rest run b run'}
    (hverdict : verdict ctx depth word rest run.visited = .enter)
    (henter : Performs ctx (.enter (symbolOf word rest) (declaratorOf rest.text) (depth + 1)) run
      (.entered (.block b)) run') :
    Performs ctx (.words depth done (word :: rest)) run
      (.item (.nested (Splice.lead (Declaration.text (done.reverse ++ word :: rest)) (nameIn word))
        b.root b.label b.items)) run'

/-- Behind a word that is settled without entering a struct the rest of the declaration is left. -/
theorem Performs.rest_of_settle {depth : Nat} {done rest : Declaration} {word text : List Char}
    {run run' : Run} {issue : Option Problem} {outcome : Outcome}
    (hsettle : verdict ctx depth word rest run.visited = .settle text issue)
    (h : Performs ctx (.words depth done (word :: rest)) run outcome run') :
    Performs ctx (.words depth (text :: done) rest) (run.noteAll issue.toList) outcome run' := by
  cases h with
  | settle hverdict hrest =>
    rw [hsettle] at hverdict
    obtain ⟨rfl, rfl⟩ := Verdict.settle.inj hverdict
    exact hrest
  | name hverdict =>
    rw [hsettle] at hverdict
    cases hverdict
  | nest hverdict =>
    rw [hsettle] at hverdict
    cases hverdict

/-- What each effect keeps is kept by a whole run. -/
theorem Performs.invariant {task : Task} {run run' : Run} {outcome : Outcome}
    (h : Performs ctx task run outcome run') {P : Run → Prop} (hP : Run.Invariant ctx.reader P)
    (hrun : P run) : P run' := by
  induction h with
  | leaf hopening => exact (opens_of_opening_eq hopening).invariant hP hrun
  | block hopening _ ih => exact ih ((opens_of_opening_eq hopening).invariant hP hrun)
  | nil => exact hrun
  | cons _ _ ihitem ihitems => exact ihitems (ihitem hrun)
  | line => exact hrun
  | settle _ _ ih => exact ih (hP.noteAll _ hrun)
  | name _ _ _ ihenter ihrest => exact ihrest (ihenter hrun)
  | nest _ _ ih => exact ih hrun

theorem Run.invariant_visited_suffix (reader : Reader) (run : Run) :
    Run.Invariant reader fun later => run.visited <:+ later.visited where
  note _ h := h
  visit root h := h.trans (visited_suffix_visit _ root)
  read path h := by rwa [visited_read]

theorem Run.invariant_issues_isPrefix (reader : Reader) (run : Run) :
    Run.Invariant reader fun later => run.issues <+: later.issues where
  note issue h := h.trans (List.prefix_append _ [issue])
  visit root h := by rwa [issues_visit]
  read path h := by rwa [issues_read]

/-- At most the struct of the symbol is marked as entered. -/
theorem Opens.visited_suffix {symbol : List Char} {depth : Nat} {run read : Run} {found : Opening}
    (h : Opens ctx symbol depth run found read) : run.visited <:+ read.visited :=
  h.invariant (run.invariant_visited_suffix ctx.reader) (List.suffix_refl _)

/-- Structs that are marked as entered stay so: the later ones are put before the earlier. -/
theorem Performs.visited_suffix {task : Task} {run run' : Run} {outcome : Outcome}
    (h : Performs ctx task run outcome run') : run.visited <:+ run'.visited :=
  h.invariant (run.invariant_visited_suffix ctx.reader) (List.suffix_refl _)

/-- Issues that have been met are kept, and later ones are put behind them. -/
theorem Performs.issues_isPrefix {task : Task} {run run' : Run} {outcome : Outcome}
    (h : Performs ctx task run outcome run') : run.issues <+: run'.issues :=
  h.invariant (run.invariant_issues_isPrefix ctx.reader) (List.prefix_refl _)

/-- A task comes to one outcome only. -/
theorem Performs.unique {task : Task} {run run₁ run₂ : Run} {outcome₁ outcome₂ : Outcome}
    (h₁ : Performs ctx task run outcome₁ run₁) (h₂ : Performs ctx task run outcome₂ run₂) :
    outcome₁ = outcome₂ ∧ run₁ = run₂ := by
  -- By induction on the first of both: each task is performed in the way its verdict and the body
  -- found for it ask for, so the last step of the second one is the same.
  induction h₁ generalizing outcome₂ run₂ with
  | leaf hopening =>
    cases h₂ with
    | leaf hopening' =>
      rw [hopening] at hopening'
      cases hopening'
      exact ⟨rfl, rfl⟩
    | block hopening' =>
      rw [hopening] at hopening'
      cases hopening'
  | block hopening _ ih =>
    cases h₂ with
    | leaf hopening' =>
      rw [hopening] at hopening'
      cases hopening'
    | block hopening' hitems' =>
      rw [hopening] at hopening'
      cases hopening'
      obtain ⟨hitems, rfl⟩ := ih hitems'
      cases hitems
      exact ⟨rfl, rfl⟩
  | nil =>
    cases h₂ with
    | nil => exact ⟨rfl, rfl⟩
  | cons _ _ ihitem ihitems =>
    cases h₂ with
    | cons hitem' hitems' =>
      obtain ⟨hitem, rfl⟩ := ihitem hitem'
      obtain ⟨hitems, rfl⟩ := ihitems hitems'
      cases hitem
      cases hitems
      exact ⟨rfl, rfl⟩
  | line =>
    cases h₂ with
    | line => exact ⟨rfl, rfl⟩
  | settle hverdict _ ih => exact ih (h₂.rest_of_settle hverdict)
  | name hverdict _ _ ihenter ihrest =>
    cases h₂ with
    | settle hverdict' =>
      rw [hverdict] at hverdict'
      cases hverdict'
    | name _ henter' hrest' =>
      obtain ⟨hleaf, rfl⟩ := ihenter henter'
      cases hleaf
      exact ihrest hrest'
    | nest _ henter' =>
      obtain ⟨hleaf, -⟩ := ihenter henter'
      cases hleaf
  | nest hverdict _ ihenter =>
    cases h₂ with
    | settle hverdict' =>
      rw [hverdict] at hverdict'
      cases hverdict'
    | name _ henter' =>
      obtain ⟨hblock, -⟩ := ihenter henter'
      cases hblock
    | nest _ henter' =>
      obtain ⟨hblock, rfl⟩ := ihenter henter'
      cases hblock
      exact ⟨rfl, rfl⟩

/-! ### Every task is performed -/

/-- Number of structs that are defined and have not been entered. -/
def unvisited (c : Catalog) (visited : List String) : Nat :=
  (c.structs.keys.filter fun root => root ∉ visited).length

theorem unvisited_le_size (c : Catalog) (visited : List String) :
    unvisited c visited ≤ c.structs.size := by
  have hle := List.length_filter_le (fun root => root ∉ visited) c.structs.keys
  rwa [Table.keys, List.length_map] at hle

/-- Entering further structs leaves no more than before. -/
theorem unvisited_le_of_suffix (c : Catalog) {visited later : List String}
    (h : visited <:+ later) : unvisited c later ≤ unvisited c visited := by
  rw [unvisited, unvisited, ← List.countP_eq_length_filter, ← List.countP_eq_length_filter]
  refine List.countP_mono_left fun root _ hroot => ?_
  simp only [decide_eq_true_eq] at hroot ⊢
  exact fun hmem => hroot (h.mem hmem)

/-- Entering a struct leaves fewer. -/
theorem unvisited_cons_lt {c : Catalog} {visited : List String} {root : String}
    (hdefined : c.structs.contains root = true) (hfresh : root ∉ visited) :
    unvisited c (root :: visited) < unvisited c visited := by
  have hfilter : (c.structs.keys.filter fun r => r ∉ root :: visited) =
      (c.structs.keys.filter fun r => r ∉ visited).filter fun r => r ≠ root := by
    rw [List.filter_filter]
    simp [not_or]
  rw [unvisited, unvisited, hfilter, List.length_filter_lt_length_iff_exists]
  exact ⟨root, List.mem_filter.2 ⟨Table.mem_keys_iff.2 hdefined, by simpa using hfresh⟩, by simp⟩

/-- A symbol comes down to a struct that is defined and has not been entered. -/
def Opening.Ready (c : Catalog) (symbol : List Char) (visited : List String) : Prop :=
  ∃ resolved, c.resolve symbol = .ok resolved ∧ c.structs.contains resolved.root = true ∧
    resolved.root ∉ visited

/-- The struct of a word that is entered is defined and has not been entered. -/
theorem ready_of_verdict_eq_enter {depth : Nat} {word : List Char} {rest : Declaration}
    {visited : List String} (h : verdict ctx depth word rest visited = .enter) :
    Opening.Ready ctx.catalog (symbolOf word rest) visited := by
  obtain ⟨root, henters⟩ := enters_of_verdict_eq_enter h
  obtain ⟨isPointer, hresolve⟩ := henters.resolve_symbolOf rest
  exact ⟨_, hresolve, henters.defined, henters.fresh⟩

/-- A way of entering structs performs what is to be done where at most `fuel` structs are left. -/
def EntersUpTo (ctx : Context) (enter : Enter) (fuel : Nat) : Prop :=
  ∀ symbol label depth run, unvisited ctx.catalog run.visited ≤ fuel →
    Opening.Ready ctx.catalog symbol run.visited →
    Performs ctx (.enter symbol label depth) run (.entered (enter symbol label depth run).1)
      (enter symbol label depth run).2

/-- The rest of a declaration is flattened if the structs in it can be entered. -/
theorem performs_flattenWords {enter : Enter} {fuel : Nat} (henter : EntersUpTo ctx enter fuel)
    (depth : Nat) (done todo : Declaration) {run : Run}
    (hrun : unvisited ctx.catalog run.visited ≤ fuel) :
    Performs ctx (.words depth done todo) run
      (.item (flattenWords ctx enter depth done todo run).1)
      (flattenWords ctx enter depth done todo run).2 := by
  induction todo generalizing done run with
  | nil => exact .line
  | cons word rest ih =>
    rw [flattenWords, flattenWord]
    cases hverdict : verdict ctx depth word rest run.visited with
    | settle text issue => exact .settle hverdict (ih _ hrun)
    | enter =>
      have hperforms := henter (symbolOf word rest) (declaratorOf (Declaration.text rest))
        (depth + 1) run hrun (ready_of_verdict_eq_enter hverdict)
      have hsuffix := hperforms.visited_suffix
      -- The equation of `flattenWords` is stated with the pair that comes of entering.
      dsimp only
      revert hperforms hsuffix
      obtain ⟨entered, mid⟩ :=
        enter (symbolOf word rest) (declaratorOf (Declaration.text rest)) (depth + 1) run
      intro hperforms hsuffix
      cases entered with
      | block b => exact .nest hverdict hperforms
      | leaf name cause =>
        -- What was entered meanwhile leaves fewer structs for the words behind.
        exact .name hverdict hperforms
          (ih _ (Nat.le_trans (unvisited_le_of_suffix _ hsuffix) hrun))

/-- The declarations of a body are flattened if the structs in them can be entered. -/
theorem performs_flattenAll {enter : Enter} {fuel : Nat} (henter : EntersUpTo ctx enter fuel)
    (depth : Nat) (ds : List Declaration) {run : Run}
    (hrun : unvisited ctx.catalog run.visited ≤ fuel) :
    Performs ctx (.declarations depth ds) run (.items (flattenAll ctx enter depth ds run).1)
      (flattenAll ctx enter depth ds run).2 := by
  induction ds generalizing run with
  | nil => exact .nil
  | cons d ds ih =>
    have hitem := performs_flattenWords henter depth [] d hrun
    exact .cons hitem
      (ih (Nat.le_trans (unvisited_le_of_suffix _ hitem.visited_suffix) hrun))

/-- One struct more can be entered than in its body, for it counts as entered before its body is
read. -/
theorem EntersUpTo.enterWith {enter : Enter} {fuel : Nat} (h : EntersUpTo ctx enter fuel) :
    EntersUpTo ctx (Expansion.enterWith ctx enter) (fuel + 1) := by
  rintro symbol label depth run hrun ⟨resolved, hresolve, hdefined, hfresh⟩
  rw [Expansion.enterWith]
  rcases hopening : opening ctx symbol depth run with ⟨found, read⟩
  cases found with
  | leaf name cause => exact .leaf hopening
  | body resolved' text =>
    dsimp only
    have hopens := opens_of_opening_eq hopening
    have hread := hopens.visited_eq_of_body
    obtain rfl : resolved = resolved' := by
      cases hopens with
      | body hresolve' => exact Except.ok.inj (hresolve.symm.trans hresolve')
    -- The struct is marked before its body is flattened, so the bound inside is one less.
    rw [Run.visited_visit, if_neg hfresh] at hread
    have hlt := unvisited_cons_lt hdefined hfresh
    rw [← hread] at hlt
    exact .block hopening (performs_flattenAll h depth _ (by omega))

/-- Where no struct is left there is none that could be entered. -/
theorem entersUpTo_zero (ctx : Context) (enter : Enter) : EntersUpTo ctx enter 0 := by
  rintro symbol label depth run hrun ⟨resolved, -, hdefined, hfresh⟩
  have hlt := unvisited_cons_lt hdefined hfresh
  omega

/-- Structs are entered as far as there are structs that have not been entered. -/
theorem entersUpTo_enterWithin (ctx : Context) (fuel : Nat) :
    EntersUpTo ctx (enterWithin ctx fuel) fuel := by
  induction fuel with
  | zero => exact entersUpTo_zero ctx _
  | succ fuel ih => exact ih.enterWith

/-- A query is accepted: it comes down to a struct that is defined. -/
def Accepts (c : Catalog) (query : List Char) : Prop :=
  ∃ resolved, c.resolve (Text.trim query) = .ok resolved ∧
    c.structs.contains resolved.root = true

/-- The struct of a query that is accepted can be entered. -/
theorem Accepts.ready {c : Catalog} {query : List Char} (h : Accepts c query) :
    Opening.Ready c (Text.trim query) Run.start.visited := by
  obtain ⟨resolved, hresolve, hdefined⟩ := h
  exact ⟨resolved, hresolve, hdefined, List.not_mem_nil⟩

/-- A query that is accepted performs its expansion, which no bound cuts short. -/
theorem performs_expand {query : List Char} (h : Accepts ctx.catalog query) :
    ∃ e, expand ctx query = .ok e ∧
      Performs ctx (.enter (Text.trim query) (Text.trim query) 0) Run.start (.entered e.entered)
        e.run := by
  obtain ⟨resolved, hresolve, hdefined⟩ := h
  have hexpand : expand ctx query =
      .ok ⟨(enter ctx (Text.trim query) (Text.trim query) 0 Run.start).1,
        (enter ctx (Text.trim query) (Text.trim query) 0 Run.start).2⟩ := by
    rw [expand, hresolve]
    dsimp only
    rw [if_pos hdefined]
  refine ⟨_, hexpand, ?_⟩
  exact entersUpTo_enterWithin ctx _ _ _ _ _ (unvisited_le_size _ _)
    ⟨resolved, hresolve, hdefined, List.not_mem_nil⟩

/-- A query that is not accepted is refused. -/
theorem expand_eq_error_iff {query : List Char} :
    (∃ p, expand ctx query = .error p) ↔ ¬Accepts ctx.catalog query := by
  constructor
  · rintro ⟨p, hp⟩ haccepts
    obtain ⟨e, he, -⟩ := performs_expand haccepts
    rw [he] at hp
    cases hp
  · intro hrefused
    rw [expand]
    dsimp only
    cases hresolve : ctx.catalog.resolve (Text.trim query) with
    | error p => exact ⟨p, rfl⟩
    | ok resolved =>
      dsimp only
      rw [if_neg fun hdefined => hrefused ⟨resolved, hresolve, hdefined⟩]
      exact ⟨_, rfl⟩

/-- A query that has an expansion is accepted and performs it. -/
theorem performs_of_expand {query : List Char} {e : Expansion}
    (h : expand ctx query = .ok e) :
    Accepts ctx.catalog query ∧
      Performs ctx (.enter (Text.trim query) (Text.trim query) 0) Run.start (.entered e.entered)
        e.run := by
  have haccepts : Accepts ctx.catalog query := by
    refine Classical.byContradiction fun hrefused => ?_
    obtain ⟨p, hp⟩ := expand_eq_error_iff.2 hrefused
    rw [h] at hp
    cases hp
  obtain ⟨e', he', hperforms⟩ := performs_expand haccepts
  obtain rfl := Except.ok.inj (h.symm.trans he')
  exact ⟨haccepts, hperforms⟩

end StructUnfold.Expansion
