import StructUnfold.Proofs.Expansion.Arising

/-!
# Early exits

Where a struct is to be entered, it is checked that its name comes down to a struct, that this has
not been entered and that it is defined, although all of this is checked of a word before the struct
that it names is entered, and of a query before it is expanded. Between the two checks nothing is
marked, and the star that is put behind the name changes no struct, so the second one never fails.
The name of a struct stands in the place of its block for one reason only: its body cannot be read.

## Main definitions

* `OpensBody`, `Comes`: what is found and what comes of it where the body of a struct is looked for.
* `Opening.exit?`: why no body is looked for.
* `enterWithinExits`: entering structs, with anything else in the place of the early exits.

## Main results

* `opens_of_ready`: what is found where a struct is entered that is defined and has not been
  entered.
* `EntersUpTo.unique`: all ways of entering structs come to the same, as long as structs are left.
* `expandWith_enterWithinExits`: whatever the early exits do, an expansion is the same.
* `early_exits_dead`: how all structs of an expansion are entered.
-/

namespace StructUnfold.Expansion

variable {ctx : Context}

/-! ### What is found where a struct is entered -/

/-- Where a body cannot be read, its file could not be, or the text in it is not a body of the
struct. -/
theorem exists_of_body_eq_error {root : String} {definition : StructDefinition} {run read : Run}
    {issue : Problem} (h : body ctx root definition run = (.error issue, read)) :
    (∃ e, issue = .fileRead definition.path e) ∨
      ∃ e, issue = .malformedBlock definition.path e := by
  rw [body] at h
  split at h
  · cases h
    exact .inl ⟨_, rfl⟩
  · split at h
    · cases h
      exact .inr ⟨_, rfl⟩
    · cases h

variable {symbol label : List Char} {depth : Nat} {run read : Run} {found : Opening}

/-- Where a struct is to be entered that is defined and has not been entered, its body is looked
for. -/
inductive OpensBody (ctx : Context) (resolved : Resolved) (definition : StructDefinition)
    (run : Run) : Opening → Run → Prop where
  /-- The body is read. -/
  | body {text read}
    (hbody : body ctx resolved.root definition (run.visit resolved.root) = (.ok text, read)) :
    OpensBody ctx resolved definition run (.body resolved text) read
  /-- The body cannot be read. -/
  | unreadable {issue read}
    (hbody : body ctx resolved.root definition (run.visit resolved.root) = (.error issue, read)) :
    OpensBody ctx resolved definition run (.leaf resolved.root.toList .unreadable) (read.note issue)

/-- Nothing stands in the way of the body where the struct of a symbol is defined and has not been
entered. -/
theorem opens_of_ready (h : Opening.Ready ctx.catalog symbol run.visited)
    (hopening : opening ctx symbol depth run = (found, read)) :
    ∃ resolved definition, ctx.catalog.resolve symbol = .ok resolved ∧
      ctx.catalog.structs.get? resolved.root = some definition ∧ resolved.root ∉ run.visited ∧
      OpensBody ctx resolved definition run found read := by
  obtain ⟨resolved, hready, hdefined, hfresh⟩ := h
  cases opens_of_opening_eq hopening with
  | unresolved hresolve =>
    rw [hready] at hresolve
    cases hresolve
  | visited hresolve _ hvisited =>
    obtain rfl := Except.ok.inj (hready.symm.trans hresolve)
    exact absurd hvisited hfresh
  | undefined hresolve _ hget =>
    obtain rfl := Except.ok.inj (hready.symm.trans hresolve)
    obtain ⟨definition, hdefinition⟩ := Table.contains_eq_true_iff.1 hdefined
    rw [hget] at hdefinition
    cases hdefinition
  | unreadable hresolve _ hget hbody =>
    obtain rfl := Except.ok.inj (hready.symm.trans hresolve)
    exact ⟨resolved, _, hready, hget, hfresh, .unreadable hbody⟩
  | body hresolve _ hget hbody =>
    obtain rfl := Except.ok.inj (hready.symm.trans hresolve)
    exact ⟨resolved, _, hready, hget, hfresh, .body hbody⟩

/-! ### Ways of entering structs -/

/-- All ways of entering structs come to the same, as long as structs are left. -/
theorem EntersUpTo.unique {enter enter' : Enter} {fuel fuel' : Nat}
    (h : EntersUpTo ctx enter fuel) (h' : EntersUpTo ctx enter' fuel')
    (hfuel : unvisited ctx.catalog run.visited ≤ fuel)
    (hfuel' : unvisited ctx.catalog run.visited ≤ fuel')
    (hready : Opening.Ready ctx.catalog symbol run.visited) :
    enter symbol label depth run = enter' symbol label depth run := by
  obtain ⟨hentered, hrun⟩ :=
    (h symbol label depth run hfuel hready).unique (h' symbol label depth run hfuel' hready)
  exact Prod.ext (Outcome.entered.inj hentered) hrun

/-- A struct is entered by entering the structs in its body in the same way. -/
theorem enter_eq_enterWith (hready : Opening.Ready ctx.catalog symbol run.visited) :
    enter ctx symbol label depth run = enterWith ctx (enter ctx) symbol label depth run := by
  have hsize := unvisited_le_size ctx.catalog run.visited
  have henter := entersUpTo_enterWithin ctx ctx.catalog.structs.size
  exact henter.unique henter.enterWith hsize (Nat.le_succ_of_le hsize) hready

/-- What comes of entering a struct whose body is looked for. -/
inductive Comes (ctx : Context) (label : List Char) (depth : Nat) (resolved : Resolved)
    (definition : StructDefinition) (run : Run) : Entered → Run → Prop where
  /-- The body is read, and the struct becomes a block. -/
  | block {text read items run'}
    (hbody : body ctx resolved.root definition (run.visit resolved.root) = (.ok text, read))
    (hitems : flattenAll ctx (enter ctx) depth (Declaration.all text) read = (items, run')) :
    Comes ctx label depth resolved definition run
      (.block ⟨resolved.root, labelOf resolved label, items⟩) run'
  /-- The file of the struct cannot be read or holds no body of it, and the struct is named. -/
  | leaf {issue read}
    (hbody : body ctx resolved.root definition (run.visit resolved.root) = (.error issue, read))
    (hissue : (∃ e, issue = .fileRead definition.path e) ∨
      ∃ e, issue = .malformedBlock definition.path e) :
    Comes ctx label depth resolved definition run (.leaf resolved.root.toList .unreadable)
      (read.note issue)

/-- A struct is named only if its body cannot be read. -/
theorem comes_of_ready (label : List Char) (depth : Nat)
    (h : Opening.Ready ctx.catalog symbol run.visited) :
    ∃ resolved definition, ctx.catalog.resolve symbol = .ok resolved ∧
      ctx.catalog.structs.get? resolved.root = some definition ∧ resolved.root ∉ run.visited ∧
      Comes ctx label depth resolved definition run (enter ctx symbol label depth run).1
        (enter ctx symbol label depth run).2 := by
  rcases hopening : opening ctx symbol depth run with ⟨found, read⟩
  obtain ⟨resolved, definition, hresolve, hget, hfresh, hopens⟩ := opens_of_ready h hopening
  refine ⟨resolved, definition, hresolve, hget, hfresh, ?_⟩
  rw [enter_eq_enterWith h, enterWith, hopening]
  cases hopens with
  | body hbody => exact .block hbody rfl
  | unreadable hbody => exact .leaf hbody (exists_of_body_eq_error hbody)

/-! ### Other exits -/

/-- Why no body is looked for; none if it is. -/
def Opening.exit? : Opening → Option LeafCause
  | .leaf _ .unreadable => none
  | .leaf _ cause => some cause
  | .body _ _ => none

/-- Enter a struct as `enterWith` does, but where no body is looked for do what `exits` says. -/
def enterWithExits (ctx : Context) (exits : LeafCause → Enter) (enter : Enter) : Enter :=
  fun symbol label depth run =>
    match (opening ctx symbol depth run).1.exit? with
    | some cause => exits cause symbol label depth run
    | none => enterWith ctx enter symbol label depth run

/-- Enter a struct as `enterWithin` does, with other exits. -/
def enterWithinExits (ctx : Context) (exits : LeafCause → Enter) : Nat → Enter
  | 0 => exits .exhausted
  | fuel + 1 => enterWithExits ctx exits (enterWithinExits ctx exits fuel)

/-- Expand the struct that a query names, where `enter` is how it is entered. -/
def expandWith (ctx : Context) (enter : Enter) (query : List Char) : Except Problem Expansion :=
  let query := Text.trim query
  match ctx.catalog.resolve query with
  | .error p => .error p
  | .ok resolved =>
    if ctx.catalog.structs.contains resolved.root then
      let (entered, run) := enter query query 0 Run.start
      .ok ⟨entered, run⟩
    else .error (refusal ctx.catalog query resolved.root)

theorem expandWith_enter (ctx : Context) (query : List Char) :
    expandWith ctx (enter ctx) query = expand ctx query :=
  rfl

variable {exits : LeafCause → Enter}

/-- No exit is taken where the struct of a symbol is defined and has not been entered. -/
theorem enterWithExits_eq_enterWith {enter : Enter}
    (h : Opening.Ready ctx.catalog symbol run.visited) :
    enterWithExits ctx exits enter symbol label depth run =
      enterWith ctx enter symbol label depth run := by
  rcases hopening : opening ctx symbol depth run with ⟨found, read⟩
  obtain ⟨resolved, definition, -, -, -, hopens⟩ := opens_of_ready h hopening
  rw [enterWithExits, hopening]
  cases hopens with
  | body => rfl
  | unreadable => rfl

/-- With other exits the same is performed. -/
theorem entersUpTo_enterWithinExits (ctx : Context) (exits : LeafCause → Enter) (fuel : Nat) :
    EntersUpTo ctx (enterWithinExits ctx exits fuel) fuel := by
  induction fuel with
  | zero => exact entersUpTo_zero ctx _
  | succ fuel ih =>
    intro symbol label depth run hrun hready
    rw [enterWithinExits, enterWithExits_eq_enterWith hready]
    exact ih.enterWith symbol label depth run hrun hready

/-- Whatever the early exits do, an expansion is the same. -/
theorem expandWith_enterWithinExits (ctx : Context) (exits : LeafCause → Enter)
    (query : List Char) :
    expandWith ctx (enterWithinExits ctx exits ctx.catalog.structs.size) query =
      expand ctx query := by
  rw [← expandWith_enter, expandWith, expandWith]
  dsimp only
  cases hresolve : ctx.catalog.resolve (Text.trim query) with
  | error p => rfl
  | ok resolved =>
    dsimp only
    split
    · rename_i hdefined
      have haccepts : Accepts ctx.catalog query := ⟨resolved, hresolve, hdefined⟩
      have hsize := unvisited_le_size ctx.catalog Run.start.visited
      rw [enter, (entersUpTo_enterWithinExits ctx exits _).unique (entersUpTo_enterWithin ctx _)
        hsize hsize haccepts.ready]
    · rfl

/-- The early exits are never taken. An expansion is the same whatever stands in their place; and
the symbol of each struct that is to be entered in it comes down to a struct that is defined and has
not been entered, so that its body is looked for, and the struct becomes a block unless its file
cannot be read or holds no body of it. -/
theorem early_exits_dead (ctx : Context) (query : List Char) :
    (∀ exits, expandWith ctx (enterWithinExits ctx exits ctx.catalog.structs.size) query =
        expand ctx query) ∧
      ((Accepts ctx.catalog query ∧ ∃ e, expand ctx query = .ok e ∧
          (e.entered, e.run) = enter ctx (Text.trim query) (Text.trim query) 0 Run.start ∧
          ∀ symbol label depth run, ArisesIn ctx query (.enter symbol label depth) run →
            ∃ resolved definition, ctx.catalog.resolve symbol = .ok resolved ∧
              ctx.catalog.structs.get? resolved.root = some definition ∧
              resolved.root ∉ run.visited ∧
              Comes ctx label depth resolved definition run (enter ctx symbol label depth run).1
                (enter ctx symbol label depth run).2) ∨
        (¬Accepts ctx.catalog query ∧ ∃ p, expand ctx query = .error p)) := by
  refine ⟨fun exits => expandWith_enterWithinExits ctx exits query, ?_⟩
  by_cases haccepts : Accepts ctx.catalog query
  · obtain ⟨e, hexpand, hperforms⟩ := performs_expand haccepts
    obtain ⟨hentered, hrun⟩ := hperforms.unique
      (entersUpTo_enterWithin ctx _ _ _ _ _ (unvisited_le_size _ _) haccepts.ready)
    refine .inl ⟨haccepts, e, hexpand,
      Prod.ext (Outcome.entered.inj hentered) hrun, fun symbol label depth run h => ?_⟩
    exact comes_of_ready label depth (Arises.allDefined h haccepts.ready nofun).1
  · exact .inr ⟨haccepts, expand_eq_error_iff.2 haccepts⟩

/-- A struct that holds itself, behind a synonym, and a struct without a closing brace. -/
def ringFiles : List (Path × List Char) :=
  [(.ofString "ring.h", ("typedef struct ring *ring_ref;\n" ++
    "struct ring \x7b\n  pin *first;\n  ring_ref next;\n\x7d;\n" ++
    "struct pin \x7b\n  int id;\n").toList)]

/-- The catalog of `ringFiles`, with a reader of the same texts. -/
def ringContext : Context :=
  ⟨(Scan.workspace 4096 ringFiles).1, (Sources.ofList ringFiles).reader, ⟨4, 8, 4096⟩⟩

theorem early_exits_dead_ring :
    (∀ exits, expandWith ringContext (enterWithinExits ringContext exits 2) "ring_ref".toList =
        expand ringContext "ring_ref".toList) ∧
      (expand ringContext "ring_ref".toList).map (fun e => (e.text 4, e.issues)) =
        .ok ("|\n    pin *first;\n    ring* next;\n|\n| *",
          [.malformedBlock (.ofString "ring.h") (.unbalanced 90)]) ∧
      ∃ run definition, ArisesIn ringContext "ring_ref".toList
          (.enter "pin*".toList "*first;".toList 1) run ∧
        Comes ringContext "*first;".toList 1 ⟨"pin", true⟩ definition run
          (enter ringContext "pin*".toList "*first;".toList 1 run).1
          (enter ringContext "pin*".toList "*first;".toList 1 run).2 := by
  obtain ⟨hexits, hcalls⟩ := early_exits_dead ringContext "ring_ref".toList
  obtain ⟨hexpand, hopening, hverdict⟩ :
      (expand ringContext "ring_ref".toList).map (fun e => (e.text 4, e.issues)) =
        .ok ("|\n    pin *first;\n    ring* next;\n|\n| *",
          [.malformedBlock (.ofString "ring.h") (.unbalanced 90)]) ∧
      (opening ringContext (Text.trim "ring_ref".toList) 0 Run.start).1 =
        .body ⟨"ring", true⟩ "pin *first;\n  ring_ref next;\n".toList ∧
      verdict ringContext 0 "pin".toList ["*first;".toList]
        (opening ringContext (Text.trim "ring_ref".toList) 0 Run.start).2.visited = .enter := by
    decide +kernel
  have hdeclarations := arisesIn_declarations hopening
    (show _ = [["pin".toList, "*first;".toList], ["ring_ref".toList, "next;".toList]]
      by decide +kernel)
  obtain ⟨hsize, hsymbol, hlabel⟩ : ringContext.catalog.structs.size = 2 ∧
      symbolOf "pin".toList ["*first;".toList] = "pin*".toList ∧
      declaratorOf (Declaration.text ["*first;".toList]) = "*first;".toList := by
    decide +kernel
  -- The struct of the first member is entered from the declarations of the ring.
  have harises := hdeclarations.first.enter hverdict
  rw [hsymbol, hlabel] at harises
  rw [hsize] at hexits
  refine ⟨hexits, hexpand, ?_⟩
  rcases hcalls with ⟨-, e, -, -, hready⟩ | ⟨-, p, hrefused⟩
  · obtain ⟨resolved, definition, hresolve, -, -, hcomes⟩ := hready _ _ _ _ harises
    obtain rfl : resolved = ⟨"pin", true⟩ := Except.ok.inj (hresolve.symm.trans (by decide +kernel))
    exact ⟨_, definition, harises, hcomes⟩
  · rw [hrefused] at hexpand
    cases hexpand

end StructUnfold.Expansion
