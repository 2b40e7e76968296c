import StructUnfold.Proofs.Expansion.Arising

/-!
# What becomes of a member

A member of a struct is looked at word by word, and it makes no difference which of its words is the
type. Words that name no struct stay as they are. The first word that names one decides: it gives
way to the name of the struct, or to its block.

* `issueOf?`, `Performs.rest_of_unnamed`: what comes of words that name no struct.
* `Names`, `Becomes`, `Performs.becomes`: what comes of a word that names one.
* `member_rewritten_at_first_struct`: what comes of a member, whichever of its words is the type.
* `pointer_starred_unless_unreadable`: what comes of a word that is another name for a pointer.
-/

namespace StructUnfold

namespace Expansion

variable {ctx : Context}

/-! ### Words that name no struct -/

/-- The issue that is noted for a word that names no struct. -/
def issueOf? (c : Catalog) (word : List Char) : Option Problem :=
  if (nameIn word).isEmpty then none
  else
    match c.resolve (nameIn word) with
    | .error issue => some issue
    | .ok resolved => unexpandable? c (nameIn word) resolved.root

/-- A word that names no struct is settled as it is. -/
theorem verdict_of_structOf?_eq_none {word : List Char} (h : structOf? ctx.catalog word = none)
    {visited : List String} (hvisited : AllDefined ctx.catalog visited) (depth : Nat)
    (rest : Declaration) :
    verdict ctx depth word rest visited = .settle word (issueOf? ctx.catalog word) := by
  refine verdict_eq_iff.2 ?_
  rw [issueOf?]
  by_cases hname : nameIn word = []
  · rw [if_pos (List.isEmpty_iff.2 hname)]
    exact .unnamed hname
  rw [if_neg (mt List.isEmpty_iff.1 hname)]
  cases hresolve : ctx.catalog.resolve (nameIn word) with
  | error issue => exact .unresolved hname hresolve
  | ok resolved =>
    -- Only structs that are defined have been entered.
    have hundefined : ctx.catalog.structs.contains resolved.root = false := by
      refine Bool.eq_false_iff.2 fun hdefined => ?_
      have hsome := structOf?_eq_some_iff.2 ⟨hname, ⟨resolved.isPointer, hresolve⟩, hdefined⟩
      rw [h] at hsome
      cases hsome
    have hfresh : resolved.root ∉ visited := fun hmem =>
      absurd (hvisited _ hmem) (Bool.eq_false_iff.1 hundefined)
    exact .undefined hname hresolve hfresh hundefined rfl

namespace Run

theorem noteAll_nil (run : Run) : run.noteAll [] = run := by
  rw [noteAll, List.append_nil]

theorem noteAll_noteAll (run : Run) (issues issues' : List Problem) :
    (run.noteAll issues).noteAll issues' = run.noteAll (issues ++ issues') := by
  rw [noteAll, noteAll, noteAll, List.append_assoc]

end Run

/-- Words that name no struct stay as they are, and the rest of the declaration is left. -/
theorem Performs.rest_of_unnamed {depth : Nat} {done front rest : Declaration} {run run' : Run}
    {outcome : Outcome} (hfront : ∀ word ∈ front, structOf? ctx.catalog word = none)
    (hrun : AllDefined ctx.catalog run.visited)
    (h : Performs ctx (.words depth done (front ++ rest)) run outcome run') :
    Performs ctx (.words depth (front.reverse ++ done) rest)
      (run.noteAll (front.filterMap (issueOf? ctx.catalog))) outcome run' := by
  induction front generalizing done run with
  | nil =>
    rw [List.filterMap_nil, Run.noteAll_nil]
    exact h
  | cons word front ih =>
    obtain ⟨hword, hfront⟩ := List.forall_mem_cons.1 hfront
    have hstep :=
      h.rest_of_settle (verdict_of_structOf?_eq_none hword hrun depth (front ++ rest))
    have hlater := ih hfront (show AllDefined ctx.catalog (run.noteAll _).visited from hrun) hstep
    have hissues : (word :: front).filterMap (issueOf? ctx.catalog) =
        (issueOf? ctx.catalog word).toList ++ front.filterMap (issueOf? ctx.catalog) := by
      rw [List.filterMap_cons]
      cases issueOf? ctx.catalog word <;> rfl
    rw [Run.noteAll_noteAll] at hlater
    rw [hissues, List.reverse_cons, List.append_assoc]
    exact hlater

/-- A declaration of which no word that is left names a struct is kept as it is. -/
theorem Performs.eq_line_of_unnamed {depth : Nat} {done rest : Declaration} {run run' : Run}
    {item : Item} (hrest : ∀ word ∈ rest, structOf? ctx.catalog word = none)
    (hrun : AllDefined ctx.catalog run.visited)
    (h : Performs ctx (.words depth done rest) run (.item item) run') :
    item = .line (Declaration.text (done.reverse ++ rest)) ∧
      run' = run.noteAll (rest.filterMap (issueOf? ctx.catalog)) := by
  rw [← List.append_nil rest] at h
  cases h.rest_of_unnamed hrest hrun with
  | line => exact ⟨by rw [List.reverse_append, List.reverse_reverse], rfl⟩

/-! ### Words that name a struct -/

/-- A word names a struct that is defined, directly or by its aliases. -/
structure Names (c : Catalog) (word : List Char) (resolved : Resolved) : Prop where
  /-- There is more to the word than stars. -/
  named : nameIn word ≠ []
  /-- The name comes down to the struct. -/
  resolves : c.resolve (nameIn word) = .ok resolved
  /-- The struct is defined. -/
  defined : c.structs.contains resolved.root = true

/-- What becomes of a declaration whose next word names a struct. -/
inductive Becomes (ctx : Context) (depth : Nat) (done : Declaration) (word : List Char)
    (rest : Declaration) (resolved : Resolved) (run : Run) (item : Item) (run' : Run) : Prop where
  /-- The struct has been entered before, and its name takes the place of the word. -/
  | visited (hvisited : resolved.root ∈ run.visited)
    (hrest : Performs ctx (.words depth
      ((leafName resolved (hasStar word rest) ++ starsOf word) :: done) rest) run (.item item) run')
  /-- The struct lies too deep, and its name takes the place of the word. -/
  | deep (hfresh : resolved.root ∉ run.visited) (hdepth : ctx.options.maxDepth ≤ depth + 1)
    (hrest : Performs ctx (.words depth
      ((leafName resolved (hasStar word rest) ++ starsOf word) :: done) rest)
      (run.note (.depthLimit resolved.root (depth + 1))) (.item item) run')
  /-- The struct is entered but its body cannot be read, and its bare name takes the place of the
  word. -/
  | unreadable (hfresh : resolved.root ∉ run.visited) (hdepth : depth + 1 < ctx.options.maxDepth)
    (definition : StructDefinition) (issue : Problem) (read : Run)
    (hget : ctx.catalog.structs.get? resolved.root = some definition)
    (hbody : body ctx resolved.root definition (run.visit resolved.root) = (.error issue, read))
    (hrest : Performs ctx (.words depth ((resolved.root.toList ++ starsOf word) :: done) rest)
      (read.note issue) (.item item) run')
  /-- The struct is entered, and its block takes the place of the word and of all behind it. -/
  | nested (hfresh : resolved.root ∉ run.visited) (hdepth : depth + 1 < ctx.options.maxDepth)
    (definition : StructDefinition) (text : List Char) (read : Run) (items : List Item)
    (hget : ctx.catalog.structs.get? resolved.root = some definition)
    (hbody : body ctx resolved.root definition (run.visit resolved.root) = (.ok text, read))
    (hitems : Performs ctx (.declarations (depth + 1) (Declaration.all text)) read (.items items)
      run')
    (hitem : item = .nested
      (Splice.lead (Declaration.text (done.reverse ++ word :: rest)) (nameIn word)) resolved.root
      (labelOf ⟨resolved.root, hasStar word rest || resolved.isPointer⟩
        (declaratorOf rest.text)) items)

/-- What is to be done about a word that names a struct. -/
theorem Names.verdict_eq {word : List Char} {resolved : Resolved}
    (h : Names ctx.catalog word resolved) (depth : Nat) (rest : Declaration)
    (visited : List String) :
    verdict ctx depth word rest visited =
      if resolved.root ∈ visited then
        .settle (leafName resolved (hasStar word rest) ++ starsOf word) none
      else if ctx.options.maxDepth ≤ depth + 1 then
        .settle (leafName resolved (hasStar word rest) ++ starsOf word)
          (some (.depthLimit resolved.root (depth + 1)))
      else .enter := by
  refine verdict_eq_iff.2 ?_
  split
  · rename_i hvisited
    exact .visited h.named h.resolves hvisited
  · rename_i hfresh
    split
    · rename_i hdeep
      exact .deep h.named h.resolves hfresh h.defined hdeep
    · rename_i hshallow
      exact .enter h.named h.resolves hfresh h.defined (Nat.lt_of_not_le hshallow)

/-- What becomes of a declaration whose next word names a struct is one of four things. -/
theorem Performs.becomes {depth : Nat} {done rest : Declaration} {word : List Char}
    {resolved : Resolved} {run run' : Run} {item : Item}
    (hnames : Names ctx.catalog word resolved)
    (h : Performs ctx (.words depth done (word :: rest)) run (.item item) run') :
    Becomes ctx depth done word rest resolved run item run' := by
  have hverdict := hnames.verdict_eq depth rest run.visited
  -- The struct has been entered, or it lies too deep, or it is entered now.
  by_cases hvisited : resolved.root ∈ run.visited
  · rw [if_pos hvisited] at hverdict
    have hrest := h.rest_of_settle hverdict
    rw [Option.toList_none, Run.noteAll_nil] at hrest
    exact .visited hvisited hrest
  rw [if_neg hvisited] at hverdict
  by_cases hdepth : ctx.options.maxDepth ≤ depth + 1
  · rw [if_pos hdepth] at hverdict
    exact .deep hvisited hdepth (h.rest_of_settle hverdict)
  rw [if_neg hdepth] at hverdict
  rw [Nat.not_le] at hdepth
  have hsymbol := resolve_symbolOf hnames.resolves rest
  cases h with
  | settle hverdict' =>
    rw [hverdict] at hverdict'
    cases hverdict'
  | name _ henter hrest =>
    cases henter with
    | leaf hopening =>
      -- It is defined and had not been entered, so it is the body that cannot be read.
      cases opens_of_opening_eq hopening with
      | unresolved hresolve =>
        rw [hsymbol] at hresolve
        cases hresolve
      | visited hresolve _ hmem =>
        rw [hsymbol] at hresolve
        obtain rfl := Except.ok.inj hresolve
        exact absurd hmem hvisited
      | undefined hresolve _ hget =>
        rw [hsymbol] at hresolve
        obtain rfl := Except.ok.inj hresolve
        obtain ⟨definition, hdefinition⟩ := Table.contains_eq_true_iff.1 hnames.defined
        rw [hget] at hdefinition
        cases hdefinition
      | unreadable hresolve _ hget hbody =>
        rw [hsymbol] at hresolve
        obtain rfl := Except.ok.inj hresolve
        exact .unreadable hvisited hdepth _ _ _ hget hbody hrest
  | nest _ henter =>
    cases henter with
    | block hopening hitems =>
      cases opens_of_opening_eq hopening with
      | body hresolve _ hget hbody =>
        rw [hsymbol] at hresolve
        obtain rfl := Except.ok.inj hresolve
        exact .nested hvisited hdepth _ _ _ _ hget hbody hitems rfl

/-! ### The members of a query -/

/-- **A member is rewritten at the first word that names a struct.** The items of an expansion are
what has become of the declarations that were flattened in it. A declaration is kept as it is, and
nothing is entered for it, if no word of it names a struct that is defined. Otherwise all words
before the first that does are kept, and that word is rewritten, be it the type of the member or its
name. -/
theorem member_rewritten_at_first_struct {query : List Char} {e : Expansion}
    (hexpand : expand ctx query = .ok e) :
    (∀ item ∈ e.entered.members, ∃ depth d run run', ArisesIn ctx query (.words depth [] d) run ∧
      Performs ctx (.words depth [] d) run (.item item) run') ∧
    ∀ depth d run, ArisesIn ctx query (.words depth [] d) run →
      ∃ item run', item ∈ e.entered.members ∧
        Performs ctx (.words depth [] d) run (.item item) run' ∧
        ((∀ word ∈ d, structOf? ctx.catalog word = none) → item = .line (Declaration.text d) ∧
          run' = run.noteAll (d.filterMap (issueOf? ctx.catalog))) ∧
        ∀ front word rest resolved, d = front ++ word :: rest →
          (∀ other ∈ front, structOf? ctx.catalog other = none) →
          Names ctx.catalog word resolved →
          Becomes ctx depth front.reverse word rest resolved
            (run.noteAll (front.filterMap (issueOf? ctx.catalog))) item run' := by
  refine ⟨fun item hitem => exists_arisesIn_of_mem_members hexpand hitem, ?_⟩
  intro depth d run harises
  obtain ⟨hdefined, item, run', hmem, hperforms⟩ := harises.exists_item hexpand
  refine ⟨item, run', hmem, hperforms, fun hnone => ?_, ?_⟩
  · exact hperforms.eq_line_of_unnamed hnone hdefined
  · rintro front word rest resolved rfl hfront hnames
    have hrest := hperforms.rest_of_unnamed hfront hdefined
    rw [List.append_nil] at hrest
    exact hrest.becomes hnames

/-- A struct with a member that is called like another struct, and apart from what follows. -/
def shapeFiles : List (Path × List Char) :=
  [(.ofString "shape.h", ("struct point \x7b\n  int x;\n\x7d;\n" ++
    "struct shape \x7b\n  unsigned sides;\n  int point [3];\n\x7d;\n").toList)]

/-- The catalog of `shapeFiles`, with a reader of the same texts. -/
def shapeContext : Context :=
  ⟨(Scan.workspace 4096 shapeFiles).1, (Sources.ofList shapeFiles).reader, ⟨4, 8, 4096⟩⟩

theorem member_rewritten_shape :
    ∃ e, expand shapeContext "shape".toList = .ok e ∧
      .line "unsigned sides;".toList ∈ e.entered.members ∧
      ∃ items, .nested "int ".toList "point" "[3];".toList items ∈ e.entered.members := by
  obtain ⟨hrun, hopening, hvisited, hread⟩ :
      (expand shapeContext "shape".toList).map Expansion.issues = .ok [] ∧
      (opening shapeContext (Text.trim "shape".toList) 0 Run.start).1 =
        .body ⟨"shape", false⟩ "unsigned sides;\n  int point [3];\n".toList ∧
      (opening shapeContext (Text.trim "shape".toList) 0 Run.start).2.visited = ["shape"] ∧
      ∀ d ∈ shapeContext.catalog.structs.get? "point", (body shapeContext "point" d
        ((opening shapeContext (Text.trim "shape".toList) 0 Run.start).2.visit
          "point")).1.toOption.isSome = true := by
    decide +kernel
  obtain ⟨hnone, hissues, hint, hissues', hresolve, hdefined⟩ :
      (∀ word ∈ ["unsigned".toList, "sides;".toList],
        structOf? shapeContext.catalog word = none) ∧
      ["unsigned".toList, "sides;".toList].filterMap (issueOf? shapeContext.catalog) = [] ∧
      (∀ word ∈ ["int".toList], structOf? shapeContext.catalog word = none) ∧
      ["int".toList].filterMap (issueOf? shapeContext.catalog) = [] ∧
      shapeContext.catalog.resolve (nameIn "point".toList) = .ok ⟨"point", false⟩ ∧
      shapeContext.catalog.structs.contains "point" = true := by
    decide +kernel
  have harises := arisesIn_declarations hopening
    (show _ = [["unsigned".toList, "sides;".toList],
      ["int".toList, "point".toList, "[3];".toList]] by decide +kernel)
  generalize (opening shapeContext (Text.trim "shape".toList) 0 Run.start).2 = run at *
  cases hexpand : expand shapeContext "shape".toList with
  | error p =>
    rw [hexpand] at hrun
    cases hrun
  | ok e =>
    -- The first member names no struct and stays as it is.
    obtain ⟨item, mid, hmem, hitem, hkept, -⟩ :=
      (member_rewritten_at_first_struct hexpand).2 _ _ _ harises.first
    obtain ⟨rfl, rfl⟩ := hkept hnone
    rw [hissues, Run.noteAll_nil] at hitem
    -- The second word of the second member is the first one that names a struct.
    obtain ⟨item', run', hmem', -, -, hrewritten⟩ :=
      (member_rewritten_at_first_struct hexpand).2 _ _ _ (harises.behind hitem).first
    have hbecomes := hrewritten ["int".toList] _ _ _ rfl hint ⟨by decide, hresolve, hdefined⟩
    rw [hissues', Run.noteAll_nil] at hbecomes
    refine ⟨e, rfl, hmem, ?_⟩
    cases hbecomes with
    | visited hmarked =>
      rw [hvisited] at hmarked
      exact absurd hmarked (by decide)
    | deep _ hdepth => exact absurd hdepth (by decide)
    | unreadable _ _ definition issue read hget hbody =>
      have hsome := hread definition hget
      rw [hbody] at hsome
      cases hsome
    | nested _ _ _ _ _ items _ _ _ hnested =>
      subst hnested
      have hlead : Splice.lead (Declaration.text (["int".toList].reverse.reverse ++
          ["point".toList, "[3];".toList])) (nameIn "point".toList) = "int ".toList := by
        decide +kernel
      have hlabel : labelOf ⟨"point", hasStar "point".toList ["[3];".toList] || false⟩
          (declaratorOf (Declaration.text ["[3];".toList])) = "[3];".toList := by
        decide +kernel
      rw [hlead, hlabel] at hmem'
      exact ⟨items, hmem'⟩

/-- The type of the second member of `shapeFiles` names no struct, and yet the member is not kept as
it is. -/
theorem expand_shapeContext :
    structOf? shapeContext.catalog "int".toList = none ∧
      (expand shapeContext "shape".toList).map (fun e => (e.text 4, e.issues)) =
        .ok ("|\n    unsigned sides;\n    int |\n            int x;\n        |\n        | [3];\n" ++
          "|\n| shape", []) := by
  decide +kernel

/-- The word that comes next in a declaration reads `leaf`, and the rest of the declaration is
flattened in the state `mid`. If no word of the rest names a struct, it is kept as it is. -/
def ReadsAs (ctx : Context) (depth : Nat) (done rest : Declaration) (leaf : List Char) (mid : Run)
    (item : Item) (run' : Run) : Prop :=
  Performs ctx (.words depth (leaf :: done) rest) mid (.item item) run' ∧
    ((∀ word ∈ rest, structOf? ctx.catalog word = none) →
      item = .line (Declaration.text (done.reverse ++ leaf :: rest)))

theorem Performs.readsAs {depth : Nat} {done rest : Declaration} {leaf : List Char}
    {mid run' : Run} {item : Item} (hmid : AllDefined ctx.catalog mid.visited)
    (h : Performs ctx (.words depth (leaf :: done) rest) mid (.item item) run') :
    ReadsAs ctx depth done rest leaf mid item run' := by
  refine ⟨h, fun hrest => ?_⟩
  rw [(h.eq_line_of_unnamed hrest hmid).1, List.reverse_cons, List.append_assoc,
    List.singleton_append]

/-- **A leaf keeps the star of its alias unless the body could not be read.** Where a word without a
star of its own is flattened in a query, and its aliases make it a pointer to a struct, it reads as
the name of the struct with a star if the struct has been entered before or lies too deep. Where the
struct is entered it becomes its block, or, if its body cannot be read, the name alone. -/
theorem pointer_starred_unless_unreadable {query : List Char} {e : Expansion}
    (hexpand : expand ctx query = .ok e) {depth : Nat} {done rest : Declaration}
    {word : List Char} {run : Run}
    (harises : ArisesIn ctx query (.words depth done (word :: rest)) run) {root : String}
    (hnames : Names ctx.catalog word ⟨root, true⟩) (hstar : hasStar word rest = false) :
    ∃ item run', item ∈ e.entered.members ∧
      Performs ctx (.words depth done (word :: rest)) run (.item item) run' ∧
      (root ∈ run.visited →
        ReadsAs ctx depth done rest (root.toList ++ ['*']) run item run') ∧
      (root ∉ run.visited → ctx.options.maxDepth ≤ depth + 1 →
        ReadsAs ctx depth done rest (root.toList ++ ['*'])
          (run.note (.depthLimit root (depth + 1))) item run') ∧
      (root ∉ run.visited → depth + 1 < ctx.options.maxDepth →
        ∃ definition, ctx.catalog.structs.get? root = some definition ∧
          match body ctx root definition (run.visit root) with
          | (.error issue, read) =>
            ReadsAs ctx depth done rest root.toList (read.note issue) item run'
          | (.ok text, read) => ∃ lead label items, item = .nested lead root label items ∧
            Performs ctx (.declarations (depth + 1) (Declaration.all text)) read (.items items)
              run') := by
  obtain ⟨hdefined, item, run', hmem, hperforms⟩ := harises.exists_item hexpand
  have hstars : starsOf word = [] := by
    rw [hasStar, Bool.or_eq_false_iff] at hstar
    simpa using hstar.1
  have hleaf : leafName ⟨root, true⟩ (hasStar word rest) ++ starsOf word =
      root.toList ++ ['*'] := by
    rw [hstar, hstars, List.append_nil]
    rfl
  refine ⟨item, run', hmem, hperforms, ?_⟩
  -- Each case is the subject of one part of the statement, and rules the other parts out.
  cases hperforms.becomes hnames with
  | visited hvisited hrest =>
    rw [hleaf] at hrest
    exact ⟨fun _ => hrest.readsAs hdefined, fun hfresh => absurd hvisited hfresh,
      fun hfresh => absurd hvisited hfresh⟩
  | deep hfresh hdepth hrest =>
    rw [hleaf] at hrest
    exact ⟨fun hvisited => absurd hvisited hfresh, fun _ _ => hrest.readsAs hdefined,
      fun _ hshallow => absurd hdepth (Nat.not_le.2 hshallow)⟩
  | unreadable hfresh hdepth definition issue read hget hbody hrest =>
    rw [hstars, List.append_nil] at hrest
    refine ⟨fun hvisited => absurd hvisited hfresh,
      fun _ hdeep => absurd hdeep (Nat.not_le.2 hdepth), fun _ _ => ⟨definition, hget, ?_⟩⟩
    rw [hbody]
    refine hrest.readsAs ?_
    rw [Run.visited_note, visited_of_body_eq hbody, Run.visited_visit, if_neg hfresh]
    exact List.forall_mem_cons.2 ⟨hnames.defined, hdefined⟩
  | nested hfresh hdepth definition text read items hget hbody hitems hitem =>
    refine ⟨fun hvisited => absurd hvisited hfresh,
      fun _ hdeep => absurd hdeep (Nat.not_le.2 hdepth), fun _ _ => ⟨definition, hget, ?_⟩⟩
    rw [hbody]
    exact ⟨_, _, items, hitem, hitems⟩

/-- A struct with two members whose type is another name for a pointer to a struct without an
end. -/
def gearFiles : List (Path × List Char) :=
  [(.ofString "gear.h", ("typedef struct gear *gear_ref;\n" ++
    "struct box \x7b\n  gear_ref first;\n  gear_ref second;\n\x7d;\n" ++
    "struct gear \x7b\n  int teeth;\n").toList)]

/-- The catalog of `gearFiles`, with a reader of the same texts. -/
def gearContext : Context :=
  ⟨(Scan.workspace 4096 gearFiles).1, (Sources.ofList gearFiles).reader, ⟨4, 8, 4096⟩⟩

theorem pointer_starred_gear :
    ∃ e, expand gearContext "box".toList = .ok e ∧
      .line "gear first;".toList ∈ e.entered.members ∧
      .line "gear* second;".toList ∈ e.entered.members := by
  obtain ⟨hrun, hopening, hfresh, hunread⟩ :
      (expand gearContext "box".toList).map (fun e => e.issues.length) = .ok 1 ∧
      (opening gearContext (Text.trim "box".toList) 0 Run.start).1 =
        .body ⟨"box", false⟩ "gear_ref first;\n  gear_ref second;\n".toList ∧
      "gear" ∉ (opening gearContext (Text.trim "box".toList) 0 Run.start).2.visited ∧
      ∀ d ∈ gearContext.catalog.structs.get? "gear", (body gearContext "gear" d
        ((opening gearContext (Text.trim "box".toList) 0 Run.start).2.visit
          "gear")).1.toOption.isSome = false := by
    decide +kernel
  obtain ⟨hresolve, hdefined, hfirst, hsecond⟩ :
      gearContext.catalog.resolve (nameIn "gear_ref".toList) = .ok ⟨"gear", true⟩ ∧
      gearContext.catalog.structs.contains "gear" = true ∧
      (∀ word ∈ ["first;".toList], structOf? gearContext.catalog word = none) ∧
      ∀ word ∈ ["second;".toList], structOf? gearContext.catalog word = none := by
    decide +kernel
  have harises := arisesIn_declarations hopening
    (show _ = [["gear_ref".toList, "first;".toList], ["gear_ref".toList, "second;".toList]]
      by decide +kernel)
  generalize (opening gearContext (Text.trim "box".toList) 0 Run.start).2 = run at *
  have hnames : Names gearContext.catalog "gear_ref".toList ⟨"gear", true⟩ :=
    ⟨by decide, hresolve, hdefined⟩
  cases hexpand : expand gearContext "box".toList with
  | error p =>
    rw [hexpand] at hrun
    cases hrun
  | ok e =>
    -- For the first member the body is read, and this fails.
    obtain ⟨item, mid, hmem, hitem, -, -, hentered⟩ :=
      pointer_starred_unless_unreadable hexpand harises.first hnames (by decide)
    obtain ⟨definition, hget, hbody⟩ := hentered hfresh (by decide)
    have hmarked := visited_body gearContext "gear" definition (run.visit "gear")
    have hnone := hunread definition hget
    rcases hread : body gearContext "gear" definition (run.visit "gear") with ⟨answer, read⟩
    rw [hread] at hbody hmarked hnone
    cases answer with
    | ok text => cases hnone
    | error issue =>
      obtain ⟨hrest, hline⟩ := hbody
      obtain rfl := hline hfirst
      have hvisited : "gear" ∈ mid.visited := by
        refine hrest.visited_suffix.mem ?_
        rw [Run.visited_note, hmarked, Run.visited_visit, if_neg hfresh]
        exact List.mem_cons_self
      -- By then the struct has been entered, so the second member gets its star.
      obtain ⟨item', run', hmem', -, hstarred, -⟩ := pointer_starred_unless_unreadable hexpand
        (harises.behind hitem).first hnames (by decide)
      obtain rfl := (hstarred hvisited).2 hsecond
      exact ⟨e, rfl, hmem, hmem'⟩

/-- Of the two members of `gearFiles` the first loses the star of its type. -/
theorem expand_gearContext :
    gearContext.catalog.resolve "gear_ref".toList = .ok ⟨"gear", true⟩ ∧
      hasStar "gear_ref".toList ["first;".toList] = false ∧
      (expand gearContext "box".toList).map (fun e => (e.text 4, e.issues)) =
        .ok ("|\n    gear first;\n    gear* second;\n|\n| box",
          [.malformedBlock (.ofString "gear.h") (.unbalanced 96)]) := by
  decide +kernel

end Expansion

end StructUnfold
