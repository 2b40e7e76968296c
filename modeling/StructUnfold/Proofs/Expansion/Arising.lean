import StructUnfold.Proofs.Expansion.Declaration
import StructUnfold.Proofs.Expansion.Reachability

/-!
# What arises in an expansion

In the course of a task other tasks arise: the declarations of a body that is read, the words of
each declaration that are still to be settled, and the struct of a word that is entered. Each arises
in the state that was left by what came before it, so what holds of the states in which tasks arise
holds wherever a declaration is flattened.

* `Entered.members`: what the declarations have become, at all levels.
* `Arises`: the tasks that arise in the course of a task, with the states in which they do.
* `Arises.invariant`: what each effect of an expansion keeps holds where tasks arise.
* `Arises.exists_part`: what arises is performed, and its outcome is part of the whole.
* `Arises.exists_of_mem_members`: every item has come of a declaration that arose.
* `Arises.ends`: the task in which it was decided what a declaration becomes.
* `Arises.ofWords`: what arises consists of words.
* `Arises.allDefined`: in a query only structs that are defined are ever marked as entered.
-/

namespace StructUnfold.Expansion

/-! ### The items of an expansion -/

mutual

/-- An item and the items in its block, at all levels. -/
def Item.members : Item → List Item
  | .line text => [.line text]
  | .nested lead root label items => .nested lead root label items :: membersOf items

/-- Items and the items in their blocks, at all levels. -/
def membersOf : List Item → List Item
  | [] => []
  | item :: items => item.members ++ membersOf items

end

/-- The items of a block, at all levels. -/
def Entered.members : Entered → List Item
  | .block b => membersOf b.items
  | .leaf _ _ => []

/-- The items of an outcome, at all levels. -/
def Outcome.members : Outcome → List Item
  | .entered e => e.members
  | .items is => membersOf is
  | .item i => i.members

theorem Item.mem_members (item : Item) : item ∈ item.members := by
  cases item with
  | line => exact List.mem_cons_self
  | nested => exact List.mem_cons_self

variable {ctx : Context}

/-! ### Tasks within a task -/

/-- A task arises in a state, in the course of a task that starts in another one. -/
inductive Arises (ctx : Context) (task : Task) (run : Run) : Task → Run → Prop where
  /-- The task itself. -/
  | self : Arises ctx task run task run
  /-- The declarations of a body that is read. -/
  | body {symbol label depth before resolved text read}
    (h : Arises ctx task run (.enter symbol label depth) before)
    (hopening : opening ctx symbol depth before = (.body resolved text, read)) :
    Arises ctx task run (.declarations depth (Declaration.all text)) read
  /-- The words of the first declaration that is left. -/
  | first {depth d ds before} (h : Arises ctx task run (.declarations depth (d :: ds)) before) :
    Arises ctx task run (.words depth [] d) before
  /-- The declarations behind it. -/
  | behind {depth d ds before item mid}
    (h : Arises ctx task run (.declarations depth (d :: ds)) before)
    (hitem : Performs ctx (.words depth [] d) before (.item item) mid) :
    Arises ctx task run (.declarations depth ds) mid
  /-- The words behind one that is settled. -/
  | settle {depth done word rest before text issue}
    (h : Arises ctx task run (.words depth done (word :: rest)) before)
    (hverdict : verdict ctx depth word rest before.visited = .settle text issue) :
    Arises ctx task run (.words depth (text :: done) rest) (before.noteAll issue.toList)
  /-- The struct of a word. -/
  | enter {depth done word} {rest : Declaration} {before}
    (h : Arises ctx task run (.words depth done (word :: rest)) before)
    (hverdict : verdict ctx depth word rest before.visited = .enter) :
    Arises ctx task run (.enter (symbolOf word rest) (declaratorOf rest.text) (depth + 1)) before
  /-- The words behind one whose struct could not be entered. -/
  | name {depth done word} {rest : Declaration} {before leaf cause mid}
    (h : Arises ctx task run (.words depth done (word :: rest)) before)
    (hverdict : verdict ctx depth word rest before.visited = .enter)
    (henter : Performs ctx (.enter (symbolOf word rest) (declaratorOf rest.text) (depth + 1)) before
      (.entered (.leaf leaf cause)) mid) :
    Arises ctx task run (.words depth ((leaf ++ starsOf word) :: done) rest) mid

/-- What each effect of an expansion keeps holds where tasks arise. -/
theorem Arises.invariant {task sub : Task} {run before : Run} (h : Arises ctx task run sub before)
    {P : Run → Prop} (hP : Run.Invariant ctx.reader P) (hrun : P run) : P before := by
  induction h with
  | self => exact hrun
  | body _ hopening ih => exact (opens_of_opening_eq hopening).invariant hP ih
  | first _ ih => exact ih
  | behind _ hitem ih => exact hitem.invariant hP ih
  | settle _ _ ih => exact hP.noteAll _ ih
  | enter _ _ ih => exact ih
  | name _ _ henter ih => exact henter.invariant hP ih

/-- What arises in the course of a task is performed in it: its items are among those of the task, and
what each effect keeps holds in the end if it holds behind it. -/
theorem Arises.exists_part {task sub : Task} {run before last : Run} {outcome : Outcome}
    (h : Arises ctx task run sub before) (hperforms : Performs ctx task run outcome last) :
    ∃ part after, Performs ctx sub before part after ∧ part.members ⊆ outcome.members ∧
      ∀ {P : Run → Prop}, Run.Invariant ctx.reader P → P after → P last := by
  -- By induction on how the task arises. What is performed before it is the same in both runs.
  induction h with
  | self => exact ⟨outcome, last, hperforms, List.Subset.refl _, fun _ hafter => hafter⟩
  | body _ hopening ih =>
    obtain ⟨part, after, hpart, hrest⟩ := ih
    cases hpart with
    | leaf hopening' =>
      rw [hopening] at hopening'
      cases hopening'
    | block hopening' hitems =>
      rw [hopening] at hopening'
      cases hopening'
      exact ⟨_, _, hitems, hrest⟩
  | first _ ih =>
    obtain ⟨part, after, hpart, hsub, hlast⟩ := ih
    cases hpart with
    | cons hitem hitems =>
      exact ⟨_, _, hitem, List.Subset.trans (List.subset_append_left _ _) hsub,
        fun hP hmid => hlast hP (hitems.invariant hP hmid)⟩
  | behind _ hitem ih =>
    obtain ⟨part, after, hpart, hsub, hlast⟩ := ih
    cases hpart with
    | cons hitem' hitems =>
      obtain ⟨-, rfl⟩ := hitem.unique hitem'
      exact ⟨_, _, hitems, List.Subset.trans (List.subset_append_right _ _) hsub, hlast⟩
  | settle _ hverdict ih =>
    obtain ⟨part, after, hpart, hrest⟩ := ih
    exact ⟨part, after, hpart.rest_of_settle hverdict, hrest⟩
  | enter _ hverdict ih =>
    obtain ⟨part, after, hpart, hsub, hlast⟩ := ih
    cases hpart with
    | settle hverdict' =>
      rw [hverdict] at hverdict'
      cases hverdict'
    -- The struct is entered first, so what is kept behind it is kept by the rest as well.
    | name _ henter hrest =>
      exact ⟨_, _, henter, List.nil_subset _, fun hP hmid => hlast hP (hrest.invariant hP hmid)⟩
    | nest _ henter =>
      exact ⟨_, _, henter, fun _ hitem => hsub (List.mem_cons_of_mem _ hitem), hlast⟩
  | name _ hverdict henter ih =>
    obtain ⟨part, after, hpart, hlast⟩ := ih
    cases hpart with
    | settle hverdict' =>
      rw [hverdict] at hverdict'
      cases hverdict'
    | name _ henter' hrest =>
      -- No body was found, so the member stays as it is.
      obtain ⟨hleaf, rfl⟩ := henter.unique henter'
      cases hleaf
      exact ⟨_, _, hrest, hlast⟩
    | nest _ henter' =>
      obtain ⟨hblock, -⟩ := henter.unique henter'
      cases hblock

/-- Each item of an outcome has come of a declaration that arose, or it is the outcome. -/
theorem Arises.exists_of_mem_members {task sub : Task} {run before after : Run} {part : Outcome}
    (h : Arises ctx task run sub before) (hpart : Performs ctx sub before part after) {item : Item}
    (hitem : item ∈ part.members) :
    (∃ depth d mid last, Arises ctx task run (.words depth [] d) mid ∧
      Performs ctx (.words depth [] d) mid (.item item) last) ∨ part = .item item := by
  induction hpart with
  | leaf => cases hitem
  | block hopening _ ih => exact .inl ((ih (h.body hopening) hitem).resolve_right nofun)
  | nil => cases hitem
  | cons hfirst _ ihfirst ihbehind =>
    rcases List.mem_append.1 hitem with hitem | hitem
    · rcases ihfirst h.first hitem with hinner | hself
      · exact .inl hinner
      · exact .inl ⟨_, _, _, _, h.first, hself ▸ hfirst⟩
    · exact .inl ((ihbehind (h.behind hfirst) hitem).resolve_right nofun)
  | line => exact .inr (congrArg Outcome.item (List.mem_singleton.1 hitem).symm)
  | settle hverdict _ ih => exact ih (h.settle hverdict) hitem
  | name hverdict henter _ _ ihrest => exact ihrest (h.name hverdict henter) hitem
  | nest hverdict _ ih =>
    rcases List.mem_cons.1 hitem with rfl | hitem
    · exact .inr rfl
    · exact .inl ((ih (h.enter hverdict) hitem).resolve_right nofun)

/-- The task that decides what a declaration becomes: no word of it is left, or the struct of the
next word is entered. -/
inductive Ends (ctx : Context) (task : Task) (run : Run) (depth : Nat) : Item → Prop where
  /-- All words are settled. -/
  | line {done last} (h : Arises ctx task run (.words depth done []) last) :
    Ends ctx task run depth (.line (Declaration.text done.reverse))
  /-- The struct of the next word becomes a block. -/
  | nest {done word} {rest : Declaration} {last b after}
    (h : Arises ctx task run (.words depth done (word :: rest)) last)
    (hverdict : verdict ctx depth word rest last.visited = .enter)
    (henter : Performs ctx (.enter (symbolOf word rest) (declaratorOf rest.text) (depth + 1)) last
      (.entered (.block b)) after) :
    Ends ctx task run depth
      (.nested (Splice.lead (Declaration.text (done.reverse ++ word :: rest)) (nameIn word)) b.root
        b.label b.items)

theorem Arises.ends {task : Task} {depth : Nat} {done todo : Declaration} {run before after : Run}
    {item : Item} (h : Arises ctx task run (.words depth done todo) before)
    (hperforms : Performs ctx (.words depth done todo) before (.item item) after) :
    Ends ctx task run depth item := by
  induction todo generalizing done before with
  | nil =>
    cases hperforms with
    | line => exact .line h
  | cons word rest ih =>
    cases hperforms with
    | settle hverdict hrest => exact ih (h.settle hverdict) hrest
    | name hverdict henter hrest => exact ih (h.name hverdict henter) hrest
    | nest hverdict henter => exact .nest h hverdict henter

/-! ### What arises consists of words -/

/-- No declaration that is left is empty, and words have no white space in them. -/
def Task.OfWords : Task → Prop
  | .enter _ _ _ => True
  | .declarations _ ds => ∀ d ∈ ds, d ≠ [] ∧ ∀ word ∈ d, Text.IsWord word
  | .words _ _ todo => ∀ word ∈ todo, Text.IsWord word

/-- The declarations that arise consist of words, for those of a body do. -/
theorem Arises.ofWords {task sub : Task} {run before : Run} (h : Arises ctx task run sub before)
    (htask : task.OfWords) : sub.OfWords := by
  induction h with
  | self => exact htask
  | body =>
    exact fun d hd => ⟨Declaration.ne_nil_of_mem_all hd, fun _ => Declaration.isWord_of_mem_all hd⟩
  | first _ ih => exact (ih _ List.mem_cons_self).2
  | behind _ _ ih => exact fun d hd => ih d (List.mem_cons_of_mem _ hd)
  | settle _ _ ih => exact fun word hword => ih word (List.mem_cons_of_mem _ hword)
  | enter => exact trivial
  | name _ _ _ ih => exact fun word hword => ih word (List.mem_cons_of_mem _ hword)

/-! ### Marked structs are defined -/

/-- All structs that are marked as entered are defined. -/
def AllDefined (c : Catalog) (visited : List String) : Prop :=
  ∀ root ∈ visited, c.structs.contains root = true

/-- Where a struct is to be entered that is defined, only defined structs are marked. -/
theorem Opens.allDefined {symbol : List Char} {depth : Nat} {run read : Run} {found : Opening}
    (h : Opens ctx symbol depth run found read)
    (hready : Opening.Ready ctx.catalog symbol run.visited)
    (hrun : AllDefined ctx.catalog run.visited) : AllDefined ctx.catalog read.visited := by
  intro root hroot
  rcases h.names_of_mem_visited hroot with hvisited | ⟨isPointer, hresolve⟩
  · exact hrun root hvisited
  · obtain ⟨resolved, hresolve', hdefined, -⟩ := hready
    obtain rfl := Except.ok.inj (hresolve.symm.trans hresolve')
    exact hdefined

/-- Only defined structs are marked in the course of a task. -/
theorem Performs.allDefined {task : Task} {run run' : Run} {outcome : Outcome}
    (h : Performs ctx task run outcome run') (hready : task.Ready ctx.catalog run.visited)
    (hrun : AllDefined ctx.catalog run.visited) : AllDefined ctx.catalog run'.visited := by
  induction h with
  | leaf hopening => exact (opens_of_opening_eq hopening).allDefined hready hrun
  | block hopening _ ih => exact ih trivial ((opens_of_opening_eq hopening).allDefined hready hrun)
  | nil => exact hrun
  | cons _ _ ihitem ihitems => exact ihitems trivial (ihitem trivial hrun)
  | line => exact hrun
  | settle _ _ ih => exact ih trivial hrun
  | name hverdict _ _ ihenter ihrest =>
    exact ihrest trivial (ihenter (ready_of_verdict_eq_enter hverdict) hrun)
  | nest hverdict _ ih => exact ih (ready_of_verdict_eq_enter hverdict) hrun

/-- A task that arises can be begun, and only defined structs are marked where it does. -/
theorem Arises.allDefined {task sub : Task} {run before : Run} (h : Arises ctx task run sub before)
    (hready : task.Ready ctx.catalog run.visited) (hrun : AllDefined ctx.catalog run.visited) :
    sub.Ready ctx.catalog before.visited ∧ AllDefined ctx.catalog before.visited := by
  induction h with
  | self => exact ⟨hready, hrun⟩
  | body _ hopening ih =>
    exact ⟨trivial, (opens_of_opening_eq hopening).allDefined ih.1 ih.2⟩
  | first _ ih => exact ⟨trivial, ih.2⟩
  | behind _ hitem ih => exact ⟨trivial, hitem.allDefined trivial ih.2⟩
  | settle _ _ ih => exact ⟨trivial, ih.2⟩
  | enter _ hverdict ih =>
    exact ⟨ready_of_verdict_eq_enter hverdict, ih.2⟩
  | name _ hverdict henter ih =>
    exact ⟨trivial, henter.allDefined (ready_of_verdict_eq_enter hverdict) ih.2⟩

/-! ### Queries -/

/-- A task arises in a state in the expansion of a query. -/
def ArisesIn (ctx : Context) (query : List Char) : Task → Run → Prop :=
  Arises ctx (.enter (Text.trim query) (Text.trim query) 0) Run.start

/-- What arises in an expansion is performed in it, in a state in which only defined structs are
marked. -/
theorem ArisesIn.exists_performs {query : List Char} {e : Expansion} {task : Task} {run : Run}
    (h : ArisesIn ctx query task run) (hexpand : expand ctx query = .ok e) :
    (∃ outcome run', Performs ctx task run outcome run' ∧
      outcome.members ⊆ e.entered.members) ∧ AllDefined ctx.catalog run.visited := by
  obtain ⟨haccepts, hperforms⟩ := performs_of_expand hexpand
  obtain ⟨part, after, hpart, hmembers, -⟩ := Arises.exists_part h hperforms
  exact ⟨⟨part, after, hpart, hmembers⟩, (Arises.allDefined h haccepts.ready nofun).2⟩

/-- The declarations of the struct that is asked for, in the state in which its body has been
read. -/
theorem arisesIn_declarations {query : List Char} {resolved : Resolved} {text : List Char}
    {ds : List Declaration}
    (hopening : (opening ctx (Text.trim query) 0 Run.start).1 = .body resolved text)
    (hall : Declaration.all text = ds) :
    ArisesIn ctx query (.declarations 0 ds) (opening ctx (Text.trim query) 0 Run.start).2 := by
  have hself : ArisesIn ctx query (.enter (Text.trim query) (Text.trim query) 0) Run.start := .self
  have harises := Arises.body hself (Prod.ext hopening rfl)
  rwa [hall] at harises

/-- Each item of an expansion has come of a declaration that arose in it. -/
theorem exists_arisesIn_of_mem_members {query : List Char} {e : Expansion}
    (hexpand : expand ctx query = .ok e) {item : Item} (hitem : item ∈ e.entered.members) :
    ∃ depth d run run', ArisesIn ctx query (.words depth [] d) run ∧
      Performs ctx (.words depth [] d) run (.item item) run' := by
  obtain ⟨-, hperforms⟩ := performs_of_expand hexpand
  have hself : ArisesIn ctx query (.enter (Text.trim query) (Text.trim query) 0) Run.start := .self
  exact (Arises.exists_of_mem_members hself hperforms hitem).resolve_right nofun

/-- A declaration that arises in an expansion becomes one of its items. -/
theorem ArisesIn.exists_item {query : List Char} {e : Expansion} {depth : Nat}
    {done todo : Declaration} {run : Run} (h : ArisesIn ctx query (.words depth done todo) run)
    (hexpand : expand ctx query = .ok e) :
    AllDefined ctx.catalog run.visited ∧ ∃ item run', item ∈ e.entered.members ∧
      Performs ctx (.words depth done todo) run (.item item) run' := by
  obtain ⟨⟨outcome, run', hperforms, hmembers⟩, hdefined⟩ := h.exists_performs hexpand
  obtain ⟨item, rfl⟩ : ∃ item, outcome = .item item := by
    cases hperforms <;> exact ⟨_, rfl⟩
  exact ⟨hdefined, item, run', hmembers item.mem_members, hperforms⟩

end StructUnfold.Expansion
