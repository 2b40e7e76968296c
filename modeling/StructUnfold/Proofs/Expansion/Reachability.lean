import Mathlib.Data.List.Forall2
import Mathlib.Logic.Relation
import StructUnfold.Proofs.Expansion.Graph
import StructUnfold.Scan.Basic

/-!
# Which structs an expansion reaches

An expansion searches the graph of structs depth first. The structs it has entered are shared
between the branches of the search, and a struct counts as entered before its body is known.

* `Performs.reached`: every edge of a struct with a block has been followed, or it lies too deep.
* `Performs.reachable`: nothing else has been entered.
* `Performs.exists_accounts`: a struct that has been entered has a block, or one issue tells why it
  has none.
* `expand_reaches`: these statements for a query.
-/

namespace StructUnfold

/-- Whether a problem tells why the body of a struct could not be read. -/
def Problem.isBodyFault : Problem → Bool
  | .fileRead _ _ => true
  | .malformedBlock _ _ => true
  | _ => false

/-- Whether a problem tells that a struct lies too deep. -/
def Problem.isDepthLimit : Problem → Bool
  | .depthLimit _ _ => true
  | _ => false

namespace Expansion

variable {ctx : Context}

/-! ### Every edge is followed -/

/-- A struct has been entered, or an issue tells that it lies too deep. -/
def Run.Reached (run : Run) (root : String) : Prop :=
  root ∈ run.visited ∨ ∃ depth, .depthLimit root depth ∈ run.issues

/-- A task is about a struct: it is to enter the struct, or a word that is left names it. -/
def Task.Names (c : Catalog) (root : String) : Task → Prop
  | .enter symbol _ _ => ∃ isPointer, c.resolve symbol = .ok ⟨root, isPointer⟩
  | .declarations _ ds => ∃ d ∈ ds, ∃ word ∈ d, structOf? c word = some root
  | .words _ _ todo => ∃ word ∈ todo, structOf? c word = some root

/-- Each declaration that is left names at most one struct. -/
def Task.NamesOneEach (c : Catalog) : Task → Prop
  | .enter _ _ _ => True
  | .declarations _ ds => ∀ d ∈ ds, NamesOne c d
  | .words _ _ todo => NamesOne c todo

theorem Run.Reached.mono {run later : Run} {root : String} (h : run.Reached root)
    (hvisited : run.visited <:+ later.visited) (hissues : run.issues <+: later.issues) :
    later.Reached root := by
  rcases h with h | ⟨depth, h⟩
  · exact .inl (hvisited.mem h)
  · exact .inr ⟨depth, hissues.mem h⟩

theorem Performs.reached_mono {task : Task} {run run' : Run} {outcome : Outcome} {root : String}
    (h : Performs ctx task run outcome run') (hroot : run.Reached root) : run'.Reached root :=
  hroot.mono h.visited_suffix h.issues_isPrefix

/-- Where a struct is to be entered it counts as entered. -/
theorem Opens.mem_visited {symbol : List Char} {depth : Nat} {run read : Run} {found : Opening}
    (h : Opens ctx symbol depth run found read) {root : String} {isPointer : Bool}
    (hroot : ctx.catalog.resolve symbol = .ok ⟨root, isPointer⟩) : root ∈ read.visited := by
  have hvisit : ∀ run : Run, root ∈ (run.visit root).visited := by
    intro run
    rw [Run.visited_visit]
    split
    · assumption
    · exact List.mem_cons_self
  cases h with
  | unresolved hresolve =>
    rw [hroot] at hresolve
    cases hresolve
  | visited hresolve _ hvisited =>
    obtain rfl := Except.ok.inj (hroot.symm.trans hresolve)
    exact hvisited
  | undefined hresolve =>
    obtain rfl := Except.ok.inj (hroot.symm.trans hresolve)
    exact hvisit run
  | unreadable hresolve _ _ hbody =>
    obtain rfl := Except.ok.inj (hroot.symm.trans hresolve)
    exact visited_of_body_eq hbody ▸ hvisit run
  | body hresolve _ _ hbody =>
    obtain rfl := Except.ok.inj (hroot.symm.trans hresolve)
    exact visited_of_body_eq hbody ▸ hvisit run

/-- A struct that is to be entered counts as entered behind. -/
theorem Performs.mem_visited {symbol label : List Char} {depth : Nat} {run run' : Run}
    {e : Entered} (h : Performs ctx (.enter symbol label depth) run (.entered e) run')
    {root : String} {isPointer : Bool}
    (hroot : ctx.catalog.resolve symbol = .ok ⟨root, isPointer⟩) : root ∈ run'.visited := by
  cases h with
  | leaf hopening => exact (opens_of_opening_eq hopening).mem_visited hroot
  | block hopening hitems =>
    exact hitems.visited_suffix.mem ((opens_of_opening_eq hopening).mem_visited hroot)

/-- A word whose struct is entered names it. -/
theorem exists_structOf?_of_verdict_eq_enter {depth : Nat} {word : List Char} {rest : Declaration}
    {visited : List String} (h : verdict ctx depth word rest visited = .enter) :
    ∃ root, structOf? ctx.catalog word = some root ∧ Enters ctx depth word visited root := by
  obtain ⟨root, henters⟩ := enters_of_verdict_eq_enter h
  cases verdict_eq_iff.1 h with
  | enter hname =>
    exact ⟨root, structOf?_eq_some_iff.2 ⟨hname, henters.resolves, henters.defined⟩, henters⟩

namespace NamesOne

variable {c : Catalog} {word : List Char} {rest : Declaration}

theorem tail (h : NamesOne c (word :: rest)) : NamesOne c rest :=
  Nat.le_trans (List.sublist_cons_self word rest).countP_le h

/-- Behind a word that names a struct no other word names one. -/
theorem eq_of_mem (h : NamesOne c (word :: rest)) {root target : String}
    (hword : structOf? c word = some root)
    (hnames : ∃ w ∈ word :: rest, structOf? c w = some target) : target = root := by
  obtain ⟨w, hw, htarget⟩ := hnames
  rcases List.mem_cons.1 hw with rfl | hw
  · exact Option.some.inj (htarget.symm.trans hword)
  · have hpos : 0 < rest.countP fun w => (structOf? c w).isSome :=
      List.countP_pos_iff.2 ⟨w, hw, by rw [htarget, Option.isSome_some]⟩
    rw [NamesOne, List.countP_cons_of_pos (by rw [hword, Option.isSome_some])] at h
    omega

end NamesOne

/-- What a task is about is reached, and so is all to which the structs with blocks lead in the
texts of a later run. -/
theorem Performs.reached {task : Task} {run run' later : Run} {outcome : Outcome}
    (h : Performs ctx task run outcome run') (hlater : run'.KeepsSources later)
    (hbodies : ∀ root text, later.bodyOf? ctx root = some text →
      ∀ d ∈ Declaration.all text, NamesOne ctx.catalog d)
    (hone : task.NamesOneEach ctx.catalog) :
    (∀ root, task.Names ctx.catalog root → run'.Reached root) ∧
      ∀ root ∈ outcome.roots, ∀ target, later.Leads ctx root target → run'.Reached target := by
  induction h with
  | leaf hopening =>
    refine ⟨fun root ⟨isPointer, hroot⟩ => ?_, fun root hroot => absurd hroot List.not_mem_nil⟩
    exact .inl ((opens_of_opening_eq hopening).mem_visited hroot)
  | @block symbol label depth run resolved text read items run' hopening hitems ih =>
    have hopens := opens_of_opening_eq hopening
    have hbody : later.bodyOf? ctx resolved.root = some text :=
      (hitems.keepsSources.trans hlater).bodyOf? hopens.bodyOf?
    obtain ⟨hnames, hleads⟩ := ih hlater (hbodies _ _ hbody)
    refine ⟨fun root ⟨isPointer, hroot⟩ => ?_, fun root hroot target htarget => ?_⟩
    · exact .inl (hitems.visited_suffix.mem (hopens.mem_visited hroot))
    · rcases List.mem_cons.1 hroot with rfl | hroot
      · -- The edges of the struct itself are what its declarations name.
        obtain ⟨body, hbody', hdeclares⟩ := htarget
        obtain rfl := Option.some.inj (hbody.symm.trans hbody')
        exact hnames target hdeclares
      · exact hleads root hroot target htarget
  | nil => exact ⟨fun root ⟨d, hd, _⟩ => absurd hd List.not_mem_nil,
      fun root hroot => absurd hroot List.not_mem_nil⟩
  | cons hitem hitems ihitem ihitems =>
    obtain ⟨hd, hds⟩ := List.forall_mem_cons.1 hone
    obtain ⟨hnames, hleads⟩ := ihitem (hitems.keepsSources.trans hlater) hd
    obtain ⟨hnames', hleads'⟩ := ihitems hlater hds
    refine ⟨fun root ⟨d, hd, hword⟩ => ?_, fun root hroot target htarget => ?_⟩
    · rcases List.mem_cons.1 hd with rfl | hd
      · exact hitems.reached_mono (hnames root hword)
      · exact hnames' root ⟨d, hd, hword⟩
    · rcases List.mem_append.1 hroot with hroot | hroot
      · exact hitems.reached_mono (hleads root hroot target htarget)
      · exact hleads' root hroot target htarget
  | line => exact ⟨fun root ⟨w, hw, _⟩ => absurd hw List.not_mem_nil,
      fun root hroot => absurd hroot List.not_mem_nil⟩
  | @settle depth done word rest run text issue item run' hverdict hrest ih =>
    obtain ⟨hnames, hleads⟩ := ih hlater (NamesOne.tail hone)
    refine ⟨fun root ⟨w, hw, hroot⟩ => ?_, hleads⟩
    rcases List.mem_cons.1 hw with rfl | hw
    · refine hrest.reached_mono ?_
      rcases verdict_of_structOf?_eq_some hroot rest run.visited with
        ⟨_, hsettle, hvisited⟩ | ⟨_, hsettle⟩ | henter
      · exact .inl hvisited
      · rw [hverdict] at hsettle
        obtain ⟨-, rfl⟩ := Verdict.settle.inj hsettle
        exact .inr ⟨_, List.mem_append_right _ (List.mem_singleton_self _)⟩
      · rw [hverdict] at henter
        cases henter
    · exact hnames root ⟨w, hw, hroot⟩
  | @name depth done word rest run leaf cause mid item run' hverdict henter hrest _ ihrest =>
    obtain ⟨hnames, hleads⟩ := ihrest hlater (NamesOne.tail hone)
    refine ⟨fun root ⟨w, hw, hroot⟩ => ?_, hleads⟩
    rcases List.mem_cons.1 hw with rfl | hw
    · obtain ⟨-, ⟨isPointer, hresolve⟩, -⟩ := structOf?_eq_some_iff.1 hroot
      have hsymbol := resolve_symbolOf hresolve rest
      exact hrest.reached_mono (.inl (henter.mem_visited hsymbol))
    · exact hnames root ⟨w, hw, hroot⟩
  | @nest depth done word rest run b run' hverdict henter ih =>
    obtain ⟨-, hleads⟩ := ih hlater trivial
    refine ⟨fun target hnames => ?_, hleads⟩
    -- The words behind are not read, but they name no struct.
    obtain ⟨root, hroot, -⟩ := exists_structOf?_of_verdict_eq_enter hverdict
    obtain rfl := NamesOne.eq_of_mem hone hroot hnames
    obtain ⟨-, ⟨isPointer, hresolve⟩, -⟩ := structOf?_eq_some_iff.1 hroot
    exact .inl (henter.mem_visited (resolve_symbolOf hresolve rest))

/-! ### Nothing else is entered -/

/-- No other struct than that of the symbol is marked where it is to be entered. -/
theorem Opens.names_of_mem_visited {symbol : List Char} {depth : Nat} {run read : Run}
    {found : Opening} (h : Opens ctx symbol depth run found read) {target : String}
    (htarget : target ∈ read.visited) :
    target ∈ run.visited ∨ ∃ isPointer, ctx.catalog.resolve symbol = .ok ⟨target, isPointer⟩ := by
  have hvisit : ∀ resolved : Resolved, ctx.catalog.resolve symbol = .ok resolved →
      target ∈ (run.visit resolved.root).visited →
        target ∈ run.visited ∨
          ∃ isPointer, ctx.catalog.resolve symbol = .ok ⟨target, isPointer⟩ := by
    intro resolved hresolve hmem
    rw [Run.visited_visit] at hmem
    split at hmem
    · exact .inl hmem
    · rcases List.mem_cons.1 hmem with rfl | hmem
      · exact .inr ⟨resolved.isPointer, hresolve⟩
      · exact .inl hmem
  cases h with
  | unresolved => exact .inl htarget
  | visited => exact .inl htarget
  | undefined hresolve => exact hvisit _ hresolve htarget
  | unreadable hresolve _ _ hbody =>
    exact hvisit _ hresolve (visited_of_body_eq hbody ▸ htarget)
  | body hresolve _ _ hbody =>
    exact hvisit _ hresolve (visited_of_body_eq hbody ▸ htarget)

/-- The struct whose body is read is that of the symbol. -/
theorem Opens.resolve_of_body {symbol text : List Char} {depth : Nat} {run read : Run}
    {resolved : Resolved} (h : Opens ctx symbol depth run (.body resolved text) read) :
    ctx.catalog.resolve symbol = .ok resolved := by
  cases h with
  | body hresolve => exact hresolve

/-- The struct that is entered for a word is the one that the word names. -/
theorem structOf?_eq_of_enter {word : List Char} {rest : Declaration} {depth : Nat}
    {visited : List String} (hverdict : verdict ctx depth word rest visited = .enter)
    {root : String} {isPointer : Bool}
    (hsymbol : ctx.catalog.resolve (symbolOf word rest) = .ok ⟨root, isPointer⟩) :
    structOf? ctx.catalog word = some root := by
  obtain ⟨target, htarget, henters⟩ := exists_structOf?_of_verdict_eq_enter hverdict
  obtain ⟨isPointer', hresolve⟩ := henters.resolve_symbolOf rest
  obtain ⟨rfl, -⟩ := Resolved.mk.inj (Except.ok.inj (hresolve.symm.trans hsymbol))
  exact htarget

/-- A struct that has been entered is reachable from one that the task is about, in the texts of a
later run. -/
theorem Performs.reachable {task : Task} {run run' later : Run} {outcome : Outcome}
    (h : Performs ctx task run outcome run') (hlater : run'.KeepsSources later) {target : String}
    (htarget : target ∈ run'.visited) :
    target ∈ run.visited ∨ ∃ root, task.Names ctx.catalog root ∧
      Relation.ReflTransGen (later.Leads ctx) root target := by
  induction h with
  | leaf hopening =>
    exact ((opens_of_opening_eq hopening).names_of_mem_visited htarget).imp_right
      fun hroot => ⟨target, hroot, .refl⟩
  | @block symbol label depth run resolved text read items run' hopening hitems ih =>
    have hopens := opens_of_opening_eq hopening
    rcases ih hlater htarget with hread | ⟨root, hdeclares, hreach⟩
    · exact (hopens.names_of_mem_visited hread).imp_right fun hroot => ⟨target, hroot, .refl⟩
    · -- What the declarations name is an edge of the struct whose body they are.
      have hbody := (hitems.keepsSources.trans hlater).bodyOf? hopens.bodyOf?
      exact .inr ⟨resolved.root, ⟨resolved.isPointer, hopens.resolve_of_body⟩,
        .head ⟨text, hbody, hdeclares⟩ hreach⟩
  | nil => exact .inl htarget
  | cons hitem hitems ihitem ihitems =>
    rcases ihitems hlater htarget with hmid | ⟨root, ⟨d, hd, hword⟩, hreach⟩
    · rcases ihitem (hitems.keepsSources.trans hlater) hmid with hrun | ⟨root, hword, hreach⟩
      · exact .inl hrun
      · exact .inr ⟨root, ⟨_, List.mem_cons_self, hword⟩, hreach⟩
    · exact .inr ⟨root, ⟨d, List.mem_cons_of_mem _ hd, hword⟩, hreach⟩
  | line => exact .inl htarget
  | settle _ _ ih =>
    rcases ih hlater htarget with hrun | ⟨root, ⟨w, hw, hroot⟩, hreach⟩
    · exact .inl hrun
    · exact .inr ⟨root, ⟨w, List.mem_cons_of_mem _ hw, hroot⟩, hreach⟩
  | @name depth done word rest run leaf cause mid item run' hverdict henter hrest ihenter ihrest =>
    rcases ihrest hlater htarget with hmid | ⟨root, ⟨w, hw, hroot⟩, hreach⟩
    · rcases ihenter (hrest.keepsSources.trans hlater) hmid with hrun | ⟨root, hsymbol, hreach⟩
      · exact .inl hrun
      · obtain ⟨isPointer, hsymbol⟩ := hsymbol
        have hroot := structOf?_eq_of_enter hverdict hsymbol
        exact .inr ⟨root, ⟨word, List.mem_cons_self, hroot⟩, hreach⟩
    · exact .inr ⟨root, ⟨w, List.mem_cons_of_mem _ hw, hroot⟩, hreach⟩
  | @nest depth done word rest run b run' hverdict henter ih =>
    rcases ih hlater htarget with hrun | ⟨root, ⟨isPointer, hsymbol⟩, hreach⟩
    · exact .inl hrun
    · exact .inr ⟨root, ⟨word, List.mem_cons_self, structOf?_eq_of_enter hverdict hsymbol⟩, hreach⟩

/-! ### Structs without a block -/

/-- A problem tells why a struct has no body in the texts of a run: the file that defines it could
not be read, or its block was not found in the text of that file. -/
inductive Run.Lacks (ctx : Context) (run : Run) (root : String) : Problem → Prop where
  /-- The file could not be read. -/
  | file {definition error} (hget : ctx.catalog.structs.get? root = some definition)
    (hsource : run.source? definition.path = some (.error error.fault)) :
    Lacks ctx run root (.fileRead definition.path error)
  /-- The block was not found. -/
  | block {definition text reason} (hget : ctx.catalog.structs.get? root = some definition)
    (hsource : run.source? definition.path = some (.ok text))
    (hbody : bodyIn ctx.options.maxScan root definition.offset text = .error reason) :
    Lacks ctx run root (.malformedBlock definition.path reason)

/-- Each struct that was entered between two states has become a block or is one of `bare`, and for
each of those, in order, one issue tells what it lacks in the texts of a later run. -/
structure Accounts (ctx : Context) (later before after : Run) (roots bare : List String) :
    Prop where
  /-- The structs that were entered are those. -/
  perm : (bare ++ (roots ++ before.visited)).Perm after.visited
  /-- The issues that were added tell why. -/
  issues : ∃ added, after.issues = before.issues ++ added ∧
    List.Forall₂ (later.Lacks ctx) bare (added.filter Problem.isBodyFault)

namespace Accounts

variable {later before mid after : Run} {roots roots' bare bare' : List String}

theorem refl (ctx : Context) (later run : Run) : Accounts ctx later run run [] [] :=
  ⟨.refl _, [], by simp, .nil⟩

/-- Issues of other kinds are of no account. -/
theorem note (hvisited : after.visited = before.visited) {added : List Problem}
    (hissues : after.issues = before.issues ++ added)
    (hother : ∀ p ∈ added, p.isBodyFault = false) : Accounts ctx later before after [] [] := by
  refine ⟨by rw [hvisited]; exact .refl _, added, hissues, ?_⟩
  rw [List.filter_eq_nil_iff.2 fun p hp => by rw [hother p hp]; exact Bool.false_ne_true]
  exact .nil

/-- Accounts of what was entered first and of what was entered then add up. -/
theorem append (h : Accounts ctx later before mid roots bare)
    (h' : Accounts ctx later mid after roots' bare') :
    Accounts ctx later before after (roots ++ roots') (bare ++ bare') := by
  obtain ⟨added, hadded, hbare⟩ := h.issues
  obtain ⟨added', hadded', hbare'⟩ := h'.issues
  refine ⟨?_, added ++ added', by rw [hadded', hadded, List.append_assoc], ?_⟩
  · have hperm := h.perm
    have hperm' := h'.perm
    rw [List.perm_iff_count] at hperm hperm' ⊢
    intro root
    have hroot := hperm root
    have hroot' := hperm' root
    simp only [List.count_append] at hroot hroot' ⊢
    omega
  · rw [List.filter_append]
    exact List.rel_append hbare hbare'

end Accounts

/-- A word is settled with no issue about the body of a struct. -/
theorem isBodyFault_of_verdict {depth : Nat} {word text : List Char} {rest : Declaration}
    {visited : List String} {issue : Problem}
    (h : verdict ctx depth word rest visited = .settle text (some issue)) :
    issue.isBodyFault = false := by
  rcases issue_of_verdict h with
    ⟨name, bound, rfl⟩ | ⟨name, path, reason, rfl⟩ | ⟨root, rfl⟩ | ⟨root, deep, rfl⟩ <;> rfl

/-- Where a struct is ready to be entered it is marked, and its body is read or one issue tells what
it lacks. -/
theorem Opens.accounts {symbol : List Char} {depth : Nat} {run read later : Run} {found : Opening}
    (h : Opens ctx symbol depth run found read)
    (hready : Opening.Ready ctx.catalog symbol run.visited) (hlater : read.KeepsSources later) :
    (∃ name cause root, found = .leaf name cause ∧ Accounts ctx later run read [] [root]) ∨
      ∃ resolved text, found = .body resolved text ∧
        Accounts ctx later run read [resolved.root] [] := by
  obtain ⟨resolved, hresolve, hdefined, hfresh⟩ := hready
  have hvisit : ((run.visit resolved.root).visited) = resolved.root :: run.visited := by
    rw [Run.visited_visit, if_neg hfresh]
  cases h with
  | unresolved hresolve' =>
    rw [hresolve] at hresolve'
    cases hresolve'
  | visited hresolve' _ hvisited =>
    obtain rfl := Except.ok.inj (hresolve.symm.trans hresolve')
    exact absurd hvisited hfresh
  | undefined hresolve' _ hget =>
    obtain rfl := Except.ok.inj (hresolve.symm.trans hresolve')
    rw [Table.contains_eq_true_iff] at hdefined
    obtain ⟨definition, hdefined⟩ := hdefined
    rw [hget] at hdefined
    cases hdefined
  | @unreadable _ definition issue read hresolve' _ hget hbody =>
    obtain rfl := Except.ok.inj (hresolve.symm.trans hresolve')
    refine .inl ⟨_, _, resolved.root, rfl, ?_, [issue], ?_, ?_⟩
    · rw [Run.visited_note, visited_of_body_eq hbody, hvisit]
      exact .refl _
    · rw [Run.note, issues_of_body_eq hbody, Run.issues_visit]
    · have hsource := source?_body ctx resolved.root definition (run.visit resolved.root)
      rw [hbody] at hsource
      obtain ⟨error, herror, hfile⟩ | ⟨text, hfile, htext⟩ := hsource
      · obtain rfl := Except.error.inj herror
        -- The file could not be read.
        exact .cons (.file hget (hlater _ _ hfile)) .nil
      · cases hin : bodyIn ctx.options.maxScan resolved.root definition.offset text with
        | ok body =>
          rw [hin] at htext
          cases htext
        | error reason =>
          rw [hin] at htext
          obtain rfl := Except.error.inj htext
          -- The body could not be found in it.
          exact .cons (.block hget (hlater _ _ hfile) hin) .nil
  | @body _ definition text read hresolve' _ hget hbody =>
    obtain rfl := Except.ok.inj (hresolve.symm.trans hresolve')
    refine .inr ⟨resolved, text, rfl, ?_, [], ?_, .nil⟩
    · rw [visited_of_body_eq hbody, hvisit]
      exact .refl _
    · rw [issues_of_body_eq hbody, Run.issues_visit, List.append_nil]

/-- A task can be begun: a struct that is to be entered is defined and has not been entered. -/
def Task.Ready (c : Catalog) (visited : List String) : Task → Prop
  | .enter symbol _ _ => Opening.Ready c symbol visited
  | _ => True

/-- Each struct that is entered becomes a block, or one issue tells why it does not. -/
theorem Performs.exists_accounts {task : Task} {run run' later : Run} {outcome : Outcome}
    (h : Performs ctx task run outcome run') (hready : task.Ready ctx.catalog run.visited)
    (hlater : run'.KeepsSources later) :
    ∃ bare, Accounts ctx later run run' outcome.roots bare := by
  -- By induction on what is performed: one part accounts for what it enters, and the next part for
  -- the rest.
  induction h with
  | leaf hopening =>
    rcases (opens_of_opening_eq hopening).accounts hready hlater with
      ⟨_, _, root, _, haccounts⟩ | ⟨_, _, hbody, _⟩
    · exact ⟨[root], haccounts⟩
    · cases hbody
  | @block symbol label depth run resolved text read items run' hopening hitems ih =>
    rcases (opens_of_opening_eq hopening).accounts hready (hitems.keepsSources.trans hlater) with
      ⟨_, _, _, hleaf, _⟩ | ⟨_, _, hbody, haccounts⟩
    · cases hleaf
    · cases hbody
      obtain ⟨bare, hinner⟩ := ih trivial hlater
      exact ⟨_, haccounts.append hinner⟩
  | nil => exact ⟨[], .refl _ _ _⟩
  | cons hitem hitems ihitem ihitems =>
    obtain ⟨bare, haccounts⟩ := ihitem trivial (hitems.keepsSources.trans hlater)
    obtain ⟨bare', haccounts'⟩ := ihitems trivial hlater
    exact ⟨_, haccounts.append haccounts'⟩
  | line => exact ⟨[], .refl _ _ _⟩
  | @settle depth done word rest run text issue item run' hverdict hrest ih =>
    obtain ⟨bare, haccounts⟩ := ih trivial hlater
    have hnote : Accounts ctx later run (run.noteAll issue.toList) [] [] :=
      .note rfl rfl fun p hp => by
        obtain rfl := Option.mem_toList.1 hp
        exact isBodyFault_of_verdict hverdict
    exact ⟨_, hnote.append haccounts⟩
  | @name depth done word rest run leaf cause mid item run' hverdict henter hrest ihenter ihrest =>
    obtain ⟨bare, haccounts⟩ :=
      ihenter (ready_of_verdict_eq_enter hverdict) (hrest.keepsSources.trans hlater)
    obtain ⟨bare', haccounts'⟩ := ihrest trivial hlater
    exact ⟨_, haccounts.append haccounts'⟩
  | @nest depth done word rest run b run' hverdict henter ih =>
    exact ih (ready_of_verdict_eq_enter hverdict) hlater

theorem Run.nodup_visit {run : Run} (h : run.visited.Nodup) (root : String) :
    (run.visit root).visited.Nodup := by
  rw [visited_visit]
  split
  · exact h
  · rename_i hfresh
    exact List.nodup_cons.2 ⟨hfresh, h⟩

theorem Run.invariant_nodup_visited (reader : Reader) :
    Run.Invariant reader fun run => run.visited.Nodup where
  note _ h := h
  visit root h := nodup_visit h root
  read path h := by rwa [visited_read]

/-- No struct is marked twice. -/
theorem Performs.nodup_visited {task : Task} {run run' : Run} {outcome : Outcome}
    (h : Performs ctx task run outcome run') (hrun : run.visited.Nodup) : run'.visited.Nodup :=
  h.invariant (Run.invariant_nodup_visited ctx.reader) hrun

/-! ### What a query reaches -/

/-- The structs that a query reaches. If each declaration names at most one struct, then an edge
from a struct with a block leads to a struct that was entered or for which an issue tells that it
lies too deep. All structs that were entered are reachable from the struct of the query. Each of
them has one block, unless it is one of `bare`, of which each has one issue about its body. Hence,
where no issue tells of the depth or of a body, the structs with blocks are those that are
reachable, each once. -/
theorem expand_reaches {query : List Char} {e : Expansion} (hexpand : expand ctx query = .ok e)
    (hone : ctx.NamesOneEach) :
    (∀ root ∈ e.entered.roots, ∀ target, e.run.Leads ctx root target →
        target ∈ e.run.visited ∨ ∃ depth, .depthLimit target depth ∈ e.issues) ∧
      ∃ root isPointer, ctx.catalog.resolve (Text.trim query) = .ok ⟨root, isPointer⟩ ∧
        (∀ target ∈ e.run.visited, Relation.ReflTransGen (e.run.Leads ctx) root target) ∧
        (∃ bare, (bare ++ e.entered.roots).Perm e.run.visited ∧ (bare ++ e.entered.roots).Nodup ∧
          List.Forall₂ (e.run.Lacks ctx) bare (e.issues.filter Problem.isBodyFault)) ∧
        ((∀ issue ∈ e.issues, issue.isDepthLimit = false ∧ issue.isBodyFault = false) →
          e.entered.roots.Nodup ∧
            ∀ target, target ∈ e.entered.roots ↔
              Relation.ReflTransGen (e.run.Leads ctx) root target) := by
  have haccepts : Accepts ctx.catalog query := by
    by_contra hrefused
    obtain ⟨p, hp⟩ := expand_eq_error_iff.2 hrefused
    rw [hexpand] at hp
    cases hp
  obtain ⟨e', hexpand', hperforms⟩ := performs_expand haccepts
  obtain rfl := Except.ok.inj (hexpand.symm.trans hexpand')
  obtain ⟨⟨root, isPointer⟩, hresolve, hdefined⟩ := haccepts
  have hanswered : e.run.Answered ctx.reader :=
    hperforms.answered fun entry hentry => absurd hentry List.not_mem_nil
  have hbodies : ∀ root text, e.run.bodyOf? ctx root = some text →
      ∀ d ∈ Declaration.all text, NamesOne ctx.catalog d :=
    fun _ _ hbody => hanswered.namesOne hone hbody
  obtain ⟨-, hleads⟩ := hperforms.reached (.refl _) hbodies trivial
  have hreachable : ∀ target ∈ e.run.visited,
      Relation.ReflTransGen (e.run.Leads ctx) root target := by
    intro target htarget
    rcases hperforms.reachable (.refl _) htarget with hnone | ⟨start, ⟨_, hstart⟩, hreach⟩
    · exact absurd hnone List.not_mem_nil
    · obtain ⟨rfl, -⟩ := Resolved.mk.inj (Except.ok.inj (hstart.symm.trans hresolve))
      exact hreach
  obtain ⟨bare, haccounts⟩ :=
    hperforms.exists_accounts ⟨_, hresolve, hdefined, List.not_mem_nil⟩ (.refl _)
  have hperm : (bare ++ e.entered.roots).Perm e.run.visited := by
    have hperm := haccounts.perm
    rwa [Outcome.roots, Run.start, List.append_nil] at hperm
  have hnodup : (bare ++ e.entered.roots).Nodup :=
    hperm.nodup_iff.2 (hperforms.nodup_visited List.nodup_nil)
  have hbare : List.Forall₂ (e.run.Lacks ctx) bare (e.issues.filter Problem.isBodyFault) := by
    obtain ⟨added, hadded, hbare⟩ := haccounts.issues
    rwa [Expansion.issues, hadded]
  refine ⟨hleads, root, isPointer, hresolve, hreachable, ⟨bare, hperm, hnodup, hbare⟩,
    fun hissues => ?_⟩
  -- No issue is left that could tell of a struct without a block.
  have hnone : e.issues.filter Problem.isBodyFault = [] :=
    List.filter_eq_nil_iff.2 fun issue hissue => by simp [(hissues issue hissue).2]
  rw [hnone, List.forall₂_nil_right_iff] at hbare
  rw [hbare, List.nil_append] at hperm hnodup
  refine ⟨hnodup, fun target => ⟨fun htarget => hreachable target (hperm.mem_iff.1 htarget),
    fun hreach => ?_⟩⟩
  have hroot := hperm.mem_iff.2 (hperforms.mem_visited hresolve)
  induction hreach with
  | refl => exact hroot
  | tail _ hedge ih =>
    rcases hleads _ ih _ hedge with hvisited | ⟨depth, hlimit⟩
    · exact hperm.mem_iff.2 hvisited
    · have hdepth := (hissues _ hlimit).1
      cases hdepth

/-! ### Two structs that name each other -/

/-- Structs of two files that name each other, one of them through an alias of a pointer, and one
that names another but is named by none. -/
def listFiles : List (Path × List Char) :=
  [(.ofString "list.h",
    ("struct list \x7b\n  node_ref head;\n  int size;\n\x7d;\n" ++
      "struct loose \x7b\n  list all;\n\x7d;\n").toList),
    (.ofString "node.h",
      ("typedef struct node \x7b\n  struct node *next;\n  list *owner;\n" ++
        "\x7d *node_ref;\n").toList)]

/-- The catalog of `listFiles`, with a reader of the same texts. -/
def listContext : Context :=
  ⟨(Scan.workspace 4096 listFiles).1, (Sources.ofList listFiles).reader, ⟨4, 8, 4096⟩⟩

theorem namesOneEach_listContext : listContext.NamesOneEach := by
  have hbodies : ∀ entry ∈ listContext.catalog.structs.entries,
      ∀ text ∈ (Sources.ofList listFiles).get? entry.2.path,
        ∀ body ∈ (bodyIn 4096 entry.1 entry.2.offset text).toOption,
          ∀ d ∈ Declaration.all body, NamesOne listContext.catalog d := by
    decide +kernel
  intro root definition hget path hsame reads text hreader body hbody
  refine hbodies (root, definition) (Table.get?_eq_some_iff.1 hget) text ?_ body ?_
  · have hholds : (Sources.ofList listFiles).reader reads path = .ok text := hreader
    rw [Option.mem_def, ← Sources.get?_congr _ hsame]
    exact Sources.reader_eq_ok_iff.1 hholds
  · exact Option.mem_def.2 (congrArg Except.toOption hbody)

/-- `expand_reaches` at a query of `listContext`: no issue is met, and the struct that is named by
none is not reached. -/
theorem expand_reaches_list :
    listContext.NamesOneEach ∧
      ∃ e, expand listContext "list".toList = .ok e ∧ e.issues = [] ∧
        e.entered.roots = ["list", "node"] ∧
        ∀ target, target ∈ ["list", "node"] ↔
          Relation.ReflTransGen (e.run.Leads listContext) "list" target := by
  have hrun : (expand listContext "list".toList).map (fun e => (e.issues, e.entered.roots)) =
      .ok ([], ["list", "node"]) := by
    decide +kernel
  have hquery : listContext.catalog.resolve (Text.trim "list".toList) = .ok ⟨"list", false⟩ := by
    decide +kernel
  cases hexpand : expand listContext "list".toList with
  | error p =>
    rw [hexpand] at hrun
    cases hrun
  | ok e =>
    rw [hexpand] at hrun
    obtain ⟨hissues, hroots⟩ := Prod.mk.inj (Except.ok.inj hrun)
    obtain ⟨-, root, isPointer, hresolve, -, -, hexact⟩ :=
      expand_reaches hexpand namesOneEach_listContext
    obtain ⟨rfl, -⟩ := Resolved.mk.inj (Except.ok.inj (hresolve.symm.trans hquery))
    obtain ⟨-, hreaches⟩ := hexact fun issue hissue => absurd (hissues ▸ hissue) List.not_mem_nil
    exact ⟨namesOneEach_listContext, e, rfl, hissues, hroots, hroots ▸ hreaches⟩

end Expansion

end StructUnfold
