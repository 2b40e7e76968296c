import StructUnfold.Proofs.Expansion.Rewriting
import StructUnfold.Proofs.Expansion.Semantics

/-!
# Bounds on an expansion

An expansion ends for every catalog, every reader and every limit, since the structs that have not
been entered become fewer with each one that is entered. For the same reason no struct has two
blocks, so there are at most as many blocks as structs. The limit on the depth is not needed for
this; it bounds how deep blocks nest.

* `Entered.roots`, `Entered.height`: the structs that have become blocks, and how deep these nest.
* `Performs.roots_newlyEntered`: each block is of a struct that was not entered before.
* `Performs.height_le`: blocks nest no deeper than the limit allows.
* `expand_bounded`: an expansion ends, with the bounds on its blocks.
-/

namespace StructUnfold.Expansion

/-! ### The blocks of an expansion -/

mutual

/-- The structs that have become blocks in an item, in order. -/
def Item.roots : Item → List String
  | .line _ => []
  | .nested _ root _ items => root :: rootsOf items

/-- The structs that have become blocks in items, in order. -/
def rootsOf : List Item → List String
  | [] => []
  | item :: items => item.roots ++ rootsOf items

end

mutual

/-- How deep blocks nest in an item. -/
def Item.height : Item → Nat
  | .line _ => 0
  | .nested _ _ _ items => heightOf items + 1

/-- How deep blocks nest in items. -/
def heightOf : List Item → Nat
  | [] => 0
  | item :: items => max item.height (heightOf items)

end

/-- The structs that have become blocks, in order. -/
def Entered.roots : Entered → List String
  | .block b => b.root :: rootsOf b.items
  | .leaf _ _ => []

/-- How deep blocks nest. -/
def Entered.height : Entered → Nat
  | .block b => heightOf b.items + 1
  | .leaf _ _ => 0

namespace Outcome

/-- The structs that have become blocks, in order. -/
def roots : Outcome → List String
  | .entered e => e.roots
  | .items is => rootsOf is
  | .item i => i.roots

/-- How deep blocks nest. -/
def height : Outcome → Nat
  | .entered e => e.height
  | .items is => heightOf is
  | .item i => i.height

end Outcome

variable {ctx : Context}

/-! ### No struct has two blocks -/

/-- Structs that are defined, each once, and were marked as entered between two states. -/
structure NewlyEntered (c : Catalog) (before after : List String) (roots : List String) : Prop where
  /-- No struct occurs twice. -/
  nodup : roots.Nodup
  /-- None was marked before. -/
  fresh : ∀ root ∈ roots, root ∉ before
  /-- All are marked after. -/
  marked : ∀ root ∈ roots, root ∈ after
  /-- All are defined. -/
  defined : ∀ root ∈ roots, c.structs.contains root = true

namespace NewlyEntered

variable {c : Catalog} {before mid after : List String} {roots later : List String}

theorem nil : NewlyEntered c before after [] :=
  ⟨List.nodup_nil, by simp, by simp, by simp⟩

/-- Structs that are entered one after the other differ. -/
theorem append (h : NewlyEntered c before mid roots) (hlater : NewlyEntered c mid after later)
    (hbefore : before <:+ mid) (hmid : mid <:+ after) :
    NewlyEntered c before after (roots ++ later) where
  nodup := List.nodup_append.2 ⟨h.nodup, hlater.nodup, fun root hroot other hother heq =>
    hlater.fresh other hother (heq ▸ h.marked root hroot)⟩
  fresh := by
    intro root hroot
    rcases List.mem_append.1 hroot with hroot | hroot
    · exact h.fresh root hroot
    · exact fun hmem => hlater.fresh root hroot (hbefore.mem hmem)
  marked := by
    intro root hroot
    rcases List.mem_append.1 hroot with hroot | hroot
    · exact hmid.mem (h.marked root hroot)
    · exact hlater.marked root hroot
  defined := by
    intro root hroot
    rcases List.mem_append.1 hroot with hroot | hroot
    · exact h.defined root hroot
    · exact hlater.defined root hroot

/-- The structs inside the block of a struct differ from that one, which was marked first. -/
theorem cons {root : String} (h : NewlyEntered c (root :: before) after roots)
    (hfresh : root ∉ before) (hmarked : root ∈ after) (hdefined : c.structs.contains root = true) :
    NewlyEntered c before after (root :: roots) where
  nodup := List.nodup_cons.2 ⟨fun hmem => h.fresh root hmem List.mem_cons_self, h.nodup⟩
  fresh := by
    intro other hother
    rcases List.mem_cons.1 hother with rfl | hother
    · exact hfresh
    · exact fun hmem => h.fresh other hother (List.mem_cons_of_mem _ hmem)
  marked := by
    intro other hother
    rcases List.mem_cons.1 hother with rfl | hother
    · exact hmarked
    · exact h.marked other hother
  defined := by
    intro other hother
    rcases List.mem_cons.1 hother with rfl | hother
    · exact hdefined
    · exact h.defined other hother

/-- There are no more of them than structs. -/
theorem length_le (h : NewlyEntered c before after roots) : roots.length ≤ c.structs.size := by
  have hsub : roots ⊆ c.structs.keys := fun root hroot =>
    Table.mem_keys_iff.2 (h.defined root hroot)
  have hle := h.nodup.length_le_of_subset hsub
  rwa [Table.keys, List.length_map] at hle

end NewlyEntered

/-- A task starts as in a query: nothing was entered before the struct of the query. -/
def Task.Starts (run : Run) : Task → Prop
  | .enter _ _ depth => depth = 0 → run.visited = []
  | _ => True

/-- Each block is of a struct that was not entered before the task. -/
theorem Performs.roots_newlyEntered {task : Task} {run run' : Run} {outcome : Outcome}
    (h : Performs ctx task run outcome run') (hstarts : task.Starts run) :
    NewlyEntered ctx.catalog run.visited run'.visited outcome.roots := by
  induction h with
  | leaf => exact .nil
  | @block symbol label depth run resolved text read items run' hopening hitems ih =>
    have hopens := opens_of_opening_eq hopening
    have hread := hopens.visited_eq_of_body
    have hdefined : ctx.catalog.structs.contains resolved.root = true := by
      cases hopens with
      | body _ _ hget => exact Table.contains_eq_true_iff.2 ⟨_, hget⟩
    have hfresh : resolved.root ∉ run.visited := by
      cases hopens with
      | body _ hfresh =>
        by_cases hdepth : depth = 0
        · rw [hstarts hdepth]
          exact List.not_mem_nil
        · exact hfresh (by omega)
    -- The struct is marked before those inside its block are entered.
    rw [Run.visited_visit, if_neg hfresh] at hread
    have hinner := ih trivial
    rw [hread] at hinner
    have hmarked : resolved.root ∈ run'.visited :=
      hitems.visited_suffix.mem (hread ▸ List.mem_cons_self)
    exact hinner.cons hfresh hmarked hdefined
  | nil => exact .nil
  | cons hitem hitems ihitem ihitems =>
    exact (ihitem trivial).append (ihitems trivial) hitem.visited_suffix hitems.visited_suffix
  | line => exact .nil
  | settle _ _ ih => exact ih trivial
  | @name depth done word rest run leaf cause mid item run' _ henter hrest ihenter ihrest =>
    have hnone := ihenter (by simp [Task.Starts])
    exact hnone.append (ihrest trivial) henter.visited_suffix hrest.visited_suffix
  | nest _ _ ih => exact ih (by simp [Task.Starts])

/-! ### Blocks nest no deeper than allowed -/

/-- How deep the blocks of a task may nest. The block of the query itself is not limited. -/
def Task.maxHeight (maxDepth : Nat) : Task → Nat
  | .enter _ _ depth => max 1 (maxDepth - depth)
  | .declarations depth _ => maxDepth - (depth + 1)
  | .words depth _ _ => maxDepth - (depth + 1)

/-- Blocks nest no deeper than the limit allows. -/
theorem Performs.height_le {task : Task} {run run' : Run} {outcome : Outcome}
    (h : Performs ctx task run outcome run') :
    outcome.height ≤ task.maxHeight ctx.options.maxDepth := by
  induction h with
  | leaf => exact Nat.zero_le _
  | @block symbol label depth run resolved text read items run' _ _ ih =>
    have hitems : heightOf items ≤ ctx.options.maxDepth - (depth + 1) := ih
    show heightOf items + 1 ≤ max 1 (ctx.options.maxDepth - depth)
    omega
  | nil => exact Nat.zero_le _
  | @cons depth d ds run item mid items run' _ _ ihitem ihitems =>
    have hitem : item.height ≤ ctx.options.maxDepth - (depth + 1) := ihitem
    have hitems : heightOf items ≤ ctx.options.maxDepth - (depth + 1) := ihitems
    exact Nat.max_le.2 ⟨hitem, hitems⟩
  | line => exact Nat.zero_le _
  | settle _ _ ih => exact ih
  | name _ _ _ _ ih => exact ih
  | @nest depth done word rest run b run' hverdict _ ih =>
    -- A struct is entered only where a level is left for its block.
    obtain ⟨root, henters⟩ := enters_of_verdict_eq_enter hverdict
    have hshallow := henters.shallow
    have hblock : heightOf b.items + 1 ≤ max 1 (ctx.options.maxDepth - (depth + 1)) := ih
    show heightOf b.items + 1 ≤ ctx.options.maxDepth - (depth + 1)
    omega

/-! ### Expansions are bounded -/

/-- The blocks of an expansion are bounded by the structs there are and by the limit on the
depth. -/
structure Entered.Bounded (ctx : Context) (e : Entered) : Prop where
  /-- No struct has two blocks. -/
  nodup : e.roots.Nodup
  /-- Blocks are of structs that are defined. -/
  defined : ∀ root ∈ e.roots, ctx.catalog.structs.contains root = true
  /-- There are no more blocks than structs. -/
  length_le : e.roots.length ≤ ctx.catalog.structs.size
  /-- Blocks nest no deeper than allowed, the block of the query itself aside. -/
  height_le : e.height ≤ max 1 ctx.options.maxDepth

/-- The blocks of a query that is performed are bounded. -/
theorem Performs.bounded {symbol label : List Char} {e : Entered} {run : Run}
    (h : Performs ctx (.enter symbol label 0) Run.start (.entered e) run) : e.Bounded ctx := by
  have hroots := h.roots_newlyEntered fun _ => rfl
  exact ⟨hroots.nodup, hroots.defined, hroots.length_le, h.height_le⟩

/-- An expansion ends: a query that is not refused performs its expansion, whose blocks are bounded
and which no larger bound on the nesting changes. The loop that rewrites a declaration in place ends
on every text and comes to the same as flattening the words of the declaration. -/
theorem expand_bounded (ctx : Context) (query : List Char) :
    ((Accepts ctx.catalog query ∧ ∃ e, expand ctx query = .ok e ∧
        Performs ctx (.enter (Text.trim query) (Text.trim query) 0) Run.start (.entered e.entered)
          e.run ∧
        e.entered.Bounded ctx ∧
        ∀ more, enterWithin ctx (ctx.catalog.structs.size + more) (Text.trim query)
          (Text.trim query) 0 Run.start = (e.entered, e.run)) ∨
      (¬Accepts ctx.catalog query ∧ ∃ p, expand ctx query = .error p)) ∧
    (∀ enter depth (c : Cursor) run,
      ∃ result, c.loop ctx enter depth (c.unscanned + 1) run = some result) ∧
    ∀ enter depth body run, ∀ d ∈ Declaration.all body,
      Cursor.loop ctx enter depth ((Declaration.text d).length + 1) ⟨Declaration.text d, 0⟩ run =
        some (flattenWords ctx enter depth [] d run) := by
  refine ⟨?_, fun enter depth c run => c.exists_loop_eq_some ctx enter depth run (by omega),
    fun enter depth body run d hd => Cursor.loop_of_mem_all ctx enter depth hd run⟩
  by_cases haccepts : Accepts ctx.catalog query
  · obtain ⟨e, hexpand, hperforms⟩ := performs_expand haccepts
    refine .inl ⟨haccepts, e, hexpand, hperforms, hperforms.bounded, fun more => ?_⟩
    obtain ⟨resolved, hresolve, hdefined⟩ := haccepts
    -- A larger bound performs the same task, which comes to one outcome only.
    have hmore := entersUpTo_enterWithin ctx (ctx.catalog.structs.size + more) (Text.trim query)
      (Text.trim query) 0 Run.start
      (Nat.le_trans (unvisited_le_size _ _) (Nat.le_add_right _ _))
      ⟨resolved, hresolve, hdefined, List.not_mem_nil⟩
    obtain ⟨hentered, hrun⟩ := hmore.unique hperforms
    exact Prod.ext (Outcome.entered.inj hentered) hrun
  · exact .inr ⟨haccepts, expand_eq_error_iff.2 haccepts⟩

end StructUnfold.Expansion
