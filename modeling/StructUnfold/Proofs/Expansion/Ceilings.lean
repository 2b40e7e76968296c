import StructUnfold.Proofs.Expansion.Fresh
import StructUnfold.Proofs.Source.Ceiling

/-!
# Ceilings that are not reached

Three ceilings bound an expansion: how deep blocks nest, how many bytes are examined to find a body
and how many hops of a chain of aliases are followed. A ceiling that is reached leaves an issue. An
expansion that leaves no such issue is the same under all higher ceilings.

* `Problem.IsCeiling`: a problem that arises because a ceiling was reached.
* `Context.Raises`: a context with the same texts and names, and no lower ceilings.
* `Catalog.resolve_of_le`, `verdict_of_raises`: the ceilings on hops and on the bytes of a body.
* `Performs.of_raises`: what is performed under the ceilings is performed under higher ones.
* `expand_of_raises`, `expand_of_higher_ceilings`: the expansion is the same.
-/

namespace StructUnfold

/-- A problem that arises because a ceiling was reached. -/
def Problem.IsCeiling : Problem → Prop
  | .depthLimit _ _ => True
  | .cyclicAlias _ _ => True
  | .malformedBlock _ (.scanLimit _ _) => True
  | _ => False

instance : DecidablePred Problem.IsCeiling := fun p => by
  unfold Problem.IsCeiling
  split <;> infer_instance

namespace Catalog

/-- A limit on chains of aliases is no higher than another; no limit is the highest. -/
def HopsLE : Option Nat → Option Nat → Prop
  | _, none => True
  | none, some _ => False
  | some hops, some hops' => hops ≤ hops'

instance : DecidableRel HopsLE
  | _, none => inferInstanceAs (Decidable True)
  | none, some _ => inferInstanceAs (Decidable False)
  | some hops, some hops' => inferInstanceAs (Decidable (hops ≤ hops'))

/-- A chain of aliases that comes to an end does so too when more hops are allowed. -/
theorem follow?_of_le {aliases : Table Alias} {hops hops' : Nat} (hle : hops ≤ hops')
    {name : String} {isPointer : Bool} {found : Resolved}
    (h : follow? aliases hops name isPointer = some found) :
    follow? aliases hops' name isPointer = some found := by
  induction hops generalizing hops' name isPointer with
  | zero =>
    rw [follow?] at h ⊢
    cases hget : aliases.get? name with
    | none => rwa [hget] at h
    | some a =>
      rw [hget] at h
      cases h
  | succ hops ih =>
    obtain ⟨more, rfl⟩ : ∃ more, hops' = more + 1 := ⟨hops' - 1, by omega⟩
    rw [follow?] at h ⊢
    cases hget : aliases.get? name with
    | none => rwa [hget] at h
    | some a =>
      rw [hget] at h
      exact ih (Nat.le_of_succ_le_succ hle) h

variable {c d : Catalog}

theorem aliasHopBound_le (haliases : d.aliases = c.aliases)
    (hhops : HopsLE c.maxAliasHops d.maxAliasHops) : c.aliasHopBound ≤ d.aliasHopBound := by
  rw [aliasHopBound, aliasHopBound, haliases]
  cases hc : c.maxAliasHops with
  | none =>
    rw [hc] at hhops
    cases hd : d.maxAliasHops with
    | none => exact Nat.le_refl _
    | some hops' =>
      rw [hd] at hhops
      exact hhops.elim
  | some hops =>
    rw [hc] at hhops
    cases hd : d.maxAliasHops with
    | none => exact Nat.min_le_right _ _
    | some hops' =>
      rw [hd] at hhops
      have hle : hops ≤ hops' := hhops
      dsimp only
      omega

/-- A symbol that comes down to a name does so too when more hops are allowed. -/
theorem resolve_of_le (haliases : d.aliases = c.aliases)
    (hhops : HopsLE c.maxAliasHops d.maxAliasHops) {symbol : List Char} {resolved : Resolved}
    (h : c.resolve symbol = .ok resolved) : d.resolve symbol = .ok resolved := by
  rw [resolve] at h ⊢
  split at h
  · rename_i hfollow
    rw [haliases, follow?_of_le (aliasHopBound_le haliases hhops) hfollow]
    exact h
  · cases h

/-- A symbol that comes down to no name has too long a chain of aliases. -/
theorem isCeiling_of_resolve {symbol : List Char} {issue : Problem}
    (h : c.resolve symbol = .error issue) : issue.IsCeiling := by
  obtain ⟨name, bound, rfl⟩ := exists_of_resolve_eq_error h
  exact trivial

end Catalog

namespace Expansion

/-- A context has the same texts and names as another and no lower ceilings. -/
structure Context.Raises (ctx ctx' : Context) : Prop where
  /-- The structs. -/
  structs : ctx'.catalog.structs = ctx.catalog.structs
  /-- The aliases. -/
  aliases : ctx'.catalog.aliases = ctx.catalog.aliases
  /-- The names that could not be parsed. -/
  unparseable : ctx'.catalog.unparseable = ctx.catalog.unparseable
  /-- No fewer hops of a chain of aliases are followed. -/
  hops : Catalog.HopsLE ctx.catalog.maxAliasHops ctx'.catalog.maxAliasHops
  /-- The texts. -/
  reader : ctx'.reader = ctx.reader
  /-- Blocks may nest no less deep. -/
  depth : ctx.options.maxDepth ≤ ctx'.options.maxDepth
  /-- No fewer bytes are examined to find a body. -/
  scan : ctx.options.maxScan ≤ ctx'.options.maxScan

variable {ctx ctx' : Context} {s : Sources}

theorem Context.Raises.resolve (h : ctx.Raises ctx') {symbol : List Char} {resolved : Resolved}
    (hresolve : ctx.catalog.resolve symbol = .ok resolved) :
    ctx'.catalog.resolve symbol = .ok resolved :=
  Catalog.resolve_of_le h.aliases h.hops hresolve

/-- What is done about a word does not change with the ceilings unless one of them is reached. -/
theorem verdict_of_raises (h : ctx.Raises ctx') {depth : Nat} {word : List Char}
    {rest : Declaration} {visited : List String}
    (hissue : ∀ text issue, verdict ctx depth word rest visited = .settle text (some issue) →
      ¬issue.IsCeiling) :
    verdict ctx' depth word rest visited = verdict ctx depth word rest visited := by
  obtain ⟨v, hverdict⟩ : ∃ v, verdict ctx depth word rest visited = v := ⟨_, rfl⟩
  rw [hverdict] at hissue ⊢
  refine verdict_eq_iff.2 ?_
  have hstructs : ∀ root, ctx'.catalog.structs.contains root = ctx.catalog.structs.contains root :=
    fun root => by rw [h.structs]
  -- Whatever is decided is decided for the same reason, unless the reason is a ceiling.
  cases verdict_eq_iff.1 hverdict with
  | unnamed hname => exact .unnamed hname
  | @unresolved issue hname hresolve =>
    exact absurd (Catalog.isCeiling_of_resolve hresolve) (hissue word issue rfl)
  | visited hname hresolve hvisited => exact .visited hname (h.resolve hresolve) hvisited
  | undefined hname hresolve hfresh hundefined hunexpandable =>
    refine .undefined hname (h.resolve hresolve) hfresh ((hstructs _).trans hundefined) ?_
    rw [← hunexpandable, unexpandable?, unexpandable?, h.unparseable]
  | deep => exact absurd trivial (hissue _ _ rfl)
  | enter hname hresolve hfresh hdefined hshallow =>
    exact .enter hname (h.resolve hresolve) hfresh ((hstructs _).trans hdefined)
      (Nat.lt_of_lt_of_le hshallow h.depth)

/-- The body of a struct that its text registers is read, or found missing, all the same. -/
theorem body_of_raises (h : ctx.Raises ctx') (hreader : ctx.reader = s.reader) {run : Run}
    (hrun : run.Sound s) {root : String} {definition : StructDefinition} {text : List Char}
    (htext : s.get? definition.path = some text)
    (hregisters : Scan.Registers text root definition.offset)
    (hissue : ∀ issue, (body ctx root definition run).1 = .error issue → ¬issue.IsCeiling) :
    body ctx' root definition run = body ctx root definition run := by
  obtain ⟨hok, -⟩ := hrun.read htext
  rw [body, hreader] at hissue
  rw [body, body, h.reader, hreader]
  revert hissue hok
  obtain ⟨answer, read⟩ := run.read s.reader definition.path
  intro hissue hok
  obtain rfl : answer = .ok text := hok
  obtain ⟨rest, hbrace⟩ := hregisters.exists_brace
  dsimp only at hissue ⊢
  have hbody : bodyIn ctx'.options.maxScan root definition.offset text =
      bodyIn ctx.options.maxScan root definition.offset text := by
    have hextract := @Block.extract_of_le _ _ _ (.body ctx.options.maxScan) _ h.scan hbrace rfl
      (Nat.zero_le _) fun at' limit hlimit => by
        rw [bodyIn, hlimit] at hissue
        exact hissue _ rfl trivial
    rw [bodyIn, bodyIn, ← hextract]
    rfl
  rw [hbody]

/-- What is found where a struct is to be entered does not change with the ceilings unless one of
them is reached. -/
theorem opening_of_raises (h : ctx.Raises ctx') (hreader : ctx.reader = s.reader)
    (hfresh : ctx.catalog.FreshIn s) {symbol : List Char} {depth : Nat} {run read : Run}
    {found : Opening} (hrun : run.Sound s) (hopening : opening ctx symbol depth run = (found, read))
    (hissue : ∀ issue ∈ read.issues, ¬issue.IsCeiling) :
    opening ctx' symbol depth run = (found, read) := by
  rw [← hopening]
  rw [opening] at hopening ⊢
  rw [opening]
  cases hresolve : ctx.catalog.resolve symbol with
  | error issue =>
    rw [hresolve] at hopening
    cases hopening
    exact absurd (Catalog.isCeiling_of_resolve hresolve) (hissue issue (by simp [Run.note]))
  | ok resolved =>
    rw [hresolve] at hopening
    rw [h.resolve hresolve]
    dsimp only at hopening ⊢
    by_cases hvisited : 0 < depth ∧ resolved.root ∈ run.visited
    · rw [if_pos hvisited, if_pos hvisited]
    rw [if_neg hvisited] at hopening
    rw [if_neg hvisited, if_neg hvisited, h.structs]
    cases hget : ctx.catalog.structs.get? resolved.root with
    | none => rfl
    | some definition =>
      rw [hget] at hopening
      dsimp only at hopening ⊢
      obtain ⟨text, htext, hregisters⟩ := hfresh _ _ hget
      rw [body_of_raises h hreader (hrun.visit resolved.root) htext hregisters]
      -- A body that cannot be read is told as an issue of the run, so it is no ceiling.
      intro issue hbody
      revert hopening hbody
      obtain ⟨answer, after⟩ := body ctx resolved.root definition (run.visit resolved.root)
      intro hopening hbody
      obtain rfl : answer = .error issue := hbody
      cases hopening
      exact hissue issue (by simp [Run.note])

/-- What is performed without reaching a ceiling is performed under higher ceilings, with the same
outcome. -/
theorem Performs.of_raises {task : Task} {run run' : Run} {outcome : Outcome}
    (hperforms : Performs ctx task run outcome run') (h : ctx.Raises ctx')
    (hreader : ctx.reader = s.reader) (hfresh : ctx.catalog.FreshIn s) (hrun : run.Sound s)
    (hissue : ∀ issue ∈ run'.issues, ¬issue.IsCeiling) : Performs ctx' task run outcome run' := by
  -- Issues are kept, so no step before the last one has reached a ceiling either.
  induction hperforms with
  | leaf hopening => exact .leaf (opening_of_raises h hreader hfresh hrun hopening hissue)
  | block hopening hitems ih =>
    refine .block (opening_of_raises h hreader hfresh hrun hopening fun issue hmem => ?_)
      (ih ((opens_of_opening_eq hopening).sound hreader hfresh hrun) hissue)
    exact hissue issue (hitems.issues_isPrefix.subset hmem)
  | nil => exact .nil
  | cons hitem hitems ihitem ihitems =>
    refine .cons (ihitem hrun fun issue hmem => ?_)
      (ihitems (hitem.sound hreader hfresh hrun) hissue)
    exact hissue issue (hitems.issues_isPrefix.subset hmem)
  | line => exact .line
  | @settle depth done word rest run text issue item run' hverdict hrest ih =>
    have hsame := @verdict_of_raises _ _ h depth word rest run.visited fun text' issue' heq => by
      obtain ⟨-, rfl⟩ := Verdict.settle.inj (hverdict.symm.trans heq)
      exact hissue issue' (hrest.issues_isPrefix.subset (by simp [Run.noteAll]))
    refine .settle (hsame.trans hverdict) (ih (hrun.noteAll fun p hp => ?_) hissue)
    obtain rfl := Option.mem_toList.1 hp
    exact not_isStale_of_verdict hverdict
  | @name depth done word rest run leaf cause mid item run' hverdict henter hrest ihenter ihrest =>
    have hsame := @verdict_of_raises _ _ h depth word rest run.visited fun text issue heq => by
      rw [hverdict] at heq
      cases heq
    refine .name (hsame.trans hverdict) (ihenter hrun fun issue hmem => ?_)
      (ihrest (henter.sound hreader hfresh hrun) hissue)
    exact hissue issue (hrest.issues_isPrefix.subset hmem)
  | @nest depth done word rest run b run' hverdict henter ihenter =>
    have hsame := @verdict_of_raises _ _ h depth word rest run.visited fun text issue heq => by
      rw [hverdict] at heq
      cases heq
    exact .nest (hsame.trans hverdict) (ihenter hrun hissue)

/-- A query whose expansion reaches no ceiling has the same expansion under higher ceilings. -/
theorem expand_of_raises (h : ctx.Raises ctx') (hreader : ctx.reader = s.reader)
    (hfresh : ctx.catalog.FreshIn s) {query : List Char} {e : Expansion}
    (hexpand : expand ctx query = .ok e) (hissue : ∀ issue ∈ e.issues, ¬issue.IsCeiling) :
    expand ctx' query = .ok e := by
  obtain ⟨⟨resolved, hresolve, hdefined⟩, hperforms⟩ := performs_of_expand hexpand
  have haccepts' : Accepts ctx'.catalog query :=
    ⟨resolved, h.resolve hresolve, by rw [h.structs]; exact hdefined⟩
  obtain ⟨e₂, he₂, hperforms₂⟩ := performs_expand haccepts'
  obtain ⟨hentered, hrun⟩ :=
    (hperforms.of_raises h hreader hfresh (.start s) hissue).unique hperforms₂
  obtain ⟨entered, run⟩ := e
  obtain ⟨entered₂, run₂⟩ := e₂
  obtain rfl := Outcome.entered.inj hentered
  obtain rfl : run = run₂ := hrun
  exact he₂

/-- **Ceilings that are not reached.** Scan a workspace and expand a query from the same texts. If
the expansion succeeds and leaves no issue of blocks that nest too deep, of a body that is too long
to be searched for or of a chain of aliases that is too long, the expansion under ceilings that are
all at least as high succeeds with the same text and the same issues. -/
theorem expand_of_higher_ceilings (maxScan : Nat) (files : List (Path × List Char))
    (hops hops' : Option Nat) (options options' : Options) (query : List Char) :
    let c := (Scan.workspace maxScan files).1
    let ctx : Context := ⟨c.setMaxAliasHops hops, (Sources.ofList files).reader, options⟩
    let ctx' : Context := ⟨c.setMaxAliasHops hops', (Sources.ofList files).reader, options'⟩
    Catalog.HopsLE ctx.catalog.maxAliasHops ctx'.catalog.maxAliasHops →
      options.maxDepth ≤ options'.maxDepth → options.maxScan ≤ options'.maxScan →
      options'.indentWidth = options.indentWidth →
      ∀ e, expand ctx query = .ok e → (∀ issue ∈ e.issues, ¬issue.IsCeiling) →
        ∃ e', expand ctx' query = .ok e' ∧
          e'.text options'.indentWidth = e.text options.indentWidth ∧ e'.issues = e.issues := by
  intro c ctx ctx' hhops hdepth hscan hindent e hexpand hissue
  have hraises : ctx.Raises ctx' := ⟨rfl, rfl, rfl, hhops, rfl, hdepth, hscan⟩
  have hfresh : ctx.catalog.FreshIn (Sources.ofList files) :=
    fun name d hget => Scan.freshIn_workspace maxScan files name d hget
  exact ⟨e, expand_of_raises hraises rfl hfresh hexpand hissue, by rw [hindent], rfl⟩

/-- A struct that names another one through two aliases, and a third one that is defined nowhere. -/
def chainFiles : List (Path × List Char) :=
  [(.ofString "chain.h",
    ("struct chain \x7b\n  link_ref head;\n  ghost_ref none;\n\x7d;\n" ++
      "struct link \x7b\n  int size;\n\x7d;\n" ++ "typedef struct link link_type;\n" ++
      "typedef struct link_type *link_ref;\n" ++ "typedef struct ghost *ghost_ref;\n").toList)]

/-- `expand_of_higher_ceilings` at `chainFiles`: two hops, two levels and 38 bytes are as much as is
needed, and with more of each nothing changes. -/
theorem expand_chainFiles :
    let c := (Scan.workspace 4096 chainFiles).1
    let low : Context :=
      ⟨c.setMaxAliasHops (some 2), (Sources.ofList chainFiles).reader, ⟨4, 2, 38⟩⟩
    let high : Context :=
      ⟨c.setMaxAliasHops none, (Sources.ofList chainFiles).reader, ⟨4, 64, 4096⟩⟩
    ∃ e, expand low "chain".toList = .ok e ∧ e.issues = [.unresolvedSymbol "ghost"] ∧
      ∃ e', expand high "chain".toList = .ok e' ∧ e'.text 4 = e.text 4 ∧ e'.issues = e.issues := by
  intro c low high
  have hrun : (expand low "chain".toList).map Expansion.issues =
      .ok [.unresolvedSymbol "ghost"] := by
    decide +kernel
  cases hexpand : expand low "chain".toList with
  | error p =>
    rw [hexpand] at hrun
    cases hrun
  | ok e =>
    rw [hexpand] at hrun
    have hissues : e.issues = [.unresolvedSymbol "ghost"] := Except.ok.inj hrun
    refine ⟨e, rfl, hissues, ?_⟩
    exact expand_of_higher_ceilings 4096 chainFiles (some 2) none ⟨4, 2, 38⟩ ⟨4, 64, 4096⟩
      "chain".toList trivial (by decide) (by decide) rfl e hexpand (by rw [hissues]; decide)

end Expansion

end StructUnfold
