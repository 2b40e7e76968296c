import Mathlib.Data.Option.Basic
import StructUnfold.Proofs.Expansion.Fresh

/-!
# Runs side by side

Two workspaces that know the same names take the same step wherever a word is looked at, and enter
the same structs as long as the bodies of these are found in both. So their expansions can be told
side by side: what differs is what the declarations of these bodies are.

* `Problem.kind`: the kind of a problem.
* `Catalog.SameNames`, `Catalog.members?`: what two workspaces have in common.
* `Context.Beside`: two contexts whose workspaces have corresponding members.
* `Run.Parallels`, `Verdict.Parallels`: the states of two runs, and what is to be done in them.
* `verdict_same`, `opening_beside`: one step in both.
-/

namespace StructUnfold

/-- The kinds of problems. -/
inductive Problem.Kind where
  /-- A source file could not be read. -/
  | fileRead
  /-- A statement names no struct or no alias. -/
  | malformedAliasStatement
  /-- A struct is defined nowhere. -/
  | unresolvedSymbol
  /-- A chain of aliases is longer than allowed. -/
  | cyclicAlias
  /-- A name stands for no struct. -/
  | notFound
  /-- A name could not be parsed. -/
  | unparseable
  /-- The block of a struct could not be extracted. -/
  | malformedBlock
  /-- A struct lies too deep. -/
  | depthLimit
deriving DecidableEq, Repr

/-- The kind of a problem. -/
def Problem.kind : Problem → Kind
  | .fileRead _ _ => .fileRead
  | .malformedAliasStatement _ _ => .malformedAliasStatement
  | .unresolvedSymbol _ => .unresolvedSymbol
  | .cyclicAlias _ _ => .cyclicAlias
  | .notFound _ => .notFound
  | .unparseable _ _ _ => .unparseable
  | .malformedBlock _ _ => .malformedBlock
  | .depthLimit _ _ => .depthLimit

namespace Catalog

/-- Two catalogs know the same structs, and each symbol comes down to the same in both. -/
structure SameNames (c d : Catalog) : Prop where
  /-- The same names are structs. -/
  structs : d.structs.keys = c.structs.keys
  /-- Symbols come down to the same. -/
  resolve : ∀ symbol, d.resolve symbol = c.resolve symbol

/-- The declarations in the body of a struct, where its body is found in the text of its file. -/
def members? (c : Catalog) (s : Sources) (maxScan : Nat) (name : String) :
    Option (List Declaration) := do
  let definition ← c.structs.get? name
  let text ← s.get? definition.path
  (Expansion.bodyIn maxScan name definition.offset text).toOption.map Declaration.all

variable {c d : Catalog}

/-- Catalogs with the same names of structs and the same aliases know the same names. -/
theorem SameNames.of_aliases (hstructs : d.structs.keys = c.structs.keys)
    (haliases : d.aliases.entries = c.aliases.entries) (hhops : d.maxAliasHops = c.maxAliasHops) :
    c.SameNames d := by
  obtain ⟨structs, ⟨entries, hsorted⟩, unparseable, hops⟩ := c
  obtain ⟨structs', ⟨entries', hsorted'⟩, unparseable', hops'⟩ := d
  cases haliases
  cases hhops
  exact ⟨hstructs, fun _ => rfl⟩

theorem SameNames.contains (h : c.SameNames d) (name : String) :
    d.structs.contains name = c.structs.contains name := by
  rw [Bool.eq_iff_iff, ← Table.mem_keys_iff, ← Table.mem_keys_iff, h.structs]

/-- If the same names could not be parsed, an entry under one of two names is found in both catalogs
or in none. -/
theorem orElse_unparseable (h : d.unparseable.keys = c.unparseable.keys) (name root : String) :
    (∃ entry entry', (c.unparseable.get? name <|> c.unparseable.get? root) = some entry ∧
      (d.unparseable.get? name <|> d.unparseable.get? root) = some entry') ∨
    (c.unparseable.get? name <|> c.unparseable.get? root) = none ∧
      (d.unparseable.get? name <|> d.unparseable.get? root) = none := by
  have hcontains : ∀ n, (d.unparseable.get? n).isSome = (c.unparseable.get? n).isSome := by
    intro n
    show d.unparseable.contains n = c.unparseable.contains n
    rw [Bool.eq_iff_iff, ← Table.mem_keys_iff, ← Table.mem_keys_iff, h]
  have hsome : (d.unparseable.get? name <|> d.unparseable.get? root).isSome =
      (c.unparseable.get? name <|> c.unparseable.get? root).isSome := by
    simp only [Option.orElse_eq_orElse, Option.orElse_eq_or, Option.isSome_or, hcontains]
  by_cases hentry : (c.unparseable.get? name <|> c.unparseable.get? root).isSome = true
  · obtain ⟨entry, hget⟩ := Option.isSome_iff_exists.1 hentry
    obtain ⟨entry', hget'⟩ := Option.isSome_iff_exists.1 (hsome.trans hentry)
    exact .inl ⟨entry, entry', hget, hget'⟩
  · rw [Bool.not_eq_true] at hentry
    have hentry' := hsome.trans hentry
    rw [Option.isSome_eq_false_iff, Option.isNone_iff_eq_none] at hentry hentry'
    exact .inr ⟨hentry, hentry'⟩

end Catalog

namespace Expansion

/-! ### Contexts and states -/

/-- The workspaces of two contexts know the same names, and the members of each struct, as they
stand in the texts of both, are related. -/
structure Context.Beside (R : String → List Declaration → List Declaration → Prop) (s s' : Sources)
    (ctx ctx' : Context) : Prop where
  /-- The same names are known. -/
  names : ctx.catalog.SameNames ctx'.catalog
  /-- The members of a struct are found in both workspaces or in none, and related. -/
  members : ∀ name ∈ ctx.catalog.structs.keys,
    Option.Rel (R name) (ctx.catalog.members? s ctx.options.maxScan name)
      (ctx'.catalog.members? s' ctx.options.maxScan name)
  /-- The first context reads the texts of the first workspace. -/
  reader : ctx.reader = s.reader
  /-- The second context reads those of the second. -/
  reader' : ctx'.reader = s'.reader
  /-- The limits. -/
  options : ctx'.options = ctx.options
  /-- Each struct stands in its text. -/
  fresh : ctx.catalog.FreshIn s
  /-- So it does in the second workspace. -/
  fresh' : ctx'.catalog.FreshIn s'

/-- Both workspaces define the same names in a way that could not be parsed. A member with such a
type stays as it is in any case, but an issue says so. -/
def Context.SameUnparseable (ctx ctx' : Context) : Prop :=
  ctx'.catalog.unparseable.keys = ctx.catalog.unparseable.keys

/-- A state stands beside another one: the same structs are entered, and issues of the same kinds
are met, as far as `p` holds. -/
structure Run.Parallels (p : Prop) (run run' : Run) : Prop where
  /-- The structs entered. -/
  visited : run'.visited = run.visited
  /-- The kinds of the issues met. -/
  issues : p → run'.issues.map Problem.kind = run.issues.map Problem.kind

namespace Run.Parallels

variable {p : Prop} {run run' : Run}

theorem start : Run.start.Parallels p Run.start :=
  ⟨rfl, fun _ => rfl⟩

theorem refl (p : Prop) (run : Run) : run.Parallels p run :=
  ⟨rfl, fun _ => rfl⟩

theorem noteAll (h : run.Parallels p run') {issues issues' : List Problem}
    (hkinds : p → issues'.map Problem.kind = issues.map Problem.kind) :
    (run.noteAll issues).Parallels p (run'.noteAll issues') := by
  refine ⟨h.visited, fun hp => ?_⟩
  rw [Run.noteAll, Run.noteAll, List.map_append, List.map_append, h.issues hp, hkinds hp]

theorem note (h : run.Parallels p run') {issue issue' : Problem}
    (hkind : issue'.kind = issue.kind) : (run.note issue).Parallels p (run'.note issue') :=
  h.noteAll fun _ => congrArg (fun kind => [kind]) hkind

theorem visit (h : run.Parallels p run') (root : String) :
    (run.visit root).Parallels p (run'.visit root) := by
  refine ⟨?_, ?_⟩
  · rw [Run.visited_visit, Run.visited_visit, h.visited]
  · rw [Run.issues_visit, Run.issues_visit]
    exact h.issues

/-- Reading a body enters no struct and notes no issue. -/
theorem body (h : run.Parallels p run') (ctx ctx' : Context) (root : String)
    (d d' : StructDefinition) :
    (Expansion.body ctx root d run).2.Parallels p (Expansion.body ctx' root d' run').2 := by
  refine ⟨?_, ?_⟩
  · rw [visited_body, visited_body, h.visited]
  · rw [issues_body, issues_body]
    exact h.issues

end Run.Parallels

/-- The same is to be done about a word, but the issue that may be noted need only be of the same
kind, as far as `p` holds. -/
inductive Verdict.Parallels (p : Prop) : Verdict → Verdict → Prop where
  /-- It becomes the same text. -/
  | settle (text : List Char) {issue issue' : Option Problem}
    (hkinds : p → issue'.toList.map Problem.kind = issue.toList.map Problem.kind) :
    Parallels p (.settle text issue) (.settle text issue')
  /-- The struct it names is entered. -/
  | enter : Parallels p .enter .enter

/-! ### One step -/

variable {ctx ctx' : Context} {s s' : Sources}

theorem unexpandable?_same (h : ctx.SameUnparseable ctx') (name : List Char) (root : String) :
    (unexpandable? ctx'.catalog name root).toList.map Problem.kind =
      (unexpandable? ctx.catalog name root).toList.map Problem.kind := by
  rw [unexpandable?, unexpandable?]
  rcases Catalog.orElse_unparseable h (String.ofList name) root with
    ⟨entry, entry', hentry, hentry'⟩ | ⟨hnone, hnone'⟩
  · rw [hentry, hentry']
    rfl
  · rw [hnone, hnone']

/-- The same is to be done about a word in both workspaces. -/
theorem verdict_same (hnames : ctx.catalog.SameNames ctx'.catalog)
    (hoptions : ctx'.options = ctx.options) {p : Prop} (hp : p → ctx.SameUnparseable ctx')
    (depth : Nat) (word : List Char) (rest : Declaration) (visited : List String) :
    (verdict ctx depth word rest visited).Parallels p (verdict ctx' depth word rest visited) := by
  rw [verdict, verdict, hoptions]
  dsimp only
  rw [hnames.resolve]
  -- The same branch is taken in both workspaces. Only the issue of a name that could not be parsed
  -- depends on more than the names.
  split
  · exact .settle word fun _ => rfl
  cases ctx.catalog.resolve (nameIn word) with
  | error issue => exact .settle word fun _ => rfl
  | ok resolved =>
    dsimp only
    rw [hnames.contains]
    split
    · exact .settle _ fun _ => rfl
    split
    · exact .settle word fun h => unexpandable?_same (hp h) _ _
    split
    · exact .settle _ fun _ => rfl
    · exact .enter

/-- A struct is entered for a word in both workspaces or in none. -/
theorem verdict_eq_enter (hnames : ctx.catalog.SameNames ctx'.catalog)
    (hoptions : ctx'.options = ctx.options) {depth : Nat} {word : List Char} {rest : Declaration}
    {visited : List String} (h : verdict ctx' depth word rest visited = .enter) :
    verdict ctx depth word rest visited = .enter := by
  have hboth := verdict_same hnames hoptions False.elim depth word rest visited
  rw [h] at hboth
  generalize verdict ctx depth word rest visited = v at hboth
  cases hboth
  rfl

/-- The body of a struct of a fresh catalog is the one in which its members stand. -/
theorem exists_body_eq {run : Run} (hrun : run.Sound s) (hreader : ctx.reader = s.reader)
    (hfresh : ctx.catalog.FreshIn s) {root : String} {d : StructDefinition}
    (hget : ctx.catalog.structs.get? root = some d) :
    (∃ text, (body ctx root d run).1 = .ok text ∧
      ctx.catalog.members? s ctx.options.maxScan root = some (Declaration.all text)) ∨
    ∃ e, (body ctx root d run).1 = .error (.malformedBlock d.path e) ∧
      ctx.catalog.members? s ctx.options.maxScan root = none := by
  obtain ⟨text, htext, -⟩ := hfresh _ _ hget
  obtain ⟨hok, -⟩ := hrun.read htext
  have hmembers : ctx.catalog.members? s ctx.options.maxScan root =
      (bodyIn ctx.options.maxScan root d.offset text).toOption.map Declaration.all := by
    rw [Catalog.members?, hget]
    show (s.get? d.path).bind _ = _
    rw [htext]
    rfl
  rw [body, hreader, hmembers]
  revert hok
  obtain ⟨answer, read⟩ := run.read s.reader d.path
  rintro rfl
  dsimp only
  cases bodyIn ctx.options.maxScan root d.offset text with
  | ok text => exact .inl ⟨text, rfl, rfl⟩
  | error e => exact .inr ⟨e, rfl, rfl⟩

/-- What is found where a struct is to be entered is found in the other workspace: no body in
either, or bodies with related declarations. -/
inductive Opening.Beside (R : String → List Declaration → List Declaration → Prop) :
    Opening → Opening → Prop where
  /-- No body. -/
  | leaf (name : List Char) (cause : LeafCause) : Beside R (.leaf name cause) (.leaf name cause)
  /-- Bodies of the same struct. -/
  | body (resolved : Resolved) {text text' : List Char}
    (h : R resolved.root (Declaration.all text) (Declaration.all text')) :
    Beside R (.body resolved text) (.body resolved text')

variable {R : String → List Declaration → List Declaration → Prop}

/-- The body of a struct is read in both workspaces or in none. -/
theorem body_beside (h : ctx.Beside R s s' ctx') {run run' : Run} (hrun : run.Sound s)
    (hrun' : run'.Sound s') {root : String} {d d' : StructDefinition}
    (hget : ctx.catalog.structs.get? root = some d)
    (hget' : ctx'.catalog.structs.get? root = some d') :
    (∃ text text', (body ctx root d run).1 = .ok text ∧ (body ctx' root d' run').1 = .ok text' ∧
      R root (Declaration.all text) (Declaration.all text')) ∨
    ∃ issue issue', (body ctx root d run).1 = .error issue ∧
      (body ctx' root d' run').1 = .error issue' ∧ issue'.kind = issue.kind := by
  have hkey : root ∈ ctx.catalog.structs.keys :=
    Table.mem_keys_iff.2 (Table.contains_eq_true_iff.2 ⟨d, hget⟩)
  -- The members of the struct are found in both workspaces or in none, and so is its body.
  have hmembers := h.members root hkey
  have hbody := exists_body_eq hrun h.reader h.fresh hget
  have hbody' := exists_body_eq hrun' h.reader' h.fresh' hget'
  rw [h.options] at hbody'
  rcases hbody with ⟨text, htext, hmem⟩ | ⟨e, he, hmem⟩
  · rw [hmem] at hmembers
    rcases hbody' with ⟨text', htext', hmem'⟩ | ⟨e', he', hmem'⟩
    · rw [hmem'] at hmembers
      cases hmembers with
      | some hall => exact .inl ⟨text, text', htext, htext', hall⟩
    · rw [hmem'] at hmembers
      cases hmembers
  · rw [hmem] at hmembers
    rcases hbody' with ⟨text', htext', hmem'⟩ | ⟨e', he', hmem'⟩
    · rw [hmem'] at hmembers
      cases hmembers
    · exact .inr ⟨_, _, he, he', rfl⟩

/-- A struct is entered alike in both workspaces. -/
theorem opening_beside (h : ctx.Beside R s s' ctx') {p : Prop} {run run' : Run}
    (hrun : run.Sound s) (hrun' : run'.Sound s') (hparallel : run.Parallels p run')
    {symbol symbol' : List Char} {resolved : Resolved}
    (hresolve : ctx.catalog.resolve symbol = .ok resolved)
    (hresolve' : ctx.catalog.resolve symbol' = .ok resolved) (depth : Nat) :
    (opening ctx symbol depth run).1.Beside R (opening ctx' symbol' depth run').1 ∧
      (opening ctx symbol depth run).2.Parallels p (opening ctx' symbol' depth run').2 := by
  rw [opening, opening, h.names.resolve, hresolve, hresolve', hparallel.visited]
  dsimp only
  -- Both runs have entered the same structs, so the struct is met again in both or in none.
  by_cases hvisited : 0 < depth ∧ resolved.root ∈ run.visited
  · rw [if_pos hvisited, if_pos hvisited]
    exact ⟨.leaf _ _, hparallel⟩
  rw [if_neg hvisited, if_neg hvisited]
  have hvisit := hparallel.visit resolved.root
  have hcontains := h.names.contains resolved.root
  cases hget : ctx.catalog.structs.get? resolved.root with
  | none =>
    have hget' : ctx'.catalog.structs.get? resolved.root = none := by
      rw [← Table.contains_eq_false_iff] at hget ⊢
      rw [hcontains, hget]
    rw [hget']
    exact ⟨.leaf _ _, hvisit.note rfl⟩
  | some d =>
    obtain ⟨d', hget'⟩ : ∃ d', ctx'.catalog.structs.get? resolved.root = some d' := by
      rw [← Table.contains_eq_true_iff, hcontains, Table.contains_eq_true_iff]
      exact ⟨d, hget⟩
    have hread := hvisit.body ctx ctx' resolved.root d d'
    have hbody := body_beside h (hrun.visit resolved.root) (hrun'.visit resolved.root) hget hget'
    rw [hget']
    dsimp only
    -- The issue of a body that cannot be read is noted behind it in both runs.
    revert hread hbody
    obtain ⟨answer, read⟩ := body ctx resolved.root d (run.visit resolved.root)
    obtain ⟨answer', read'⟩ := body ctx' resolved.root d' (run'.visit resolved.root)
    rintro hread (⟨text, text', rfl, rfl, hall⟩ | ⟨issue, issue', rfl, rfl, hkind⟩)
    · exact ⟨.body resolved hall, hread⟩
    · exact ⟨.leaf _ _, hread.note hkind⟩

theorem exists_opening_beside (h : ctx.Beside R s s' ctx') {p : Prop} {run run' read : Run}
    (hrun : run.Sound s) (hrun' : run'.Sound s') (hparallel : run.Parallels p run')
    {symbol symbol' : List Char} {resolved : Resolved}
    (hresolve : ctx.catalog.resolve symbol = .ok resolved)
    (hresolve' : ctx.catalog.resolve symbol' = .ok resolved) {depth : Nat} {found : Opening}
    (hopening : opening ctx symbol depth run = (found, read)) :
    ∃ found' read', opening ctx' symbol' depth run' = (found', read') ∧
      found.Beside R found' ∧ read.Parallels p read' := by
  have hboth := opening_beside h hrun hrun' hparallel hresolve hresolve' depth
  rw [hopening] at hboth
  exact ⟨_, _, rfl, hboth⟩

end Expansion

end StructUnfold
