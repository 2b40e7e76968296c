import StructUnfold.Proofs.Expansion.Synonyms

/-!
# Aliases are transparent

It makes no difference by which of its names a member calls the struct that is its type. The
expansions of two workspaces that differ in such names alone are the same, block by block and leaf
by leaf, for they are in step from word to word. And a query by another name of a struct changes no
more than the label at the end.

* `Performs.respelled`: what is performed in one workspace is performed in the other.
* `expand_respelled`, `expand_respelled_eq_error`: a query is answered alike in both.
* `expand_of_same_root`: two queries for the same struct are answered alike.
* `workspaces_and_queries_respelled`: both for workspaces that are scanned.
-/

namespace StructUnfold

open Text

namespace Expansion

variable {ctx ctx' : Context} {s s' : Sources}

/-! ### Whole runs -/

/-- A word that is settled is settled in the other workspace, and what is left of the declaration is
spelled in another way at most. -/
theorem Task.Respelled.cases_settle (h : ctx.Respells s s' ctx') {depth : Nat}
    {done rest : Declaration} {word text : List Char} {visited : List String}
    {issue : Option Problem} {task' : Task}
    (htask : (Task.words depth done (word :: rest)).Respelled ctx.catalog task')
    (hverdict : verdict ctx depth word rest visited = .settle text issue) :
    ∃ word' rest' issue', task' = .words depth done (word' :: rest') ∧
      verdict ctx' depth word' rest' visited = .settle text issue' ∧
      (ctx.SameUnparseable ctx' →
        issue'.toList.map Problem.kind = issue.toList.map Problem.kind) ∧
      (Task.words depth (text :: done) rest).Respelled ctx.catalog
        (.words depth (text :: done) rest') := by
  rcases htask.cases_cons with ⟨word', hword, rfl⟩ | ⟨q, hq, rfl, rest', rfl, htask'⟩
  -- Behind the type the words are the same, whatever it has become.
  · have hboth := verdict_respelled h hword depth rest visited
    rw [hverdict] at hboth
    generalize hverdict' : verdict ctx' depth word' rest visited = v at hboth
    cases hboth with
    | settle _ hkinds => exact ⟨word', rest, _, rfl, hverdict', hkinds, .same depth _ rest⟩
  · obtain ⟨issue₁, issue', hverdict₁, hverdict', hkinds⟩ :=
      verdict_qualifier_respelled h hq depth rest rest' visited
    rw [hverdict₁] at hverdict
    obtain ⟨rfl, rfl⟩ := Verdict.settle.inj hverdict
    exact ⟨_, rest', issue', rfl, hverdict', hkinds, htask'⟩

/-- A word whose struct is entered stands before the same words in both workspaces, and the same
struct is entered in both. -/
theorem Task.Respelled.cases_enter (h : ctx.Respells s s' ctx') {depth : Nat}
    {done rest : Declaration} {word : List Char} {visited : List String} {task' : Task}
    (htask : (Task.words depth done (word :: rest)).Respelled ctx.catalog task')
    (hverdict : verdict ctx depth word rest visited = .enter) :
    ∃ word', WordRespelled ctx.catalog done word word' ∧
      task' = .words depth done (word' :: rest) ∧
      verdict ctx' depth word' rest visited = .enter ∧
      ∀ label depth', (Task.enter (symbolOf word rest) label depth').Respelled ctx.catalog
        (.enter (symbolOf word' rest) label depth') := by
  rcases htask.cases_cons with ⟨word', hword, rfl⟩ | ⟨q, hq, rfl, rest', -, -⟩
  · have hboth := verdict_respelled h hword depth rest visited
    rw [hverdict] at hboth
    generalize hverdict' : verdict ctx' depth word' rest visited = v at hboth
    cases hboth with
    | enter =>
      obtain ⟨root, henters⟩ := enters_of_verdict_eq_enter hverdict
      obtain ⟨isPointer, hresolve⟩ := henters.resolves
      obtain ⟨passed, hpassed, hpassed'⟩ := hword.resolve_symbolOf hresolve rest
      exact ⟨word', hword, rfl, hverdict', fun label depth' =>
        .enter hpassed hpassed' label depth'⟩
  · -- A qualifier is settled and never entered.
    obtain ⟨issue, -, hsettle, -⟩ := verdict_qualifier_respelled h hq depth rest rest' visited
    rw [hsettle] at hverdict
    cases hverdict

/-- What is performed in one workspace is performed in the other, with the same outcome. -/
theorem Performs.respelled (h : ctx.Respells s s' ctx') {task task' : Task} {run last : Run}
    {outcome : Outcome} (hperforms : Performs ctx task run outcome last)
    (htask : task.Respelled ctx.catalog task') {run' : Run} (hrun : run.Sound s)
    (hrun' : run'.Sound s') (hparallel : run.Parallels (ctx.SameUnparseable ctx') run') :
    ∃ last', Performs ctx' task' run' outcome last' ∧
      last.Parallels (ctx.SameUnparseable ctx') last' := by
  -- By induction on the derivation. The words of a declaration are the same again once its type is
  -- settled, so both runs settle, name and enter alike from word to word.
  induction hperforms generalizing task' run' with
  | leaf hopening =>
    cases htask with
    | enter hresolve hresolve' =>
      obtain ⟨_, read', hopening', hfound, hread⟩ :=
        exists_opening_respelled h hrun hrun' hparallel hresolve hresolve' hopening
      cases hfound
      exact ⟨read', .leaf hopening', hread⟩
  | block hopening _ ih =>
    cases htask with
    | enter hresolve hresolve' =>
      obtain ⟨_, read', hopening', hfound, hread⟩ :=
        exists_opening_respelled h hrun hrun' hparallel hresolve hresolve' hopening
      cases hfound with
      | body _ hall =>
        obtain ⟨last', hitems', hlast⟩ := ih (.declarations hall _)
          ((opens_of_opening_eq hopening).sound h.reader h.fresh hrun)
          ((opens_of_opening_eq hopening').sound h.reader' h.fresh' hrun') hread
        exact ⟨last', .block hopening' hitems', hlast⟩
  | nil =>
    cases htask with
    | declarations hall =>
      cases hall
      exact ⟨run', .nil, hparallel⟩
  | cons hitem hitems ihitem ihitems =>
    cases htask with
    | declarations hall =>
      cases hall with
      | cons hd hds =>
        obtain ⟨mid', hitem', hmid⟩ :=
          ihitem (.words (fun _ hw => by cases hw) hd _) hrun hrun' hparallel
        obtain ⟨last', hitems', hlast⟩ := ihitems (.declarations hds _)
          (hitem.sound h.reader h.fresh hrun) (hitem'.sound h.reader' h.fresh' hrun') hmid
        exact ⟨last', .cons hitem' hitems', hlast⟩
  | line =>
    cases htask with
    | same => exact ⟨run', .line, hparallel⟩
    | words _ hwords =>
      cases hwords
      exact ⟨run', .line, hparallel⟩
  | settle hverdict _ ih =>
    obtain ⟨word', rest', issue', rfl, hverdict', hkinds, htask'⟩ :=
      htask.cases_settle h hverdict
    rw [← hparallel.visited] at hverdict'
    obtain ⟨last', hrest', hlast⟩ := ih htask' (hrun.noteAll_verdict hverdict)
      (hrun'.noteAll_verdict hverdict') (hparallel.noteAll hkinds)
    exact ⟨last', .settle hverdict' hrest', hlast⟩
  | name hverdict henter _ ihenter ihrest =>
    obtain ⟨word', hword, rfl, hverdict', htask'⟩ := htask.cases_enter h hverdict
    rw [← hparallel.visited] at hverdict'
    obtain ⟨mid', henter', hmid⟩ := ihenter (htask' _ _) hrun hrun' hparallel
    obtain ⟨last', hrest', hlast⟩ := ihrest (.same _ _ _) (henter.sound h.reader h.fresh hrun)
      (henter'.sound h.reader' h.fresh' hrun') hmid
    rw [← hword.starsOf_eq] at hrest'
    exact ⟨last', .name hverdict' henter' hrest', hlast⟩
  | @nest depth done word rest run b last hverdict _ ihenter =>
    obtain ⟨word', hword, rfl, hverdict', htask'⟩ := htask.cases_enter h hverdict
    rw [← hparallel.visited] at hverdict'
    obtain ⟨last', henter', hlast⟩ := ihenter (htask' _ _) hrun hrun' hparallel
    rw [← hword.lead_eq h.catalog.qualifiers rest]
    exact ⟨last', .nest hverdict' henter', hlast⟩

/-! ### Queries -/

/-- A query that is refused is refused in both workspaces, for reasons of the same kind if the same
names could not be parsed. -/
theorem expand_respelled_eq_error (h : ctx.Respells s s' ctx') {query : List Char} {p : Problem}
    (hexpand : expand ctx query = .error p) :
    ∃ p', expand ctx' query = .error p' ∧ (ctx.SameUnparseable ctx' → p'.kind = p.kind) := by
  rw [expand] at hexpand ⊢
  dsimp only at hexpand ⊢
  rw [h.catalog.names.resolve]
  cases hresolve : ctx.catalog.resolve (trim query) with
  | error issue =>
    rw [hresolve] at hexpand
    exact ⟨p, hexpand, fun _ => rfl⟩
  | ok resolved =>
    rw [hresolve] at hexpand
    dsimp only at hexpand ⊢
    rw [h.catalog.names.contains]
    split at hexpand
    · cases hexpand
    · rename_i hundefined
      obtain rfl := Except.error.inj hexpand
      rw [if_neg hundefined]
      refine ⟨_, rfl, fun hsame => ?_⟩
      -- The refusal tells whether a definition of that name could not be parsed.
      rw [refusal, refusal]
      rcases Catalog.orElse_unparseable hsame
        (String.ofList (Catalog.stripStars (trim query))) resolved.root with
        ⟨entry, entry', hentry, hentry'⟩ | ⟨hnone, hnone'⟩
      · rw [hentry, hentry']
        rfl
      · rw [hnone, hnone']

/-- A query that is performed is performed in both workspaces. It becomes the same, and the issues
are of the same kinds if the same names could not be parsed. -/
theorem expand_respelled (h : ctx.Respells s s' ctx') {query : List Char} {e : Expansion}
    (hexpand : expand ctx query = .ok e) :
    ∃ e', expand ctx' query = .ok e' ∧ e'.entered = e.entered ∧
      (ctx.SameUnparseable ctx' → e'.issues.map Problem.kind = e.issues.map Problem.kind) := by
  obtain ⟨⟨resolved, hresolve, hdefined⟩, hperforms⟩ := performs_of_expand hexpand
  have haccepts' : Accepts ctx'.catalog query :=
    ⟨resolved, by rw [h.catalog.names.resolve, hresolve], by
      rw [h.catalog.names.contains, hdefined]⟩
  obtain ⟨e', he', hperforms'⟩ := performs_expand haccepts'
  obtain ⟨last', hrespelled, hlast⟩ := hperforms.respelled h (.enter hresolve hresolve _ 0)
    (.start s) (.start s') .start
  -- What the second context performs is unique, so it is the run beside the first one.
  obtain ⟨hentered, hrun⟩ := hrespelled.unique hperforms'
  refine ⟨e', he', (Outcome.entered.inj hentered).symm, fun hsame => ?_⟩
  rw [issues, ← hrun]
  exact hlast.issues hsame

/-- Symbols of the same struct find the same, but a body is found for what each comes down to. -/
theorem opening_of_same_root {symbol symbol' : List Char} {resolved resolved' : Resolved}
    (hresolve : ctx.catalog.resolve symbol = .ok resolved)
    (hresolve' : ctx.catalog.resolve symbol' = .ok resolved')
    (hroot : resolved'.root = resolved.root) (depth : Nat) (run : Run) :
    (∃ name cause read, opening ctx symbol depth run = (.leaf name cause, read) ∧
      opening ctx symbol' depth run = (.leaf name cause, read)) ∨
    ∃ text read, opening ctx symbol depth run = (.body resolved text, read) ∧
      opening ctx symbol' depth run = (.body resolved' text, read) := by
  rw [opening, opening, hresolve, hresolve']
  dsimp only
  rw [hroot]
  split
  · exact .inl ⟨_, _, _, rfl, rfl⟩
  split
  · exact .inl ⟨_, _, _, rfl, rfl⟩
  · split
    · exact .inl ⟨_, _, _, rfl, rfl⟩
    · exact .inr ⟨_, _, rfl, rfl⟩

/-- Queries that come down to the same struct are both refused, or they meet the same issues and
become the same, but for the label of the block. -/
theorem expand_of_same_root {query query' : List Char} {resolved resolved' : Resolved}
    (hresolve : ctx.catalog.resolve (trim query) = .ok resolved)
    (hresolve' : ctx.catalog.resolve (trim query') = .ok resolved')
    (hroot : resolved'.root = resolved.root) :
    (∃ p p', expand ctx query = .error p ∧ expand ctx query' = .error p') ∨
    ∃ e e', expand ctx query = .ok e ∧ expand ctx query' = .ok e' ∧ e'.issues = e.issues ∧
      (e'.entered = e.entered ∨ ∃ items,
        e.entered = .block ⟨resolved.root, labelOf resolved (trim query), items⟩ ∧
        e'.entered = .block ⟨resolved'.root, labelOf resolved' (trim query'), items⟩) := by
  by_cases hdefined : ctx.catalog.structs.contains resolved.root = true
  · obtain ⟨e, hexpand, hperforms⟩ := performs_expand ⟨resolved, hresolve, hdefined⟩
    obtain ⟨e', hexpand', hperforms'⟩ :=
      performs_expand ⟨resolved', hresolve', by rw [hroot]; exact hdefined⟩
    refine .inr ⟨e, e', hexpand, hexpand', ?_⟩
    -- The first run is performed for the second query as well, and what that performs is unique.
    rcases opening_of_same_root hresolve hresolve' hroot 0 Run.start with
      ⟨name, cause, read, hopening, hopening'⟩ | ⟨text, read, hopening, hopening'⟩
    -- Without a body both become the same leaf.
    · obtain ⟨hentered, hrun⟩ := hperforms.unique (.leaf hopening)
      obtain ⟨hentered', hrun'⟩ := hperforms'.unique (.leaf hopening')
      refine ⟨by rw [issues, issues, hrun, hrun'], .inl ?_⟩
      rw [Outcome.entered.inj hentered, Outcome.entered.inj hentered']
    -- With one, both blocks have the items of the same body and differ in their labels.
    · generalize hentered : e.entered = entered at hperforms
      generalize hlast : e.run = last at hperforms
      cases hperforms with
      | leaf hleaf =>
        rw [hopening] at hleaf
        cases hleaf
      | block hbody hitems =>
        rw [hopening] at hbody
        obtain ⟨hfound, rfl⟩ := Prod.mk.inj hbody
        obtain ⟨rfl, rfl⟩ := Opening.body.inj hfound
        obtain ⟨hentered', hrun'⟩ := hperforms'.unique (.block hopening' hitems)
        refine ⟨by rw [issues, issues, hlast, hrun'], .inr ⟨_, rfl, ?_⟩⟩
        exact Outcome.entered.inj hentered'
  · -- Whether a query is accepted depends on the struct alone.
    have hrefused : ∀ {q : List Char} {found : Resolved},
        ctx.catalog.resolve (trim q) = .ok found → found.root = resolved.root →
          ¬Accepts ctx.catalog q := by
      rintro q found hfound hsame ⟨found', hfound', hdefined'⟩
      obtain rfl := Except.ok.inj (hfound.symm.trans hfound')
      exact hdefined (hsame ▸ hdefined')
    obtain ⟨p, hp⟩ := expand_eq_error_iff.2 (hrefused hresolve rfl)
    obtain ⟨p', hp'⟩ := expand_eq_error_iff.2 (hrefused hresolve' hroot)
    exact .inl ⟨p, p', hp, hp'⟩

/-- The label of a block stands at the end of its text, behind a bar of its own. -/
theorem exists_frame_eq (indentWidth : Nat) (texts : List (List Char)) :
    ∃ front, ∀ label, frame indentWidth label texts = front ++ "\n|\n| ".toList ++ label :=
  ⟨_, fun _ => rfl⟩

/-- **Aliases are transparent.** Take two workspaces that are scanned and that know the same names,
with the members of each struct the same in both but for other names of the structs that are their
types. Then each query has the same text in both, and the kinds of its issues are the same in the
same order, given that the definitions that could not be parsed are of the same names as well. And
two queries that come down to the same struct are both refused or meet the same issues, and their
texts differ at most in the label at their end. -/
theorem workspaces_and_queries_respelled (maxScan : Nat) (files files' : List (Path × List Char))
    (hops : Option Nat) (options : Options) :
    let ctx : Context := ⟨(Scan.workspace maxScan files).1.setMaxAliasHops hops,
      (Sources.ofList files).reader, options⟩
    let ctx' : Context := ⟨(Scan.workspace maxScan files').1.setMaxAliasHops hops,
      (Sources.ofList files').reader, options⟩
    (ctx.catalog.Respells options.maxScan (Sources.ofList files) (Sources.ofList files')
        ctx'.catalog → ∀ query,
      (∀ p, expand ctx query = .error p →
        ∃ p', expand ctx' query = .error p' ∧ (ctx.SameUnparseable ctx' → p'.kind = p.kind)) ∧
      ∀ e, expand ctx query = .ok e →
        ∃ e', expand ctx' query = .ok e' ∧
          e'.text options.indentWidth = e.text options.indentWidth ∧
          (ctx.SameUnparseable ctx' →
            e'.issues.map Problem.kind = e.issues.map Problem.kind)) ∧
    ∀ query query' resolved resolved', ctx.catalog.resolve (trim query) = .ok resolved →
      ctx.catalog.resolve (trim query') = .ok resolved' → resolved'.root = resolved.root →
        (∃ p p', expand ctx query = .error p ∧ expand ctx query' = .error p') ∨
        ∃ e e', expand ctx query = .ok e ∧ expand ctx query' = .ok e' ∧ e'.issues = e.issues ∧
          (e'.text options.indentWidth = e.text options.indentWidth ∨
            ∃ front, e.text options.indentWidth =
                String.ofList (front ++ "\n|\n| ".toList ++ labelOf resolved (trim query)) ∧
              e'.text options.indentWidth =
                String.ofList (front ++ "\n|\n| ".toList ++ labelOf resolved' (trim query'))) := by
  intro ctx ctx'
  constructor
  · intro hcatalog query
    -- A workspace that is scanned is fresh, and both are read with the same options.
    have hrespells : ctx.Respells (Sources.ofList files) (Sources.ofList files') ctx' :=
      { catalog := hcatalog
        reader := rfl
        reader' := rfl
        options := rfl
        fresh := fun name d hget => Scan.freshIn_workspace maxScan files name d hget
        fresh' := fun name d hget => Scan.freshIn_workspace maxScan files' name d hget }
    refine ⟨fun p hp => expand_respelled_eq_error hrespells hp, fun e he => ?_⟩
    obtain ⟨e', he', hentered, hissues⟩ := expand_respelled hrespells he
    exact ⟨e', he', by rw [text, text, hentered], hissues⟩
  · intro query query' resolved resolved' hresolve hresolve' hroot
    -- The queries enter the same struct, so only the label of the outermost block can differ.
    rcases expand_of_same_root hresolve hresolve' hroot with
      hrefused | ⟨e, e', he, he', hissues, hentered⟩
    · exact .inl hrefused
    · refine .inr ⟨e, e', he, he', hissues, ?_⟩
      rcases hentered with hentered | ⟨items, hentered, hentered'⟩
      · exact .inl (by rw [text, text, hentered])
      · obtain ⟨front, hfront⟩ := exists_frame_eq options.indentWidth
          (renderItems options.indentWidth items)
        refine .inr ⟨front, ?_, ?_⟩
        · rw [text, hentered, Entered.render, Block.render, hfront]
        · rw [text, hentered', Entered.render, Block.render, hfront]

/-- Three structs with aliases, and members whose types go by the names that are given. -/
def nodeFiles (inner next first second : String) : List (Path × List Char) :=
  [(.ofString "node.h",
    ["typedef struct node *node_ref, *node_ptr;\n", "typedef struct leaf leaf_t;\n",
      "typedef struct tip tip_t;\n", "struct tip \x7b int size; \x7d;\n",
      "struct leaf \x7b struct ", inner, " end; \x7d;\n", "struct node \x7b\n",
      "  ", next, " next;\n", "  struct ", first, " first;\n", "  const ", second, " second;\n",
      "\x7d;\n"].flatMap String.toList)]

/-- `workspaces_and_queries_respelled` at `nodeFiles`: a member becomes a block, two stay because
their structs are entered already and one because its struct lies too deep, whatever their types
are called. -/
theorem workspaces_and_queries_nodeFiles :
    let files := nodeFiles "tip" "node_ref" "leaf" "leaf_t"
    let files' := nodeFiles "tip_t" "node_ptr" "leaf_t" "leaf"
    let ctx : Context := ⟨(Scan.workspace 4096 files).1.setMaxAliasHops none,
      (Sources.ofList files).reader, ⟨2, 2, 4096⟩⟩
    let ctx' : Context := ⟨(Scan.workspace 4096 files').1.setMaxAliasHops none,
      (Sources.ofList files').reader, ⟨2, 2, 4096⟩⟩
    ctx.catalog.Respells 4096 (Sources.ofList files) (Sources.ofList files') ctx'.catalog ∧
      ctx.SameUnparseable ctx' ∧
      (∃ e', expand ctx' "node".toList = .ok e' ∧
        e'.text 2 = ("|\n  node* next;\n  |\n    struct tip end;\n  |\n  | first;\n" ++
          "  const leaf second;\n|\n| node") ∧
        e'.issues.map Problem.kind = [.depthLimit]) ∧
      ∃ e', expand ctx "node_ref".toList = .ok e' ∧ e'.issues = [.depthLimit "tip" 2] := by
  intro files files' ctx ctx'
  -- The names of both workspaces are the same, and three of them come in pairs.
  have htip : ctx.catalog.Synonyms "tip".toList "tip_t".toList :=
    ⟨by decide, by decide, ⟨"tip", false⟩, by decide +kernel⟩
  have hnode : ctx.catalog.Synonyms "node_ref".toList "node_ptr".toList :=
    ⟨by decide, by decide, ⟨"node", true⟩, by decide +kernel⟩
  have hleaf : ctx.catalog.Synonyms "leaf".toList "leaf_t".toList :=
    ⟨by decide, by decide, ⟨"leaf", false⟩, by decide +kernel⟩
  obtain ⟨hstructs, haliases, hhops, hsame⟩ :
      ctx'.catalog.structs.keys = ctx.catalog.structs.keys ∧
      ctx'.catalog.aliases.entries = ctx.catalog.aliases.entries ∧
      ctx'.catalog.maxAliasHops = ctx.catalog.maxAliasHops ∧
      ctx'.catalog.unparseable.keys = ctx.catalog.unparseable.keys := by
    decide +kernel
  have hrespells : ctx.catalog.Respells 4096 (Sources.ofList files) (Sources.ofList files')
      ctx'.catalog := by
    obtain ⟨hkeys, hqualifiers, hlast, hinner, houter⟩ :
        ctx.catalog.structs.keys = ["leaf", "node", "tip"] ∧ ctx.catalog.SparesQualifiers ∧
        ctx.catalog.members? (Sources.ofList files) 4096 "tip" =
          some [["int", "size;"].map String.toList] ∧
        ctx.catalog.members? (Sources.ofList files) 4096 "leaf" =
          some [["struct", "tip", "end;"].map String.toList] ∧
        ctx.catalog.members? (Sources.ofList files) 4096 "node" =
          some [["node_ref", "next;"].map String.toList,
            ["struct", "leaf", "first;"].map String.toList,
            ["const", "leaf_t", "second;"].map String.toList] := by
      decide +kernel
    obtain ⟨hlast', hinner', houter'⟩ :
        ctx'.catalog.members? (Sources.ofList files') 4096 "tip" =
          some [["int", "size;"].map String.toList] ∧
        ctx'.catalog.members? (Sources.ofList files') 4096 "leaf" =
          some [["struct", "tip_t", "end;"].map String.toList] ∧
        ctx'.catalog.members? (Sources.ofList files') 4096 "node" =
          some [["node_ptr", "next;"].map String.toList,
            ["struct", "leaf_t", "first;"].map String.toList,
            ["const", "leaf", "second;"].map String.toList] := by
      decide +kernel
    refine ⟨.of_aliases hstructs haliases hhops, hqualifiers, ?_⟩
    -- The members correspond one by one, some behind a qualifier.
    have hstruct : "struct" ∈ Declaration.qualifiers := by decide
    have hconst : "const" ∈ Declaration.qualifiers := by decide
    have hstars : IsStars [] := by decide
    rw [hkeys]
    intro name hname
    simp only [List.mem_cons, List.not_mem_nil, or_false] at hname
    rcases hname with rfl | rfl | rfl
    · rw [hinner, hinner']
      exact .some (.cons (.behind hstruct (.type htip hstars _)) .nil)
    · rw [houter, houter']
      exact .some (.cons (.type hnode hstars _)
        (.cons (.behind hstruct (.type hleaf hstars _))
          (.cons (.behind hconst (.type hleaf.symm hstars _)) .nil)))
    · rw [hlast, hlast']
      exact .some (.cons (.same _) .nil)
  obtain ⟨hworkspaces, hqueries⟩ :=
    workspaces_and_queries_respelled 4096 files files' none ⟨2, 2, 4096⟩
  have hrun : (expand ctx "node".toList).map (fun e => (e.text 2, e.issues)) =
      .ok ("|\n  node* next;\n  |\n    struct tip end;\n  |\n  | first;\n" ++
        "  const leaf second;\n|\n| node", [.depthLimit "tip" 2]) := by
    decide +kernel
  have hresolve : ctx.catalog.resolve (trim "node".toList) = .ok ⟨"node", false⟩ ∧
      ctx.catalog.resolve (trim "node_ref".toList) = .ok ⟨"node", true⟩ := by
    decide +kernel
  cases hexpand : expand ctx "node".toList with
  | error p =>
    rw [hexpand] at hrun
    cases hrun
  | ok e =>
    rw [hexpand] at hrun
    obtain ⟨htext, hissues⟩ := Prod.mk.inj (Except.ok.inj hrun)
    obtain ⟨e', he', htext', hissues'⟩ := (hworkspaces hrespells "node".toList).2 e hexpand
    refine ⟨hrespells, hsame, ⟨e', he', by rw [htext', htext], ?_⟩, ?_⟩
    · rw [hissues' hsame, hissues]
      rfl
    · rcases hqueries _ _ _ _ hresolve.1 hresolve.2 rfl with
        ⟨p, -, hp, -⟩ | ⟨e₁, e₂, he₁, he₂, hboth, -⟩
      · rw [hexpand] at hp
        cases hp
      · obtain rfl := Except.ok.inj (hexpand.symm.trans he₁)
        exact ⟨e₂, he₂, by rw [hboth, hissues]⟩

end Expansion

end StructUnfold
