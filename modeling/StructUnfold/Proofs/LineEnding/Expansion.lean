import StructUnfold.Proofs.Expansion.Fresh
import StructUnfold.Proofs.LineEnding.Scan

/-!
# Expanding structs in lines with carriage returns

The declarations of a body are the same in both forms of a text. So a query on a workspace is
performed in the same way in both forms: the same words are settled, the same structs are entered,
and the same issues are met, where only the offsets in them are others.

* `Scan.Registers.crlf`, `Catalog.FreshIn.crlf`: what is registered is registered in both forms.
* `bodyIn_crlf`: the body of a struct has the same declarations.
* `Context.Relocates`, `Run.Follows`: contexts and states of the two forms.
* `verdict_crlf`, `exists_opening_crlf`: one step in both forms.
* `Performs.crlf`: what is performed is performed in the other form.
* `expand_crlf`, `workspace_and_queries_crlf`: the expansion is the same.
-/

namespace StructUnfold

open Text

/-- A struct that a text registers is registered by the other form of the text. -/
theorem Scan.Registers.crlf {text : List Char} {name : String} {offset : Nat}
    (h : Registers text name offset) :
    Registers (Text.crlf text) name (crlfOffset text offset) := by
  obtain ⟨header, hstands, hname⟩ := h.header
  have hcode : Comment.inSpans (Comment.spans text) offset = false :=
    List.any_eq_false.2 fun span hspan => by rw [h.code span hspan]; exact Bool.false_ne_true
  refine ⟨⟨header, Header.mem_all_iff.1 ?_, hname⟩, fun span hspan => ?_⟩
  · rw [Header.all_crlf]
    exact List.mem_map_of_mem (f := fun found => (crlfOffset text found.1, found.2))
      (Header.mem_all_iff.2 hstands)
  · rw [← inSpans_header_crlf hstands] at hcode
    exact Bool.eq_false_iff.2 (List.any_eq_false.1 hcode span hspan)

namespace Catalog

@[simp] theorem resolve_relocate (f : Relocation) (c : Catalog) (symbol : List Char) :
    (c.relocate f).resolve symbol = c.resolve symbol := rfl

@[simp] theorem contains_structs_relocate (f : Relocation) (c : Catalog) (name : String) :
    (c.relocate f).structs.contains name = c.structs.contains name :=
  Table.contains_map _ _ _

@[simp] theorem get?_structs_relocate (f : Relocation) (c : Catalog) (name : String) :
    (c.relocate f).structs.get? name =
      (c.structs.get? name).map (StructDefinition.relocate f) :=
  Table.get?_map _ _ _

@[simp] theorem get?_unparseable_relocate (f : Relocation) (c : Catalog) (name : String) :
    (c.relocate f).unparseable.get? name =
      (c.unparseable.get? name).map (UnparseableStruct.relocate f) :=
  Table.get?_map _ _ _

/-- The first entry of two names that could not be parsed. -/
theorem orElse_unparseable_relocate (f : Relocation) (c : Catalog) (name root : String) :
    ((c.relocate f).unparseable.get? name <|> (c.relocate f).unparseable.get? root) =
      (c.unparseable.get? name <|> c.unparseable.get? root).map (UnparseableStruct.relocate f) := by
  rw [get?_unparseable_relocate, get?_unparseable_relocate]
  cases c.unparseable.get? name <;> rfl

/-- A catalog that is fresh for some texts is fresh for their other forms, with the offsets
moved. -/
theorem FreshIn.crlf {c : Catalog} {s s' : Sources} (h : c.FreshIn s)
    (htexts : ∀ path, s'.get? path = (s.get? path).map Text.crlf) :
    (c.relocate s.relocation).FreshIn s' := by
  intro name d hget
  rw [get?_structs_relocate, Option.map_eq_some_iff] at hget
  obtain ⟨d, hget, rfl⟩ := hget
  obtain ⟨text, htext, hregisters⟩ := h name d hget
  refine ⟨Text.crlf text, by rw [htexts, StructDefinition.relocate, htext, Option.map_some], ?_⟩
  rw [StructDefinition.relocate, Sources.relocation, htext]
  exact hregisters.crlf

end Catalog

/-- A problem that speaks of no text is the same for both forms. -/
theorem Problem.relocate_of_not_needsText (f : Relocation) {p : Problem} (h : ¬p.NeedsText) :
    p.relocate f = p := by
  cases p with
  | malformedBlock => exact absurd trivial h
  | _ => rfl

theorem Problem.map_relocate_eq_self (f : Relocation) {issues : List Problem}
    (h : ∀ p ∈ issues, ¬p.NeedsText) : issues.map (Problem.relocate f) = issues :=
  (List.map_congr_left fun p hp => relocate_of_not_needsText f (h p hp)).trans (List.map_id _)

namespace Expansion

/-- The body of a struct that a text registers has the same declarations in both forms of the text,
or it is found in none, for the same reason. -/
theorem bodyIn_crlf {maxScan : Nat} {text : List Char} {root : String} {offset : Nat}
    (h : Scan.Registers text root offset) (hceiling : byteSize (crlf text) ≤ maxScan) :
    (∃ body body', bodyIn maxScan root offset text = .ok body ∧
      bodyIn maxScan root (crlfOffset text offset) (crlf text) = .ok body' ∧
      Declaration.all body' = Declaration.all body) ∨
    ∃ e, bodyIn maxScan root offset text = .error e ∧
      bodyIn maxScan root (crlfOffset text offset) (crlf text) =
        .error (e.mapOffsets (crlfOffset text)) := by
  have hname := h.nameAt?
  have hname' := h.crlf.nameAt?
  -- The brace parts the text, and the new offset is the size of the other form of the first part.
  obtain ⟨rest, hbrace⟩ := h.exists_brace
  obtain ⟨before, rfl, rfl⟩ := dropBytes?_eq_some_iff.1 hbrace
  rw [crlfOffset_append] at hname' ⊢
  rcases Block.extract_body_crlf hceiling with ⟨span, span', hfound, hfound', htext⟩ |
    ⟨e, hfound, hfound'⟩
  · have hall := (Comment.ignoresReturns_strip Declaration.ignoresReturns_all).crlf
      (span.text (before ++ '{' :: rest))
    refine .inl ⟨_, _, ?_, ?_, hall⟩
    · rw [bodyIn, hfound]
      exact if_pos hname
    · rw [bodyIn, hfound', ← htext]
      exact if_pos hname'
  · exact .inr ⟨e, by rw [bodyIn, hfound], by rw [bodyIn, hfound']⟩

/-! ### Contexts and states of both forms -/

/-- A context works with the other forms of the texts `s` with which another one works, and knows
the same names. -/
structure Context.Relocates (s s' : Sources) (ctx ctx' : Context) : Prop where
  /-- The names. -/
  catalog : ctx'.catalog = ctx.catalog.relocate s.relocation
  /-- The first context reads the texts. -/
  reader : ctx.reader = s.reader
  /-- The second context reads the other forms. -/
  reader' : ctx'.reader = s'.reader
  /-- The limits. -/
  options : ctx'.options = ctx.options
  /-- The other forms of the texts. -/
  texts : ∀ path, s'.get? path = (s.get? path).map crlf
  /-- The ceiling on bodies is not reached. -/
  ceiling : ∀ path text, s.get? path = some text → byteSize (crlf text) ≤ ctx.options.maxScan
  /-- Each struct stands in its text. -/
  fresh : ctx.catalog.FreshIn s

/-- A state follows another one: the same structs are entered, and the same issues are met but for
their offsets. -/
structure Run.Follows (f : Relocation) (run run' : Run) : Prop where
  /-- The structs entered. -/
  visited : run'.visited = run.visited
  /-- The issues met. -/
  issues : run'.issues = run.issues.map (Problem.relocate f)

namespace Run.Follows

variable {f : Relocation} {run run' : Run}

theorem start : Run.start.Follows f Run.start :=
  ⟨rfl, rfl⟩

theorem noteAll (h : run.Follows f run') (issues : List Problem) :
    (run.noteAll issues).Follows f (run'.noteAll (issues.map (Problem.relocate f))) := by
  refine ⟨h.visited, ?_⟩
  rw [Run.noteAll, h.issues, Run.noteAll, List.map_append]

theorem note (h : run.Follows f run') (issue : Problem) :
    (run.note issue).Follows f (run'.note (issue.relocate f)) :=
  h.noteAll [issue]

theorem visit (h : run.Follows f run') (root : String) :
    (run.visit root).Follows f (run'.visit root) := by
  refine ⟨?_, ?_⟩
  · rw [Run.visited_visit, Run.visited_visit, h.visited]
  · rw [Run.issues_visit, Run.issues_visit, h.issues]

/-- Reading a body enters no struct and notes no issue. -/
theorem body (h : run.Follows f run') (ctx ctx' : Context) (root : String)
    (d d' : StructDefinition) :
    (Expansion.body ctx root d run).2.Follows f (Expansion.body ctx' root d' run').2 := by
  refine ⟨?_, ?_⟩
  · rw [visited_body, visited_body, h.visited]
  · rw [issues_body, issues_body, h.issues]

end Run.Follows

variable {ctx ctx' : Context} {s s' : Sources}

theorem Context.Relocates.fresh' (h : ctx.Relocates s s' ctx') : ctx'.catalog.FreshIn s' := by
  rw [h.catalog]
  exact h.fresh.crlf h.texts

/-! ### One step -/

theorem unexpandable?_relocate (f : Relocation) (c : Catalog) (name : List Char) (root : String) :
    unexpandable? (c.relocate f) name root = unexpandable? c name root := by
  rw [unexpandable?, unexpandable?, Catalog.orElse_unparseable_relocate]
  cases c.unparseable.get? (String.ofList name) <|> c.unparseable.get? root <;> rfl

/-- The same is to be done about a word in both forms. -/
theorem verdict_crlf (h : ctx.Relocates s s' ctx') {f : Relocation} {run run' : Run}
    (hfollows : run.Follows f run') (depth : Nat) (word : List Char) (rest : Declaration) :
    verdict ctx' depth word rest run'.visited = verdict ctx depth word rest run.visited := by
  simp only [verdict, h.catalog, h.options, hfollows.visited, Catalog.resolve_relocate,
    Catalog.contains_structs_relocate, unexpandable?_relocate]

/-- The body of a struct is read in both forms or in none. -/
theorem body_crlf (h : ctx.Relocates s s' ctx') {run run' : Run} (hrun : run.Sound s)
    (hrun' : run'.Sound s') {root : String} {d : StructDefinition}
    (hget : ctx.catalog.structs.get? root = some d) :
    (∃ text text', (body ctx root d run).1 = .ok text ∧
      (body ctx' root (d.relocate s.relocation) run').1 = .ok text' ∧
      Declaration.all text' = Declaration.all text) ∨
    ∃ issue, (body ctx root d run).1 = .error issue ∧
      (body ctx' root (d.relocate s.relocation) run').1 =
        .error (issue.relocate s.relocation) := by
  obtain ⟨text, htext, hregisters⟩ := h.fresh _ _ hget
  have htext' : s'.get? d.path = some (crlf text) := by rw [h.texts, htext, Option.map_some]
  have hrelocation : s.relocation d.path = crlfOffset text := by
    rw [Sources.relocation, htext, Option.getD_some]
  -- Whatever was read before, the two forms of the text are what is read now.
  obtain ⟨hok, -⟩ := hrun.read htext
  obtain ⟨hok', -⟩ := hrun'.read htext'
  rw [body, body, h.reader, h.reader', h.options, StructDefinition.relocate, hrelocation]
  revert hok hok'
  obtain ⟨answer, read⟩ := run.read s.reader d.path
  obtain ⟨answer', read'⟩ := run'.read s'.reader d.path
  rintro rfl rfl
  dsimp only
  rcases bodyIn_crlf hregisters (h.ceiling _ _ htext) with ⟨body, body', hbody, hbody', hall⟩ |
    ⟨e, hbody, hbody'⟩
  · rw [hbody, hbody']
    exact .inl ⟨body, body', rfl, rfl, hall⟩
  · rw [hbody, hbody']
    refine .inr ⟨_, rfl, ?_⟩
    rw [Problem.relocate, hrelocation]

/-- What is found where a struct is to be entered in one form of the texts is found in the other
form: no body in either, or bodies of the same struct with the same declarations. -/
inductive Opening.Alike : Opening → Opening → Prop where
  /-- No body. -/
  | leaf (name : List Char) (cause : LeafCause) : Alike (.leaf name cause) (.leaf name cause)
  /-- Bodies with the same declarations. -/
  | body (resolved : Resolved) {text text' : List Char}
    (h : Declaration.all text' = Declaration.all text) :
    Alike (.body resolved text) (.body resolved text')

/-- A struct is entered alike in both forms. -/
theorem opening_crlf (h : ctx.Relocates s s' ctx') {run run' : Run} (hrun : run.Sound s)
    (hrun' : run'.Sound s') (hfollows : run.Follows s.relocation run') (symbol : List Char)
    (depth : Nat) :
    (opening ctx symbol depth run).1.Alike (opening ctx' symbol depth run').1 ∧
      (opening ctx symbol depth run).2.Follows s.relocation (opening ctx' symbol depth run').2 := by
  rw [opening, opening, h.catalog, Catalog.resolve_relocate, hfollows.visited]
  cases hresolve : ctx.catalog.resolve symbol with
  | error issue =>
    have hissue := Problem.relocate_of_not_needsText s.relocation
      (Catalog.not_needsText_of_resolve hresolve)
    have hnote := hfollows.note issue
    -- An issue about names holds no offset.
    rw [hissue] at hnote
    exact ⟨.leaf _ _, hnote⟩
  | ok resolved =>
    dsimp only
    by_cases hvisited : 0 < depth ∧ resolved.root ∈ run.visited
    · rw [if_pos hvisited, if_pos hvisited]
      exact ⟨.leaf _ _, hfollows⟩
    rw [if_neg hvisited, if_neg hvisited, Catalog.get?_structs_relocate]
    have hvisit := hfollows.visit resolved.root
    cases hget : ctx.catalog.structs.get? resolved.root with
    | none => exact ⟨.leaf _ _, hvisit.note (.unresolvedSymbol resolved.root)⟩
    | some d =>
      have hread := hvisit.body ctx ctx' resolved.root d (d.relocate s.relocation)
      have hbody := body_crlf h (hrun.visit resolved.root) (hrun'.visit resolved.root) hget
      rw [Option.map_some]
      dsimp only
      revert hread hbody
      obtain ⟨answer, read⟩ := body ctx resolved.root d (run.visit resolved.root)
      obtain ⟨answer', read'⟩ :=
        body ctx' resolved.root (d.relocate s.relocation) (run'.visit resolved.root)
      -- The body is found in both forms, or the same issue is noted with its offset moved.
      rintro hread (⟨text, text', rfl, rfl, hall⟩ | ⟨issue, rfl, rfl⟩)
      · exact ⟨.body resolved hall, hread⟩
      · exact ⟨.leaf _ _, hread.note issue⟩

theorem exists_opening_crlf (h : ctx.Relocates s s' ctx') {run run' read : Run}
    (hrun : run.Sound s) (hrun' : run'.Sound s') (hfollows : run.Follows s.relocation run')
    {symbol : List Char} {depth : Nat} {found : Opening}
    (hopening : opening ctx symbol depth run = (found, read)) :
    ∃ found' read', opening ctx' symbol depth run' = (found', read') ∧ found.Alike found' ∧
      read.Follows s.relocation read' := by
  have hboth := opening_crlf h hrun hrun' hfollows symbol depth
  rw [hopening] at hboth
  exact ⟨_, _, rfl, hboth⟩

/-! ### Whole runs -/

/-- What is performed with the texts is performed with their other forms, with the same outcome. -/
theorem Performs.crlf (h : ctx.Relocates s s' ctx') {task : Task} {run last : Run}
    {outcome : Outcome} (hperforms : Performs ctx task run outcome last) {run' : Run}
    (hrun : run.Sound s) (hrun' : run'.Sound s') (hfollows : run.Follows s.relocation run') :
    ∃ last', Performs ctx' task run' outcome last' ∧ last.Follows s.relocation last' := by
  -- By induction on the derivation. `Run.Follows` is carried from each state to the next, and each
  -- state is sound, so that the two forms of one text are read on both sides.
  induction hperforms generalizing run' with
  | leaf hopening =>
    obtain ⟨_, read', hopening', halike, hread⟩ :=
      exists_opening_crlf h hrun hrun' hfollows hopening
    cases halike
    exact ⟨read', .leaf hopening', hread⟩
  | block hopening _ ih =>
    obtain ⟨_, read', hopening', halike, hread⟩ :=
      exists_opening_crlf h hrun hrun' hfollows hopening
    cases halike with
    | body _ hall =>
      -- The bodies are different texts, but the same declarations are to be flattened.
      obtain ⟨last', hitems', hlast⟩ :=
        ih ((opens_of_opening_eq hopening).sound h.reader h.fresh hrun)
          ((opens_of_opening_eq hopening').sound h.reader' h.fresh' hrun') hread
      rw [← hall] at hitems'
      exact ⟨last', .block hopening' hitems', hlast⟩
  | nil => exact ⟨run', .nil, hfollows⟩
  | cons hitem hitems ihitem ihitems =>
    obtain ⟨mid', hitem', hmid⟩ := ihitem hrun hrun' hfollows
    obtain ⟨last', hitems', hlast⟩ := ihitems (hitem.sound h.reader h.fresh hrun)
      (hitem'.sound h.reader' h.fresh' hrun') hmid
    exact ⟨last', .cons hitem' hitems', hlast⟩
  | line => exact ⟨run', .line, hfollows⟩
  | @settle depth done word rest run text issue item last hverdict hrest ih =>
    -- The issue of a word speaks of names, so it is the same in both forms.
    have hissue : ∀ p ∈ issue.toList, ¬p.NeedsText := by
      intro p hp
      obtain rfl := Option.mem_toList.1 hp
      exact not_needsText_of_verdict hverdict
    have hverdict' := (verdict_crlf h hfollows depth word rest).trans hverdict
    have hnote := hfollows.noteAll issue.toList
    rw [Problem.map_relocate_eq_self _ hissue] at hnote
    obtain ⟨last', hrest', hlast⟩ := ih
      (hrun.noteAll fun p hp => mt Problem.IsStale.needsText (hissue p hp))
      (hrun'.noteAll fun p hp => mt Problem.IsStale.needsText (hissue p hp)) hnote
    exact ⟨last', .settle hverdict' hrest', hlast⟩
  | @name depth done word rest run leaf cause mid item last hverdict henter hrest ihenter ihrest =>
    have hverdict' := (verdict_crlf h hfollows depth word rest).trans hverdict
    obtain ⟨mid', henter', hmid⟩ := ihenter hrun hrun' hfollows
    obtain ⟨last', hrest', hlast⟩ := ihrest (henter.sound h.reader h.fresh hrun)
      (henter'.sound h.reader' h.fresh' hrun') hmid
    exact ⟨last', .name hverdict' henter' hrest', hlast⟩
  | @nest depth done word rest run b last hverdict henter ihenter =>
    have hverdict' := (verdict_crlf h hfollows depth word rest).trans hverdict
    obtain ⟨last', henter', hlast⟩ := ihenter hrun hrun' hfollows
    exact ⟨last', .nest hverdict' henter', hlast⟩

theorem refusal_relocate (f : Relocation) (c : Catalog) (query : List Char) (root : String) :
    refusal (c.relocate f) query root = refusal c query root := by
  rw [refusal, refusal, Catalog.orElse_unparseable_relocate]
  cases c.unparseable.get? (String.ofList (Catalog.stripStars query)) <|>
    c.unparseable.get? root <;> rfl

/-- A query that is refused is refused in both forms, with the same problem. -/
theorem expand_crlf_eq_error (h : ctx.Relocates s s' ctx') {query : List Char} {p : Problem}
    (hexpand : expand ctx query = .error p) : expand ctx' query = .error p := by
  rw [expand] at hexpand ⊢
  dsimp only at hexpand ⊢
  rw [h.catalog, Catalog.resolve_relocate]
  cases hresolve : ctx.catalog.resolve (trim query) with
  | error issue => rwa [hresolve] at hexpand
  | ok resolved =>
    rw [hresolve] at hexpand
    dsimp only at hexpand ⊢
    rw [Catalog.contains_structs_relocate, refusal_relocate]
    split at hexpand
    · cases hexpand
    · rename_i hundefined
      rw [if_neg hundefined]
      exact hexpand

/-- A query that is performed is performed in both forms. It becomes the same block, and the same
issues are met but for their offsets. -/
theorem expand_crlf (h : ctx.Relocates s s' ctx') {query : List Char} {e : Expansion}
    (hexpand : expand ctx query = .ok e) :
    ∃ e', expand ctx' query = .ok e' ∧ e'.entered = e.entered ∧
      e'.issues = e.issues.map (Problem.relocate s.relocation) := by
  obtain ⟨⟨resolved, hresolve, hdefined⟩, hperforms⟩ := performs_of_expand hexpand
  have haccepts' : Accepts ctx'.catalog query := by
    rw [h.catalog]
    exact ⟨resolved, hresolve, by rwa [Catalog.contains_structs_relocate]⟩
  obtain ⟨e', he', hperforms'⟩ := performs_expand haccepts'
  obtain ⟨last', hcrlf, hlast⟩ := hperforms.crlf h (.start s) (.start s') .start
  -- What the second context performs is unique, so it is the run that follows the first one.
  obtain ⟨hentered, hrun⟩ := hcrlf.unique hperforms'
  refine ⟨e', he', (Outcome.entered.inj hentered).symm, ?_⟩
  rw [issues, ← hrun, hlast.issues, issues]

/-- **Line ends make no difference.** Scan a workspace and the same workspace with a carriage return
before each line feed, with a ceiling above the size of every text. The same structs, bases, aliases
and names that could not be parsed are registered, each offset moved by one byte for every line feed
before it in the last text of its file, and the reports count the same. With limits that are above
the size of every text as well, each query is refused in both workspaces with the same problem, or
has the same text in both, and the issues are the same in the same order, with the offsets moved. -/
theorem workspace_and_queries_crlf (maxScan : Nat) (files : List (Path × List Char))
    (hscan : ∀ file ∈ files, byteSize (crlf file.2) ≤ maxScan) :
    let found := Scan.workspace maxScan files
    let found' := Scan.workspace maxScan (crlfFiles files)
    let f := (Sources.ofList files).relocation
    found'.1 = found.1.relocate f ∧ found.2.SameCounts found'.2 ∧
      ∀ hops options, (∀ file ∈ files, byteSize (crlf file.2) ≤ options.maxScan) → ∀ query,
        let ctx : Context := ⟨found.1.setMaxAliasHops hops, (Sources.ofList files).reader, options⟩
        let ctx' : Context :=
          ⟨found'.1.setMaxAliasHops hops, (Sources.ofList (crlfFiles files)).reader, options⟩
        (∀ p, expand ctx query = .error p → expand ctx' query = .error p) ∧
          ∀ e, expand ctx query = .ok e →
            ∃ e', expand ctx' query = .ok e' ∧
              e'.text options.indentWidth = e.text options.indentWidth ∧
              e'.issues = e.issues.map (Problem.relocate f) := by
  intro found found' f
  obtain ⟨hcatalog, hreport⟩ := Scan.workspace_crlf hscan
  refine ⟨hcatalog, hreport, ?_⟩
  intro hops options hbodies query ctx ctx'
  -- Relocating touches neither the cap on alias hops nor the texts that are read.
  have hrelocates : ctx.Relocates (Sources.ofList files) (Sources.ofList (crlfFiles files)) ctx' :=
    { catalog := congrArg (Catalog.setMaxAliasHops · hops) hcatalog
      reader := rfl
      reader' := rfl
      options := rfl
      texts := Sources.get?_ofList_crlfFiles files
      ceiling := fun path text htext => by
        obtain ⟨file, hfile, rfl⟩ := Sources.exists_mem_of_get?_ofList htext
        exact hbodies file hfile
      fresh := fun name d hget => Scan.freshIn_workspace maxScan files name d hget }
  refine ⟨fun p hp => expand_crlf_eq_error hrelocates hp, fun e he => ?_⟩
  obtain ⟨e', he', hentered, hissues⟩ := expand_crlf hrelocates he
  exact ⟨e', he', by rw [text, text, hentered], hissues⟩

/-- A struct with a base and names behind it over two lines, an alias of a struct that is defined
nowhere, a name that cannot be parsed and a block that is not closed. -/
def curveFiles : List (Path × List Char) :=
  [(.ofString "curve.h",
    ["typedef struct arc : line \x7b // An arc.\n", "  spot from; /* and\n", "  */ open rest;\n",
      "\x7d arc_type,\n", "  *arc_ref;\n", "typedef struct point *spot;\n", "struct a::b \x7b\n",
      "\x7d;\n", "struct open \x7b\n", "  int size;\n"].flatMap String.toList)]

/-- `workspace_and_queries_crlf` at `curveFiles`: the brace that is not closed stands behind eight
line feeds, and the issue says so. -/
theorem workspace_and_queries_curveFiles :
    let found := Scan.workspace 4096 curveFiles
    let found' := Scan.workspace 4096 (crlfFiles curveFiles)
    let ctx : Context := ⟨found.1.setMaxAliasHops none, (Sources.ofList curveFiles).reader,
      ⟨2, 8, 4096⟩⟩
    let ctx' : Context := ⟨found'.1.setMaxAliasHops none,
      (Sources.ofList (crlfFiles curveFiles)).reader, ⟨2, 8, 4096⟩⟩
    (∀ file ∈ curveFiles, byteSize (crlf file.2) ≤ 4096) ∧
      found'.1 = found.1.relocate (Sources.ofList curveFiles).relocation ∧
      found.2.SameCounts found'.2 ∧
      ∃ e, expand ctx "arc_ref".toList = .ok e ∧
        e.issues = [.unresolvedSymbol "point",
          .malformedBlock (.ofString "curve.h") (.unbalanced 156)] ∧
        ∃ e', expand ctx' "arc_ref".toList = .ok e' ∧ e'.text 2 = e.text 2 ∧
          e'.issues = [.unresolvedSymbol "point",
            .malformedBlock (.ofString "curve.h") (.unbalanced 164)] := by
  intro found found' ctx ctx'
  have hsize : ∀ file ∈ curveFiles, byteSize (crlf file.2) ≤ 4096 := by decide +kernel
  obtain ⟨hcatalog, hreport, hqueries⟩ := workspace_and_queries_crlf 4096 curveFiles hsize
  obtain ⟨-, hquery⟩ := hqueries none ⟨2, 8, 4096⟩ hsize "arc_ref".toList
  have hrun : (expand ctx "arc_ref".toList).map Expansion.issues =
      .ok [.unresolvedSymbol "point",
        .malformedBlock (.ofString "curve.h") (.unbalanced 156)] := by
    decide +kernel
  -- The brace stands behind eight line feeds of its file.
  have hmoved : [.unresolvedSymbol "point",
      .malformedBlock (.ofString "curve.h") (.unbalanced 156)].map
      (Problem.relocate (Sources.ofList curveFiles).relocation) =
        [.unresolvedSymbol "point", .malformedBlock (.ofString "curve.h") (.unbalanced 164)] := by
    decide +kernel
  cases hexpand : expand ctx "arc_ref".toList with
  | error p =>
    rw [hexpand] at hrun
    cases hrun
  | ok e =>
    rw [hexpand] at hrun
    have hissues : e.issues = _ := Except.ok.inj hrun
    obtain ⟨e', he', htext, hissues'⟩ := hquery e hexpand
    refine ⟨hsize, hcatalog, hreport, e, rfl, hissues, e', he', htext, ?_⟩
    rw [hissues', hissues, hmoved]

end Expansion

end StructUnfold
