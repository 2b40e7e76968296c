import Mathlib.Data.List.Forall2
import StructUnfold.Proofs.Expansion.Parallel
import StructUnfold.Proofs.Expansion.Qualifiers

/-!
# Other names for the types of members

A member may call the struct that is its type by any of the struct's names. Two workspaces that know
the same names, and whose members are the same but for such names, take the same step wherever a
struct is entered or a word is looked at: what is done depends on the struct and on the stars, not
on the name.

* `Catalog.Synonyms`, `Declaration.Respelled`: another name for the type of a declaration.
* `Catalog.Respells`: a workspace with such names in the place of others.
* `Task.Respelled`: the tasks of two runs that go side by side.
* `verdict_respelled`, `WordRespelled.lead_eq`: what becomes of a word in both workspaces.
* `exists_opening_respelled`: how a struct is entered in both.
-/

namespace StructUnfold

open Text

namespace Catalog

/-- Two names come down to the same struct, which is defined: both as a pointer or none. -/
structure Synonyms (c : Catalog) (name name' : List Char) : Prop where
  /-- The first name is made of characters of identifiers. -/
  ident : IsIdent name
  /-- So is the second. -/
  ident' : IsIdent name'
  /-- Both come down to the same struct. -/
  resolves : ∃ resolved, c.resolve name = .ok resolved ∧ c.resolve name' = .ok resolved ∧
    c.structs.contains resolved.root = true

end Catalog

/-- A declaration is spelled in another way: it is the same, or another name for the same struct
stands in the place of its type, with the same stars behind it. Qualifiers may stand before the
type. -/
inductive Declaration.Respelled (c : Catalog) : Declaration → Declaration → Prop where
  /-- The same declaration. -/
  | same (d : Declaration) : Respelled c d d
  /-- Another name for the type. -/
  | type {name name' stars : List Char} (hnames : c.Synonyms name name')
    (hstars : Expansion.IsStars stars) (rest : Declaration) :
    Respelled c ((name ++ stars) :: rest) ((name' ++ stars) :: rest)
  /-- Another name for the type behind a qualifier. -/
  | behind {q : String} (hq : q ∈ qualifiers) {d d' : Declaration} (h : Respelled c d d') :
    Respelled c (q.toList :: d) (q.toList :: d')

/-- Two catalogs know the same names, and the members of each struct, as they stand in the texts of
both, correspond to each other one by one. -/
structure Catalog.Respells (maxScan : Nat) (s s' : Sources) (c d : Catalog) : Prop where
  /-- The same names are known. -/
  names : c.SameNames d
  /-- No qualifier is among them. -/
  qualifiers : c.SparesQualifiers
  /-- The members of each struct are the same, but may be spelled in another way. -/
  members : ∀ name ∈ c.structs.keys,
    Option.Rel (List.Forall₂ (Declaration.Respelled c)) (c.members? s maxScan name)
      (d.members? s' maxScan name)

namespace Catalog

variable {c d : Catalog}

theorem SameNames.synonyms (h : c.SameNames d) {name name' : List Char}
    (hnames : c.Synonyms name name') : d.Synonyms name name' := by
  obtain ⟨resolved, hresolve, hresolve', hdefined⟩ := hnames.resolves
  exact ⟨hnames.ident, hnames.ident', resolved, by rw [h.resolve, hresolve],
    by rw [h.resolve, hresolve'], by rw [h.contains, hdefined]⟩

theorem Synonyms.symm {name name' : List Char} (h : c.Synonyms name name') :
    c.Synonyms name' name := by
  obtain ⟨resolved, hresolve, hresolve', hdefined⟩ := h.resolves
  exact ⟨h.ident', h.ident, resolved, hresolve', hresolve, hdefined⟩

/-- A synonym of a name is no qualifier, for a struct is defined under what it comes down to. -/
theorem Synonyms.ne_qualifier {name name' : List Char} (h : c.Synonyms name name')
    (hspares : c.SparesQualifiers) {q : String} (hq : q ∈ Declaration.qualifiers) :
    name ≠ q.toList ∧ name' ≠ q.toList := by
  obtain ⟨resolved, hresolve, hresolve', hdefined⟩ := h.resolves
  have hne : resolved ≠ ⟨q, false⟩ := by
    rintro rfl
    rw [(hspares q hq).1] at hdefined
    cases hdefined
  constructor
  · rintro rfl
    exact hne (Except.ok.inj (hresolve.symm.trans (hspares.resolve hq)))
  · rintro rfl
    exact hne (Except.ok.inj (hresolve'.symm.trans (hspares.resolve hq)))

end Catalog

namespace Expansion

/-! ### Contexts, states and tasks -/

/-- A context works with a workspace that is spelled in another way than that of another one. -/
structure Context.Respells (s s' : Sources) (ctx ctx' : Context) : Prop where
  /-- The workspaces. -/
  catalog : ctx.catalog.Respells ctx.options.maxScan s s' ctx'.catalog
  /-- The first context reads the texts of the first workspace. -/
  reader : ctx.reader = s.reader
  /-- The second context reads those of the second. -/
  reader' : ctx'.reader = s'.reader
  /-- The limits. -/
  options : ctx'.options = ctx.options
  /-- Each struct stands in its text. -/
  fresh : ctx.catalog.FreshIn s
  /-- So it does in the second workspace. -/
  fresh' : ctx'.catalog.FreshIn s'

theorem Context.Respells.beside {s s' : Sources} {ctx ctx' : Context}
    (h : ctx.Respells s s' ctx') :
    ctx.Beside (fun _ => List.Forall₂ (Declaration.Respelled ctx.catalog)) s s' ctx' :=
  ⟨h.catalog.names, h.catalog.members, h.reader, h.reader', h.options, h.fresh, h.fresh'⟩

/-- A word is spelled in another way behind the words `done` of a declaration: it is the same, or
another name of the type behind qualifiers. -/
inductive WordRespelled (c : Catalog) (done : Declaration) : List Char → List Char → Prop where
  /-- The same word. -/
  | same (word : List Char) : WordRespelled c done word word
  /-- Another name. -/
  | type {name name' stars : List Char}
    (hdone : ∀ w ∈ done, ∃ q ∈ Declaration.qualifiers, w = q.toList)
    (hnames : c.Synonyms name name') (hstars : IsStars stars) :
    WordRespelled c done (name ++ stars) (name' ++ stars)

/-- A task is that of the other workspace: the same struct is to be entered, or declarations are to
be flattened that are spelled in another way. -/
inductive Task.Respelled (c : Catalog) : Task → Task → Prop where
  /-- Symbols that come down to the same. -/
  | enter {symbol symbol' : List Char} {resolved : Resolved}
    (hresolve : c.resolve symbol = .ok resolved) (hresolve' : c.resolve symbol' = .ok resolved)
    (label : List Char) (depth : Nat) :
    Respelled c (.enter symbol label depth) (.enter symbol' label depth)
  /-- Declarations that are spelled in another way. -/
  | declarations {ds ds' : List Declaration} (h : List.Forall₂ (Declaration.Respelled c) ds ds')
    (depth : Nat) : Respelled c (.declarations depth ds) (.declarations depth ds')
  /-- The same words, whatever is settled. -/
  | same (depth : Nat) (done todo : Declaration) :
    Respelled c (.words depth done todo) (.words depth done todo)
  /-- Words that are spelled in another way, while only qualifiers are settled. -/
  | words {done todo todo' : Declaration}
    (hdone : ∀ w ∈ done, ∃ q ∈ Declaration.qualifiers, w = q.toList)
    (h : Declaration.Respelled c todo todo') (depth : Nat) :
    Respelled c (.words depth done todo) (.words depth done todo')

/-- The next word is the same but for its name and stands before the same words, or it is a
qualifier that stands before words spelled in another way. -/
theorem Task.Respelled.cases_cons {c : Catalog} {depth : Nat} {done rest : Declaration}
    {word : List Char} {task' : Task}
    (h : (Task.words depth done (word :: rest)).Respelled c task') :
    (∃ word', WordRespelled c done word word' ∧ task' = .words depth done (word' :: rest)) ∨
      ∃ q ∈ Declaration.qualifiers, word = q.toList ∧
        ∃ rest', task' = .words depth done (q.toList :: rest') ∧
          (Task.words depth (q.toList :: done) rest).Respelled c
            (.words depth (q.toList :: done) rest') := by
  cases h with
  | same => exact .inl ⟨word, .same word, rfl⟩
  -- Only the type differs, so the words behind it are the same once it is reached.
  | words hdone h =>
    cases h with
    | same => exact .inl ⟨word, .same word, rfl⟩
    | type hnames hstars => exact .inl ⟨_, .type hdone hnames hstars, rfl⟩
    | @behind q hq _ rest' h =>
      exact .inr ⟨q, hq, rfl, rest', rfl,
        .words (List.forall_mem_cons.2 ⟨⟨q, hq, rfl⟩, hdone⟩) h depth⟩

/-! ### One word -/

variable {ctx ctx' : Context} {s s' : Sources}

theorem hasStar_synonyms {name name' stars : List Char} (hname : IsIdent name)
    (hname' : IsIdent name') (hstars : IsStars stars) (rest : Declaration) :
    hasStar (name' ++ stars) rest = hasStar (name ++ stars) rest := by
  rw [hasStar, hasStar, starsOf_append hname hstars, starsOf_append hname' hstars]

/-- The same is to be done about both names of a struct. -/
theorem verdict_synonyms {name name' stars : List Char} (hnames : ctx.catalog.Synonyms name name')
    (hstars : IsStars stars) (depth : Nat) (rest : Declaration) (visited : List String) :
    verdict ctx depth (name' ++ stars) rest visited =
      verdict ctx depth (name ++ stars) rest visited := by
  obtain ⟨hname, hname', resolved, hresolve, hresolve', hdefined⟩ := hnames
  rw [verdict, verdict, nameIn_append hname hstars, nameIn_append hname' hstars, hresolve,
    hresolve', hasStar_synonyms hname hname' hstars, starsOf_append hname hstars,
    starsOf_append hname' hstars]
  -- The struct is defined, so no branch is left that keeps the word as it is.
  simp only [List.isEmpty_eq_false_iff.2 hname.ne_nil, List.isEmpty_eq_false_iff.2 hname'.ne_nil,
    hdefined, Bool.false_eq_true, if_false, Bool.not_true]

theorem verdict_respelled (h : ctx.Respells s s' ctx') {done : Declaration}
    {word word' : List Char} (hword : WordRespelled ctx.catalog done word word') (depth : Nat)
    (rest : Declaration) (visited : List String) :
    (verdict ctx depth word rest visited).Parallels (ctx.SameUnparseable ctx')
      (verdict ctx' depth word' rest visited) := by
  cases hword with
  | same => exact verdict_same h.catalog.names h.options id depth word rest visited
  | type _ hnames hstars =>
    rw [verdict_synonyms (h.catalog.names.synonyms hnames) hstars]
    exact verdict_same h.catalog.names h.options id depth _ rest visited

/-- A qualifier is settled in both workspaces, whatever follows it. -/
theorem verdict_qualifier_respelled (h : ctx.Respells s s' ctx') {q : String}
    (hq : q ∈ Declaration.qualifiers) (depth : Nat) (rest rest' : Declaration)
    (visited : List String) :
    ∃ issue issue', verdict ctx depth q.toList rest visited = .settle q.toList issue ∧
      verdict ctx' depth q.toList rest' visited = .settle q.toList issue' ∧
      (ctx.SameUnparseable ctx' →
        issue'.toList.map Problem.kind = issue.toList.map Problem.kind) := by
  have hresolve := h.catalog.qualifiers.resolve hq
  have hundefined := (h.catalog.qualifiers q hq).1
  have hresolve' := (h.catalog.names.resolve q.toList).trans hresolve
  have hundefined' := (h.catalog.names.contains q).trans hundefined
  refine ⟨_, _, verdict_qualifier hq hresolve hundefined depth rest visited,
    verdict_qualifier hq hresolve' hundefined' depth rest' visited, fun hsame => ?_⟩
  split
  · rfl
  · exact unexpandable?_same hsame _ _

/-- The stars of a word are those of the other. -/
theorem WordRespelled.starsOf_eq {c : Catalog} {done : Declaration} {word word' : List Char}
    (h : WordRespelled c done word word') : starsOf word' = starsOf word := by
  cases h with
  | same => rfl
  | type _ hnames hstars =>
    rw [starsOf_append hnames.ident hstars, starsOf_append hnames.ident' hstars]

/-- The symbols that are passed on for both words come down to the same. -/
theorem WordRespelled.resolve_symbolOf {done : Declaration} {word word' : List Char}
    (h : WordRespelled ctx.catalog done word word') {resolved : Resolved}
    (hresolve : ctx.catalog.resolve (nameIn word) = .ok resolved) (rest : Declaration) :
    ∃ passed, ctx.catalog.resolve (symbolOf word rest) = .ok passed ∧
      ctx.catalog.resolve (symbolOf word' rest) = .ok passed := by
  cases h with
  | same => exact ⟨_, Expansion.resolve_symbolOf hresolve rest,
      Expansion.resolve_symbolOf hresolve rest⟩
  | @type name name' stars _ hnames hstars =>
    obtain ⟨hname, hname', found, hfound, hfound', -⟩ := hnames
    -- A star is passed on with both names if one stands behind them.
    have hboth := hasStar_synonyms hname hname' hstars rest
    have hname₁ : ctx.catalog.resolve (nameIn (name ++ stars)) = .ok found := by
      rwa [nameIn_append hname hstars]
    have hname₂ : ctx.catalog.resolve (nameIn (name' ++ stars)) = .ok found := by
      rwa [nameIn_append hname' hstars]
    have hpassed := Expansion.resolve_symbolOf hname₁ rest
    have hpassed' := Expansion.resolve_symbolOf hname₂ rest
    rw [hboth] at hpassed'
    exact ⟨_, hpassed, hpassed'⟩

/-- What stands in front of a block behind qualifiers depends on the qualifiers alone. -/
theorem lead_behind_qualifiers {done : Declaration}
    (hdone : ∀ w ∈ done, ∃ q ∈ Declaration.qualifiers, w = q.toList) {name stars : List Char}
    (hname : IsIdent name) (hne : ∀ q ∈ Declaration.qualifiers, name ≠ q.toList)
    (hstars : IsStars stars) (rest : Declaration) :
    Splice.lead (Declaration.text (done.reverse ++ (name ++ stars) :: rest))
        (nameIn (name ++ stars)) =
      spacedBehind (done.reverse.erase "struct".toList) := by
  have hws : ∀ w ∈ done.reverse, IsIdent w ∧ w ≠ name := by
    intro w hw
    obtain ⟨q, hq, rfl⟩ := hdone w (List.mem_reverse.1 hw)
    exact ⟨Declaration.isIdent_of_mem_qualifiers hq, (hne q hq).symm⟩
  exact Splice.lead_behind_words hws hname (hne "struct" (by decide)) hstars rest

/-- The same stands in front of a block in the place of both words. -/
theorem WordRespelled.lead_eq {c : Catalog} (hspares : c.SparesQualifiers) {done : Declaration}
    {word word' : List Char} (h : WordRespelled c done word word') (rest : Declaration) :
    Splice.lead (Declaration.text (done.reverse ++ word' :: rest)) (nameIn word') =
      Splice.lead (Declaration.text (done.reverse ++ word :: rest)) (nameIn word) := by
  cases h with
  | same => rfl
  | type hdone hnames hstars =>
    rw [lead_behind_qualifiers hdone hnames.ident
        (fun q hq => (hnames.ne_qualifier hspares hq).1) hstars,
      lead_behind_qualifiers hdone hnames.ident'
        (fun q hq => (hnames.ne_qualifier hspares hq).2) hstars]

/-! ### Entering a struct -/

/-- What is found where a struct is to be entered is found in the other workspace: no body in
either, or bodies with declarations that are spelled in another way. -/
inductive Opening.Respelled (c : Catalog) : Opening → Opening → Prop where
  /-- No body. -/
  | leaf (name : List Char) (cause : LeafCause) : Respelled c (.leaf name cause) (.leaf name cause)
  /-- Bodies of the same struct. -/
  | body (resolved : Resolved) {text text' : List Char}
    (h : List.Forall₂ (Declaration.Respelled c) (Declaration.all text) (Declaration.all text')) :
    Respelled c (.body resolved text) (.body resolved text')

/-- A struct is entered alike in both workspaces. -/
theorem exists_opening_respelled (h : ctx.Respells s s' ctx') {p : Prop} {run run' read : Run}
    (hrun : run.Sound s) (hrun' : run'.Sound s') (hparallel : run.Parallels p run')
    {symbol symbol' : List Char} {resolved : Resolved}
    (hresolve : ctx.catalog.resolve symbol = .ok resolved)
    (hresolve' : ctx.catalog.resolve symbol' = .ok resolved) {depth : Nat} {found : Opening}
    (hopening : opening ctx symbol depth run = (found, read)) :
    ∃ found' read', opening ctx' symbol' depth run' = (found', read') ∧
      found.Respelled ctx.catalog found' ∧ read.Parallels p read' := by
  obtain ⟨found', read', hopening', hfound, hread⟩ :=
    exists_opening_beside h.beside hrun hrun' hparallel hresolve hresolve' hopening
  refine ⟨found', read', hopening', ?_, hread⟩
  cases hfound with
  | leaf name cause => exact .leaf name cause
  | body resolved hall => exact .body resolved hall

end Expansion

end StructUnfold
