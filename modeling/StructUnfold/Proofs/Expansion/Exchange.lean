import StructUnfold.Proofs.Expansion.Members
import StructUnfold.Proofs.Expansion.Parallel
import StructUnfold.Proofs.Expansion.Qualifiers

/-!
# A member in another form

Two workspaces have the same members but for one of them, which is written in another way in the
second. A struct is entered once in a query, so the member is flattened at most once, and if both
forms come to the same block in the state in which that happens, the whole expansions are the same.

* `Replaces`: the members of one struct are replaced by others.
* `Performs.carried`: what is performed in one of two workspaces is performed in the other.
* `Brings`, `brings_of_type`: a declaration becomes the block of a struct.
* `FlattensMember`, `EnterableAt`: where a member is flattened.
* `expand_exchanged`, `expand_scanned_exchanged`: the expansions of both workspaces are the same.
-/

namespace StructUnfold

open Text

/-- The keyword `struct` is no name of the catalog, and nothing is said about it. -/
structure Catalog.SparesKeyword (c : Catalog) : Prop where
  /-- It names no struct. -/
  unnamed : Expansion.structOf? c "struct".toList = none
  /-- It is met without an issue. -/
  quiet : Expansion.issueOf? c "struct".toList = none

/-- Two workspaces know the same names and have the same members, but for one of the struct `outer`,
which is `d` in the first and `d'` in the second. -/
structure Catalog.Exchanges (maxScan : Nat) (s s' : Sources) (outer : String)
    (front : List Declaration) (d d' : Declaration) (back : List Declaration) (c c' : Catalog) :
    Prop where
  /-- The same names are known. -/
  names : c.SameNames c'
  /-- The members of the other structs are the same. -/
  others : ∀ name ∈ c.structs.keys, name ≠ outer →
    c'.members? s' maxScan name = c.members? s maxScan name
  /-- The members of the struct in the first workspace. -/
  members : c.members? s maxScan outer = some (front ++ d :: back)
  /-- Its members in the second workspace. -/
  members' : c'.members? s' maxScan outer = some (front ++ d' :: back)

namespace Expansion

variable {ctx ctx' : Context} {s s' : Sources}

/-! ### Runs in two workspaces -/

/-- The members of a struct are the same, or the struct is `outer` and has `ds'` in the place of
`ds`. -/
def Replaces (outer : String) (ds ds' : List Declaration) (name : String)
    (members members' : List Declaration) : Prop :=
  members' = members ∨ name = outer ∧ members = ds ∧ members' = ds'

/-- What is performed in the second of two workspaces is performed in the first as well. Where the
members of `outer` are flattened, which happens once, the first has to come to the same with its own
members as with those of the second. -/
theorem Performs.carried {outer : String} {ds ds' : List Declaration}
    (h : ctx.Beside (Replaces outer ds ds') s s' ctx') {p : Prop}
    (hp : p → ctx.SameUnparseable ctx') {origin task : Task} {start run run' last' : Run}
    (hexchange : ∀ symbol label depth before resolved text read items last,
      Arises ctx origin start (.enter symbol label depth) before →
      opening ctx symbol depth before = (.body resolved text, read) → read.Sound s →
      resolved.root = outer → Declaration.all text = ds →
      Performs ctx (.declarations depth ds') read (.items items) last →
      ∃ last₁, Performs ctx (.declarations depth ds) read (.items items) last₁ ∧
        last₁.Parallels p last)
    {outcome : Outcome} (hperforms : Performs ctx' task run' outcome last') (hrun : run.Sound s)
    (hrun' : run'.Sound s') (hparallel : run.Parallels p run')
    (hready : task.Ready ctx.catalog run.visited)
    (hwhere : Arises ctx origin start task run ∨ outer ∈ run.visited) :
    ∃ last, Performs ctx task run outcome last ∧ last.Parallels p last' := by
  -- By induction on the derivation. As long as `outer` has not been entered, the tasks of the first
  -- workspace are followed, for only they tell where its members are flattened.
  induction hperforms generalizing run with
  | @leaf symbol label depth run' name cause last' hopening' =>
    obtain ⟨resolved, hresolve, -⟩ := hready
    have hboth := opening_beside h hrun hrun' hparallel hresolve hresolve depth
    rcases hopening : opening ctx symbol depth run with ⟨found, read⟩
    rw [hopening, hopening'] at hboth
    obtain ⟨hfound, hread⟩ := hboth
    cases hfound
    exact ⟨read, .leaf hopening, hread⟩
  | @block symbol label depth run' resolved' text' read' items last' hopening' _ ih =>
    obtain ⟨resolved, hresolve, -, hfresh⟩ := hready
    have hboth := opening_beside h hrun hrun' hparallel hresolve hresolve depth
    rcases hopening : opening ctx symbol depth run with ⟨found, read⟩
    rw [hopening, hopening'] at hboth
    obtain ⟨hfound, hread⟩ := hboth
    have hopens := opens_of_opening_eq hopening
    have hsound := hopens.sound h.reader h.fresh hrun
    have hsound' := (opens_of_opening_eq hopening').sound h.reader' h.fresh' hrun'
    cases hfound with
    | @body _ text _ hmembers =>
      have hmem := hopens.mem_visited hopens.resolve_of_body
      rcases hmembers with hsame | ⟨hroot, hds, hds'⟩
      · rw [hsame] at ih
        obtain ⟨last, hitems, hlast⟩ := ih hsound hsound' hread trivial
          (hwhere.imp (fun harises => harises.body hopening) hopens.visited_suffix.mem)
        exact ⟨last, .block hopening hitems, hlast⟩
      · obtain ⟨last₁, hitems₁, hlast₁⟩ := ih hsound hsound' hread trivial (.inr (hroot ▸ hmem))
        have harises := hwhere.resolve_right fun hvisited => by
          obtain rfl := Except.ok.inj (hresolve.symm.trans hopens.resolve_of_body)
          exact hfresh (hroot ▸ hvisited)
        rw [hds'] at hitems₁
        obtain ⟨last, hitems, hlast⟩ := hexchange _ _ _ _ _ _ _ _ _ harises hopening hsound hroot
          hds hitems₁
        rw [← hds] at hitems
        refine ⟨last, .block hopening hitems, ⟨?_, fun hq => ?_⟩⟩
        · rw [hlast₁.visited, hlast.visited]
        · rw [hlast₁.issues hq, hlast.issues hq]
  | nil => exact ⟨run, .nil, hparallel⟩
  | cons _ hitems' ihitem ihitems =>
    rename_i hitem'
    obtain ⟨mid, hitem, hmid⟩ := ihitem hrun hrun' hparallel trivial
      (hwhere.imp_left fun harises => harises.first)
    obtain ⟨last, hitems, hlast⟩ := ihitems (hitem.sound h.reader h.fresh hrun)
      (hitem'.sound h.reader' h.fresh' hrun') hmid trivial
      (hwhere.imp (fun harises => harises.behind hitem) hitem.visited_suffix.mem)
    exact ⟨last, .cons hitem hitems, hlast⟩
  | line => exact ⟨run, .line, hparallel⟩
  | @settle depth done word rest run' text issue' item last' hverdict' _ ih =>
    rw [hparallel.visited] at hverdict'
    have hboth := verdict_same h.names h.options hp depth word rest run.visited
    rw [hverdict'] at hboth
    generalize hverdict : verdict ctx depth word rest run.visited = v at hboth
    cases hboth with
    | settle _ hkinds =>
      obtain ⟨last, hrest, hlast⟩ := ih (hrun.noteAll_verdict hverdict)
        (hrun'.noteAll_verdict hverdict') (hparallel.noteAll hkinds) trivial
        (hwhere.imp_left fun harises => harises.settle hverdict)
      exact ⟨last, .settle hverdict hrest, hlast⟩
  | @name depth done word rest run' leaf cause mid' item last' hverdict' henter' _ ihenter ihrest =>
    have hverdict := verdict_eq_enter h.names h.options (hparallel.visited ▸ hverdict')
    obtain ⟨mid, henter, hmid⟩ := ihenter hrun hrun' hparallel (ready_of_verdict_eq_enter hverdict)
      (hwhere.imp_left fun harises => harises.enter hverdict)
    obtain ⟨last, hrest, hlast⟩ := ihrest (henter.sound h.reader h.fresh hrun)
      (henter'.sound h.reader' h.fresh' hrun') hmid trivial
      (hwhere.imp (fun harises => harises.name hverdict henter) henter.visited_suffix.mem)
    exact ⟨last, .name hverdict henter hrest, hlast⟩
  | nest hverdict' _ ihenter =>
    have hverdict := verdict_eq_enter h.names h.options (hparallel.visited ▸ hverdict')
    obtain ⟨last, henter, hlast⟩ := ihenter hrun hrun' hparallel
      (ready_of_verdict_eq_enter hverdict)
      (hwhere.imp_left fun harises => harises.enter hverdict)
    exact ⟨last, .nest hverdict henter, hlast⟩

/-- What is performed in a state is performed in one beside it. -/
theorem Performs.parallel (hreader : ctx.reader = s.reader) (hfresh : ctx.catalog.FreshIn s)
    {p : Prop} {task : Task} {run run' last' : Run} {outcome : Outcome}
    (hperforms : Performs ctx task run' outcome last') (hrun : run.Sound s) (hrun' : run'.Sound s)
    (hparallel : run.Parallels p run') (hready : task.Ready ctx.catalog run.visited) :
    ∃ last, Performs ctx task run outcome last ∧ last.Parallels p last' := by
  -- A workspace stands beside itself, and nothing is replaced in it.
  have hself : ctx.Beside (Replaces "" [] []) s s ctx :=
    { names := ⟨rfl, fun _ => rfl⟩
      members := fun name _ => by
        cases ctx.catalog.members? s ctx.options.maxScan name with
        | none => exact .none
        | some ds => exact .some (.inl rfl)
      reader := hreader
      reader' := hreader
      options := rfl
      fresh := hfresh
      fresh' := hfresh }
  exact hperforms.carried hself (fun _ => rfl)
    (fun _ _ _ _ _ _ _ _ last _ _ _ _ _ h => ⟨last, h, .refl p last⟩) hrun hrun' hparallel hready
    (.inl .self)

/-! ### Declarations that become a block -/

/-- Behind the words `front` of a declaration, which name no struct, a word names the struct `root`,
whose block would have this label and stand behind the text `lead`. -/
def Brings (c : Catalog) (front : Declaration) (root : String) (lead label : List Char)
    (d : Declaration) : Prop :=
  ∃ word rest isPointer, d = front ++ word :: rest ∧
    (∀ other ∈ front, structOf? c other = none) ∧ Names c word ⟨root, isPointer⟩ ∧
    Splice.lead (Declaration.text d) (nameIn word) = lead ∧
    labelOf ⟨root, hasStar word rest || isPointer⟩ (declaratorOf (Declaration.text rest)) = label

/-- A type with stars behind it brings the block of its struct, whether the keyword stands before it
or not. Nothing stands in front of the block. -/
theorem brings_of_type {c : Catalog} (hkeyword : c.SparesKeyword) {front : Declaration}
    (hfront : front = [] ∨ front = ["struct".toList]) {name stars : List Char}
    (hname : IsIdent name) (hstars : IsStars stars) {root : String} {isPointer : Bool}
    (hnames : Names c name ⟨root, isPointer⟩) (rest : Declaration) :
    Brings c front root []
      (labelOf ⟨root, hasStar (name ++ stars) rest || isPointer⟩
        (declaratorOf (Declaration.text rest)))
      (front ++ (name ++ stars) :: rest) := by
  have hnone : IsStars [] := nofun
  have hbare := nameIn_append hname hnone
  rw [List.append_nil] at hbare
  have hnameIn := (nameIn_append hname hstars).trans hbare.symm
  -- No struct is named by the keyword.
  have hne : name ≠ "struct".toList := by
    rintro rfl
    have hsome := structOf?_eq_some_iff.2 ⟨hnames.named, ⟨isPointer, hnames.resolves⟩,
      hnames.defined⟩
    rw [hkeyword.unnamed] at hsome
    cases hsome
  have hwords : ∀ w ∈ front, w = "struct".toList := by
    rcases hfront with rfl | rfl
    · exact nofun
    · exact fun w hw => List.mem_singleton.1 hw
  refine ⟨name ++ stars, rest, isPointer, rfl, fun w hw => hwords w hw ▸ hkeyword.unnamed,
    ⟨by rw [hnameIn]; exact hnames.named, by rw [hnameIn]; exact hnames.resolves,
      hnames.defined⟩, ?_, rfl⟩
  rw [Splice.lead_behind_words (fun w hw => ?_) hname hne hstars]
  · rcases hfront with rfl | rfl <;> rfl
  · rw [hwords w hw]
    exact ⟨by decide, hne.symm⟩

/-- The issues of words that name no struct keep a state sound. -/
theorem Run.Sound.noteAll_unnamed {run : Run} (hrun : run.Sound s) {front : Declaration}
    (hfront : ∀ other ∈ front, structOf? ctx.catalog other = none) :
    (run.noteAll (front.filterMap (issueOf? ctx.catalog))).Sound s := by
  refine hrun.noteAll fun issue hissue => ?_
  obtain ⟨word, hword, hissue⟩ := List.mem_filterMap.1 hissue
  have hverdict := verdict_of_structOf?_eq_none (hfront word hword)
    (show AllDefined ctx.catalog [] from nofun) 0 []
  rw [hissue] at hverdict
  exact not_isStale_of_verdict hverdict

section

variable {front front' d d' : Declaration} {root : String} {lead label : List Char}
  {ds : List Declaration} {depth : Nat} {run last : Run} {item : Item}

/-- Where the struct can be entered, the declaration becomes its block. -/
theorem Brings.item_eq (h : Brings ctx.catalog front root lead label d)
    (hreader : ctx.reader = s.reader) (hfresh : ctx.catalog.FreshIn s)
    (hmembers : ctx.catalog.members? s ctx.options.maxScan root = some ds) (hrun : run.Sound s)
    (hdefined : AllDefined ctx.catalog run.visited) (hunvisited : root ∉ run.visited)
    (hshallow : depth + 1 < ctx.options.maxDepth)
    (hperforms : Performs ctx (.words depth [] d) run (.item item) last) :
    ∃ definition items, ctx.catalog.structs.get? root = some definition ∧
      Performs ctx (.declarations (depth + 1) ds)
        (body ctx root definition
          ((run.noteAll (front.filterMap (issueOf? ctx.catalog))).visit root)).2
        (.items items) last ∧
      item = .nested lead root label items := by
  obtain ⟨word, rest, isPointer, rfl, hfront, hnames, rfl, rfl⟩ := h
  have hrest := hperforms.rest_of_unnamed hfront hdefined
  have hsound := (hrun.noteAll_unnamed hfront).visit root
  rw [List.append_nil] at hrest
  cases hrest.becomes hnames with
  | visited hvisited => exact absurd hvisited hunvisited
  | deep _ hdeep => exact absurd hshallow (Nat.not_lt.2 hdeep)
  | unreadable _ _ definition issue read hget hbody =>
    -- The body of the struct is found, for it has members.
    rcases exists_body_eq hsound hreader hfresh hget with ⟨text, htext, -⟩ | ⟨e, -, hnone⟩
    · rw [hbody] at htext
      cases htext
    · rw [hmembers] at hnone
      cases hnone
  | nested _ _ definition text read items hget hbody hitems hitem =>
    rcases exists_body_eq hsound hreader hfresh hget with ⟨text', htext, hsome⟩ | ⟨e, -, hnone⟩
    · rw [hbody] at htext
      obtain rfl := Except.ok.inj htext
      obtain rfl := Option.some.inj (hmembers.symm.trans hsome)
      rw [List.reverse_reverse] at hitem
      exact ⟨definition, items, hget, by rwa [hbody], hitem⟩
    · rw [hmembers] at hnone
      cases hnone

/-- Of two declarations that become the same block either can stand in the place of the other, where
the struct can be entered. -/
theorem Brings.exchange (h : Brings ctx.catalog front root lead label d)
    (h' : Brings ctx.catalog front' root lead label d') (hreader : ctx.reader = s.reader)
    (hfresh : ctx.catalog.FreshIn s)
    (hmembers : ctx.catalog.members? s ctx.options.maxScan root = some ds) {p : Prop}
    (hkinds : p → (front'.filterMap (issueOf? ctx.catalog)).map Problem.kind =
      (front.filterMap (issueOf? ctx.catalog)).map Problem.kind)
    (hrun : run.Sound s) (hdefined : AllDefined ctx.catalog run.visited)
    (hunvisited : root ∉ run.visited) (hshallow : depth + 1 < ctx.options.maxDepth)
    (hperforms : Performs ctx (.words depth [] d') run (.item item) last) :
    ∃ last₁, Performs ctx (.words depth [] d) run (.item item) last₁ ∧ last₁.Parallels p last := by
  -- Both are performed. The bodies of their blocks are the same and are flattened in states that
  -- differ in the issues of the words before at most.
  have hperforms₁ := performs_flattenWords (entersUpTo_enterWithin ctx _) depth [] d
    (Nat.le_refl (unvisited ctx.catalog run.visited))
  obtain ⟨definition', items', hget', hitems', rfl⟩ :=
    h'.item_eq hreader hfresh hmembers hrun hdefined hunvisited hshallow hperforms
  obtain ⟨definition, items, hget, hitems, hitem⟩ :=
    h.item_eq hreader hfresh hmembers hrun hdefined hunvisited hshallow hperforms₁
  obtain rfl := Option.some.inj (hget.symm.trans hget')
  have hread : ∀ {words : Declaration}, (∀ other ∈ words, structOf? ctx.catalog other = none) →
      (body ctx root definition
        ((run.noteAll (words.filterMap (issueOf? ctx.catalog))).visit root)).2.Sound s := by
    intro words hwords
    obtain ⟨text, htext, hregisters⟩ := hfresh _ _ hget
    exact (((hrun.noteAll_unnamed hwords).visit root).body hreader htext hregisters).1
  have hparallel := (((Run.Parallels.refl p run).noteAll hkinds).visit root).body ctx ctx root
    definition definition
  obtain ⟨-, -, -, -, hfront, -⟩ := h
  obtain ⟨-, -, -, -, hfront', -⟩ := h'
  obtain ⟨last₂, hitems₂, hlast⟩ :=
    hitems'.parallel hreader hfresh (hread hfront) (hread hfront') hparallel trivial
  obtain ⟨heq, rfl⟩ := hitems₂.unique hitems
  obtain rfl := Outcome.items.inj heq
  exact ⟨_, hitem ▸ hperforms₁, hlast⟩

end

/-! ### A member in another form -/

variable {outer : String} {front back : List Declaration}
  {d d' : Declaration}

/-- In a query, the member of the struct `outer` that stands behind the members `front` is flattened
in this state, `depth` blocks deep. -/
def FlattensMember (ctx : Context) (query : List Char) (outer : String) (front : List Declaration)
    (depth : Nat) (run : Run) : Prop :=
  ∃ symbol label before resolved text read items,
    ArisesIn ctx query (.enter symbol label depth) before ∧
    opening ctx symbol depth before = (.body resolved text, read) ∧ resolved.root = outer ∧
    Performs ctx (.declarations depth front) read (.items items) run

/-- Wherever a query flattens the member, the struct `root` has not been entered and does not lie
too deep. -/
def EnterableAt (ctx : Context) (query : List Char) (outer : String) (front : List Declaration)
    (root : String) : Prop :=
  ∀ depth run, FlattensMember ctx query outer front depth run →
    root ∉ run.visited ∧ depth + 1 < ctx.options.maxDepth

/-- Declarations are flattened one after the other. -/
theorem Performs.exists_of_append {depth : Nat} {ds ds' : List Declaration} {run last : Run}
    {items : List Item}
    (h : Performs ctx (.declarations depth (ds ++ ds')) run (.items items) last) :
    ∃ front mid back, items = front ++ back ∧
      Performs ctx (.declarations depth ds) run (.items front) mid ∧
      Performs ctx (.declarations depth ds') mid (.items back) last := by
  induction ds generalizing run items with
  | nil => exact ⟨[], run, items, rfl, .nil, h⟩
  | cons d ds ih =>
    cases h with
    | cons hitem hitems =>
      obtain ⟨front, mid, back, rfl, hfront, hback⟩ := ih hitems
      exact ⟨_, mid, back, rfl, .cons hitem hfront, hback⟩

theorem Performs.append {depth : Nat} {ds ds' : List Declaration} {run mid last : Run}
    {front back : List Item} (hfront : Performs ctx (.declarations depth ds) run (.items front) mid)
    (hback : Performs ctx (.declarations depth ds') mid (.items back) last) :
    Performs ctx (.declarations depth (ds ++ ds')) run (.items (front ++ back)) last := by
  induction ds generalizing run front with
  | nil =>
    cases hfront with
    | nil => exact hback
  | cons d ds ih =>
    cases hfront with
    | cons hitem hitems => exact .cons hitem (ih hitems)

/-- The member is one of the tasks of the query. -/
theorem Arises.behind_all {task : Task} {run before mid : Run} {depth : Nat}
    {ds ds' : List Declaration} {items : List Item}
    (h : Arises ctx task run (.declarations depth (ds ++ ds')) before)
    (hperforms : Performs ctx (.declarations depth ds) before (.items items) mid) :
    Arises ctx task run (.declarations depth ds') mid := by
  induction ds generalizing before items with
  | nil =>
    cases hperforms with
    | nil => exact h
  | cons d ds ih =>
    cases hperforms with
    | cons hitem hitems => exact ih (h.behind hitem) hitems

/-- The states in which tasks arise are sound. -/
theorem Arises.sound {task sub : Task} {run before : Run} (h : Arises ctx task run sub before)
    (hreader : ctx.reader = s.reader) (hfresh : ctx.catalog.FreshIn s) (hrun : run.Sound s) :
    before.Sound s := by
  induction h with
  | self => exact hrun
  | body _ hopening ih => exact (opens_of_opening_eq hopening).sound hreader hfresh ih
  | first _ ih => exact ih
  | behind _ hitem ih => exact hitem.sound hreader hfresh ih
  | settle _ hverdict ih => exact ih.noteAll_verdict hverdict
  | enter _ _ ih => exact ih
  | name _ _ henter ih => exact henter.sound hreader hfresh ih

theorem Opens.members?_eq {symbol text : List Char} {depth : Nat} {run read : Run}
    {resolved : Resolved} (h : Opens ctx symbol depth run (.body resolved text) read)
    (hreader : ctx.reader = s.reader) (hfresh : ctx.catalog.FreshIn s) (hrun : run.Sound s) :
    ctx.catalog.members? s ctx.options.maxScan resolved.root = some (Declaration.all text) := by
  cases h with
  | body _ _ hget hbody =>
    rcases exists_body_eq (hrun.visit resolved.root) hreader hfresh hget with
      ⟨text', htext, hmembers⟩ | ⟨e, he, -⟩
    · rw [hbody] at htext
      rwa [Except.ok.inj htext]
    · rw [hbody] at he
      cases he

/-- Where the member is flattened, that is one of the tasks of the query. -/
theorem FlattensMember.arisesIn {query : List Char} {depth : Nat} {run : Run}
    (h : FlattensMember ctx query outer front depth run) (hreader : ctx.reader = s.reader)
    (hfresh : ctx.catalog.FreshIn s)
    (hmembers : ctx.catalog.members? s ctx.options.maxScan outer = some (front ++ d :: back)) :
    ArisesIn ctx query (.words depth [] d) run ∧ run.Sound s := by
  obtain ⟨symbol, label, before, resolved, text, read, items, harises, hopening, rfl, hfront⟩ := h
  have hopens := opens_of_opening_eq hopening
  have hsound := Arises.sound harises hreader hfresh (.start s)
  have hall := hopens.members?_eq hreader hfresh hsound
  have hbody := Arises.body harises hopening
  rw [Option.some.inj (hall.symm.trans hmembers)] at hbody
  have hmember := hbody.behind_all hfront
  exact ⟨hmember.first, hmember.sound hreader hfresh (.start s)⟩

/-- Two contexts stand beside each other if their workspaces differ in one member. -/
theorem Context.beside_of_exchanges
    (h : ctx.catalog.Exchanges ctx.options.maxScan s s' outer front d d' back ctx'.catalog)
    (hreader : ctx.reader = s.reader) (hreader' : ctx'.reader = s'.reader)
    (hoptions : ctx'.options = ctx.options) (hfresh : ctx.catalog.FreshIn s)
    (hfresh' : ctx'.catalog.FreshIn s') :
    ctx.Beside (Replaces outer (front ++ d :: back) (front ++ d' :: back)) s s' ctx' where
  names := h.names
  members := by
    intro name hname
    by_cases hne : name = outer
    · rw [hne, h.members, h.members']
      exact .some (.inr ⟨rfl, rfl, rfl⟩)
    · rw [h.others name hname hne]
      cases ctx.catalog.members? s ctx.options.maxScan name with
      | none => exact .none
      | some ds => exact .some (.inl rfl)
  reader := hreader
  reader' := hreader'
  options := hoptions
  fresh := hfresh
  fresh' := hfresh'

/-- Members come to the same with `d` in the place of `d'`, if the two come to the same in the state
in which the members before them are flattened. -/
theorem Performs.exchange_member (hreader : ctx.reader = s.reader)
    (hfresh : ctx.catalog.FreshIn s) {p : Prop} {depth : Nat} {read last : Run} {items : List Item}
    (hread : read.Sound s)
    (hexchange : ∀ items mid, Performs ctx (.declarations depth front) read (.items items) mid →
      ∀ item after, Performs ctx (.words depth [] d') mid (.item item) after →
      ∃ after₁, Performs ctx (.words depth [] d) mid (.item item) after₁ ∧
        after₁.Parallels p after)
    (h : Performs ctx (.declarations depth (front ++ d' :: back)) read (.items items) last) :
    ∃ last₁, Performs ctx (.declarations depth (front ++ d :: back)) read (.items items) last₁ ∧
      last₁.Parallels p last := by
  obtain ⟨frontItems, mid, backItems, rfl, hfront, hback⟩ := h.exists_of_append
  have hmid := hfront.sound hreader hfresh hread
  cases hback with
  | cons hitem' hback' =>
    obtain ⟨after₁, hitem, hafter⟩ := hexchange _ _ hfront _ _ hitem'
    obtain ⟨last₁, hback, hlast⟩ := hback'.parallel hreader hfresh
      (hitem.sound hreader hfresh hmid) (hitem'.sound hreader hfresh hmid) hafter trivial
    exact ⟨last₁, hfront.append (.cons hitem hback), hlast⟩

/-- **A member may be exchanged for one that comes to the same.** If wherever a query flattens the
member of the first workspace, that of the second would become the same item, then the query comes
to the same in both. -/
theorem expand_exchanged
    (h : ctx.Beside (Replaces outer (front ++ d :: back) (front ++ d' :: back)) s s' ctx')
    {p : Prop} (hp : p → ctx.SameUnparseable ctx') {query : List Char}
    (hexchange : ∀ depth run, FlattensMember ctx query outer front depth run → ∀ item last,
      Performs ctx (.words depth [] d') run (.item item) last →
      ∃ last₁, Performs ctx (.words depth [] d) run (.item item) last₁ ∧ last₁.Parallels p last)
    {e : Expansion} (hexpand : expand ctx query = .ok e) :
    ∃ e', expand ctx' query = .ok e' ∧ e'.entered = e.entered ∧
      (p → e'.issues.map Problem.kind = e.issues.map Problem.kind) := by
  obtain ⟨⟨resolved, hresolve, hdefined⟩, hperforms⟩ := performs_of_expand hexpand
  have haccepts' : Accepts ctx'.catalog query :=
    ⟨resolved, by rw [h.names.resolve, hresolve], by rw [h.names.contains, hdefined]⟩
  obtain ⟨e', he', hperforms'⟩ := performs_expand haccepts'
  have hready : Opening.Ready ctx.catalog (Text.trim query) Run.start.visited :=
    ⟨resolved, hresolve, hdefined, List.not_mem_nil⟩
  obtain ⟨last, hcarried, hlast⟩ := hperforms'.carried h hp
    (fun _ _ _ _ _ _ _ _ _ harises hopening hread hroot _ hitems =>
      hitems.exchange_member h.reader h.fresh hread fun _ _ hfront =>
        hexchange _ _ ⟨_, _, _, _, _, _, _, harises, hopening, hroot, hfront⟩)
    (.start s) (.start s') .start hready (.inl .self)
  obtain ⟨hentered, hrun⟩ := hcarried.unique hperforms
  refine ⟨e', he', Outcome.entered.inj hentered, fun hq => ?_⟩
  rw [issues, issues, ← hrun]
  exact hlast.issues hq

/-- Where a member is flattened that brings a block, it becomes the block, which stands in the
expansion, if its struct can be entered. -/
theorem Brings.exists_block {words : Declaration} {root : String} {lead label : List Char}
    (hd : Brings ctx.catalog words root lead label d) (hreader : ctx.reader = s.reader)
    (hfresh : ctx.catalog.FreshIn s)
    (hmembers : ctx.catalog.members? s ctx.options.maxScan outer = some (front ++ d :: back))
    (hbody : (ctx.catalog.members? s ctx.options.maxScan root).isSome = true) {query : List Char}
    (henterable : EnterableAt ctx query outer front root) {e : Expansion}
    (hexpand : expand ctx query = .ok e) {depth : Nat} {run : Run}
    (hflattens : FlattensMember ctx query outer front depth run) :
    ∃ items last,
      Performs ctx (.words depth [] d) run (.item (.nested lead root label items)) last ∧
        .nested lead root label items ∈ e.entered.members := by
  obtain ⟨ds, hds⟩ := Option.isSome_iff_exists.1 hbody
  obtain ⟨harises, hsound⟩ := hflattens.arisesIn hreader hfresh hmembers
  obtain ⟨hdefined, item, last, hmem, hperforms⟩ := harises.exists_item hexpand
  obtain ⟨hunvisited, hshallow⟩ := henterable depth run hflattens
  obtain ⟨-, items, -, -, rfl⟩ :=
    hd.item_eq hreader hfresh hds hsound hdefined hunvisited hshallow hperforms
  exact ⟨items, last, hperforms, hmem⟩

/-- Members that bring the same block may be exchanged for each other where its struct can be
entered. -/
theorem expand_exchanged_of_brings
    (h : ctx.Beside (Replaces outer (front ++ d :: back) (front ++ d' :: back)) s s' ctx')
    (hmembers : ctx.catalog.members? s ctx.options.maxScan outer = some (front ++ d :: back))
    {words words' : Declaration} {root : String} {lead label : List Char}
    (hd : Brings ctx.catalog words root lead label d)
    (hd' : Brings ctx.catalog words' root lead label d')
    (hbody : (ctx.catalog.members? s ctx.options.maxScan root).isSome = true) {p : Prop}
    (hp : p → ctx.SameUnparseable ctx')
    (hkinds : p → (words'.filterMap (issueOf? ctx.catalog)).map Problem.kind =
      (words.filterMap (issueOf? ctx.catalog)).map Problem.kind) {query : List Char}
    (henterable : EnterableAt ctx query outer front root) {e : Expansion}
    (hexpand : expand ctx query = .ok e) :
    ∃ e', expand ctx' query = .ok e' ∧ e'.entered = e.entered ∧
      (p → e'.issues.map Problem.kind = e.issues.map Problem.kind) := by
  obtain ⟨ds, hds⟩ := Option.isSome_iff_exists.1 hbody
  refine expand_exchanged h hp (fun depth run hflattens item last hperforms => ?_) hexpand
  obtain ⟨harises, hsound⟩ := hflattens.arisesIn h.reader h.fresh hmembers
  obtain ⟨hdefined, -⟩ := harises.exists_item hexpand
  obtain ⟨hunvisited, hshallow⟩ := henterable depth run hflattens
  exact hd.exchange hd' h.reader h.fresh hds hkinds hsound hdefined hunvisited hshallow hperforms

/-! ### Members of the struct that is asked for -/

/-- In the course of entering a struct, it counts as entered wherever another task arises. -/
theorem Arises.self_or_visited {symbol label : List Char} {depth : Nat} {sub : Task}
    {run before : Run} (h : Arises ctx (.enter symbol label depth) run sub before)
    {root : String} {isPointer : Bool}
    (hresolve : ctx.catalog.resolve symbol = .ok ⟨root, isPointer⟩) :
    sub = .enter symbol label depth ∧ before = run ∨ root ∈ before.visited := by
  induction h with
  | self => exact .inl ⟨rfl, rfl⟩
  | body _ hopening ih =>
    have hopens := opens_of_opening_eq hopening
    rcases ih with ⟨htask, -⟩ | hvisited
    · cases htask
      exact .inr (hopens.mem_visited hresolve)
    · exact .inr (hopens.visited_suffix.mem hvisited)
  | first _ ih => exact .inr (ih.resolve_left nofun)
  | behind _ hitem ih => exact .inr (hitem.visited_suffix.mem (ih.resolve_left nofun))
  | settle _ _ ih => exact .inr (ih.resolve_left nofun)
  | enter _ _ ih => exact .inr (ih.resolve_left nofun)
  | name _ _ henter ih => exact .inr (henter.visited_suffix.mem (ih.resolve_left nofun))

/-- A member of the struct that is asked for is flattened at the top, behind the members before it
and nothing else. -/
theorem FlattensMember.of_query {query : List Char} {depth : Nat} {run : Run} {isPointer : Bool}
    (h : FlattensMember ctx query outer front depth run)
    (hresolve : ctx.catalog.resolve (Text.trim query) = .ok ⟨outer, isPointer⟩)
    (hdefined : ctx.catalog.structs.contains outer = true) :
    depth = 0 ∧ ∃ items, Performs ctx (.declarations 0 front)
      (opening ctx (Text.trim query) 0 Run.start).2 (.items items) run := by
  obtain ⟨symbol, label, before, resolved, text, read, items, harises, hopening, rfl, hfront⟩ := h
  have hready := (Arises.allDefined harises
    (show Opening.Ready _ _ _ from ⟨_, hresolve, hdefined, List.not_mem_nil⟩) nofun).1
  obtain ⟨resolved', hresolve', -, hfresh⟩ := hready
  have hbody := (opens_of_opening_eq hopening).resolve_of_body
  obtain rfl := Except.ok.inj (hresolve'.symm.trans hbody)
  obtain ⟨htask, rfl⟩ := (Arises.self_or_visited harises hresolve).resolve_right hfresh
  cases htask
  exact ⟨rfl, items, by rwa [hopening]⟩

/-- The first member of the struct that is asked for is flattened when its body has been read. -/
theorem FlattensMember.first {query text : List Char} {resolved : Resolved}
    (hopening : (opening ctx (Text.trim query) 0 Run.start).1 = .body resolved text) :
    FlattensMember ctx query resolved.root [] 0 (opening ctx (Text.trim query) 0 Run.start).2 :=
  ⟨_, _, _, resolved, text, _, [], .self, Prod.ext hopening rfl, rfl, .nil⟩

/-- There the struct of its type can be entered if it is another one. -/
theorem EnterableAt.first {query : List Char} {isPointer : Bool} {root : String}
    (hresolve : ctx.catalog.resolve (Text.trim query) = .ok ⟨outer, isPointer⟩)
    (hdefined : ctx.catalog.structs.contains outer = true)
    (hunvisited : root ∉ (opening ctx (Text.trim query) 0 Run.start).2.visited)
    (hshallow : 1 < ctx.options.maxDepth) : EnterableAt ctx query outer [] root := by
  intro depth run hflattens
  obtain ⟨rfl, items, hfront⟩ := hflattens.of_query hresolve hdefined
  cases hfront with
  | nil => exact ⟨hunvisited, hshallow⟩

/-! ### Workspaces that are scanned -/

/-- A workspace that has been scanned, with a reader of the same texts. -/
def Context.scanned (maxScan : Nat) (files : List (Path × List Char)) (hops : Option Nat)
    (options : Options) : Context :=
  ⟨(Scan.workspace maxScan files).1.setMaxAliasHops hops, (Sources.ofList files).reader, options⟩

theorem Context.freshIn_scanned (maxScan : Nat) (files : List (Path × List Char))
    (hops : Option Nat) (options : Options) :
    (Context.scanned maxScan files hops options).catalog.FreshIn (Sources.ofList files) :=
  fun name d hget => Scan.freshIn_workspace maxScan files name d hget

/-- `expand_exchanged_of_brings` for workspaces that are scanned and words that are met without an
issue. -/
theorem expand_scanned_exchanged {maxScan : Nat} {files files' : List (Path × List Char)}
    {hops : Option Nat} {options : Options}
    (hctx : ctx = .scanned maxScan files hops options)
    (hctx' : ctx' = .scanned maxScan files' hops options)
    (h : ctx.catalog.Exchanges options.maxScan (.ofList files) (.ofList files') outer front d d'
      back ctx'.catalog)
    {words words' : Declaration} {root : String} {lead label : List Char}
    (hd : Brings ctx.catalog words root lead label d)
    (hd' : Brings ctx.catalog words' root lead label d')
    (hquiet : words.filterMap (issueOf? ctx.catalog) = [])
    (hquiet' : words'.filterMap (issueOf? ctx.catalog) = [])
    (hbody : (ctx.catalog.members? (.ofList files) options.maxScan root).isSome = true)
    {query : List Char} (henterable : EnterableAt ctx query outer front root) {e : Expansion}
    (hexpand : expand ctx query = .ok e) :
    ∃ e', expand ctx' query = .ok e' ∧ e'.text options.indentWidth = e.text options.indentWidth ∧
      (ctx.SameUnparseable ctx' → e'.issues.map Problem.kind = e.issues.map Problem.kind) := by
  subst hctx hctx'
  have hbeside : (Context.scanned maxScan files hops options).Beside
      (Replaces outer (front ++ d :: back) (front ++ d' :: back)) (.ofList files) (.ofList files')
      (Context.scanned maxScan files' hops options) :=
    Context.beside_of_exchanges h rfl rfl rfl (Context.freshIn_scanned maxScan files hops options)
      (Context.freshIn_scanned maxScan files' hops options)
  obtain ⟨e', hexpand', hentered, hissues⟩ :=
    expand_exchanged_of_brings hbeside h.members hd hd' hbody id
      (fun _ => by rw [hquiet, hquiet']) henterable hexpand
  exact ⟨e', hexpand', by rw [text, text, hentered], hissues⟩

end Expansion

end StructUnfold
