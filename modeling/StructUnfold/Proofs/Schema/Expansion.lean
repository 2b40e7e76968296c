import StructUnfold.Proofs.Schema.Flattening

/-!
# Expanding a printed schema

A schema is printed, its source texts are scanned, and a query is expanded from the catalog that
this gives and the texts themselves. The text that comes out is the one that unfolding the schema
shows, without any text in between, as long as no ceiling is met on the way.

The argument follows the run. Each struct is marked as entered before its body is read, so fewer
structs are left inside it, and the induction is on their number; inside a body it is on the
members.

* `UnfoldsBelow`: entering a struct comes to what its members unfold to.
* `Valid.unfolds_of_declarations`: so do the members of a body.
* `Valid.unfoldsBelow`: this holds however many structs are left.
* `Valid.expand_print`: a query shows the text that unfolding the schema shows.
-/

namespace StructUnfold.Schema

open Text Expansion

variable {s : Schema} {maxScan depth : Nat} {options : Expansion.Options}

/-! ### Lines that are drawn -/

namespace Member

variable {m : Member}

/-- The words of a member are words, whatever word stands in the place of its type. -/
theorem isWord_of_mem_wordsWith (hm : IsMember m) {type : List Char} (htype : IsWord type) :
    ∀ w ∈ m.wordsWith type, IsWord w := by
  intro w hw
  rw [wordsWith, List.mem_append, List.mem_cons, List.mem_singleton] at hw
  rcases hw with hw | rfl | rfl
  · split at hw
    · obtain rfl := List.mem_singleton.1 hw
      decide
    · cases hw
  · rw [typeWord]
    split
    · refine ⟨by simp, fun c hc => ?_⟩
      rw [List.mem_append, List.mem_singleton] at hc
      rcases hc with hc | rfl
      · exact htype.no_space c hc
      · rfl
    · exact htype
  · exact isWord_of_mem_words hm _ m.declaratorWord_mem_words

theorem wordsWith_ne_nil (m : Member) (type : List Char) : m.wordsWith type ≠ [] :=
  List.append_ne_nil_of_right_ne_nil _ (List.cons_ne_nil _ _)

theorem isLine_text (hm : IsMember m) : IsLine m.text :=
  isLine_joinWords (m.wordsWith_ne_nil _) fun w hw =>
    isLine_of_isWord (isWord_of_mem_words hm w hw)

theorem isLine_renamed (hm : IsMember m) {root : String} (hroot : isIdentifier root.toList = true)
    (isPointer : Bool) : IsLine (m.renamed root isPointer) := by
  have hident := isIdent_of_isIdentifier hroot
  refine isLine_joinWords (m.wordsWith_ne_nil _) fun w hw =>
    isLine_of_isWord (isWord_of_mem_wordsWith hm ?_ w hw)
  split
  · refine ⟨by simp, fun c hc => ?_⟩
    rw [List.mem_append, List.mem_singleton] at hc
    rcases hc with hc | rfl
    · exact hident.no_space c hc
    · rfl
  · exact hident.isWord

theorem isLine_label (hm : IsMember m) (isPointer : Bool) : IsLine (m.label isPointer) := by
  rw [label]
  split
  · exact ⟨by decide, by decide, by decide⟩
  · exact isLine_of_isWord (isWord_of_mem_words hm _ m.declaratorWord_mem_words)

end Member

/-! ### Structs and their members -/

/-- Where fewer than `n` structs are left, entering one of them gives its block, in which its
members are unfolded. -/
def UnfoldsBelow (s : Schema) (maxScan : Nat) (options : Expansion.Options) (n : Nat) : Prop :=
  ∀ ⦃symbol label depth run e run' root isPointer members⦄,
    unvisited (s.context maxScan options).catalog run.visited < n →
    (s.context maxScan options).catalog.resolve symbol = .ok ⟨root, isPointer⟩ →
    s.HasStruct root members → root ∉ run.visited → run.Sound s.sources → run'.BelowCeilings →
    Performs (s.context maxScan options) (.enter symbol label depth) run (.entered e) run' →
    ∃ items inner, e = .block ⟨root, labelOf ⟨root, isPointer⟩ label, items⟩ ∧
      s.Unfolds options.indentWidth (root :: run.visited) members inner run'.visited ∧
      DrawnAs options.indentWidth items inner

namespace Valid

/-- The members of a body are unfolded one after the other, each in the state that the ones before
it left. -/
theorem unfolds_of_declarations (hs : s.Valid) (hscan : s.ScansWhole maxScan) {n : Nat}
    (hbelow : s.UnfoldsBelow maxScan options n) {ms : List Member} (hms : ∀ m ∈ ms, IsMember m)
    {run run' : Run} {items : List Item}
    (hleft : unvisited (s.context maxScan options).catalog run.visited < n)
    (hrun : run.Sound s.sources) (hceilings : run'.BelowCeilings)
    (h : Performs (s.context maxScan options) (.declarations depth (ms.map Member.words)) run
      (.items items) run') :
    ∃ ls, s.Unfolds options.indentWidth run.visited ms ls run'.visited ∧
      DrawnAs options.indentWidth items ls := by
  induction ms generalizing run items with
  | nil =>
    cases h with
    | nil => exact ⟨[], .nil, drawnAs_nil⟩
  | cons m ms ih =>
    obtain ⟨hm, hms⟩ := List.forall_mem_cons.1 hms
    cases h with
    | @cons _ _ _ _ item mid items _ hitem hitems =>
      have hmid := hceilings.of_isPrefix hitems.issues_isPrefix
      have hsound : mid.Sound s.sources := hitem.sound rfl (s.freshIn_context _ _) hrun
      -- Structs stay marked as entered, so no more of them are left for the rest.
      have hleft' := Nat.lt_of_le_of_lt (unvisited_le_of_suffix _ hitem.visited_suffix) hleft
      obtain ⟨ls, hunfolds, hdrawn⟩ := ih hms hleft' hsound hitems
      have hflattened := hs.flattened_of_performs hscan hm hrun hitem hmid
      -- The member is renamed or kept, or its struct is entered.
      cases hflattened with
      | @name root isPointer _ hresolves hvisited hsame =>
        rw [hsame] at hunfolds
        have hroot := hs.isIdentifier_of_resolves hresolves hm.type
        exact ⟨_, .name hresolves hvisited hunfolds,
          hdrawn.cons_line (Member.isLine_renamed hm hroot isPointer)⟩
      | keep hresolves hfresh hnone hsame =>
        rw [hsame] at hunfolds
        exact ⟨_, .keep hresolves hfresh hnone hunfolds, hdrawn.cons_line (Member.isLine_text hm)⟩
      | @enter root isPointer members symbol start e left _ _ hresolves hfresh hstruct hsymbol
          hstart hsound henter hissues hitem =>
        rw [← hstart] at hfresh hleft
        have hbefore := hmid.of_isPrefix hissues
        obtain ⟨inner, innerLines, rfl, hinner, hinnerDrawn⟩ :=
          hbelow hleft hsymbol hstruct hfresh hsound hbefore henter
        obtain ⟨rfl, rfl⟩ := hitem _ rfl
        rw [hstart] at hinner hfresh
        refine ⟨_, .block hresolves hstruct hfresh hinner hunfolds, ?_⟩
        exact hdrawn.cons_nested hinnerDrawn root (Member.isLine_label hm isPointer)

/-- A struct that has not been entered is opened: its body is found, unless a ceiling is met. -/
theorem exists_body_of_opens (hs : s.Valid) (hscan : s.ScansWhole maxScan) {symbol : List Char}
    {run read : Run} {found : Opening} {root : String} {isPointer : Bool} {members : List Member}
    (hresolve : (s.context maxScan options).catalog.resolve symbol = .ok ⟨root, isPointer⟩)
    (hstruct : s.HasStruct root members) (hfresh : root ∉ run.visited)
    (hrun : run.Sound s.sources)
    (h : Opens (s.context maxScan options) symbol depth run found read)
    (hceilings : read.BelowCeilings) :
    ∃ text, found = .body ⟨root, isPointer⟩ text ∧
      Declaration.all text = members.map Member.words ∧ read.visited = root :: run.visited := by
  have hdefined : (s.context maxScan options).catalog.structs.contains root = true :=
    (hs.contains_structs_iff hscan).2 ⟨members, hstruct⟩
  obtain ⟨d, hd⟩ := Table.contains_eq_true_iff.1 hdefined
  have hbody := hs.body_eq_or hscan options hd hstruct (hrun.visit root)
  -- What could keep the struct from being entered is ruled out one by one.
  cases h with
  | unresolved hresolve' =>
    rw [hresolve] at hresolve'
    cases hresolve'
  | visited hresolve' _ hvisited =>
    rw [hresolve] at hresolve'
    obtain rfl := Except.ok.inj hresolve'
    exact absurd hvisited hfresh
  | undefined hresolve' _ hget =>
    rw [hresolve] at hresolve'
    obtain rfl := Except.ok.inj hresolve'
    rw [hd] at hget
    cases hget
  | @unreadable _ _ issue read hresolve' _ hget hread =>
    rw [hresolve] at hresolve'
    obtain rfl := Except.ok.inj hresolve'
    obtain rfl := Option.some.inj (hd.symm.trans hget)
    rw [hread] at hbody
    rcases hbody with ⟨issue', hissue, hceiling⟩ | ⟨text, htext, -⟩
    · obtain rfl := Except.error.inj hissue
      have hmem : issue ∈ (read.note issue).issues := List.mem_append_right _ (by simp)
      rw [hceilings issue hmem] at hceiling
      cases hceiling
    · cases htext
  | @body _ _ text read hresolve' hfresh' hget hread =>
    have hvisited := (Opens.body hresolve' hfresh' hget hread).visited_eq_of_body
    rw [hresolve] at hresolve'
    obtain rfl := Except.ok.inj hresolve'
    obtain rfl := Option.some.inj (hd.symm.trans hget)
    rw [hread] at hbody
    rcases hbody with ⟨issue', hissue, -⟩ | ⟨text', htext, hall⟩
    · cases hissue
    · obtain rfl := Except.ok.inj htext
      rw [Run.visited_visit, if_neg hfresh] at hvisited
      exact ⟨text, rfl, hall, hvisited⟩

/-- Entering a struct unfolds its members, however many structs are left: each one is marked as
entered before its members are looked at. -/
theorem unfoldsBelow (hs : s.Valid) (hscan : s.ScansWhole maxScan) (options : Expansion.Options)
    (n : Nat) : s.UnfoldsBelow maxScan options n := by
  induction n with
  | zero =>
    intro symbol label depth run e run' root isPointer members hleft
    exact absurd hleft (Nat.not_lt_zero _)
  | succ n ih =>
    intro symbol label depth run e run' root isPointer members hleft hresolve hstruct hfresh hrun
      hceilings h
    cases h with
    | leaf hopening =>
      obtain ⟨text, hbody, -⟩ := hs.exists_body_of_opens hscan hresolve hstruct hfresh hrun
        (opens_of_opening_eq hopening) hceilings
      cases hbody
    | @block _ _ _ _ _ text read items _ hopening hitems =>
      have hopens := opens_of_opening_eq hopening
      have hread := hceilings.of_isPrefix hitems.issues_isPrefix
      obtain ⟨text', hbody, hall, hvisited⟩ :=
        hs.exists_body_of_opens hscan hresolve hstruct hfresh hrun hopens hread
      obtain ⟨rfl, rfl⟩ := Opening.body.inj hbody
      have hdefined : (s.context maxScan options).catalog.structs.contains root = true :=
        (hs.contains_structs_iff hscan).2 ⟨members, hstruct⟩
      -- The struct itself is marked by now, so for its members one less is left.
      have hless := unvisited_cons_lt hdefined hfresh
      rw [← hvisited] at hless
      have hsound := hopens.sound rfl (s.freshIn_context _ _) hrun
      rw [hall] at hitems
      obtain ⟨inner, hinner, hdrawn⟩ := hs.unfolds_of_declarations hscan ih
        (hs.isMember_of_hasStruct hstruct) (by omega) hsound hceilings hitems
      rw [hvisited] at hinner
      exact ⟨items, inner, rfl, hinner, hdrawn⟩

end Valid

/-! ### Queries -/

theorem Resolves.declares {name root : String} {isPointer : Bool} {members : List Member}
    (h : s.Resolves name root isPointer) (hstruct : s.HasStruct root members) :
    s.Declares name := by
  cases h with
  | settled => exact hstruct.declares
  | hop halias => exact halias.declares

/-- A query is trimmed to a name and what stands behind it, which is not empty exactly if there is a
star in it. -/
theorem exists_trim_query {name front back : List Char} (hname : IsIdent name)
    (hfront : ∀ c ∈ front, isSpace c = true)
    (hback : ∀ c ∈ back, Catalog.isSymbolTail c = true) :
    ∃ tail, trim (front ++ (name ++ back)) = name ++ tail ∧ trim (name ++ tail) = name ++ tail ∧
      (∀ c ∈ tail, Catalog.isSymbolTail c = true) ∧ (!tail.isEmpty) = back.contains '*' := by
  obtain ⟨space, htail, hspace⟩ := exists_dropEndWhile_append isSpace back
  have hmem : ∀ c ∈ trimEnd back, c ∈ back := by
    intro c hc
    rw [htail]
    exact List.mem_append_left _ hc
  refine ⟨trimEnd back, ?_, ?_, fun c hc => hback c (hmem c hc), ?_⟩
  · rw [trim_append_of_all _ hfront, trim_isWord_append hname.isWord]
  · have htwice : trimEnd (trimEnd back) = trimEnd back :=
      dropEndWhile_dropEndWhile (fun _ => id) back
    rw [trim_isWord_append hname.isWord, htwice]
  · rw [Bool.eq_iff_iff, Bool.not_eq_true', List.isEmpty_eq_false_iff, List.contains_iff_mem]
    constructor
    · -- The last character that is left is no white space, so it is a star.
      intro hne
      obtain ⟨c, hc⟩ := Option.isSome_iff_exists.1 (List.getLast?_isSome.2 hne)
      have hnot : isSpace c = false := not_of_getLast?_dropEndWhile hc
      have hstar := hback c (hmem c (List.mem_of_getLast? hc))
      rw [Catalog.isSymbolTail, hnot, Bool.or_false, beq_iff_eq] at hstar
      exact hstar ▸ hmem c (List.mem_of_getLast? hc)
    · intro hstar hnil
      have hspace' := hspace '*' (by rwa [htail, ← trimEnd, hnil, List.nil_append] at hstar)
      cases hspace'

/-- **End-to-end expansion.** Print a well-formed schema, scan the source texts, and query a name
that comes down to a struct, with white space before it and stars and white space behind it. The
query is answered, and unless the scan or the expansion meets a ceiling, the answer is the text that
unfolding the schema shows, which no other text is. -/
theorem Valid.expand_print (hs : s.Valid) (hscan : s.ScansWhole maxScan)
    (options : Expansion.Options) {name root : String} {isPointer : Bool} {members : List Member}
    (hresolves : s.Resolves name root isPointer) (hstruct : s.HasStruct root members)
    {front back : List Char} (hfront : ∀ c ∈ front, isSpace c = true)
    (hback : ∀ c ∈ back, Catalog.isSymbolTail c = true) :
    ∃ e, expand (s.context maxScan options) (front ++ (name.toList ++ back)) = .ok e ∧
      ((∀ issue ∈ e.issues, issue.isCeiling = false) → ∀ text,
        s.Shows options.indentWidth name (back.contains '*') text ↔
          text = e.entered.render options.indentWidth) := by
  have hname := isIdent_of_isIdentifier
    (hs.isIdentifier_of_declares (hresolves.declares hstruct))
  have htrimName := trim_of_isWord hname.isWord
  have hstrip := Catalog.stripStars_of_isIdent hname
  obtain ⟨tail, htrim, htrim', htail, hstar⟩ := exists_trim_query hname hfront hback
  -- The catalog resolves the query as the schema resolves the name.
  have hresolve : (s.context maxScan options).catalog.resolve (name.toList ++ tail) =
      .ok ⟨root, back.contains '*' || isPointer⟩ := by
    obtain ⟨root', isPointer', hresolve, hresolves'⟩ :=
      hs.exists_resolve hscan htrimName hstrip
    rw [String.ofList_toList] at hresolves'
    obtain ⟨rfl, rfl⟩ := hs.resolves_unique hresolves hresolves'
    have happend := Catalog.resolve_append htrimName hstrip htail htrim'
      (s.context maxScan options).catalog
    rw [happend, ← hstar]
    show Except.map _ ((Scan.workspace maxScan s.print).1.resolve _) = _
    rw [hresolve]
    rfl
  have hdefined : (s.context maxScan options).catalog.structs.contains root = true :=
    (hs.contains_structs_iff hscan).2 ⟨members, hstruct⟩
  have haccepts : Accepts (s.context maxScan options).catalog (front ++ (name.toList ++ back)) := by
    rw [← htrim] at hresolve
    exact ⟨_, hresolve, hdefined⟩
  obtain ⟨e, hexpand, hperforms⟩ := performs_expand haccepts
  refine ⟨e, hexpand, fun hceilings text => ?_⟩
  rw [htrim] at hperforms
  obtain ⟨items, inner, hblock, hunfolds, hdrawn⟩ := hs.unfoldsBelow hscan options _
    (Nat.lt_succ_self _) hresolve hstruct List.not_mem_nil (.start _) hceilings hperforms
  have hlabel : labelOf ⟨root, back.contains '*' || isPointer⟩ (name.toList ++ tail) =
      if back.contains '*' || isPointer then ['*'] else name.toList := by
    rw [← hstar, labelOf]
    cases tail with
    | nil => rw [List.append_nil]
    | cons c cs => rfl
  have hshows : s.Shows options.indentWidth name (back.contains '*')
      (e.entered.render options.indentWidth) := by
    refine ⟨root, isPointer, members, inner, _, hresolves, hstruct, hunfolds, ?_⟩
    rw [hblock, Entered.render, hdrawn.render_block, hlabel]
  exact ⟨fun h => h.unique hs hshows, fun h => h ▸ hshows⟩

/-! ### A graph of two structs -/

/-- Structs that point to each other, one of them through an alias of a pointer. -/
def graph : Schema :=
  [(.ofString "src/node.h",
    [.struct "node"
        [⟨"int", .plain, "id"⟩, ⟨"edge_ref", .plain, "first"⟩, ⟨"node", .keyword, "twin"⟩]
        [⟨"node_t", false⟩],
      .alias "edge" [⟨"edge_ref", true⟩]]),
  (.ofString "edge.h",
    [.struct "edge" [⟨"node_t", .starOnName, "to"⟩, ⟨"edge_ref", .plain, "next"⟩] []])]

theorem entries_graph : graph.entries =
    [.struct "node"
        [⟨"int", .plain, "id"⟩, ⟨"edge_ref", .plain, "first"⟩, ⟨"node", .keyword, "twin"⟩]
        [⟨"node_t", false⟩],
      .alias "edge" [⟨"edge_ref", true⟩],
      .struct "edge" [⟨"node_t", .starOnName, "to"⟩, ⟨"edge_ref", .plain, "next"⟩] []] := rfl

theorem of_hop_graph {name target : String} (h : graph.Hop name target) :
    (name = "node_t" ∧ target = "node") ∨ (name = "edge_ref" ∧ target = "edge") := by
  obtain ⟨isPointer, ⟨members, aliases, he, hd⟩ | ⟨aliases, he, hd⟩⟩ := h
  · simp only [entries_graph, List.mem_cons, Entry.struct.injEq, List.not_mem_nil, reduceCtorEq,
      false_or, or_false] at he
    rcases he with ⟨rfl, rfl, rfl⟩ | ⟨rfl, rfl, rfl⟩
    · obtain ⟨rfl, -⟩ := Declarator.mk.inj (List.mem_singleton.1 hd)
      exact .inl ⟨rfl, rfl⟩
    · cases hd
  · simp only [entries_graph, List.mem_cons, Entry.alias.injEq, List.not_mem_nil, reduceCtorEq,
      false_or, or_false] at he
    obtain ⟨rfl, rfl⟩ := he
    obtain ⟨rfl, -⟩ := Declarator.mk.inj (List.mem_singleton.1 hd)
    exact .inr ⟨rfl, rfl⟩

theorem valid_graph : graph.Valid where
  paths := by decide
  nodup := by decide
  names := by decide
  types := by decide
  declarators := by decide
  statements := by
    intro target aliases he
    simp only [entries_graph, List.mem_cons, Entry.alias.injEq, List.not_mem_nil, reduceCtorEq,
      false_or, or_false] at he
    obtain ⟨rfl, rfl⟩ := he
    exact ⟨by decide, List.cons_ne_nil _ _⟩
  acyclic := by
    -- No name is an alias and the target of one.
    intro name hcycle
    obtain ⟨_, hfirst, -⟩ := Relation.TransGen.head'_iff.1 hcycle
    obtain ⟨_, -, hlast⟩ := Relation.TransGen.tail'_iff.1 hcycle
    rcases of_hop_graph hfirst with ⟨rfl, -⟩ | ⟨rfl, -⟩ <;>
      rcases of_hop_graph hlast with ⟨-, hname⟩ | ⟨-, hname⟩ <;> revert hname <;> decide

/-- `Valid.expand_print` at a query of `graph`: the hypotheses hold there, no ceiling is met, and
this is the text. -/
theorem expand_print_graph :
    graph.Valid ∧ graph.ScansWhole 4096 ∧ graph.Resolves "node_t" "node" false ∧
      (∃ members, graph.HasStruct "node" members) ∧
      ∀ text, graph.Shows 4 "node_t" true text ↔
        text = ("|\n    int id;\n    |\n        node *to;\n        edge* next;\n    |\n" ++
          "    | *\n    struct node twin;\n|\n| *").toList := by
  have hscan : graph.ScansWhole 4096 := by
    have hproblems : ∀ p ∈ (Scan.workspace 4096 graph.print).2.problems, p.isCeiling = false := by
      decide +kernel
    exact hproblems
  have hsettled : ∀ target, ¬graph.Hop "node" target := by
    intro target h
    rcases of_hop_graph h with ⟨hname, -⟩ | ⟨hname, -⟩ <;> revert hname <;> decide
  have hstruct : graph.HasStruct "node" _ := ⟨_, List.mem_cons_self⟩
  have hresolves : graph.Resolves "node_t" "node" false :=
    .hop (.inl ⟨_, _, List.mem_cons_self, List.mem_singleton_self _⟩) (.settled hsettled)
  have hfront : ∀ c ∈ [' '], isSpace c = true := List.all_eq_true.1 (by decide)
  have hback : ∀ c ∈ [' ', '*'], Catalog.isSymbolTail c = true := List.all_eq_true.1 (by decide)
  obtain ⟨e, hexpand, htext⟩ :=
    valid_graph.expand_print hscan ⟨4, 8, 4096⟩ hresolves hstruct hfront hback
  -- The text is computed together with the fact that no ceiling was met.
  have hrun : (expand (graph.context 4096 ⟨4, 8, 4096⟩) " node_t *".toList).map
      (fun e => (e.issues.all (!·.isCeiling), e.entered.render 4)) =
        .ok (true, ("|\n    int id;\n    |\n        node *to;\n        edge* next;\n    |\n" ++
          "    | *\n    struct node twin;\n|\n| *").toList) := by
    decide +kernel
  have hquery : " node_t *".toList = [' '] ++ ("node_t".toList ++ [' ', '*']) := by decide +kernel
  rw [hquery, hexpand] at hrun
  obtain ⟨hceilings, hrender⟩ := Prod.mk.inj (Except.ok.inj hrun)
  rw [← hrender]
  refine ⟨valid_graph, hscan, hresolves, ⟨_, hstruct⟩, htext fun issue hissue => ?_⟩
  have hissue := List.all_eq_true.1 hceilings issue hissue
  rwa [Bool.not_eq_true'] at hissue

end StructUnfold.Schema
