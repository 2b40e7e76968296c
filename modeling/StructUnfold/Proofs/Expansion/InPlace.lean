import StructUnfold.Proofs.Expansion.Exchange

/-!
# Structs defined in place

A member may define the struct that is its type. Then the body of the struct stands in braces behind
its name, and the member becomes the same block as one that only names the struct: the label of the
block is what follows the last brace. But a star is looked for directly behind the name, where the
body begins, and a brace in what is declared is taken for the end of the body.

* `DefinesInPlace`, `NamesType`: a member with and without the definition of its type.
* `declaratorOf_of_brace`: what is found behind a body.
* `defined_in_place_or_hoisted`: which definitions may be taken out of a member.
-/

namespace StructUnfold

open Text

namespace Expansion

/-- A member defines its type in place: the body stands in braces between the name of the type and
what is declared. -/
inductive DefinesInPlace (type declarator : List Char) : List Char → Prop where
  /-- The keyword, the name, the body and what is declared. -/
  | braced {gap gap' space : List Char} (hgap : IsSpacing gap) (hgap' : IsSpacing gap')
    (body : List Char) (hspace : ∀ c ∈ space, isSpace c = true) :
    DefinesInPlace type declarator ("struct".toList ++ (gap ++ (type ++ (gap' ++
      '{' :: (body ++ '}' :: (space ++ declarator))))))

/-- A member names its type, which is defined elsewhere. -/
inductive NamesType (type declarator : List Char) : List Char → Prop where
  /-- The keyword, the name and what is declared. -/
  | keyword {gap gap' : List Char} (hgap : IsSpacing gap) (hgap' : IsSpacing gap') :
    NamesType type declarator ("struct".toList ++ (gap ++ (type ++ (gap' ++ declarator))))

variable {type declarator text : List Char}

/-! ### Labels -/

theorem declaratorOf_of_not_mem {s : List Char} (h : '}' ∉ s) : declaratorOf s = s := by
  unfold declaratorOf
  split
  · exact if_neg (by simpa using h)
  · rfl

/-- Behind a brace at the start of a text stands what follows the last one that closes. -/
theorem declaratorOf_of_brace {s before behind : List Char} (hopen : s.head? = some '{')
    (hsplit : s = before ++ '}' :: behind) (hbehind : '}' ∉ behind) :
    declaratorOf s = trim behind := by
  obtain ⟨cs, rfl⟩ := List.head?_eq_some_iff.1 hopen
  have hclose : ('{' :: cs).contains '}' = true := by
    rw [hsplit]
    simp
  have hlast : ('{' :: cs).reverse.takeWhile (· != '}') = behind.reverse := by
    have hnone : ∀ c ∈ behind.reverse, (c != '}') = true := fun c hc =>
      bne_iff_ne.2 fun heq => hbehind (heq ▸ List.mem_reverse.1 hc)
    rw [hsplit, List.reverse_append, List.reverse_cons, List.append_assoc, List.singleton_append,
      List.takeWhile_append_of_pos hnone, List.takeWhile_cons_of_neg (by simp), List.append_nil]
  rw [declaratorOf, if_pos hclose, hlast, List.reverse_reverse]

/-- The last brace of a text is the last one of its words, and behind it stand the words behind
it. -/
theorem exists_joinWords_of_brace (s : List Char) {tail : List Char} (htail : '}' ∉ tail) :
    ∃ before behind, joinWords (words (s ++ '}' :: tail)) = before ++ '}' :: behind ∧
      '}' ∉ behind ∧ trim behind = joinWords (words tail) := by
  obtain ⟨front, x, hx, hwords⟩ := exists_append_words s
  obtain ⟨w, ws, hw, hsplit, hnext⟩ := exists_words_append tail
  have hword : IsWord (x ++ ['}'] ++ w) :=
    ⟨by simp, List.forall_mem_append.2
      ⟨List.forall_mem_append.2 ⟨hx, List.forall_mem_singleton.2 (by decide)⟩, hw⟩⟩
  -- The word of the brace begins with the end of the last word before it and goes on behind it.
  have hlast : words (s ++ '}' :: tail) = front ++ (x ++ ['}'] ++ w) :: ws := by
    rw [hwords, ← hnext _ hword]
    simp
  have hmem : ∀ v ∈ words tail, IsWord v ∧ '}' ∉ v := fun v hv =>
    ⟨isWord_of_mem_words hv, fun hclose =>
      htail ((isWord_and_isInfix_of_mem_words hv).2.subset hclose)⟩
  rw [hsplit] at hmem
  obtain ⟨hfirst, hrest⟩ := List.forall_mem_append.1 hmem
  refine ⟨spacedBehind front ++ x, w ++ spaced ws, ?_, ?_, ?_⟩
  · rw [hlast, joinWords_append_cons]
    simp
  · have hnone : '}' ∉ w := by
      cases w with
      | nil => exact List.not_mem_nil
      | cons c w =>
        rw [words_of_isWord ⟨List.cons_ne_nil c w, hw⟩] at hfirst
        exact (hfirst _ List.mem_cons_self).2
    exact fun hclose => (List.mem_append.1 hclose).elim hnone
      (not_mem_spaced (by decide) fun v hv => (hrest v hv).2)
  · rw [trim_append_spaced hw fun v hv => (hrest v hv).1, hsplit]

/-! ### Blocks -/

section

variable {c : Catalog} {root : String} {isPointer : Bool}

/-- A member that defines its type brings its block, labelled with what follows the last brace. -/
theorem DefinesInPlace.brings (hkeyword : c.SparesKeyword) (htype : IsIdent type)
    (hnames : Names c type ⟨root, isPointer⟩) (hclose : '}' ∉ declarator)
    (h : DefinesInPlace type declarator text) :
    Brings c ["struct".toList] root []
      (labelOf ⟨root, isPointer⟩ (joinWords (words declarator))) (words text) := by
  cases h with
  | @braced gap gap' space hgap hgap' body hspace =>
    obtain ⟨w, ws, hw, -, hnext⟩ := exists_words_append (body ++ '}' :: (space ++ declarator))
    have hfirst := hnext ['{'] ⟨by simp, List.forall_mem_cons.2 ⟨by decide, hw⟩⟩
    have hspaces : '}' ∉ space := fun hmem => absurd (hspace '}' hmem) (by decide)
    obtain ⟨before, behind, hsplit, hbehind, htrim⟩ :=
      exists_joinWords_of_brace ('{' :: body)
        (fun hmem => (List.mem_append.1 hmem).elim hspaces hclose : '}' ∉ space ++ declarator)
    rw [List.cons_append] at hsplit
    rw [List.singleton_append, List.singleton_append] at hfirst
    have hopen : (joinWords (words ('{' :: (body ++ '}' :: (space ++ declarator))))).head? =
        some '{' := by
      rw [hfirst, joinWords_cons]
      rfl
    have hlabel := declaratorOf_of_brace hopen hsplit hbehind
    rw [htrim, words_append_of_all declarator hspace] at hlabel
    have hnone : IsStars [] := nofun
    have hbrings := brings_of_type hkeyword (.inr rfl) htype hnone hnames
      (words ('{' :: (body ++ '}' :: (space ++ declarator))))
    -- The word behind the type begins with the brace.
    have hstar : hasStar (type ++ []) (words ('{' :: (body ++ '}' :: (space ++ declarator)))) =
        false := by
      rw [hasStar, starsOf_append htype hnone, hfirst]
      rfl
    rw [hstar, Bool.false_or, Declaration.text, hlabel, List.append_nil] at hbrings
    rwa [words_append_gap (by decide) hgap, words_append_gap htype.isWord hgap']

/-- A member that names its type brings its block, labelled with what is declared or, if that begins
with a star, with the star. -/
theorem NamesType.brings (hkeyword : c.SparesKeyword) (htype : IsIdent type)
    (hnames : Names c type ⟨root, isPointer⟩) {first : Char} {more : List Char}
    (hfirst : isSpace first = false) (h : NamesType type (first :: more) text) :
    Brings c ["struct".toList] root []
      (labelOf ⟨root, isStar first || isPointer⟩
        (declaratorOf (joinWords (words (first :: more))))) (words text) := by
  cases h with
  | @keyword gap gap' hgap hgap' =>
    obtain ⟨w, ws, hw, -, hnext⟩ := exists_words_append more
    have hwords : words (first :: more) = (first :: w) :: ws :=
      hnext [first] ⟨by simp, List.forall_mem_append.2 ⟨List.forall_mem_singleton.2 hfirst, hw⟩⟩
    have hnone : IsStars [] := nofun
    have hbrings := brings_of_type hkeyword (.inr rfl) htype hnone hnames (words (first :: more))
    have hstar : hasStar (type ++ []) (words (first :: more)) = isStar first := by
      rw [hasStar, starsOf_append htype hnone, hwords]
      rfl
    rw [hstar, Declaration.text, List.append_nil] at hbrings
    rwa [words_append_gap (by decide) hgap, words_append_gap htype.isWord hgap']

end

/-! ### Workspaces that are scanned -/

/-- **A definition may be taken out of a member unless a star or a brace is in the way.** A member
defines its type, whose struct can be entered wherever a query flattens the member. If what is
declared begins with no star and has no brace that closes, the query comes to the same text where
the member only names the type. In general the block of the defining member is labelled with what
follows the last brace, and that of the naming member with all that is declared or with a star. -/
theorem defined_in_place_or_hoisted (maxScan : Nat) (files files' : List (Path × List Char))
    (hops : Option Nat) (options : Options) :
    let ctx := Context.scanned maxScan files hops options
    let ctx' := Context.scanned maxScan files' hops options
    ctx.catalog.SparesKeyword → ∀ type root isPointer, IsIdent type →
      Names ctx.catalog type ⟨root, isPointer⟩ →
      (ctx.catalog.members? (.ofList files) options.maxScan root).isSome = true →
      ∀ query e outer front, expand ctx query = .ok e → EnterableAt ctx query outer front root →
        (∀ first more member member' back, isSpace first = false → isStar first = false →
          '}' ∉ first :: more → DefinesInPlace type (first :: more) member →
          NamesType type (first :: more) member' →
          ctx.catalog.Exchanges options.maxScan (.ofList files) (.ofList files') outer front
            (words member) (words member') back ctx'.catalog →
          ∃ e', expand ctx' query = .ok e' ∧
            e'.text options.indentWidth = e.text options.indentWidth ∧
            (ctx.SameUnparseable ctx' →
              e'.issues.map Problem.kind = e.issues.map Problem.kind)) ∧
        (∀ declarator member back, '}' ∉ declarator → DefinesInPlace type declarator member →
          ctx.catalog.members? (.ofList files) options.maxScan outer =
            some (front ++ words member :: back) →
          ∀ depth run, FlattensMember ctx query outer front depth run →
            let label := labelOf ⟨root, isPointer⟩ (joinWords (words declarator))
            ∃ items last,
              Performs ctx (.words depth [] (words member)) run
                (.item (.nested [] root label items)) last ∧
              .nested [] root label items ∈ e.entered.members) ∧
        ∀ first more member back, isSpace first = false → NamesType type (first :: more) member →
          ctx.catalog.members? (.ofList files) options.maxScan outer =
            some (front ++ words member :: back) →
          ∀ depth run, FlattensMember ctx query outer front depth run →
            let label := labelOf ⟨root, isStar first || isPointer⟩
              (declaratorOf (joinWords (words (first :: more))))
            ∃ items last,
              Performs ctx (.words depth [] (words member)) run
                (.item (.nested [] root label items)) last ∧
              .nested [] root label items ∈ e.entered.members := by
  intro ctx ctx' hkeyword type root isPointer htype hnames hbody query e outer front hexpand
    henterable
  have hfresh := Context.freshIn_scanned maxScan files hops options
  refine ⟨?_, ?_, ?_⟩
  · intro first more member member' back hfirst hstar hclose hmember hmember' hexchanges
    have hbrings := hmember.brings hkeyword htype hnames hclose
    have hbrings' := hmember'.brings hkeyword htype hnames hfirst
    -- Without a brace that closes nothing is taken for a body.
    have hkept : '}' ∉ joinWords (words (first :: more)) := by
      refine not_mem_joinWords (by decide) fun w hw hmem => hclose ?_
      exact (isWord_and_isInfix_of_mem_words hw).2.subset hmem
    rw [hstar, Bool.false_or, declaratorOf_of_not_mem hkept] at hbrings'
    have hquiet : ["struct".toList].filterMap (issueOf? ctx.catalog) = [] := by
      rw [List.filterMap_cons, hkeyword.quiet]
      rfl
    exact expand_scanned_exchanged rfl rfl hexchanges hbrings hbrings' hquiet hquiet hbody
      henterable hexpand
  · intro declarator member back hclose hmember hmembers depth run hflattens label
    exact (hmember.brings hkeyword htype hnames hclose).exists_block rfl hfresh hmembers hbody
      henterable hexpand hflattens
  · intro first more member back hfirst hmember hmembers depth run hflattens label
    exact (hmember.brings hkeyword htype hnames hfirst).exists_block rfl hfresh hmembers hbody
      henterable hexpand hflattens

/-- A struct that defines the type of its first member. -/
def lampInPlace (declarator : String) : List (Path × List Char) :=
  [(.ofString "lamp.h", ("struct lamp \x7b\n  struct bulb \x7b\n    int watts;\n  \x7d " ++
    declarator ++ "\n  int size;\n\x7d;\n").toList)]

/-- The same struct behind the definition of that type. -/
def lampHoisted (declarator : String) : List (Path × List Char) :=
  [(.ofString "lamp.h", ("struct bulb \x7b\n  int watts;\n\x7d;\n" ++
    "struct lamp \x7b\n  struct bulb " ++ declarator ++ "\n  int size;\n\x7d;\n").toList)]

theorem defined_in_place_lamp :
    let ctx := Context.scanned 512 (lampInPlace "first;") none ⟨4, 8, 512⟩
    let ctx' := Context.scanned 512 (lampHoisted "first;") none ⟨4, 8, 512⟩
    ∃ e, expand ctx "lamp".toList = .ok e ∧
      (∃ e', expand ctx' "lamp".toList = .ok e' ∧ e'.text 4 = e.text 4 ∧
        e'.issues.map Problem.kind = e.issues.map Problem.kind) ∧
      ∃ items, .nested [] "bulb" "first;".toList items ∈ e.entered.members := by
  intro ctx ctx'
  have hquery : trim "lamp".toList = "lamp".toList := by decide +kernel
  obtain ⟨hstructs, hstructs', haliases, hhops, hsame⟩ :
      ctx.catalog.structs.keys = ["bulb", "lamp"] ∧ ctx'.catalog.structs.keys = ["bulb", "lamp"] ∧
      ctx'.catalog.aliases.entries = ctx.catalog.aliases.entries ∧
      ctx'.catalog.maxAliasHops = ctx.catalog.maxAliasHops ∧
      ctx'.catalog.unparseable.keys = ctx.catalog.unparseable.keys := by
    decide +kernel
  obtain ⟨hbulb, hbulb', hlamp, hlamp'⟩ :
      ctx.catalog.members? (.ofList (lampInPlace "first;")) 512 "bulb" =
        some [words "int watts;".toList] ∧
      ctx'.catalog.members? (.ofList (lampHoisted "first;")) 512 "bulb" =
        some [words "int watts;".toList] ∧
      ctx.catalog.members? (.ofList (lampInPlace "first;")) 512 "lamp" =
        some [words "struct bulb \x7b int watts; \x7d first;".toList, words "int size;".toList] ∧
      ctx'.catalog.members? (.ofList (lampHoisted "first;")) 512 "lamp" =
        some [words "struct bulb first;".toList, words "int size;".toList] := by
    decide +kernel
  -- Of the lamp one declaration is exchanged, and of the bulb none.
  have hexchanges : ctx.catalog.Exchanges 512 (.ofList (lampInPlace "first;"))
      (.ofList (lampHoisted "first;")) "lamp" []
      (words "struct bulb \x7b int watts; \x7d first;".toList) (words "struct bulb first;".toList)
      [words "int size;".toList] ctx'.catalog :=
    { names := .of_aliases (hstructs'.trans hstructs.symm) haliases hhops
      others := by
        rw [hstructs]
        intro name hname hne
        obtain rfl : name = "bulb" := by simpa [hne] using hname
        rw [hbulb, hbulb']
      members := hlamp
      members' := hlamp' }
  obtain ⟨hkeyword, hquiet, hresolve, hdefined, haccepts, hopening, hunvisited⟩ :
      structOf? ctx.catalog "struct".toList = none ∧
      issueOf? ctx.catalog "struct".toList = none ∧
      ctx.catalog.resolve (nameIn "bulb".toList) = .ok ⟨"bulb", false⟩ ∧
      ctx.catalog.structs.contains "bulb" = true ∧
      (ctx.catalog.resolve "lamp".toList = .ok ⟨"lamp", false⟩ ∧
        ctx.catalog.structs.contains "lamp" = true) ∧
      (opening ctx "lamp".toList 0 Run.start).1 = .body ⟨"lamp", false⟩
        "struct bulb \x7b\n    int watts;\n  \x7d first;\n  int size;\n".toList ∧
      "bulb" ∉ (opening ctx "lamp".toList 0 Run.start).2.visited := by
    decide +kernel
  rw [← hquery] at haccepts hopening hunvisited
  obtain ⟨e, hexpand, -⟩ := performs_expand ⟨_, haccepts⟩
  -- The declaration defines the bulb in one text and names it in the other.
  have hmember : DefinesInPlace "bulb".toList "first;".toList
      "struct bulb \x7b int watts; \x7d first;".toList :=
    @DefinesInPlace.braced _ _ [' '] [' '] [' '] (by decide) (by decide) " int watts; ".toList
      (List.forall_mem_singleton.2 (by decide))
  have hmember' : NamesType "bulb".toList "first;".toList "struct bulb first;".toList :=
    @NamesType.keyword _ _ [' '] [' '] (by decide) (by decide)
  obtain ⟨hhoisted, hblock, -⟩ :=
    defined_in_place_or_hoisted 512 (lampInPlace "first;") (lampHoisted "first;") none ⟨4, 8, 512⟩
      ⟨hkeyword, hquiet⟩ "bulb".toList "bulb" false (by decide) ⟨by decide, hresolve, hdefined⟩
      (Option.isSome_iff_exists.2 ⟨_, hbulb⟩) "lamp".toList e "lamp" [] hexpand
      (.first haccepts.1 haccepts.2 hunvisited (by decide))
  obtain ⟨e', hexpand', htext, hissues⟩ :=
    hhoisted 'f' "irst;".toList _ _ _ (by decide) (by decide) (by decide) hmember hmember'
      hexchanges
  obtain ⟨items, -, -, hmem⟩ :=
    hblock "first;".toList _ _ (by decide) hmember hlamp _ _ (.first hopening)
  exact ⟨e, hexpand, ⟨e', hexpand', htext, hissues hsame⟩, items, hmem⟩

/-- In place a star becomes part of the label and is no mark, and of an initialiser with braces only
the end is left. -/
theorem expand_lamp :
    let label : List (Path × List Char) → Except Problem (String × List Problem) := fun files =>
      (expand (.scanned 512 files none ⟨4, 8, 512⟩) "lamp".toList).map
        fun e => (e.text 4, e.issues)
    label (lampInPlace "*first;") =
        .ok ("|\n    |\n        int watts;\n    |\n    | *first;\n    int size;\n|\n| lamp", []) ∧
      label (lampHoisted "*first;") =
        .ok ("|\n    |\n        int watts;\n    |\n    | *\n    int size;\n|\n| lamp", []) ∧
      label (lampInPlace "all[2] = \x7b\x7b1\x7d, \x7b2\x7d\x7d;") =
        .ok ("|\n    |\n        int watts;\n    |\n    | ;\n    int size;\n|\n| lamp", []) ∧
      label (lampHoisted "all[2] = \x7b\x7b1\x7d, \x7b2\x7d\x7d;") =
        .ok ("|\n    |\n        int watts;\n    |\n" ++
          "    | all[2] = \x7b\x7b1\x7d, \x7b2\x7d\x7d;\n    int size;\n|\n| lamp", []) := by
  decide +kernel

end Expansion

end StructUnfold
