import StructUnfold.Proofs.Expansion.Exchange
import StructUnfold.Proofs.Expansion.Placement

/-!
# White space around stars

The stars of a pointer may stand at its type, at what is declared or by themselves. They are noticed
at the end of the word that names the struct or at the start of the next word, so a member becomes
the block of its struct as long as there is some white space among the stars, wherever it is.
Without any, the type and what is declared are a single word, which names no struct.

* `IsMarks`, `Declares`: how a pointer may be written.
* `IsMarks.exists_words`, `exists_words_of_marks`: the words of such a member.
* `star_spacing_irrelevant`: which ways of writing a pointer come to the same.
-/

namespace StructUnfold

open Text

namespace Expansion

/-- Stars, with any white space in front of them, between them and behind them. -/
structure IsMarks (marks : List Char) : Prop where
  /-- There is nothing but stars and white space. -/
  chars : ∀ c ∈ marks, isStar c = true ∨ isSpace c = true
  /-- There is a star. -/
  starred : ∃ c ∈ marks, isStar c = true

instance : DecidablePred IsMarks := fun marks =>
  decidable_of_iff (marks.all (fun c => isStar c || isSpace c) = true ∧ marks.any isStar = true)
    ⟨fun h => ⟨by simpa using h.1, List.any_eq_true.1 h.2⟩,
      fun h => ⟨by simpa using h.chars, List.any_eq_true.2 h.starred⟩⟩

/-- A member declares a pointer: its type stands before these marks and what is declared. The
keyword may stand before the type. -/
inductive Declares (name marks declarator : List Char) : List Char → Prop where
  /-- The type stands first. -/
  | plain : Declares name marks declarator (name ++ (marks ++ declarator))
  /-- The type stands behind the keyword. -/
  | keyword {gap : List Char} (hgap : IsSpacing gap) :
    Declares name marks declarator ("struct".toList ++ (gap ++ (name ++ (marks ++ declarator))))

/-! ### Words -/

variable {name marks declarator text : List Char}

theorem Declares.exists_front (h : Declares name marks declarator text) :
    ∃ front, (front = [] ∨ front = ["struct".toList]) ∧
      words text = front ++ words (name ++ (marks ++ declarator)) := by
  cases h with
  | plain => exact ⟨[], .inl rfl, rfl⟩
  | keyword hgap => exact ⟨["struct".toList], .inr rfl, words_append_gap (by decide) hgap _⟩

/-- White space before the first star holds no word, so the first word of marks and what they stand
before begins with a star. -/
theorem IsMarks.exists_words (hmarks : IsMarks marks) (declarator : List Char) :
    ∃ w ws, words (marks ++ declarator) = ('*' :: w) :: ws := by
  obtain ⟨hchars, hstarred⟩ := hmarks
  obtain ⟨c, hfind⟩ := Option.isSome_iff_exists.1 (List.find?_isSome.2 hstarred)
  obtain ⟨hc, gap, more, rfl, hgap⟩ := List.find?_eq_some_iff_append.1 hfind
  obtain rfl : c = '*' := eq_of_beq hc
  have hspaces : ∀ c ∈ gap, isSpace c = true := fun c hc =>
    (hchars c (by simp [hc])).resolve_left (by simpa using hgap c hc)
  obtain ⟨w, ws, hw, -, hnext⟩ := exists_words_append (more ++ declarator)
  have hfirst : words ('*' :: (more ++ declarator)) = ('*' :: w) :: ws :=
    hnext ['*'] ⟨by simp, List.forall_mem_cons.2 ⟨by decide, hw⟩⟩
  exact ⟨w, ws, by rw [List.append_assoc, words_append_of_all _ hspaces, List.cons_append, hfirst]⟩

/-- With some white space among its stars a type is a word with the stars directly behind it, and a
star is noticed. -/
theorem exists_words_of_marks (hname : IsIdent name) (hmarks : IsMarks marks)
    (hspace : ∃ c ∈ marks, isSpace c = true) (declarator : List Char) :
    ∃ stars rest, IsStars stars ∧ hasStar (name ++ stars) rest = true ∧
      words (name ++ (marks ++ declarator)) = (name ++ stars) :: rest := by
  -- The marks are cut at the first white space. Before it stand stars.
  obtain ⟨d, hfind⟩ := Option.isSome_iff_exists.1 (List.find?_isSome.2 hspace)
  obtain ⟨hd, stars, tail, rfl, hbefore⟩ := List.find?_eq_some_iff_append.1 hfind
  have hstars : IsStars stars := fun c hc =>
    (hmarks.chars c (List.mem_append_left _ hc)).resolve_right (by simpa using hbefore c hc)
  have hword : IsWord (name ++ stars) := by
    refine ⟨by simp [hname.ne_nil], List.forall_mem_append.2 ⟨hname.no_space, fun c hc => ?_⟩⟩
    simpa using hbefore c hc
  have hwords : words (name ++ (stars ++ d :: tail ++ declarator)) =
      (name ++ stars) :: words (tail ++ declarator) := by
    have hsplit := words_append_cons hd (name ++ stars) (tail ++ declarator)
    rw [words_of_isWord hword, List.singleton_append] at hsplit
    rw [← hsplit]
    simp
  refine ⟨stars, words (tail ++ declarator), hstars, ?_, hwords⟩
  rw [hasStar, starsOf_append hname hstars]
  cases stars with
  | cons => rfl
  | nil =>
    -- No star stands at the type, so the first one stands at the start of the next word.
    have hbehind : IsMarks tail := by
      refine ⟨fun c hc => hmarks.chars c (List.mem_cons_of_mem _ hc), ?_⟩
      obtain ⟨c, hc, hstar⟩ := hmarks.starred
      rcases List.mem_cons.1 hc with rfl | hc
      · rw [eq_of_beq hstar] at hd
        exact absurd hd (by decide)
      · exact ⟨c, hc, hstar⟩
    obtain ⟨w, ws, hnext⟩ := hbehind.exists_words declarator
    rw [hnext]
    rfl

/-- With white space among the stars a member brings the block of its struct, labelled with a
star. -/
theorem Declares.brings {c : Catalog} (hkeyword : c.SparesKeyword) (hname : IsIdent name)
    {root : String} {isPointer : Bool} (hnames : Names c name ⟨root, isPointer⟩)
    (hmarks : IsMarks marks) (hspace : ∃ d ∈ marks, isSpace d = true)
    (h : Declares name marks declarator text) :
    ∃ front, Brings c front root [] ['*'] (words text) ∧ front.filterMap (issueOf? c) = [] := by
  obtain ⟨front, hfront, hwords⟩ := h.exists_front
  obtain ⟨stars, rest, hstars, hstar, hmember⟩ :=
    exists_words_of_marks hname hmarks hspace declarator
  have hbrings := brings_of_type hkeyword hfront hname hstars hnames rest
  have hlabel : labelOf ⟨root, hasStar (name ++ stars) rest || isPointer⟩
      (declaratorOf (Declaration.text rest)) = ['*'] := by
    rw [hstar, Bool.true_or]
    rfl
  rw [hlabel, ← hmember, ← hwords] at hbrings
  refine ⟨front, hbrings, ?_⟩
  rcases hfront with rfl | rfl
  · rfl
  · rw [List.filterMap_cons, hkeyword.quiet]
    rfl

/-! ### Stars without white space -/

/-- A word in which stars stand behind its first characters, but not at its end, names no struct. -/
theorem structOf?_eq_none_of_stars {c : Catalog} (hc : c.IdentNamed) {stars w : List Char}
    {first : Char} (hstars : IsStars stars) (hne : stars ≠ []) (hfirst : isStar first = false)
    (hword : IsWord (name ++ (stars ++ first :: w))) :
    structOf? c (name ++ (stars ++ first :: w)) = none := by
  refine Option.eq_none_iff_forall_ne_some.2 fun root hroot => ?_
  obtain ⟨hnamed, ⟨isPointer, hresolve⟩, hdefined⟩ := structOf?_eq_some_iff.1 hroot
  have hident := Names.isIdent hc ⟨hnamed, hresolve, hdefined⟩ hword
  -- The stars are not at the end of the word, so they belong to its name.
  have hkept : nameIn (first :: w) ≠ [] := by
    intro hnil
    obtain ⟨t, hsplit, ht⟩ := exists_nameIn_append (first :: w)
    rw [hnil, List.nil_append] at hsplit
    have hstar := ht first (hsplit ▸ List.mem_cons_self)
    rw [hfirst] at hstar
    cases hstar
  have hname : nameIn (name ++ (stars ++ first :: w)) = name ++ stars ++ nameIn (first :: w) := by
    rw [← List.append_assoc, nameIn, dropEndWhile_append]
    exact if_neg fun hempty => hkept (List.isEmpty_iff.1 hempty)
  obtain ⟨d, stars, rfl⟩ := List.exists_cons_of_ne_nil hne
  obtain rfl : d = '*' := eq_of_beq (hstars d List.mem_cons_self)
  rw [hname] at hident
  exact hident.not_mem (d := '*') (by decide) (by simp)

/-- Without white space among the stars no word of a member names a struct, unless one of those
behind the declarator does. -/
theorem Declares.unnamed {c : Catalog} (hc : c.IdentNamed) (hkeyword : c.SparesKeyword)
    (hname : IsIdent name) (hstars : IsStars marks) (hne : marks ≠ []) {first : Char}
    {more : List Char} (hspace : isSpace first = false) (hstar : isStar first = false)
    (hmore : ∀ w ∈ (words (first :: more)).tail, structOf? c w = none)
    (h : Declares name marks (first :: more) text) : ∀ w ∈ words text, structOf? c w = none := by
  obtain ⟨front, hfront, hwords⟩ := h.exists_front
  obtain ⟨w, ws, hw, -, hsplit⟩ := exists_words_append more
  have hfirst : ∀ d ∈ first :: w, isSpace d = false := List.forall_mem_cons.2 ⟨hspace, hw⟩
  have hrest : words (first :: more) = (first :: w) :: ws :=
    hsplit [first] ⟨List.cons_ne_nil _ _, hfirst⟩
  have hmarks : ∀ d ∈ marks, isSpace d = false := by
    intro d hd
    rw [eq_of_beq (hstars d hd)]
    decide
  have hword : IsWord (name ++ (marks ++ first :: w)) :=
    ⟨by simp [hname.ne_nil], List.forall_mem_append.2 ⟨hname.no_space,
      List.forall_mem_append.2 ⟨hmarks, hfirst⟩⟩⟩
  -- Nothing parts the name, the stars and the declarator, so they are one word.
  have hmember : words (name ++ (marks ++ first :: more)) =
      (name ++ (marks ++ first :: w)) :: ws := by
    have happend := hsplit (name ++ marks ++ [first]) (by simpa using hword)
    simpa using happend
  rw [hrest] at hmore
  rw [hwords, hmember]
  refine List.forall_mem_append.2 ⟨?_, List.forall_mem_cons.2
    ⟨structOf?_eq_none_of_stars hc hstars hne hstar hword, hmore⟩⟩
  rcases hfront with rfl | rfl
  · exact nofun
  · exact List.forall_mem_singleton.2 hkeyword.unnamed

/-! ### Workspaces that are scanned -/

/-- The names in a workspace that is scanned are made of characters of identifiers. -/
theorem Context.identNamed_scanned (maxScan : Nat) (files : List (Path × List Char))
    (hops : Option Nat) (options : Options) :
    (Context.scanned maxScan files hops options).catalog.IdentNamed := by
  have hrun : (Scan.workspace maxScan files).1 =
      Scan.run (files.map fun file => .rescan maxScan file.1 file.2) := by
    rw [Scan.workspace_fst, Scan.rescans, Scan.run, List.foldl_map]
    rfl
  rw [Context.scanned, hrun]
  exact Catalog.identNamed_run _ hops

/-- **White space around stars does not matter as long as there is some.** A member is written with
stars behind a type, whose struct can be entered wherever a query flattens the member. With some
white space in front of the stars, between them or behind them, in one workspace here and in another
one there, the query comes to the same text, and the member becomes the only block of its struct,
labelled with a star. Without any it is kept as it is written, provided that no later word of it
names a struct. -/
theorem star_spacing_irrelevant (maxScan : Nat) (files files' : List (Path × List Char))
    (hops : Option Nat) (options : Options) :
    let ctx := Context.scanned maxScan files hops options
    let ctx' := Context.scanned maxScan files' hops options
    ctx.catalog.SparesKeyword → ∀ name root isPointer, IsIdent name →
      Names ctx.catalog name ⟨root, isPointer⟩ →
      (∀ marks marks' declarator member member' outer front back,
        IsMarks marks → (∃ c ∈ marks, isSpace c = true) → Declares name marks declarator member →
        IsMarks marks' → (∃ c ∈ marks', isSpace c = true) →
        Declares name marks' declarator member' →
        ctx.catalog.Exchanges options.maxScan (.ofList files) (.ofList files') outer front
          (words member) (words member') back ctx'.catalog →
        (ctx.catalog.members? (.ofList files) options.maxScan root).isSome = true →
        ∀ query e, EnterableAt ctx query outer front root → expand ctx query = .ok e →
          (∃ e', expand ctx' query = .ok e' ∧
            e'.text options.indentWidth = e.text options.indentWidth ∧
            (ctx.SameUnparseable ctx' →
              e'.issues.map Problem.kind = e.issues.map Problem.kind)) ∧
          e.entered.roots.Nodup ∧
          ∀ depth run, FlattensMember ctx query outer front depth run → ∃ items last,
            Performs ctx (.words depth [] (words member)) run
              (.item (.nested [] root ['*'] items)) last ∧
            .nested [] root ['*'] items ∈ e.entered.members) ∧
      ∀ marks first more member outer front back, IsStars marks → marks ≠ [] →
        isSpace first = false → isStar first = false →
        (∀ w ∈ (words (first :: more)).tail, structOf? ctx.catalog w = none) →
        Declares name marks (first :: more) member →
        ctx.catalog.members? (.ofList files) options.maxScan outer =
          some (front ++ words member :: back) →
        ∀ query e, expand ctx query = .ok e →
          ∀ depth run, FlattensMember ctx query outer front depth run → ∃ last,
            Performs ctx (.words depth [] (words member)) run
              (.item (.line (joinWords (words member)))) last ∧
            .line (joinWords (words member)) ∈ e.entered.members := by
  intro ctx ctx' hkeyword name root isPointer hname hnames
  constructor
  · intro marks marks' declarator member member' outer front back hmarks hspace hmember hmarks'
      hspace' hmember' hexchanges hbody query e henterable hexpand
    obtain ⟨before, hbrings, hquiet⟩ := hmember.brings hkeyword hname hnames hmarks hspace
    obtain ⟨before', hbrings', hquiet'⟩ := hmember'.brings hkeyword hname hnames hmarks' hspace'
    have hfresh := Context.freshIn_scanned maxScan files hops options
    exact ⟨expand_scanned_exchanged rfl rfl hexchanges hbrings hbrings' hquiet hquiet' hbody
        henterable hexpand, (performs_of_expand hexpand).2.bounded.nodup,
      fun _ _ => hbrings.exists_block rfl hfresh hexchanges.members hbody henterable hexpand⟩
  · intro marks first more member outer front back hstars hne hspace hstar hmore hmember hmembers
      query e hexpand depth run hflattens
    have hunnamed := hmember.unnamed (Context.identNamed_scanned maxScan files hops options)
      hkeyword hname hstars hne hspace hstar hmore
    have hfresh := Context.freshIn_scanned maxScan files hops options
    obtain ⟨harises, -⟩ := hflattens.arisesIn rfl hfresh hmembers
    obtain ⟨hdefined, item, last, hmem, hperforms⟩ := harises.exists_item hexpand
    obtain ⟨rfl, -⟩ := hperforms.eq_line_of_unnamed hunnamed hdefined
    exact ⟨last, hperforms, hmem⟩

/-- A struct with a member whose type is another struct, and one of another type. -/
def boxFiles (member : String) : List (Path × List Char) :=
  [(.ofString "box.h", ("struct gear \x7b\n  int teeth;\n\x7d;\n" ++
    "struct box \x7b\n  " ++ member ++ "\n  int size;\n\x7d;\n").toList)]

/-- The workspace of `boxFiles`. -/
def boxContext (member : String) : Context :=
  .scanned 512 (boxFiles member) none ⟨4, 8, 512⟩

/-- `star_spacing_irrelevant` at three ways of writing a member: two of them come to the same block,
and the one without white space is kept. -/
theorem star_spacing_box :
    let ctx := boxContext "gear *first;"
    let ctx' := boxContext "struct gear  *  * first;"
    let tight := boxContext "gear*first;"
    (∃ e, expand ctx "box".toList = .ok e ∧ ∃ e', expand ctx' "box".toList = .ok e' ∧
      e'.text 4 = e.text 4 ∧ e'.issues.map Problem.kind = e.issues.map Problem.kind ∧
      ∃ items, .nested [] "gear" ['*'] items ∈ e.entered.members) ∧
    ∃ e, expand tight "box".toList = .ok e ∧ .line "gear*first;".toList ∈ e.entered.members := by
  intro ctx ctx' tight
  have hident : IsIdent "gear".toList := by decide
  have hquery : trim "box".toList = "box".toList := by decide +kernel
  constructor
  · obtain ⟨hstructs, hstructs', haliases, hhops, hsame⟩ :
        ctx.catalog.structs.keys = ["box", "gear"] ∧ ctx'.catalog.structs.keys = ["box", "gear"] ∧
        ctx'.catalog.aliases.entries = ctx.catalog.aliases.entries ∧
        ctx'.catalog.maxAliasHops = ctx.catalog.maxAliasHops ∧
        ctx'.catalog.unparseable.keys = ctx.catalog.unparseable.keys := by
      decide +kernel
    obtain ⟨hgear, hgear', hbox, hbox'⟩ :
        ctx.catalog.members? (.ofList (boxFiles "gear *first;")) 512 "gear" =
          some [words "int teeth;".toList] ∧
        ctx'.catalog.members? (.ofList (boxFiles "struct gear  *  * first;")) 512 "gear" =
          some [words "int teeth;".toList] ∧
        ctx.catalog.members? (.ofList (boxFiles "gear *first;")) 512 "box" =
          some [words "gear *first;".toList, words "int size;".toList] ∧
        ctx'.catalog.members? (.ofList (boxFiles "struct gear  *  * first;")) 512 "box" =
          some [words "struct gear  *  * first;".toList, words "int size;".toList] := by
      decide +kernel
    -- Of the box one declaration is exchanged, and of the gear none.
    have hexchanges : ctx.catalog.Exchanges 512 (.ofList (boxFiles "gear *first;"))
        (.ofList (boxFiles "struct gear  *  * first;")) "box" [] (words "gear *first;".toList)
        (words "struct gear  *  * first;".toList) [words "int size;".toList] ctx'.catalog :=
      { names := .of_aliases (hstructs'.trans hstructs.symm) haliases hhops
        others := by
          rw [hstructs]
          intro name hname hne
          obtain rfl : name = "gear" := by simpa [hne] using hname
          rw [hgear, hgear']
        members := hbox
        members' := hbox' }
    obtain ⟨hkeyword, hquiet, hresolve, hdefined, haccepts, hopening, hunvisited⟩ :
        structOf? ctx.catalog "struct".toList = none ∧
        issueOf? ctx.catalog "struct".toList = none ∧
        ctx.catalog.resolve (nameIn "gear".toList) = .ok ⟨"gear", false⟩ ∧
        ctx.catalog.structs.contains "gear" = true ∧
        (ctx.catalog.resolve "box".toList = .ok ⟨"box", false⟩ ∧
          ctx.catalog.structs.contains "box" = true) ∧
        (opening ctx "box".toList 0 Run.start).1 =
          .body ⟨"box", false⟩ "gear *first;\n  int size;\n".toList ∧
        "gear" ∉ (opening ctx "box".toList 0 Run.start).2.visited := by
      decide +kernel
    rw [← hquery] at haccepts hopening hunvisited
    obtain ⟨e, hexpand, -⟩ := performs_expand ⟨_, haccepts⟩
    obtain ⟨⟨e', hexpand', htext, hissues⟩, -, hblock⟩ :=
      (star_spacing_irrelevant 512 (boxFiles "gear *first;") (boxFiles "struct gear  *  * first;")
        none ⟨4, 8, 512⟩ ⟨hkeyword, hquiet⟩ "gear".toList "gear" false hident
        ⟨by decide, hresolve, hdefined⟩).1 " *".toList "  *  * ".toList "first;".toList _ _ "box"
        [] _ (by decide) ⟨' ', by decide, by decide⟩ .plain (by decide) ⟨' ', by decide, by decide⟩
        (@Declares.keyword _ _ _ " ".toList (by decide)) hexchanges
        (Option.isSome_iff_exists.2 ⟨_, hgear⟩) "box".toList e
        (.first haccepts.1 haccepts.2 hunvisited (by decide)) hexpand
    obtain ⟨items, -, -, hmem⟩ := hblock _ _ (.first hopening)
    exact ⟨e, hexpand, e', hexpand', htext, hissues hsame, items, hmem⟩
  · obtain ⟨hkeyword, hquiet, hresolve, hdefined, haccepts, hopening, hbox⟩ :
        structOf? tight.catalog "struct".toList = none ∧
        issueOf? tight.catalog "struct".toList = none ∧
        tight.catalog.resolve (nameIn "gear".toList) = .ok ⟨"gear", false⟩ ∧
        tight.catalog.structs.contains "gear" = true ∧
        (tight.catalog.resolve "box".toList = .ok ⟨"box", false⟩ ∧
          tight.catalog.structs.contains "box" = true) ∧
        (opening tight "box".toList 0 Run.start).1 =
          .body ⟨"box", false⟩ "gear*first;\n  int size;\n".toList ∧
        tight.catalog.members? (.ofList (boxFiles "gear*first;")) 512 "box" =
          some [words "gear*first;".toList, words "int size;".toList] := by
      decide +kernel
    rw [← hquery] at haccepts hopening
    obtain ⟨e, hexpand, -⟩ := performs_expand ⟨_, haccepts⟩
    obtain ⟨-, -, hmem⟩ :=
      (star_spacing_irrelevant 512 (boxFiles "gear*first;") (boxFiles "gear*first;") none
        ⟨4, 8, 512⟩ ⟨hkeyword, hquiet⟩ "gear".toList "gear" false hident
        ⟨by decide, hresolve, hdefined⟩).2 ['*'] 'f' "irst;".toList _ "box" [] _ (by decide)
        (by decide) (by decide) (by decide) (by decide +kernel) .plain hbox "box".toList e hexpand
        _ _ (.first hopening)
    exact ⟨e, hexpand, hmem⟩

/-- A member whose star is set apart by white space becomes a block, and one whose star is not is
kept, without an issue. -/
theorem expand_boxContext :
    (expand (boxContext "gear *first;") "box".toList).map (fun e => (e.text 4, e.issues)) =
        .ok ("|\n    |\n        int teeth;\n    |\n    | *\n    int size;\n|\n| box", []) ∧
      (expand (boxContext "gear*first;") "box".toList).map (fun e => (e.text 4, e.issues)) =
        .ok ("|\n    gear*first;\n    int size;\n|\n| box", []) := by
  decide +kernel

end Expansion

end StructUnfold
