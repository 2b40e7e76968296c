import StructUnfold.Proofs.Expansion.Layout
import StructUnfold.Proofs.Expansion.Splice

/-!
# Where a block stands in its declaration

A block takes the place of the word that names its struct, and a keyword `struct` directly before
that word is dropped. The place is found again by searching the declaration for the keyword and for
the name, each time for the first place where it stands by itself. So the block stands behind the
words that were kept in front of it as long as neither is found among them before.

* `keptPrefix`: what should stand in front of a block.
* `Splice.lead_eq`: what does stand in front of it.
* `Catalog.IdentNamed`: the names of a catalog are made of characters of identifiers.
* `block_behind_kept_words`: where the blocks of an expansion stand.
-/

namespace StructUnfold

open Text

namespace Catalog

/-- The names of structs and aliases are made of characters of identifiers. -/
def IdentNamed (c : Catalog) : Prop :=
  ∀ name, c.structs.contains name = true ∨ c.aliases.contains name = true → IsIdent name.toList

/-- So are the names that scanning finds. -/
theorem identNamed_run (steps : List Scan.Step) (hops : Option Nat) :
    ((Scan.run steps).setMaxAliasHops hops).IdentNamed := by
  rintro name (hname | hname)
  · obtain ⟨d, hget⟩ := Table.contains_eq_true_iff.1 hname
    have hheld : (Scan.Finding.struct name d).HeldBy (Scan.run steps) := hget
    exact isIdent_of_isIdentifier (Scan.wellNamed_of_heldBy_run hheld).1
  · obtain ⟨a, hget⟩ := Table.contains_eq_true_iff.1 hname
    have hheld : (Scan.Finding.aliased name a).HeldBy (Scan.run steps) := hget
    exact isIdent_of_isIdentifier (Scan.wellNamed_of_heldBy_run hheld).1

theorem IdentNamed.namesAreLines {c : Catalog} (h : c.IdentNamed) : Expansion.NamesAreLines c :=
  fun name hname => isLine_of_isWord (h name (.inl (Table.mem_keys_iff.1 hname))).isWord

end Catalog

namespace Expansion

/-- A word is its name and stars behind it. -/
theorem exists_nameIn_append (word : List Char) :
    ∃ stars, word = nameIn word ++ stars ∧ ∀ c ∈ stars, isStar c = true :=
  exists_dropEndWhile_append isStar word

/-- A word that names a struct has an identifier for a name. -/
theorem Names.isIdent {c : Catalog} (hc : c.IdentNamed) {word : List Char} {resolved : Resolved}
    (h : Names c word resolved) (hword : IsWord word) : IsIdent (nameIn word) := by
  obtain ⟨stars, hsplit, -⟩ := exists_nameIn_append word
  have hname : IsWord (nameIn word) :=
    ⟨h.named, fun ch hch => hword.no_space ch (hsplit ▸ List.mem_append_left _ hch)⟩
  have hstrip : Catalog.stripStars (nameIn word) = nameIn word := by
    refine dropEndWhile_eq_self fun ch hch => ?_
    have hstar : isStar ch = false := not_of_getLast?_dropEndWhile hch
    rw [Catalog.isSymbolTail, hname.no_space ch (List.mem_of_getLast? hch), Bool.or_false]
    exact hstar
  have hresolve := h.resolves
  rw [Catalog.resolve, trim_of_isWord hname] at hresolve
  simp only [hstrip] at hresolve
  -- The name is an alias, or it is the name of the struct itself.
  cases halias : c.aliases.get? (String.ofList (nameIn word)) with
  | some a =>
    have hident := hc _ (.inr (Table.contains_eq_true_iff.2 ⟨a, halias⟩))
    rwa [String.toList_ofList] at hident
  | none =>
    have hfollow : ∀ hops isPointer, Catalog.follow? c.aliases hops (String.ofList (nameIn word))
        isPointer = some ⟨String.ofList (nameIn word), isPointer⟩ := by
      intro hops isPointer
      cases hops <;> rw [Catalog.follow?, halias]
    rw [hfollow] at hresolve
    obtain rfl := Except.ok.inj hresolve
    have hident := hc _ (.inl h.defined)
    rwa [String.toList_ofList] at hident

/-! ### What is kept in front of a block -/

/-- What stands before the keyword `struct` at the end of a word. -/
def beforeKeyword? (word : List Char) : Option (List Char) :=
  match after? "struct".toList.reverse word.reverse with
  | some front => if isEdge front.head? then some front.reverse else none
  | none => none

theorem eq_of_beforeKeyword?_eq_some {word front : List Char}
    (h : beforeKeyword? word = some front) :
    word = front ++ "struct".toList ∧ isEdge front.getLast? = true := by
  rw [beforeKeyword?] at h
  split at h
  · rename_i back hback
    obtain ⟨hedge, hfront⟩ := Option.ite_none_right_eq_some.1 h
    obtain rfl := Option.some.inj hfront
    rw [after?_eq_some_iff] at hback
    refine ⟨?_, by rwa [List.getLast?_reverse]⟩
    rw [← List.reverse_reverse word, hback, List.reverse_append, List.reverse_reverse]
  · cases h

/-- What is kept in front of a block of the words `done`, the latest first: all of them but a
keyword `struct` at the end, each with a space behind it. -/
def keptPrefix : Declaration → List Char
  | [] => []
  | word :: earlier =>
    match beforeKeyword? word with
    | some front => spacedBehind earlier.reverse ++ front
    | none => spacedBehind (word :: earlier).reverse

/-- What is kept does not end within an identifier, and only the keyword is missing from it. -/
theorem spacedBehind_reverse_eq (done : Declaration) :
    isEdge (keptPrefix done).getLast? = true ∧
      (spacedBehind done.reverse = keptPrefix done ∨
        spacedBehind done.reverse = keptPrefix done ++ ("struct".toList ++ [' '])) := by
  cases done with
  | nil => exact ⟨rfl, .inl rfl⟩
  | cons word earlier =>
    rw [keptPrefix]
    cases hword : beforeKeyword? word with
    | none => exact ⟨isEdge_getLast?_spacedBehind _, .inl rfl⟩
    | some front =>
      obtain ⟨rfl, hedge⟩ := eq_of_beforeKeyword?_eq_some hword
      refine ⟨?_, .inr ?_⟩
      · cases hlast : front.getLast? with
        | none =>
          rw [List.getLast?_eq_none_iff.1 hlast]
          simpa using isEdge_getLast?_spacedBehind earlier.reverse
        | some c =>
          rw [hlast] at hedge
          rw [List.getLast?_append, hlast, Option.some_or]
          exact hedge
      · rw [List.reverse_cons, spacedBehind_append]
        simp [spacedBehind]

end Expansion

/-! ### What stands in front of a block -/

namespace Splice

open Expansion

/-- If the keyword stands by itself neither in what is kept nor in the word behind it, it is dropped
between the two or behind the word. -/
theorem exists_dropStructKeyword_keptPrefix {done : Declaration} {word tail : List Char}
    (hword : IsWord word) (htail : Parted tail)
    (hkept : splitAtWord? "struct".toList (keptPrefix done) = none)
    (hnone : splitAtWord? "struct".toList word = none) :
    ∃ tail', dropStructKeyword (spacedBehind done.reverse ++ (word ++ tail)) =
      keptPrefix done ++ (word ++ tail') ∧ Parted tail' := by
  have hkeyword : IsIdent "struct".toList := by decide
  obtain ⟨hedge, hdone⟩ := spacedBehind_reverse_eq done
  have hbefore : isEdge ((keptPrefix done).reverse ++ []).head? = true := by
    rwa [List.append_nil, List.head?_reverse]
  -- The keyword is not found in what is kept, so the search begins behind it.
  have hsearch : ∀ text, splitAtWord? "struct".toList (keptPrefix done ++ text) =
      splitAtWordFrom "struct".toList ((keptPrefix done).reverse ++ []) 0 text := by
    intro text
    rw [splitAtWord?, if_neg (by decide)] at hkept ⊢
    rw [splitAtWordFrom_append_of_edge hkeyword (.inl rfl) (.inl hedge), hkept]
  rcases hdone with hdone | hdone
  · -- No keyword ends the words before, and the word holds none, so it is looked for behind the
    -- word.
    have hpassed : splitAtWord? "struct".toList (keptPrefix done ++ word ++ tail) =
        splitAtWordFrom "struct".toList (keptPrefix done ++ word).reverse 0 tail := by
      rw [List.append_assoc, hsearch,
        splitAtWordFrom_append_of_edge hkeyword (.inl hbefore) (.inr htail),
        splitAtWordFrom_eq_map hkeyword.ne_nil hbefore word, hnone, List.append_nil,
        List.reverse_append]
      rfl
    obtain ⟨tail', hdrop, htail'⟩ := exists_dropStructKeyword_of_passed hpassed htail
    rw [List.append_assoc, List.append_assoc] at hdrop
    exact ⟨tail', by rw [hdone, hdrop], htail'⟩
  · -- The keyword ends the words before.
    have hspace : Parted (' ' :: (word ++ tail)) := parted_cons (by decide) _
    have hfound : splitAtWord? "struct".toList (spacedBehind done.reverse ++ (word ++ tail)) =
        some (keptPrefix done, ' ' :: (word ++ tail)) := by
      rw [hdone, List.append_assoc, List.append_assoc, hsearch, List.singleton_append,
        splitAtWordFrom_append hkeyword hbefore hspace, List.append_nil, List.reverse_reverse]
    have hhead : ∀ c, (word ++ tail).head? = some c → isSpace c = false := by
      obtain ⟨c, cs, rfl⟩ := List.exists_cons_of_ne_nil hword.ne_nil
      intro d hd
      obtain rfl := Option.some.inj hd
      exact hword.no_space c List.mem_cons_self
    exact ⟨tail, dropStructKeyword_of_found hfound hhead, htail⟩

/-- In front of a block stands what is kept, up to the first place where the name of the struct
stands by itself, if there is one. -/
theorem lead_eq {done rest : Declaration} {word : List Char} (hword : IsWord word)
    (hname : IsIdent (nameIn word)) (hkept : splitAtWord? "struct".toList (keptPrefix done) = none)
    (hnone : splitAtWord? "struct".toList word = none) :
    lead (Declaration.text (done.reverse ++ word :: rest)) (nameIn word) =
      match splitAtWord? (nameIn word) (keptPrefix done) with
      | some (front, _) => front
      | none => keptPrefix done := by
  have htail : Parted (spaced rest) := by
    cases rest with
    | nil => exact nofun
    | cons w rest => exact spaced_cons w rest ▸ parted_cons (by decide) _
  obtain ⟨tail', hdrop, htail'⟩ := exists_dropStructKeyword_keptPrefix hword htail hkept hnone
  obtain ⟨hedge, -⟩ := spacedBehind_reverse_eq done
  obtain ⟨stars, hsplit, hstars⟩ := exists_nameIn_append word
  -- Behind the name stands a star, or what is left behind the word.
  have hparted : Parted (stars ++ tail') := by
    cases stars with
    | nil => exact htail'
    | cons c stars =>
      obtain rfl : c = '*' := by simpa [isStar] using hstars c List.mem_cons_self
      exact parted_cons (by decide) _
  have hbefore : isEdge ((keptPrefix done).reverse ++ []).head? = true := by
    rwa [List.append_nil, List.head?_reverse]
  have htext : keptPrefix done ++ (word ++ tail') =
      keptPrefix done ++ (nameIn word ++ (stars ++ tail')) := by
    rw [← List.append_assoc (nameIn word), ← hsplit]
  rw [lead, Declaration.text, joinWords_append_cons, hdrop, htext, splitAtWord?,
    if_neg (by simpa using hname.ne_nil),
    splitAtWordFrom_append_of_edge hname (.inl rfl) (.inl hedge),
    splitAtWordFrom_append hname hbefore hparted, splitAtWord?,
    if_neg (by simpa using hname.ne_nil)]
  cases splitAtWordFrom (nameIn word) [] 0 (keptPrefix done) with
  | none => simp
  | some found => rfl

/-- All that is kept stands in front of the block if and only if the name stands nowhere in it. -/
theorem lead_eq_keptPrefix_iff {done rest : Declaration} {word : List Char} (hword : IsWord word)
    (hname : IsIdent (nameIn word)) (hkept : splitAtWord? "struct".toList (keptPrefix done) = none)
    (hnone : splitAtWord? "struct".toList word = none) :
    lead (Declaration.text (done.reverse ++ word :: rest)) (nameIn word) = keptPrefix done ↔
      splitAtWord? (nameIn word) (keptPrefix done) = none := by
  rw [lead_eq hword hname hkept hnone]
  cases hfound : splitAtWord? (nameIn word) (keptPrefix done) with
  | none => simp
  | some found =>
    obtain ⟨front, back⟩ := found
    obtain ⟨-, hfrom⟩ := Option.ite_none_left_eq_some.1 hfound
    obtain ⟨t, rfl, hkept⟩ := exists_of_splitAtWordFrom hfrom
    refine ⟨fun heq => ?_, nofun⟩
    -- What is found is shorter than the text in which the name stands behind it.
    have hlength := congrArg List.length hkept
    rw [← heq] at hlength
    have hpos := List.length_pos_iff.2 hname.ne_nil
    simp only [List.length_append] at hlength
    omega

end Splice

namespace Expansion

/-! ### The blocks of an expansion -/

/-- A block and the item in which it stands behind a text are drawn as the same lines, but for the
text in front of the first and the spaces in front of the others. -/
theorem render_nested {b : Block} (h : ∀ i ∈ membersOf b.items, i.IsPlain)
    (hlabel : Unbroken b.label) (lead : List Char) (indentWidth : Nat) :
    ∃ later, b.render indentWidth = unlines (['|'] :: later) ∧
      (Item.nested lead b.root b.label b.items).render indentWidth =
        unlines ((lead ++ ['|']) :: later.map (indented lead.length)) := by
  have hitems := drawnBy_renderItems indentWidth b.items h
  have hlines := Schema.isLine_of_mem_blockLines hlabel hitems.isLine indentWidth
  have hblock := Schema.frame_eq_unlines indentWidth b.label hitems.isLine
  rw [Schema.blockLines, List.cons_append] at hlines hblock
  exact ⟨_, hblock, by rw [Item.render, hblock, Splice.attach_unlines lead hlines]; rfl⟩

/-- Within a word that is a name with stars, only the name stands by itself. -/
theorem splitAtWord?_word {word keyword : List Char} (hname : IsIdent (nameIn word))
    (hkeyword : IsIdent keyword) (hne : nameIn word ≠ keyword) :
    splitAtWord? keyword word = none := by
  obtain ⟨stars, hsplit, hstars⟩ := exists_nameIn_append word
  have hnone : ∀ c ∈ stars, isIdentChar c = false := by
    intro c hc
    obtain rfl : c = '*' := by simpa [isStar] using hstars c hc
    decide
  have hparted : Parted stars := fun c hc => hnone c (List.mem_of_mem_head? hc)
  rw [hsplit, splitAtWord?, if_neg (by simpa using hkeyword.ne_nil),
    splitAtWordFrom_of_ne _ hname hkeyword hne hparted, splitAtWordFrom_of_not_ident hkeyword hnone]

/-- **A block stands behind the words that are kept in front of it unless its name or the keyword
stands among them.** The names that scanning finds are made of characters of identifiers, and in a
catalog of such names it is as follows. Where the struct of a word is entered and becomes a block,
the declaration becomes an item that begins with the text in front of the block, behind which the
block is drawn, its later lines indented by the length of that text. If the keyword `struct` stands
by itself nowhere before the word but directly in front of it, the text is what is kept of the words
before, provided that the name of the word does not stand by itself among them; otherwise the text
ends where the name first does. -/
theorem block_behind_kept_words (ctx : Context) :
    (∀ steps hops, ctx.catalog = (Scan.run steps).setMaxAliasHops hops →
      ctx.catalog.IdentNamed) ∧
    (ctx.catalog.IdentNamed → ∀ query e, expand ctx query = .ok e →
      ∀ depth done word rest run b run',
        ArisesIn ctx query (.words depth done (word :: rest)) run →
        verdict ctx depth word rest run.visited = .enter →
        Performs ctx (.enter (symbolOf word rest) (declaratorOf (Declaration.text rest))
          (depth + 1)) run (.entered (.block b)) run' →
        ∃ lead, .nested lead b.root b.label b.items ∈ e.entered.members ∧
          (∀ indentWidth, ∃ later, b.render indentWidth = unlines (['|'] :: later) ∧
            (Item.nested lead b.root b.label b.items).render indentWidth =
              unlines ((lead ++ ['|']) :: later.map (indented lead.length))) ∧
          (nameIn word ≠ "struct".toList →
            splitAtWord? "struct".toList (keptPrefix done) = none →
            (lead = keptPrefix done ↔ splitAtWord? (nameIn word) (keptPrefix done) = none) ∧
            ∀ front back, splitAtWord? (nameIn word) (keptPrefix done) = some (front, back) →
              lead = front)) := by
  refine ⟨fun steps hops hcatalog => hcatalog ▸ Catalog.identNamed_run steps hops,
    fun hctx query e hexpand depth done word rest run b run' harises hverdict henter => ?_⟩
  obtain ⟨⟨outcome, last, hperforms, hmembers⟩, -⟩ := harises.exists_performs hexpand
  obtain ⟨rfl, -⟩ := hperforms.unique (.nest hverdict henter)
  have hplain := isPlain_of_mem_members hctx.namesAreLines hexpand
  have hmem := hmembers (Item.mem_members _)
  have hword : IsWord word := harises.ofWords trivial word List.mem_cons_self
  obtain ⟨root, hroot, -⟩ := exists_structOf?_of_verdict_eq_enter hverdict
  obtain ⟨hne, ⟨isPointer, hresolve⟩, hdefined⟩ := structOf?_eq_some_iff.1 hroot
  have hname := Names.isIdent hctx ⟨hne, hresolve, hdefined⟩ hword
  have hitems : ∀ i ∈ membersOf b.items, i.IsPlain := fun i hi =>
    hplain i (hmembers (List.mem_cons_of_mem _ hi))
  refine ⟨_, hmem, render_nested hitems (hplain _ hmem).2 _, fun hstruct hkept => ?_⟩
  have hnone := splitAtWord?_word hname (by decide) hstruct
  refine ⟨Splice.lead_eq_keptPrefix_iff hword hname hkept hnone, fun front back hfound => ?_⟩
  rw [Splice.lead_eq hword hname hkept hnone, hfound]

/-- Structs with a member whose type stands behind a qualifier, behind its own name, and behind two
keywords `struct`. -/
def pinFiles : List (Path × List Char) :=
  [(.ofString "pin.h", ("struct pin \x7b\n  int n;\n\x7d;\n" ++
    "struct port \x7b\n  const struct pin a;\n\x7d;\n" ++
    "struct bus \x7b\n  alignas(pin) pin b;\n\x7d;\n" ++
    "struct gate \x7b\n  struct net (*f)(struct pin c);\n\x7d;\n").toList)]

/-- The catalog of `pinFiles`, with a reader of the same texts. -/
def pinContext : Context :=
  ⟨(Scan.workspace 512 pinFiles).1, (Sources.ofList pinFiles).reader, ⟨4, 8, 512⟩⟩

theorem block_behind_kept_words_port :
    ∃ e items, expand pinContext "port".toList = .ok e ∧
      .nested "const ".toList "pin" "a;".toList items ∈ e.entered.members := by
  obtain ⟨hquery, hidents, haccepts, hopening, hfirst, hsecond, hthird, hbody⟩ :
      trim "port".toList = "port".toList ∧
      (∀ name ∈ pinContext.catalog.structs.keys ++ pinContext.catalog.aliases.keys,
        IsIdent name.toList) ∧
      (pinContext.catalog.resolve "port".toList = .ok ⟨"port", false⟩ ∧
        pinContext.catalog.structs.contains "port" = true) ∧
      (opening pinContext "port".toList 0 Run.start).1 =
        .body ⟨"port", false⟩ "const struct pin a;\n".toList ∧
      verdict pinContext 0 "const".toList ["struct".toList, "pin".toList, "a;".toList]
        (opening pinContext "port".toList 0 Run.start).2.visited =
        .settle "const".toList none ∧
      verdict pinContext 0 "struct".toList ["pin".toList, "a;".toList]
        (opening pinContext "port".toList 0 Run.start).2.visited =
        .settle "struct".toList none ∧
      verdict pinContext 0 "pin".toList ["a;".toList]
        (opening pinContext "port".toList 0 Run.start).2.visited = .enter ∧
      (opening pinContext (symbolOf "pin".toList ["a;".toList]) 1
        (opening pinContext "port".toList 0 Run.start).2).1 =
          .body ⟨"pin", false⟩ "int n;\n".toList := by
    decide +kernel
  have hctx : pinContext.catalog.IdentNamed := by
    refine fun name hname => hidents name (List.mem_append.2 ?_)
    rwa [Table.mem_keys_iff, Table.mem_keys_iff]
  rw [← hquery] at haccepts hopening hfirst hsecond hthird hbody
  -- Both words before the name are settled, and then its struct is entered.
  have harises := (arisesIn_declarations hopening (show _ =
    [["const".toList, "struct".toList, "pin".toList, "a;".toList]] by decide +kernel)).first
  obtain ⟨e, hexpand, -⟩ := performs_expand ⟨_, haccepts⟩
  generalize (opening pinContext (trim "port".toList) 0 Run.start).2 = run at *
  have hpin : ArisesIn pinContext "port".toList _ _ := (harises.settle hfirst).settle hsecond
  rw [Option.toList_none, Run.noteAll_nil, Run.noteAll_nil] at hpin
  obtain ⟨⟨outcome, run', hperforms, -⟩, -⟩ :=
    ArisesIn.exists_performs (Arises.enter hpin hthird) hexpand
  cases hperforms with
  | leaf hleaf =>
    rw [hleaf] at hbody
    cases hbody
  | @block _ _ _ _ resolved text read items run' hblock hitems =>
    obtain rfl : resolved = ⟨"pin", false⟩ := by
      rw [hblock] at hbody
      exact (Opening.body.inj hbody).1
    obtain ⟨lead, hmem, -, hlead⟩ := (block_behind_kept_words pinContext).2 hctx
      "port".toList e hexpand _ _ _ _ _ _ _ hpin hthird (.block hblock hitems)
    obtain ⟨hiff, -⟩ := hlead (by decide) (by decide +kernel)
    obtain rfl : lead = "const ".toList := (hiff.2 (by decide +kernel)).trans (by decide +kernel)
    exact ⟨e, items, hexpand, hmem⟩

/-- In front of a block `alignas(pin)` is cut off where the name first stands, and the first of two
keywords is missing, not the one before the name. -/
theorem expand_pinContext :
    keptPrefix ["alignas(pin)".toList] = "alignas(pin) ".toList ∧
      (expand pinContext "bus".toList).map (fun e => (e.text 4, e.issues)) =
        .ok ("|\n    alignas(|\n                int n;\n            |\n            | b;\n" ++
          "|\n| bus", []) ∧
      keptPrefix ["(*f)(struct".toList, "net".toList, "struct".toList] =
        "struct net (*f)(".toList ∧
      (expand pinContext "gate".toList).map (fun e => (e.text 4, e.issues)) =
        .ok ("|\n    net (*f)(struct |\n                        int n;\n" ++
          "                    |\n                    | c);\n|\n| gate", []) := by
  decide +kernel

end Expansion

end StructUnfold
