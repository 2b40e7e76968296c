import StructUnfold.Proofs.Expansion.Splice
import StructUnfold.Proofs.Schema.Body
import StructUnfold.Proofs.Schema.Rendering

/-!
# Flattening a printed member

A member is flattened word by word. The keyword `struct` and the last word, which ends in a
semicolon, are no names of the schema and stay as they are; what becomes of the member is decided at
the word of its type.

* `Run.BelowCeilings`: no ceiling has been met.
* `Flattened`: what can become of a member.
* `Valid.flattened_of_performs`: nothing else becomes of it.
-/

namespace StructUnfold

/-- No issue of a run is the fault of a ceiling. -/
def Expansion.Run.BelowCeilings (run : Expansion.Run) : Prop :=
  ∀ issue ∈ run.issues, issue.isCeiling = false

/-- Nor is an issue that was met before. -/
theorem Expansion.Run.BelowCeilings.of_isPrefix {run run' : Run} (h : run'.BelowCeilings)
    (hissues : run.issues <+: run'.issues) : run.BelowCeilings :=
  fun issue hissue => h issue (hissues.subset hissue)

namespace Schema

open Text Expansion

variable {s : Schema} {maxScan depth : Nat} {options : Expansion.Options} {m : Member}

/-! ### Names that a schema declares -/

/-- A name is declared by an entry. -/
def Declares (s : Schema) (name : String) : Prop :=
  ∃ e ∈ s.entries, name ∈ e.names

theorem HasStruct.declares {name : String} {members : List Member} (h : s.HasStruct name members) :
    s.Declares name := by
  obtain ⟨aliases, he⟩ := h
  exact ⟨_, he, List.mem_cons_self⟩

theorem HasAlias.declares {name target : String} {isPointer : Bool}
    (h : s.HasAlias name target isPointer) : s.Declares name := by
  have hmem : ∀ {aliases : List Declarator}, Declarator.mk name isPointer ∈ aliases →
      name ∈ aliases.map Declarator.name := fun hd => List.mem_map_of_mem (f := Declarator.name) hd
  rcases h with ⟨members, aliases, he, hd⟩ | ⟨aliases, he, hd⟩
  · exact ⟨_, he, List.mem_cons_of_mem _ (hmem hd)⟩
  · exact ⟨_, he, hmem hd⟩

/-- A name that is not declared comes down to itself. -/
theorem Resolves.eq_of_not_declares {name root : String} {isPointer : Bool}
    (h : s.Resolves name root isPointer) (hnone : ¬s.Declares name) :
    root = name ∧ isPointer = false := by
  cases h with
  | settled => exact ⟨rfl, rfl⟩
  | hop halias => exact absurd halias.declares hnone

namespace Valid

theorem isIdentifier_of_declares (hs : s.Valid) {name : String} (h : s.Declares name) :
    isIdentifier name.toList = true := by
  obtain ⟨e, he, hname⟩ := h
  exact (hs.names e he name hname).1

theorem not_declares_struct (hs : s.Valid) : ¬s.Declares "struct" := by
  rintro ⟨e, he, hname⟩
  exact (hs.names e he _ hname).2 (by decide)

/-- A name comes down to an identifier. -/
theorem isIdentifier_of_resolves (hs : s.Valid) {name root : String} {isPointer : Bool}
    (h : s.Resolves name root isPointer) (hname : isIdentifier name.toList = true) :
    isIdentifier root.toList = true := by
  induction h with
  | settled => exact hname
  | hop halias _ ih =>
    refine ih ?_
    rcases halias with ⟨members, aliases, he, -⟩ | ⟨aliases, he, -⟩
    · exact hs.isIdentifier_of_declares ⟨_, he, List.mem_cons_self⟩
    · exact (hs.statements _ _ he).1

end Valid

/-! ### The words of a member -/

namespace Member

theorem nameIn_typeWord (hm : IsMember m) : nameIn (m.typeWord m.type.toList) = m.type.toList := by
  have hself : nameIn m.type.toList = m.type.toList := by
    refine dropEndWhile_eq_self fun c hc => ?_
    have hident := (isIdent_of_isIdentifier hm.type).chars c (List.mem_of_getLast? hc)
    exact beq_false_of_ne (ne_of_isIdentChar hident (by decide))
  rw [typeWord]
  split
  · rw [nameIn, dropEndWhile_concat, if_pos (by rfl)]
    exact hself
  · exact hself

theorem starsOf_typeWord (hm : IsMember m) :
    starsOf (m.typeWord m.type.toList) = if m.style = .starOnType then ['*'] else [] := by
  rw [starsOf, nameIn_typeWord hm, typeWord]
  split
  · exact List.drop_left
  · exact List.drop_length

/-- The last word begins with a star if one is written there. -/
theorem head?_declaratorWord (hm : IsMember m) :
    m.declaratorWord.head?.any isStar = (m.style == .starOnName) := by
  obtain ⟨c, hc, hhead⟩ := (isIdent_of_isIdentifier hm.declarator).head?_append [';']
  have hne : isStar c = false := beq_false_of_ne (ne_of_isIdentChar hc (by decide))
  rw [declaratorWord, List.append_assoc]
  cases m.style with
  | starOnName => rfl
  | _ =>
    rw [if_neg (by simp), List.nil_append, hhead, Option.any_some, hne]
    rfl

theorem hasStar_typeWord (hm : IsMember m) :
    Expansion.hasStar (m.typeWord m.type.toList) [m.declaratorWord] = m.hasStar := by
  rw [Expansion.hasStar, starsOf_typeWord hm, List.head?_cons, Option.bind_some,
    head?_declaratorWord hm, hasStar]
  cases m.style <;> rfl

/-- The last word is what a block is labelled with. -/
theorem declaratorOf_text (hm : IsMember m) :
    declaratorOf (Declaration.text [m.declaratorWord]) = m.declaratorWord := by
  have hbrace : ∀ rest, m.declaratorWord ≠ '{' :: rest := by
    intro rest heq
    have hchars := (mem_word hm m.declaratorWord_mem_words).2
    have hhead := hchars '{' (by simp [heq])
    revert hhead
    decide
  have htext : Declaration.text [m.declaratorWord] = m.declaratorWord := by
    rw [Declaration.text, joinWords_cons, spaced_nil, List.append_nil]
  rw [htext, declaratorOf]
  exact hbrace

/-- The name of a struct that is not entered stands in the place of the type. -/
theorem leafName_append_starsOf (hm : IsMember m) (root : String) (isPointer : Bool) :
    leafName ⟨root, isPointer⟩ m.hasStar ++ starsOf (m.typeWord m.type.toList) =
      m.typeWord (if isPointer && !m.hasStar then root.toList ++ ['*'] else root.toList) := by
  rw [starsOf_typeWord hm, typeWord]
  by_cases hstyle : m.style = .starOnType
  · rw [if_pos hstyle, if_pos hstyle]
    rfl
  · rw [if_neg hstyle, if_neg hstyle, List.append_nil]
    rfl

end Member

/-! ### What becomes of a member -/

/-- What can become of a member when the structs `visited` have been entered, and the state behind
it. -/
inductive Flattened (s : Schema) (maxScan : Nat) (options : Expansion.Options) (depth : Nat)
    (m : Member) (visited : List String) : Item → Run → Prop where
  /-- Its struct has been entered before and is named. -/
  | name {root isPointer run'} (hresolves : s.Resolves m.type root isPointer)
    (hvisited : root ∈ visited) (hsame : run'.visited = visited) :
    Flattened s maxScan options depth m visited (.line (m.renamed root isPointer)) run'
  /-- Its type comes down to no struct. -/
  | keep {root isPointer run'} (hresolves : s.Resolves m.type root isPointer)
    (hfresh : root ∉ visited) (hnone : ∀ members, ¬s.HasStruct root members)
    (hsame : run'.visited = visited) :
    Flattened s maxScan options depth m visited (.line m.text) run'
  /-- Its struct is entered, and if it becomes a block, so does the member. -/
  | enter {root isPointer members symbol mid e left item run'}
    (hresolves : s.Resolves m.type root isPointer) (hfresh : root ∉ visited)
    (hstruct : s.HasStruct root members)
    (hsymbol : (s.context maxScan options).catalog.resolve symbol =
      .ok ⟨root, m.hasStar || isPointer⟩)
    (hmid : mid.visited = visited) (hsound : mid.Sound s.sources)
    (henter : Performs (s.context maxScan options) (.enter symbol m.declaratorWord (depth + 1)) mid
      (.entered e) left)
    (hissues : left.issues <+: run'.issues)
    (hitem : ∀ b, e = .block b → item = .nested [] b.root b.label b.items ∧ run' = left) :
    Flattened s maxScan options depth m visited item run'

namespace Valid

/-- A word that is no name of the schema is settled as it is. -/
theorem verdict_of_not_declares (hs : s.Valid) (hscan : s.ScansWhole maxScan) {word : List Char}
    (hword : IsWord word) (hname : nameIn word = word) (hstrip : Catalog.stripStars word = word)
    (hnone : ¬s.Declares (String.ofList word)) (options : Expansion.Options) (depth : Nat)
    (rest : Declaration) (visited : List String) :
    ∃ issue, verdict (s.context maxScan options) depth word rest visited = .settle word issue := by
  obtain ⟨root, isPointer, hresolve, hresolves⟩ :=
    hs.exists_resolve hscan (trim_of_isWord hword) hstrip
  obtain ⟨rfl, rfl⟩ := hresolves.eq_of_not_declares hnone
  have hcatalog : (s.context maxScan options).catalog = (Scan.workspace maxScan s.print).1 := rfl
  have hundefined : (Scan.workspace maxScan s.print).1.structs.contains (String.ofList word) =
      false := by
    refine Bool.eq_false_iff.2 fun hcontains => hnone ?_
    obtain ⟨members, hstruct⟩ := (hs.contains_structs_iff hscan).1 hcontains
    exact hstruct.declares
  have hleaf : leafName ⟨String.ofList word, false⟩ (hasStar word rest) ++ starsOf word = word := by
    rw [starsOf, hname, List.drop_length, List.append_nil]
    exact String.toList_ofList
  rw [verdict, hname, if_neg (by simpa using hword.ne_nil), hcatalog, hresolve]
  dsimp only
  rw [hleaf]
  split
  · exact ⟨none, rfl⟩
  · rw [if_pos (by simp [hundefined])]
    exact ⟨_, rfl⟩

/-- The last word of a member is settled, and the member is one line. -/
theorem eq_line_of_declaratorWord (hs : s.Valid) (hscan : s.ScansWhole maxScan)
    (hm : IsMember m) {done : Declaration} {run run' : Run} {item : Item}
    (h : Performs (s.context maxScan options) (.words depth done [m.declaratorWord]) run
      (.item item) run') :
    item = .line (Declaration.text (done.reverse ++ [m.declaratorWord])) ∧
      run'.visited = run.visited := by
  have hsemicolon : ∀ front : List Char, ¬s.Declares (String.ofList (front ++ [';'])) := by
    intro front hdeclares
    have hident := isIdent_of_isIdentifier (hs.isIdentifier_of_declares hdeclares)
    rw [String.toList_ofList] at hident
    exact hident.not_mem (d := ';') (by decide) (by simp)
  have hword : IsWord m.declaratorWord :=
    Member.isWord_of_mem_words hm _ m.declaratorWord_mem_words
  have hname : nameIn m.declaratorWord = m.declaratorWord := by
    rw [Member.declaratorWord, nameIn, dropEndWhile_concat, if_neg (by decide)]
  have hstrip : Catalog.stripStars m.declaratorWord = m.declaratorWord := by
    rw [Member.declaratorWord, Catalog.stripStars, dropEndWhile_concat, if_neg (by decide)]
  obtain ⟨issue, hsettle⟩ := hs.verdict_of_not_declares hscan hword hname hstrip (hsemicolon _)
    options depth [] run.visited
  cases h.rest_of_settle hsettle with
  | line => exact ⟨by rw [List.reverse_cons], rfl⟩

/-- What is to be done about the type of a member. -/
theorem exists_verdict_typeWord (hs : s.Valid) (hscan : s.ScansWhole maxScan) (hm : IsMember m)
    (options : Expansion.Options) (depth : Nat) (visited : List String) :
    ∃ root isPointer, s.Resolves m.type root isPointer ∧
      (s.context maxScan options).catalog.resolve m.type.toList = .ok ⟨root, isPointer⟩ ∧
      verdict (s.context maxScan options) depth (m.typeWord m.type.toList) [m.declaratorWord]
          visited =
        let leaf := m.typeWord
          (if isPointer && !m.hasStar then root.toList ++ ['*'] else root.toList)
        if visited.contains root then .settle leaf none
        else if !(s.context maxScan options).catalog.structs.contains root then
          .settle (m.typeWord m.type.toList)
            (unexpandable? (s.context maxScan options).catalog m.type.toList root)
        else if options.maxDepth ≤ depth + 1 then
          .settle leaf (some (.depthLimit root (depth + 1)))
        else .enter := by
  have hident := isIdent_of_isIdentifier hm.type
  obtain ⟨root, isPointer, hresolve, hresolves⟩ :=
    hs.exists_resolve hscan (trim_of_isWord hident.isWord) (Catalog.stripStars_of_isIdent hident)
  rw [String.ofList_toList] at hresolves
  refine ⟨root, isPointer, hresolves, hresolve, ?_⟩
  have hcatalog : (s.context maxScan options).catalog = (Scan.workspace maxScan s.print).1 := rfl
  rw [verdict, Member.nameIn_typeWord hm, if_neg (by simpa using hident.ne_nil), hcatalog, hresolve]
  dsimp only
  rw [Member.hasStar_typeWord hm, Member.leafName_append_starsOf hm]
  rfl

end Valid

/-- Nothing stands in front of a block that takes the place of a member's type. -/
theorem Member.lead_text (hm : IsMember m) (hne : m.type ≠ "struct") :
    Splice.lead m.text m.type.toList = [] := by
  have hident := isIdent_of_isIdentifier hm.type
  have hne : m.type.toList ≠ "struct".toList := fun heq => hne (String.toList_inj.1 heq)
  have hplain : ∀ (c : Char) (rest : List Char) {text : List Char}, isIdentChar c = false →
      text = m.type.toList ++ c :: rest → Splice.lead text m.type.toList = [] := by
    rintro c rest _ hc rfl
    exact Splice.lead_spacedBehind (List.forall_mem_nil _) hident hne (parted_cons hc rest)
  rw [text_eq, lead]
  cases m.style with
  | plain => exact hplain ' ' (m.declarator.toList ++ [';']) (by decide) (by simp)
  | starOnType => exact hplain '*' (' ' :: (m.declarator.toList ++ [';'])) (by decide) (by simp)
  | starOnName => exact hplain ' ' ('*' :: (m.declarator.toList ++ [';'])) (by decide) (by simp)
  | keyword =>
    have hkeyword : ∀ w ∈ ["struct".toList], IsIdent w ∧ w ≠ m.type.toList :=
      List.forall_mem_singleton.2 ⟨by decide, hne.symm⟩
    have hlead := Splice.lead_spacedBehind hkeyword hident hne (parted_cons (c := ' ') (by decide)
      (m.declarator.toList ++ [';']))
    simpa [spacedBehind] using hlead

namespace Valid

/-- What becomes of a member whose type is settled without entering a struct. -/
theorem flattened_of_settle (hs : s.Valid) (hscan : s.ScansWhole maxScan) (hm : IsMember m)
    {done : Declaration}
    (hdone : ∀ type, done.reverse ++ [m.typeWord type, m.declaratorWord] = m.wordsWith type)
    {run run' : Run} {item : Item} {text : List Char} {issue : Option Problem}
    (hsettle : verdict (s.context maxScan options) depth (m.typeWord m.type.toList)
      [m.declaratorWord] run.visited = .settle text issue)
    (hrest : Performs (s.context maxScan options) (.words depth (text :: done) [m.declaratorWord])
      (run.noteAll issue.toList) (.item item) run')
    (hbelow : run'.BelowCeilings) : Flattened s maxScan options depth m run.visited item run' := by
  obtain ⟨root, isPointer, hresolves, -, hverdict⟩ :=
    hs.exists_verdict_typeWord hscan hm options depth run.visited
  have htext : ∀ type, Declaration.text
      ((m.typeWord type :: done).reverse ++ [m.declaratorWord]) = joinWords (m.wordsWith type) := by
    intro type
    rw [← hdone, List.reverse_cons, List.append_assoc]
    rfl
  obtain ⟨hitem, hvisited⟩ := hs.eq_line_of_declaratorWord hscan hm hrest
  rw [Run.visited_noteAll] at hvisited
  rw [hverdict] at hsettle
  dsimp only at hsettle
  split at hsettle
  · rename_i hmem
    obtain ⟨rfl, rfl⟩ := Verdict.settle.inj hsettle
    rw [htext] at hitem
    exact hitem ▸ .name hresolves (by simpa using hmem) hvisited
  · rename_i hfresh
    split at hsettle
    · rename_i hundefined
      obtain ⟨rfl, rfl⟩ := Verdict.settle.inj hsettle
      rw [htext] at hitem
      have hnone : ∀ members, ¬s.HasStruct root members := by
        intro members hstruct
        have hcontains : (s.context maxScan options).catalog.structs.contains root = true :=
          (hs.contains_structs_iff hscan).2 ⟨members, hstruct⟩
        simp [hcontains] at hundefined
      exact hitem ▸ .keep hresolves (by simpa using hfresh) hnone hvisited
    · split at hsettle
      · -- The struct lies too deep, and the issue that tells so is kept to the end.
        obtain ⟨-, rfl⟩ := Verdict.settle.inj hsettle
        have hmem : Problem.depthLimit root (depth + 1) ∈ run'.issues :=
          hrest.issues_isPrefix.subset (List.mem_append_right _ (by simp))
        cases hbelow _ hmem
      · cases hsettle

/-- The struct of a member that is entered. -/
theorem exists_of_verdict_eq_enter (hs : s.Valid) (hscan : s.ScansWhole maxScan) (hm : IsMember m)
    {visited : List String}
    (h : verdict (s.context maxScan options) depth (m.typeWord m.type.toList)
      [m.declaratorWord] visited = .enter) :
    ∃ root isPointer members, s.Resolves m.type root isPointer ∧ root ∉ visited ∧
      s.HasStruct root members ∧
      (s.context maxScan options).catalog.resolve
        (symbolOf (m.typeWord m.type.toList) [m.declaratorWord]) =
          .ok ⟨root, m.hasStar || isPointer⟩ := by
  obtain ⟨root, isPointer, hresolves, hresolve, -⟩ :=
    hs.exists_verdict_typeWord hscan hm options depth visited
  rw [← Member.nameIn_typeWord hm] at hresolve
  obtain ⟨root', ⟨p, hresolve'⟩, hfresh, hdefined, -⟩ := enters_of_verdict_eq_enter h
  rw [hresolve] at hresolve'
  obtain ⟨rfl, -⟩ := Resolved.mk.inj (Except.ok.inj hresolve')
  obtain ⟨members, hstruct⟩ := (hs.contains_structs_iff hscan).1 hdefined
  have hsymbol := resolve_symbolOf hresolve [m.declaratorWord]
  rw [Member.hasStar_typeWord hm] at hsymbol
  exact ⟨root, isPointer, members, hresolves, hfresh, hstruct, hsymbol⟩

/-- What becomes of a member is decided at the word of its type. -/
theorem flattened_of_typeWord (hs : s.Valid) (hscan : s.ScansWhole maxScan) (hm : IsMember m)
    {done : Declaration}
    (hdone : ∀ type, done.reverse ++ [m.typeWord type, m.declaratorWord] = m.wordsWith type)
    {run run' : Run} {item : Item} (hrun : run.Sound s.sources)
    (h : Performs (s.context maxScan options)
      (.words depth done [m.typeWord m.type.toList, m.declaratorWord]) run (.item item) run')
    (hbelow : run'.BelowCeilings) : Flattened s maxScan options depth m run.visited item run' := by
  cases h with
  | settle hsettle hrest => exact hs.flattened_of_settle hscan hm hdone hsettle hrest hbelow
  | name hverdict henter hrest =>
    obtain ⟨root, isPointer, members, hresolves, hfresh, hstruct, hsymbol⟩ :=
      hs.exists_of_verdict_eq_enter hscan hm hverdict
    rw [Member.declaratorOf_text hm] at henter
    exact .enter hresolves hfresh hstruct hsymbol rfl hrun henter hrest.issues_isPrefix (by simp)
  | nest hverdict henter =>
    obtain ⟨root, isPointer, members, hresolves, hfresh, hstruct, hsymbol⟩ :=
      hs.exists_of_verdict_eq_enter hscan hm hverdict
    -- The type is not the keyword, which comes down to no struct.
    have hne : m.type ≠ "struct" := by
      intro heq
      obtain ⟨rfl, -⟩ := (heq ▸ hresolves).eq_of_not_declares hs.not_declares_struct
      exact hs.not_declares_struct hstruct.declares
    have hlead : Splice.lead (Declaration.text
        (done.reverse ++ m.typeWord m.type.toList :: [m.declaratorWord]))
        (nameIn (m.typeWord m.type.toList)) = [] := by
      rw [hdone, Member.nameIn_typeWord hm]
      exact Member.lead_text hm hne
    rw [Member.declaratorOf_text hm] at henter
    refine .enter hresolves hfresh hstruct hsymbol rfl hrun henter (List.prefix_refl _) ?_
    rintro b hb
    obtain rfl := Entered.block.inj hb
    rw [hlead]
    exact ⟨rfl, rfl⟩

/-- What becomes of a member is one of these. -/
theorem flattened_of_performs (hs : s.Valid) (hscan : s.ScansWhole maxScan) (hm : IsMember m)
    {run run' : Run} {item : Item} (hrun : run.Sound s.sources)
    (h : Performs (s.context maxScan options) (.words depth [] m.words) run (.item item) run')
    (hbelow : run'.BelowCeilings) : Flattened s maxScan options depth m run.visited item run' := by
  by_cases hstyle : m.style = .keyword
  · -- The keyword comes first, and it names no struct.
    have hwords : ∀ type, ["struct".toList].reverse ++ [m.typeWord type, m.declaratorWord] =
        m.wordsWith type := by
      intro type
      rw [Member.wordsWith, if_pos hstyle]
      rfl
    have hkeyword : IsWord "struct".toList := by decide
    obtain ⟨issue, hsettle⟩ := hs.verdict_of_not_declares hscan hkeyword rfl rfl
      hs.not_declares_struct options depth [m.typeWord m.type.toList, m.declaratorWord] run.visited
    rw [Member.words, ← hwords, List.reverse_singleton, List.singleton_append] at h
    have hstale : ∀ p ∈ issue.toList, ¬p.IsStale := by
      intro p hp
      obtain rfl := Option.mem_toList.1 hp
      exact not_isStale_of_verdict hsettle
    have hrest := h.rest_of_settle hsettle
    have hflattened :=
      hs.flattened_of_typeWord hscan hm hwords (hrun.noteAll hstale) hrest hbelow
    rwa [Run.visited_noteAll] at hflattened
  · have hwords : ∀ type, [].reverse ++ [m.typeWord type, m.declaratorWord] =
        m.wordsWith type := by
      intro type
      rw [Member.wordsWith, if_neg hstyle]
      rfl
    rw [Member.words, ← hwords, List.reverse_nil, List.nil_append] at h
    exact hs.flattened_of_typeWord hscan hm hwords hrun h hbelow

end Valid

end Schema

end StructUnfold
