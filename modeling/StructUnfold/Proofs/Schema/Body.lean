import StructUnfold.Proofs.Expansion.Declaration
import StructUnfold.Proofs.Expansion.Fresh
import StructUnfold.Proofs.Schema.Catalog

/-!
# Bodies of printed structs

The body of a struct is read from the file it was printed to, and its declarations are the members
of the struct, word by word.

* `all_dropWhile_bodyText`: the declarations of a printed body are its members.
* `Valid.body_eq_or`: the body of a struct is read, unless it reaches the ceiling.
-/

namespace StructUnfold.Schema

open Text Scan

namespace Member

/-- The words of a member consist of characters of identifiers, stars and a semicolon. -/
theorem mem_word {m : Member} (hm : IsMember m) {w : List Char} (hw : w ∈ m.words) :
    w ≠ [] ∧ ∀ c ∈ w, isIdentChar c = true ∨ c = '*' ∨ c = ';' := by
  have htype := isIdent_of_isIdentifier hm.type
  have hname := isIdent_of_isIdentifier hm.declarator
  have hstruct : IsIdent "struct".toList := by decide
  rw [words, wordsWith, List.mem_append, List.mem_cons, List.mem_singleton] at hw
  rcases hw with hw | rfl | rfl
  · split at hw
    · obtain rfl := List.mem_singleton.1 hw
      exact ⟨hstruct.ne_nil, fun c hc => .inl (hstruct.chars c hc)⟩
    · cases hw
  · rw [typeWord]
    split
    · refine ⟨by simp, fun c hc => ?_⟩
      rw [List.mem_append, List.mem_singleton] at hc
      exact hc.imp (htype.chars c) .inl
    · exact ⟨htype.ne_nil, fun c hc => .inl (htype.chars c hc)⟩
  · rw [declaratorWord]
    refine ⟨by simp, fun c hc => ?_⟩
    rw [List.mem_append, List.mem_append, List.mem_singleton] at hc
    rcases hc with (hc | hc) | hc
    · split at hc
      · exact .inr (.inl (List.mem_singleton.1 hc))
      · cases hc
    · exact .inl (hname.chars c hc)
    · exact .inr (.inr hc)

theorem isWord_of_mem_words {m : Member} (hm : IsMember m) : ∀ w ∈ m.words, IsWord w := by
  intro w hw
  obtain ⟨hne, hchars⟩ := mem_word hm hw
  refine ⟨hne, fun c hc => ?_⟩
  rcases hchars c hc with hident | rfl | rfl
  · exact isSpace_eq_false_of_isIdentChar hident
  · rfl
  · rfl

theorem declaratorWord_mem_words (m : Member) : m.declaratorWord ∈ m.words :=
  List.mem_append_right _ (List.mem_cons_of_mem _ List.mem_cons_self)

/-- A printed member is a declaration with the words of the member. -/
theorem words_front {m : Member} (hm : IsMember m) :
    Text.words (m.lead ++ m.declarator.toList ++ [';']) = m.words := by
  rw [← text_eq, text, words_joinWords (isWord_of_mem_words hm)]

theorem colon_not_mem {m : Member} (hm : IsMember m) : ∀ w ∈ m.words, ':' ∉ w := by
  intro w hw hmem
  rcases (mem_word hm hw).2 ':' hmem with hident | heq | heq
  · cases hident
  · cases heq
  · cases heq

theorem isVoid_words (m : Member) : Declaration.isVoid m.words = false := by
  obtain ⟨type, style, declarator⟩ := m
  cases style <;> simp [Declaration.isVoid, words, wordsWith]

/-- A member begins with a character of identifiers. -/
theorem exists_lead_eq_cons {m : Member} (hm : IsMember m) :
    ∃ c cs, isIdentChar c = true ∧ m.lead = c :: cs := by
  have htype := isIdent_of_isIdentifier hm.type
  obtain ⟨c, cs, hcs⟩ := List.exists_cons_of_ne_nil htype.ne_nil
  rw [lead, hcs]
  split
  · exact ⟨'s', _, by decide, rfl⟩
  · exact ⟨c, _, htype.chars c (by simp [hcs]), rfl⟩

end Member

/-- The first member of a body stands before the rest. -/
theorem bodyText_cons (m : Member) (ms : List Member) :
    bodyText (m :: ms) =
      '\n' :: ("    ".toList ++ (m.lead ++ m.declarator.toList)) ++ ';' :: bodyText ms := by
  have hassoc : ∀ indent : List Char, '\n' :: (indent ++ m.text) ++ bodyText ms =
      '\n' :: (indent ++ (m.lead ++ m.declarator.toList)) ++ ';' :: bodyText ms := by
    intro indent
    rw [m.text_eq]
    simp
  refine Eq.trans ?_ (hassoc _)
  rw [bodyText, List.map_cons, joinLines_cons, bodyText, List.cons_append]
  rfl

/-- A text that can stand before the semicolon of a member is all code. -/
theorem IsPlain.ne {text : List Char} (h : IsPlain text) :
    ∀ c ∈ text, c ≠ '{' ∧ c ≠ '}' ∧ c ≠ ';' := by
  intro c hc
  refine ⟨?_, ?_, ?_⟩
  · rintro rfl
    exact h.not_mem (by decide) (by decide) hc
  · rintro rfl
    exact h.not_mem (by decide) (by decide) hc
  · rintro rfl
    exact h.not_mem (by decide) (by decide) hc

/-- The declarations of a printed body are its members. -/
theorem all_bodyText {members : List Member} (hmembers : ∀ m ∈ members, IsMember m) :
    Declaration.all (bodyText members) = members.map Member.words := by
  induction members with
  | nil => rfl
  | cons m ms ih =>
    obtain ⟨hm, hms⟩ := List.forall_mem_cons.1 hmembers
    have hindent : IsPlain "    ".toList := by decide
    have hfront : ∀ c ∈ '\n' :: ("    ".toList ++ (m.lead ++ m.declarator.toList)),
        c ≠ '{' ∧ c ≠ '}' ∧ c ≠ ';' :=
      List.forall_mem_cons.2 ⟨by decide, (hindent.append (Member.isPlain_front hm)).ne⟩
    have hwords : words ('\n' :: ("    ".toList ++ (m.lead ++ m.declarator.toList)) ++ [';']) =
        m.words := by
      have hspace : ∀ c ∈ '\n' :: "    ".toList, isSpace c = true :=
        List.all_eq_true.1 (by decide)
      have hassoc : ∀ indent : List Char,
          '\n' :: (indent ++ (m.lead ++ m.declarator.toList)) ++ [';'] =
            '\n' :: indent ++ (m.lead ++ m.declarator.toList ++ [';']) := by simp
      refine (congrArg words (hassoc _)).trans ?_
      rw [words_append_of_all _ hspace, Member.words_front hm]
    rw [bodyText_cons, Declaration.all_append_of_words hfront hwords (Member.colon_not_mem hm)
      m.isVoid_words, ih hms, List.map_cons]

/-- White space before the first member belongs to no declaration. -/
theorem all_dropWhile_bodyText {members : List Member} (hmembers : ∀ m ∈ members, IsMember m) :
    Declaration.all ((bodyText members).dropWhile isAsciiSpace) = members.map Member.words := by
  cases members with
  | nil => rfl
  | cons m ms =>
    obtain ⟨hm, hms⟩ := List.forall_mem_cons.1 hmembers
    have hdrop : (bodyText (m :: ms)).dropWhile isAsciiSpace =
        m.lead ++ m.declarator.toList ++ ';' :: bodyText ms := by
      obtain ⟨c, cs, hc, hlead⟩ := Member.exists_lead_eq_cons hm
      -- The first member begins with a character of an identifier, so only its indentation is
      -- dropped.
      have hneg : ¬isAsciiSpace c = true := by
        intro hspace
        have hnone := isSpace_eq_false_of_isIdentChar hc
        rw [isSpace_of_isAsciiSpace hspace] at hnone
        cases hnone
      have hspace : ∀ c ∈ '\n' :: "    ".toList, isAsciiSpace c = true :=
        List.all_eq_true.1 (by decide)
      have hassoc : ∀ indent rest : List Char,
          '\n' :: (indent ++ (m.lead ++ m.declarator.toList)) ++ rest =
            '\n' :: indent ++ (m.lead ++ m.declarator.toList ++ rest) := by simp
      rw [bodyText_cons]
      refine (congrArg (List.dropWhile isAsciiSpace) (hassoc _ _)).trans ?_
      rw [List.dropWhile_append_of_pos hspace, hlead]
      exact List.dropWhile_cons_of_neg hneg
    rw [hdrop, Declaration.all_append_of_words (Member.isPlain_front hm).ne
      (Member.words_front hm) (Member.colon_not_mem hm) m.isVoid_words, all_bodyText hms,
      List.map_cons]

/-! ### Reading a body -/

variable {s : Schema} {maxScan : Nat} {options : Expansion.Options}

/-- The source texts of a schema, held in memory. -/
def sources (s : Schema) : Sources :=
  .ofList s.print

/-- What a schema is expanded with: the catalog that scanning its source texts gives, and a reader
of the same texts. -/
def context (s : Schema) (maxScan : Nat) (options : Expansion.Options) : Expansion.Context :=
  ⟨(workspace maxScan s.print).1, s.sources.reader, options⟩

/-- The catalog is fresh for the texts that are read. -/
theorem freshIn_context (s : Schema) (maxScan : Nat) (options : Expansion.Options) :
    (s.context maxScan options).catalog.FreshIn s.sources :=
  freshIn_workspace maxScan s.print

theorem Valid.get?_sources (hs : s.Valid) {file : Path × List Entry} (hfile : file ∈ s) :
    s.sources.get? file.1 = some (printFile file.2) := by
  have hpaths : s.print.Pairwise fun f g => f.1.same g.1 = false := List.pairwise_map.2 hs.paths
  have hprinted : (file.1, printFile file.2) ∈ s.print := List.mem_map_of_mem hfile
  exact Sources.get?_ofList_of_mem hpaths hprinted

/-- The body of a printed struct is found at its brace, unless it reaches the ceiling. -/
theorem bodyIn_eq_or (maxScan : Nat) (root : String) {members : List Member}
    (hmembers : ∀ m ∈ members, IsMember m) (before rest : List Char)
    (hname : Header.nameAt? (before ++ '{' :: (bodyText members ++ '}' :: rest)) (byteSize before) =
      some root.toList) :
    Expansion.bodyIn maxScan root (byteSize before)
        (before ++ '{' :: (bodyText members ++ '}' :: rest)) =
        .error (.scanLimit (byteSize before) maxScan) ∨
      Expansion.bodyIn maxScan root (byteSize before)
        (before ++ '{' :: (bodyText members ++ '}' :: rest)) =
        .ok ((bodyText members).dropWhile isAsciiSpace) := by
  have hflat := isFlat_bodyText hmembers
  rw [Expansion.bodyIn]
  rcases Block.extract_body maxScan before rest hflat with herror | ⟨span, hspan, htext⟩
  · rw [herror]
    exact .inl rfl
  · have hslash : '/' ∉ (bodyText members).dropWhile isAsciiSpace := fun hmem =>
      (hflat '/' ((List.dropWhile_suffix _).subset hmem)).1 rfl
    rw [hspan]
    dsimp only
    rw [if_pos hname, htext, Comment.strip_eq_self hslash]
    exact .inr rfl

/-- The body of a struct is read from the text of its file, unless it reaches the ceiling. -/
theorem Valid.body_eq_or (hs : s.Valid) (hscan : s.ScansWhole maxScan)
    (options : Expansion.Options) {root : String} {d : StructDefinition} {members : List Member}
    {run : Expansion.Run}
    (hget : (s.context maxScan options).catalog.structs.get? root = some d)
    (hstruct : s.HasStruct root members) (hrun : run.Sound s.sources) :
    (∃ issue, (Expansion.body (s.context maxScan options) root d run).1 = .error issue ∧
        issue.isCeiling = true) ∨
      ∃ text, (Expansion.body (s.context maxScan options) root d run).1 = .ok text ∧
        Declaration.all text = members.map Member.words := by
  obtain ⟨file, hfile, es₁, members', aliases, es₂, hsplit, hd⟩ :=
    hs.exists_of_get?_structs hscan hget
  have he : Entry.struct root members' aliases ∈ s.entries :=
    List.mem_flatMap_of_mem hfile (by simp [hsplit])
  obtain rfl := hs.struct_unique hstruct ⟨aliases, he⟩
  have hmembers := hs.isMember_of_hasStruct hstruct
  have hpath : d.path = file.1 := by rw [hd]
  have hoffset : d.offset = byteSize (printFile es₁ ++ Entry.opening root aliases) := by
    rw [hd, byteSize_append]
  have htext : s.sources.get? d.path = some (printFile file.2) := by
    rw [hpath, hs.get?_sources hfile]
  -- The name is read back at the brace because scanning left the catalog fresh.
  obtain ⟨text, hget', hregisters⟩ := s.freshIn_context maxScan options root d hget
  obtain rfl : printFile file.2 = text := Option.some.inj (htext.symm.trans hget')
  have hname := hregisters.nameAt?
  have hprinted := printFile_append_struct es₁ es₂ root members aliases
  rw [← hsplit] at hprinted
  rw [hprinted, hoffset] at hname
  have hbody := bodyIn_eq_or (s.context maxScan options).options.maxScan root hmembers _ _ hname
  rw [← hprinted, ← hoffset] at hbody
  have hread := (hrun.read htext).1
  rw [Expansion.body]
  revert hread
  show (run.read (s.context maxScan options).reader d.path).1 = _ → _
  obtain ⟨answer, read⟩ := run.read (s.context maxScan options).reader d.path
  rintro rfl
  dsimp only
  rcases hbody with herror | hok
  · rw [herror]
    exact .inl ⟨_, rfl, rfl⟩
  · rw [hok]
    exact .inr ⟨_, rfl, all_dropWhile_bodyText hmembers⟩

end StructUnfold.Schema
