import StructUnfold.Proofs.Outline.Alias
import StructUnfold.Proofs.Source.Block
import StructUnfold.Proofs.Source.Declarator
import StructUnfold.Proofs.Source.HeaderWalk

/-!
# Passing over the parts of an outline

The searches for comments, for braces that match and for alias statements pass over bodies, as they
pass over all that bodies are put together from. The search for headers stops at the openings and
nowhere else.

* `Body.Proper.text_induction`: what holds of the text of a body.
* `Body.Proper.isCode`, `Body.Proper.isBalanced`, `Body.Proper.inert`: what passes over bodies.
* `Body.Proper.walk_text`, `Item.Proper.walk_text`, `Proper.all_text`: the headers that are found.
* `Item.Proper.map_body_ofTextFrom`, `Proper.map_body_all_text`: the alias statements.
-/

namespace StructUnfold

namespace Outline

open Text AliasStatement

/-! ### Where no statement begins -/

theorem isIdentChar_eq_false_of_isSpace {c : Char} (h : isSpace c = true) :
    isIdentChar c = false := by
  rw [← Bool.not_eq_true]
  intro hc
  rw [isSpace_eq_false_of_isIdentChar hc] at h
  cases h

theorem IsSpaces.inert {s : List Char} (h : IsSpaces s) : Inert s :=
  inert_of_forall fun c hc => isIdentChar_eq_false_of_isSpace (h c hc)

theorem IsBlanks.inert {s : List Char} (h : IsBlanks s) : Inert s :=
  h.spaces.inert

/-- A word before white space ends there. -/
theorem IsSpaces.parted {s t : List Char} (h : IsSpaces s) (ht : ∀ rest, Parted (t ++ rest))
    (rest : List Char) : Parted (s ++ t ++ rest) := by
  cases s with
  | nil => exact ht rest
  | cons c s => exact parted_cons (isIdentChar_eq_false_of_isSpace (h c List.mem_cons_self)) _

/-- A word that does not stand by itself behind one character does not behind another. -/
theorem lacksWord_of_none {word : List Char} {previous : Option Char} {t : List Char}
    (h : lacksWord word none t = true) : lacksWord word previous t = true := by
  cases t with
  | nil => rfl
  | cons c t =>
    rw [lacksWord, Bool.and_eq_true] at h ⊢
    refine ⟨?_, h.2⟩
    have hnone : (after? word (c :: t)).any (fun rest => isEdge rest.head?) = false := by
      simpa [isEdge] using h.1
    rw [hnone, Bool.and_false, Bool.not_false]

/-- No statement begins in a declaration that a character ends which belongs to no identifier. -/
theorem inert_of_lacksWord {t : List Char} (h : lacksWord "typedef".toList none t = true)
    {stop : Char} (hstop : isIdentChar stop = false) : Inert (t ++ [stop]) := by
  intro previous
  -- The search is followed character by character, as the word is looked for.
  replace h : lacksWord "typedef".toList previous t = true := lacksWord_of_none h
  induction t generalizing previous with
  | nil => exact inert_of_not_isIdentChar hstop previous
  | cons c t ih =>
    intro pos rest
    rw [lacksWord, Bool.and_eq_true] at h
    have hnone : (if previous.any isWordChar then none else
        startOf? (c :: (t ++ [stop] ++ rest))) = none := by
      split
      · rfl
      · rename_i hword
        have hedge : isEdge previous = true := by
          cases previous with
          | none => rfl
          | some p =>
            rw [isEdge, Bool.not_eq_true']
            exact eq_false_of_ne_true fun hp => hword (isWordChar_of_isIdentChar hp)
        have htypedef : IsIdent "typedef".toList := by decide
        have hparted : Parted ([stop] ++ rest) := parted_cons hstop rest
        rw [startOf?]
        cases hafter : after? "typedef".toList (c :: (t ++ [stop] ++ rest)) with
        | none => rfl
        | some r =>
          rw [List.append_assoc, ← List.cons_append] at hafter
          obtain ⟨t', htext, rfl⟩ := exists_of_append_eq_append htypedef.chars hparted
            (after?_eq_some_iff.1 hafter)
          -- The word stands there, so it goes on with a character that is no blank.
          have hlacks : isEdge t'.head? = false := by
            have hword := h.1
            rw [hedge, htext, after?_append] at hword
            simpa using hword
          cases t' with
          | nil => cases hlacks
          | cons d t' =>
            have hd : isIdentChar d = true := by simpa [isEdge] using hlacks
            have hblank := isBlank_eq_false_of_isIdentChar hd
            dsimp only
            rw [List.cons_append, List.dropWhile_cons_of_neg (by simp [hblank]),
              if_neg (Nat.lt_irrefl _)]
    rw [List.cons_append, List.cons_append, ofTextFrom_cons_of_eq_none hnone, ih _ h.2,
      byteSize_cons, getLast?_cons_or, Nat.add_assoc]

/-! ### Names and openings -/

/-- A name does not begin a statement. -/
theorem IsName.inert_append {name : String} (h : IsName name) {s : List Char} (hs : Inert s)
    (hparted : ∀ rest, Parted (s ++ rest)) : Inert (name.toList ++ s) :=
  hs.word_append h.isIdent
    (fun heq => h.ne (by decide : "typedef" ∈ Schema.keywords) (String.toList_inj.1 heq)) hparted

/-- A word before a gap does not begin a statement. -/
theorem IsGap.inert {w gap : List Char} (hgap : IsGap gap) (hw : IsIdent w)
    (hne : w ≠ "typedef".toList) : Inert (w ++ gap) :=
  hgap.blanks.inert.word_append hw hne hgap.parted

theorem IsBlanks.parted {s t : List Char} (h : IsBlanks s) (ht : ∀ rest, Parted (t ++ rest))
    (rest : List Char) : Parted (s ++ t ++ rest) :=
  h.spaces.parted ht rest

/-- No statement begins in a base. -/
theorem Base.Proper.inert_text {b : Base} (h : b.Proper) {s : List Char} (hs : Inert s)
    (hparted : ∀ rest, Parted (s ++ rest)) : Inert (b.text ++ s) := by
  have hname := h.name.inert_append hs hparted
  have hwritten : Inert ((b.access.elim [] fun a => a.1.toList ++ a.2) ++
      (b.name.toList ++ s)) := by
    cases haccess : b.access with
    | none => exact hname
    | some a =>
      obtain ⟨hword, hgap⟩ := h.access a (Option.mem_def.2 haccess)
      refine (hgap.inert (isIdent_of_mem_accessWords hword) ?_).append hname
      rw [accessWords] at hword
      simp only [List.mem_cons, List.not_mem_nil, or_false] at hword
      rcases hword with heq | heq | heq <;> rw [heq] <;> decide
  have hcolon : Inert [':'] := inert_of_not_isIdentChar (by decide)
  have hall := h.before.inert.append (hcolon.append (h.behind.inert.append hwritten))
  rw [Base.text]
  simpa using hall

namespace Opening

variable {o : Opening}

/-- What stands before the keyword `struct` is inert. -/
theorem Proper.inert_qualifierText (h : o.Proper) : Inert o.qualifierText := by
  have hall : ∀ qs : List (String × List Char), (∀ q ∈ qs, q ∈ o.qualifiers) →
      Inert (qs.flatMap fun q => q.1.toList ++ q.2) := by
    intro qs
    induction qs with
    | nil => exact fun _ => inert_nil
    | cons q qs ih =>
      intro hqs
      obtain ⟨hq, hqs⟩ := List.forall_mem_cons.1 hqs
      obtain ⟨hident, -, hne, hgap⟩ := h.qualifiers q hq
      rw [List.flatMap_cons]
      exact (hgap.inert (isIdent_of_isIdentifier hident) fun heq =>
        hne (String.toList_inj.1 heq)).append (ih hqs)
  exact hall o.qualifiers fun _ hq => hq

/-- What stands behind the keyword `struct` up to the brace is inert. -/
theorem Proper.inert_struct (h : o.Proper) :
    Inert ("struct".toList ++ (o.nameText ++ ['{'])) := by
  have hbrace : Inert ['{'] := inert_of_not_isIdentChar (by decide)
  have hend : Inert (o.behind ++ ['{']) := h.behind.inert.append hbrace
  have hparted : ∀ rest, Parted (o.behind ++ ['{'] ++ rest) :=
    h.behind.parted fun rest => parted_cons (by decide) rest
  have hname : Inert (o.name.toList ++ (o.base.elim [] Base.text ++ (o.behind ++ ['{']))) := by
    refine h.name.inert_append ?_ ?_
    · cases hbase : o.base with
      | none => exact hend
      | some b => exact (h.base b (Option.mem_def.2 hbase)).inert_text hend hparted
    · cases hbase : o.base with
      | none => exact hparted
      | some b =>
        intro rest
        have hcolon := (h.base b (Option.mem_def.2 hbase)).before.parted
          (t := ':' :: (b.behind ++ b.written ++ (o.behind ++ ['{'])))
          (fun rest => parted_cons (by decide) _) rest
        rw [Option.elim_some, Base.text_eq]
        simpa using hcolon
  have hstruct := (h.gap.inert (w := "struct".toList) (by decide) (by decide)).append hname
  have htext : ∀ struct : List Char, struct ++ (o.nameText ++ ['{']) = struct ++ o.gap ++
      (o.name.toList ++ (o.base.elim [] Base.text ++ (o.behind ++ ['{']))) := by
    simp [nameText]
  rwa [htext]

/-- An opening that begins with `typedef` runs into its brace. -/
theorem Proper.bodyFromKeyword?_eq_none (h : o.Proper) (rest : List Char) :
    bodyFromKeyword? (o.qualifierText ++ ("struct".toList ++ (o.nameText ++ '{' :: rest))) =
      none := by
  rw [qualifierText]
  cases hqs : o.qualifiers with
  | nil =>
    -- Up to the brace every character can stand in the body of a statement.
    have hbody : ∀ c ∈ o.nameText, isBodyChar c = true := by
      intro c hc
      have hmem : c ∈ o.text := by
        rw [text_eq]
        exact List.mem_append_right _ (List.mem_append_right _
          (List.mem_append_right _ (List.mem_append_right _ hc)))
      have hne : ∀ d, isBlank d = false → isIdentChar d = false → d ≠ ':' → c ≠ d :=
        fun d hblank hident hcolon heq => h.not_mem hblank hident hcolon (heq ▸ hmem)
      simp [isBodyChar, hne '{' (by decide) (by decide) (by decide),
        hne '}' (by decide) (by decide) (by decide), hne ';' (by decide) (by decide) (by decide),
        hne '\n' (by decide) (by decide) (by decide)]
    have hhead : o.nameText.head?.any isWordChar = false := by
      obtain ⟨c, cs, hgap, hc, -⟩ := h.gap.exists_cons
      rw [nameText, hgap]
      exact isWordChar_eq_false_of_isBlank hc
    exact bodyFromKeyword?_append hbody hhead (by decide) (by decide) rest
  -- A qualifier stands where `struct` would have to.
  | cons q qs =>
    obtain ⟨hident, hne, -, hgap⟩ := h.qualifiers q (by simp [hqs])
    rw [List.flatMap_cons, List.append_assoc, List.append_assoc]
    exact AliasStatement.bodyFromKeyword?_eq_none (isIdent_of_isIdentifier hident)
      (fun heq => hne (String.toList_inj.1 heq)) (hgap.parted _)

/-- Behind `typedef` and its blanks an opening goes on with a word. -/
theorem Proper.exists_cons_qualifierText (h : o.Proper) (rest : List Char) :
    ∃ c cs, o.qualifierText ++ ("struct".toList ++ (o.nameText ++ '{' :: rest)) = c :: cs ∧
      isIdentChar c = true := by
  rw [qualifierText]
  cases hqs : o.qualifiers with
  | nil =>
    have hstruct : IsIdent "struct".toList := by decide
    exact hstruct.exists_cons_append _
  | cons q qs =>
    obtain ⟨hident, -⟩ := h.qualifiers q (by simp [hqs])
    rw [List.flatMap_cons, List.append_assoc, List.append_assoc]
    exact (isIdent_of_isIdentifier hident).exists_cons_append _

/-- No statement begins in an opening, for a brace comes before a semicolon. -/
theorem Proper.inert_text (h : o.Proper) : Inert (o.text ++ ['{']) := by
  have hback := h.inert_qualifierText.append h.inert_struct
  have htypedef : Inert (o.typedefText ++
      (o.qualifierText ++ ("struct".toList ++ (o.nameText ++ ['{'])))) := by
    rw [typedefText]
    cases hgap : o.typedef with
    | none => exact hback
    | some gap =>
      have hblanks := h.typedef gap (Option.mem_def.2 hgap)
      rw [Option.elim_some, List.append_assoc]
      refine (hblanks.blanks.inert.append hback).ident_append (by decide) fun rest => ?_
      have hnone := h.bodyFromKeyword?_eq_none rest
      obtain ⟨c, cs, htext, hc⟩ := h.exists_cons_qualifierText rest
      refine startOf?_keyword_eq_none ?_
      rw [List.append_assoc, List.append_assoc, List.append_assoc, List.append_assoc,
        List.singleton_append, hblanks.blanks.dropWhile_append, htext, List.dropWhile_cons_of_neg
          (by simp [isBlank_eq_false_of_isIdentChar hc]), ← htext, hnone]
  have hall := h.indent.inert.append htypedef
  rw [text_eq]
  simpa using hall

/-- No brace that is closed and no comment stands in an opening. -/
theorem Proper.isCode_text (h : o.Proper) : Comment.IsCode o.text :=
  Comment.isCode_of_not_mem (h.not_mem (by decide) (by decide) (by decide))

end Opening

/-! ### Aliases -/

/-- No statement begins in the marks before a name. -/
theorem inert_marks {marks : List (Mark × List Char)} (hspaces : ∀ m ∈ marks, IsSpaces m.2)
    (hparted : marksParted marks = true) {s : List Char} (hs : Inert s) :
    Inert ((marks.flatMap fun m => m.1.text ++ m.2) ++ s) := by
  induction marks with
  | nil => exact hs
  | cons m marks ih =>
    obtain ⟨mark, space⟩ := m
    obtain ⟨hspace, hspaces⟩ := List.forall_mem_cons.1 hspaces
    have hrest := hspace.inert.append (ih hspaces (Bool.and_eq_true_iff.1 hparted).2)
    -- White space or a star ends each word.
    have hword : ∀ w : List Char, IsIdent w → w ≠ "typedef".toList → mark ≠ .star →
        Inert (w ++ (space ++ ((marks.flatMap fun m => m.1.text ++ m.2) ++ s))) := by
      intro w hw hne hmark
      refine hrest.word_append hw hne fun rest => ?_
      obtain ⟨c, t, htext, hc⟩ := exists_cons_of_marksParted hmark hspace hparted s
      rw [htext]
      refine parted_cons ?_ _
      rcases hc with hc | rfl
      · exact isIdentChar_eq_false_of_isSpace hc
      · rfl
    rw [List.flatMap_cons, List.append_assoc, List.append_assoc]
    cases mark with
    | star => exact (inert_of_not_isIdentChar (by decide)).append hrest
    | const => exact hword "const".toList (by decide) (by decide) (by decide)
    | volatile => exact hword "volatile".toList (by decide) (by decide) (by decide)

/-- No statement begins in an alias and the character that ends it. -/
theorem AliasText.Proper.inert_text {a : AliasText} (h : a.Proper) {stop : Char}
    (hstop : isIdentChar stop = false) : Inert (a.text ++ [stop]) := by
  have hend : Inert (a.behind ++ [stop]) := h.behind.inert.append (inert_of_not_isIdentChar hstop)
  have hname := h.name.inert_append hend (h.behind.parted fun rest => parted_cons hstop rest)
  have hall := h.before.inert.append (inert_marks h.marks h.parted hname)
  rw [text]
  simpa using hall

/-- No statement begins in a list of aliases and the semicolon that ends it. -/
theorem AliasList.Proper.inert_text {as : AliasList} (h : as.Proper) :
    Inert (as.text ++ [';']) := by
  have hlist : ∀ list : List AliasText, (∀ a ∈ list, a.Proper) →
      Inert (List.intercalate [','] (list.map AliasText.text) ++ [';']) := by
    intro list
    induction list with
    | nil => exact fun _ => inert_of_not_isIdentChar (by decide)
    | cons a list ih =>
      intro hlist
      obtain ⟨ha, hrest⟩ := List.forall_mem_cons.1 hlist
      cases list with
      | nil =>
        rw [List.map_cons, List.map_nil, List.intercalate_singleton]
        exact ha.inert_text (by decide)
      | cons b list =>
        have hone : Inert (a.text ++ [',']) := ha.inert_text (by decide)
        have hall := hone.append (ih hrest)
        rw [List.map_cons, List.map_cons, List.intercalate_cons_cons, List.append_assoc]
        rwa [List.map_cons] at hall
  rw [text, List.append_assoc]
  exact h.space.inert.append (hlist as.list h.list)

/-! ### Bodies -/

/-- What holds of white space, of declarations and of what stands in braces behind an opening, and
of texts that are put together from such, holds of the text of a body. -/
theorem Body.Proper.text_induction {p : List Char → Prop}
    (happend : ∀ {s t}, p s → p t → p (s ++ t)) (hspaces : ∀ {s}, IsSpaces s → p s)
    (hdeclaration : ∀ {t}, IsDeclaration t → p (t ++ [';']))
    (hbraced : ∀ {opening : Opening} {s}, opening.Proper → p s →
      p (opening.text ++ '{' :: (s ++ ['}'])))
    {body : Body} (h : body.Proper) : p body.text := by
  induction h with
  | done hspace => exact hspaces hspace
  | @plain t rest ht _ ih =>
    have hall := happend (hdeclaration ht) ih
    rwa [List.append_assoc] at hall
  | @nested space opening inner declarator rest hspace _ hopening _ _ hdeclarator _ hinner hrest =>
    have hall := happend (hspaces hspace.spaces)
      (happend (hbraced hopening hinner) (happend (hdeclaration hdeclarator) hrest))
    have htext : space ++ (opening.text ++ '{' :: (inner.text ++ ['}']) ++
        (declarator ++ [';'] ++ rest.text)) =
          (Body.nested space opening inner declarator rest).text := by
      simp [Body.text]
    rwa [htext] at hall

theorem IsSpaces.isCode {s : List Char} (h : IsSpaces s) : Comment.IsCode s :=
  Comment.isCode_of_not_mem (h.not_mem (by decide))

theorem IsSpaces.isBalanced {s : List Char} (h : IsSpaces s) : Block.IsBalanced s :=
  Block.isBalanced_of_not_mem (h.not_mem (by decide)) (h.not_mem (by decide))

/-- There is no comment in a body. -/
theorem Body.Proper.isCode {body : Body} (h : body.Proper) : Comment.IsCode body.text := by
  have hbrace : ∀ c, c ≠ '/' → Comment.IsCode [c] := fun c hc =>
    Comment.isCode_of_not_mem (by simpa using Ne.symm hc)
  refine text_induction .append IsSpaces.isCode
    (fun ht => Comment.isCode_concat ht.no_comment (by decide) (by decide)) ?_ h
  intro opening s hopening hs
  exact hopening.isCode_text.append ((hbrace '{' (by decide)).append
    (hs.append (hbrace '}' (by decide))))

/-- The braces of a body come in pairs. -/
theorem Body.Proper.isBalanced {body : Body} (h : body.Proper) : Block.IsBalanced body.text := by
  refine text_induction .append IsSpaces.isBalanced (fun {t} ht => ?_) ?_ h
  · exact Block.isBalanced_of_not_mem (by simpa using ht.no_open) (by simpa using ht.no_close)
  · intro opening s hopening hs
    have hhead : Block.IsBalanced opening.text := Block.isBalanced_of_not_mem
      (hopening.not_mem (by decide) (by decide) (by decide))
      (hopening.not_mem (by decide) (by decide) (by decide))
    exact hhead.append hs.braced

/-- No statement begins in a body. -/
theorem Body.Proper.inert {body : Body} (h : body.Proper) : Inert body.text := by
  refine text_induction .append IsSpaces.inert
    (fun ht => inert_of_lacksWord ht.no_typedef (by decide)) ?_ h
  intro opening s hopening hs
  have hclose : Inert ['}'] := inert_of_not_isIdentChar (by decide)
  have hall := hopening.inert_text.append (hs.append hclose)
  rwa [List.append_assoc] at hall

/-- White space that ends a line leaves nothing on the present one. -/
theorem EndsLine.foldl_nextLine {s : List Char} (h : EndsLine s) (hne : s ≠ [])
    (line : Option (List Char)) : s.foldl Header.nextLine line = some [] := by
  obtain ⟨c, hc⟩ := Option.isSome_iff_exists.1 (List.getLast?_isSome.2 hne)
  obtain rfl := h.ends c hc
  exact Header.foldl_nextLine_of_getLast? hc line

/-- The headers of a body are its openings. -/
theorem Body.Proper.walk_text {body : Body} (h : body.Proper) (line : Option (List Char))
    (pos : Nat) :
    Header.walk line pos body.text =
      (body.openings pos).map fun found => (found.1, found.2.header) := by
  -- By induction on the body: what stands around its openings holds no brace that is opened.
  induction h generalizing line pos with
  | done hspace => exact Header.walk_of_not_mem (hspace.not_mem (by decide)) line pos
  | @plain t rest ht _ ih =>
    have hnone : '{' ∉ t ++ [';'] := by simpa using ht.no_open
    have htext : (Body.plain t rest).text = t ++ [';'] ++ rest.text := by simp [Body.text]
    have hsize : byteSize (t ++ [';']) = byteSize t + 1 := byteSize_append t [';']
    rw [htext, Header.walk_append, Header.walk_of_not_mem hnone, List.nil_append, ih, hsize,
      openings, Nat.add_assoc]
  | @nested space opening inner declarator rest hspace hne hopening _ _ hdeclarator _ hinner
      hrest =>
    have hnone : '{' ∉ '}' :: (declarator ++ [';']) := by simpa using hdeclarator.no_open
    have htext : (Body.nested space opening inner declarator rest).text =
        space ++ (opening.text ++ '{' :: (inner.text ++
          ('}' :: (declarator ++ [';']) ++ rest.text))) := by
      simp [Body.text]
    have hsize : byteSize ('}' :: (declarator ++ [';'])) = 1 + byteSize declarator + 1 := by
      rw [byteSize_cons, byteSize_append, ← Nat.add_assoc]
      rfl
    rw [htext, Header.walk_append, Header.walk_of_not_mem (hspace.spaces.not_mem (by decide)),
      List.nil_append, hspace.foldl_nextLine hne, Header.walk_head hopening.isHead_text,
      hopening.parse?_text, Header.walk_append, hinner, Header.walk_append,
      Header.walk_of_not_mem hnone, List.nil_append, hrest, hsize, openings, List.map_cons,
      List.map_append]
    simp only [Option.map_some, Option.toList_some, List.singleton_append, Nat.add_assoc]

/-! ### Items -/

namespace Item

/-- What stands between `struct` and the semicolon of the statement that an item is. -/
def statement? : Item → Option (List Char)
  | definition _ _ _ => none
  | statement _ _ space target aliases => some (statementText space target aliases)

theorem text_definition (opening : Opening) (body : Body) (aliases : AliasList) :
    (definition opening body aliases).text =
      opening.text ++ '{' :: (body.text ++ '}' :: (aliases.text ++ [';'])) := rfl

theorem text_statement (indent gap space : List Char) (target : String) (aliases : AliasList) :
    (statement indent gap space target aliases).text =
      indent ++ ofParts gap (statementText space target aliases) := rfl

section

variable {space : List Char} {target : String} {aliases : AliasList}

/-- Characters that do not occur between `struct` and the semicolon. -/
theorem not_mem_statementText (hspace : IsSpaces space) (htarget : IsName target)
    (haliases : aliases.Proper) {c : Char} (hwhite : isSpace c = false)
    (hident : isIdentChar c = false) (hstar : c ≠ '*') (hcomma : c ≠ ',') :
    c ∉ statementText space target aliases := by
  rw [statementText, List.mem_append, List.mem_append, not_or, not_or]
  exact ⟨hspace.not_mem hwhite, htarget.isIdent.not_mem hident,
    haliases.not_mem hwhite hident hstar hcomma⟩

/-- What stands between `struct` and the semicolon may stand there. -/
theorem isBodyChar_of_mem (hspace : IsSpaces space) (htarget : IsName target)
    (haliases : aliases.Proper) (hline : '\n' ∉ statementText space target aliases) {c : Char}
    (hc : c ∈ statementText space target aliases) : isBodyChar c = true := by
  have hfeed : c ≠ '\n' := fun heq => hline (heq ▸ hc)
  have hne : ∀ d, isSpace d = false → isIdentChar d = false → d ≠ '*' → d ≠ ',' → c ≠ d :=
    fun d hwhite hident hstar hcomma heq =>
      not_mem_statementText hspace htarget haliases hwhite hident hstar hcomma (heq ▸ hc)
  simp [isBodyChar, hfeed, hne '{' (by decide) (by decide) (by decide) (by decide),
    hne '}' (by decide) (by decide) (by decide) (by decide),
    hne ';' (by decide) (by decide) (by decide) (by decide)]

/-- Characters that do not occur in a statement. -/
theorem not_mem_statement {indent gap : List Char} (hindent : IsBlanks indent) (hgap : IsGap gap)
    (hspace : IsSpaces space) (htarget : IsName target) (haliases : aliases.Proper) {c : Char}
    (hwhite : isSpace c = false) (hident : isIdentChar c = false) (hstar : c ≠ '*')
    (hcomma : c ≠ ',') (hsemicolon : c ≠ ';') :
    c ∉ (statement indent gap space target aliases).text := by
  rw [text_statement, List.mem_append, not_or]
  exact ⟨hindent.spaces.not_mem hwhite, not_mem_ofParts (hgap.blanks.spaces.not_mem hwhite)
    (not_mem_statementText hspace htarget haliases hwhite hident hstar hcomma) hident hsemicolon⟩

end

namespace Proper

variable {i : Item}

/-- There is no comment in an item. -/
theorem isCode (h : i.Proper) : Comment.IsCode i.text := by
  have hone : ∀ c, c ≠ '/' → Comment.IsCode [c] := fun c hc =>
    Comment.isCode_of_not_mem (by simpa using Ne.symm hc)
  have haliases : ∀ {as : AliasList}, as.Proper → Comment.IsCode as.text := fun has =>
    Comment.isCode_of_not_mem (has.not_mem (by decide) (by decide) (by decide) (by decide))
  cases h with
  | definition hopening hbody has _ =>
    rw [text_definition]
    exact hopening.isCode_text.append ((hone '{' (by decide)).append (hbody.isCode.append
      ((hone '}' (by decide)).append ((haliases has).append (hone ';' (by decide))))))
  | statement hindent hgap hspace _ htarget has _ _ _ =>
    exact Comment.isCode_of_not_mem (not_mem_statement hindent hgap hspace htarget has (by decide)
      (by decide) (by decide) (by decide) (by decide))

/-- The headers of an item are its openings. -/
theorem walk_text (h : i.Proper) (pos : Nat) :
    Header.walk (some []) pos i.text =
      (i.openings pos).map fun found => (found.1, found.2.header) := by
  cases h with
  | @definition opening body aliases hopening hbody has _ =>
    have hnone : '{' ∉ '}' :: (aliases.text ++ [';']) := by
      have hopen := has.not_mem (c := '{') (by decide) (by decide) (by decide) (by decide)
      simpa using hopen
    rw [text_definition, Header.walk_head hopening.isHead_text, hopening.parse?_text,
      Header.walk_append, hbody.walk_text, Header.walk_of_not_mem hnone, List.append_nil, openings,
      List.map_cons]
    rfl
  | statement hindent hgap hspace _ htarget has _ _ _ =>
    exact Header.walk_of_not_mem (not_mem_statement hindent hgap hspace htarget has (by decide)
      (by decide) (by decide) (by decide) (by decide)) _ _

/-- No statement begins in a definition. -/
theorem inert_definition {opening : Opening} {body : Body} {aliases : AliasList}
    (hopening : opening.Proper) (hbody : body.Proper) (haliases : aliases.Proper) :
    Inert (Item.definition opening body aliases).text := by
  have hclose : Inert ['}'] := inert_of_not_isIdentChar (by decide)
  have hall := hopening.inert_text.append (hbody.inert.append
    (hclose.append haliases.inert_text))
  rw [text_definition]
  rwa [List.append_assoc] at hall

/-- What the search for statements finds in an item; it goes on behind the semicolon. -/
theorem map_body_ofTextFrom (h : i.Proper) {previous : Option Char}
    (hprevious : previous.any isWordChar = false) (pos : Nat) (rest : List Char) :
    (ofTextFrom previous 0 pos (i.text ++ rest)).map AliasStatement.body =
      i.statement?.toList ++
        (ofTextFrom (some ';') 0 (pos + byteSize i.text) rest).map AliasStatement.body := by
  cases h with
  | @definition opening body aliases hopening hbody has _ =>
    -- The statement is passed over as a whole, and its last character is a semicolon.
    have hlast : (Item.definition opening body aliases).text.getLast? = some ';' := by
      have htext : (Item.definition opening body aliases).text =
          opening.text ++ '{' :: (body.text ++ '}' :: aliases.text) ++ [';'] := by
        simp [text_definition]
      rw [htext, List.getLast?_concat]
    rw [inert_definition hopening hbody has, hlast, Option.some_or]
    rfl
  | @statement indent gap space target aliases hindent hgap hspace hne htarget has _ _ hline =>
    -- The keyword is no end of a longer word, for a blank stands before it or nothing does.
    have hindented : (indent.getLast?.or previous).any isWordChar = false := by
      cases hlast : indent.getLast? with
      | none => exact hprevious
      | some c =>
        exact isWordChar_eq_false_of_isBlank (hindent c (List.mem_of_getLast? hlast))
    have hhead : (statementText space target aliases).head?.any isWordChar = false := by
      obtain ⟨c, cs, rfl⟩ := List.exists_cons_of_ne_nil hne
      exact isWordChar_eq_false_of_isSpace (hspace c List.mem_cons_self)
    rw [text_statement, List.append_assoc, hindent.inert, ofTextFrom_ofParts hindented hgap.ne_nil
      hgap.blanks (fun _ => isBodyChar_of_mem hspace htarget has hline) hhead, byteSize_append,
      Nat.add_assoc]
    rfl

end Proper

end Item

/-! ### Outlines -/

@[simp] theorem itemsText_nil : itemsText [] = [] := rfl

theorem itemsText_cons (i : List Char × Item) (items : List (List Char × Item)) :
    itemsText (i :: items) = i.1 ++ (i.2.text ++ itemsText items) := by
  rw [itemsText, List.flatMap_cons, List.append_assoc]
  rfl

/-- There is no comment in items. -/
theorem isCode_itemsText {items : List (List Char × Item)} (hspaces : ∀ i ∈ items, EndsLine i.1)
    (hitems : ∀ i ∈ items, i.2.Proper) : Comment.IsCode (itemsText items) := by
  induction items with
  | nil => exact Comment.isCode_nil
  | cons i items ih =>
    obtain ⟨hspace, hspaces⟩ := List.forall_mem_cons.1 hspaces
    obtain ⟨hi, hitems⟩ := List.forall_mem_cons.1 hitems
    rw [itemsText_cons]
    exact hspace.spaces.isCode.append (hi.isCode.append (ih hspaces hitems))

/-- The headers of items that each begin a line are their openings. -/
theorem walk_itemsText {items : List (List Char × Item)} (hspaces : ∀ i ∈ items, EndsLine i.1)
    (hparted : ∀ i ∈ items.tail, i.1 ≠ []) (hitems : ∀ i ∈ items, i.2.Proper)
    {line : Option (List Char)} (hline : ∀ i ∈ items.head?, i.1 = [] → line = some [])
    (pos : Nat) :
    Header.walk line pos (itemsText items) =
      (openingsFrom pos items).map fun found => (found.1, found.2.header) := by
  induction items generalizing line pos with
  | nil => rfl
  | cons i items ih =>
    obtain ⟨hspace, hspaces⟩ := List.forall_mem_cons.1 hspaces
    obtain ⟨hi, hitems⟩ := List.forall_mem_cons.1 hitems
    have hstart : i.1.foldl Header.nextLine line = some [] := by
      by_cases hnil : i.1 = []
      · rw [hnil]
        exact hline i rfl hnil
      · exact hspace.foldl_nextLine hnil line
    have hrest : ∀ line pos, Header.walk line pos (itemsText items) =
        (openingsFrom pos items).map fun found => (found.1, found.2.header) := fun line =>
      ih hspaces (fun j hj => hparted j (List.mem_of_mem_tail hj)) hitems
        (fun j hj hnil => absurd hnil (hparted j (List.mem_of_head? hj)))
    rw [itemsText_cons, Header.walk_append, Header.walk_of_not_mem
      (hspace.spaces.not_mem (by decide)), List.nil_append, hstart, Header.walk_append,
      hi.walk_text, hrest, openingsFrom, List.map_append]

/-- The statements in items are found. -/
theorem map_body_ofTextFrom_itemsText {items : List (List Char × Item)}
    (hspaces : ∀ i ∈ items, EndsLine i.1) (hitems : ∀ i ∈ items, i.2.Proper)
    {behind : List Char} (hbehind : IsSpaces behind) {previous : Option Char}
    (hprevious : previous.any isWordChar = false) (pos : Nat) :
    (ofTextFrom previous 0 pos (itemsText items ++ behind)).map AliasStatement.body =
      items.filterMap fun i => i.2.statement? := by
  induction items generalizing previous pos with
  | nil =>
    have hnone := hbehind.inert previous pos []
    rw [List.append_nil] at hnone
    rw [itemsText_nil, List.nil_append, hnone]
    rfl
  | cons i items ih =>
    obtain ⟨hspace, hspaces⟩ := List.forall_mem_cons.1 hspaces
    obtain ⟨hi, hitems⟩ := List.forall_mem_cons.1 hitems
    have hstart : (i.1.getLast?.or previous).any isWordChar = false := by
      cases hlast : i.1.getLast? with
      | none => exact hprevious
      | some c =>
        exact isWordChar_eq_false_of_isSpace (hspace.spaces c (List.mem_of_getLast? hlast))
    rw [itemsText_cons, List.append_assoc, List.append_assoc, hspace.spaces.inert,
      hi.map_body_ofTextFrom hstart, ih hspaces hitems (by decide)]
    cases h : i.2.statement? with
    | none => simp [h]
    | some body => simp [h]

variable {o : Outline}

/-- There is no comment in an outline. -/
theorem Proper.spans_text (h : o.Proper) : Comment.spans o.text = [] :=
  ((isCode_itemsText h.spaces h.items).append h.behind.isCode).spans_eq_nil

/-- The headers of an outline are its openings. -/
theorem Proper.all_text (h : o.Proper) :
    Header.all o.text = (openingsFrom 0 o.items).map fun found => (found.1, found.2.header) := by
  rw [Header.all_eq_walk, text, Header.walk_append, Header.walk_of_not_mem
    (h.behind.not_mem (by decide)), List.append_nil]
  exact walk_itemsText h.spaces h.parted h.items (fun _ _ _ => rfl) 0

/-- The alias statements of an outline are those among its items. -/
theorem Proper.map_body_all_text (h : o.Proper) :
    (AliasStatement.all o.text).map AliasStatement.body =
      o.items.filterMap fun i => i.2.statement? :=
  map_body_ofTextFrom_itemsText h.spaces h.items h.behind rfl 0

end Outline

end StructUnfold
