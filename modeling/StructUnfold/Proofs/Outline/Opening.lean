import StructUnfold.Proofs.Outline.Basic
import StructUnfold.Proofs.Text.Search

/-!
# Reading openings

The words before the keyword `struct` are passed over one by one. Behind it stand a name and a base,
which are told apart by the colon. What blanks stand between all these makes no difference.

* `Opening.Proper.chars`: the characters of an opening.
* `Opening.Proper.parse?_text`: an opening is parsed back.
* `Opening.Proper.declared_header`: what it declares.
-/

namespace StructUnfold.Outline

open Text Header

/-! ### Blanks and words -/

theorem isSpace_of_isBlank {c : Char} (h : isBlank c = true) : isSpace c = true := by
  simp only [isBlank, Bool.or_eq_true, beq_iff_eq] at h
  rcases h with rfl | rfl <;> rfl

theorem isIdentChar_eq_false_of_isBlank {c : Char} (h : isBlank c = true) :
    isIdentChar c = false := by
  simp only [isBlank, Bool.or_eq_true, beq_iff_eq] at h
  rcases h with rfl | rfl <;> rfl

theorem isWordChar_eq_false_of_isBlank {c : Char} (h : isBlank c = true) :
    isWordChar c = false := by
  simp only [isBlank, Bool.or_eq_true, beq_iff_eq] at h
  rcases h with rfl | rfl <;> decide

theorem IsBlanks.spaces {s : List Char} (h : IsBlanks s) : IsSpaces s :=
  fun c hc => isSpace_of_isBlank (h c hc)

/-- A gap begins with a blank. -/
theorem IsGap.exists_cons {s : List Char} (h : IsGap s) :
    ∃ c cs, s = c :: cs ∧ isBlank c = true ∧ IsBlanks cs := by
  obtain ⟨c, cs, rfl⟩ := List.exists_cons_of_ne_nil h.ne_nil
  obtain ⟨hc, hcs⟩ := List.forall_mem_cons.1 h.blanks
  exact ⟨c, cs, rfl, hc, hcs⟩

/-- A word before a gap ends there. -/
theorem IsGap.parted {s : List Char} (h : IsGap s) (rest : List Char) : Parted (s ++ rest) := by
  obtain ⟨c, cs, rfl, hc, -⟩ := h.exists_cons
  exact parted_cons (isIdentChar_eq_false_of_isBlank hc) _

theorem IsBlanks.dropWhile_append {s : List Char} (h : IsBlanks s) (rest : List Char) :
    (s ++ rest).dropWhile isBlank = rest.dropWhile isBlank :=
  List.dropWhile_append_of_pos h

/-- A word that is found at the start of another one goes on behind it, unless they are the same. -/
theorem eq_or_exists_of_after? {word w s rest : List Char} (hword : IsIdent word)
    (hs : Parted s) (h : after? word (w ++ s) = some rest) :
    (w = word ∧ rest = s) ∨ ∃ c t, w = word ++ c :: t ∧ rest = c :: (t ++ s) := by
  obtain ⟨t, hw, hrest⟩ :=
    exists_of_append_eq_append hword.chars hs (after?_eq_some_iff.1 h)
  cases t with
  | nil => exact .inl ⟨by simpa using hw, hrest⟩
  | cons c t => exact .inr ⟨c, t, hw, hrest⟩

theorem fromWords?_blanks {s : List Char} (h : IsBlanks s) (rest : List Char) :
    fromWords? false (s ++ rest) = fromWords? false rest := by
  induction s with
  | nil => rfl
  | cons c s ih =>
    obtain ⟨hc, hs⟩ := List.forall_mem_cons.1 h
    rw [List.cons_append, fromWords?, if_pos hc, ih hs]

/-- The rest of a word is passed over. -/
theorem fromWords?_inWord {w gap : List Char} (hw : ∀ c ∈ w, isIdentChar c = true)
    (hgap : IsGap gap) (rest : List Char) :
    fromWords? true (w ++ (gap ++ rest)) = fromWords? false rest := by
  induction w with
  | nil =>
    obtain ⟨c, cs, rfl, hc, hcs⟩ := hgap.exists_cons
    rw [List.nil_append, List.cons_append, fromWords?, if_pos hc, fromWords?_blanks hcs]
  | cons c w ih =>
    obtain ⟨hc, hw⟩ := List.forall_mem_cons.1 hw
    have hblank := isBlank_eq_false_of_isIdentChar hc
    rw [List.cons_append, fromWords?, if_neg (by simp [hblank]), if_pos rfl,
      if_pos (isWordChar_of_isIdentChar hc), ih hw]

/-- A word other than `struct` begins no header. -/
theorem fromKeyword?_eq_none {w s : List Char} (hw : IsIdent w) (hne : w ≠ "struct".toList)
    (hs : Parted s) : fromKeyword? (w ++ s) = none := by
  rw [fromKeyword?]
  cases hafter : after? "struct".toList (w ++ s) with
  | none => rfl
  | some rest =>
    rcases eq_or_exists_of_after? (by decide) hs hafter with ⟨heq, -⟩ | ⟨c, t, hw', rfl⟩
    · exact absurd heq hne
    · have hc := isWordChar_of_isIdentChar (hw.chars c (by simp [hw']))
      exact if_pos hc

/-- A word before the keyword is passed over with the blanks behind it. -/
theorem fromWords?_word {w gap : List Char} (hw : isIdentifier w = true)
    (hne : w ≠ "struct".toList) (hgap : IsGap gap) (rest : List Char) :
    fromWords? false (w ++ (gap ++ rest)) = fromWords? false rest := by
  have hident := isIdent_of_isIdentifier hw
  have hnone := fromKeyword?_eq_none hident hne (hgap.parted rest)
  obtain ⟨c, cs, rfl⟩ := List.exists_cons_of_ne_nil hident.ne_nil
  obtain ⟨hc, hcs⟩ := List.forall_mem_cons.1 hident.chars
  have hblank := isBlank_eq_false_of_isIdentChar hc
  rw [isIdentifier, Bool.and_eq_true] at hw
  rw [List.cons_append] at hnone ⊢
  rw [fromWords?, if_neg (by simp [hblank]), if_neg Bool.false_ne_true, hnone]
  dsimp only
  rw [if_pos hw.1, fromWords?_inWord hcs hgap]

/-- Behind the keyword stand a name and a base. -/
theorem fromWords?_keyword {s : List Char} (hs : s.head?.any isWordChar = false)
    {found : List Char × Option (List Char)} (hfound : nameAndBase? s = some found) :
    fromWords? false ("struct".toList ++ s) = some found := by
  have hkeyword : fromKeyword? ("struct".toList ++ s) = some found := by
    rw [fromKeyword?, after?_append]
    dsimp only
    rw [hs]
    exact hfound
  revert hkeyword
  show fromKeyword? ('s' :: _) = _ → fromWords? false ('s' :: _) = _
  intro hkeyword
  rw [fromWords?, if_neg (by decide), if_neg (by decide), hkeyword]

/-! ### Names and bases -/

theorem IsName.isIdent {name : String} (h : IsName name) : IsIdent name.toList :=
  isIdent_of_isIdentifier h.ident

/-- A name is none of the keywords. -/
theorem IsName.ne {name keyword : String} (h : IsName name) (hkeyword : keyword ∈ Schema.keywords) :
    name ≠ keyword := by
  rintro rfl
  exact h.no_keyword hkeyword

namespace Base

/-- The text of a base behind the colon, without the blanks around it. -/
def written (b : Base) : List Char :=
  (b.access.elim [] fun a => a.1.toList ++ a.2) ++ b.name.toList

variable {b : Base}

theorem text_eq (b : Base) : b.text = b.before ++ ':' :: (b.behind ++ b.written) := rfl

/-- A word for access is an identifier. -/
theorem isIdent_of_mem_accessWords {w : String} (h : w ∈ accessWords) : IsIdent w.toList := by
  rw [accessWords] at h
  simp only [List.mem_cons, List.not_mem_nil, or_false] at h
  rcases h with rfl | rfl | rfl <;> decide

theorem Proper.isIdent (h : b.Proper) : IsIdent b.name.toList :=
  h.name.isIdent

/-- What is written is made up of characters of identifiers and blanks. -/
theorem Proper.chars_written (h : b.Proper) {c : Char} (hc : c ∈ b.written) :
    isBlank c = true ∨ isIdentChar c = true := by
  rcases List.mem_append.1 hc with hc | hc
  · cases haccess : b.access with
    | none =>
      rw [haccess] at hc
      cases hc
    | some a =>
      rw [haccess] at hc
      obtain ⟨hword, hgap⟩ := h.access a (Option.mem_def.2 haccess)
      rcases List.mem_append.1 hc with hc | hc
      · exact .inr ((isIdent_of_mem_accessWords hword).chars c hc)
      · exact .inl (hgap.blanks c hc)
  · exact .inr (h.isIdent.chars c hc)

/-- What is written begins with a character of an identifier. -/
theorem Proper.head?_written (h : b.Proper) :
    ∃ c cs, b.written = c :: cs ∧ isIdentChar c = true := by
  rw [written]
  cases haccess : b.access with
  | none =>
    have hname := h.isIdent.exists_cons_append []
    rwa [List.append_nil] at hname
  | some a =>
    obtain ⟨hword, -⟩ := h.access a (Option.mem_def.2 haccess)
    have haccess := (isIdent_of_mem_accessWords hword).exists_cons_append (a.2 ++ b.name.toList)
    rwa [← List.append_assoc] at haccess

/-- What is written ends with a character of an identifier. -/
theorem Proper.isIdentChar_of_getLast? (h : b.Proper) {c : Char}
    (hc : b.written.getLast? = some c) : isIdentChar c = true := by
  obtain ⟨d, hd⟩ := Option.isSome_iff_exists.1 (List.getLast?_isSome.2 h.isIdent.ne_nil)
  rw [written, List.getLast?_append, hd, Option.some_or, Option.some.injEq] at hc
  exact hc ▸ h.isIdent.chars d (List.mem_of_getLast? hd)

/-- Blanks at either end are taken away. -/
theorem Proper.trimBlanks_written (h : b.Proper) {front back : List Char} (hfront : IsBlanks front)
    (hback : IsBlanks back) : trimBlanks (front ++ (b.written ++ back)) = b.written := by
  obtain ⟨c, cs, hwritten, hc⟩ := h.head?_written
  have hblank : ¬isBlank c = true := by simp [isBlank_eq_false_of_isIdentChar hc]
  have hdrop : (b.written ++ back).dropWhile isBlank = b.written ++ back := by
    rw [hwritten, List.cons_append, List.dropWhile_cons_of_neg hblank]
  rw [trimBlanks, hfront.dropWhile_append, hdrop, dropEndWhile_append_of_all _ _ hback]
  exact dropEndWhile_eq_self fun c hc =>
    isBlank_eq_false_of_isIdentChar (h.isIdentChar_of_getLast? hc)

/-- Nothing is trimmed from what is written. -/
theorem Proper.trim_written (h : b.Proper) : trim b.written = b.written := by
  obtain ⟨c, cs, hwritten, hc⟩ := h.head?_written
  refine trim_eq_self (fun d hd => ?_) fun d hd =>
    isSpace_eq_false_of_isIdentChar (h.isIdentChar_of_getLast? hd)
  rw [hwritten, List.head?_cons, Option.some.injEq] at hd
  exact isSpace_eq_false_of_isIdentChar (hd ▸ hc)

/-- The last word that is written is the name. -/
theorem Proper.getLast?_words_written (h : b.Proper) :
    (words b.written).getLast? = some b.name.toList := by
  have hname := words_of_isWord h.isIdent.isWord
  rw [written]
  cases haccess : b.access with
  | none =>
    rw [Option.elim_none, List.nil_append, hname]
    rfl
  | some a =>
    obtain ⟨-, hgap⟩ := h.access a (Option.mem_def.2 haccess)
    obtain ⟨c, cs, hcons, hc, hcs⟩ := hgap.exists_cons
    rw [Option.elim_some, hcons, List.append_assoc, List.cons_append,
      words_append_cons (isSpace_of_isBlank hc), words_append_of_all _ hcs.spaces, hname]
    simp

end Base

namespace Opening

variable {o : Opening}

/-- The header that an opening is. -/
def header (o : Opening) : Header :=
  ⟨o.typedef.isSome, o.name.toList, o.base.map Base.written⟩

/-- The keyword `typedef` of an opening with the blanks behind it. -/
def typedefText (o : Opening) : List Char :=
  o.typedef.elim [] fun gap => "typedef".toList ++ gap

theorem text_eq (o : Opening) :
    o.text = o.indent ++ (o.typedefText ++ (o.qualifierText ++ ("struct".toList ++ o.nameText))) :=
  rfl

namespace Proper

/-- Behind the blanks the name is read up to a character that can be in none. -/
theorem split_name (h : o.Proper) {rest : List Char}
    (hrest : ∀ c, rest.head? = some c → isNameChar c = false) :
    let behind := (o.gap ++ (o.name.toList ++ rest)).dropWhile isBlank
    behind.takeWhile isNameChar = o.name.toList ∧ behind.dropWhile isNameChar = rest := by
  have hident := h.name.isIdent
  have hchars : ∀ c ∈ o.name.toList, isNameChar c = true := fun c hc =>
    isNameChar_of_isIdentChar (hident.chars c hc)
  obtain ⟨c, cs, hcons⟩ := List.exists_cons_of_ne_nil hident.ne_nil
  have hc := isBlank_eq_false_of_isIdentChar (hident.chars c (by simp [hcons]))
  -- The name begins with no blank, so only the gap is dropped.
  have hdrop : (o.name.toList ++ rest).dropWhile isBlank = o.name.toList ++ rest := by
    rw [hcons, List.cons_append, List.dropWhile_cons_of_neg (by simp [hc])]
  have hstop : rest.takeWhile isNameChar = [] ∧ rest.dropWhile isNameChar = rest := by
    cases rest with
    | nil => exact ⟨rfl, rfl⟩
    | cons d rest =>
      have hd := hrest d rfl
      exact ⟨List.takeWhile_cons_of_neg (by simp [hd]), List.dropWhile_cons_of_neg (by simp [hd])⟩
  intro behind
  have hbehind : behind = o.name.toList ++ rest := by
    rw [← hdrop]
    exact h.gap.blanks.dropWhile_append _
  rw [hbehind, List.takeWhile_append_of_pos hchars, List.dropWhile_append_of_pos hchars, hstop.1,
    hstop.2, List.append_nil]
  exact ⟨rfl, rfl⟩

/-- Behind the keyword a name and a base are found. -/
theorem nameAndBase?_nameText (h : o.Proper) :
    nameAndBase? o.nameText = some (o.name.toList, o.base.map Base.written) := by
  have hblank : ∀ c, isBlank c = true → isNameChar c = false := by
    intro c hc
    rw [isNameChar, isSpace_of_isBlank hc]
    rfl
  cases hbase : o.base with
  -- Without a base nothing but blanks stands behind the name.
  | none =>
    have hnil : o.behind.dropWhile isBlank = [] := by
      have hdrop := h.behind.dropWhile_append []
      rwa [List.append_nil] at hdrop
    have htext : o.nameText = o.gap ++ (o.name.toList ++ o.behind) := by
      rw [nameText, hbase]
      rfl
    obtain ⟨hname, hrest⟩ := h.split_name fun c hc => hblank c (h.behind c (List.mem_of_head? hc))
    rw [htext, nameAndBase?, hname, hrest, hnil]
    rfl
  -- With a base the name ends at its blanks or at the colon.
  | some b =>
    have hb := h.base b (Option.mem_def.2 hbase)
    have hdrop : (b.text ++ o.behind).dropWhile isBlank =
        ':' :: (b.behind ++ (b.written ++ o.behind)) := by
      rw [Base.text_eq, List.append_assoc, hb.before.dropWhile_append, List.cons_append,
        List.dropWhile_cons_of_neg (by decide), List.append_assoc]
    have hsemicolon : (b.behind ++ (b.written ++ o.behind)).contains ';' = false := by
      rw [← Bool.not_eq_true, List.contains_iff_mem]
      intro hmem
      simp only [List.mem_append] at hmem
      rcases hmem with hmem | hmem | hmem
      · cases hb.behind _ hmem
      · rcases hb.chars_written hmem with hc | hc <;> cases hc
      · cases h.behind _ hmem
    have htext : o.nameText = o.gap ++ (o.name.toList ++ (b.text ++ o.behind)) := by
      rw [nameText, hbase]
      rfl
    have hhead : ∀ c, (b.text ++ o.behind).head? = some c → isNameChar c = false := by
      intro c hc
      rw [Base.text_eq, List.append_assoc] at hc
      cases hbefore : b.before with
      | nil =>
        rw [hbefore, List.nil_append, List.cons_append, List.head?_cons, Option.some.injEq] at hc
        exact hc ▸ rfl
      | cons d ds =>
        rw [hbefore, List.cons_append, List.head?_cons, Option.some.injEq] at hc
        exact hc ▸ hblank d (hb.before d (by simp [hbefore]))
    obtain ⟨hname, hrest⟩ := h.split_name hhead
    rw [htext, nameAndBase?, hname, hrest, hdrop]
    simp only [hsemicolon, hb.trimBlanks_written hb.behind h.behind]
    rfl

/-- The words before the keyword are passed over. -/
theorem fromWords?_text (h : o.Proper) :
    fromWords? false o.text = some (o.name.toList, o.base.map Base.written) := by
  have hkeyword : fromWords? false ("struct".toList ++ o.nameText) =
      some (o.name.toList, o.base.map Base.written) := by
    refine fromWords?_keyword ?_ h.nameAndBase?_nameText
    obtain ⟨c, cs, hgap, hc, -⟩ := h.gap.exists_cons
    rw [nameText, hgap]
    exact isWordChar_eq_false_of_isBlank hc
  -- Neither a qualifier nor `typedef` is the keyword, and each is followed by a gap.
  have hqualifiers : ∀ qs : List (String × List Char), (∀ q ∈ qs,
      isIdentifier q.1.toList = true ∧ q.1 ≠ "struct" ∧ q.1 ≠ "typedef" ∧ IsGap q.2) →
      ∀ rest, fromWords? false (qs.flatMap (fun q => q.1.toList ++ q.2) ++ rest) =
        fromWords? false rest := by
    intro qs
    induction qs with
    | nil => exact fun _ _ => rfl
    | cons q qs ih =>
      intro hqs rest
      obtain ⟨⟨hident, hne, -, hgap⟩, hqs⟩ := List.forall_mem_cons.1 hqs
      rw [List.flatMap_cons, List.append_assoc, List.append_assoc,
        fromWords?_word hident (fun heq => hne (String.toList_inj.1 heq)) hgap, ih hqs]
  rw [text_eq, fromWords?_blanks h.indent, typedefText]
  cases htypedef : o.typedef with
  | none => exact (hqualifiers _ h.qualifiers _).trans hkeyword
  | some gap =>
    have hgap := h.typedef gap (Option.mem_def.2 htypedef)
    rw [Option.elim_some, List.append_assoc, fromWords?_word (by decide) (by decide) hgap]
    exact (hqualifiers _ h.qualifiers _).trans hkeyword

/-- The first word behind the indent is no `typedef`, unless the opening has that keyword. -/
theorem exists_word (h : o.Proper) (hnone : o.typedef = none) :
    ∃ w rest, o.text = o.indent ++ (w ++ rest) ∧ IsIdent w ∧ w ≠ "typedef".toList ∧
      Parted rest := by
  rw [text_eq, typedefText, hnone, Option.elim_none, List.nil_append, qualifierText]
  cases hqs : o.qualifiers with
  | nil => exact ⟨"struct".toList, o.nameText, rfl, by decide, by decide, h.gap.parted _⟩
  | cons q qs =>
    obtain ⟨hident, -, hne, hgap⟩ := h.qualifiers q (by simp [hqs])
    refine ⟨q.1.toList, q.2 ++ (qs.flatMap (fun q => q.1.toList ++ q.2) ++
      ("struct".toList ++ o.nameText)), ?_, isIdent_of_isIdentifier hident,
      fun heq => hne (String.toList_inj.1 heq), hgap.parted _⟩
    rw [List.flatMap_cons, List.append_assoc, List.append_assoc]

/-- The keyword `typedef` is noticed. -/
theorem startsWithTypedef_text (h : o.Proper) :
    startsWithTypedef o.text = o.typedef.isSome := by
  have hdrop : ∀ {w : List Char}, IsIdent w → ∀ rest,
      (o.indent ++ (w ++ rest)).dropWhile isBlank = w ++ rest := by
    intro w hw rest
    obtain ⟨c, cs, rfl⟩ := List.exists_cons_of_ne_nil hw.ne_nil
    have hc := isBlank_eq_false_of_isIdentChar (hw.chars c List.mem_cons_self)
    rw [h.indent.dropWhile_append, List.cons_append, List.dropWhile_cons_of_neg (by simp [hc])]
  cases htypedef : o.typedef with
  | none =>
    obtain ⟨w, rest, htext, hw, hne, hrest⟩ := h.exists_word htypedef
    rw [startsWithTypedef, htext, hdrop hw]
    cases hafter : after? "typedef".toList (w ++ rest) with
    | none => rfl
    | some after =>
      -- The first word is another one, even if it begins like the keyword.
      rcases eq_or_exists_of_after? (by decide) hrest hafter with ⟨heq, -⟩ | ⟨c, t, hw', rfl⟩
      · exact absurd heq hne
      · exact isBlank_eq_false_of_isIdentChar (hw.chars c (by simp [hw']))
  | some gap =>
    obtain ⟨c, cs, rfl, hc, -⟩ := (h.typedef gap (Option.mem_def.2 htypedef)).exists_cons
    rw [startsWithTypedef, text_eq, typedefText, htypedef, Option.elim_some, List.append_assoc,
      hdrop (by decide), after?_append]
    exact hc

/-- An opening is parsed back. -/
theorem parse?_text (h : o.Proper) : parse? o.text = some o.header := by
  rw [parse?, h.fromWords?_text, Option.map_some, h.startsWithTypedef_text]
  rfl

/-- What an opening declares: its name and the name of its base. -/
theorem declared_header (h : o.Proper) :
    o.header.declared = ⟨o.name, o.base.map Base.name, none⟩ := by
  have hfault : nameFault? o.name.toList = none := by
    have hne : o.name.toList ≠ "struct".toList := fun heq =>
      h.name.ne (by decide) (String.toList_inj.1 heq)
    have hempty : o.name.toList.isEmpty = false := by
      simpa using h.name.isIdent.ne_nil
    rw [nameFault?, hempty, beq_false_of_ne hne, h.name.ident]
    rfl
  cases hbase : o.base with
  | none =>
    simp only [declared, header, hbase, Option.map_none, Option.bind_none, String.ofList_toList,
      hfault]
  | some b =>
    have hb := h.base b (Option.mem_def.2 hbase)
    obtain ⟨c, cs, hwritten, hc⟩ := hb.head?_written
    -- A written base begins with an identifier, so a colon in front of it was no part of it.
    have hcolon : c ≠ ':' := ne_of_isIdentChar hc (by decide)
    have hlast := hb.getLast?_words_written
    simp only [declared, header, hbase, Option.map_some, hb.trim_written]
    rw [hwritten] at hlast ⊢
    split
    · rename_i heq
      obtain ⟨hcons, -⟩ := List.cons_eq_cons.1 (Option.some.inj heq)
      exact absurd hcons hcolon
    · rw [Option.bind_some, hlast, hfault]
      simp

/-- The characters of an opening. -/
theorem chars (h : o.Proper) {c : Char} (hc : c ∈ o.text) :
    isBlank c = true ∨ isIdentChar c = true ∨ c = ':' := by
  have hstruct : IsIdent "struct".toList := by decide
  have htypedef : IsIdent "typedef".toList := by decide
  rw [text_eq, nameText] at hc
  simp only [List.mem_append] at hc
  rcases hc with hc | hc | hc | hc | hc | hc | hc | hc
  · exact .inl (h.indent c hc)
  · rw [typedefText] at hc
    cases hgap : o.typedef with
    | none =>
      rw [hgap] at hc
      cases hc
    | some gap =>
      rw [hgap] at hc
      rcases List.mem_append.1 hc with hc | hc
      · exact .inr (.inl (htypedef.chars c hc))
      · exact .inl ((h.typedef gap (Option.mem_def.2 hgap)).blanks c hc)
  · obtain ⟨q, hq, hc⟩ := List.mem_flatMap.1 hc
    obtain ⟨hident, -, -, hgap⟩ := h.qualifiers q hq
    rcases List.mem_append.1 hc with hc | hc
    · exact .inr (.inl ((isIdent_of_isIdentifier hident).chars c hc))
    · exact .inl (hgap.blanks c hc)
  · exact .inr (.inl (hstruct.chars c hc))
  · exact .inl (h.gap.blanks c hc)
  · exact .inr (.inl (h.name.isIdent.chars c hc))
  · cases hbase : o.base with
    | none =>
      rw [hbase] at hc
      cases hc
    | some b =>
      have hb := h.base b (Option.mem_def.2 hbase)
      rw [hbase, Option.elim_some, Base.text_eq] at hc
      simp only [List.mem_append, List.mem_cons] at hc
      rcases hc with hc | rfl | hc | hc
      · exact .inl (hb.before c hc)
      · exact .inr (.inr rfl)
      · exact .inl (hb.behind c hc)
      · exact (hb.chars_written hc).imp_right .inl
  · exact .inl (h.behind c hc)

/-- Other characters do not occur in an opening. -/
theorem not_mem (h : o.Proper) {c : Char} (hblank : isBlank c = false)
    (hident : isIdentChar c = false) (hcolon : c ≠ ':') : c ∉ o.text := by
  intro hc
  rcases h.chars hc with hc | hc | hc
  · rw [hblank] at hc
    cases hc
  · rw [hident] at hc
    cases hc
  · exact hcolon hc

/-- An opening stands on one line and before the first brace of it. -/
theorem isHead_text (h : o.Proper) : IsHead o.text :=
  ⟨h.not_mem (by decide) (by decide) (by decide), h.not_mem (by decide) (by decide) (by decide)⟩

end Proper

end Opening

end StructUnfold.Outline
