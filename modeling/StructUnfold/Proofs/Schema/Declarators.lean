import StructUnfold.Proofs.Schema.Basic
import StructUnfold.Proofs.Text.Search
import StructUnfold.Proofs.Text.Space

/-!
# Printed declarators

A list of declarators is parsed back as it was printed, behind a struct's body and in a statement of
its own alike.

* `parseList_declaratorList`: the declarators of a list are parsed back.
* `parse?_statementBody`: so are the target and the aliases of a statement.
-/

namespace StructUnfold.Schema

open Text

/-- A declarator of a well-formed schema. -/
structure IsDeclarator (d : Declarator) : Prop where
  /-- Its name is an identifier. -/
  ident : isIdentifier d.name.toList = true
  /-- Its name is no keyword that may stand before a name. -/
  no_keyword : d.name ∉ keywords

namespace IsDeclarator

variable {d : Declarator}

theorem isIdent (h : IsDeclarator d) : IsIdent d.name.toList :=
  isIdent_of_isIdentifier h.ident

theorem isWord (h : IsDeclarator d) : IsWord d.name.toList :=
  h.isIdent.isWord

/-- Its name is not passed over as a mark. -/
theorem isMark_eq_false (h : IsDeclarator d) :
    (Declarator.Token.word d.name.toList).isMark = false := by
  have hkeyword : ∀ k ∈ keywords, (d.name.toList == k.toList) = false := by
    intro k hk
    refine beq_false_of_ne fun heq => h.no_keyword ?_
    rw [String.toList_inj.1 heq]
    exact hk
  rw [Declarator.Token.isMark, hkeyword "const" (by decide), hkeyword "volatile" (by decide)]
  rfl

/-- Its text begins with a star or with its name. -/
theorem head?_text (h : IsDeclarator d) (rest : List Char) :
    ∃ c, (declaratorText d ++ rest).head? = some c ∧ isSpace c = false := by
  cases hp : d.isPointer with
  | true => exact ⟨'*', by simp [declaratorText, hp], by decide⟩
  | false =>
    obtain ⟨c, hc, hhead⟩ := h.isIdent.head?_append rest
    exact ⟨c, by simpa [declaratorText, hp] using hhead, isSpace_eq_false_of_isIdentChar hc⟩

/-- Its text ends with its name. -/
theorem getLast?_text (h : IsDeclarator d) (front : List Char) :
    ∃ c, (front ++ declaratorText d).getLast? = some c ∧ isIdentChar c = true := by
  obtain ⟨c, hc⟩ := Option.isSome_iff_exists.1 (List.getLast?_isSome.2 h.isIdent.ne_nil)
  refine ⟨c, ?_, h.isIdent.chars c (List.mem_of_getLast? hc)⟩
  rw [declaratorText, ← List.append_assoc, List.getLast?_append, hc, Option.some_or]

/-- Its text holds only a star and the characters of its name. -/
theorem eq_or_of_mem_text (h : IsDeclarator d) {c : Char} (hc : c ∈ declaratorText d) :
    c = '*' ∨ isIdentChar c = true := by
  rcases List.mem_append.1 hc with hc | hc
  · split at hc
    · exact .inl (by simpa using hc)
    · cases hc
  · exact .inr (h.isIdent.chars c hc)

end IsDeclarator

/-- A declarator is parsed back, be there a space before it or not. -/
theorem parse?_declaratorText {d : Declarator} (h : IsDeclarator d) {gap : List Char}
    (hgap : gap = [] ∨ gap = [' ']) : Declarator.parse? (gap ++ declaratorText d) = some d := by
  have hspace : ∀ c ∈ gap, isSpace c = true := by
    rcases hgap with rfl | rfl
    · simp
    · exact List.forall_mem_singleton.2 rfl
  have hstar : '*' ∉ gap := by rcases hgap with rfl | rfl <;> decide
  have hname : '*' ∉ d.name.toList := h.isIdent.not_mem (by decide)
  have hwords : words (gap ++ d.name.toList) = [d.name.toList] := by
    rw [words_append_of_all _ hspace, words_of_isWord h.isWord]
  have hnone : words gap = [] := by
    have hall := words_append_of_all [] hspace
    rwa [List.append_nil, words_nil] at hall
  have hmark := h.isMark_eq_false
  obtain ⟨name, isPointer⟩ := d
  -- The text is split at its stars: there is one piece without a star, and two with one.
  cases isPointer with
  | false =>
    have htokens : Declarator.tokens (gap ++ name.toList) = [.word name.toList] := by
      rw [Declarator.tokens, List.splitOn_eq_singleton (by simp [hstar, hname])]
      simp only [List.map_cons, List.map_nil, hwords, List.intercalate_singleton]
    have htext : declaratorText ⟨name, false⟩ = name.toList := by simp [declaratorText]
    rw [htext, Declarator.parse?]
    simp only [htokens]
    rw [List.dropWhile_cons_of_neg (by simp [hmark]), List.takeWhile_cons_of_neg (by simp [hmark])]
    simp [h.ident]
  | true =>
    have htokens : Declarator.tokens (gap ++ '*' :: name.toList) = [.star, .word name.toList] := by
      rw [Declarator.tokens, List.splitOn_append_cons_self_of_not_mem hstar,
        List.splitOn_eq_singleton hname]
      have hwords' : words name.toList = [name.toList] := words_of_isWord h.isWord
      simp only [List.map_cons, List.map_nil, hnone, hwords', List.intercalate_cons_cons,
        List.intercalate_singleton]
      rfl
    have htext : declaratorText ⟨name, true⟩ = '*' :: name.toList := by simp [declaratorText]
    rw [htext, Declarator.parse?]
    simp only [htokens]
    have hstarMark : Declarator.Token.star.isMark = true := rfl
    rw [List.dropWhile_cons_of_pos hstarMark, List.dropWhile_cons_of_neg (by simp [hmark]),
      List.takeWhile_cons_of_pos hstarMark, List.takeWhile_cons_of_neg (by simp [hmark])]
    simp [h.ident]

theorem declaratorList_cons_cons (d e : Declarator) (ds : List Declarator) :
    declaratorList (d :: e :: ds) = declaratorText d ++ ',' :: ' ' :: declaratorList (e :: ds) := by
  rw [declaratorList, List.map_cons, List.map_cons, List.intercalate_cons_cons, declaratorList,
    List.map_cons]
  simp

theorem declaratorList_singleton (d : Declarator) : declaratorList [d] = declaratorText d := by
  simp [declaratorList]

/-- The pieces between commas are parsed back one by one. -/
theorem filterMap_parse?_splitOn {d : Declarator} {ds : List Declarator}
    (h : ∀ e ∈ d :: ds, IsDeclarator e) (gap : List Char) (hgap : gap = [] ∨ gap = [' ']) :
    ((gap ++ declaratorList (d :: ds)).splitOn ',').filterMap Declarator.parse? = d :: ds := by
  have hcomma : ∀ e, IsDeclarator e → ∀ gap : List Char, gap = [] ∨ gap = [' '] →
      ',' ∉ gap ++ declaratorText e := by
    intro e he gap hgap hmem
    rcases List.mem_append.1 hmem with hmem | hmem
    · rcases hgap with rfl | rfl <;> simp at hmem
    · rcases he.eq_or_of_mem_text hmem with heq | hc
      · cases heq
      · cases hc
  induction ds generalizing d gap with
  | nil =>
    have hd := h d List.mem_cons_self
    rw [declaratorList_singleton, List.splitOn_eq_singleton (hcomma d hd gap hgap)]
    simp [parse?_declaratorText hd hgap]
  | cons e ds ih =>
    have hd := h d List.mem_cons_self
    rw [declaratorList_cons_cons, ← List.append_assoc,
      List.splitOn_append_cons_self_of_not_mem (hcomma d hd gap hgap),
      List.filterMap_cons_some (parse?_declaratorText hd hgap)]
    -- All declarators but the first have a space before them.
    have hrest := ih (fun f hf => h f (List.mem_cons_of_mem _ hf)) [' '] (.inr rfl)
    rw [List.singleton_append] at hrest
    rw [hrest]

/-- A list of declarators ends with the name of the last one. -/
theorem getLast?_declaratorList {d : Declarator} {ds : List Declarator}
    (h : ∀ e ∈ d :: ds, IsDeclarator e) (front : List Char) :
    ∃ c, (front ++ declaratorList (d :: ds)).getLast? = some c ∧ isIdentChar c = true := by
  induction ds generalizing d front with
  | nil =>
    rw [declaratorList_singleton]
    exact (h d List.mem_cons_self).getLast?_text front
  | cons e ds ih =>
    obtain ⟨c, hc, hident⟩ := ih (fun f hf => h f (List.mem_cons_of_mem _ hf))
      (front ++ declaratorText d ++ [',', ' '])
    exact ⟨c, by simpa [declaratorList_cons_cons] using hc, hident⟩

/-- A list of declarators begins with the text of the first one. -/
theorem head?_declaratorList {d : Declarator} {ds : List Declarator}
    (h : ∀ e ∈ d :: ds, IsDeclarator e) (rest : List Char) :
    ∃ c, (declaratorList (d :: ds) ++ rest).head? = some c ∧ isSpace c = false := by
  have hd := h d List.mem_cons_self
  cases ds with
  | nil =>
    rw [declaratorList_singleton]
    exact hd.head?_text rest
  | cons e ds =>
    rw [declaratorList_cons_cons, List.append_assoc]
    exact hd.head?_text _

/-- The declarators of a list are parsed back, with or without the semicolon that ends it. -/
theorem parseList_declaratorList {d : Declarator} {ds : List Declarator}
    (h : ∀ e ∈ d :: ds, IsDeclarator e) (tail : List Char) (htail : tail = [] ∨ tail = [';']) :
    Declarator.parseList (' ' :: (declaratorList (d :: ds) ++ tail)) = d :: ds := by
  have htrim :
      trim (' ' :: (declaratorList (d :: ds) ++ tail)) = declaratorList (d :: ds) ++ tail := by
    rw [trim_space_cons]
    refine trim_eq_self (fun c hc => ?_) fun c hc => ?_
    · obtain ⟨c', hc', hspace⟩ := head?_declaratorList h tail
      rw [hc', Option.some.injEq] at hc
      exact hc ▸ hspace
    · rcases htail with rfl | rfl
      · obtain ⟨c', hc', hident⟩ := getLast?_declaratorList h []
        rw [List.append_nil, ← List.nil_append (declaratorList _), hc', Option.some.injEq] at hc
        exact hc ▸ isSpace_eq_false_of_isIdentChar hident
      · rw [List.getLast?_concat, Option.some.injEq] at hc
        exact hc ▸ rfl
  -- The list itself ends with an identifier, so no more than the semicolon is dropped.
  have hdrop : dropEndWhile (· == ';') (declaratorList (d :: ds) ++ tail) =
      declaratorList (d :: ds) := by
    rw [dropEndWhile_append_of_all _ _ (by rcases htail with rfl | rfl <;> simp)]
    refine dropEndWhile_eq_self fun c hc => ?_
    obtain ⟨c', hc', hident⟩ := getLast?_declaratorList h []
    rw [← List.nil_append (declaratorList _), hc', Option.some.injEq] at hc
    exact beq_false_of_ne (hc ▸ ne_of_isIdentChar hident (by decide))
  have hpieces := filterMap_parse?_splitOn h [] (.inl rfl)
  rw [List.nil_append] at hpieces
  rw [Declarator.parseList, htrim, hdrop, hpieces]

/-- What stands between `struct` and the semicolon of a statement. -/
def statementBody (target : String) (aliases : List Declarator) : List Char :=
  ' ' :: (target.toList ++ ' ' :: declaratorList aliases)

/-- The target and the aliases of a statement are parsed back. -/
theorem parse?_statementBody {target : String} (htarget : isIdentifier target.toList = true)
    {aliases : List Declarator} (hne : aliases ≠ []) (h : ∀ d ∈ aliases, IsDeclarator d) :
    AliasStatement.parse? (statementBody target aliases) = some (target, aliases) := by
  obtain ⟨d, ds, rfl⟩ := List.exists_cons_of_ne_nil hne
  have hident := isIdent_of_isIdentifier htarget
  have htrim : trim (statementBody target (d :: ds)) =
      target.toList ++ ' ' :: declaratorList (d :: ds) := by
    rw [statementBody, trim_space_cons]
    refine trim_eq_self (fun c hc => ?_) fun c hc => ?_
    · obtain ⟨c', hc', hhead⟩ := hident.head?_append (' ' :: declaratorList (d :: ds))
      rw [hhead, Option.some.injEq] at hc
      exact hc ▸ isSpace_eq_false_of_isIdentChar hc'
    · obtain ⟨c', hc', hlast⟩ := getLast?_declaratorList h (target.toList ++ [' '])
      rw [List.append_assoc, List.singleton_append, hc] at hc'
      obtain rfl := Option.some.inj hc'
      exact isSpace_eq_false_of_isIdentChar hlast
  -- The target ends at the space behind it.
  have htake : (target.toList ++ ' ' :: declaratorList (d :: ds)).takeWhile isIdentChar =
      target.toList := by
    rw [List.takeWhile_append_of_pos hident.chars, List.takeWhile_cons_of_neg (by decide),
      List.append_nil]
  have hdrop : (target.toList ++ ' ' :: declaratorList (d :: ds)).dropWhile isIdentChar =
      ' ' :: declaratorList (d :: ds) := by
    rw [List.dropWhile_append_of_pos hident.chars, List.dropWhile_cons_of_neg (by decide)]
  have hlist := parseList_declaratorList h [] (.inl rfl)
  rw [List.append_nil] at hlist
  rw [AliasStatement.parse?]
  simp only [htrim, htake, hdrop, hlist, htarget]
  simp

end StructUnfold.Schema
