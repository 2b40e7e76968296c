import StructUnfold.Proofs.Outline.Opening
import StructUnfold.Proofs.Schema.Declarators

/-!
# Reading lists of aliases

A list of aliases is cut at its commas, and each piece is read token by token: marks, then a name.
White space makes no difference, for it only parts the tokens. So it can be trimmed or not, and the
semicolon behind the list can be there or not.

* `tokens_spaces_append`, `tokens_append_spaces`, `tokens_star_cons`, `tokens_word`: the tokens of
  a text that is put together.
* `parseList_append`: a list is read piece by piece.
* `AliasList.Proper.parseList_text`: the aliases of a list are parsed back.
* `parse?_statementText`: so are the target and the aliases of a statement.
-/

namespace StructUnfold

namespace Outline

open Text Declarator

/-! ### White space at the ends -/

/-- White space at the end of a text holds no word. -/
theorem words_append_spaces (s : List Char) {t : List Char} (h : IsSpaces t) :
    words (s ++ t) = words s := by
  cases t with
  | nil => rw [List.append_nil]
  | cons c t =>
    obtain ⟨hc, ht⟩ := List.forall_mem_cons.1 h
    have hnone := words_append_of_all [] ht
    rw [List.append_nil, words_nil] at hnone
    rw [words_append_cons hc, hnone, List.append_nil]

theorem IsSpaces.not_mem {s : List Char} (h : IsSpaces s) {c : Char} (hc : isSpace c = false) :
    c ∉ s := by
  intro hmem
  rw [h c hmem] at hc
  cases hc

/-! ### Tokens -/

@[simp] theorem tokens_nil : tokens [] = [] := by
  simp [tokens]

/-- The tokens of a text without stars that is put before another one, if its words are kept apart
from those behind it. -/
theorem tokens_append_of_not_mem {s t : List Char} (hs : '*' ∉ s) (ws : List (List Char))
    (h : ∀ first, first <+: t → words (s ++ first) = ws ++ words first) :
    tokens (s ++ t) = ws.map .word ++ tokens t := by
  obtain ⟨first, rest, hsplit⟩ := List.exists_cons_of_ne_nil (List.splitOn_ne_nil '*' t)
  have hprefix : first <+: t := by
    have ht : List.intercalate ['*'] (t.splitOn '*') = t := List.intercalate_splitOn '*'
    rw [hsplit] at ht
    cases rest with
    | nil => exact ⟨[], by simpa using ht⟩
    | cons piece rest =>
      rw [List.intercalate_cons_cons, List.append_assoc] at ht
      exact ⟨_, ht⟩
  rw [tokens, tokens, splitOn_append_of_not_mem hs, hsplit, List.modifyHead_cons, List.map_cons,
    List.map_cons, h first hprefix, List.map_append]
  cases rest with
  | nil => simp
  | cons piece rest => simp only [List.map_cons, List.intercalate_cons_cons, List.append_assoc]

/-- White space before a text is no token. -/
theorem tokens_spaces_append {s : List Char} (h : IsSpaces s) (t : List Char) :
    tokens (s ++ t) = tokens t := by
  have htokens := tokens_append_of_not_mem (t := t) (h.not_mem (c := '*') (by decide)) []
    fun first _ => words_append_of_all first h
  rwa [List.map_nil, List.nil_append] at htokens

/-- Neither is white space behind it. -/
theorem tokens_append_spaces (s : List Char) {t : List Char} (h : IsSpaces t) :
    tokens (s ++ t) = tokens s := by
  obtain ⟨front, last, hsplit, happend⟩ := exists_splitOn_append '*' s
  rw [tokens, tokens, happend, List.splitOn_eq_singleton (h.not_mem (by decide)),
    List.modifyHead_cons, hsplit, List.map_append, List.map_append, List.map_cons, List.map_cons,
    words_append_spaces last h]

/-- A star is a token. -/
theorem tokens_star_cons (t : List Char) : tokens ('*' :: t) = .star :: tokens t := by
  obtain ⟨first, rest, hsplit⟩ := List.exists_cons_of_ne_nil (List.splitOn_ne_nil '*' t)
  rw [tokens, tokens, List.splitOn_cons_eq_if_modifyHead, if_pos (by simp), hsplit, List.map_cons,
    List.map_cons, List.intercalate_cons_cons]
  rfl

/-- A word is a token where white space or a star ends it. -/
theorem tokens_word {w t : List Char} (hw : IsWord w) (hstar : '*' ∉ w)
    (ht : ∀ c, t.head? = some c → isSpace c = true ∨ c = '*') :
    tokens (w ++ t) = .word w :: tokens t := by
  have hword := words_of_isWord hw
  cases t with
  | nil => simp [tokens, List.splitOn_eq_singleton hstar, hword]
  | cons c t =>
    rcases ht c rfl with hc | rfl
    · refine tokens_append_of_not_mem hstar [w] fun first hfirst => ?_
      cases first with
      | nil => simp [hword]
      | cons d first =>
        obtain ⟨rest, hrest⟩ := hfirst
        obtain ⟨rfl, -⟩ := List.cons_eq_cons.1 hrest
        have hback := words_append_cons hc [] first
        rw [List.nil_append, words_nil, List.nil_append] at hback
        rw [words_append_cons hc, hword, hback]
    · -- The star begins a new piece, so the word is the first piece.
      rw [tokens_star_cons, tokens, List.splitOn_append_cons_self_of_not_mem hstar, List.map_cons,
        hword]
      obtain ⟨first, rest, hsplit⟩ := List.exists_cons_of_ne_nil (List.splitOn_ne_nil '*' t)
      rw [tokens, hsplit, List.map_cons, List.map_cons, List.intercalate_cons_cons]
      rfl

/-! ### Lists -/

/-- A declarator is told by its tokens. -/
theorem parse?_congr {s t : List Char} (h : tokens s = tokens t) :
    Declarator.parse? s = Declarator.parse? t := by
  rw [Declarator.parse?, Declarator.parse?, h]

/-- The declarators in a text that is cut at its commas. -/
def pieces (s : List Char) : List Declarator :=
  (s.splitOn ',').filterMap Declarator.parse?

theorem pieces_spaces_append {s : List Char} (h : IsSpaces s) (t : List Char) :
    pieces (s ++ t) = pieces t := by
  obtain ⟨first, rest, hsplit⟩ := List.exists_cons_of_ne_nil (List.splitOn_ne_nil ',' t)
  rw [pieces, splitOn_append_of_not_mem (h.not_mem (by decide)), pieces, hsplit,
    List.modifyHead_cons, List.filterMap_cons, List.filterMap_cons,
    parse?_congr (tokens_spaces_append h first)]

theorem pieces_append_spaces (s : List Char) {t : List Char} (h : IsSpaces t) :
    pieces (s ++ t) = pieces s := by
  obtain ⟨front, last, hsplit, happend⟩ := exists_splitOn_append ',' s
  rw [pieces, happend, List.splitOn_eq_singleton (h.not_mem (by decide)), List.modifyHead_cons,
    pieces, hsplit, List.filterMap_append, List.filterMap_append, List.filterMap_cons,
    List.filterMap_cons, parse?_congr (tokens_append_spaces last h)]

/-- Trimming a text keeps its declarators. -/
theorem pieces_trimStart (s : List Char) : pieces (trimStart s) = pieces s := by
  have hspaces : IsSpaces (s.takeWhile isSpace) := fun c hc =>
    List.all_eq_true.1 (List.all_takeWhile (p := isSpace) (l := s)) c hc
  have happend := pieces_spaces_append hspaces (s.dropWhile isSpace)
  rw [List.takeWhile_append_dropWhile] at happend
  exact happend.symm

theorem pieces_trimEnd (s : List Char) : pieces (trimEnd s) = pieces s := by
  obtain ⟨t, hs, ht⟩ := exists_dropEndWhile_append isSpace s
  have happend := pieces_append_spaces (dropEndWhile isSpace s) ht
  rw [← hs] at happend
  exact happend.symm

theorem not_mem_dropWhile {p : Char → Bool} {s : List Char} {c : Char} (h : c ∉ s) :
    c ∉ s.dropWhile p :=
  fun hmem => h ((List.dropWhile_suffix p).subset hmem)

theorem not_mem_trimEnd {s : List Char} {c : Char} (h : c ∉ s) : c ∉ trimEnd s := by
  obtain ⟨t, hs, -⟩ := exists_dropEndWhile_append isSpace s
  rw [hs, List.mem_append, not_or] at h
  exact h.1

theorem dropEndWhile_semicolon {s : List Char} (h : ';' ∉ s) :
    dropEndWhile (· == ';') s = s :=
  dropEndWhile_eq_self fun _ hc => beq_false_of_ne fun heq => h (heq ▸ List.mem_of_getLast? hc)

/-- A list is read piece by piece, with the semicolon that ends it or without. -/
theorem parseList_append {s tail : List Char} (h : ';' ∉ s) (htail : tail = [] ∨ tail = [';']) :
    parseList (s ++ tail) = pieces s := by
  have hstart : ';' ∉ trimStart s := not_mem_dropWhile h
  rw [parseList]
  rcases htail with rfl | rfl
  · rw [List.append_nil, trim, dropEndWhile_semicolon (not_mem_trimEnd hstart)]
    exact (pieces_trimEnd _).trans (pieces_trimStart s)
  · -- The semicolon keeps the white space before it from being trimmed.
    have htrim : trim (s ++ [';']) = trimStart s ++ [';'] := by
      have hsemicolon : ¬isSpace ';' = true := by decide
      have hdrop : trimStart (s ++ [';']) = trimStart s ++ [';'] := by
        rw [trimStart, List.dropWhile_append, List.dropWhile_cons_of_neg hsemicolon]
        split
        · rename_i hnil
          rw [trimStart, List.isEmpty_iff.1 hnil, List.nil_append]
        · rfl
      rw [trim, hdrop, trimEnd, dropEndWhile_concat, if_neg hsemicolon]
    rw [htrim, dropEndWhile_concat, if_pos (by simp), dropEndWhile_semicolon hstart]
    exact pieces_trimStart s

/-! ### Aliases -/

/-- The token of a mark. -/
def Mark.token : Mark → Token
  | star => .star
  | const => .word "const".toList
  | volatile => .word "volatile".toList

theorem Mark.isMark_token (m : Mark) : m.token.isMark = true := by
  cases m <;> rfl

/-- A name is not taken for a mark. -/
theorem IsName.isMark_eq_false {name : String} (h : IsName name) :
    (Token.word name.toList).isMark = false :=
  Schema.IsDeclarator.isMark_eq_false (d := ⟨name, false⟩) ⟨h.ident, h.no_keyword⟩

/-- A mark that is a word ends where white space or a star begins. -/
theorem exists_cons_of_marksParted {mark : Mark} (hmark : mark ≠ .star) {space : List Char}
    (hspace : IsSpaces space) {marks : List (Mark × List Char)}
    (hparted : marksParted ((mark, space) :: marks) = true) (s : List Char) :
    ∃ c t, space ++ ((marks.flatMap fun m => m.1.text ++ m.2) ++ s) = c :: t ∧
      (isSpace c = true ∨ c = '*') := by
  rw [marksParted, Bool.and_eq_true] at hparted
  cases space with
  | cons c space => exact ⟨c, _, List.cons_append, .inl (hspace c List.mem_cons_self)⟩
  | nil =>
    cases marks with
    | nil => simp [beq_false_of_ne hmark] at hparted
    | cons next marks =>
      have hnext : next.1 = .star := by simpa [beq_false_of_ne hmark] using hparted.1
      rw [List.nil_append, List.flatMap_cons, hnext]
      exact ⟨'*', _, rfl, .inr rfl⟩

/-- The tokens of marks before a text. -/
theorem tokens_marks {marks : List (Mark × List Char)} (hspaces : ∀ m ∈ marks, IsSpaces m.2)
    (hparted : marksParted marks = true) (rest : List Char) :
    tokens ((marks.flatMap fun m => m.1.text ++ m.2) ++ rest) =
      marks.map (fun m => m.1.token) ++ tokens rest := by
  induction marks with
  | nil => rfl
  | cons m marks ih =>
    obtain ⟨mark, space⟩ := m
    obtain ⟨hspace, hspaces⟩ := List.forall_mem_cons.1 hspaces
    have hrest := ih hspaces (Bool.and_eq_true_iff.1 hparted).2
    rw [List.flatMap_cons, List.append_assoc, List.append_assoc, List.map_cons, List.cons_append,
      ← hrest, ← tokens_spaces_append hspace (_ ++ rest)]
    -- White space or a star ends each word, whatever follows the marks.
    have hword : ∀ w : List Char, IsWord w → '*' ∉ w → mark ≠ .star →
        tokens (w ++ (space ++ ((marks.flatMap fun m => m.1.text ++ m.2) ++ rest))) =
          .word w :: tokens (space ++ ((marks.flatMap fun m => m.1.text ++ m.2) ++ rest)) := by
      intro w hw hstar hmark
      obtain ⟨c, t, htext, hc⟩ := exists_cons_of_marksParted hmark hspace hparted rest
      rw [htext]
      refine tokens_word hw hstar fun d hd => ?_
      obtain rfl := Option.some.inj hd
      exact hc
    cases mark with
    | star => exact tokens_star_cons _
    | const => exact hword "const".toList (by decide) (by decide) (by decide)
    | volatile => exact hword "volatile".toList (by decide) (by decide) (by decide)

namespace AliasText

variable {a : AliasText}

theorem Proper.tokens_text (h : a.Proper) :
    tokens a.text = a.marks.map (fun m => m.1.token) ++ [.word a.name.toList] := by
  have hname : tokens (a.name.toList ++ a.behind) = [.word a.name.toList] := by
    have hident := h.name.isIdent
    have hnone := tokens_spaces_append h.behind []
    rw [List.append_nil, tokens_nil] at hnone
    rw [tokens_word hident.isWord (hident.not_mem (by decide)) fun c hc =>
      .inl (h.behind c (List.mem_of_head? hc)), hnone]
  rw [text, tokens_spaces_append h.before, tokens_marks h.marks h.parted, hname]

/-- An alias is parsed back. -/
theorem Proper.parse?_text (h : a.Proper) : Declarator.parse? a.text = some a.declarator := by
  have hmarks : ∀ t ∈ a.marks.map (fun m => m.1.token), t.isMark = true := by
    intro t ht
    obtain ⟨m, -, rfl⟩ := List.mem_map.1 ht
    exact m.1.isMark_token
  have hname : ¬(Token.word a.name.toList).isMark = true := by simp [h.name.isMark_eq_false]
  have hstar : (a.marks.map fun m => m.1.token).contains .star =
      a.marks.any fun m => m.1 == .star := by
    have htoken : ∀ m : Mark, m.token = .star ↔ m = .star := by
      intro m
      cases m <;> simp [Mark.token]
    rw [Bool.eq_iff_iff]
    simp [htoken]
  rw [Declarator.parse?, h.tokens_text]
  simp only [List.dropWhile_append_of_pos hmarks, List.takeWhile_append_of_pos hmarks,
    List.dropWhile_cons_of_neg hname, List.takeWhile_cons_of_neg hname, List.append_nil, hstar,
    h.name.ident, if_true, String.ofList_toList]
  rfl

/-- The characters of an alias. -/
theorem Proper.chars (h : a.Proper) {c : Char} (hc : c ∈ a.text) :
    isSpace c = true ∨ isIdentChar c = true ∨ c = '*' := by
  rw [text] at hc
  simp only [List.mem_append] at hc
  rcases hc with hc | hc | hc | hc
  · exact .inl (h.before c hc)
  · obtain ⟨⟨mark, space⟩, hm, hc⟩ := List.mem_flatMap.1 hc
    rcases List.mem_append.1 hc with hc | hc
    · have hconst : IsIdent "const".toList := by decide
      have hvolatile : IsIdent "volatile".toList := by decide
      cases mark with
      | star => exact .inr (.inr (List.mem_singleton.1 hc))
      | const => exact .inr (.inl (hconst.chars c hc))
      | volatile => exact .inr (.inl (hvolatile.chars c hc))
    · exact .inl (h.marks _ hm c hc)
  · exact .inr (.inl (h.name.isIdent.chars c hc))
  · exact .inl (h.behind c hc)

end AliasText

namespace AliasList

variable {as : AliasList}

/-- The characters of a list of aliases. -/
theorem Proper.chars (h : as.Proper) {c : Char} (hc : c ∈ as.text) :
    isSpace c = true ∨ isIdentChar c = true ∨ c = '*' ∨ c = ',' := by
  rw [text, List.mem_append] at hc
  rcases hc with hc | hc
  · exact .inl (h.space c hc)
  · have hmem : ∀ list : List AliasText, (∀ a ∈ list, a.Proper) →
        c ∈ List.intercalate [','] (list.map AliasText.text) →
          isSpace c = true ∨ isIdentChar c = true ∨ c = '*' ∨ c = ',' := by
      intro list hlist hc
      induction list with
      | nil => cases hc
      | cons a list ih =>
        obtain ⟨ha, hlist⟩ := List.forall_mem_cons.1 hlist
        rw [List.map_cons, intercalate_cons, List.mem_append] at hc
        rcases hc with hc | hc
        · exact (ha.chars hc).imp_right (Or.imp_right .inl)
        · obtain ⟨s, hs, hc⟩ := List.mem_flatMap.1 hc
          obtain ⟨b, hb, rfl⟩ := List.mem_map.1 hs
          rcases List.mem_cons.1 hc with rfl | hc
          · exact .inr (.inr (.inr rfl))
          · exact ((hlist b hb).chars hc).imp_right (Or.imp_right .inl)
    exact hmem as.list h.list hc

/-- Other characters do not occur in a list of aliases. -/
theorem Proper.not_mem (h : as.Proper) {c : Char} (hspace : isSpace c = false)
    (hident : isIdentChar c = false) (hstar : c ≠ '*') (hcomma : c ≠ ',') : c ∉ as.text := by
  intro hc
  rcases h.chars hc with hc | hc | hc | hc
  · rw [hspace] at hc
    cases hc
  · rw [hident] at hc
    cases hc
  · exact hstar hc
  · exact hcomma hc

/-- The aliases of a list are parsed back piece by piece. -/
theorem Proper.pieces_text (h : as.Proper) : pieces as.text = as.list.map AliasText.declarator := by
  have hcomma : ∀ s ∈ as.list.map AliasText.text, ',' ∉ s := by
    intro s hs hmem
    obtain ⟨a, ha, rfl⟩ := List.mem_map.1 hs
    rcases (h.list a ha).chars hmem with hc | hc | hc
    · cases hc
    · cases hc
    · cases hc
  have hparse : ∀ list : List AliasText, (∀ a ∈ list, a.Proper) →
      (list.map AliasText.text).filterMap Declarator.parse? =
        list.map AliasText.declarator := by
    intro list hlist
    rw [List.filterMap_map, List.filterMap_eq_map_iff_forall_eq_some]
    exact fun a ha => (hlist a ha).parse?_text
  rw [text, pieces_spaces_append h.space, pieces]
  cases hlist : as.list with
  | nil => rfl
  | cons a list =>
    rw [hlist] at hcomma
    -- No comma stands in an alias, so the list is cut where it was joined.
    rw [List.splitOn_intercalate ',' hcomma (by simp)]
    exact hparse _ fun b hb => h.list b (hlist ▸ hb)

/-- The aliases of a list are parsed back, with the semicolon that ends it or without. -/
theorem Proper.parseList_text (h : as.Proper) {tail : List Char}
    (htail : tail = [] ∨ tail = [';']) :
    parseList (as.text ++ tail) = as.list.map AliasText.declarator := by
  rw [parseList_append (h.not_mem (by decide) (by decide) (by decide) (by decide)) htail,
    h.pieces_text]

end AliasList

/-- The target and the aliases of a statement are parsed back. -/
theorem parse?_statementText {space : List Char} {target : String} {aliases : AliasList}
    (hspace : IsSpaces space) (htarget : IsName target) (haliases : aliases.Proper)
    (hsome : aliases.list ≠ []) (hparted : isEdge aliases.text.head? = true) :
    AliasStatement.parse? (statementText space target aliases) =
      some (target, aliases.list.map AliasText.declarator) := by
  have hident := htarget.isIdent
  have hsemicolon : ';' ∉ aliases.text :=
    haliases.not_mem (by decide) (by decide) (by decide) (by decide)
  have htrim : trim (statementText space target aliases) =
      target.toList ++ trimEnd aliases.text := by
    rw [statementText, trim_append_of_all _ hspace, trim_isWord_append hident.isWord]
  -- What is left of the list still begins with no character of the name.
  have hhead : ∀ c, (trimEnd aliases.text).head? = some c → isIdentChar c = false := by
    intro c hc
    obtain ⟨t, htext, -⟩ := exists_dropEndWhile_append isSpace aliases.text
    rw [htext, List.head?_append] at hparted
    rw [trimEnd] at hc
    rw [hc, Option.some_or, isEdge] at hparted
    simpa using hparted
  have hstop : (trimEnd aliases.text).takeWhile isIdentChar = [] ∧
      (trimEnd aliases.text).dropWhile isIdentChar = trimEnd aliases.text := by
    cases htext : trimEnd aliases.text with
    | nil => exact ⟨rfl, rfl⟩
    | cons c cs =>
      have hc := hhead c (by rw [htext, List.head?_cons])
      exact ⟨List.takeWhile_cons_of_neg (by simp [hc]), List.dropWhile_cons_of_neg (by simp [hc])⟩
  have hlist : parseList (trimEnd aliases.text) = aliases.list.map AliasText.declarator := by
    have happend := parseList_append (not_mem_trimEnd hsemicolon) (.inl rfl)
    rw [List.append_nil] at happend
    rw [happend, pieces_trimEnd, haliases.pieces_text]
  have hne : (aliases.list.map AliasText.declarator).isEmpty = false := by simpa using hsome
  rw [AliasStatement.parse?, htrim]
  simp only [List.takeWhile_append_of_pos hident.chars, List.dropWhile_append_of_pos hident.chars,
    hstop, hlist, List.append_nil, htarget.ident, hne, Bool.not_false, Bool.and_self, if_true,
    String.ofList_toList]

end Outline

end StructUnfold
