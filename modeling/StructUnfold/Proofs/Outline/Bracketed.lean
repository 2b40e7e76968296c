import StructUnfold.Proofs.Outline.Alias
import StructUnfold.Scan.Basic

/-!
# Declarators with brackets

A list of declarators may hold arrays, functions and pointers to functions, which are no names of
types. They are passed over as long as no comma stands in them, for a piece with a bracket is no
name. But the list is cut at every comma, those between brackets included, so what stands between
two commas of one declarator is read as a declarator of its own.

* `depthAfter`, `IsBracketed`: a declarator with brackets, whose commas all lie inside of them.
* `between`: what stands between two commas of it; for a function that is every parameter but the
  first and the last (`between_function`).
* `Entry`: a name with its marks, or a declarator with brackets.
* `parse?_eq_none_of_mem`: a piece with a bracket is no declarator.
* `parseList_entries`: what is read of a list of entries.
-/

namespace StructUnfold.Outline

open Text Declarator

/-! ### The characters of a declarator -/

/-- Whether a character is part of a word among the tokens. -/
def isTokenChar (c : Char) : Bool :=
  !isSpace c && c != '*'

theorem isTokenChar_iff {c : Char} : isTokenChar c = true ↔ isSpace c = false ∧ c ≠ '*' := by
  simp [isTokenChar]

/-- A text that begins with a character of a word begins with the word. -/
theorem exists_tokens_cons {d : Char} (hd : isTokenChar d = true) (rest : List Char) :
    ∃ w t, d :: rest = w ++ t ∧ w ≠ [] ∧ tokens (d :: rest) = .word w :: tokens t := by
  have hsplit : (d :: rest).takeWhile isTokenChar ++ (d :: rest).dropWhile isTokenChar =
      d :: rest := List.takeWhile_append_dropWhile
  have hin : ∀ e ∈ (d :: rest).takeWhile isTokenChar, isSpace e = false ∧ e ≠ '*' := fun e he =>
    isTokenChar_iff.1 (List.all_eq_true.1 List.all_takeWhile e he)
  have hne : (d :: rest).takeWhile isTokenChar ≠ [] := by
    rw [List.takeWhile_cons_of_pos hd]
    exact List.cons_ne_nil _ _
  -- The word goes on until white space or a star follows.
  have hstop : ∀ e, ((d :: rest).dropWhile isTokenChar).head? = some e →
      isSpace e = true ∨ e = '*' := by
    intro e he
    have hnot := List.head?_dropWhile_not isTokenChar (d :: rest)
    rw [he] at hnot
    by_contra hother
    rw [not_or, Bool.not_eq_true] at hother
    simp [isTokenChar_iff.2 hother] at hnot
  have htokens := tokens_word ⟨hne, fun e he => (hin e he).1⟩ (fun h => (hin _ h).2 rfl) hstop
  rw [hsplit] at htokens
  exact ⟨_, _, hsplit.symm, hne, htokens⟩

/-- Each character of a text is white space, a star or part of a word among the tokens. -/
theorem exists_word_of_mem {raw : List Char} {c : Char} (hc : c ∈ raw)
    (htoken : isTokenChar c = true) : ∃ w, Token.word w ∈ tokens raw ∧ c ∈ w := by
  obtain ⟨hspace, hstar⟩ := isTokenChar_iff.1 htoken
  -- A token is taken off at the front, so the text gets shorter.
  induction hn : raw.length using Nat.strongRecOn generalizing raw with
  | ind n ih =>
    subst hn
    cases raw with
    | nil => cases hc
    | cons d rest =>
      by_cases hdstar : d = '*'
      · subst hdstar
        have hrest := (List.mem_cons.1 hc).resolve_left hstar
        obtain ⟨w, hw, hmem⟩ := ih _ (Nat.lt_succ_self _) hrest rfl
        rw [tokens_star_cons]
        exact ⟨w, List.mem_cons_of_mem _ hw, hmem⟩
      by_cases hdspace : isSpace d = true
      · have hne : c ≠ d := by
          rintro rfl
          rw [hspace] at hdspace
          cases hdspace
        have hrest := (List.mem_cons.1 hc).resolve_left hne
        have htokens : tokens (d :: rest) = tokens rest :=
          tokens_spaces_append (s := [d]) (List.forall_mem_singleton.2 hdspace) rest
        rw [htokens]
        exact ih _ (Nat.lt_succ_self _) hrest rfl
      · obtain ⟨w, t, hsplit, hne, htokens⟩ :=
          exists_tokens_cons (isTokenChar_iff.2 ⟨by simpa using hdspace, hdstar⟩) rest
        rw [htokens]
        rw [hsplit, List.mem_append] at hc
        rcases hc with hc | hc
        · exact ⟨w, List.mem_cons_self, hc⟩
        · have hshorter : t.length < (d :: rest).length := by
            rw [hsplit, List.length_append]
            exact Nat.lt_add_of_pos_left (List.length_pos_of_ne_nil hne)
          obtain ⟨w', hw', hmem⟩ := ih _ hshorter hc rfl
          exact ⟨w', List.mem_cons_of_mem _ hw', hmem⟩

/-- A text with a character that is neither white space nor a star nor part of identifiers is no
declarator. -/
theorem parse?_eq_none_of_mem {raw : List Char} {c : Char} (hc : c ∈ raw)
    (htoken : isTokenChar c = true) (hident : isIdentChar c = false) :
    Declarator.parse? raw = none := by
  obtain ⟨w, hw, hmem⟩ := exists_word_of_mem hc htoken
  -- The word with the character is no mark, so it would be the name.
  have hnot : ∀ v : List Char, IsIdent v → w ≠ v := by
    rintro v hv rfl
    exact ne_of_isIdentChar (hv.chars c hmem) hident rfl
  have hmark : (Token.word w).isMark = false := by
    rw [Token.isMark, beq_false_of_ne (hnot _ (by decide)), beq_false_of_ne (hnot _ (by decide))]
    rfl
  have hname : Token.word w ∈ (tokens raw).dropWhile Token.isMark := by
    rw [← List.takeWhile_append_dropWhile (p := Token.isMark) (l := tokens raw),
      List.mem_append] at hw
    refine hw.resolve_left fun hmarks => ?_
    rw [List.all_eq_true.1 List.all_takeWhile _ hmarks] at hmark
    cases hmark
  rw [Declarator.parse?]
  split
  · rename_i text htext
    rw [htext, List.mem_singleton] at hname
    obtain rfl := Token.word.inj hname
    rw [if_neg fun h => hnot _ (isIdent_of_isIdentifier h) rfl]
  · rfl

/-! ### Brackets -/

/-- Whether a character opens a bracket. -/
def opensBracket (c : Char) : Bool :=
  c == '(' || c == '['

/-- Whether a character closes a bracket. -/
def closesBracket (c : Char) : Bool :=
  c == ')' || c == ']'

theorem closesBracket_of_opensBracket {c : Char} (h : opensBracket c = true) :
    closesBracket c = false := by
  simp only [opensBracket, Bool.or_eq_true, beq_iff_eq] at h
  rcases h with rfl | rfl <;> rfl

/-- How many brackets are open behind a text if `depth` are before it; nothing if one is closed that
is not open, or if a comma stands outside of all of them. -/
def depthAfter (depth : Nat) : List Char → Option Nat
  | [] => some depth
  | c :: cs =>
    if opensBracket c then depthAfter (depth + 1) cs
    else if closesBracket c then (if depth = 0 then none else depthAfter (depth - 1) cs)
    else if c = ',' ∧ depth = 0 then none
    else depthAfter depth cs

theorem depthAfter_append (depth : Nat) (s t : List Char) :
    depthAfter depth (s ++ t) = (depthAfter depth s).bind fun d => depthAfter d t := by
  induction s generalizing depth with
  | nil => rfl
  | cons c s ih =>
    simp only [List.cons_append, depthAfter, ih]
    split_ifs <;> rfl

/-- What is open behind a text is what is open before it, with the brackets that are opened in it
and without those that are closed. -/
theorem depthAfter_balance {depth d : Nat} {s : List Char} (hd : depthAfter depth s = some d) :
    d + s.countP closesBracket = depth + s.countP opensBracket := by
  induction s generalizing depth with
  | nil =>
    obtain rfl := Option.some.inj hd
    rfl
  | cons c s ih =>
    rw [depthAfter] at hd
    rw [List.countP_cons, List.countP_cons]
    split_ifs at hd with hopens hcloses hdepth hcomma
    · have hnot : closesBracket c = false := closesBracket_of_opensBracket hopens
      have hbalance := ih hd
      rw [hopens, hnot]
      simp only [if_true, Bool.false_eq_true, if_false]
      omega
    · -- A bracket can only be closed where one is open.
      have hbalance := ih hd
      rw [hcloses, Bool.eq_false_iff.2 hopens]
      simp only [if_true, Bool.false_eq_true, if_false]
      omega
    · rw [Bool.eq_false_iff.2 hcloses, Bool.eq_false_iff.2 hopens]
      exact ih hd

/-- A declarator with brackets: all that are opened are closed, and all commas lie inside. -/
@[mk_iff]
structure IsBracketed (text : List Char) : Prop where
  /-- The brackets are balanced, and no comma lies outside. -/
  closed : depthAfter 0 text = some 0
  /-- There is a bracket. -/
  bracket : text.any opensBracket = true
  /-- No semicolon stands in it. -/
  no_semicolon : ';' ∉ text

instance : DecidablePred IsBracketed := fun text => decidable_of_iff' _ (isBracketed_iff text)

/-- A bracket stands before each comma and another one behind it. -/
theorem IsBracketed.exists_brackets {s t : List Char} (h : IsBracketed (s ++ ',' :: t)) :
    (∃ c ∈ s, opensBracket c = true ∨ closesBracket c = true) ∧
      ∃ c ∈ t, opensBracket c = true ∨ closesBracket c = true := by
  obtain ⟨depth, hdepth, hrest⟩ : ∃ depth, depthAfter 0 s = some depth ∧
      depthAfter depth (',' :: t) = some 0 := by
    have hclosed := h.closed
    rw [depthAfter_append] at hclosed
    exact Option.bind_eq_some_iff.1 hclosed
  -- Some bracket is open at the comma.
  have hopen : depth ≠ 0 := by
    rintro rfl
    cases hrest
  have htail : depthAfter depth t = some 0 := by
    rwa [depthAfter, if_neg (by decide), if_neg (by decide), if_neg fun hcomma => hopen hcomma.2]
      at hrest
  constructor
  · -- It was opened before the comma.
    have hpos : 0 < s.countP opensBracket := by
      have hbalance := depthAfter_balance hdepth
      omega
    obtain ⟨c, hc, hopens⟩ := List.countP_pos_iff.1 hpos
    exact ⟨c, hc, .inl hopens⟩
  · -- It is closed behind the comma.
    have hpos : 0 < t.countP closesBracket := by
      have hbalance := depthAfter_balance htail
      omega
    obtain ⟨c, hc, hcloses⟩ := List.countP_pos_iff.1 hpos
    exact ⟨c, hc, .inr hcloses⟩

/-- A text with a bracket is no declarator. -/
theorem parse?_of_bracket {raw : List Char}
    (h : ∃ c ∈ raw, opensBracket c = true ∨ closesBracket c = true) :
    Declarator.parse? raw = none := by
  obtain ⟨c, hc, hbracket⟩ := h
  simp only [opensBracket, closesBracket, Bool.or_eq_true, beq_iff_eq] at hbracket
  rcases hbracket with (rfl | rfl) | (rfl | rfl) <;>
    exact parse?_eq_none_of_mem hc (by decide) (by decide)

/-! ### Between commas -/

/-- What stands between two commas of a text, cut at every comma. -/
def between (text : List Char) : List (List Char) :=
  (text.splitOn ',').tail.dropLast

/-- Of a declarator with brackets, nothing but what stands between two commas can be read as a
declarator. -/
theorem IsBracketed.pieces_eq {text : List Char} (h : IsBracketed text) :
    pieces text = (between text).filterMap Declarator.parse? := by
  obtain ⟨first, rest, hsplit⟩ := List.exists_cons_of_ne_nil (List.splitOn_ne_nil ',' text)
  have htext : List.intercalate [','] (text.splitOn ',') = text := List.intercalate_splitOn ','
  rw [hsplit, intercalate_cons] at htext
  rw [pieces, between, hsplit, List.tail_cons, List.filterMap_cons]
  rcases List.eq_nil_or_concat rest with rfl | ⟨middle, last, rfl⟩
  · have hfirst : Declarator.parse? first = none := by
      rw [List.flatMap_nil, List.append_nil] at htext
      rw [htext]
      obtain ⟨c, hc, hopens⟩ := List.any_eq_true.1 h.bracket
      exact parse?_of_bracket ⟨c, hc, .inl hopens⟩
    rw [hfirst]
    rfl
  · -- The first piece ends at a comma, and the last one begins behind one.
    rw [List.concat_eq_append] at htext ⊢
    have hlast : first ++ middle.flatMap ([','] ++ ·) ++ ',' :: last = text := by
      rw [← htext, List.flatMap_append, List.flatMap_singleton, List.append_assoc]
      rfl
    have hfirst : ∃ t, first ++ ',' :: t = text := by
      rw [← htext]
      cases middle with
      | nil => exact ⟨last, by simp⟩
      | cons piece middle =>
        exact ⟨piece ++ (middle ++ [last]).flatMap ([','] ++ ·), by simp⟩
    obtain ⟨t, ht⟩ := hfirst
    rw [parse?_of_bracket (IsBracketed.exists_brackets (ht ▸ h)).1, List.filterMap_append,
      List.filterMap_cons, parse?_of_bracket (IsBracketed.exists_brackets (hlast ▸ h)).2,
      List.filterMap_nil, List.append_nil, List.dropLast_concat]

/-- Between the commas of a function stand all parameters but the first and the last. -/
theorem between_function {front behind : List Char} {parameters : List (List Char)}
    (hfront : ',' ∉ front) (hbehind : ',' ∉ behind) (hparameters : ∀ p ∈ parameters, ',' ∉ p) :
    between (front ++ '(' :: (List.intercalate [','] parameters ++ ')' :: behind)) =
      parameters.tail.dropLast := by
  have hopening : ',' ∉ front ++ ['('] := by simpa using hfront
  have hclosing : ',' ∉ ')' :: behind := by simpa using hbehind
  have htext : front ++ '(' :: (List.intercalate [','] parameters ++ ')' :: behind) =
      front ++ ['('] ++ (List.intercalate [','] parameters ++ ')' :: behind) := by simp
  rw [between, htext, splitOn_append_of_not_mem hopening, List.tail_modifyHead]
  obtain ⟨before, last, hsplit, happend⟩ :=
    exists_splitOn_append ',' (List.intercalate [','] parameters)
  rw [happend, List.splitOn_eq_singleton hclosing, List.modifyHead_cons]
  cases parameters with
  | nil =>
    obtain ⟨rfl, -⟩ : before = [] ∧ last = [] := by
      simpa [List.intercalate, List.append_eq_singleton_iff, eq_comm] using hsplit
    rfl
  | cons p ps =>
    rw [List.splitOn_intercalate ',' hparameters (List.cons_ne_nil _ _)] at hsplit
    rw [hsplit]
    cases before with
    | nil => rfl
    | cons q before => simp

/-! ### Lists of entries -/

/-- An entry of a list of declarators. -/
inductive Entry where
  /-- A name with its marks. -/
  | plain (name : AliasText)
  /-- An array, a function or a pointer to one. -/
  | bracketed (text : List Char)

namespace Entry

/-- The text of an entry. -/
def text : Entry → List Char
  | plain a => a.text
  | bracketed t => t

/-- An entry is written as it should be. -/
def Proper : Entry → Prop
  | plain a => a.Proper
  | bracketed t => IsBracketed t

instance : DecidablePred Proper
  | plain a => inferInstanceAs (Decidable a.Proper)
  | bracketed t => inferInstanceAs (Decidable (IsBracketed t))

/-- The name an entry declares, if it is plain. -/
def named : Entry → List Declarator
  | plain a => [a.declarator]
  | bracketed _ => []

/-- What is read between the commas of an entry with brackets. -/
def misread : Entry → List Declarator
  | plain _ => []
  | bracketed t => (between t).filterMap Declarator.parse?

variable {e : Entry}

theorem Proper.no_semicolon (h : e.Proper) : ';' ∉ e.text := by
  cases e with
  | plain a =>
    intro hmem
    rcases AliasText.Proper.chars h hmem with hc | hc | hc <;> cases hc
  | bracketed t => exact IsBracketed.no_semicolon h

/-- An entry is read as the name it declares or as what stands between its commas. -/
theorem Proper.pieces_text (h : e.Proper) : pieces e.text = e.named ++ e.misread := by
  cases e with
  | plain a =>
    have hcomma : ',' ∉ a.text := by
      intro hmem
      rcases AliasText.Proper.chars h hmem with hc | hc | hc <;> cases hc
    rw [text, pieces, List.splitOn_eq_singleton hcomma, List.filterMap_cons,
      AliasText.Proper.parse?_text h]
    rfl
  | bracketed t => exact IsBracketed.pieces_eq h

end Entry

/-- The pieces of two texts with a comma between them are those of both. -/
theorem pieces_append_comma (s t : List Char) : pieces (s ++ ',' :: t) = pieces s ++ pieces t := by
  obtain ⟨front, last, hsplit, happend⟩ := exists_splitOn_append ',' s
  rw [pieces, happend, List.splitOn_cons_eq_if_modifyHead, if_pos (by simp), List.modifyHead_cons,
    List.append_nil, pieces, hsplit, pieces, List.filterMap_append, List.filterMap_append,
    List.filterMap_cons, List.filterMap_cons, List.filterMap_nil]
  cases Declarator.parse? last <;> simp

variable {entries : List Entry}

theorem pieces_entries (h : ∀ e ∈ entries, e.Proper) :
    pieces (List.intercalate [','] (entries.map Entry.text)) =
      entries.flatMap fun e => e.named ++ e.misread := by
  induction entries with
  | nil => simp [pieces, List.intercalate, Declarator.parse?]
  | cons e entries ih =>
    obtain ⟨he, hentries⟩ := List.forall_mem_cons.1 h
    rw [List.flatMap_cons, ← he.pieces_text, ← ih hentries]
    cases entries with
    | nil => simp [pieces, List.intercalate, Declarator.parse?]
    | cons e' entries =>
      rw [List.map_cons, List.map_cons, List.intercalate_cons_cons, List.append_assoc]
      exact pieces_append_comma _ _

theorem not_mem_intercalate (h : ∀ e ∈ entries, e.Proper) :
    ';' ∉ List.intercalate [','] (entries.map Entry.text) := by
  cases entries with
  | nil => simp [List.intercalate]
  | cons e entries =>
    obtain ⟨he, hentries⟩ := List.forall_mem_cons.1 h
    rw [List.map_cons, intercalate_cons, List.mem_append, not_or]
    refine ⟨he.no_semicolon, fun hmem => ?_⟩
    obtain ⟨s, hs, hc⟩ := List.mem_flatMap.1 hmem
    obtain ⟨e', he', rfl⟩ := List.mem_map.1 hs
    exact (hentries e' he').no_semicolon ((List.mem_cons.1 hc).resolve_left (by decide))

/-- Nothing is read but names exactly if nothing is misread in any entry. -/
theorem flatMap_named_iff :
    (entries.flatMap fun e => e.named ++ e.misread) = entries.flatMap Entry.named ↔
      ∀ e ∈ entries, e.misread = [] := by
  constructor
  · intro h
    have hlength : ∀ es : List Entry, (es.flatMap Entry.named).length ≤
        (es.flatMap fun e => e.named ++ e.misread).length := by
      intro es
      induction es with
      | nil => exact Nat.le_refl _
      | cons e es ih =>
        simp only [List.flatMap_cons, List.length_append]
        omega
    -- What is misread in one entry is not made up for in another.
    induction entries with
    | nil => simp
    | cons e entries ih =>
      rw [List.flatMap_cons, List.flatMap_cons, List.append_assoc, List.append_cancel_left_eq] at h
      have hnone : e.misread = [] := by
        have hsum := congrArg List.length h
        rw [List.length_append] at hsum
        have hle := hlength entries
        exact List.eq_nil_of_length_eq_zero (by omega)
      rw [hnone, List.nil_append] at h
      exact List.forall_mem_cons.2 ⟨hnone, ih h⟩
  · intro h
    induction entries with
    | nil => rfl
    | cons e entries ih =>
      obtain ⟨he, hentries⟩ := List.forall_mem_cons.1 h
      rw [List.flatMap_cons, List.flatMap_cons, he, List.append_nil, ih hentries]

/-- Of a list of names and of declarators with brackets, all names are read in order, each as a
pointer if a star stands before it; but what stands between two commas of a declarator with brackets
is read as well where it has the form of a name. So nothing but the names is read exactly if no such
part has. -/
theorem parseList_entries (h : ∀ e ∈ entries, e.Proper) {tail : List Char}
    (htail : tail = [] ∨ tail = [';']) :
    let read := parseList (List.intercalate [','] (entries.map Entry.text) ++ tail)
    read = entries.flatMap (fun e => e.named ++ e.misread) ∧
      (read = entries.flatMap Entry.named ↔ ∀ e ∈ entries, e.misread = []) := by
  have hread := (parseList_append (not_mem_intercalate h) htail).trans (pieces_entries h)
  dsimp only
  rw [hread]
  exact ⟨rfl, flatMap_named_iff⟩

/-- A name, an array, a pointer to a function of one parameter, a name for a pointer, and a pointer
to a function of three parameters. -/
def declaredEntries : List Entry :=
  [.plain ⟨[' '], [], "Curve_t", []⟩, .bracketed " pair[2]".toList,
    .bracketed " (*hook)(struct Curve *)".toList,
    .plain ⟨[' '], [(.star, []), (.const, [' '])], "CurveRef", []⟩,
    .bracketed " *(*make)(void *, size_t, char)".toList]

/-- The names are read, and so is the parameter in the middle. -/
theorem parseList_declaredEntries :
    (∀ e ∈ declaredEntries, e.Proper) ∧
    parseList (" Curve_t, pair[2], (*hook)(struct Curve *), *const CurveRef," ++
      " *(*make)(void *, size_t, char);").toList =
        [⟨"Curve_t", false⟩, ⟨"CurveRef", true⟩, ⟨"size_t", false⟩] := by
  have hproper : ∀ e ∈ declaredEntries, e.Proper := by decide +kernel
  have htext : (" Curve_t, pair[2], (*hook)(struct Curve *), *const CurveRef," ++
      " *(*make)(void *, size_t, char);").toList =
        List.intercalate [','] (declaredEntries.map Entry.text) ++ [';'] := by decide +kernel
  have hread : (declaredEntries.flatMap fun e => e.named ++ e.misread) =
      [⟨"Curve_t", false⟩, ⟨"CurveRef", true⟩, ⟨"size_t", false⟩] := by decide +kernel
  refine ⟨hproper, ?_⟩
  rw [htext, (parseList_entries hproper (.inr rfl)).1, hread]

/-- A struct that declares a pointer to a function of three parameters. -/
def makerText : List Char :=
  "typedef struct S \x7b int x; \x7d *(*fn)(void *, size_t, char);\n".toList

/-- Behind the block stands one declarator, which names no alias. Yet its middle parameter is
registered as one. -/
theorem scan_registers_parameter :
    IsBracketed " *(*fn)(void *, size_t, char)".toList ∧
      (Scan.scan 4096 Catalog.empty (Path.ofString "a.h") makerText).1.aliases.get? "size_t" =
        some ⟨"S", false, Path.ofString "a.h"⟩ := by
  decide +kernel

end StructUnfold.Outline
