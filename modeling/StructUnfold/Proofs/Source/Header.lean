import StructUnfold.Proofs.Text.Identifier
import StructUnfold.Proofs.Text.Offset
import StructUnfold.Proofs.Text.Search
import StructUnfold.Source.Header

/-!
# Where headers stand

`Header.all` cuts a text into lines and looks at each of them; `Header.nameAt?` goes to an offset
and looks back to the start of the line. Both see the same: the text between a line start and the
first brace behind it.

* `Header.StandsAt text brace header`: the header `header` ends in a brace at offset `brace`.
* `mem_all_iff`: the headers of a text are those that stand somewhere in it.
* `nameAt?_eq_some_iff`: the name at an offset is that of the header that stands there.
* `parse?_struct`, `parse?_typedef`: the header of a struct without a base.
* `no_space_declared`: no white space stands in what a header declares.
-/

namespace StructUnfold.Header

/-- A text after which a line starts: it is empty or ends in a line feed. -/
def EndsLine (before : List Char) : Prop :=
  ∀ c, before.getLast? = some c → c = '\n'

@[simp] theorem endsLine_nil : EndsLine [] := by
  simp [EndsLine]

@[simp] theorem endsLine_append_cons_iff (front rest : List Char) :
    EndsLine (front ++ '\n' :: rest) ↔ EndsLine rest := by
  cases rest with
  | nil => simp [EndsLine]
  | cons c cs => simp [EndsLine, List.getLast?_cons_cons]

/-- A text that a line feed and a brace do not occur in. -/
def IsHead (head : List Char) : Prop :=
  '\n' ∉ head ∧ '{' ∉ head

/-- A head stands in a text, behind the text `before`: it begins where a line starts and the first
brace of the line follows it. -/
def HeadAt (text before head : List Char) : Prop :=
  EndsLine before ∧ IsHead head ∧ ∃ after, text = before ++ (head ++ '{' :: after)

/-- A header stands in a text, with its brace at an offset. -/
def StandsAt (text : List Char) (brace : Nat) (header : Header) : Prop :=
  ∃ before head, HeadAt text before head ∧ brace = Text.byteSize (before ++ head) ∧
    parse? head = some header

/-- A line has a header if its text before the first brace parses. -/
theorem ofLine?_eq_some_iff {line head : List Char} {header : Header} :
    ofLine? line = some (head, header) ↔
      ('{' ∉ head ∧ ∃ after, line = head ++ '{' :: after) ∧ parse? head = some header := by
  have hsplit : line.takeWhile (· != '{') ++ line.dropWhile (· != '{') = line :=
    List.takeWhile_append_dropWhile
  constructor
  · intro h
    simp only [ofLine?] at h
    split at h
    · rename_i hlt
      obtain ⟨header', hparse, heq⟩ := Option.map_eq_some_iff.1 h
      obtain ⟨rfl, rfl⟩ := Prod.mk.inj heq
      -- What is parsed ends where the line has its first brace.
      have hhead : '{' ∉ line.takeWhile (· != '{') := by
        intro hmem
        simpa using List.all_eq_true.1 (List.all_takeWhile (p := (· != '{')) (l := line)) _ hmem
      cases hdrop : line.dropWhile (· != '{') with
      | nil =>
        rw [hdrop, List.append_nil] at hsplit
        rw [hsplit] at hlt
        exact absurd hlt (Nat.lt_irrefl _)
      | cons c after =>
        have hc := List.head?_dropWhile_not (· != '{') line
        rw [hdrop] at hc hsplit
        obtain rfl : c = '{' := by simpa using hc
        exact ⟨⟨hhead, after, hsplit.symm⟩, hparse⟩
    · simp at h
  · rintro ⟨⟨hhead, after, rfl⟩, hparse⟩
    have htake : (head ++ '{' :: after).takeWhile (· != '{') = head := by
      rw [List.takeWhile_append_of_pos]
      · simp
      · intro c hc
        have hne : c ≠ '{' := fun h => hhead (h ▸ hc)
        simpa using hne
    simp [ofLine?, htake, hparse]

/-- A text before the first occurrence of a character is determined. -/
theorem append_cons_inj_of_not_mem {x : Char} {s t u v : List Char} (hs : x ∉ s) (ht : x ∉ t)
    (h : s ++ x :: u = t ++ x :: v) : s = t ∧ u = v := by
  induction s generalizing t with
  | nil =>
    cases t with
    | nil => simpa using h
    | cons c t =>
      obtain ⟨rfl, -⟩ := List.cons_eq_cons.1 h
      simp at ht
  | cons c s ih =>
    cases t with
    | nil =>
      obtain ⟨rfl, -⟩ := List.cons_eq_cons.1 h
      simp at hs
    | cons d t =>
      obtain ⟨rfl, htail⟩ := List.cons_eq_cons.1 h
      obtain ⟨rfl, rfl⟩ := ih (fun h => hs (List.mem_cons_of_mem _ h))
        (fun h => ht (List.mem_cons_of_mem _ h)) htail
      exact ⟨rfl, rfl⟩

/-- In a text of one line a head stands at the start or not at all. -/
theorem headAt_line_iff {line before head : List Char} (hline : '\n' ∉ line) :
    HeadAt line before head ↔ before = [] ∧ '{' ∉ head ∧ ∃ after, line = head ++ '{' :: after := by
  constructor
  · rintro ⟨hends, hhead, after, rfl⟩
    rcases List.eq_nil_or_concat before with rfl | ⟨front, c, rfl⟩
    · exact ⟨rfl, hhead.2, after, rfl⟩
    · obtain rfl : c = '\n' := hends c (by simp)
      simp at hline
  · rintro ⟨rfl, hbrace, after, rfl⟩
    exact ⟨endsLine_nil, ⟨fun h => hline (List.mem_append_left _ h), hbrace⟩, after, rfl⟩

/-- In a text of several lines a head stands in the first line or in the text behind it. -/
theorem headAt_append_cons_iff {line tail before head : List Char} (hline : '\n' ∉ line) :
    HeadAt (line ++ '\n' :: tail) before head ↔ HeadAt line before head ∨
      ∃ before', before = line ++ '\n' :: before' ∧ HeadAt tail before' head := by
  constructor
  · rintro ⟨hends, hhead, after, heq⟩
    rcases List.eq_nil_or_concat before with rfl | ⟨front, c, rfl⟩
    · -- The head has no line feed, so it and its brace lie before the first one.
      refine .inl ⟨endsLine_nil, hhead, ?_⟩
      rw [List.nil_append] at heq
      rcases List.append_eq_append_iff.1 heq with ⟨as, has, hbs⟩ | ⟨as, has, hbs⟩
      · cases as with
        | nil => simp at hbs
        | cons c as =>
          obtain ⟨rfl, -⟩ := List.cons_eq_cons.1 hbs
          exact absurd (by simp [has]) hhead.1
      · cases as with
        | nil => simp at hbs
        | cons c as =>
          obtain ⟨rfl, -⟩ := List.cons_eq_cons.1 hbs
          exact ⟨as, has⟩
    · -- A line feed stands before the head, so the first one does.
      rw [List.concat_eq_append] at hends heq ⊢
      obtain rfl : c = '\n' := hends c (by simp)
      have hmem : '\n' ∈ front ++ ['\n'] := List.mem_concat_self
      obtain ⟨first, before, hbefore, hfirst⟩ := List.eq_append_cons_of_mem hmem
      rw [hbefore] at heq hends ⊢
      rw [List.append_assoc, List.cons_append] at heq
      obtain ⟨rfl, htail⟩ := append_cons_inj_of_not_mem hline hfirst heq
      exact .inr ⟨before, rfl, by simpa using hends, hhead, after, htail⟩
  · rintro (⟨hends, hhead, after, rfl⟩ | ⟨before', rfl, hends, hhead, after, rfl⟩)
    · exact ⟨hends, hhead, after ++ '\n' :: tail, by simp⟩
    · exact ⟨by simpa using hends, hhead, after, by simp⟩

/-- The headers of a list of lines are that of the first line and those of the others. -/
theorem mem_ofLinesFrom_cons_iff {pos brace : Nat} {header : Header} {line : List Char}
    {lines : List (List Char)} :
    (brace, header) ∈ ofLinesFrom pos (line :: lines) ↔
      (∃ head, ofLine? line = some (head, header) ∧ brace = pos + Text.byteSize head) ∨
        (brace, header) ∈ ofLinesFrom (pos + Text.byteSize line + 1) lines := by
  rw [ofLinesFrom]
  cases hline : ofLine? line with
  | none => simp
  | some found =>
    obtain ⟨head, header'⟩ := found
    simp only [List.mem_cons, Prod.mk.injEq, Option.some.injEq]
    refine or_congr_left ⟨?_, ?_⟩
    · rintro ⟨rfl, rfl⟩
      exact ⟨head, ⟨rfl, rfl⟩, rfl⟩
    · rintro ⟨_, ⟨rfl, rfl⟩, rfl⟩
      exact ⟨rfl, rfl⟩

/-- The headers of a list of lines are those that stand in the text of the lines. -/
theorem mem_ofLinesFrom_iff {lines : List (List Char)} (hlines : ∀ line ∈ lines, '\n' ∉ line)
    (pos brace : Nat) (header : Header) :
    (brace, header) ∈ ofLinesFrom pos lines ↔
      ∃ before head, HeadAt (List.intercalate ['\n'] lines) before head ∧
        brace = pos + Text.byteSize (before ++ head) ∧ parse? head = some header := by
  induction lines generalizing pos with
  | nil => simp [ofLinesFrom, HeadAt]
  | cons line lines ih =>
    obtain ⟨hline, hrest⟩ := List.forall_mem_cons.1 hlines
    have hfirst : (∃ head, ofLine? line = some (head, header) ∧ brace = pos + Text.byteSize head) ↔
        ∃ before head, HeadAt line before head ∧
          brace = pos + Text.byteSize (before ++ head) ∧ parse? head = some header := by
      simp only [ofLine?_eq_some_iff, headAt_line_iff hline]
      constructor
      · rintro ⟨head, ⟨hhead, hparse⟩, hbrace⟩
        exact ⟨[], head, ⟨rfl, hhead⟩, hbrace, hparse⟩
      · rintro ⟨_, head, ⟨rfl, hhead⟩, hbrace, hparse⟩
        exact ⟨head, ⟨hhead, hparse⟩, hbrace⟩
    rw [mem_ofLinesFrom_cons_iff, ih hrest, hfirst]
    cases lines with
    | nil => simp [HeadAt]
    | cons line' lines =>
      -- The other lines begin behind the first one and its line feed, and so do their heads.
      rw [List.intercalate_cons_cons, List.append_assoc, List.singleton_append]
      simp only [headAt_append_cons_iff hline]
      constructor
      · rintro (⟨before, head, hhead, hbrace⟩ | ⟨before, head, hhead, rfl, hparse⟩)
        · exact ⟨before, head, .inl hhead, hbrace⟩
        · refine ⟨_, head, .inr ⟨before, rfl, hhead⟩, ?_, hparse⟩
          simp only [List.append_assoc, List.cons_append, Text.byteSize_append,
            Text.byteSize_newline_cons]
          ac_rfl
      · rintro ⟨before, head, hhead | ⟨before, rfl, hhead⟩, rfl, hparse⟩
        · exact .inl ⟨before, head, hhead, rfl, hparse⟩
        · refine .inr ⟨before, head, hhead, ?_, hparse⟩
          simp only [List.append_assoc, List.cons_append, Text.byteSize_append,
            Text.byteSize_newline_cons]
          ac_rfl

/-- A line of a text holds no line feed. -/
theorem not_mem_of_mem_splitLines {text line : List Char} (h : line ∈ Text.splitLines text) :
    '\n' ∉ line := by
  induction text generalizing line with
  | nil =>
    obtain rfl : line = [] := by simpa [Text.splitLines] using h
    simp
  | cons c cs ih =>
    rw [Text.splitLines, List.splitOn_cons_eq_if_modifyHead] at h
    -- The first character begins a new line, or it is put before the first line of the rest.
    split at h
    · rcases List.mem_cons.1 h with rfl | h
      · simp
      · exact ih h
    · rename_i hc
      obtain ⟨first, rest, hsplit⟩ := List.exists_cons_of_ne_nil (List.splitOn_ne_nil '\n' cs)
      rw [hsplit, List.modifyHead_cons] at h
      rcases List.mem_cons.1 h with rfl | h
      · have hfirst : '\n' ∉ first := ih (by rw [Text.splitLines, hsplit]; simp)
        simp only [List.mem_cons, not_or]
        exact ⟨fun h => hc (by simp [← h]), hfirst⟩
      · exact ih (by rw [Text.splitLines, hsplit]; simp [h])

/-- The headers of a text are those that stand in it. -/
theorem mem_all_iff {text : List Char} {brace : Nat} {header : Header} :
    (brace, header) ∈ all text ↔ StandsAt text brace header := by
  rw [all, mem_ofLinesFrom_iff fun _ h => not_mem_of_mem_splitLines h, Text.splitLines,
    List.intercalate_splitOn]
  simp only [Nat.zero_add, StandsAt]

/-- Going back from an offset finds the head that stands before the brace there. -/
theorem headAt_iff_takeBytesOnto? {text : List Char} {brace : Nat} {head : List Char} :
    (∃ before, HeadAt text before head ∧ brace = Text.byteSize (before ++ head)) ↔
      ∃ back, Text.takeBytesOnto? [] (brace + 1) text = some ('{' :: back) ∧
        (back.takeWhile (· != '\n')).reverse = head ∧ '{' ∉ head := by
  simp only [Text.takeBytesOnto?_eq_some_iff, Text.byteSize_brace_cons, Nat.add_right_cancel_iff,
    List.reverse_cons, List.append_assoc, List.singleton_append]
  constructor
  · rintro ⟨before, ⟨hends, hhead, after, rfl⟩, rfl⟩
    refine ⟨(before ++ head).reverse, ⟨after, by simp, Text.byteSize_reverse _⟩, ?_, hhead.2⟩
    -- Read backwards, the head goes on to the line feed that ends the line before.
    have hline : ∀ c ∈ head.reverse, (c != '\n') = true := by
      intro c hc
      have hne : c ≠ '\n' := fun h => hhead.1 (h ▸ List.mem_reverse.1 hc)
      simpa using hne
    have hstop : before.reverse.takeWhile (· != '\n') = [] := by
      cases hb : before.reverse with
      | nil => rfl
      | cons c cs =>
        have hc : before.getLast? = some c := by rw [← List.head?_reverse, hb, List.head?_cons]
        simp [hends c hc]
    rw [List.reverse_append, List.takeWhile_append_of_pos hline, hstop, List.append_nil,
      List.reverse_reverse]
  · rintro ⟨back, ⟨after, rfl, hbrace⟩, rfl, hhead⟩
    have hsplit : (back.dropWhile (· != '\n')).reverse ++ (back.takeWhile (· != '\n')).reverse =
        back.reverse := by
      rw [← List.reverse_append, List.takeWhile_append_dropWhile]
    -- What is left behind the head ends in a line feed, or nothing is left.
    refine ⟨(back.dropWhile (· != '\n')).reverse, ⟨?_, ⟨?_, hhead⟩, after, ?_⟩, ?_⟩
    · intro c hc
      rw [List.getLast?_reverse] at hc
      simpa using Text.not_of_head?_dropWhile hc
    · intro hmem
      have := List.all_eq_true.1 (List.all_takeWhile (p := (· != '\n')) (l := back)) '\n'
        (List.mem_reverse.1 hmem)
      simp at this
    · rw [← List.append_assoc, hsplit]
    · rw [hsplit, Text.byteSize_reverse, hbrace]

/-- The name at an offset is that of the header that stands there. -/
theorem nameAt?_eq_some_iff {text : List Char} {brace : Nat} {name : List Char} :
    nameAt? text brace = some name ↔ ∃ header, StandsAt text brace header ∧ header.name = name := by
  -- The line is read backwards from the brace, up to the line feed before it.
  have hback : nameAt? text brace = some name ↔
      ∃ head, (∃ back, Text.takeBytesOnto? [] (brace + 1) text = some ('{' :: back) ∧
        (back.takeWhile (· != '\n')).reverse = head ∧ '{' ∉ head) ∧
          (parse? head).map Header.name = some name := by
    rw [nameAt?]
    split
    · rename_i back hback
      simp only [hback, Option.some.injEq, List.cons.injEq, true_and, and_assoc, exists_eq_left']
      split
      · simp_all
      · simp_all
    · rename_i hnone
      simp only [reduceCtorEq, false_iff, not_exists, not_and]
      rintro head ⟨back, hback, -⟩
      exact absurd hback (hnone back)
  rw [hback]
  simp only [← headAt_iff_takeBytesOnto?, Option.map_eq_some_iff, StandsAt]
  constructor
  · rintro ⟨head, ⟨before, hhead, hbrace⟩, header, hparse, rfl⟩
    exact ⟨header, ⟨before, head, hhead, hbrace, hparse⟩, rfl⟩
  · rintro ⟨header, ⟨before, head, hhead, hbrace, hparse⟩, rfl⟩
    exact ⟨head, ⟨before, hhead, hbrace⟩, header, hparse, rfl⟩

/-! ### Headers without a base -/

open Text

theorem isNameChar_of_isIdentChar {c : Char} (h : isIdentChar c = true) : isNameChar c = true := by
  have hspace := isSpace_eq_false_of_isIdentChar h
  have hne : ∀ d, isIdentChar d = false → (c != d) = true := fun d hd =>
    bne_iff_ne.2 (ne_of_isIdentChar h hd)
  rw [isNameChar, hspace, hne ':' (by decide), hne '{' (by decide), hne ';' (by decide),
    hne '(' (by decide), hne ')' (by decide), hne ',' (by decide), hne '*' (by decide)]
  rfl

/-- An identifier between blanks is a name without a base. -/
theorem nameAndBase?_ident {name : List Char} (hname : IsIdent name) :
    nameAndBase? (' ' :: (name ++ [' '])) = some (name, none) := by
  have hchars : ∀ c ∈ name, isNameChar c = true := fun c hc =>
    isNameChar_of_isIdentChar (hname.chars c hc)
  have hdrop : (' ' :: (name ++ [' '])).dropWhile isBlank = name ++ [' '] := by
    obtain ⟨c, cs, rfl⟩ := List.exists_cons_of_ne_nil hname.ne_nil
    have hc := isBlank_eq_false_of_isIdentChar (hname.chars c List.mem_cons_self)
    rw [List.dropWhile_cons_of_pos (by decide), List.cons_append,
      List.dropWhile_cons_of_neg (by simp [hc])]
  have htake : (name ++ [' ']).takeWhile isNameChar = name := by
    rw [List.takeWhile_append_of_pos hchars, List.takeWhile_cons_of_neg (by decide),
      List.append_nil]
  have hrest : (name ++ [' ']).dropWhile isNameChar = [' '] := by
    rw [List.dropWhile_append_of_pos hchars]
    exact List.dropWhile_cons_of_neg (by decide)
  rw [nameAndBase?, hdrop, htake, hrest]
  rfl

theorem fromWords?_struct {name : List Char} (hname : IsIdent name) :
    fromWords? false ("struct".toList ++ ' ' :: (name ++ [' '])) = some (name, none) := by
  have hkeyword : fromKeyword? ("struct".toList ++ ' ' :: (name ++ [' '])) = some (name, none) := by
    rw [fromKeyword?, after?_append]
    exact nameAndBase?_ident hname
  revert hkeyword
  show fromKeyword? ('s' :: _) = _ → fromWords? false ('s' :: _) = _
  intro hkeyword
  rw [fromWords?, if_neg (by decide), if_neg (by decide), hkeyword]

/-- The header of a struct. -/
theorem parse?_struct {name : List Char} (hname : IsIdent name) :
    parse? ("struct ".toList ++ name ++ [' ']) = some ⟨false, name, none⟩ := by
  have htext : "struct ".toList ++ name ++ [' '] = "struct".toList ++ ' ' :: (name ++ [' ']) := by
    simp
  rw [parse?, htext, fromWords?_struct hname]
  rfl

/-- The header of a struct with aliases behind its body. -/
theorem parse?_typedef {name : List Char} (hname : IsIdent name) :
    parse? ("typedef ".toList ++ "struct ".toList ++ name ++ [' ']) = some ⟨true, name, none⟩ := by
  have htext : "typedef ".toList ++ "struct ".toList ++ name ++ [' '] =
      "typedef ".toList ++ ("struct".toList ++ ' ' :: (name ++ [' '])) := by
    simp
  -- The word before the keyword is passed over.
  have hskip : fromWords? false ("typedef ".toList ++ ("struct".toList ++ ' ' :: (name ++ [' ']))) =
      fromWords? false ("struct".toList ++ ' ' :: (name ++ [' '])) := rfl
  rw [parse?, htext, hskip, fromWords?_struct hname]
  rfl

/-! ### The words in a header -/

/-- What is taken for a name consists of characters that may occur in one. -/
theorem isNameChar_of_nameAndBase? {s : List Char} {found : List Char × Option (List Char)}
    (h : nameAndBase? s = some found) : ∀ c ∈ found.1, isNameChar c = true := by
  have htaken : ∀ c ∈ (s.dropWhile isBlank).takeWhile isNameChar, isNameChar c = true :=
    fun _ hc => List.all_eq_true.1 List.all_takeWhile _ hc
  rw [nameAndBase?] at h
  split at h
  · obtain rfl := Option.some.inj h
    exact htaken
  · split at h
    · cases h
    · obtain rfl := Option.some.inj h
      exact htaken
  · cases h

theorem isNameChar_of_fromKeyword? {s : List Char} {found : List Char × Option (List Char)}
    (h : fromKeyword? s = some found) : ∀ c ∈ found.1, isNameChar c = true := by
  rw [fromKeyword?] at h
  split at h
  · cases h
  · split at h
    · cases h
    · exact isNameChar_of_nameAndBase? h

theorem isNameChar_of_fromWords? {inWord : Bool} {s : List Char}
    {found : List Char × Option (List Char)} (h : fromWords? inWord s = some found) :
    ∀ c ∈ found.1, isNameChar c = true := by
  induction s generalizing inWord with
  | nil => cases h
  | cons c s ih =>
    rw [fromWords?] at h
    split at h
    · exact ih h
    · split at h
      · split at h
        · exact ih h
        · cases h
      · split at h
        · rename_i hkeyword
          obtain rfl := Option.some.inj h
          exact isNameChar_of_fromKeyword? hkeyword
        · split at h
          · exact ih h
          · cases h

/-- No white space stands in the name of a header. -/
theorem StandsAt.no_space {text : List Char} {brace : Nat} {header : Header}
    (h : StandsAt text brace header) : ∀ c ∈ header.name, isSpace c = false := by
  obtain ⟨-, head, -, -, hparse⟩ := h
  obtain ⟨found, hfound, rfl⟩ := Option.map_eq_some_iff.1 hparse
  intro c hc
  have hchar := isNameChar_of_fromWords? hfound c hc
  rw [isNameChar] at hchar
  cases hspace : isSpace c with
  | false => rfl
  | true =>
    rw [hspace] at hchar
    cases hchar

/-- The name that is declared holds no white space, be it qualified or not, and the name of the base
is a word. -/
theorem no_space_declared {header : Header} (h : ∀ c ∈ header.name, isSpace c = false) :
    (∀ c ∈ header.declared.name.toList, isSpace c = false) ∧
      ∀ base, header.declared.base = some base → IsWord base.toList := by
  rw [declared]
  dsimp only
  split
  · rename_i rest _
    obtain ⟨w, ws, hw, -, hwords⟩ := exists_words_append rest
    -- A qualified name is the colon with the first word behind it.
    have hfirst : words (':' :: rest) = (':' :: w) :: ws :=
      hwords [':'] ⟨List.cons_ne_nil _ _, List.forall_mem_cons.2 ⟨by decide, hw⟩⟩
    refine ⟨fun c hc => ?_, nofun⟩
    rw [String.toList_ofList, hfirst, List.head?_cons, Option.getD_some] at hc
    rcases List.mem_append.1 hc with hc | hc
    · exact h c hc
    · rcases List.mem_cons.1 hc with rfl | hc
      · decide
      · rcases List.mem_cons.1 hc with rfl | hc
        · decide
        · exact hw c hc
  · refine ⟨by rwa [String.toList_ofList], fun base hbase => ?_⟩
    obtain ⟨word, hword, rfl⟩ := Option.map_eq_some_iff.1 hbase
    obtain ⟨b, -, hlast⟩ := Option.bind_eq_some_iff.1 hword
    rw [String.toList_ofList]
    exact isWord_of_mem_words (List.mem_of_getLast? hlast)

end StructUnfold.Header
