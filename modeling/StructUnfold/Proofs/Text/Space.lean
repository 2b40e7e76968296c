import StructUnfold.Text.Space

/-!
# Words and white space

A word is a text without white space that is not empty. Words that are joined by spaces are read
back one by one, and trimming takes nothing from them.

* `IsWord`: a text is a word.
* `spaced`: words, each behind a space.
* `words_joinWords`, `trim_joinWords`: joined words are read back and keep their ends.
-/

namespace StructUnfold.Text

/-! ### Ends of a text -/

/-- The last character is dropped if it lies in the class. -/
theorem dropEndWhile_concat (p : Char → Bool) (s : List Char) (c : Char) :
    dropEndWhile p (s ++ [c]) = if p c then dropEndWhile p s else s ++ [c] := by
  rw [dropEndWhile, List.reverse_append, List.reverse_singleton, List.singleton_append,
    List.dropWhile_cons]
  split
  · rfl
  · simp

/-- What is dropped lies in the class, and what is left does not end in it. -/
theorem dropEndWhile_append_of_all (p : Char → Bool) (s : List Char) {t : List Char}
    (h : ∀ c ∈ t, p c = true) : dropEndWhile p (s ++ t) = dropEndWhile p s := by
  rw [dropEndWhile, List.reverse_append, List.dropWhile_append_of_pos (by simpa using h),
    dropEndWhile]

/-- Dropping goes on into the first part of a text if nothing is left of the second. -/
theorem dropEndWhile_append (p : Char → Bool) (s t : List Char) :
    dropEndWhile p (s ++ t) =
      if (dropEndWhile p t).isEmpty then dropEndWhile p s else s ++ dropEndWhile p t := by
  rw [dropEndWhile, List.reverse_append, List.dropWhile_append]
  simp only [dropEndWhile, List.isEmpty_reverse]
  split
  · rfl
  · rw [List.reverse_append, List.reverse_reverse]

/-- Nothing is dropped from a text whose last character lies outside the class. -/
theorem dropEndWhile_eq_self {p : Char → Bool} {s : List Char}
    (h : ∀ c, s.getLast? = some c → p c = false) : dropEndWhile p s = s := by
  rcases List.eq_nil_or_concat s with rfl | ⟨t, c, rfl⟩
  · rfl
  · rw [List.concat_eq_append, dropEndWhile_concat, h c (by simp)]
    simp

/-- A text is what is left of it and characters of the class. -/
theorem exists_dropEndWhile_append (p : Char → Bool) (s : List Char) :
    ∃ t, s = dropEndWhile p s ++ t ∧ ∀ c ∈ t, p c = true := by
  refine ⟨(s.reverse.takeWhile p).reverse, ?_, ?_⟩
  · rw [dropEndWhile, ← List.reverse_append, List.takeWhile_append_dropWhile, List.reverse_reverse]
  · intro c hc
    exact List.all_eq_true.1 (List.all_takeWhile (p := p) (l := s.reverse)) c (by simpa using hc)

/-- What is left of a text whose beginning is dropped does not begin in the class. -/
theorem not_of_head?_dropWhile {p : Char → Bool} {s : List Char} {c : Char}
    (h : (s.dropWhile p).head? = some c) : p c = false := by
  have hnot := List.head?_dropWhile_not p s
  rw [h] at hnot
  simpa using hnot

/-- What is left does not end in the class. -/
theorem not_of_getLast?_dropEndWhile {p : Char → Bool} {s : List Char} {c : Char}
    (h : (dropEndWhile p s).getLast? = some c) : p c = false := by
  rw [dropEndWhile, List.getLast?_reverse] at h
  exact not_of_head?_dropWhile h

/-- Dropping a smaller class first makes no difference. -/
theorem dropEndWhile_dropEndWhile {p q : Char → Bool} (h : ∀ c, p c = true → q c = true)
    (s : List Char) : dropEndWhile q (dropEndWhile p s) = dropEndWhile q s := by
  obtain ⟨t, hs, ht⟩ := exists_dropEndWhile_append p s
  have hq := dropEndWhile_append_of_all q (dropEndWhile p s) fun c hc => h c (ht c hc)
  rw [← hs] at hq
  exact hq.symm

/-- The white space before a brace is white space. -/
theorem isSpace_of_isAsciiSpace {c : Char} (h : isAsciiSpace c = true) : isSpace c = true := by
  simp only [isAsciiSpace, Bool.or_eq_true, beq_iff_eq] at h
  rcases h with (((rfl | rfl) | rfl) | h) | rfl
  · rfl
  · rfl
  · rfl
  · simp [isSpace, h]
  · rfl

/-- A character outside the class ends what is taken. -/
theorem takeWhile_append_cons_of_neg {p : Char → Bool} {c : Char} (hc : ¬p c = true)
    (s rest : List Char) : (s ++ c :: rest).takeWhile p = s.takeWhile p := by
  rw [List.takeWhile_append]
  split
  · rename_i hall
    rw [List.takeWhile_cons_of_neg hc, List.append_nil]
    exact ((List.takeWhile_prefix p).eq_of_length hall).symm
  · rfl

/-- What does not begin in the class is not taken. -/
theorem takeWhile_append_of_head? {p : Char → Bool} {rest : List Char}
    (h : ∀ c, rest.head? = some c → p c = false) (s : List Char) :
    (s ++ rest).takeWhile p = s.takeWhile p := by
  cases rest with
  | nil => rw [List.append_nil]
  | cons c rest => exact takeWhile_append_cons_of_neg (by simp [h c rfl]) s rest

/-- What follows a character outside a class is never dropped. -/
theorem dropWhile_append_cons_of_neg {p : Char → Bool} {c : Char} (hc : ¬p c = true)
    (s rest : List Char) : (s ++ c :: rest).dropWhile p = s.dropWhile p ++ c :: rest := by
  induction s with
  | nil => exact List.dropWhile_cons_of_neg hc
  | cons d s ih =>
    by_cases hd : p d = true
    · rw [List.cons_append, List.dropWhile_cons_of_pos hd, List.dropWhile_cons_of_pos hd, ih]
    · rw [List.cons_append, List.dropWhile_cons_of_neg hd, List.dropWhile_cons_of_neg hd,
        List.cons_append]

/-- White space before a text is trimmed. -/
theorem trim_append_of_all {s : List Char} (t : List Char) (h : ∀ c ∈ s, isSpace c = true) :
    trim (s ++ t) = trim t := by
  rw [trim, trimStart, List.dropWhile_append_of_pos h, trim, trimStart]

theorem trim_space_cons (s : List Char) : trim (' ' :: s) = trim s :=
  trim_append_of_all s (List.forall_mem_singleton.2 rfl)

/-- White space behind a text is trimmed. -/
theorem trim_append_space (s : List Char) {t : List Char} (h : ∀ c ∈ t, isSpace c = true) :
    trim (s ++ t) = trim s := by
  rw [trim, trim, trimStart, trimStart, List.dropWhile_append]
  split
  · -- The text is white space as well, so nothing is left of either.
    rename_i hnil
    have hnone : (t ++ []).dropWhile isSpace = [] := List.dropWhile_append_of_pos h
    rw [List.append_nil] at hnone
    rw [List.isEmpty_iff.1 hnil, hnone]
  · exact dropEndWhile_append_of_all _ _ h

/-- A text that neither starts nor ends in white space is not trimmed. -/
theorem trim_eq_self {s : List Char} (hstart : ∀ c, s.head? = some c → isSpace c = false)
    (hend : ∀ c, s.getLast? = some c → isSpace c = false) : trim s = s := by
  have hdrop : trimStart s = s := by
    cases s with
    | nil => rfl
    | cons c cs => rw [trimStart, List.dropWhile_cons_of_neg (by simp [hstart c rfl])]
  rw [trim, hdrop, trimEnd, dropEndWhile_eq_self hend]

/-- Trimming puts nothing into a text. -/
theorem mem_of_mem_trim {s : List Char} {c : Char} (h : c ∈ trim s) : c ∈ s := by
  have hstart := List.mem_reverse.1 h
  have htrimmed := List.mem_reverse.1 ((List.dropWhile_sublist isSpace).mem hstart)
  exact (List.dropWhile_sublist isSpace).mem htrimmed

/-! ### Cutting a text -/

/-- What stands before a text belongs to its first piece. -/
theorem splitOn_append_of_not_mem {x : Char} {s : List Char} (h : x ∉ s) (t : List Char) :
    (s ++ t).splitOn x = (t.splitOn x).modifyHead (s ++ ·) := by
  induction s with
  | nil =>
    obtain ⟨first, rest, hsplit⟩ := List.exists_cons_of_ne_nil (List.splitOn_ne_nil x t)
    rw [List.nil_append, hsplit]
    rfl
  | cons c s ih =>
    rw [List.mem_cons, not_or] at h
    obtain ⟨first, rest, hsplit⟩ := List.exists_cons_of_ne_nil (List.splitOn_ne_nil x t)
    rw [List.cons_append, List.splitOn_cons_eq_if_modifyHead, if_neg (by simpa using Ne.symm h.1),
      ih h.2, hsplit]
    rfl

/-- The last piece of a text goes on with the first piece of what stands behind it. -/
theorem exists_splitOn_append (x : Char) (s : List Char) :
    ∃ front last, s.splitOn x = front ++ [last] ∧
      ∀ t, (s ++ t).splitOn x = front ++ (t.splitOn x).modifyHead (last ++ ·) := by
  induction s with
  | nil =>
    refine ⟨[], [], rfl, fun t => ?_⟩
    obtain ⟨first, rest, hsplit⟩ := List.exists_cons_of_ne_nil (List.splitOn_ne_nil x t)
    rw [List.nil_append, hsplit]
    rfl
  | cons c s ih =>
    obtain ⟨front, last, hsplit, happend⟩ := ih
    simp only [List.cons_append, List.splitOn_cons_eq_if_modifyHead, hsplit, happend]
    split
    · exact ⟨[] :: front, last, rfl, fun t => rfl⟩
    · cases front with
      | nil =>
        refine ⟨[], c :: last, rfl, fun t => ?_⟩
        obtain ⟨first, rest, hsplit⟩ := List.exists_cons_of_ne_nil (List.splitOn_ne_nil x t)
        rw [hsplit]
        rfl
      | cons piece front => exact ⟨(c :: piece) :: front, last, rfl, fun t => rfl⟩

/-! ### Words -/

/-- A text is a word: it is not empty and holds no white space. -/
structure IsWord (w : List Char) : Prop where
  /-- It is not empty. -/
  ne_nil : w ≠ []
  /-- It holds no white space. -/
  no_space : ∀ c ∈ w, isSpace c = false

instance : DecidablePred IsWord := fun w =>
  -- The bound is named, for the characters are finitely many and could be gone through as well.
  have : Decidable (∀ c ∈ w, isSpace c = false) := List.decidableBAll _ w
  decidable_of_iff (w ≠ [] ∧ ∀ c ∈ w, isSpace c = false)
    ⟨fun h => ⟨h.1, h.2⟩, fun h => ⟨h.ne_nil, h.no_space⟩⟩

@[simp] theorem words_nil : words [] = [] := rfl

/-- White space parts the words before it from those behind it. -/
theorem words_append_cons {c : Char} (hc : isSpace c = true) (s t : List Char) :
    words (s ++ c :: t) = words s ++ words t := by
  rw [words, List.splitOnP_append_cons s t hc, List.filter_append, words, words]

/-- A word is its only word. -/
theorem words_of_isWord {w : List Char} (hw : IsWord w) : words w = [w] := by
  rw [words, List.splitOnP_eq_singleton hw.no_space, List.filter_cons_of_pos (by simp [hw.ne_nil]),
    List.filter_nil]

/-- White space before a text holds no word. -/
theorem words_append_of_all {s : List Char} (t : List Char) (h : ∀ c ∈ s, isSpace c = true) :
    words (s ++ t) = words t := by
  induction s with
  | nil => rfl
  | cons c s ih =>
    have hc := words_append_cons (h c (by simp)) [] (s ++ t)
    rw [List.nil_append, words_nil, List.nil_append] at hc
    rw [List.cons_append, hc, ih fun c hc => h c (by simp [hc])]

/-- White space that parts two words. -/
structure IsSpacing (gap : List Char) : Prop where
  /-- There is some. -/
  ne_nil : gap ≠ []
  /-- There is nothing else. -/
  spaces : ∀ c ∈ gap, isSpace c = true

instance : DecidablePred IsSpacing := fun gap =>
  decidable_of_iff (gap ≠ [] ∧ gap.all isSpace = true)
    ⟨fun h => ⟨h.1, List.all_eq_true.1 h.2⟩, fun h => ⟨h.ne_nil, List.all_eq_true.2 h.spaces⟩⟩

/-- What stands behind a word and a gap is parted from the word. -/
theorem words_append_gap {w gap : List Char} (hw : IsWord w) (hgap : IsSpacing gap)
    (s : List Char) : words (w ++ (gap ++ s)) = w :: words s := by
  obtain ⟨hne, hspaces⟩ := hgap
  obtain ⟨c, gap, rfl⟩ := List.exists_cons_of_ne_nil hne
  obtain ⟨hc, hgap⟩ := List.forall_mem_cons.1 hspaces
  rw [List.cons_append, words_append_cons hc, words_of_isWord hw, words_append_of_all s hgap,
    List.singleton_append]

/-- The words of a text are words that stand in it. -/
theorem isWord_and_isInfix_of_mem_words {s w : List Char} (h : w ∈ words s) :
    IsWord w ∧ w <:+: s := by
  -- The text is cut at some white space, and both parts are shorter.
  induction hn : s.length using Nat.strongRecOn generalizing s with
  | ind n ih =>
    by_cases hspace : ∃ c ∈ s, isSpace c = true
    · obtain ⟨c, hmem, hc⟩ := hspace
      obtain ⟨front, back, rfl⟩ := List.append_of_mem hmem
      rw [words_append_cons hc, List.mem_append] at h
      rw [List.length_append, List.length_cons] at hn
      rcases h with h | h
      · obtain ⟨hw, hinfix⟩ := ih _ (by omega) h rfl
        exact ⟨hw, hinfix.trans (List.prefix_append _ _).isInfix⟩
      · obtain ⟨hw, hinfix⟩ := ih _ (by omega) h rfl
        have hback : back <:+ front ++ c :: back :=
          (List.suffix_cons c back).trans (List.suffix_append front _)
        exact ⟨hw, hinfix.trans hback.isInfix⟩
    · have hnone : ∀ c ∈ s, isSpace c = false := by
        intro c hc
        simpa using fun hspace' => hspace ⟨c, hc, hspace'⟩
      rw [words, List.splitOnP_eq_singleton hnone, List.mem_filter, List.mem_singleton] at h
      obtain ⟨rfl, hne⟩ := h
      exact ⟨⟨by simpa using hne, hnone⟩, List.infix_rfl⟩

theorem isWord_of_mem_words {s w : List Char} (h : w ∈ words s) : IsWord w :=
  (isWord_and_isInfix_of_mem_words h).1

/-- A text begins with a word, which may be empty, and what stands directly before the text belongs
to that word. -/
theorem exists_words_append (s : List Char) :
    ∃ w ws, (∀ c ∈ w, isSpace c = false) ∧ words s = words w ++ ws ∧
      ∀ u, IsWord (u ++ w) → words (u ++ s) = (u ++ w) :: ws := by
  cases hfind : s.find? isSpace with
  | none =>
    have hnone : ∀ c ∈ s, isSpace c = false := by simpa using hfind
    exact ⟨s, [], hnone, by rw [List.append_nil], fun u hword => words_of_isWord hword⟩
  | some c =>
    obtain ⟨hc, w, t, rfl, hw⟩ := List.find?_eq_some_iff_append.1 hfind
    refine ⟨w, words t, by simpa using hw, words_append_cons hc w t, fun u hword => ?_⟩
    rw [← List.append_assoc, words_append_cons hc, words_of_isWord hword, List.singleton_append]

/-- A text ends with a word, which may be empty and goes on with what stands behind the text. -/
theorem exists_append_words (s : List Char) :
    ∃ front w, (∀ c ∈ w, isSpace c = false) ∧ ∀ t, words (s ++ t) = front ++ words (w ++ t) := by
  cases hfind : s.reverse.find? isSpace with
  | none =>
    have hnone : ∀ c ∈ s, isSpace c = false := by simpa using hfind
    exact ⟨[], s, hnone, fun t => rfl⟩
  | some c =>
    obtain ⟨hc, w, u, hsplit, hw⟩ := List.find?_eq_some_iff_append.1 hfind
    rw [List.reverse_eq_iff] at hsplit
    refine ⟨words u.reverse, w.reverse, by simpa using hw, fun t => ?_⟩
    rw [hsplit, List.reverse_append, List.reverse_cons, List.append_assoc, List.append_assoc,
      List.singleton_append, words_append_cons hc]

/-! ### Joined words -/

/-- Words, each behind a space. -/
def spaced (ws : List (List Char)) : List Char :=
  ws.flatMap fun w => ' ' :: w

@[simp] theorem spaced_nil : spaced [] = [] := rfl

@[simp] theorem spaced_cons (w : List Char) (ws : List (List Char)) :
    spaced (w :: ws) = ' ' :: (w ++ spaced ws) := by
  simp [spaced]

@[simp] theorem spaced_append (vs ws : List (List Char)) :
    spaced (vs ++ ws) = spaced vs ++ spaced ws := by
  simp [spaced]

@[simp] theorem joinWords_nil : joinWords [] = [] := rfl

/-- All texts but the first stand behind the separator. -/
theorem intercalate_cons (sep s : List Char) (ss : List (List Char)) :
    List.intercalate sep (s :: ss) = s ++ ss.flatMap (sep ++ ·) := by
  induction ss generalizing s with
  | nil => simp
  | cons t ss ih =>
    rw [List.intercalate_cons_cons, ih, List.flatMap_cons, List.append_assoc, List.append_assoc]

/-- All words but the first stand behind a space. -/
theorem joinWords_cons (w : List Char) (ws : List (List Char)) :
    joinWords (w :: ws) = w ++ spaced ws := by
  rw [joinWords, intercalate_cons]
  rfl

/-- Words are joined in the same way before and behind other words. -/
theorem joinWords_append (v : List Char) (vs ws : List (List Char)) :
    joinWords (v :: vs ++ ws) = joinWords (v :: vs) ++ spaced ws := by
  rw [List.cons_append, joinWords_cons, joinWords_cons, spaced_append, List.append_assoc]

theorem words_spaced {ws : List (List Char)} (h : ∀ w ∈ ws, IsWord w) : words (spaced ws) = ws := by
  induction ws with
  | nil => rfl
  | cons w ws ih =>
    have hw := words_append_cons (c := ' ') rfl [] (w ++ spaced ws)
    rw [spaced_cons, ← List.nil_append (' ' :: _), hw, words_nil, List.nil_append]
    -- Behind the first word the text ends or a space follows, which begins the text of `ih`.
    have hws := ih fun v hv => h v (List.mem_cons_of_mem _ hv)
    cases ws with
    | nil => rw [spaced_nil, List.append_nil, words_of_isWord (h w (by simp))]
    | cons v ws =>
      rw [spaced_cons, words_append_cons rfl, words_of_isWord (h w (by simp))]
      have hv := words_append_cons (c := ' ') rfl [] (v ++ spaced ws)
      rw [spaced_cons, ← List.nil_append (' ' :: _), hv, words_nil, List.nil_append] at hws
      rw [hws, List.singleton_append]

/-- Joined words are read back one by one. -/
theorem words_joinWords {ws : List (List Char)} (h : ∀ w ∈ ws, IsWord w) :
    words (joinWords ws) = ws := by
  cases ws with
  | nil => rfl
  | cons w ws =>
    have hw := words_append_cons (c := ' ') rfl [] (joinWords (w :: ws))
    rw [words_nil, List.nil_append, List.nil_append] at hw
    rw [← hw, joinWords_cons, ← spaced_cons, words_spaced h]

private theorem IsWord.not_space_of_getLast? {w s : List Char} (hw : IsWord w) {c : Char}
    (hc : (s ++ w).getLast? = some c) : isSpace c = false := by
  obtain ⟨d, hd⟩ := Option.isSome_iff_exists.1 (List.getLast?_isSome.2 hw.ne_nil)
  rw [List.getLast?_append, hd, Option.some_or, Option.some.injEq] at hc
  exact hc ▸ hw.no_space d (List.mem_of_getLast? hd)

/-- Joined words neither start nor end in white space. -/
theorem trim_joinWords {ws : List (List Char)} (h : ∀ w ∈ ws, IsWord w) :
    trim (joinWords ws) = joinWords ws := by
  cases ws with
  | nil => rfl
  | cons w ws =>
    have hw := h w (by simp)
    -- The text begins with the first word and ends with the last one, which may be the same.
    refine trim_eq_self (fun c hc => ?_) fun c hc => ?_
    · obtain ⟨d, ds, rfl⟩ := List.exists_cons_of_ne_nil hw.ne_nil
      rw [joinWords_cons, List.cons_append, List.head?_cons, Option.some.injEq] at hc
      exact hw.no_space c (by simp [hc])
    · rcases List.eq_nil_or_concat ws with rfl | ⟨vs, v, rfl⟩
      · exact hw.not_space_of_getLast? (s := []) (by simpa [joinWords_cons] using hc)
      · refine (h v (by simp)).not_space_of_getLast? (s := w ++ spaced vs ++ [' ']) ?_
        simpa [joinWords_cons] using hc

/-- What is left of a word, which may be empty, and words behind it are these words joined. -/
theorem trim_append_spaced {w : List Char} (hw : ∀ c ∈ w, isSpace c = false)
    {ws : List (List Char)} (hws : ∀ v ∈ ws, IsWord v) :
    trim (w ++ spaced ws) = joinWords (words w ++ ws) := by
  cases w with
  | nil =>
    cases ws with
    | nil => rfl
    | cons v ws =>
      rw [List.nil_append, spaced_cons, trim_space_cons, ← joinWords_cons, trim_joinWords hws]
      rfl
  | cons c w =>
    have hword : IsWord (c :: w) := ⟨List.cons_ne_nil c w, hw⟩
    rw [words_of_isWord hword, List.singleton_append, ← joinWords_cons,
      trim_joinWords (List.forall_mem_cons.2 ⟨hword, hws⟩)]

/-- Joining words adds nothing but spaces. -/
theorem not_mem_spaced {c : Char} (hc : c ≠ ' ') {ws : List (List Char)} (h : ∀ w ∈ ws, c ∉ w) :
    c ∉ spaced ws := by
  intro hmem
  obtain ⟨w, hw, hmem⟩ := List.mem_flatMap.1 hmem
  exact h w hw ((List.mem_cons.1 hmem).resolve_left hc)

theorem not_mem_joinWords {c : Char} (hc : c ≠ ' ') {ws : List (List Char)} (h : ∀ w ∈ ws, c ∉ w) :
    c ∉ joinWords ws := by
  cases ws with
  | nil => exact List.not_mem_nil
  | cons w ws =>
    obtain ⟨hw, hws⟩ := List.forall_mem_cons.1 h
    rw [joinWords_cons]
    exact fun hmem => (List.mem_append.1 hmem).elim hw (not_mem_spaced hc hws)

/-- A word is not trimmed. -/
theorem trim_of_isWord {w : List Char} (hw : IsWord w) : trim w = w := by
  have hwords : ∀ v ∈ [w], IsWord v := by simpa using hw
  have hone := trim_joinWords hwords
  rwa [joinWords_cons, spaced_nil, List.append_nil] at hone

/-- A word keeps what follows it, up to the white space at the end. -/
theorem trim_isWord_append {w : List Char} (hw : IsWord w) (tail : List Char) :
    trim (w ++ tail) = w ++ trimEnd tail := by
  obtain ⟨space, htail, hspace⟩ := exists_dropEndWhile_append isSpace tail
  -- Without the white space at its end the text has nothing that could be trimmed.
  have hkept : trim (w ++ trimEnd tail) = w ++ trimEnd tail := by
    refine trim_eq_self (fun c hc => ?_) fun c hc => ?_
    · obtain ⟨d, ds, rfl⟩ := List.exists_cons_of_ne_nil hw.ne_nil
      rw [List.cons_append, List.head?_cons, Option.some.injEq] at hc
      exact hw.no_space c (by simp [hc])
    · rw [List.getLast?_append] at hc
      cases hlast : (trimEnd tail).getLast? with
      | none =>
        rw [hlast, Option.none_or] at hc
        exact hw.no_space c (List.mem_of_getLast? hc)
      | some d =>
        rw [hlast, Option.some_or, Option.some.injEq] at hc
        exact hc ▸ not_of_getLast?_dropEndWhile hlast
  have hsplit : w ++ tail = (w ++ trimEnd tail) ++ space := by
    rw [List.append_assoc, trimEnd, ← htail]
  rw [hsplit, trim_append_space _ hspace, hkept]

end StructUnfold.Text
