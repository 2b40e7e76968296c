import Mathlib.Order.Bounds.Defs
import StructUnfold.Proofs.Expansion.Splice
import StructUnfold.Proofs.Text.Offset

/-!
# Searching a word that stands by itself

The search looks at the occurrences of a word from the left, and where one is refused it goes on
behind it, so occurrences that overlap it are never looked at. None of them could be found: an
occurrence that begins inside another one has a character of the word in front of it, and that is a
character of identifiers. So the search still finds the first place at which the word stands by
itself, and there the keyword `struct` is dropped from a declaration.

## Main definitions

* `StandsBetween`, `StandsAt`: a word stands by itself between two parts of a text, or at an offset.
* `occurrences`: the occurrences that are looked at.

## Main results

* `splitAtWordFrom_eq_find?`: the search takes the first of them at which the word stands by itself.
* `splitAtWord?_eq_some_iff`, `splitAtWord?_eq_none_iff`: it finds the least offset there is.
* `whole_word_search`: the search, and what it drops from a declaration.
-/

namespace StructUnfold.Text

/-- A word stands by itself between two parts of a text: no character of identifiers touches it. -/
structure StandsBetween (word s front back : List Char) : Prop where
  /-- The text consists of the parts and the word. -/
  parts : s = front ++ (word ++ back)
  /-- No character of identifiers stands directly before it. -/
  before : isEdge front.getLast? = true
  /-- Nor directly behind it. -/
  behind : isEdge back.head? = true

/-- A word stands by itself at a byte offset of a text. -/
def StandsAt (word s : List Char) (offset : Nat) : Prop :=
  ∃ front back, StandsBetween word s front back ∧ byteSize front = offset

/-- The byte offset at which a word is found. -/
def wordOffset? (word s : List Char) : Option Nat :=
  (splitAtWord? word s).map fun found => byteSize found.1

variable {word s front back : List Char}

/-! ### The occurrences that are looked at -/

/-- The occurrences of a word, each as the text before and after it, where the search goes on behind
each of them. `before` is the text already passed, read backwards; `skip` characters belong to the
last occurrence. -/
def occurrencesFrom (word before : List Char) (skip : Nat) :
    List Char → List (List Char × List Char)
  | [] => []
  | c :: cs =>
    match skip with
    | k + 1 => occurrencesFrom word (c :: before) k cs
    | 0 =>
      match after? word (c :: cs) with
      | none => occurrencesFrom word (c :: before) 0 cs
      | some rest =>
        (before.reverse, rest) :: occurrencesFrom word (c :: before) (word.length - 1) cs

/-- The occurrences of a word from the left that do not overlap. -/
def occurrences (word s : List Char) : List (List Char × List Char) :=
  occurrencesFrom word [] 0 s

/-- Whether a word stands by itself where it occurs. -/
def isAlone (o : List Char × List Char) : Bool :=
  isEdge o.1.getLast? && isEdge o.2.head?

/-- The first occurrence at which the word stands by itself is taken. -/
theorem splitAtWordFrom_eq_find? (word before : List Char) (skip : Nat) (s : List Char) :
    splitAtWordFrom word before skip s = (occurrencesFrom word before skip s).find? isAlone := by
  induction s generalizing before skip with
  | nil => rfl
  | cons c cs ih =>
    cases skip with
    | succ k => exact ih _ _
    | zero =>
      rw [splitAtWordFrom, occurrencesFrom]
      cases after? word (c :: cs) with
      | none => exact ih _ _
      | some rest =>
        have halone : isAlone (before.reverse, rest) =
            (isEdge before.head? && isEdge rest.head?) := by
          rw [isAlone, List.getLast?_reverse]
        dsimp only
        rw [List.find?_cons, halone, ih]
        cases isEdge before.head? && isEdge rest.head? <;> rfl

/-- Each of them is an occurrence behind the characters that are skipped. -/
theorem exists_of_mem_occurrencesFrom {before : List Char} {skip : Nat}
    {o : List Char × List Char} (h : o ∈ occurrencesFrom word before skip s) :
    ∃ t, o.1 = before.reverse ++ t ∧ s = t ++ (word ++ o.2) ∧ skip ≤ t.length := by
  induction s generalizing before skip with
  | nil => cases h
  | cons c cs ih =>
    -- Where the search goes on, it leaves behind one more character.
    have hstep : ∀ k, o ∈ occurrencesFrom word (c :: before) k cs →
        ∃ t, o.1 = before.reverse ++ t ∧ c :: cs = t ++ (word ++ o.2) ∧ k + 1 ≤ t.length := by
      intro k hk
      obtain ⟨t, ho, hs, hlength⟩ := ih hk
      exact ⟨c :: t, by simp [ho], by rw [hs, List.cons_append], Nat.succ_le_succ hlength⟩
    cases skip with
    | succ k => exact hstep k h
    | zero =>
      rw [occurrencesFrom] at h
      split at h
      · obtain ⟨t, ho, hs, -⟩ := hstep 0 h
        exact ⟨t, ho, hs, Nat.zero_le _⟩
      · rename_i rest hafter
        have hhere := after?_eq_some_iff.1 hafter
        rcases List.mem_cons.1 h with rfl | h
        · exact ⟨[], (List.append_nil _).symm, hhere, Nat.zero_le _⟩
        · obtain ⟨t, ho, hs, -⟩ := hstep _ h
          exact ⟨t, ho, hs, Nat.zero_le _⟩

/-- Each of them lies behind the whole of the ones before. -/
theorem pairwise_occurrencesFrom (word before : List Char) (skip : Nat) (s : List Char) :
    (occurrencesFrom word before skip s).Pairwise fun o p => o.1 ++ word <+: p.1 := by
  induction s generalizing before skip with
  | nil => exact .nil
  | cons c cs ih =>
    cases skip with
    | succ k => exact ih _ _
    | zero =>
      rw [occurrencesFrom]
      split
      · exact ih _ _
      · rename_i rest hafter
        refine List.pairwise_cons.2 ⟨fun p hp => ?_, ih _ _⟩
        obtain ⟨t, hp, hs, hlength⟩ := exists_of_mem_occurrencesFrom hp
        -- Both the word and what is passed from here to the later occurrence begin the text.
        have hword : word <+: c :: cs := ⟨rest, (after?_eq_some_iff.1 hafter).symm⟩
        have hpassed : c :: t <+: c :: cs := ⟨word ++ p.2, by rw [hs, List.cons_append]⟩
        have hprefix := List.prefix_of_prefix_length_le hword hpassed (by
          rw [List.length_cons]
          omega)
        rw [hp, List.reverse_cons, List.append_assoc]
        exact List.prefix_append_right_inj _ |>.2 hprefix

/-- Every occurrence is looked at or overlaps one that is looked at before. -/
theorem exists_mem_occurrencesFrom {before t : List Char} {skip : Nat} (hword : word ≠ [])
    (hs : s = t ++ (word ++ back)) (hskip : skip ≤ t.length) :
    ∃ o ∈ occurrencesFrom word before skip s, o.1 <+: before.reverse ++ t ∧
      (before.reverse ++ t).length < o.1.length + word.length := by
  induction s generalizing before t skip with
  | nil => exact absurd (List.append_eq_nil_iff.1 (List.append_eq_nil_iff.1 hs.symm).2).1 hword
  | cons c cs ih =>
    -- What begins further on is found where the search goes on.
    have hstep : ∀ k t', t = c :: t' → k ≤ t'.length →
        ∃ o ∈ occurrencesFrom word (c :: before) k cs, o.1 <+: before.reverse ++ t ∧
          (before.reverse ++ t).length < o.1.length + word.length := by
      rintro k t' rfl hk
      obtain ⟨o, ho, hprefix, hlength⟩ := @ih (c :: before) t' k (List.cons_eq_cons.1 hs).2 hk
      rw [List.reverse_cons, List.append_assoc] at hprefix hlength
      exact ⟨o, ho, hprefix, hlength⟩
    have hsplit : t = [] ∨ ∃ t', t = c :: t' := by
      cases t with
      | nil => exact .inl rfl
      | cons d t' => exact .inr ⟨t', by rw [(List.cons_eq_cons.1 hs).1]⟩
    cases skip with
    | succ k =>
      rcases hsplit with rfl | ⟨t', rfl⟩
      · cases hskip
      · exact hstep k t' rfl (Nat.le_of_succ_le_succ hskip)
    | zero =>
      rw [occurrencesFrom]
      split
      · rename_i hafter
        rcases hsplit with rfl | ⟨t', rfl⟩
        · rw [hs, List.nil_append, after?_append] at hafter
          cases hafter
        · exact hstep 0 t' rfl (Nat.zero_le _)
      · rename_i rest hafter
        by_cases hshort : t.length < word.length
        · refine ⟨_, List.mem_cons_self, List.prefix_append _ _, ?_⟩
          rw [List.length_append]
          exact Nat.add_lt_add_left hshort _
        · rcases hsplit with rfl | ⟨t', rfl⟩
          · exact absurd (List.length_pos_iff.2 hword) hshort
          · rw [List.length_cons] at hshort
            obtain ⟨o, ho, hfound⟩ := hstep (word.length - 1) t' rfl (by omega)
            exact ⟨o, List.mem_cons_of_mem _ ho, hfound⟩

/-! ### What is found -/

/-- Where a word is found it stands by itself. -/
theorem standsBetween_of_splitAtWord? (h : splitAtWord? word s = some (front, back)) :
    StandsBetween word s front back := by
  rw [splitAtWord?] at h
  split at h
  · cases h
  · obtain ⟨t, hfront, hparts⟩ := exists_of_splitAtWordFrom h
    rw [List.reverse_nil, List.nil_append] at hfront
    obtain rfl := hfront
    rw [splitAtWordFrom_eq_find?] at h
    have halone := List.find?_some h
    rw [isAlone, Bool.and_eq_true] at halone
    exact ⟨hparts, halone.1, halone.2⟩

/-- A word that stands by itself is found there or before. -/
theorem StandsBetween.exists_found (hword : IsIdent word) (h : StandsBetween word s front back) :
    ∃ front' back', splitAtWord? word s = some (front', back') ∧
      byteSize front' ≤ byteSize front := by
  have hparted : Parted back := by
    intro c hc
    have hedge := h.behind
    rw [hc, isEdge] at hedge
    simpa using hedge
  -- The search goes through the text before the word first, and then comes to the word.
  have hsearch := @splitAtWordFrom_append_of_edge word [] front (word ++ back) hword (.inl rfl)
    (.inl h.before)
  have hhere := @splitAtWordFrom_append word front.reverse back hword
    (by rw [List.head?_reverse]; exact h.before) hparted
  rw [List.append_nil, hhere, List.reverse_reverse, ← h.parts] at hsearch
  rw [splitAtWord?, if_neg (by simpa using hword.ne_nil), hsearch]
  cases hfound : splitAtWordFrom word [] 0 front with
  | some found =>
    obtain ⟨t, hfront, hparts⟩ := exists_of_splitAtWordFrom hfound
    rw [List.reverse_nil, List.nil_append] at hfront
    refine ⟨found.1, found.2 ++ (word ++ back), rfl, ?_⟩
    rw [hparts, hfront]
    exact byteSize_le_append _ _
  | none => exact ⟨front, back, rfl, Nat.le_refl _⟩

/-- A word is found between two parts of a text exactly if it stands there by itself, at the least
offset at which it does. -/
theorem splitAtWord?_eq_some_iff (hword : IsIdent word) :
    splitAtWord? word s = some (front, back) ↔
      StandsBetween word s front back ∧ IsLeast {n | StandsAt word s n} (byteSize front) := by
  constructor
  · intro h
    refine ⟨standsBetween_of_splitAtWord? h, ⟨front, back, standsBetween_of_splitAtWord? h, rfl⟩,
      ?_⟩
    rintro n ⟨front', back', hstands, rfl⟩
    obtain ⟨first, rest, hfound, hle⟩ := hstands.exists_found hword
    obtain ⟨rfl, rfl⟩ := Prod.mk.inj (Option.some.inj (h.symm.trans hfound))
    exact hle
  · rintro ⟨hstands, hleast⟩
    obtain ⟨first, rest, hfound, hle⟩ := hstands.exists_found hword
    have hfirst := standsBetween_of_splitAtWord? hfound
    have hsize := Nat.le_antisymm hle (hleast.2 ⟨first, rest, hfirst, rfl⟩)
    -- Two beginnings of one text that have the same size are the same.
    have htake := takeBytes?_byteSize_append first (word ++ rest)
    rw [hsize, ← hfirst.parts, hstands.parts, takeBytes?_byteSize_append] at htake
    obtain rfl := Option.some.inj htake
    have hrest := hfirst.parts
    rw [hstands.parts] at hrest
    rw [hfound, List.append_cancel_left (List.append_cancel_left hrest)]

/-- A word is not found exactly if it stands by itself nowhere. -/
theorem splitAtWord?_eq_none_iff (hword : IsIdent word) :
    splitAtWord? word s = none ↔ ∀ n, ¬StandsAt word s n := by
  constructor
  · rintro h n ⟨front, back, hstands, -⟩
    obtain ⟨first, rest, hfound, -⟩ := hstands.exists_found hword
    rw [h] at hfound
    cases hfound
  · intro h
    refine Option.eq_none_iff_forall_ne_some.2 fun found hfound => ?_
    exact h _ ⟨found.1, found.2, standsBetween_of_splitAtWord? hfound, rfl⟩

/-- The offset that is found is the least one. -/
theorem wordOffset?_eq_some_iff (hword : IsIdent word) {n : Nat} :
    wordOffset? word s = some n ↔ IsLeast {n | StandsAt word s n} n := by
  rw [wordOffset?, Option.map_eq_some_iff]
  constructor
  · rintro ⟨found, hfound, rfl⟩
    exact ((splitAtWord?_eq_some_iff hword).1 hfound).2
  · intro hleast
    obtain ⟨front, back, hstands, rfl⟩ := hleast.1
    exact ⟨(front, back), (splitAtWord?_eq_some_iff hword).2 ⟨hstands, hleast⟩, rfl⟩

/-! ### The keyword of a declaration -/

/-- From a declaration the keyword `struct` is dropped with the white space behind it, where it
first stands by itself. All else stays. -/
inductive DropsKeyword (declaration : List Char) : List Char → Prop where
  /-- It stands by itself nowhere. -/
  | none (h : ∀ n, ¬StandsAt "struct".toList declaration n) : DropsKeyword declaration declaration
  /-- It is dropped between `front` and `rest`, with all of the white space `gap`. -/
  | first {front gap rest}
    (hstands : StandsBetween "struct".toList declaration front (gap ++ rest))
    (hleast : IsLeast {n | StandsAt "struct".toList declaration n} (byteSize front))
    (hgap : ∀ c ∈ gap, isSpace c = true) (hrest : ∀ c ∈ rest.head?, isSpace c = false) :
    DropsKeyword declaration (front ++ rest)

theorem dropsKeyword_dropStructKeyword (declaration : List Char) :
    DropsKeyword declaration (Splice.dropStructKeyword declaration) := by
  have hkeyword : IsIdent "struct".toList := by decide
  rw [Splice.dropStructKeyword]
  cases hfound : splitAtWord? "struct".toList declaration with
  | none => exact .none ((splitAtWord?_eq_none_iff hkeyword).1 hfound)
  | some found =>
    obtain ⟨hstands, hleast⟩ := (splitAtWord?_eq_some_iff hkeyword).1 hfound
    have hgap : found.2 = found.2.takeWhile isSpace ++ trimStart found.2 :=
      List.takeWhile_append_dropWhile.symm
    rw [hgap] at hstands
    exact .first hstands hleast (List.all_eq_true.1 List.all_takeWhile)
      fun c hc => not_of_head?_dropWhile hc

/-- **A search for a whole word finds the least offset.** A word of characters of identifiers is
found at the least byte offset of a text at which it stands by itself, with no such character
directly before or behind it, and not at all exactly if there is no such offset. Only occurrences
are looked at for this that do not overlap; each other one overlaps one of these that begins before
it. From a declaration the keyword `struct` is dropped where it first stands by itself, with all
white space behind it, and nothing else. -/
theorem whole_word_search {word : List Char} (hword : IsIdent word) (s : List Char) :
    (∀ n, wordOffset? word s = some n ↔ IsLeast {n | StandsAt word s n} n) ∧
    (wordOffset? word s = none ↔ ∀ n, ¬StandsAt word s n) ∧
    (splitAtWord? word s = (occurrences word s).find? isAlone ∧
      (∀ o ∈ occurrences word s, s = o.1 ++ (word ++ o.2)) ∧
      (occurrences word s).Pairwise (fun o p => o.1 ++ word <+: p.1) ∧
      ∀ front back, s = front ++ (word ++ back) →
        ∃ o ∈ occurrences word s, o.1 <+: front ∧ front.length < o.1.length + word.length) ∧
    DropsKeyword s (Splice.dropStructKeyword s) := by
  refine ⟨fun n => wordOffset?_eq_some_iff hword, ?_, ⟨?_, fun o ho => ?_, ?_,
    fun front back hs => exists_mem_occurrencesFrom hword.ne_nil hs (Nat.zero_le _)⟩,
    dropsKeyword_dropStructKeyword s⟩
  · rw [wordOffset?, Option.map_eq_none_iff]
    exact splitAtWord?_eq_none_iff hword
  · rw [splitAtWord?, if_neg (by simpa using hword.ne_nil)]
    exact splitAtWordFrom_eq_find? word [] 0 s
  · obtain ⟨t, ht, hs, -⟩ := exists_of_mem_occurrencesFrom ho
    rw [ht]
    exact hs
  · exact pairwise_occurrencesFrom word [] 0 s

/-- A word that overlaps itself, beside a letter that takes two bytes and at the end of a text. -/
theorem whole_word_search_overlapping :
    IsIdent "aba".toList ∧
      (occurrences "aba".toList "ababaé_aba éaba".toList).map (fun o => byteSize o.1) =
        [0, 8, 14] ∧
      IsLeast {n | StandsAt "aba".toList "ababaé_aba éaba".toList n} 14 ∧
      (∀ n, ¬StandsAt "aba".toList "ababa".toList n) ∧
      DropsKeyword "a structure é struct \t Node* n; struct".toList
        "a structure é Node* n; struct".toList := by
  have hword : IsIdent "aba".toList := by decide
  obtain ⟨hleast, -⟩ := whole_word_search hword "ababaé_aba éaba".toList
  obtain ⟨-, hnone, -⟩ := whole_word_search hword "ababa".toList
  obtain ⟨-, -, -, hdrops⟩ :=
    whole_word_search hword "a structure é struct \t Node* n; struct".toList
  refine ⟨hword, by decide +kernel, (hleast 14).1 (by decide +kernel), hnone.1 (by decide +kernel),
    ?_⟩
  have hresult : Splice.dropStructKeyword "a structure é struct \t Node* n; struct".toList =
      "a structure é Node* n; struct".toList := by decide +kernel
  rwa [hresult] at hdrops

end StructUnfold.Text
