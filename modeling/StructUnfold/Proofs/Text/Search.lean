import StructUnfold.Proofs.Text.Identifier
import StructUnfold.Text.Search

/-!
# Searching a text

A word is found by itself only where no character of identifiers touches it. So an identifier that
is another word is passed over as a whole, whatever occurs inside it.

* `after?_eq_some_iff`: what is left of a text after a beginning.
* `containsText_eq_true_iff`: a text is found where it occurs.
* `Parted`: a text does not go on with a character of identifiers.
* `exists_of_splitAtWordFrom`: the word stands between the two parts that are found.
* `splitAtWordFrom_of_ne`: an identifier that is another word is passed over.
* `splitAtWordFrom_append_of_edge`: two parts of a text are searched one after the other.
* `spacedBehind`, `splitAtWord?_spacedBehind`: so are several of them before the word.
-/

namespace StructUnfold.Text

/-- What is left of a text after a beginning is what the beginning has to be put before. -/
theorem after?_eq_some_iff {front s back : List Char} :
    after? front s = some back ↔ s = front ++ back := by
  induction front generalizing s with
  | nil => simp [after?]
  | cons p ps ih =>
    cases s with
    | nil => simp [after?]
    | cons c cs =>
      rw [after?]
      split
      · rename_i hpc
        rw [ih, hpc]
        simp
      · rename_i hpc
        simp [Ne.symm hpc]

@[simp] theorem after?_append (front back : List Char) : after? front (front ++ back) = some back :=
  after?_eq_some_iff.2 rfl

/-- A text is found where it occurs. -/
theorem containsText_eq_true_iff {needle s : List Char} :
    containsText needle s = true ↔ needle <:+: s := by
  induction s with
  | nil => rw [containsText, List.isEmpty_iff, List.infix_nil]
  | cons c cs ih =>
    have hhead : (after? needle (c :: cs)).isSome = true ↔ needle <+: c :: cs := by
      rw [Option.isSome_iff_exists]
      exact exists_congr fun back => after?_eq_some_iff.trans eq_comm
    rw [containsText, Bool.or_eq_true, hhead, ih, List.infix_cons_iff]

/-- A text does not begin with a character of identifiers, so an identifier before it ends there. -/
def Parted (s : List Char) : Prop :=
  ∀ c, s.head? = some c → isIdentChar c = false

theorem parted_cons {c : Char} (h : isIdentChar c = false) (s : List Char) : Parted (c :: s) := by
  intro d hd
  rw [List.head?_cons, Option.some.injEq] at hd
  exact hd ▸ h

/-- An identifier that is a beginning of a text does not reach beyond the identifier that stands
there. -/
theorem exists_of_append_eq_append {w word rest r : List Char}
    (hword : ∀ c ∈ word, isIdentChar c = true) (hrest : Parted rest)
    (h : w ++ rest = word ++ r) : ∃ t, w = word ++ t ∧ r = t ++ rest := by
  rcases List.append_eq_append_iff.1 h with ⟨t, hword', hrest'⟩ | ⟨t, hw, hr⟩
  · -- What the longer identifier has in addition begins the rest, so there is nothing of it.
    cases t with
    | nil => exact ⟨[], by simp [hword'], by simp [hrest']⟩
    | cons c t =>
      have hc := hword c (by simp [hword'])
      rw [hrest c (by simp [hrest'])] at hc
      cases hc
  · exact ⟨t, hw, hr⟩

/-- What is found: the word stands between the two parts of the text. -/
theorem exists_of_splitAtWordFrom {word before s front back : List Char} {skip : Nat}
    (h : splitAtWordFrom word before skip s = some (front, back)) :
    ∃ t, front = before.reverse ++ t ∧ s = t ++ (word ++ back) := by
  induction s generalizing before skip with
  | nil => cases h
  | cons c cs ih =>
    -- Wherever the search goes on, the character it leaves behind belongs to the first part.
    have hstep : ∀ k, splitAtWordFrom word (c :: before) k cs = some (front, back) →
        ∃ t, front = before.reverse ++ t ∧ c :: cs = t ++ (word ++ back) := by
      intro k hk
      obtain ⟨t, rfl, rfl⟩ := ih hk
      exact ⟨c :: t, by simp, by simp⟩
    cases skip with
    | succ k =>
      rw [splitAtWordFrom] at h
      exact hstep _ h
    | zero =>
      rw [splitAtWordFrom] at h
      split at h
      · exact hstep _ h
      · rename_i rest hafter
        split at h
        · obtain ⟨rfl, rfl⟩ := Prod.mk.inj (Option.some.inj h)
          exact ⟨[], by simp, by simpa using after?_eq_some_iff.1 hafter⟩
        · exact hstep _ h

/-- Nothing is found inside an identifier that has begun. -/
theorem splitAtWordFrom_of_begun {word before w rest : List Char} {skip : Nat} {b : Char}
    (hword : ∀ c ∈ word, isIdentChar c = true) (hw : ∀ c ∈ w, isIdentChar c = true)
    (hrest : Parted rest) (hbefore : before.head? = some b) (hb : isIdentChar b = true)
    (hskip : skip ≤ w.length) :
    splitAtWordFrom word before skip (w ++ rest) =
      splitAtWordFrom word (w.reverse ++ before) 0 rest := by
  induction w generalizing before skip b with
  | nil =>
    obtain rfl : skip = 0 := by simpa using hskip
    simp
  | cons c cs ih =>
    obtain ⟨hc, hcs⟩ := List.forall_mem_cons.1 hw
    rw [List.length_cons] at hskip
    have hstep : ∀ k, k ≤ cs.length → splitAtWordFrom word (c :: before) k (cs ++ rest) =
        splitAtWordFrom word ((c :: cs).reverse ++ before) 0 rest := by
      intro k hk
      rw [ih hcs rfl hc hk]
      simp
    rw [List.cons_append]
    cases skip with
    | succ k =>
      rw [splitAtWordFrom]
      exact hstep k (by omega)
    | zero =>
      rw [splitAtWordFrom]
      split
      · exact hstep 0 (by omega)
      · -- The word begins here, but the character before it belongs to the same identifier.
        rename_i r hafter
        obtain ⟨t, hw', -⟩ := exists_of_append_eq_append hword hrest
          (w := c :: cs) (after?_eq_some_iff.1 hafter)
        have hlength := congrArg List.length hw'
        rw [List.length_cons, List.length_append] at hlength
        have hedge : isEdge before.head? = false := by rw [hbefore, isEdge, hb]; rfl
        rw [hedge, Bool.false_and, if_neg (by simp)]
        exact hstep _ (by omega)

/-- An identifier that is another word is passed over. -/
theorem splitAtWordFrom_of_ne {word w rest : List Char} (before : List Char) (hw : IsIdent w)
    (hword : IsIdent word) (hne : w ≠ word) (hrest : Parted rest) :
    splitAtWordFrom word before 0 (w ++ rest) =
      splitAtWordFrom word (w.reverse ++ before) 0 rest := by
  obtain ⟨c, cs, rfl⟩ := List.exists_cons_of_ne_nil hw.ne_nil
  obtain ⟨hc, hcs⟩ := List.forall_mem_cons.1 hw.chars
  have hstep : ∀ k, k ≤ cs.length → splitAtWordFrom word (c :: before) k (cs ++ rest) =
      splitAtWordFrom word ((c :: cs).reverse ++ before) 0 rest := by
    intro k hk
    rw [splitAtWordFrom_of_begun hword.chars hcs hrest (b := c) rfl hc hk]
    simp
  rw [List.cons_append, splitAtWordFrom]
  split
  · exact hstep 0 (Nat.zero_le _)
  · rename_i r hafter
    obtain ⟨t, hw', hr⟩ := exists_of_append_eq_append hword.chars hrest
      (w := c :: cs) (after?_eq_some_iff.1 hafter)
    -- The word is only the beginning of the identifier, which goes on behind it.
    cases t with
    | nil => exact absurd (by simpa using hw') hne
    | cons d t =>
      have hd : isIdentChar d = true := hw.chars d (by simp [hw'])
      have hedge : isEdge r.head? = false := by
        rw [hr, List.cons_append, List.head?_cons, isEdge, hd]
        rfl
      have hlength := congrArg List.length hw'
      rw [List.length_cons, List.length_append] at hlength
      rw [hedge, Bool.and_false, if_neg (by simp)]
      exact hstep _ (by omega)

/-- A word is found where it stands, if no character of identifiers touches it. -/
theorem splitAtWordFrom_append {word before rest : List Char} (hword : IsIdent word)
    (hbefore : isEdge before.head? = true) (hrest : Parted rest) :
    splitAtWordFrom word before 0 (word ++ rest) = some (before.reverse, rest) := by
  have hafter := after?_append word rest
  have hedge : isEdge rest.head? = true := by
    cases rest with
    | nil => rfl
    | cons c cs => rw [List.head?_cons, isEdge, hrest c rfl]; rfl
  obtain ⟨c, cs, rfl⟩ := List.exists_cons_of_ne_nil hword.ne_nil
  rw [List.cons_append] at hafter ⊢
  rw [splitAtWordFrom]
  simp only [hafter, hedge, hbefore, Bool.and_self, if_true]

/-- A character that occurs in no identifier is passed over. -/
theorem splitAtWordFrom_cons {word : List Char} (hword : IsIdent word) {c : Char}
    (hc : isIdentChar c = false) (before rest : List Char) :
    splitAtWordFrom word before 0 (c :: rest) = splitAtWordFrom word (c :: before) 0 rest := by
  obtain ⟨d, ds, rfl⟩ := List.exists_cons_of_ne_nil hword.ne_nil
  have hne : d ≠ c := ne_of_isIdentChar (hword.chars d List.mem_cons_self) hc
  rw [splitAtWordFrom, after?, if_neg hne]

/-- Nothing is found where no character of identifiers is. -/
theorem splitAtWordFrom_of_not_ident {word s : List Char} (hword : IsIdent word)
    (hs : ∀ c ∈ s, isIdentChar c = false) (before : List Char) :
    splitAtWordFrom word before 0 s = none := by
  induction s generalizing before with
  | nil => rfl
  | cons c s ih =>
    obtain ⟨hc, hs⟩ := List.forall_mem_cons.1 hs
    rw [splitAtWordFrom_cons hword hc, ih hs]

/-- What has been passed is put before what is found. -/
theorem splitAtWordFrom_append_before (word front : List Char) {before : List Char}
    (hedge : isEdge before.head? = true) (skip : Nat) (s : List Char) :
    splitAtWordFrom word (front ++ before) skip s =
      (splitAtWordFrom word front skip s).map fun found =>
        (before.reverse ++ found.1, found.2) := by
  have hhead : isEdge (front ++ before).head? = isEdge front.head? := by
    cases front with
    | nil => exact hedge
    | cons => rfl
  induction s generalizing front skip with
  | nil => rfl
  | cons c cs ih =>
    have hstep : ∀ k, splitAtWordFrom word (c :: (front ++ before)) k cs =
        (splitAtWordFrom word (c :: front) k cs).map fun found =>
          (before.reverse ++ found.1, found.2) := fun k => ih (c :: front) k rfl
    cases skip with
    | succ k => exact hstep k
    | zero =>
      rw [splitAtWordFrom, splitAtWordFrom, hhead]
      split
      · exact hstep 0
      · split
        · simp
        · exact hstep _

/-- What is found in a text is found behind others as well. -/
theorem splitAtWordFrom_eq_map {word : List Char} (hword : word ≠ []) {before : List Char}
    (hedge : isEdge before.head? = true) (s : List Char) :
    splitAtWordFrom word before 0 s =
      (splitAtWord? word s).map fun found => (before.reverse ++ found.1, found.2) := by
  rw [splitAtWord?, if_neg (by simpa using hword)]
  exact splitAtWordFrom_append_before word [] hedge 0 s

/-- A text that begins with a character of identifiers begins with one of them, behind which none
goes on. -/
theorem exists_isIdent_append {c : Char} (hc : isIdentChar c = true) (cs : List Char) :
    ∃ w rest, c :: cs = w ++ rest ∧ IsIdent w ∧ Parted rest := by
  refine ⟨(c :: cs).takeWhile isIdentChar, (c :: cs).dropWhile isIdentChar,
    List.takeWhile_append_dropWhile.symm, ⟨?_, ?_⟩, fun d hd => ?_⟩
  · rw [List.takeWhile_cons_of_pos hc]
    exact List.cons_ne_nil _ _
  · exact List.all_eq_true.1 List.all_takeWhile
  · exact not_of_head?_dropWhile hd

/-- Two parts of a text are searched one after the other, unless an identifier goes on from the
first to the second. -/
theorem splitAtWordFrom_append_of_edge {word before s t : List Char} (hword : IsIdent word)
    (hstart : isEdge before.head? = true ∨ Parted s) (hend : isEdge s.getLast? = true ∨ Parted t) :
    splitAtWordFrom word before 0 (s ++ t) =
      match splitAtWordFrom word before 0 s with
      | some (front, back) => some (front, back ++ t)
      | none => splitAtWordFrom word (s.reverse ++ before) 0 t := by
  induction hn : s.length using Nat.strongRecOn generalizing s before with
  | ind n ih =>
    cases s with
    | nil => rfl
    | cons c cs =>
      by_cases hc : isIdentChar c = true
      · obtain ⟨w, rest, heq, hw, hrest⟩ := exists_isIdent_append hc cs
        have hbefore : isEdge before.head? = true := by
          refine hstart.resolve_right fun hparted => ?_
          rw [hparted c rfl] at hc
          cases hc
        rw [heq] at hend hn ⊢
        have hparted : Parted (rest ++ t) := by
          cases rest with
          | nil =>
            -- The identifier ends the first part, so the second goes on without one.
            refine hend.resolve_left fun hedge => ?_
            obtain ⟨d, hd⟩ := Option.isSome_iff_exists.1 (List.getLast?_isSome.2 hw.ne_nil)
            rw [List.append_nil, hd, isEdge, hw.chars d (List.mem_of_getLast? hd)] at hedge
            cases hedge
          | cons d rest => exact hrest
        have hlast : isEdge rest.getLast? = true ∨ Parted t := by
          refine hend.imp_left fun hedge => ?_
          cases hlast : rest.getLast? with
          | none => rfl
          | some d => rwa [List.getLast?_append, hlast, Option.some_or] at hedge
        rw [List.append_assoc]
        by_cases hne : w = word
        · subst hne
          rw [splitAtWordFrom_append hw hbefore hparted, splitAtWordFrom_append hw hbefore hrest]
        · have hlt : rest.length < n := by
            have hpos := List.length_pos_iff.2 hw.ne_nil
            rw [List.length_append] at hn
            omega
          rw [splitAtWordFrom_of_ne before hw hword hne hparted,
            splitAtWordFrom_of_ne before hw hword hne hrest, ih _ hlt (.inr hrest) hlast rfl,
            List.reverse_append, List.append_assoc]
      · rw [Bool.not_eq_true] at hc
        have hlast : isEdge cs.getLast? = true ∨ Parted t := by
          refine hend.imp_left fun hedge => ?_
          cases hlast : cs.getLast? with
          | none => rfl
          | some d => rwa [List.getLast?_cons, hlast, Option.getD_some] at hedge
        have hedge : isEdge (c :: before).head? = true := by
          rw [List.head?_cons, isEdge, hc]
          rfl
        rw [List.cons_append, splitAtWordFrom_cons hword hc, splitAtWordFrom_cons hword hc,
          ih _ (by simp [← hn]) (.inl hedge) hlast rfl, List.reverse_cons, List.append_assoc]
        rfl

/-- Identifiers with a space behind each of them. -/
def spacedBehind (ws : List (List Char)) : List Char :=
  ws.flatMap (· ++ [' '])

theorem spacedBehind_cons (w : List Char) (ws : List (List Char)) :
    spacedBehind (w :: ws) = w ++ ' ' :: spacedBehind ws := by
  simp [spacedBehind]

theorem spacedBehind_append (vs ws : List (List Char)) :
    spacedBehind (vs ++ ws) = spacedBehind vs ++ spacedBehind ws :=
  List.flatMap_append

/-- Joined words are some of them with a space behind each and the others joined. -/
theorem joinWords_append_cons (ws : List (List Char)) (v : List Char) (vs : List (List Char)) :
    joinWords (ws ++ v :: vs) = spacedBehind ws ++ (v ++ spaced vs) := by
  induction ws with
  | nil => exact joinWords_cons v vs
  | cons w ws ih =>
    obtain ⟨u, us, hus⟩ : ∃ u us, ws ++ v :: vs = u :: us := by
      cases ws with
      | nil => exact ⟨v, vs, rfl⟩
      | cons u ws => exact ⟨u, ws ++ v :: vs, rfl⟩
    rw [hus, joinWords_cons] at ih
    rw [List.cons_append, hus, joinWords_cons, spaced_cons, ih, spacedBehind_cons]
    simp only [List.append_assoc, List.cons_append]

/-- Identifiers that are other words are passed over, with the spaces behind them. -/
theorem splitAtWordFrom_spacedBehind {word : List Char} (hword : IsIdent word)
    {ws : List (List Char)} (hws : ∀ w ∈ ws, IsIdent w ∧ w ≠ word) (before rest : List Char) :
    splitAtWordFrom word before 0 (spacedBehind ws ++ rest) =
      splitAtWordFrom word ((spacedBehind ws).reverse ++ before) 0 rest := by
  induction ws generalizing before with
  | nil => rfl
  | cons w ws ih =>
    obtain ⟨⟨hw, hne⟩, hws⟩ := List.forall_mem_cons.1 hws
    rw [spacedBehind_cons, List.append_assoc, List.cons_append,
      splitAtWordFrom_of_ne before hw hword hne (parted_cons (by decide) _),
      splitAtWordFrom_cons hword (by decide), ih hws]
    simp

/-- Words with a space behind each do not end within an identifier. -/
theorem isEdge_getLast?_spacedBehind (ws : List (List Char)) :
    isEdge (spacedBehind ws).getLast? = true := by
  rcases List.eq_nil_or_concat ws with rfl | ⟨front, w, rfl⟩
  · rfl
  · have hlast : spacedBehind (front.concat w) = spacedBehind front ++ w ++ [' '] := by
      simp [spacedBehind]
    rw [hlast, List.getLast?_concat]
    rfl

/-- A word is found behind identifiers that are other words. -/
theorem splitAtWord?_spacedBehind {word rest : List Char} (hword : IsIdent word)
    {ws : List (List Char)} (hws : ∀ w ∈ ws, IsIdent w ∧ w ≠ word) (hrest : Parted rest) :
    splitAtWord? word (spacedBehind ws ++ (word ++ rest)) = some (spacedBehind ws, rest) := by
  have hedge : isEdge ((spacedBehind ws).reverse ++ []).head? = true := by
    rw [List.append_nil, List.head?_reverse]
    exact isEdge_getLast?_spacedBehind ws
  rw [splitAtWord?, if_neg (by simpa using hword.ne_nil), splitAtWordFrom_spacedBehind hword hws,
    splitAtWordFrom_append hword hedge hrest, List.append_nil, List.reverse_reverse]

end StructUnfold.Text
