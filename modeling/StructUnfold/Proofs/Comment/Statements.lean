import StructUnfold.Proofs.Comment.Headers
import StructUnfold.Proofs.Source.Declarator

/-!
# Comments among alias statements

A statement stands between two places where a text is cut: semicolons, braces and the ends of lines.
So the search for statements goes from one stretch of the text to the next. Where there is a comment
in a stretch and the keyword `typedef` is not, no statement begins in the code of the stretch,
whatever the comment says.

* `isCut`, `StretchesAreSafe`: a text in which no stretch has a comment and the keyword.
* `startOf?_append_stop`, `ofTextFrom_append_stop`: the search goes from stretch to stretch.
* `filter_allStatements_eq`: the statements outside comments are those of the erased text.
-/

namespace StructUnfold

namespace AliasStatement

open Text

/-! ### What ends a statement -/

theorem isIdentChar_eq_false_of_stop {x : Char} (h : isBodyChar x = false) :
    isIdentChar x = false := by
  rw [← Bool.not_eq_true]
  intro hx
  have hne : ∀ d, isIdentChar d = false → x ≠ d := fun d hd => ne_of_isIdentChar hx hd
  simp [isBodyChar, hne '{' (by decide), hne '}' (by decide), hne ';' (by decide),
    hne '\n' (by decide)] at h

theorem isBlank_eq_false_of_stop {x : Char} (h : isBodyChar x = false) : isBlank x = false := by
  rw [← Bool.not_eq_true]
  intro hx
  simp only [isBlank, Bool.or_eq_true, beq_iff_eq] at hx
  rcases hx with rfl | rfl <;> cases h

/-- A word is looked for before a character that does not occur in it. -/
theorem after?_append_stop {word : List Char} {x : Char} (hx : x ∉ word) (u rest : List Char) :
    after? word (u ++ x :: rest) = (after? word u).map fun v => v ++ x :: rest := by
  induction word generalizing u with
  | nil => rfl
  | cons p word ih =>
    rw [List.mem_cons, not_or] at hx
    cases u with
    | nil => exact if_neg (Ne.symm hx.1)
    | cons c u =>
      rw [List.cons_append, after?, after?]
      split
      · exact ih hx.2 u
      · rfl

section

variable {x : Char} (hx : isBodyChar x = false)
include hx

theorem not_mem_keyword {word : List Char} (hword : IsIdent word) : x ∉ word :=
  hword.not_mem (isIdentChar_eq_false_of_stop hx)

/-- A body is read up to the character that ends it. -/
theorem bodyFromKeyword?_append_stop (u rest rest' : List Char) :
    bodyFromKeyword? (u ++ x :: rest) = bodyFromKeyword? (u ++ x :: rest') := by
  have hstruct : x ∉ "struct".toList := not_mem_keyword hx (by decide)
  have hneg : ¬isBodyChar x = true := by simp [hx]
  rw [bodyFromKeyword?, bodyFromKeyword?, after?_append_stop hstruct, after?_append_stop hstruct]
  cases after? "struct".toList u with
  | none => rfl
  | some v =>
    have hhead : ∀ s, (v ++ x :: s).head? = some (v.headD x) := by
      intro s
      cases v <;> rfl
    have hdrop : ∀ s, ((v ++ x :: s).dropWhile isBodyChar).head? =
        some ((v.dropWhile isBodyChar).headD x) := by
      intro s
      rw [dropWhile_append_cons_of_neg hneg]
      cases v.dropWhile isBodyChar <;> rfl
    simp only [Option.map_some, hhead, hdrop, takeWhile_append_cons_of_neg hneg]

/-- A statement is read up to the character that ends it. -/
theorem startOf?_append_stop (u rest rest' : List Char) :
    startOf? (u ++ x :: rest) = startOf? (u ++ x :: rest') := by
  have htypedef : x ∉ "typedef".toList := not_mem_keyword hx (by decide)
  have hblank : ¬isBlank x = true := by simp [isBlank_eq_false_of_stop hx]
  rw [startOf?, startOf?, after?_append_stop htypedef, after?_append_stop htypedef]
  cases after? "typedef".toList u with
  | none => rfl
  | some v =>
    have hlength : ∀ s, ((v.dropWhile isBlank ++ x :: s).length < (v ++ x :: s).length) ↔
        (v.dropWhile isBlank).length < v.length := by
      intro s
      simp only [List.length_append]
      omega
    have hsub : ∀ s, (u ++ x :: s).length - (v.dropWhile isBlank ++ x :: s).length =
        u.length - (v.dropWhile isBlank).length := by
      intro s
      simp only [List.length_append]
      omega
    simp only [Option.map_some, dropWhile_append_cons_of_neg hblank, hlength, hsub,
      bodyFromKeyword?_append_stop hx _ rest rest']

/-- A body ends before the character that ends it. -/
theorem length_of_bodyFromKeyword? {u rest body : List Char}
    (h : bodyFromKeyword? (u ++ x :: rest) = some body) :
    "struct".length + body.length ≤ u.length := by
  have hstruct : x ∉ "struct".toList := not_mem_keyword hx (by decide)
  have hneg : ¬isBodyChar x = true := by simp [hx]
  rw [bodyFromKeyword?, after?_append_stop hstruct] at h
  cases hafter : after? "struct".toList u with
  | none =>
    rw [hafter] at h
    cases h
  | some v =>
    obtain rfl := after?_eq_some_iff.1 hafter
    have hbody : v.takeWhile isBodyChar = body := by
      simp only [hafter, Option.map_some, takeWhile_append_cons_of_neg hneg] at h
      split at h
      · cases h
      · split at h
        · exact Option.some.inj h
        · cases h
    have hle := (List.takeWhile_prefix isBodyChar (l := v)).length_le
    rw [hbody] at hle
    have hlength : "struct".toList.length = "struct".length := rfl
    rw [List.length_append, hlength]
    omega

/-- A statement ends with the character that ends it, if not before. -/
theorem length_of_startOf? {u rest body : List Char} {n : Nat}
    (h : startOf? (u ++ x :: rest) = some (n, body)) : n ≤ u.length + 1 := by
  have htypedef : x ∉ "typedef".toList := not_mem_keyword hx (by decide)
  have hblank : ¬isBlank x = true := by simp [isBlank_eq_false_of_stop hx]
  rw [startOf?, after?_append_stop htypedef] at h
  cases hafter : after? "typedef".toList u with
  | none =>
    rw [hafter] at h
    cases h
  | some v =>
    have hu := congrArg List.length (after?_eq_some_iff.1 hafter)
    have hle := (List.dropWhile_suffix isBlank (l := v)).length_le
    simp only [hafter, Option.map_some, dropWhile_append_cons_of_neg hblank] at h
    split at h
    · obtain ⟨found, hfound, heq⟩ := Option.map_eq_some_iff.1 h
      have hbody := length_of_bodyFromKeyword? hx hfound
      have hn := (Prod.mk.inj heq).1
      rw [List.length_append] at hu
      simp only [List.length_append, List.length_cons] at hn
      omega
    · cases h

/-- The search for statements goes on behind a character that ends them. -/
theorem ofTextFrom_append_stop {s : List Char} {skip : Nat} (hskip : skip ≤ s.length + 1)
    (previous : Option Char) (pos : Nat) (rest : List Char) :
    ofTextFrom previous skip pos (s ++ x :: rest) =
      ofTextFrom previous skip pos (s ++ [x]) ++
        ofTextFrom (some x) 0 (pos + byteSize (s ++ [x])) rest := by
  induction s generalizing previous skip pos with
  | nil =>
    cases skip with
    | zero =>
      have hinert := inert_of_not_isIdentChar (isIdentChar_eq_false_of_stop hx)
      have hnone := hinert previous pos []
      rw [List.append_nil] at hnone
      rw [List.nil_append, List.nil_append, ← List.singleton_append, hinert, hnone]
      rfl
    | succ k =>
      obtain rfl : k = 0 := by simpa using hskip
      rw [List.nil_append, List.nil_append, byteSize_cons, byteSize_nil, Nat.add_zero]
      rfl
  | cons c s ih =>
    rw [List.length_cons] at hskip
    rw [List.cons_append, List.cons_append, byteSize_cons, ← Nat.add_assoc]
    cases skip with
    | succ k => exact ih (by omega) (some c) (pos + c.utf8Size)
    | zero =>
      have hsame := startOf?_append_stop hx (c :: s) rest []
      rw [List.cons_append, List.cons_append] at hsame
      rw [ofTextFrom, ofTextFrom, hsame]
      cases hstart : (if previous.any isWordChar then none else startOf? (c :: (s ++ [x]))) with
      | none => exact ih (Nat.zero_le _) (some c) (pos + c.utf8Size)
      | some found =>
        obtain ⟨n, body⟩ := found
        have hsome : startOf? ((c :: s) ++ x :: []) = some (n, body) := by
          split at hstart
          · cases hstart
          · exact hstart
        have hn := length_of_startOf? hx hsome
        rw [List.length_cons] at hn
        have htake : (c :: (s ++ x :: rest)).take n = (c :: (s ++ [x])).take n := by
          have htext : ∀ r, c :: (s ++ x :: r) = (c :: (s ++ [x])) ++ r := by simp
          rw [htext, List.take_append_of_le_length (by simp; omega)]
        dsimp only
        rw [htake, ih (by omega) (some c) (pos + c.utf8Size), List.cons_append]

end

/-- A statement that is found begins in the text where it is found. -/
theorem exists_of_mem_ofTextFrom {previous : Option Char} {skip pos : Nat} {s : List Char}
    {st : AliasStatement} (h : st ∈ ofTextFrom previous skip pos s) :
    ∃ front back, s = front ++ back ∧ st.offset = pos + byteSize front ∧
      (startOf? back).isSome := by
  induction s generalizing previous skip pos with
  | nil => cases h
  | cons c s ih =>
    have hlater : ∀ {k}, st ∈ ofTextFrom (some c) k (pos + c.utf8Size) s →
        ∃ front back, c :: s = front ++ back ∧ st.offset = pos + byteSize front ∧
          (startOf? back).isSome := by
      intro k hk
      obtain ⟨front, back, rfl, hoffset, hstart⟩ := ih hk
      exact ⟨c :: front, back, rfl, by rw [hoffset, byteSize_cons, Nat.add_assoc], hstart⟩
    cases skip with
    | succ k => exact hlater h
    | zero =>
      rw [ofTextFrom] at h
      split at h
      · exact hlater h
      · rename_i n body hstart
        rcases List.mem_cons.1 h with rfl | h
        · refine ⟨[], c :: s, rfl, rfl, ?_⟩
          split at hstart
          · cases hstart
          · rw [hstart, Option.isSome_some]
        · exact hlater h

end AliasStatement

namespace Comment

open Text AliasStatement

/-- Whether a text is cut at a character: at a semicolon, a brace or the end of a line. -/
def isCut (c : Char × Kind) : Bool :=
  !isBodyChar c.1 && (c.2 == .code || c.1 == '\n')

/-- No stretch of a text has both a comment and the keyword `typedef`. -/
def StretchesAreSafe (m : List (Char × Kind)) : Prop :=
  ∀ stretch ∈ m.splitOnP isCut, (stretch.any fun c => c.2 != .code) = true →
    containsText "typedef".toList (stretch.map Prod.fst) = false

/-- Something stands in the place of every character. -/
theorem exists_mem_blot (c : Char × Kind) : ∃ x ∈ blot c, x.2 = c.2 := by
  rw [blot]
  split
  · exact ⟨c, List.mem_singleton_self c, rfl⟩
  · exact ⟨('*', c.2), List.mem_replicate.2 ⟨Nat.pos_iff_ne_zero.1 c.1.utf8Size_pos, rfl⟩, rfl⟩

/-- A text of code without slashes is code throughout once it begins with code. -/
theorem code_of_head {t : List Char} {front w r : List (Char × Kind)}
    (h : kinds t = front ++ (w ++ r)) (hhead : ∀ x, w.head? = some x → x.2 = .code)
    (hslash : '/' ∉ w.map Prod.fst) : ∀ x ∈ w, x.2 = .code := by
  induction w generalizing front with
  | nil => simp
  | cons x w ih =>
    obtain ⟨c, k⟩ := x
    obtain rfl : k = .code := hhead _ rfl
    rw [List.map_cons, List.mem_cons, not_or] at hslash
    have hsplit : kinds t = (front ++ [(c, .code)]) ++ (w ++ r) := by simp [h]
    refine List.forall_mem_cons.2 ⟨rfl, ih hsplit ?_ hslash.2⟩
    intro y hy
    cases w with
    | nil => cases hy
    | cons z w =>
      obtain rfl := Option.some.inj hy
      obtain ⟨d, k⟩ := z
      -- A comment that follows code begins with a slash.
      refine Decidable.byContradiction fun hk => ?_
      have hafter : kindsFrom .code t = front ++ (c, .code) :: (d, k) :: (w ++ r) := h
      obtain rfl := eq_opening_of_code hafter hk
      have hopening : kindsFrom .code t = (front ++ [(c, .code)]) ++ (d, .opening) :: (w ++ r) :=
        hsplit
      obtain ⟨rfl, -⟩ := exists_of_opening hopening
      simp at hslash

/-- A statement that is found in a stretch begins with the keyword. -/
theorem exists_of_mem_stretch {stretch : List (Char × Kind)} {tail : List Char}
    (htail : ∀ c ∈ tail, isBodyChar c = false) {previous : Option Char} {pos : Nat}
    {st : AliasStatement} (h : st ∈ ofTextFrom previous 0 pos (stretch.map Prod.fst ++ tail)) :
    ∃ a w r, stretch = a ++ (w ++ r) ∧ w.map Prod.fst = "typedef".toList ∧
      st.offset = pos + byteSize (a.map Prod.fst) := by
  obtain ⟨front, back, htext, hoffset, hstart⟩ := exists_of_mem_ofTextFrom h
  obtain ⟨rest, rfl⟩ : ∃ rest, back = "typedef".toList ++ rest := by
    rw [startOf?] at hstart
    cases hafter : after? "typedef".toList back with
    | none =>
      rw [hafter] at hstart
      cases hstart
    | some rest => exact ⟨rest, after?_eq_some_iff.1 hafter⟩
  rw [← List.append_assoc] at htext
  rcases List.append_eq_append_iff.1 htext with ⟨z, hz, hrest⟩ | ⟨z, hz, hrest⟩
  · -- The keyword would have to end in the character that ends the stretch.
    rcases List.eq_nil_or_concat z with rfl | ⟨z, c, rfl⟩
    · rw [List.append_nil] at hz
      obtain ⟨a, w, rfl, rfl, hw⟩ := List.map_eq_append_iff.1 hz.symm
      exact ⟨a, w, [], by simp, hw, hoffset⟩
    · have hlast := congrArg List.getLast? hz
      rw [List.concat_eq_append, ← List.append_assoc, List.getLast?_concat,
        List.getLast?_append] at hlast
      obtain rfl : 'f' = c := Option.some.inj hlast
      have hbody := htail 'f' (by rw [hrest]; simp)
      cases hbody
  · obtain ⟨aw, r, rfl, haw, -⟩ := List.map_eq_append_iff.1 hz
    obtain ⟨a, w, rfl, rfl, hw⟩ := List.map_eq_append_iff.1 haw
    exact ⟨a, w, r, List.append_assoc a w r, hw, hoffset⟩

section

variable {t : List Char} {front stretch rest : List (Char × Kind)}

/-- In a safe stretch the statements outside comments are those of the erased stretch. -/
theorem filter_stretch (h : kinds t = front ++ (stretch ++ rest)) {tail : List Char}
    (htail : ∀ c ∈ tail, isBodyChar c = false)
    (hsafe : ((stretch.flatMap blot).any fun c => c.2 != .code) = true →
      containsText "typedef".toList ((stretch.flatMap blot).map Prod.fst) = false)
    (previous : Option Char) :
    (ofTextFrom previous 0 (byteSize (front.map Prod.fst)) (stretch.map Prod.fst ++ tail)).filter
        (fun st => !inSpans (spans t) st.offset) =
      ofTextFrom previous 0 (byteSize (front.map Prod.fst))
        ((stretch.flatMap blot).map Prod.fst ++ tail) := by
  -- Whether a statement stands in a comment is told by the first character of its keyword.
  have hspan : ∀ {a w r : List (Char × Kind)} {st : AliasStatement}, stretch = a ++ (w ++ r) →
      w.map Prod.fst = "typedef".toList →
      st.offset = byteSize (front.map Prod.fst) + byteSize (a.map Prod.fst) →
      ∃ k w', w = ('t', k) :: w' ∧ inSpans (spans t) st.offset = (k != .code) := by
    rintro a w r st rfl hw hoffset
    obtain ⟨⟨c, k⟩, w', rfl, hc, -⟩ := List.map_eq_cons_iff.1 hw
    obtain rfl : c = 't' := hc
    have hsplit : kinds t = (front ++ a) ++ ('t', k) :: (w' ++ r ++ rest) := by simp [h]
    have hkind := inSpans_eq hsplit
    rw [List.map_append, byteSize_append, ← hoffset] at hkind
    exact ⟨k, w', rfl, hkind⟩
  by_cases hcode : ∀ x ∈ stretch, x.2 = .code
  · rw [flatMap_blot_of_code hcode, List.filter_eq_self]
    intro st hst
    obtain ⟨a, w, r, hsplit, hw, hoffset⟩ := exists_of_mem_stretch htail hst
    obtain ⟨k, w', rfl, hkind⟩ := hspan hsplit hw hoffset
    obtain rfl : k = .code := hcode ('t', k) (by simp [hsplit])
    rw [hkind]
    rfl
  · have hany : ((stretch.flatMap blot).any fun c => c.2 != .code) = true := by
      obtain ⟨x, hx, hk⟩ : ∃ x ∈ stretch, x.2 ≠ .code := by simpa using hcode
      obtain ⟨y, hy, hkind⟩ := exists_mem_blot x
      exact List.any_eq_true.2 ⟨y, List.mem_flatMap.2 ⟨x, hx, hy⟩, by simp [hkind, hk]⟩
    have hnone := hsafe hany
    have hkeyword : ∀ {a w r : List (Char × Kind)}, stretch.flatMap blot = a ++ (w ++ r) →
        w.map Prod.fst ≠ "typedef".toList := by
      intro a w r hsplit hw
      rw [hsplit, List.map_append, List.map_append, hw,
        containsText_eq_true_iff.2 ⟨_, _, List.append_assoc ..⟩] at hnone
      cases hnone
    have herased : ofTextFrom previous 0 (byteSize (front.map Prod.fst))
        ((stretch.flatMap blot).map Prod.fst ++ tail) = [] := by
      refine List.eq_nil_iff_forall_not_mem.2 fun st hst => ?_
      obtain ⟨a, w, r, hsplit, hw, -⟩ := exists_of_mem_stretch htail hst
      exact hkeyword hsplit hw
    rw [herased, List.filter_eq_nil_iff]
    intro st hst houtside
    obtain ⟨a, w, r, hsplit, hw, hoffset⟩ := exists_of_mem_stretch htail hst
    obtain ⟨k, w', hw', hkind⟩ := hspan hsplit hw hoffset
    have hk : k = .code := by simpa [hkind] using houtside
    have hsplit' : kinds t = (front ++ a) ++ (w ++ (r ++ rest)) := by simp [h, hsplit]
    have hall := code_of_head hsplit' (by simp [hw', hk]) (by rw [hw]; decide)
    refine hkeyword (a := a.flatMap blot) (w := w) (r := r.flatMap blot) ?_ hw
    rw [hsplit, List.flatMap_append, List.flatMap_append, flatMap_blot_of_code hall]

/-- No place to cut is made or lost by erasing a stretch. -/
theorem isCut_eq_false_of_mem_flatMap_blot (h : ∀ x ∈ stretch, isCut x = false) :
    ∀ y ∈ stretch.flatMap blot, isCut y = false := by
  intro y hy
  obtain ⟨⟨c, k⟩, hx, hyx⟩ := List.mem_flatMap.1 hy
  by_cases hk : k = .code
  · subst hk
    rw [blot_code] at hyx
    obtain rfl := List.mem_singleton.1 hyx
    exact h _ hx
  · obtain ⟨-, hstar | ⟨-, hfeed⟩⟩ := eq_star_or_eq_feed (c := (c, k)) hk hyx
    · rw [isCut, hstar]
      rfl
    · obtain rfl : c = '\n' := hfeed
      have hcut := h _ hx
      simp [isCut, isBodyChar] at hcut

/-- A place to cut stays as it is. -/
theorem blot_of_isCut {c : Char × Kind} (h : isCut c = true) : blot c = [c] := by
  refine if_pos ?_
  rw [isCut, Bool.and_eq_true, Bool.or_eq_true, beq_iff_eq, beq_iff_eq] at h
  exact h.2

/-- The statements in the rest of a text whose stretches are safe, where comments are left out or
erased. -/
theorem filter_ofTextFrom {front m : List (Char × Kind)} (h : kinds t = front ++ m)
    (hsafe : StretchesAreSafe (m.flatMap blot)) (previous : Option Char) :
    (ofTextFrom previous 0 (byteSize (front.map Prod.fst)) (m.map Prod.fst)).filter
        (fun st => !inSpans (spans t) st.offset) =
      ofTextFrom previous 0 (byteSize (front.map Prod.fst)) ((m.flatMap blot).map Prod.fst) := by
  obtain ⟨stretch, rest, rfl, hstretch, hrest⟩ := exists_cut (fun x => !isCut x) m
  replace hstretch : ∀ x ∈ stretch, isCut x = false := fun x hx => by simpa using hstretch x hx
  have hnocut := isCut_eq_false_of_mem_flatMap_blot hstretch
  cases rest with
  | nil =>
    have hone := hsafe (stretch.flatMap blot) (by
      rw [List.append_nil, List.splitOnP_eq_singleton hnocut]
      exact List.mem_singleton_self _)
    have htail : ∀ c ∈ ([] : List Char), isBodyChar c = false := by simp
    have hall := filter_stretch h htail hone previous
    rwa [List.append_nil, List.append_nil, ← List.append_nil stretch] at hall
  | cons x rest =>
    have hx : isCut x = true := by simpa using hrest x rfl
    have hbody : isBodyChar x.1 = false := by
      rw [isCut, Bool.and_eq_true, Bool.not_eq_true'] at hx
      exact hx.1
    have hblot : (stretch ++ x :: rest).flatMap blot =
        stretch.flatMap blot ++ x :: rest.flatMap blot := by
      rw [List.flatMap_append, List.flatMap_cons, blot_of_isCut hx, List.singleton_append]
    rw [StretchesAreSafe, hblot, List.splitOnP_append_cons_of_forall_mem hnocut _ hx] at hsafe
    obtain ⟨hone, hmore⟩ := List.forall_mem_cons.1 hsafe
    have htail : ∀ c ∈ [x.1], isBodyChar c = false := List.forall_mem_singleton.2 hbody
    have hall := filter_stretch h htail hone previous
    have hsplit : kinds t = (front ++ stretch ++ [x]) ++ rest := by simp [h]
    have ih := filter_ofTextFrom hsplit hmore (some x.1)
    have hpos : byteSize ((front ++ stretch ++ [x]).map Prod.fst) =
        byteSize (front.map Prod.fst) + byteSize (stretch.map Prod.fst ++ [x.1]) := by
      rw [List.map_append, List.map_append, List.append_assoc, byteSize_append]
      rfl
    have hsize : byteSize ((stretch.flatMap blot).map Prod.fst ++ [x.1]) =
        byteSize (stretch.map Prod.fst ++ [x.1]) := by
      rw [byteSize_append, byteSize_map_flatMap_blot, byteSize_append]
    have hcut : ∀ s rest : List Char,
        ofTextFrom previous 0 (byteSize (front.map Prod.fst)) (s ++ x.1 :: rest) =
          ofTextFrom previous 0 (byteSize (front.map Prod.fst)) (s ++ [x.1]) ++
            ofTextFrom (some x.1) 0 (byteSize (front.map Prod.fst) + byteSize (s ++ [x.1])) rest :=
      fun s rest => ofTextFrom_append_stop hbody (Nat.zero_le _) previous _ rest
    rw [hpos] at ih
    rw [hblot, List.map_append, List.map_cons, List.map_append, List.map_cons,
      hcut (stretch.map Prod.fst) (rest.map Prod.fst), hcut ((stretch.flatMap blot).map Prod.fst),
      List.filter_append, hall, hsize, ih]
termination_by m.length

end

/-- In a text whose stretches are safe the statements outside comments are those of the erased
text. -/
theorem filter_allStatements_eq {t : List Char} (h : StretchesAreSafe (blotted t)) :
    (AliasStatement.all t).filter (fun st => !inSpans (spans t) st.offset) =
      AliasStatement.all (erased t) := by
  have hkinds : kinds t = [] ++ kinds t := rfl
  have hall := filter_ofTextFrom hkinds h none
  rwa [map_fst_kinds] at hall

end Comment

end StructUnfold
