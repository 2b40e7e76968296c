import StructUnfold.Proofs.Comment.SameCode

/-!
# Code at an offset

The code of a text is told by two things: the comments that are found when the text is read from its
start, and the character that stands at an offset. Reading from a character of code on finds the
same comments, so the code behind it is that of the rest of the text.

* `codeAt?`, `codeBetween`: the character of code at an offset, and those between two offsets.
* `kinds_of_codeAt?`, `codeAt?_of_kinds`: what that says about the characters with their kinds.
* `codeBetween_eq`: the code between two characters.
* `Unclosed`, `unclosed_iff_opensBlock`: a block comment that is never closed.
-/

namespace StructUnfold.Comment

open Text

/-- The character of code at a byte offset; none in a comment, past the end or inside a
character. -/
def codeAt? (offset : Nat) (text : List Char) : Option Char :=
  if inSpans (spans text) offset then none else charAt? offset text

/-- The characters of code between two offsets, both excluded. -/
def codeBetween (text : List Char) (start stop : Nat) : List Char :=
  (List.range' (start + 1) (stop - (start + 1))).filterMap fun offset => codeAt? offset text

/-- The characters of code among characters with their kinds. -/
def codeOf (m : List (Char × Kind)) : List Char :=
  (m.filter fun x => x.2 == .code).map Prod.fst

@[simp] theorem codeOf_nil : codeOf [] = [] := rfl

theorem codeOf_cons_code (c : Char) (m : List (Char × Kind)) :
    codeOf ((c, .code) :: m) = c :: codeOf m := rfl

theorem codeOf_cons_of_ne {k : Kind} (hk : k ≠ .code) (c : Char) (m : List (Char × Kind)) :
    codeOf ((c, k) :: m) = codeOf m := by
  rw [codeOf, List.filter_cons_of_neg (by simpa using hk), codeOf]

theorem codeOf_append (m n : List (Char × Kind)) : codeOf (m ++ n) = codeOf m ++ codeOf n := by
  rw [codeOf, List.filter_append, List.map_append, codeOf, codeOf]

variable {text : List Char} {front back : List (Char × Kind)} {c : Char} {k : Kind}

/-! ### What stands at an offset -/

/-- The text falls into two parts at the offset of a character. -/
theorem exists_of_charAt? {offset : Nat} (h : charAt? offset text = some c) :
    ∃ before behind, text = before ++ c :: behind ∧ offset = byteSize before := by
  obtain ⟨rest, hdrop, hhead⟩ := Option.bind_eq_some_iff.1 h
  obtain ⟨behind, rfl⟩ := List.head?_eq_some_iff.1 hhead
  obtain ⟨before, htext, hoffset⟩ := dropBytes?_eq_some_iff.1 hdrop
  exact ⟨before, behind, htext, hoffset.symm⟩

/-- What stands at an offset, in characters with their kinds. -/
theorem exists_kinds_of_charAt? {offset : Nat} (h : charAt? offset text = some c) :
    ∃ front k back, kinds text = front ++ (c, k) :: back ∧
      offset = byteSize (front.map Prod.fst) := by
  obtain ⟨before, behind, htext, rfl⟩ := exists_of_charAt? h
  have hmap : (kinds text).map Prod.fst = before ++ c :: behind := by rw [map_fst_kinds, htext]
  obtain ⟨front, rest, hkinds, hfront, hrest⟩ := List.map_eq_append_iff.1 hmap
  obtain ⟨⟨d, k⟩, back, rfl, hd, -⟩ := List.map_eq_cons_iff.1 hrest
  obtain rfl : d = c := hd
  exact ⟨front, k, back, hkinds, by rw [hfront]⟩

/-- A character of code at an offset is one of the characters of code. -/
theorem kinds_of_codeAt? {offset : Nat} (h : codeAt? offset text = some c) :
    ∃ front back, kinds text = front ++ (c, .code) :: back ∧
      offset = byteSize (front.map Prod.fst) := by
  rw [codeAt?] at h
  split at h
  · cases h
  · rename_i houtside
    obtain ⟨front, k, back, hkinds, rfl⟩ := exists_kinds_of_charAt? h
    rw [inSpans_eq hkinds, bne_iff_ne, not_not] at houtside
    subst houtside
    exact ⟨front, back, hkinds, rfl⟩

theorem codeAt?_of_kinds (h : kinds text = front ++ (c, .code) :: back) :
    codeAt? (byteSize (front.map Prod.fst)) text = some c := by
  rw [codeAt?, inSpans_eq h]
  exact (charAt?_of_kinds h).1

/-- What is read at the bytes of a character is that character if it is code. -/
theorem filterMap_codeAt? (h : kinds text = front ++ (c, k) :: back) :
    (List.range' (byteSize (front.map Prod.fst)) c.utf8Size).filterMap
      (fun offset => codeAt? offset text) = codeOf [(c, k)] := by
  obtain ⟨n, hn⟩ := Nat.exists_eq_succ_of_ne_zero (Nat.pos_iff_ne_zero.1 c.utf8Size_pos)
  have hinside : (List.range' (byteSize (front.map Prod.fst) + 1) n).filterMap
      (fun offset => codeAt? offset text) = [] := by
    refine List.filterMap_eq_nil_iff.2 fun offset hoffset => ?_
    rw [List.mem_range'_1] at hoffset
    obtain ⟨i, rfl⟩ := Nat.exists_eq_add_of_le (Nat.le_of_succ_le hoffset.1)
    have hnone := (charAt?_of_kinds h).2 i (by omega) (by omega)
    rw [codeAt?, hnone, ite_self]
  rw [hn, List.range'_succ]
  by_cases hk : k = .code
  · subst hk
    rw [List.filterMap_cons, codeAt?_of_kinds h, hinside]
    rfl
  · have hnone : codeAt? (byteSize (front.map Prod.fst)) text = none :=
      if_pos ((inSpans_spans_iff h c.utf8Size_pos).2 hk)
    rw [List.filterMap_cons, hnone, hinside, codeOf_cons_of_ne hk, codeOf_nil]

/-- What is read at the bytes of some characters is the code among them. -/
theorem filterMap_codeAt?_append {m : List (Char × Kind)} (h : kinds text = front ++ (m ++ back)) :
    (List.range' (byteSize (front.map Prod.fst)) (byteSize (m.map Prod.fst))).filterMap
      (fun offset => codeAt? offset text) = codeOf m := by
  induction m generalizing front with
  | nil => rfl
  | cons x m ih =>
    obtain ⟨c, k⟩ := x
    have hrest := @ih (front ++ [(c, k)]) (by rw [h]; simp)
    rw [byteSize_map_concat] at hrest
    rw [List.map_cons, byteSize_cons, ← List.range'_append_1, List.filterMap_append, hrest,
      filterMap_codeAt? h, ← codeOf_append]
    rfl

/-! ### The code behind a brace -/

/-- The offset of a character that stands behind a brace. -/
theorem byteSize_behind {front w : List (Char × Kind)} {c : Char} (hc : c.utf8Size = 1)
    (k : Kind) :
    byteSize ((front ++ (c, k) :: w).map Prod.fst) =
      byteSize (front.map Prod.fst) + 1 + byteSize (w.map Prod.fst) := by
  rw [List.map_append, byteSize_append, List.map_cons, byteSize_cons, hc, Nat.add_assoc]

/-- What begins behind the offset of a character begins behind the character. -/
theorem exists_behind {x : Char × Kind} {front' back' : List (Char × Kind)}
    (h : front ++ x :: back = front' ++ back')
    (hlt : byteSize (front.map Prod.fst) < byteSize (front'.map Prod.fst)) :
    ∃ w, front' = front ++ x :: w ∧ back = w ++ back' := by
  rcases List.append_eq_append_iff.1 h with ⟨w, rfl, hw⟩ | ⟨w, rfl, -⟩
  · cases w with
    | nil => simp at hlt
    | cons y w =>
      obtain ⟨rfl, hback⟩ := List.cons_eq_cons.1 hw
      exact ⟨w, rfl, hback⟩
  · rw [List.map_append, byteSize_append] at hlt
    omega

/-- The characters of code behind a character of one byte are those of the rest of the text. -/
theorem codeAt?_behind_iff (h : kinds text = front ++ (c, k) :: back) (hc : c.utf8Size = 1)
    {offset : Nat} {d : Char} :
    byteSize (front.map Prod.fst) < offset ∧ codeAt? offset text = some d ↔
      ∃ w rest, back = w ++ (d, .code) :: rest ∧
        offset = byteSize (front.map Prod.fst) + 1 + byteSize (w.map Prod.fst) := by
  constructor
  · rintro ⟨hlt, hcode⟩
    obtain ⟨front', back', hkinds, rfl⟩ := kinds_of_codeAt? hcode
    obtain ⟨w, rfl, hback⟩ := exists_behind (h.symm.trans hkinds) hlt
    exact ⟨w, back', hback, byteSize_behind hc k⟩
  · rintro ⟨w, rest, rfl, rfl⟩
    have hkinds : kinds text = (front ++ (c, k) :: w) ++ (d, .code) :: rest := by
      rw [h, List.append_assoc, List.cons_append]
    have hcode := codeAt?_of_kinds hkinds
    rw [byteSize_behind hc] at hcode
    exact ⟨by omega, hcode⟩

/-- The code between a brace and a character behind it. -/
theorem codeBetween_eq {w rest : List (Char × Kind)}
    (h : kinds text = front ++ ('{', .code) :: (w ++ rest)) :
    codeBetween text (byteSize (front.map Prod.fst))
      (byteSize (front.map Prod.fst) + 1 + byteSize (w.map Prod.fst)) = codeOf w := by
  have hsplit : kinds text = (front ++ [('{', .code)]) ++ (w ++ rest) := by rw [h]; simp
  have hpos : byteSize ((front ++ [('{', Kind.code)]).map Prod.fst) =
      byteSize (front.map Prod.fst) + 1 := byteSize_behind rfl .code
  have hcode := filterMap_codeAt?_append hsplit
  rw [hpos] at hcode
  rw [codeBetween, ← hcode, Nat.add_sub_cancel_left]

/-! ### Comments that are never closed -/

/-- A block comment begins at an offset and is never closed. -/
def Unclosed (text : List Char) (start : Nat) : Prop :=
  (∃ comment ∈ spans text, comment.start = start) ∧
    ∃ rest, dropBytes? start text = some ('/' :: '*' :: rest) ∧ ¬['*', '/'] <:+: rest

/-- Among characters that begin at offset `pos`, a block comment begins at `start` and is never
closed. -/
def OpensBlock (m : List (Char × Kind)) (pos start : Nat) : Prop :=
  ∃ front rest, m = front ++ ('/', .opening) :: ('*', .inside) :: rest ∧
    ¬['*', '/'] <:+: rest.map Prod.fst ∧ start = pos + byteSize (front.map Prod.fst)

theorem opensBlock_cons_iff {c : Char} {k : Kind} {m : List (Char × Kind)} {pos start : Nat} :
    OpensBlock ((c, k) :: m) pos start ↔ OpensBlock m (pos + c.utf8Size) start ∨
      (c, k) = ('/', .opening) ∧ start = pos ∧
        ∃ rest, m = ('*', .inside) :: rest ∧ ¬['*', '/'] <:+: rest.map Prod.fst := by
  constructor
  · rintro ⟨front, rest, hm, hopen, rfl⟩
    cases front with
    | nil =>
      obtain ⟨hc, rfl⟩ := List.cons_eq_cons.1 hm
      exact .inr ⟨hc, rfl, rest, rfl, hopen⟩
    | cons x front =>
      obtain ⟨rfl, rfl⟩ := List.cons_eq_cons.1 hm
      exact .inl ⟨front, rest, rfl, hopen, by rw [List.map_cons, byteSize_cons, Nat.add_assoc]⟩
  · rintro (⟨front, rest, rfl, hopen, rfl⟩ | ⟨hc, rfl, rest, rfl, hopen⟩)
    · exact ⟨(c, k) :: front, rest, rfl, hopen, by
        rw [List.map_cons, byteSize_cons, Nat.add_assoc]⟩
    · exact ⟨[], rest, by rw [hc]; rfl, hopen, rfl⟩

/-- A comment of the text begins where a character opens one. -/
theorem exists_start_iff (h : kinds text = front ++ (c, k) :: back) :
    (∃ comment ∈ spans text, comment.start = byteSize (front.map Prod.fst)) ↔ k = .opening := by
  have hnone : ∀ start, none = some start → start < 0 := fun _ hsome => by cases hsome
  have hiff := exists_start_spansFrom_iff h hnone c.utf8Size_pos
  rwa [Nat.zero_add, and_iff_left rfl] at hiff

theorem unclosed_iff_opensBlock {start : Nat} :
    Unclosed text start ↔ OpensBlock (kinds text) 0 start := by
  constructor
  · rintro ⟨hcomment, rest, hdrop, hopen⟩
    have hchar : charAt? start text = some '/' := by rw [charAt?, hdrop]; rfl
    obtain ⟨front, k, back, hkinds, rfl⟩ := exists_kinds_of_charAt? hchar
    obtain rfl := (exists_start_iff hkinds).1 hcomment
    obtain ⟨-, d, behind, rfl, -⟩ := exists_of_opening hkinds
    rw [← map_fst_kinds text, hkinds, List.map_append, dropBytes?_byteSize_append] at hdrop
    obtain ⟨-, hrest⟩ := List.cons_eq_cons.1 (Option.some.inj hdrop)
    obtain ⟨rfl, rfl⟩ := List.cons_eq_cons.1 hrest
    exact ⟨front, behind, hkinds, hopen, (Nat.zero_add _).symm⟩
  · rintro ⟨front, rest, hkinds, hopen, rfl⟩
    rw [Nat.zero_add]
    refine ⟨(exists_start_iff hkinds).2 rfl, rest.map Prod.fst, ?_, hopen⟩
    rw [← map_fst_kinds text, hkinds, List.map_append, dropBytes?_byteSize_append]
    rfl

/-- A block comment that is never closed begins behind a character of one byte if it does so in the
rest of the text. -/
theorem unclosed_behind_iff (h : kinds text = front ++ (c, k) :: back) (hc : c.utf8Size = 1)
    {start : Nat} :
    byteSize (front.map Prod.fst) < start ∧ Unclosed text start ↔
      OpensBlock back (byteSize (front.map Prod.fst) + 1) start := by
  rw [unclosed_iff_opensBlock]
  constructor
  · rintro ⟨hlt, front', rest, hkinds, hopen, rfl⟩
    rw [Nat.zero_add] at hlt ⊢
    obtain ⟨w, rfl, hback⟩ := exists_behind (h.symm.trans hkinds) hlt
    exact ⟨w, rest, hback, hopen, byteSize_behind hc k⟩
  · rintro ⟨w, rest, rfl, hopen, rfl⟩
    refine ⟨by omega, front ++ (c, k) :: w, rest, ?_, hopen, ?_⟩
    · rw [h, List.append_assoc, List.cons_append]
    · rw [Nat.zero_add, byteSize_behind hc]

/-- A block comment that is not closed goes on to the end. -/
theorem kindsFrom_block {s : List Char} (h : ¬['*', '/'] <:+: s) :
    ∀ x ∈ kindsFrom .block s, x.2 = .inside := by
  induction s with
  | nil => simp [kindsFrom]
  | cons c s ih =>
    have hstep : Mode.block.step c s.head? = (.inside, .block) := by
      refine if_neg fun hclose => h ?_
      rw [Bool.and_eq_true, decide_eq_true_eq, beq_iff_eq, List.head?_eq_some_iff] at hclose
      obtain ⟨rfl, rest, rfl⟩ := hclose
      exact ⟨[], rest, rfl⟩
    rw [kindsFrom, hstep]
    exact List.forall_mem_cons.2 ⟨rfl, ih fun hlater => h (List.infix_cons hlater)⟩

/-- Behind the opening of a block comment that is never closed all stands in the comment. -/
theorem inside_of_opensBlock {rest : List (Char × Kind)}
    (h : kinds text = front ++ ('/', .opening) :: ('*', .inside) :: rest)
    (hopen : ¬['*', '/'] <:+: rest.map Prod.fst) : ∀ x ∈ rest, x.2 = .inside := by
  obtain ⟨before, behind, hstep, hback⟩ := exists_step_of_kindsFrom h
  obtain ⟨-, ⟨hline, -⟩ | ⟨-, rfl⟩⟩ := Mode.of_step_eq_opening hstep
  · cases hline
  · obtain ⟨-, hrest⟩ := List.cons_eq_cons.1 hback
    rw [hrest]
    exact kindsFrom_block hopen

/-- There is no code behind a block comment that is never closed. -/
theorem Unclosed.lt_of_codeAt? {start offset : Nat} (h : Unclosed text start)
    (hcode : codeAt? offset text = some c) : offset < start := by
  obtain ⟨front, rest, hkinds, hopen, rfl⟩ := unclosed_iff_opensBlock.1 h
  obtain ⟨front', back', hkinds', rfl⟩ := kinds_of_codeAt? hcode
  rw [Nat.zero_add]
  rcases List.append_eq_append_iff.1 (hkinds.symm.trans hkinds') with
    ⟨w, rfl, hw⟩ | ⟨w, rfl, hw⟩
  · -- The character would stand in the comment.
    have hmem : (c, Kind.code) ∈ ('/', Kind.opening) :: ('*', .inside) :: rest := by
      rw [hw]
      exact List.mem_append_cons_self
    simp only [List.mem_cons, Prod.mk.injEq, reduceCtorEq, and_false, false_or] at hmem
    cases inside_of_opensBlock hkinds hopen _ hmem
  · cases w with
    | nil => cases (List.cons_eq_cons.1 hw).1
    | cons x w =>
      have hx := x.1.utf8Size_pos
      rw [List.map_append, byteSize_append, List.map_cons, byteSize_cons]
      omega

/-- In a text that ends in code every comment is closed. -/
theorem not_unclosed_of_codeAt? {offset : Nat} (hcode : codeAt? offset text = some c)
    (hlast : byteSize text ≤ offset + 1) (start : Nat) : ¬Unclosed text start := by
  intro h
  have hlt := h.lt_of_codeAt? hcode
  obtain ⟨-, rest, hdrop, -⟩ := h
  have hnone := charAt?_of_le (Nat.le_trans hlast hlt)
  rw [charAt?, hdrop] at hnone
  cases hnone

end StructUnfold.Comment
