import Mathlib.Data.List.Basic
import StructUnfold.Proofs.Comment.Kinds
import StructUnfold.Proofs.Text.Offset

/-!
# Texts that differ in what their comments say

Two texts hold the same code if they are of one size, have comments at the same places, and have the
same characters outside them and their line feeds at the same places. A text without what its
comments say can be put together from just that, offset by offset.

* `SameCode`: texts that differ in nothing but what their comments say.
* `blotted_eq_filterMap`: a text without what its comments say, offset by offset.
* `SameCode.blotAt_eq`, `SameCode.blotted_eq`: texts that hold the same code are the same once their
  comments are erased.
-/

namespace StructUnfold.Comment

open Text

/-- The character at a byte offset; none past the end or inside a character. -/
def charAt? (offset : Nat) (s : List Char) : Option Char :=
  (dropBytes? offset s).bind List.head?

/-- Two texts differ in nothing but what their comments say. -/
structure SameCode (s t : List Char) : Prop where
  /-- They have the same number of bytes. -/
  size : byteSize s = byteSize t
  /-- They have comments at the same places. -/
  spans : spans s = spans t
  /-- They have the same characters outside comments. -/
  code : ∀ offset, inSpans (Comment.spans s) offset = false → charAt? offset s = charAt? offset t
  /-- They have their line feeds at the same places. -/
  feeds : ∀ offset, charAt? offset s = some '\n' ↔ charAt? offset t = some '\n'

/-! ### What stands at an offset -/

theorem charAt?_append_cons (p : List Char) (c : Char) (q : List Char) :
    charAt? (byteSize p) (p ++ c :: q) = some c := by
  rw [charAt?, dropBytes?_byteSize_append]
  rfl

/-- Inside a character there is none. -/
theorem charAt?_of_lt (p : List Char) {c : Char} (q : List Char) {i : Nat} (hi : 0 < i)
    (hi' : i < c.utf8Size) : charAt? (byteSize p + i) (p ++ c :: q) = none := by
  have hdrop : dropBytes? (byteSize p + i) (p ++ c :: q) = none := by
    refine Option.eq_none_iff_forall_ne_some.2 fun t ht => ?_
    obtain ⟨p', htext, hsize⟩ := dropBytes?_eq_some_iff.1 ht
    rcases List.append_eq_append_iff.1 htext with ⟨z, rfl, hz⟩ | ⟨z, rfl, -⟩
    · rw [byteSize_append] at hsize
      cases z with
      | nil =>
        rw [byteSize_nil] at hsize
        omega
      | cons d z =>
        obtain ⟨rfl, -⟩ := List.cons_eq_cons.1 hz
        rw [byteSize_cons] at hsize
        omega
    · rw [byteSize_append] at hsize
      omega
  rw [charAt?, hdrop]
  rfl

/-- Past the end there is none. -/
theorem charAt?_of_le {s : List Char} {offset : Nat} (h : byteSize s ≤ offset) :
    charAt? offset s = none := by
  rw [charAt?]
  cases hdrop : dropBytes? offset s with
  | none => rfl
  | some t =>
    obtain ⟨p, rfl, rfl⟩ := dropBytes?_eq_some_iff.1 hdrop
    rw [byteSize_append] at h
    obtain rfl : t = [] := byteSize_eq_zero_iff.1 (by omega)
    rfl

/-- Whether two texts hold the same code is told by the offsets in them. -/
instance (s t : List Char) : Decidable (SameCode s t) :=
  decidable_of_iff (byteSize s = byteSize t ∧ Comment.spans s = Comment.spans t ∧
      (∀ offset < byteSize s, inSpans (Comment.spans s) offset = false →
        charAt? offset s = charAt? offset t) ∧
      ∀ offset < byteSize s, charAt? offset s = some '\n' ↔ charAt? offset t = some '\n')
    ⟨fun ⟨hsize, hspans, hcode, hfeeds⟩ =>
      have hpast : ∀ offset, ¬offset < byteSize s → charAt? offset s = none ∧
          charAt? offset t = none := fun _ h =>
        ⟨charAt?_of_le (Nat.le_of_not_lt h), charAt?_of_le (hsize ▸ Nat.le_of_not_lt h)⟩
      ⟨hsize, hspans,
        fun offset houtside => (Decidable.em (offset < byteSize s)).elim
          (fun h => hcode offset h houtside)
          fun h => (hpast offset h).1.trans (hpast offset h).2.symm,
        fun offset => (Decidable.em (offset < byteSize s)).elim (hfeeds offset)
          fun h => by rw [(hpast offset h).1, (hpast offset h).2]⟩,
    fun h => ⟨h.size, h.spans, fun offset _ => h.code offset, fun offset _ => h.feeds offset⟩⟩

/-- Comments begin where their first characters stand. -/
theorem exists_start_spansFrom_iff {mode : Mode} {pos : Nat} {opened : Option Nat} {s : List Char}
    {front back : List (Char × Kind)} {c : Char} {k : Kind}
    (h : kindsFrom mode s = front ++ (c, k) :: back)
    (hopened : ∀ start, opened = some start → start < pos) {i : Nat} (hi : i < c.utf8Size) :
    (∃ span ∈ spansFrom mode pos opened s,
      span.start = pos + byteSize (front.map Prod.fst) + i) ↔ k = .opening ∧ i = 0 := by
  induction s generalizing mode pos opened front with
  | nil => simp [kindsFrom] at h
  | cons d s ih =>
    obtain ⟨kind, mode', hstep⟩ : ∃ kind mode', mode.step d s.head? = (kind, mode') := ⟨_, _, rfl⟩
    rw [kindsFrom, hstep] at h
    have hsize := d.utf8Size_pos
    have hlater : ∀ start, kind.opened pos opened = some start → start < pos + d.utf8Size := by
      intro start hstart
      cases kind with
      | code => cases hstart
      | opening =>
        obtain rfl := Option.some.inj hstart
        omega
      | inside =>
        have hlt := hopened start hstart
        omega
    -- The comment that ends before the character began before it.
    have hclosed : ∀ span ∈ kind.closed pos opened, span.start < pos := fun span hspan =>
      hopened _ (Kind.of_mem_closed hspan).1
    simp only [spansFrom_cons, hstep, List.mem_append]
    cases front with
    | nil =>
      obtain ⟨hx, -⟩ := List.cons_eq_cons.1 h
      obtain ⟨rfl, rfl⟩ := Prod.mk.inj hx
      rw [List.map_nil, byteSize_nil, Nat.add_zero]
      constructor
      · rintro ⟨span, hspan | hspan, hstart⟩
        · have hlt := hclosed span hspan
          omega
        · rcases mem_spansFrom hspan with hsome | hle
          · cases kind with
            | code => cases hsome
            | opening =>
              have hpos := Option.some.inj hsome
              exact ⟨rfl, by omega⟩
            | inside =>
              have hlt := hopened _ hsome
              omega
          · omega
      · rintro ⟨rfl, rfl⟩
        obtain ⟨stop, -, hmem⟩ := exists_mem_spansFrom mode' (pos + d.utf8Size) pos s
        exact ⟨_, .inr hmem, rfl⟩
    | cons x front =>
      obtain ⟨rfl, hrest⟩ := List.cons_eq_cons.1 h
      rw [← ih hrest hlater, List.map_cons, byteSize_cons]
      dsimp only
      constructor
      · rintro ⟨span, hspan | hspan, hstart⟩
        · have hlt := hclosed span hspan
          omega
        · exact ⟨span, hspan, by omega⟩
      · rintro ⟨span, hspan, hstart⟩
        exact ⟨span, .inr hspan, by omega⟩

/-! ### Offset by offset -/

/-- What is left of a text at an offset when its comments are erased. -/
def blotAt (s : List Char) (offset : Nat) : Option (Char × Kind) :=
  if inSpans (spans s) offset then
    some (if charAt? offset s = some '\n' then '\n' else '*',
      if (spans s).any fun span => span.start == offset then .opening else .inside)
  else (charAt? offset s).map fun c => (c, .code)

variable {s t : List Char} {front back : List (Char × Kind)} {c : Char} {k : Kind}

theorem charAt?_of_kinds (h : kinds s = front ++ (c, k) :: back) :
    charAt? (byteSize (front.map Prod.fst)) s = some c ∧
      ∀ i, 0 < i → i < c.utf8Size → charAt? (byteSize (front.map Prod.fst) + i) s = none := by
  have hs : s = front.map Prod.fst ++ c :: back.map Prod.fst := by
    rw [← map_fst_kinds s, h]
    simp
  constructor
  · rw [hs]
    exact charAt?_append_cons _ c _
  · intro i hi hi'
    rw [hs]
    exact charAt?_of_lt _ _ hi hi'

/-- In a comment stars and line feeds are left, and the mark of its first byte. -/
theorem blotAt_of_ne_code (h : kinds s = front ++ (c, k) :: back) (hk : k ≠ .code) {i : Nat}
    (hi : i < c.utf8Size) :
    blotAt s (byteSize (front.map Prod.fst) + i) = some (if c = '\n' then '\n' else '*', k) := by
  obtain ⟨hfirst, hinside⟩ := charAt?_of_kinds h
  -- Inside a character no other one begins, and a line feed has a single byte.
  have hfeed : charAt? (byteSize (front.map Prod.fst) + i) s = some '\n' ↔ c = '\n' := by
    rcases Nat.eq_zero_or_pos i with rfl | hpos
    · rw [Nat.add_zero, hfirst, Option.some.injEq]
    · rw [hinside i hpos hi]
      refine iff_of_false (by simp) ?_
      rintro rfl
      have hone : '\n'.utf8Size = 1 := rfl
      omega
  -- A comment begins at the first byte of its slash only.
  have hstarts : ((spans s).any fun span =>
      span.start == byteSize (front.map Prod.fst) + i) = (k == .opening) := by
    have hnone : ∀ start, none = some start → start < 0 := fun _ hsome => by cases hsome
    have hiff := exists_start_spansFrom_iff h hnone hi
    rw [Nat.zero_add] at hiff
    rw [Bool.eq_iff_iff, List.any_eq_true]
    simp only [beq_iff_eq]
    refine hiff.trans (and_iff_left_of_imp ?_)
    rintro rfl
    obtain ⟨rfl, -⟩ := exists_of_opening h
    have hone : '/'.utf8Size = 1 := rfl
    omega
  rw [blotAt, if_pos ((inSpans_spans_iff h hi).2 hk), hstarts]
  simp only [hfeed]
  cases k with
  | code => exact absurd rfl hk
  | opening => rfl
  | inside => rfl

/-- What is left of a character is what is left at its bytes. -/
theorem filterMap_blotAt (h : kinds s = front ++ (c, k) :: back) :
    (List.range' (byteSize (front.map Prod.fst)) c.utf8Size).filterMap (blotAt s) =
      blot (c, k) := by
  obtain ⟨hfirst, hinside⟩ := charAt?_of_kinds h
  by_cases hk : k = .code
  · subst hk
    have hcode : ∀ i, i < c.utf8Size → blotAt s (byteSize (front.map Prod.fst) + i) =
        (charAt? (byteSize (front.map Prod.fst) + i) s).map fun c => (c, .code) :=
      fun i hi => if_neg fun hspan => (inSpans_spans_iff h hi).1 hspan rfl
    obtain ⟨n, hn⟩ := Nat.exists_eq_succ_of_ne_zero (Nat.pos_iff_ne_zero.1 c.utf8Size_pos)
    have hhead : blotAt s (byteSize (front.map Prod.fst)) = some (c, .code) := by
      have hzero := hcode 0 c.utf8Size_pos
      rwa [Nat.add_zero, hfirst, Option.map_some] at hzero
    -- Nothing is read inside a character of code.
    have htail : (List.range' (byteSize (front.map Prod.fst) + 1) n).filterMap (blotAt s) = [] := by
      refine List.filterMap_eq_nil_iff.2 fun offset hoffset => ?_
      rw [List.mem_range'_1] at hoffset
      obtain ⟨i, rfl⟩ := Nat.exists_eq_add_of_le (Nat.le_of_succ_le hoffset.1)
      rw [hcode i (by omega), hinside i (by omega) (by omega), Option.map_none]
    rw [hn, List.range'_succ, List.filterMap_cons, hhead, htail, blot_code]
  · -- In a comment something is left at every byte.
    have hall : ∀ offset ∈ List.range' (byteSize (front.map Prod.fst)) c.utf8Size,
        blotAt s offset = some (if c = '\n' then '\n' else '*', k) := by
      intro offset hoffset
      rw [List.mem_range'_1] at hoffset
      obtain ⟨i, rfl⟩ := Nat.exists_eq_add_of_le hoffset.1
      exact blotAt_of_ne_code h hk (by omega)
    rw [List.filterMap_congr hall, List.filterMap_eq_map', List.map_const', List.length_range',
      blot]
    by_cases hfeed : c = '\n'
    · subst hfeed
      rw [if_pos rfl, if_pos (.inr rfl)]
      rfl
    · rw [if_neg hfeed, if_neg (by simp [hk, hfeed])]

/-- The rest of a text without what its comments say, offset by offset. -/
theorem flatMap_blot_eq_filterMap {m : List (Char × Kind)} (h : kinds s = front ++ m) :
    m.flatMap blot = (List.range' (byteSize (front.map Prod.fst))
      (byteSize (m.map Prod.fst))).filterMap (blotAt s) := by
  induction m generalizing front with
  | nil => rfl
  | cons x m ih =>
    obtain ⟨c, k⟩ := x
    have hsplit : kinds s = (front ++ [(c, k)]) ++ m := by simp [h]
    have hrest := ih hsplit
    rw [byteSize_map_concat] at hrest
    rw [List.flatMap_cons, hrest, ← filterMap_blotAt h, List.map_cons, byteSize_cons,
      ← List.range'_append_1, List.filterMap_append]

/-- A text without what its comments say, offset by offset. -/
theorem blotted_eq_filterMap (s : List Char) :
    blotted s = (List.range (byteSize s)).filterMap (blotAt s) := by
  have hkinds : kinds s = [] ++ kinds s := rfl
  have hall := flatMap_blot_eq_filterMap hkinds
  rwa [map_fst_kinds, List.map_nil, byteSize_nil, ← List.range_eq_range'] at hall

/-- At each offset the same is left of texts that hold the same code. -/
theorem SameCode.blotAt_eq (h : SameCode s t) (offset : Nat) :
    blotAt s offset = blotAt t offset := by
  rw [blotAt, blotAt, ← h.spans]
  cases hspan : inSpans (Comment.spans s) offset with
  | true => simp only [if_true, h.feeds offset]
  | false => rw [h.code offset hspan]

/-- Texts that hold the same code are the same once their comments are erased. -/
theorem SameCode.blotted_eq (h : SameCode s t) : blotted s = blotted t := by
  rw [blotted_eq_filterMap, blotted_eq_filterMap, h.size]
  exact List.filterMap_congr fun offset _ => h.blotAt_eq offset

end StructUnfold.Comment
