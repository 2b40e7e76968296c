import StructUnfold.Proofs.Comment.Strip

/-!
# The bytes of comments

Which bytes of a text belong to comments can be told by a reader that knows only three states: the
code, a line comment and a block comment. It marks every byte in one pass from left to right, and
where two characters open or close a comment it marks both of them at once. The bytes that it marks
are those of the spans.

Since the spans are in order and disjoint, the one that an offset may lie in is found by halving:
it is the first one that does not end before the offset.

## Main definitions

* `Region`, `marks`: the reader and what it says of each byte.
* `partitionPoint`, `spanAt?`: the first span that does not end before an offset.

## Main results

* `marks_getElem?`: a byte is marked if it lies in a span.
* `inSpans_eq_spanAt?`: an offset is looked for in the one span that is found by halving.
* `spans_and_strip_are_exact`: what the search for comments finds and what taking them away leaves.
-/

namespace StructUnfold.Comment

open Text

/-! ### The reader -/

/-- What the reader of a text is in. -/
inductive Region where
  /-- The code. -/
  | code
  /-- A line comment. -/
  | line
  /-- A block comment. -/
  | block
deriving DecidableEq, Repr

/-- Whether each byte of a text belongs to a comment, for a reader in a region. -/
def marks : Region → List Char → List Bool
  | _, [] => []
  | .code, '/' :: '/' :: s => true :: true :: marks .line s
  | .code, '/' :: '*' :: s => true :: true :: marks .block s
  | .line, '\n' :: s => false :: marks .code s
  | .block, '*' :: '/' :: s => true :: true :: marks .code s
  | .code, c :: s => List.replicate c.utf8Size false ++ marks .code s
  | .line, c :: s => List.replicate c.utf8Size true ++ marks .line s
  | .block, c :: s => List.replicate c.utf8Size true ++ marks .block s

/-- The mode of the automaton in a region. -/
def Region.mode : Region → Mode
  | .code => .code
  | .line => .line
  | .block => .block

/-- Whether the bytes of a character belong to a comment. -/
def byteMarks (x : Char × Kind) : List Bool :=
  List.replicate x.1.utf8Size (x.2 != .code)

/-- The reader marks the characters that are no code. -/
theorem marks_eq_flatMap_byteMarks (r : Region) (s : List Char) :
    marks r s = (kindsFrom r.mode s).flatMap byteMarks := by
  fun_induction marks r s with
  | case1 r => rfl
  | case2 s ih | case3 s ih | case4 s ih | case5 s ih =>
    -- The characters that open and close comments, and the line feed, are read alike on both sides.
    rw [ih]
    rfl
  | case6 c s hline hblock ih =>
    have hstep : Mode.code.step c s.head? = (.code, .code) := by
      rcases step_code_eq_or c s.head? with hcode | ⟨mode, hopening⟩
      · exact hcode
      · obtain ⟨rfl, ⟨hnext, -⟩ | ⟨hnext, -⟩⟩ := Mode.of_step_eq_opening hopening
        · obtain ⟨rest, rfl⟩ := List.head?_eq_some_iff.1 hnext
          exact (hline rest rfl rfl).elim
        · obtain ⟨rest, rfl⟩ := List.head?_eq_some_iff.1 hnext
          exact (hblock rest rfl rfl).elim
    rw [Region.mode, kindsFrom, hstep, List.flatMap_cons, ih]
    rfl
  | case7 c s hfeed ih =>
    have hstep : Mode.line.step c s.head? = (.inside, .line) := if_neg hfeed
    rw [Region.mode, kindsFrom, hstep, List.flatMap_cons, ih]
    rfl
  | case8 c s hclose ih =>
    have hstep : Mode.block.step c s.head? = (.inside, .block) := by
      refine if_neg fun h => ?_
      rw [Bool.and_eq_true, decide_eq_true_eq, beq_iff_eq, List.head?_eq_some_iff] at h
      obtain ⟨rfl, rest, rfl⟩ := h
      exact hclose rest rfl rfl
    rw [Region.mode, kindsFrom, hstep, List.flatMap_cons, ih]
    rfl

/-- What is marked at a byte of a part of the text. -/
theorem getElem?_flatMap_byteMarks {text : List Char} {front m : List (Char × Kind)}
    (h : kinds text = front ++ m) {i : Nat} (hi : i < byteSize (m.map Prod.fst)) :
    (m.flatMap byteMarks)[i]? = some (inSpans (spans text) (byteSize (front.map Prod.fst) + i)) := by
  induction m generalizing front i with
  | nil => simp at hi
  | cons x m ih =>
    obtain ⟨c, k⟩ := x
    rw [List.map_cons, byteSize_cons] at hi
    dsimp only at hi
    have hsize : (byteMarks (c, k)).length = c.utf8Size := List.length_replicate
    rw [List.flatMap_cons]
    -- The byte is one of the first character, or it belongs to the rest.
    by_cases hfirst : i < c.utf8Size
    · have hmark : inSpans (spans text) (byteSize (front.map Prod.fst) + i) = (k != .code) := by
        rw [Bool.eq_iff_iff, bne_iff_ne]
        exact inSpans_spans_iff h hfirst
      rw [List.getElem?_append_left (by rw [hsize]; exact hfirst), hmark, byteMarks,
        List.getElem?_replicate, if_pos hfirst]
    · have hsplit : kinds text = (front ++ [(c, k)]) ++ m := by rw [h]; simp
      have hpos : byteSize ((front ++ [(c, k)]).map Prod.fst) + (i - c.utf8Size) =
          byteSize (front.map Prod.fst) + i := by
        rw [byteSize_map_concat]
        omega
      rw [List.getElem?_append_right (by rw [hsize]; omega), hsize, ih hsplit (by omega), hpos]

theorem length_flatMap_byteMarks (m : List (Char × Kind)) :
    (m.flatMap byteMarks).length = byteSize (m.map Prod.fst) := by
  induction m with
  | nil => rfl
  | cons x m ih =>
    rw [List.flatMap_cons, List.length_append, ih, byteMarks, List.length_replicate, List.map_cons,
      byteSize_cons]

/-- An offset in a comment is an offset of the text. -/
theorem lt_byteSize_of_inSpans {text : List Char} {offset : Nat}
    (h : inSpans (spans text) offset = true) : offset < byteSize text := by
  obtain ⟨span, hspan, hcontains⟩ := List.any_eq_true.1 h
  obtain ⟨before, comment, behind, rfl, -, hstart, hstop⟩ := (replaces_spans text).cut hspan
  simp only [Span.contains, Bool.and_eq_true, decide_eq_true_eq] at hcontains
  rw [byteSize_append, byteSize_append]
  omega

/-- The reader marks the bytes of the spans. -/
theorem marks_getElem? (text : List Char) (offset : Nat) :
    (marks .code text)[offset]? = some true ↔ inSpans (spans text) offset = true := by
  have hmarks : marks .code text = (kinds text).flatMap byteMarks :=
    marks_eq_flatMap_byteMarks .code text
  rw [hmarks]
  by_cases hlt : offset < byteSize text
  · have hall : kinds text = [] ++ kinds text := rfl
    have hbyte := getElem?_flatMap_byteMarks hall (by rw [map_fst_kinds]; exact hlt)
    rw [hbyte, Option.some.injEq, List.map_nil, byteSize_nil, Nat.zero_add]
  · have hnone : ((kinds text).flatMap byteMarks)[offset]? = none := by
      rw [List.getElem?_eq_none_iff, length_flatMap_byteMarks, map_fst_kinds]
      exact Nat.le_of_not_lt hlt
    rw [hnone]
    exact iff_of_false (by simp) fun h => hlt (lt_byteSize_of_inSpans h)

/-- The star that opens a comment does not close it as well. -/
example : marks .code ['/', '*', '/', 'x', '*', '/', 'y'] =
    [true, true, true, true, true, true, false] := by decide

/-! ### Looking for an offset -/

/-- Where a test that holds of the first spans of a list and of no later one stops holding, by
halving the part of the list in which that may be. -/
def partitionPoint (test : Span → Bool) (spans : List Span) (low high : Nat) : Nat :=
  if low < high then
    if spans[(low + high) / 2]?.any test then
      partitionPoint test spans ((low + high) / 2 + 1) high
    else partitionPoint test spans low ((low + high) / 2)
  else low
termination_by high - low

/-- The first span that does not end before an offset. -/
def spanAt? (spans : List Span) (offset : Nat) : Option Span :=
  spans[partitionPoint (fun span => span.stop ≤ offset) spans 0 spans.length]?

/-- Halving finds the place if it lies in the part of the list that is halved. -/
theorem partitionPoint_eq {test : Span → Bool} {front back : List Span}
    (hfront : ∀ span ∈ front, test span = true) (hback : ∀ span ∈ back, test span = false)
    {low high : Nat} (hlow : low ≤ front.length) (hhigh : front.length ≤ high) :
    partitionPoint test (front ++ back) low high = front.length := by
  fun_induction partitionPoint test (front ++ back) low high with
  | case1 low high hlt htest ih =>
    -- The test holds in the middle, so the middle is one of the first spans.
    refine ih (Nat.lt_of_not_le fun hmiddle => ?_) hhigh
    rw [List.getElem?_append_right hmiddle, Option.any_eq_true] at htest
    obtain ⟨span, hspan, htest⟩ := htest
    rw [hback span (List.mem_of_getElem? hspan)] at htest
    cases htest
  | case2 low high hlt htest ih =>
    refine ih hlow (Nat.le_of_not_lt fun hmiddle => htest ?_)
    rw [List.getElem?_append_left hmiddle, List.getElem?_eq_getElem hmiddle]
    exact hfront _ (List.getElem_mem _)
  | case3 low high hle => omega

/-- Spans that are in order fall into those that end before an offset and those that do not. -/
theorem exists_spans_cut {spans : List Span} (hne : ∀ span ∈ spans, span.start < span.stop)
    (hsorted : spans.Pairwise fun a b => a.stop ≤ b.start) (offset : Nat) :
    ∃ front back, spans = front ++ back ∧ (∀ span ∈ front, span.stop ≤ offset) ∧
      (∀ span ∈ back, offset < span.stop) ∧ ∀ span ∈ back.tail, offset < span.start := by
  induction spans with
  | nil => exact ⟨[], [], rfl, by simp, by simp, by simp⟩
  | cons span spans ih =>
    obtain ⟨hspan, hspans⟩ := List.forall_mem_cons.1 hne
    obtain ⟨hfirst, hsorted⟩ := List.pairwise_cons.1 hsorted
    by_cases hstop : span.stop ≤ offset
    · obtain ⟨front, back, rfl, hfront, hback, htail⟩ := ih hspans hsorted
      exact ⟨span :: front, back, rfl, List.forall_mem_cons.2 ⟨hstop, hfront⟩, hback, htail⟩
    · -- All spans behind this one begin where it has ended already.
      have hlater : ∀ other ∈ spans, offset < other.start := fun other hother => by
        have hle := hfirst other hother
        omega
      refine ⟨[], span :: spans, rfl, by simp, ?_, hlater⟩
      refine List.forall_mem_cons.2 ⟨by omega, fun other hother => ?_⟩
      have hstart := hlater other hother
      have hlt := hspans other hother
      omega

/-- In spans that are in order, an offset is looked for in the first one that does not end before
it. -/
theorem inSpans_eq_spanAt? {spans : List Span} (hne : ∀ span ∈ spans, span.start < span.stop)
    (hsorted : spans.Pairwise fun a b => a.stop ≤ b.start) (offset : Nat) :
    inSpans spans offset = (spanAt? spans offset).any fun span => span.start ≤ offset := by
  obtain ⟨front, back, rfl, hfront, hback, htail⟩ := exists_spans_cut hne hsorted offset
  -- The spans that end before the offset come first, so halving finds how many they are.
  have hplace : partitionPoint (fun span => span.stop ≤ offset) (front ++ back) 0
      (front ++ back).length = front.length := by
    refine partitionPoint_eq (fun span hspan => ?_) (fun span hspan => ?_) (Nat.zero_le _) (by simp)
    · exact decide_eq_true (hfront span hspan)
    · exact decide_eq_false (Nat.not_le_of_lt (hback span hspan))
  have hoff : front.any (fun span => span.contains offset) = false := by
    refine List.any_eq_false.2 fun span hspan => ?_
    have hstop := hfront span hspan
    simp only [Span.contains, Bool.and_eq_true, decide_eq_true_eq]
    omega
  rw [spanAt?, hplace, List.getElem?_append_right (Nat.le_refl _), Nat.sub_self, inSpans,
    List.any_append, hoff, Bool.false_or]
  cases back with
  | nil => rfl
  | cons span back =>
    -- The spans behind it begin behind the offset.
    have hbehind : back.any (fun span => span.contains offset) = false := by
      refine List.any_eq_false.2 fun other hother => ?_
      have hstart := htail other hother
      simp only [Span.contains, Bool.and_eq_true, decide_eq_true_eq]
      omega
    have hstop := hback span List.mem_cons_self
    rw [List.any_cons, hbehind, Bool.or_false, Span.contains, decide_eq_true hstop, Bool.and_true]
    rfl

/-! ### The search as a whole -/

/-- The comments of a text are found exactly, and taking them away leaves exactly the rest with a
space for each. The spans are not empty, in order and disjoint, and lie between characters; they
hold the bytes that the reader marks; halving finds the span that an offset lies in; and in the text
with a space for each of them there is no comment left, and characters that a comment kept apart are
kept apart by spaces. -/
theorem spans_and_strip_are_exact (text : List Char) :
    (∀ span ∈ spans text, span.start < span.stop) ∧
    (spans text).Pairwise (fun a b => a.stop ≤ b.start) ∧
    (∀ span ∈ spans text, ∃ before comment behind, text = before ++ comment ++ behind ∧
      span = ⟨byteSize before, byteSize before + byteSize comment⟩) ∧
    (∀ offset, (∃ span ∈ spans text, span.start ≤ offset ∧ offset < span.stop) ↔
      (marks .code text)[offset]? = some true) ∧
    (∀ offset, inSpans (spans text) offset = true ↔
      ∃ span ∈ spans text, span.start ≤ offset ∧ offset < span.stop) ∧
    (∀ offset, inSpans (spans text) offset =
      (spanAt? (spans text) offset).any fun span => span.start ≤ offset) ∧
    Replaces 0 text (spans text) (strip text) ∧
    spans (strip text) = [] ∧ strip (strip text) = strip text ∧
    (∀ u a w b v, text = u ++ a :: (w ++ b :: v) → w ≠ [] →
      inSpans (spans text) (byteSize u) = false →
      inSpans (spans text) (byteSize u + a.utf8Size + byteSize w) = false →
      (∀ offset, byteSize u + a.utf8Size ≤ offset →
        offset < byteSize u + a.utf8Size + byteSize w → inSpans (spans text) offset = true) →
      ∃ n, strip text = strip u ++ a :: (List.replicate (n + 1) ' ' ++ b :: strip v)) := by
  have hreplaces := replaces_spans text
  have hne : ∀ span ∈ spans text, span.start < span.stop := by
    intro span hspan
    obtain ⟨-, comment, -, -, hcomment, -, hstop⟩ := hreplaces.cut hspan
    have hsize : byteSize comment ≠ 0 := mt byteSize_eq_zero_iff.1 hcomment
    omega
  have hin : ∀ offset, inSpans (spans text) offset = true ↔
      ∃ span ∈ spans text, span.start ≤ offset ∧ offset < span.stop := by
    intro offset
    simp only [inSpans, List.any_eq_true, Span.contains, Bool.and_eq_true, decide_eq_true_eq]
  refine ⟨hne, hreplaces.pairwise, ?_, ?_, hin, inSpans_eq_spanAt? hne hreplaces.pairwise,
    hreplaces, spans_strip text, strip_strip text, ?_⟩
  · intro span hspan
    obtain ⟨before, comment, behind, htext, -, hstart, hstop⟩ := hreplaces.cut hspan
    rw [Nat.zero_add] at hstart
    exact ⟨before, comment, behind, htext, by rw [← hstart, ← hstop]⟩
  · intro offset
    rw [marks_getElem?, hin]
  · rintro u a w b v rfl hw ha hb hbetween
    exact exists_strip_eq_of_comment_between hw ha hb hbetween

end StructUnfold.Comment
