import StructUnfold.Proofs.Comment.Kinds
import StructUnfold.Proofs.Text.Offset

/-!
# Comments replaced by spaces

The search for comments cuts a text into code and comments, and taking the comments away puts one
space in the place of each. The space keeps apart what stood before and behind the comment, so no
slash gets next to a character that would make it the beginning of a comment, and nothing is left to
be taken away.

## Main definitions

* `Replaces`: a text, the spans of some comments in it, and the text with a space for each of them.

## Main results

* `replaces_spans`: taking the comments away puts a space in the place of each span.
* `Replaces.cut`, `Replaces.pairwise`: the spans lie between characters, in order, and are disjoint.
* `spans_strip`, `strip_strip`: no comment is left.
* `exists_strip_eq_of_comment_between`: characters that a comment keeps apart stay apart.
-/

namespace StructUnfold.Comment

open Text

/-- A text that begins at an offset, comments in it by their spans, and the text with one space in
the place of each of them. -/
inductive Replaces : Nat → List Char → List Span → List Char → Prop
  | code (pos : Nat) (s : List Char) : Replaces pos s [] s
  | comment {pos : Nat} {before comment rest out : List Char} {spans : List Span} :
      comment ≠ [] →
      Replaces (pos + byteSize before + byteSize comment) rest spans out →
      Replaces pos (before ++ comment ++ rest)
        (⟨pos + byteSize before, pos + byteSize before + byteSize comment⟩ :: spans)
        (before ++ ' ' :: out)

namespace Replaces

variable {pos : Nat} {s out : List Char} {spans : List Span}

/-- A character of code before the text stays. -/
theorem cons {c : Char} (h : Replaces (pos + c.utf8Size) s spans out) :
    Replaces pos (c :: s) spans (c :: out) := by
  cases h with
  | code => exact .code pos (c :: s)
  | @comment _ before comment rest out spans hne hrest =>
    have hpos : pos + c.utf8Size + byteSize before = pos + byteSize (c :: before) := by
      rw [byteSize_cons, Nat.add_assoc]
    rw [hpos] at hrest ⊢
    exact @Replaces.comment pos (c :: before) comment rest out spans hne hrest

/-- A comment before the text gives way to a space. -/
theorem comment_append {w : List Char} (hw : w ≠ [])
    (h : Replaces (pos + byteSize w) s spans out) :
    Replaces pos (w ++ s) (⟨pos, pos + byteSize w⟩ :: spans) (' ' :: out) :=
  @Replaces.comment pos [] w s out spans hw h

/-- The spans lie between characters of the text, and no span is empty. -/
theorem cut (h : Replaces pos s spans out) {span : Span} (hspan : span ∈ spans) :
    ∃ before comment behind, s = before ++ comment ++ behind ∧ comment ≠ [] ∧
      span.start = pos + byteSize before ∧ span.stop = span.start + byteSize comment := by
  induction h with
  | code => cases hspan
  | @comment pos before comment rest out spans hne hrest ih =>
    rcases List.mem_cons.1 hspan with rfl | hspan
    · exact ⟨before, comment, rest, rfl, hne, rfl, rfl⟩
    · obtain ⟨later, inner, behind, rfl, hinner, hstart, hstop⟩ := ih hspan
      refine ⟨before ++ comment ++ later, inner, behind, by simp, hinner, ?_, hstop⟩
      rw [hstart]
      simp only [byteSize_append, Nat.add_assoc]

/-- No span reaches into one behind it. -/
theorem pairwise (h : Replaces pos s spans out) :
    spans.Pairwise fun a b => a.stop ≤ b.start := by
  induction h with
  | code => exact .nil
  | comment hne hrest ih =>
    refine List.pairwise_cons.2 ⟨fun span hspan => ?_, ih⟩
    obtain ⟨later, -, -, -, -, hstart, -⟩ := hrest.cut hspan
    rw [hstart]
    exact Nat.le_add_right _ _

/-- A text without comments stays as it is. -/
theorem eq_of_nil (h : Replaces pos s [] out) : out = s := by
  cases h
  rfl

end Replaces

/-! ### The search -/

/-- A comment that is open ends where code or another comment begins. -/
theorem spansFrom_some_cons {mode : Mode} {c : Char} {s : List Char}
    (h : (mode.step c s.head?).1 ≠ .inside) (pos start : Nat) :
    spansFrom mode pos (some start) (c :: s) =
      ⟨start, pos⟩ :: spansFrom mode pos none (c :: s) := by
  rw [spansFrom_cons, spansFrom_cons]
  cases hkind : (mode.step c s.head?).1 with
  | inside => exact absurd hkind h
  | _ => rfl

/-- The search for comments and the replacement go together: outside a comment over the text that is
left, and inside one over what has been read of it and the text that is left. -/
theorem replaces_spansFrom (s : List Char) :
    (∀ pos, Replaces pos s (spansFrom .code pos none s) (stripOnto [] .code s)) ∧
      ∀ mode start w, w ≠ [] → Replaces start (w ++ s)
        (spansFrom mode (start + byteSize w) (some start) s) (' ' :: stripOnto [] mode s) := by
  induction s with
  | nil =>
    refine ⟨fun pos => .code pos [], fun mode start w hw => ?_⟩
    exact .comment_append hw (.code _ [])
  | cons c s ih =>
    obtain ⟨hcode, hcomment⟩ := ih
    -- What the text does where no comment is open, in whatever mode it is read there.
    have houtside : ∀ mode pos, (mode.step c s.head?).1 ≠ .inside →
        Replaces pos (c :: s) (spansFrom mode pos none (c :: s)) (stripOnto [] mode (c :: s)) := by
      intro mode pos hkind
      obtain ⟨kind, mode', hstep⟩ : ∃ kind mode', mode.step c s.head? = (kind, mode') :=
        ⟨_, _, rfl⟩
      rw [hstep] at hkind
      cases kind with
      | inside => exact absurd rfl hkind
      | code =>
        obtain rfl := Mode.eq_code_of_step hstep
        simp only [spansFrom, stripOnto, hstep]
        rw [stripOnto_eq]
        exact (hcode (pos + c.utf8Size)).cons
      | opening =>
        simp only [spansFrom, stripOnto, hstep]
        rw [stripOnto_eq]
        have hopened := hcomment mode' pos [c] (List.cons_ne_nil _ _)
        rw [byteSize_cons, byteSize_nil, Nat.add_zero] at hopened
        exact hopened
    constructor
    · intro pos
      refine houtside .code pos ?_
      rcases step_code_eq_or c s.head? with hstep | ⟨mode', hstep⟩ <;> rw [hstep] <;> simp
    · intro mode start w hw
      by_cases hkind : (mode.step c s.head?).1 = .inside
      · -- The character belongs to the comment that is open.
        obtain ⟨mode', hstep⟩ : ∃ mode', mode.step c s.head? = (.inside, mode') :=
          ⟨_, Prod.ext hkind rfl⟩
        have hlonger := hcomment mode' start (w ++ [c]) (by simp)
        rw [byteSize_concat, List.append_assoc, List.singleton_append, ← Nat.add_assoc] at hlonger
        simp only [spansFrom, stripOnto, hstep]
        exact hlonger
      · rw [spansFrom_some_cons hkind]
        exact .comment_append hw (houtside mode _ hkind)

/-- Taking the comments away puts a space in the place of each. -/
theorem replaces_spans (text : List Char) : Replaces 0 text (spans text) (strip text) :=
  (replaces_spansFrom text).1 0

/-! ### No comment is left -/

/-- What is put in the place of a character when comments are taken away. -/
def space (x : Char × Kind) : List Char :=
  match x.2 with
  | .code => [x.1]
  | .opening => [' ']
  | .inside => []

theorem stripOnto_eq_flatMap_space (mode : Mode) (s : List Char) :
    stripOnto [] mode s = (kindsFrom mode s).flatMap space := by
  induction s generalizing mode with
  | nil => rfl
  | cons c s ih =>
    rw [kindsFrom, List.flatMap_cons, ← ih]
    obtain ⟨kind, mode', hstep⟩ : ∃ kind mode', mode.step c s.head? = (kind, mode') := ⟨_, _, rfl⟩
    cases kind with
    | inside => simp only [stripOnto, hstep, space, List.nil_append]
    | _ =>
      simp only [stripOnto, hstep, space]
      rw [stripOnto_eq]
      rfl

theorem strip_eq_flatMap_space (s : List Char) : strip s = (kinds s).flatMap space :=
  stripOnto_eq_flatMap_space .code s

/-- When the comments of a text have been taken away, there is none left: the space in the place of
each begins none, and neither does a slash before it. -/
theorem spans_strip (text : List Char) : spans (strip text) = [] := by
  have hslash : ∀ c kind, kind ≠ Kind.code → '/' ∉ space (c, kind) := by
    intro c kind hkind
    cases kind with
    | code => exact absurd rfl hkind
    | opening => simp [space]
    | inside => simp [space]
  rw [strip_eq_flatMap_space]
  exact spansFrom_flatMap (fun _ => rfl) hslash .code 0 text

/-- Comments are taken away once and for all. -/
theorem strip_strip (text : List Char) : strip (strip text) = strip text := by
  have hagain := replaces_spans (strip text)
  rw [spans_strip] at hagain
  exact hagain.eq_of_nil

/-! ### What a comment keeps apart -/

/-- Of a comment that follows code only spaces are left, and at least one. -/
theorem exists_flatMap_space_eq {mode : Mode} {s : List Char} {front w back : List (Char × Kind)}
    {c : Char} (h : kindsFrom mode s = front ++ (c, .code) :: (w ++ back)) (hne : w ≠ [])
    (hw : ∀ x ∈ w, x.2 ≠ .code) : ∃ n, w.flatMap space = List.replicate (n + 1) ' ' := by
  have hspaces : ∀ v : List (Char × Kind), (∀ x ∈ v, x.2 ≠ .code) →
      ∃ n, v.flatMap space = List.replicate n ' ' := by
    intro v hv
    induction v with
    | nil => exact ⟨0, rfl⟩
    | cons x v ih =>
      obtain ⟨hx, hv⟩ := List.forall_mem_cons.1 hv
      obtain ⟨n, hn⟩ := ih hv
      obtain ⟨d, k⟩ := x
      rw [List.flatMap_cons, hn]
      cases k with
      | code => exact absurd rfl hx
      | opening => exact ⟨n + 1, rfl⟩
      | inside => exact ⟨n, rfl⟩
  obtain ⟨⟨d, k⟩, v, rfl⟩ := List.exists_cons_of_ne_nil hne
  obtain ⟨hk, hv⟩ := List.forall_mem_cons.1 hw
  obtain rfl := eq_opening_of_code h hk
  obtain ⟨n, hn⟩ := hspaces v hv
  exact ⟨n, by rw [List.flatMap_cons, hn]; rfl⟩

/-- A character before code is read as at the end of a text: it is not the first of two that are
read together, for the second of them would not be code. -/
theorem Mode.step_eq_step_none {mode : Mode} {c d : Char} {next : Option Char}
    (h : ((mode.step d (some c)).2.step c next).1 = .code) :
    mode.step d (some c) = mode.step d none := by
  cases mode with
  | code =>
    rcases step_code_eq_or d (some c) with hstep | ⟨mode', hstep⟩
    · rw [hstep]
      simp [step]
    · rw [hstep] at h
      rcases (Mode.of_step_eq_opening hstep).2 with ⟨-, rfl⟩ | ⟨-, rfl⟩ <;> cases h
  | block =>
    by_cases hclose : d = '*' ∧ c = '/'
    · obtain ⟨rfl, rfl⟩ := hclose
      cases h
    · simp [step, hclose]
  | _ => rfl

/-- Where a text is cut before a character of code, the part before it is read like a text of its
own. -/
theorem kindsFrom_eq_of_code {mode : Mode} {u s : List Char} {front back : List (Char × Kind)}
    {c : Char} (h : kindsFrom mode (u ++ c :: s) = front ++ (c, .code) :: back)
    (hfront : front.map Prod.fst = u) : front = kindsFrom mode u := by
  induction u generalizing mode front with
  | nil =>
    rw [List.map_eq_nil_iff] at hfront
    exact hfront
  | cons d u ih =>
    obtain ⟨x, front, rfl, rfl, hu⟩ := List.map_eq_cons_iff.1 hfront
    rw [List.cons_append, kindsFrom, List.cons_append] at h
    obtain ⟨hx, hrest⟩ := List.cons_eq_cons.1 h
    have hstep : mode.step x.1 (u ++ c :: s).head? = mode.step x.1 u.head? := by
      cases u with
      | cons e u => rfl
      | nil =>
        obtain rfl := List.map_eq_nil_iff.1 hu
        exact Mode.step_eq_step_none (Prod.mk.inj (List.cons_eq_cons.1 hrest).1).2
    rw [hstep] at hx hrest
    rw [← hx, kindsFrom, ← ih hrest hu]

/-- The characters of two texts, one behind the other, each with its kind. -/
theorem exists_kinds_append (u s : List Char) :
    ∃ front back, kinds (u ++ s) = front ++ back ∧ front.map Prod.fst = u ∧
      back.map Prod.fst = s :=
  List.map_eq_append_iff.1 (map_fst_kinds (u ++ s))

variable {u w v : List Char} {a b : Char}

/-- Before and behind a character of code a text is read like two texts of their own. -/
theorem kinds_append_cons (ha : inSpans (spans (u ++ a :: v)) (byteSize u) = false) :
    kinds (u ++ a :: v) = kinds u ++ (a, .code) :: kinds v := by
  obtain ⟨front, rest, hkinds, hfront, hrest⟩ := exists_kinds_append u (a :: v)
  obtain ⟨⟨c, k⟩, back, rfl, hc, hback⟩ := List.map_eq_cons_iff.1 hrest
  obtain rfl : c = a := hc
  have hk : (k != .code) = false := by
    rw [← inSpans_eq hkinds, hfront]
    exact ha
  rw [bne_eq_false_iff_eq] at hk
  subst hk
  rw [hkinds, kindsFrom_eq_of_code hkinds hfront, eq_kinds_of_code hkinds, hback]
  rfl

/-- Characters of code that are kept apart by comments alone are kept apart by spaces when the
comments are taken away. -/
theorem exists_strip_eq_of_comment_between (hw : w ≠ [])
    (ha : inSpans (spans (u ++ a :: (w ++ b :: v))) (byteSize u) = false)
    (hb : inSpans (spans (u ++ a :: (w ++ b :: v)))
      (byteSize u + a.utf8Size + byteSize w) = false)
    (hbetween : ∀ offset, byteSize u + a.utf8Size ≤ offset →
      offset < byteSize u + a.utf8Size + byteSize w →
      inSpans (spans (u ++ a :: (w ++ b :: v))) offset = true) :
    ∃ n, strip (u ++ a :: (w ++ b :: v)) =
      strip u ++ a :: (List.replicate (n + 1) ' ' ++ b :: strip v) := by
  obtain ⟨mid, rest, hsplit, rfl, hrest⟩ := exists_kinds_append w (b :: v)
  obtain ⟨⟨c, k⟩, back, rfl, hc, hback⟩ := List.map_eq_cons_iff.1 hrest
  obtain rfl : c = b := hc
  have hkinds := kinds_append_cons ha
  rw [hsplit] at hkinds
  -- How far it is to what stands behind the first of the two characters.
  have hsize : ∀ m : List (Char × Kind), byteSize ((kinds u ++ (a, .code) :: m).map Prod.fst) =
      byteSize u + a.utf8Size + byteSize (m.map Prod.fst) := by
    intro m
    rw [List.map_append, map_fst_kinds, byteSize_append, List.map_cons, byteSize_cons,
      Nat.add_assoc]
  have hsecond : kinds (u ++ a :: (mid.map Prod.fst ++ c :: v)) =
      (kinds u ++ (a, .code) :: mid) ++ (c, k) :: back := by
    rw [hkinds, List.append_assoc, List.cons_append]
  have hk : (k != .code) = false := by
    rw [← inSpans_eq hsecond, hsize]
    exact hb
  rw [bne_eq_false_iff_eq] at hk
  subst hk
  have hmid : ∀ x ∈ mid, x.2 ≠ .code := by
    intro x hx
    obtain ⟨before, behind, rfl⟩ := List.append_of_mem hx
    have hcut : kinds (u ++ a :: ((before ++ x :: behind).map Prod.fst ++ c :: v)) =
        (kinds u ++ (a, .code) :: before) ++ (x.1, x.2) :: (behind ++ (c, .code) :: back) := by
      rw [hsecond]
      simp
    refine (inSpans_spans_iff hcut x.1.utf8Size_pos).1 (hbetween _ ?_ ?_)
    · rw [hsize]
      omega
    · have hx := x.1.utf8Size_pos
      rw [hsize, List.map_append, byteSize_append, List.map_cons, byteSize_cons]
      omega
  obtain ⟨n, hn⟩ := exists_flatMap_space_eq hkinds (by simpa using hw) hmid
  refine ⟨n, ?_⟩
  have hbehind := eq_kinds_of_code hsplit
  rw [hback] at hbehind
  rw [strip_eq_flatMap_space, hkinds, List.flatMap_append, List.flatMap_cons, List.flatMap_append,
    List.flatMap_cons, hn, hbehind, ← strip_eq_flatMap_space, ← strip_eq_flatMap_space]
  rfl

end StructUnfold.Comment
