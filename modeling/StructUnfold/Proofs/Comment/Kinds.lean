import StructUnfold.Proofs.Source.Comment

/-!
# Code and comments

Every character of a text is code or belongs to a comment. What a comment says is erased by putting
stars in its place, one for each byte, so that all offsets stay; line feeds stay as well, for a
comment may go over several lines.

* `kinds`: the characters of a text, each with its kind.
* `inSpans_spans_iff`: the characters in the spans of comments are those that are no code.
* `blotted`, `erased`: a text without what its comments say.
* `spans_erased`: there is no comment any more.
-/

namespace StructUnfold.Comment

open Text

/-- The characters of a text that begins in a mode, each with its kind. -/
def kindsFrom (mode : Mode) : List Char → List (Char × Kind)
  | [] => []
  | c :: cs => (c, (mode.step c cs.head?).1) :: kindsFrom (mode.step c cs.head?).2 cs

/-- The characters of a text, each with its kind. -/
def kinds (text : List Char) : List (Char × Kind) :=
  kindsFrom .code text

/-- A character of a comment gives way to one star for each of its bytes, unless it ends a line. -/
def blot (c : Char × Kind) : List (Char × Kind) :=
  if c.2 = .code ∨ c.1 = '\n' then [c] else List.replicate c.1.utf8Size ('*', c.2)

/-- The characters of a text, each with its kind, without what the comments say. -/
def blotted (text : List Char) : List (Char × Kind) :=
  (kinds text).flatMap blot

/-- The text without what its comments say. -/
def erased (text : List Char) : List Char :=
  (blotted text).map Prod.fst

/-! ### The automaton -/

@[simp] theorem map_fst_kindsFrom (mode : Mode) (s : List Char) :
    (kindsFrom mode s).map Prod.fst = s := by
  induction s generalizing mode with
  | nil => rfl
  | cons c s ih => rw [kindsFrom, List.map_cons, ih]

@[simp] theorem map_fst_kinds (s : List Char) : (kinds s).map Prod.fst = s :=
  map_fst_kindsFrom .code s

/-- Behind code the automaton is outside all comments. -/
theorem Mode.eq_code_of_step {mode mode' : Mode} {c : Char} {next : Option Char}
    (h : mode.step c next = (.code, mode')) : mode' = .code := by
  cases mode with
  | code =>
    rcases step_code_eq_or c next with hcode | ⟨m, hopening⟩
    · rw [hcode] at h
      exact (Prod.mk.inj h).2.symm
    · rw [hopening] at h
      cases h
  | line =>
    rw [step] at h
    split at h
    · exact (Prod.mk.inj h).2.symm
    · cases h
  | block =>
    rw [step] at h
    split at h <;> cases h
  | _ => cases h

/-- Where a character of a text stands, the automaton takes a step and goes on. -/
theorem exists_step_of_kindsFrom {mode : Mode} {s : List Char} {front back : List (Char × Kind)}
    {c : Char} {k : Kind} (h : kindsFrom mode s = front ++ (c, k) :: back) :
    ∃ before behind : Mode, before.step c (back.map Prod.fst).head? = (k, behind) ∧
      back = kindsFrom behind (back.map Prod.fst) := by
  induction s generalizing mode front with
  | nil => simp [kindsFrom] at h
  | cons d s ih =>
    rw [kindsFrom] at h
    cases front with
    | nil =>
      obtain ⟨hd, hback⟩ := List.cons_eq_cons.1 h
      obtain ⟨rfl, rfl⟩ := Prod.mk.inj hd
      have hs : back.map Prod.fst = s := by rw [← hback, map_fst_kindsFrom]
      exact ⟨mode, (mode.step d s.head?).2, by rw [hs], by rw [hs, hback]⟩
    | cons x front => exact ih (List.cons_eq_cons.1 h).2

/-- Behind code the rest of the text is read like a text of its own. -/
theorem eq_kinds_of_code {mode : Mode} {s : List Char} {front back : List (Char × Kind)}
    {c : Char} (h : kindsFrom mode s = front ++ (c, .code) :: back) :
    back = kinds (back.map Prod.fst) := by
  obtain ⟨before, behind, hstep, hback⟩ := exists_step_of_kindsFrom h
  obtain rfl := Mode.eq_code_of_step hstep
  exact hback

/-- A comment that follows code begins there. -/
theorem eq_opening_of_code {mode : Mode} {s : List Char} {front back : List (Char × Kind)}
    {c d : Char} {k : Kind} (h : kindsFrom mode s = front ++ (c, .code) :: (d, k) :: back)
    (hk : k ≠ .code) : k = .opening := by
  have hback := eq_kinds_of_code h
  rw [List.map_cons, kinds, kindsFrom] at hback
  have hkind := (Prod.mk.inj (List.cons_eq_cons.1 hback).1).2
  rcases step_code_eq_or d (back.map Prod.fst).head? with hcode | ⟨m, hopening⟩
  · rw [hcode] at hkind
    exact absurd hkind hk
  · rw [hopening] at hkind
    exact hkind

/-- Inside a line comment all is comment up to the end of the line. -/
theorem kindsFrom_line {s : List Char} {u back : List (Char × Kind)}
    (h : kindsFrom .line s = u ++ back) (hu : '\n' ∉ u.map Prod.fst) :
    ∀ x ∈ u, x.2 ≠ .code := by
  induction u generalizing s with
  | nil => simp
  | cons x u ih =>
    cases s with
    | nil => simp [kindsFrom] at h
    | cons c s =>
      rw [List.map_cons, List.mem_cons, not_or] at hu
      rw [kindsFrom, List.cons_append] at h
      obtain ⟨rfl, hrest⟩ := List.cons_eq_cons.1 h
      have hstep : Mode.line.step c s.head? = (.inside, .line) := if_neg (Ne.symm hu.1)
      rw [hstep] at hrest ⊢
      exact List.forall_mem_cons.2 ⟨by simp, ih hrest hu.2⟩

/-- How a comment begins. -/
theorem Mode.of_step_eq_opening {mode mode' : Mode} {c : Char} {next : Option Char}
    (h : mode.step c next = (.opening, mode')) :
    c = '/' ∧ (next = some '/' ∧ mode' = .openingLine ∨
      next = some '*' ∧ mode' = .openingBlock) := by
  cases mode with
  | code =>
    rw [step] at h
    split at h
    · rename_i hslash
      rw [Bool.and_eq_true, decide_eq_true_eq, beq_iff_eq] at hslash
      exact ⟨hslash.1, .inl ⟨hslash.2, (Prod.mk.inj h).2.symm⟩⟩
    · split at h
      · rename_i hstar
        rw [Bool.and_eq_true, decide_eq_true_eq, beq_iff_eq] at hstar
        exact ⟨hstar.1, .inr ⟨hstar.2, (Prod.mk.inj h).2.symm⟩⟩
      · cases h
  | line =>
    rw [step] at h
    split at h <;> cases h
  | block =>
    rw [step] at h
    split at h <;> cases h
  | _ => cases h

/-- A comment begins with a slash and a star, or with two slashes, and then it goes on up to the end
of the line. -/
theorem exists_of_opening {mode : Mode} {s : List Char} {front back : List (Char × Kind)}
    {c : Char} (h : kindsFrom mode s = front ++ (c, .opening) :: back) :
    c = '/' ∧ ∃ d rest, back = (d, .inside) :: rest ∧ (d = '*' ∨ d = '/' ∧
      ∀ u v, rest = u ++ v → '\n' ∉ u.map Prod.fst → ∀ x ∈ u, x.2 ≠ .code) := by
  obtain ⟨before, behind, hstep, hback⟩ := exists_step_of_kindsFrom h
  obtain ⟨hc, hnext⟩ := Mode.of_step_eq_opening hstep
  refine ⟨hc, ?_⟩
  cases back with
  | nil => simp at hnext
  | cons x rest =>
    obtain ⟨d, k⟩ := x
    rw [List.map_cons, kindsFrom] at hback
    rw [List.map_cons, List.head?_cons, Option.some.injEq, Option.some.injEq] at hnext
    obtain ⟨hx, hrest⟩ := List.cons_eq_cons.1 hback
    have hk := (Prod.mk.inj hx).2
    rcases hnext with ⟨rfl, rfl⟩ | ⟨rfl, rfl⟩
    · refine ⟨'/', rest, by rw [hk]; rfl, .inr ⟨rfl, fun u v huv hu => ?_⟩⟩
      exact kindsFrom_line (hrest.symm.trans huv) hu
    · exact ⟨'*', rest, by rw [hk]; rfl, .inl rfl⟩

/-! ### The spans -/

/-- Where the comment began that is open behind a character at an offset. -/
def Kind.opened (kind : Kind) (pos : Nat) (opened : Option Nat) : Option Nat :=
  match kind with
  | .code => none
  | .opening => some pos
  | .inside => opened

/-- The comment that ends before a character at an offset. -/
def Kind.closed (kind : Kind) (pos : Nat) (opened : Option Nat) : List Span :=
  match kind with
  | .inside => []
  | _ => (opened.map fun start => ⟨start, pos⟩).toList

/-- One step of the search for comments. -/
theorem spansFrom_cons (mode : Mode) (pos : Nat) (opened : Option Nat) (c : Char) (s : List Char) :
    spansFrom mode pos opened (c :: s) =
      (mode.step c s.head?).1.closed pos opened ++
        spansFrom (mode.step c s.head?).2 (pos + c.utf8Size)
          ((mode.step c s.head?).1.opened pos opened) s := by
  obtain ⟨kind, mode', hstep⟩ : ∃ kind mode', mode.step c s.head? = (kind, mode') := ⟨_, _, rfl⟩
  cases kind <;> cases opened <;> simp only [spansFrom, hstep, Kind.closed, Kind.opened] <;> rfl

theorem Kind.of_mem_closed {kind : Kind} {pos : Nat} {opened : Option Nat} {span : Span}
    (h : span ∈ kind.closed pos opened) : opened = some span.start ∧ span.stop = pos := by
  cases opened with
  | none => cases kind <;> cases h
  | some start =>
    cases kind with
    | inside => cases h
    | _ =>
      obtain rfl := List.mem_singleton.1 h
      exact ⟨rfl, rfl⟩

/-- A comment that is found begins behind an offset or was open there. -/
theorem mem_spansFrom {mode : Mode} {pos : Nat} {opened : Option Nat} {s : List Char} {span : Span}
    (h : span ∈ spansFrom mode pos opened s) : opened = some span.start ∨ pos ≤ span.start := by
  induction s generalizing mode pos opened with
  | nil =>
    cases opened with
    | none => cases h
    | some start =>
      obtain rfl := List.mem_singleton.1 h
      exact .inl rfl
  | cons c s ih =>
    rw [spansFrom_cons, List.mem_append] at h
    rcases h with h | h
    · -- A comment that ends here was open.
      exact .inl (Kind.of_mem_closed h).1
    · -- A later one begins later, or it is open behind the character.
      rcases ih h with hopened | hle
      · cases hkind : (mode.step c s.head?).1 with
        | code =>
          rw [hkind] at hopened
          cases hopened
        | opening =>
          rw [hkind] at hopened
          exact .inr (Nat.le_of_eq (Option.some.inj hopened))
        | inside =>
          rw [hkind] at hopened
          exact .inl hopened
      · exact .inr (Nat.le_trans (Nat.le_add_right _ _) hle)

/-- A comment that is open goes on at least up to here. -/
theorem exists_mem_spansFrom (mode : Mode) (pos start : Nat) (s : List Char) :
    ∃ stop, pos ≤ stop ∧ ⟨start, stop⟩ ∈ spansFrom mode pos (some start) s := by
  induction s generalizing mode pos with
  | nil => exact ⟨pos, Nat.le_refl _, List.mem_singleton_self _⟩
  | cons c s ih =>
    rw [spansFrom_cons]
    cases hkind : (mode.step c s.head?).1 with
    | inside =>
      obtain ⟨stop, hle, hmem⟩ := ih (mode.step c s.head?).2 (pos + c.utf8Size)
      exact ⟨stop, by omega, hmem⟩
    | _ => exact ⟨pos, Nat.le_refl _, List.mem_cons_self⟩

/-- Only inside comments is a character taken for the inside of one. -/
theorem Mode.ne_code_of_step_eq_inside {mode mode' : Mode} {c : Char} {next : Option Char}
    (h : mode.step c next = (.inside, mode')) : mode ≠ .code := by
  rintro rfl
  rcases step_code_eq_or c next with hcode | ⟨m, hopening⟩
  · rw [hcode] at h
    cases h
  · rw [hopening] at h
    cases h

/-- The bytes of a character lie in a comment exactly if the character is no code. -/
theorem inSpans_spansFrom {mode : Mode} {pos : Nat} {opened : Option Nat} {s : List Char}
    {front back : List (Char × Kind)} {c : Char} {k : Kind}
    (h : kindsFrom mode s = front ++ (c, k) :: back) (hopened : opened = none → mode = .code)
    (hstart : ∀ start, opened = some start → start ≤ pos) {i : Nat} (hi : i < c.utf8Size) :
    inSpans (spansFrom mode pos opened s) (pos + byteSize (front.map Prod.fst) + i) = true ↔
      k ≠ .code := by
  induction s generalizing mode pos opened front with
  | nil => simp [kindsFrom] at h
  | cons d s ih =>
    obtain ⟨kind, mode', hstep⟩ : ∃ kind mode', mode.step d s.head? = (kind, mode') := ⟨_, _, rfl⟩
    rw [kindsFrom, hstep] at h
    -- The comment that ends before the character is behind.
    have hclosed : ∀ n, pos ≤ n →
        (kind.closed pos opened).any (fun span => span.contains n) = false := by
      intro n hn
      refine List.any_eq_false.2 fun span hspan => ?_
      have hstop := (Kind.of_mem_closed hspan).2
      simp only [Span.contains, Bool.and_eq_true, decide_eq_true_eq]
      omega
    have hmode : kind.opened pos opened = none → mode' = .code := by
      cases kind with
      | code => exact fun _ => Mode.eq_code_of_step hstep
      | opening => exact fun hnone => by cases hnone
      | inside => exact fun hnone => absurd (hopened hnone) (Mode.ne_code_of_step_eq_inside hstep)
    have hstart' : ∀ start, kind.opened pos opened = some start → start ≤ pos := by
      cases kind with
      | code => exact fun _ hsome => by cases hsome
      | opening => exact fun _ hsome => Nat.le_of_eq (Option.some.inj hsome).symm
      | inside => exact hstart
    rw [spansFrom_cons, hstep, inSpans, List.any_append]
    cases front with
    | nil =>
      obtain ⟨hx, -⟩ := List.cons_eq_cons.1 h
      obtain ⟨rfl, rfl⟩ := Prod.mk.inj hx
      rw [List.map_nil, byteSize_nil, hclosed _ (by omega), Bool.false_or, Nat.add_zero,
        List.any_eq_true]
      constructor
      · rintro ⟨span, hspan, hcontains⟩ rfl
        have hle := (mem_spansFrom hspan).resolve_left (by simp [Kind.opened])
        simp only [Span.contains, Bool.and_eq_true, decide_eq_true_eq] at hcontains
        omega
      · intro hk
        obtain ⟨start, hsome⟩ : ∃ start, kind.opened pos opened = some start := by
          cases hkind : kind with
          | code => exact absurd hkind hk
          | opening => exact ⟨pos, rfl⟩
          | inside =>
            refine Option.ne_none_iff_exists'.1 fun hnone => ?_
            exact Mode.ne_code_of_step_eq_inside (hkind ▸ hstep) (hopened hnone)
        obtain ⟨stop, hle, hmem⟩ := exists_mem_spansFrom mode' (pos + d.utf8Size) start s
        rw [hsome]
        refine ⟨_, hmem, ?_⟩
        have hle' := hstart' start hsome
        simp only [Span.contains, Bool.and_eq_true, decide_eq_true_eq]
        omega
    | cons x front =>
      obtain ⟨rfl, hrest⟩ := List.cons_eq_cons.1 h
      have hstart'' : ∀ start, kind.opened pos opened = some start → start ≤ pos + d.utf8Size :=
        fun start hsome => Nat.le_trans (hstart' start hsome) (Nat.le_add_right _ _)
      have hfound := ih hrest hmode hstart''
      rw [List.map_cons, byteSize_cons, hclosed _ (by omega), Bool.false_or, ← hfound, inSpans]
      rw [← Nat.add_assoc]

/-- The bytes of a character lie in a comment exactly if the character is no code. -/
theorem inSpans_spans_iff {s : List Char} {front back : List (Char × Kind)} {c : Char} {k : Kind}
    (h : kinds s = front ++ (c, k) :: back) {i : Nat} (hi : i < c.utf8Size) :
    inSpans (spans s) (byteSize (front.map Prod.fst) + i) = true ↔ k ≠ .code := by
  have hstart : ∀ start, none = some start → start ≤ 0 := fun _ hsome => by cases hsome
  have hfound := inSpans_spansFrom h (fun _ => rfl) hstart hi
  rwa [Nat.zero_add] at hfound

/-- Whether a character stands in a comment. -/
theorem inSpans_eq {s : List Char} {front back : List (Char × Kind)} {c : Char} {k : Kind}
    (h : kinds s = front ++ (c, k) :: back) :
    inSpans (spans s) (byteSize (front.map Prod.fst)) = (k != .code) := by
  rw [Bool.eq_iff_iff, bne_iff_ne]
  exact inSpans_spans_iff h c.utf8Size_pos

theorem byteSize_map_concat (front : List (Char × Kind)) (c : Char) (k : Kind) :
    byteSize ((front ++ [(c, k)]).map Prod.fst) = byteSize (front.map Prod.fst) + c.utf8Size := by
  rw [List.map_append, byteSize_append, List.map_cons, List.map_nil, byteSize_cons, byteSize_nil,
    Nat.add_zero]

/-! ### What is put in the place of comments -/

section

variable {put : Char × Kind → List Char}

/-- Code stays code when the comments behind it give way to something else. -/
theorem step_code_flatMap (hput : ∀ c, put (c, .code) = [c]) {mode mode' : Mode} {c : Char}
    {s : List Char} (h : mode.step c s.head? = (.code, mode')) :
    Mode.code.step c ((kindsFrom .code s).flatMap put).head? = (.code, .code) := by
  by_cases hc : c = '/'
  · -- Code goes on behind the slash, for otherwise the slash would begin a comment.
    subst hc
    obtain rfl := Mode.eq_code_of_step h
    have hmode : mode = .code := by
      cases mode with
      | code => rfl
      | block =>
        rw [Mode.step] at h
        split at h <;> cases h
      | _ => cases h
    subst hmode
    have hhead : ((kindsFrom .code s).flatMap put).head? = s.head? := by
      cases s with
      | nil => rfl
      | cons d s =>
        rcases step_code_eq_or d s.head? with hd | ⟨m, hd⟩
        · rw [kindsFrom, hd, List.flatMap_cons, hput]
          rfl
        · obtain ⟨rfl, -⟩ := Mode.of_step_eq_opening hd
          cases h
    rw [hhead]
    exact h
  · exact step_of_ne_slash hc _

/-- No comment is left when all of them give way to something without slashes. -/
theorem spansFrom_flatMap (hput : ∀ c, put (c, .code) = [c])
    (hslash : ∀ c kind, kind ≠ .code → '/' ∉ put (c, kind)) (mode : Mode) (pos : Nat)
    (s : List Char) : spansFrom .code pos none ((kindsFrom mode s).flatMap put) = [] := by
  induction s generalizing mode pos with
  | nil => rfl
  | cons c s ih =>
    obtain ⟨kind, mode', hstep⟩ : ∃ kind mode', mode.step c s.head? = (kind, mode') := ⟨_, _, rfl⟩
    rw [kindsFrom, hstep, List.flatMap_cons]
    by_cases hkind : kind = .code
    · subst hkind
      obtain rfl := Mode.eq_code_of_step hstep
      rw [hput, List.singleton_append, spansFrom_cons, step_code_flatMap hput hstep]
      exact ih .code _
    · rw [(isCode_of_not_mem (hslash c kind hkind)).spansFrom_append]
      exact ih mode' _

end

/-! ### Erasing -/

/-- The text without what its comments say, where it begins in a mode. -/
def erasedFrom (mode : Mode) (s : List Char) : List Char :=
  ((kindsFrom mode s).flatMap blot).map Prod.fst

theorem byteSize_blot (c : Char × Kind) : byteSize ((blot c).map Prod.fst) = byteSize [c.1] := by
  rw [blot]
  split
  · rfl
  · have hstars : ∀ n, byteSize (List.replicate n '*') = n := by
      intro n
      induction n with
      | zero => rfl
      | succ n ih =>
        rw [List.replicate_succ, byteSize_cons, ih, Nat.add_comm]
        rfl
    rw [List.map_replicate, hstars, byteSize_cons, byteSize_nil, Nat.add_zero]

/-- Erasing keeps the number of bytes. -/
theorem byteSize_map_flatMap_blot (m : List (Char × Kind)) :
    byteSize ((m.flatMap blot).map Prod.fst) = byteSize (m.map Prod.fst) := by
  induction m with
  | nil => rfl
  | cons x m ih =>
    rw [List.flatMap_cons, List.map_append, byteSize_append, byteSize_blot, ih, ← byteSize_append]
    rfl

theorem blot_code (c : Char) : blot (c, .code) = [(c, .code)] :=
  if_pos (.inl rfl)

/-- Nothing is erased where there are no comments. -/
theorem flatMap_blot_of_code {m : List (Char × Kind)} (h : ∀ x ∈ m, x.2 = .code) :
    m.flatMap blot = m := by
  induction m with
  | nil => rfl
  | cons x m ih =>
    obtain ⟨hx, hm⟩ := List.forall_mem_cons.1 h
    obtain ⟨c, k⟩ := x
    obtain rfl : k = .code := hx
    rw [List.flatMap_cons, blot_code, ih hm, List.singleton_append]

/-- What is put in the place of a comment: stars and line feeds. -/
theorem eq_star_or_eq_feed {c : Char × Kind} (hc : c.2 ≠ .code) {x : Char × Kind}
    (hx : x ∈ blot c) : x.2 = c.2 ∧ (x.1 = '*' ∨ x.1 = '\n' ∧ c.1 = '\n') := by
  rw [blot] at hx
  split at hx
  · rename_i hcase
    obtain rfl := List.mem_singleton.1 hx
    have hfeed := hcase.resolve_left hc
    exact ⟨rfl, .inr ⟨hfeed, hfeed⟩⟩
  · obtain rfl := List.eq_of_mem_replicate hx
    exact ⟨rfl, .inl rfl⟩

theorem slash_not_mem_blot (c : Char) {kind : Kind} (hkind : kind ≠ .code) :
    '/' ∉ (blot (c, kind)).map Prod.fst := by
  intro hmem
  obtain ⟨x, hx, hslash⟩ := List.mem_map.1 hmem
  rcases (eq_star_or_eq_feed (c := (c, kind)) hkind hx).2 with heq | ⟨heq, -⟩
  · rw [heq] at hslash
    cases hslash
  · rw [heq] at hslash
    cases hslash

theorem erasedFrom_eq_flatMap (mode : Mode) (s : List Char) :
    erasedFrom mode s = (kindsFrom mode s).flatMap fun x => (blot x).map Prod.fst :=
  List.map_flatMap

/-- What code is without comments stays code when the comments behind it are erased. -/
theorem step_code_erasedFrom {mode mode' : Mode} {c : Char} {s : List Char}
    (h : mode.step c s.head? = (.code, mode')) :
    Mode.code.step c (erasedFrom .code s).head? = (.code, .code) := by
  rw [erasedFrom_eq_flatMap]
  exact step_code_flatMap (fun c => congrArg (List.map Prod.fst) (blot_code c)) h

/-- Erasing goes character by character; code stays. -/
theorem erasedFrom_cons_code {mode mode' : Mode} {c : Char} {s : List Char}
    (h : mode.step c s.head? = (.code, mode')) :
    erasedFrom mode (c :: s) = c :: erasedFrom .code s := by
  have hmode := Mode.eq_code_of_step h
  subst hmode
  rw [erasedFrom, kindsFrom, h, List.flatMap_cons, blot_code]
  rfl

theorem erasedFrom_cons (mode : Mode) (c : Char) (s : List Char) :
    erasedFrom mode (c :: s) = (blot (c, (mode.step c s.head?).1)).map Prod.fst ++
      erasedFrom (mode.step c s.head?).2 s := by
  rw [erasedFrom, kindsFrom, List.flatMap_cons, List.map_append]
  rfl

/-- There is no comment any more in the text. -/
theorem spans_erased (s : List Char) : spans (erased s) = [] := by
  show spansFrom .code 0 none (erasedFrom .code s) = []
  rw [erasedFrom_eq_flatMap]
  exact spansFrom_flatMap (fun c => congrArg (List.map Prod.fst) (blot_code c))
    (fun c _ => slash_not_mem_blot c) .code 0 s

end StructUnfold.Comment
