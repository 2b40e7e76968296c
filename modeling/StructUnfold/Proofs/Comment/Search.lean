import StructUnfold.Proofs.Comment.Code
import StructUnfold.Proofs.Source.Block

/-!
# Searches that pass over comments

A search reads the characters of code one after the other, until one of them stops it. If none does,
it tells the block comment that is left open at the end of the text.

* `Ends`: how a search ends.
* `ends_seek`: a search that begins in any mode ends so.
* `ends_seek_behind`: the search behind a character of code.
-/

namespace StructUnfold.Comment

open Text Block

/-! ### The comment that is left open -/

/-- A block comment is open in a mode and not closed in the rest of the text. -/
def StaysOpen : Mode → List Char → Prop
  | .block, s => ¬['*', '/'] <:+: s
  | .openingBlock, _ :: s => ¬['*', '/'] <:+: s
  | _, _ => False

/-- Where no comment begins, the comment that is open stays the same. -/
theorem staysOpen_cons_iff {mode mode' : Mode} {kind : Kind} {c : Char} {s : List Char}
    (h : mode.step c s.head? = (kind, mode')) (hkind : kind ≠ .opening) :
    StaysOpen mode (c :: s) ↔ StaysOpen mode' s := by
  cases mode with
  | code =>
    rcases step_code_eq_or c s.head? with hcode | ⟨m, hopening⟩
    · obtain ⟨-, rfl⟩ := Prod.mk.inj (hcode.symm.trans h)
      exact Iff.rfl
    · exact absurd (Prod.mk.inj (hopening.symm.trans h)).1.symm hkind
  | line =>
    rw [Mode.step] at h
    split at h <;> (obtain ⟨-, rfl⟩ := Prod.mk.inj h; exact Iff.rfl)
  | block =>
    rw [Mode.step] at h
    split at h
    · rename_i hclose
      rw [Bool.and_eq_true, decide_eq_true_eq, beq_iff_eq, List.head?_eq_some_iff] at hclose
      obtain ⟨rfl, rest, rfl⟩ := hclose
      obtain ⟨-, rfl⟩ := Prod.mk.inj h
      -- The comment ends here.
      exact iff_of_false (not_not_intro ⟨[], rest, rfl⟩) id
    · rename_i hopen
      rw [Bool.and_eq_true, decide_eq_true_eq, beq_iff_eq, List.head?_eq_some_iff] at hopen
      obtain ⟨-, rfl⟩ := Prod.mk.inj h
      -- No end of a comment begins at the character, so it is looked for behind it.
      refine not_congr (List.infix_cons_iff.trans (or_iff_right ?_))
      rintro ⟨rest, hrest⟩
      obtain ⟨rfl, rfl⟩ := List.cons_eq_cons.1 hrest
      exact hopen ⟨rfl, rest, rfl⟩
  | _ =>
    obtain ⟨-, rfl⟩ := Prod.mk.inj h
    exact Iff.rfl

/-- Where a comment begins, none was open, and it stays open if it is a block comment that is not
closed. -/
theorem staysOpen_of_opening {mode mode' : Mode} {c : Char} {s : List Char}
    (h : mode.step c s.head? = (.opening, mode')) :
    ¬StaysOpen mode (c :: s) ∧ (StaysOpen mode' s ↔
      ∃ rest, kindsFrom mode' s = ('*', .inside) :: rest ∧
        ¬['*', '/'] <:+: rest.map Prod.fst) := by
  constructor
  · cases mode with
    | block =>
      rw [Mode.step] at h
      split at h <;> cases h
    | openingBlock => cases h
    | _ => exact id
  · obtain ⟨-, hline | hblock⟩ := Mode.of_step_eq_opening h
    · -- A line comment is never left open, and a slash stands behind the first one, no star.
      obtain ⟨hhead, rfl⟩ := hline
      obtain ⟨rest, rfl⟩ := List.head?_eq_some_iff.1 hhead
      refine iff_of_false id ?_
      rintro ⟨behind, hkinds, -⟩
      cases (List.cons_eq_cons.1 hkinds).1
    · -- A block comment begins with a star in it.
      obtain ⟨hhead, rfl⟩ := hblock
      obtain ⟨rest, rfl⟩ := List.head?_eq_some_iff.1 hhead
      constructor
      · intro hopen
        exact ⟨kindsFrom .block rest, rfl, by rwa [map_fst_kindsFrom]⟩
      · rintro ⟨behind, hkinds, hopen⟩
        obtain ⟨-, rfl⟩ := List.cons_eq_cons.1 hkinds
        rwa [map_fst_kindsFrom] at hopen

/-- A block comment is left open that begins at `start`, in a text that begins at offset `pos` in a
mode; `opened` is where the comment began that is open there. -/
def LeavesOpen (mode : Mode) (opened pos : Nat) (s : List Char) (start : Nat) : Prop :=
  OpensBlock (kindsFrom mode s) pos start ∨ StaysOpen mode s ∧ start = opened

theorem leavesOpen_cons_iff {mode mode' : Mode} {kind : Kind} {c : Char} {s : List Char}
    (h : mode.step c s.head? = (kind, mode')) (opened pos start : Nat) :
    LeavesOpen mode opened pos (c :: s) start ↔
      LeavesOpen mode' (if kind = .opening then pos else opened) (pos + c.utf8Size) s start := by
  rw [LeavesOpen, LeavesOpen, kindsFrom, h, opensBlock_cons_iff]
  by_cases hkind : kind = .opening
  · subst hkind
    obtain ⟨hbefore, hbehind⟩ := staysOpen_of_opening h
    obtain ⟨rfl, -⟩ := Mode.of_step_eq_opening h
    dsimp only
    rw [if_pos rfl, ← hbehind, and_iff_right rfl, or_iff_left fun h => hbefore h.1, and_comm]
  · have hne : (c, kind) ≠ ('/', .opening) := fun heq => hkind (Prod.mk.inj heq).2
    rw [if_neg hkind, staysOpen_cons_iff h hkind]
    tauto

/-! ### How a search ends -/

section

variable {σ : Type} {next : σ → Char → Option σ}

/-- How a search ends among characters that begin at offset `pos`. -/
inductive Ends (next : σ → Char → Option σ) (state : σ) (m : List (Char × Kind)) (pos : Nat)
    (open? : Nat → Prop) : Except (Option Nat) (Nat × List Char) → Prop
  /-- It ends at the character of code that is the first to stop it. -/
  | stopped (w : List (Char × Kind)) (c : Char) (back : List (Char × Kind)) (last : σ)
      (parts : m = w ++ (c, .code) :: back) (passed : (codeOf w).foldlM next state = some last)
      (stops : next last c = none) :
      Ends next state m pos open? (.ok (pos + byteSize (w.map Prod.fst), back.map Prod.fst))
  /-- No character of code stops it, and it tells which comment is left open. -/
  | exhausted (last : σ) (e : Option Nat) (passed : (codeOf m).foldlM next state = some last)
      (left : ∀ start, e = some start ↔ open? start) :
      Ends next state m pos open? (.error e)

/-- A search that passes over a character ends behind it. -/
theorem Ends.cons {state state' : σ} {m : List (Char × Kind)} {pos : Nat} {c : Char} {k : Kind}
    {open? : Nat → Prop} {found : Except (Option Nat) (Nat × List Char)}
    (hstate : (codeOf [(c, k)]).foldlM next state = some state')
    (h : Ends next state' m (pos + c.utf8Size) open? found) :
    Ends next state ((c, k) :: m) pos open? found := by
  have hcons : ∀ w last, (codeOf w).foldlM next state' = some last →
      (codeOf ((c, k) :: w)).foldlM next state = some last := by
    intro w last hw
    have hsplit : codeOf ((c, k) :: w) = codeOf [(c, k)] ++ codeOf w := codeOf_append [(c, k)] w
    rw [hsplit, List.foldlM_append, hstate]
    exact hw
  cases h with
  | stopped w d back last parts passed stops =>
    have hpos : pos + c.utf8Size + byteSize (w.map Prod.fst) =
        pos + byteSize (((c, k) :: w).map Prod.fst) := by
      rw [List.map_cons, byteSize_cons, Nat.add_assoc]
    rw [hpos]
    exact .stopped ((c, k) :: w) d back last (by rw [parts]; rfl) (hcons w last passed) stops
  | exhausted last e passed left => exact .exhausted last e (hcons m last passed) left

theorem Ends.congr {state : σ} {m : List (Char × Kind)} {pos : Nat} {open₁ open₂ : Nat → Prop}
    {found : Except (Option Nat) (Nat × List Char)} (h : Ends next state m pos open₁ found)
    (hopen : ∀ start, open₁ start ↔ open₂ start) : Ends next state m pos open₂ found := by
  cases h with
  | stopped w c back last parts passed stops => exact .stopped w c back last parts passed stops
  | exhausted last e passed left =>
    exact .exhausted last e passed fun start => (left start).trans (hopen start)

/-- A search that nothing stops tells which comment is left open. -/
theorem Ends.left_iff {state : σ} {m : List (Char × Kind)} {pos : Nat} {open? : Nat → Prop}
    {e : Option Nat} (h : Ends next state m pos open? (.error e)) (start : Nat) :
    e = some start ↔ open? start := by
  cases h with
  | exhausted _ _ _ left => exact left start

/-- A search that passes over comments ends so. -/
theorem ends_seek (next : σ → Char → Option σ) (mode : Mode) (opened : Nat) (state : σ) (pos : Nat)
    (s : List Char) :
    Ends next state (kindsFrom mode s) pos (LeavesOpen mode opened pos s)
      (seek true next mode opened state pos s) := by
  induction s generalizing mode opened state pos with
  | nil =>
    refine .exhausted state _ rfl fun start => ?_
    have hnone : ¬OpensBlock (kindsFrom mode []) pos start := by
      rintro ⟨front, rest, hnil, -⟩
      simp [kindsFrom] at hnil
    rw [LeavesOpen, or_iff_right hnone]
    cases mode with
    | block =>
      -- A text that ends in a block comment leaves it open.
      have hopen : StaysOpen .block [] := fun h => absurd h.length_le (by decide)
      rw [if_pos rfl, and_iff_right hopen, Option.some.injEq, eq_comm]
    | _ => exact iff_of_false (by simp) fun h => h.1
  | cons c s ih =>
    obtain ⟨kind, mode', hstep⟩ : ∃ kind mode', mode.step c s.head? = (kind, mode') := ⟨_, _, rfl⟩
    -- Which comment is left open is told by the rest of the text.
    have hopen := fun start => (leavesOpen_cons_iff hstep opened pos start).symm
    rw [kindsFrom, seek, if_pos rfl, hstep]
    cases kind with
    | code =>
      dsimp only
      cases hnext : next state c with
      | none =>
        have hend : Ends next state ((c, .code) :: kindsFrom mode' s) pos
            (LeavesOpen mode opened pos (c :: s)) _ :=
          .stopped [] c (kindsFrom mode' s) state rfl rfl hnext
        rwa [map_fst_kindsFrom] at hend
      | some state' =>
        have hstate : (codeOf [(c, .code)]).foldlM next state = some state' := by
          show (next state c).bind _ = _
          rw [hnext]
          rfl
        exact (Ends.cons hstate (ih mode' opened state' _)).congr hopen
    | opening => exact (Ends.cons rfl (ih mode' pos state _)).congr hopen
    | inside => exact (Ends.cons rfl (ih mode' opened state _)).congr hopen

/-- The search behind a character of code. -/
theorem ends_seek_behind {back : List (Char × Kind)} (h : back = kinds (back.map Prod.fst))
    (next : σ → Char → Option σ) (state : σ) (pos : Nat) :
    Ends next state back pos (OpensBlock back pos)
      (seek true next .code 0 state pos (back.map Prod.fst)) := by
  have hend := ends_seek next .code 0 state pos (back.map Prod.fst)
  rw [← kinds, ← h] at hend
  refine hend.congr fun start => ?_
  rw [LeavesOpen, ← kinds, ← h]
  exact or_iff_left fun hopen => hopen.1

/-- A character of code that a search passes over does not stop it. -/
theorem exists_next_of_passed {state last : σ} {u v : List (Char × Kind)} {c : Char}
    (h : (codeOf (u ++ (c, .code) :: v)).foldlM next state = some last) :
    ∃ mid, (codeOf u).foldlM next state = some mid ∧ next mid c ≠ none := by
  rw [codeOf_append, codeOf_cons_code, List.foldlM_append] at h
  obtain ⟨mid, hmid, hrest⟩ := Option.bind_eq_some_iff.1 h
  rw [List.foldlM_cons] at hrest
  obtain ⟨mid', hnext, -⟩ := Option.bind_eq_some_iff.1 hrest
  exact ⟨mid, hmid, by rw [hnext]; exact Option.some_ne_none _⟩

end

end StructUnfold.Comment
