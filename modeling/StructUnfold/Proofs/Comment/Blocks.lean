import StructUnfold.Proofs.Comment.Kinds
import StructUnfold.Proofs.Source.Block

/-!
# Comments in blocks

The search for the end of a block passes over comments, so it comes to the same place when they are
erased. What stands behind the block is the same as well, if there is no comment in it.

* `SameEnd`, `seek_erasedFrom`: a search comes to the same place whether comments are erased or not.
* `extract_erased`: a block is found in a text exactly if it is found in the erased text.
-/

namespace StructUnfold.Comment

open Text Block

/-- A search in a text and one in the erased text end at the same character of code, or both end
nowhere. -/
def SameEnd {σ : Type} (next : σ → Char → Option σ) (m : List (Char × Kind)) (pos : Nat)
    (found found' : Except (Option Nat) (Nat × List Char)) : Prop :=
  (∃ w c back, m = w ++ (c, .code) :: back ∧ (∃ last, next last c = none) ∧
    found = .ok (pos + byteSize (w.map Prod.fst), back.map Prod.fst) ∧
    found' = .ok (pos + byteSize (w.map Prod.fst), (back.flatMap blot).map Prod.fst)) ∨
  ∃ e e', found = .error e ∧ found' = .error e'

section

variable {σ : Type} {next : σ → Char → Option σ}

/-- A search that goes on behind a character ends behind it. -/
theorem SameEnd.cons {m : List (Char × Kind)} {c : Char × Kind} {pos : Nat}
    {found found' : Except (Option Nat) (Nat × List Char)}
    (h : SameEnd next m (pos + c.1.utf8Size) found found') :
    SameEnd next (c :: m) pos found found' := by
  rcases h with ⟨w, d, back, rfl, hlast, hfound, hfound'⟩ | herror
  · have hpos : pos + c.1.utf8Size + byteSize (w.map Prod.fst) =
        pos + byteSize ((c :: w).map Prod.fst) := by
      rw [List.map_cons, byteSize_cons, Nat.add_assoc]
    exact .inl ⟨c :: w, d, back, rfl, hlast, hpos ▸ hfound, hpos ▸ hfound'⟩
  · exact .inr herror

/-- A search that stars and line feeds do not change comes to the same place when comments are
erased, or to none. -/
theorem seek_erasedFrom (hstar : ∀ state, next state '*' = some state)
    (hfeed : ∀ state, next state '\n' = some state) (mode : Mode) (opened opened' : Nat) (state : σ)
    (pos : Nat) (s : List Char) :
    SameEnd next (kindsFrom mode s) pos (seek true next mode opened state pos s)
      (seek true next .code opened' state pos (erasedFrom mode s)) := by
  induction s generalizing mode opened opened' state pos with
  | nil => exact .inr ⟨_, _, rfl, rfl⟩
  | cons c s ih =>
    obtain ⟨kind, mode', hstep⟩ : ∃ kind mode', mode.step c s.head? = (kind, mode') := ⟨_, _, rfl⟩
    have hkinds : kindsFrom mode (c :: s) = (c, kind) :: kindsFrom mode' s := by
      rw [kindsFrom, hstep]
    rw [hkinds]
    by_cases hkind : kind = .code
    · subst hkind
      have hmode := Mode.eq_code_of_step hstep
      subst hmode
      have hstep' := step_code_erasedFrom hstep
      rw [erasedFrom_cons_code hstep, seek, seek, if_pos rfl, if_pos rfl, hstep, hstep']
      dsimp only
      cases hnext : next state c with
      | none =>
        exact .inl ⟨[], c, kindsFrom .code s, rfl, ⟨state, hnext⟩, by simp, by simp [erasedFrom]⟩
      | some state' => exact (ih .code opened opened' state' (pos + c.utf8Size)).cons
    · -- Neither search is stopped by what stands in a comment or is put in its place.
      have hblot : ∀ x ∈ (blot (c, kind)).map Prod.fst, x = '*' ∨ x = '\n' := by
        intro x hx
        obtain ⟨y, hy, rfl⟩ := List.mem_map.1 hx
        exact (eq_star_or_eq_feed (c := (c, kind)) hkind hy).2.imp_right And.left
      have hcode : IsCode ((blot (c, kind)).map Prod.fst) :=
        isCode_of_not_mem (slash_not_mem_blot c hkind)
      have hstate : ∀ t : List Char, (∀ x ∈ t, x = '*' ∨ x = '\n') →
          t.foldlM next state = some state := by
        intro t ht
        induction t with
        | nil => rfl
        | cons x t iht =>
          obtain ⟨hx, ht⟩ := List.forall_mem_cons.1 ht
          have hsame : next state x = some state := by
            rcases hx with rfl | rfl
            · exact hstar state
            · exact hfeed state
          rw [List.foldlM_cons, hsame]
          exact iht ht
      have hraw : ∃ opened'', seek true next mode opened state pos (c :: s) =
          seek true next mode' opened'' state (pos + c.utf8Size) s := by
        rw [seek, if_pos rfl, hstep]
        cases kind with
        | code => exact absurd rfl hkind
        | opening => exact ⟨pos, rfl⟩
        | inside => exact ⟨opened, rfl⟩
      obtain ⟨opened'', hraw⟩ := hraw
      rw [hraw, erasedFrom_cons, hstep, seek_append_of_isCode true hcode (hstate _ hblot),
        byteSize_blot, byteSize_cons, byteSize_nil, Nat.add_zero]
      exact (ih mode' opened'' opened' state (pos + c.utf8Size)).cons

end

/-- The parts of a text behind the brace that opens a block. -/
structure Parts where
  /-- What stands between the braces. -/
  inner : List (Char × Kind)
  /-- What stands behind them and before the semicolon. -/
  trailer : List (Char × Kind)
  /-- What follows. -/
  rest : List (Char × Kind)

namespace Parts

/-- The parts together. -/
def joined (parts : Parts) : List (Char × Kind) :=
  parts.inner ++ ('}', .code) :: (parts.trailer ++ (';', .code) :: parts.rest)

/-- The span of a block with these parts whose brace stands at an offset. -/
def span (parts : Parts) (start : Nat) : Block.Span :=
  ⟨start, start + 1 + byteSize (parts.inner.map Prod.fst),
    start + 1 + byteSize (parts.inner.map Prod.fst) + 1 +
      byteSize (parts.trailer.map Prod.fst) + 1⟩

end Parts

variable {t : List Char} {front back : List (Char × Kind)}

/-- What is left of a part that is read outside comments when its comments are erased. -/
theorem erasedFrom_eq {m : List (Char × Kind)} (hm : m = kinds (m.map Prod.fst)) :
    erasedFrom .code (m.map Prod.fst) = (m.flatMap blot).map Prod.fst := by
  rw [erasedFrom, ← kinds, ← hm]

/-- Behind its brace a block is found in a text exactly if it is found in the erased text. -/
theorem extractAfterBrace_erased (hback : back = kinds (back.map Prod.fst)) (maxScan start : Nat) :
    (∃ parts : Parts, back = parts.joined ∧
      extractAfterBrace (.declaration maxScan) (start + 1) (back.map Prod.fst) =
        .ok (parts.span start) ∧
      extractAfterBrace (.declaration maxScan) (start + 1) ((back.flatMap blot).map Prod.fst) =
        .ok (parts.span start)) ∨
    ∃ e e', extractAfterBrace (.declaration maxScan) (start + 1) (back.map Prod.fst) = .error e ∧
      extractAfterBrace (.declaration maxScan) (start + 1) ((back.flatMap blot).map Prod.fst) =
        .error e' := by
  -- First the brace that ends the block is looked for, then the semicolon.
  have hclose : SameEnd nextDepth _ _ _ _ := seek_erasedFrom (fun _ => rfl) (fun _ => rfl) .code 0 0
    0 (start + 1) (back.map Prod.fst)
  rw [← kinds, ← hback, erasedFrom_eq hback] at hclose
  rcases hclose with ⟨inner, c, behind, hinner, ⟨depth, hlast⟩, hseek, hseek'⟩ |
    ⟨e, e', hseek, hseek'⟩
  · obtain rfl := eq_of_nextDepth_eq_none hlast
    have hbehind : behind = kinds (behind.map Prod.fst) := by
      rw [hback] at hinner
      exact eq_kinds_of_code hinner
    have hend : SameEnd untilSemicolon _ _ _ _ := seek_erasedFrom (fun _ => rfl) (fun _ => rfl)
      .code 0 0 () (start + 1 + byteSize (inner.map Prod.fst) + 1) (behind.map Prod.fst)
    rw [← kinds, ← hbehind, erasedFrom_eq hbehind] at hend
    rcases hend with ⟨trailer, c, rest, htrailer, ⟨u, hlast⟩, hseek₂, hseek₂'⟩ |
      ⟨e, e', hseek₂, hseek₂'⟩
    · obtain rfl := eq_of_untilSemicolon_eq_none hlast
      refine .inl ⟨⟨inner, trailer, rest⟩, by rw [hinner, htrailer]; rfl, ?_, ?_⟩
      · simp only [extractAfterBrace, Options.declaration, hseek, hseek₂, if_true, Parts.span,
          Nat.add_sub_cancel]
      · simp only [extractAfterBrace, Options.declaration, hseek', hseek₂', if_true, Parts.span,
          Nat.add_sub_cancel]
    · refine .inr ?_
      simp only [extractAfterBrace, Options.declaration, hseek, hseek', hseek₂, hseek₂', if_true]
      cases e <;> cases e' <;> exact ⟨_, _, rfl, rfl⟩
  · refine .inr ?_
    simp only [extractAfterBrace, Options.declaration, hseek, hseek']
    cases e <;> cases e' <;> exact ⟨_, _, rfl, rfl⟩

/-- A text around a brace, and the erased text. -/
theorem eq_append_brace (h : kinds t = front ++ ('{', .code) :: back) :
    t = front.map Prod.fst ++ '{' :: back.map Prod.fst ∧
      erased t = (front.flatMap blot).map Prod.fst ++
        '{' :: (back.flatMap blot).map Prod.fst := by
  constructor
  · rw [← map_fst_kinds t, h]
    simp
  · rw [erased, blotted, h, List.flatMap_append, List.flatMap_cons, blot_code]
    simp

/-- A block with the names behind it is found in a text exactly if it is found in the erased text,
and at the same place. -/
theorem extract_erased (h : kinds t = front ++ ('{', .code) :: back) (maxScan : Nat) :
    (∃ parts : Parts, back = parts.joined ∧
      extract (.declaration maxScan) t (byteSize (front.map Prod.fst)) =
        .ok (parts.span (byteSize (front.map Prod.fst))) ∧
      extract (.declaration maxScan) (erased t) (byteSize (front.map Prod.fst)) =
        .ok (parts.span (byteSize (front.map Prod.fst)))) ∨
    ∃ e e', extract (.declaration maxScan) t (byteSize (front.map Prod.fst)) = .error e ∧
      extract (.declaration maxScan) (erased t) (byteSize (front.map Prod.fst)) = .error e' := by
  obtain ⟨ht, herased⟩ := eq_append_brace h
  have hdrop : dropBytes? (byteSize (front.map Prod.fst)) t =
      some ('{' :: back.map Prod.fst) := by
    rw [ht]
    exact dropBytes?_byteSize_append _ _
  have hdrop' : dropBytes? (byteSize (front.map Prod.fst)) (erased t) =
      some ('{' :: (back.flatMap blot).map Prod.fst) := by
    rw [herased, ← byteSize_map_flatMap_blot front]
    exact dropBytes?_byteSize_append _ _
  rw [extract_of_brace _ hdrop, extract_of_brace _ hdrop']
  rcases extractAfterBrace_erased (eq_kinds_of_code h) maxScan (byteSize (front.map Prod.fst)) with
    ⟨parts, hparts, hfound, hfound'⟩ | ⟨e, e', hfound, hfound'⟩
  · simp only [hfound, hfound']
    split
    · exact .inl ⟨parts, hparts, rfl, rfl⟩
    · exact .inr ⟨_, _, rfl, rfl⟩
  · simp only [hfound, hfound']
    exact .inr ⟨_, _, rfl, rfl⟩

/-- What stands behind a block is the same in the erased text if there is no comment in it. -/
theorem trailer_erased {parts : Parts} (h : kinds t = front ++ ('{', .code) :: parts.joined)
    (hcode : ∀ x ∈ parts.trailer, x.2 = .code) :
    (parts.span (byteSize (front.map Prod.fst))).trailer t =
      (parts.span (byteSize (front.map Prod.fst))).trailer (erased t) := by
  obtain ⟨ht, herased⟩ := eq_append_brace h
  have htrailer := trailer_declaration (front.map Prod.fst) (parts.inner.map Prod.fst)
    (parts.trailer.map Prod.fst) (parts.rest.map Prod.fst)
  have htrailer' := trailer_declaration ((front.flatMap blot).map Prod.fst)
    ((parts.inner.flatMap blot).map Prod.fst) ((parts.trailer.flatMap blot).map Prod.fst)
    ((parts.rest.flatMap blot).map Prod.fst)
  have hraw : t = front.map Prod.fst ++ '{' :: (parts.inner.map Prod.fst ++
      '}' :: (parts.trailer.map Prod.fst ++ ';' :: parts.rest.map Prod.fst)) := by
    rw [ht, Parts.joined]
    simp
  have hblot : erased t = (front.flatMap blot).map Prod.fst ++
      '{' :: ((parts.inner.flatMap blot).map Prod.fst ++ '}' ::
        ((parts.trailer.flatMap blot).map Prod.fst ++
          ';' :: (parts.rest.flatMap blot).map Prod.fst)) := by
    rw [herased, Parts.joined]
    simp only [List.flatMap_append, List.flatMap_cons, blot_code, List.map_append, List.map_cons,
      List.singleton_append]
  -- Erasing keeps sizes, so the same span cuts both texts.
  rw [← hblot] at htrailer'
  rw [← hraw] at htrailer
  simp only [byteSize_map_flatMap_blot, flatMap_blot_of_code hcode] at htrailer'
  exact htrailer.trans htrailer'.symm

end StructUnfold.Comment
