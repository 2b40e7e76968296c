import Mathlib.Data.List.Nodup

/-!
# Lists without repetitions

Of each value in a list the first occurrence is kept, so that no value is left twice, and a list in
which none is there twice stays as it is. Values that are known by something else may be told apart
by that.
-/

namespace StructUnfold

section

variable {α β : Type}

theorem eraseDupsBy_sublist (r : α → α → Bool) : ∀ l : List α, (l.eraseDupsBy r).Sublist l
  | [] => .slnil
  | a :: l => by
    rw [List.eraseDupsBy_cons]
    exact ((eraseDupsBy_sublist r _).trans List.filter_sublist).cons_cons a
termination_by l => l.length
decreasing_by exact Nat.lt_succ_of_le (List.length_filter_le _ _)

/-- No value is left with which an earlier one agrees. -/
theorem pairwise_eraseDupsBy (r : α → α → Bool) :
    ∀ l : List α, (l.eraseDupsBy r).Pairwise fun a b => r b a = false
  | [] => .nil
  | a :: l => by
    rw [List.eraseDupsBy_cons, List.pairwise_cons]
    refine ⟨fun b hb => ?_, pairwise_eraseDupsBy r _⟩
    simpa using (List.mem_filter.1 ((eraseDupsBy_sublist r _).mem hb)).2
termination_by l => l.length
decreasing_by exact Nat.lt_succ_of_le (List.length_filter_le _ _)

/-- What is known by something else is told apart by that, if different values are known by
different ones. -/
theorem eraseDupsBy_map [BEq α] {r : β → β → Bool} {f : α → β} :
    ∀ l : List α, (∀ a ∈ l, ∀ b ∈ l, r (f a) (f b) = (a == b)) →
      (l.map f).eraseDupsBy r = l.eraseDups.map f
  | [], _ => rfl
  | a :: l, h => by
    have hfilter : (l.map f).filter (fun b => r b (f a) = false) =
        (l.filter fun b => !b == a).map f := by
      rw [List.filter_map]
      refine congrArg (List.map f) (List.filter_congr fun b hb => ?_)
      simp [h b (List.mem_cons_of_mem a hb) a List.mem_cons_self]
    rw [List.map_cons, List.eraseDupsBy_cons, hfilter, List.eraseDups_cons, List.map_cons]
    refine congrArg (f a :: ·) (eraseDupsBy_map _ fun b hb c hc => ?_)
    exact h b (List.mem_cons_of_mem a (List.mem_of_mem_filter hb)) c
      (List.mem_cons_of_mem a (List.mem_of_mem_filter hc))
termination_by l => l.length
decreasing_by exact Nat.lt_succ_of_le (List.length_filter_le _ _)

end

variable {α : Type} [BEq α] [LawfulBEq α]

theorem nodup_eraseDups (l : List α) : l.eraseDups.Nodup :=
  (pairwise_eraseDupsBy (· == ·) l).imp fun h heq => by simp [heq] at h

theorem eraseDups_eq_self {l : List α} (h : l.Nodup) : l.eraseDups = l := by
  induction l with
  | nil => rfl
  | cons a l ih =>
    obtain ⟨hnot, hl⟩ := List.nodup_cons.1 h
    have hfilter : l.filter (fun b => !b == a) = l :=
      List.filter_eq_self.2 fun b hb => by
        simpa using fun heq : b = a => hnot (heq ▸ hb)
    rw [List.eraseDups_cons, hfilter, ih hl]

end StructUnfold
