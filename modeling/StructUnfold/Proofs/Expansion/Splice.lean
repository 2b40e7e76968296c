import StructUnfold.Expansion.Tree
import StructUnfold.Proofs.Text.Search

/-!
# What stands in front of a block

A block takes the place of a word of a declaration. The first keyword `struct` is dropped from the
declaration, wherever it stands, and what is left is searched for the word.

* `dropStructKeyword_of_found`: the keyword is dropped with the space behind it.
* `exists_dropStructKeyword_of_passed`: a text without the keyword stays at the beginning.
* `lead_spacedBehind`: in front of a block stand the words before it, but for the keyword.
-/

namespace StructUnfold.Splice

open Text

/-- Where the keyword is found, a space behind it is dropped with it. -/
theorem dropStructKeyword_of_found {declaration before behind : List Char}
    (hfound : splitAtWord? "struct".toList declaration = some (before, ' ' :: behind))
    (hbehind : ∀ c, behind.head? = some c → isSpace c = false) :
    dropStructKeyword declaration = before ++ behind := by
  have htrim : trimStart (' ' :: behind) = behind := by
    rw [trimStart, List.dropWhile_cons_of_pos (by decide)]
    cases behind with
    | nil => rfl
    | cons c behind => exact List.dropWhile_cons_of_neg (by simp [hbehind c rfl])
  rw [dropStructKeyword, hfound]
  dsimp only
  rw [htrim]

/-- Where the search passes over a beginning of a declaration, that stays. -/
theorem exists_dropStructKeyword_of_passed {front tail : List Char}
    (hpassed : splitAtWord? "struct".toList (front ++ tail) =
      splitAtWordFrom "struct".toList front.reverse 0 tail) (htail : Parted tail) :
    ∃ tail', dropStructKeyword (front ++ tail) = front ++ tail' ∧ Parted tail' := by
  rw [dropStructKeyword, hpassed]
  split
  · rename_i before behind hfound
    obtain ⟨t, rfl, rfl⟩ := exists_of_splitAtWordFrom hfound
    refine ⟨t ++ trimStart behind, by simp, ?_⟩
    cases t with
    | nil =>
      -- The keyword cannot follow the beginning directly.
      have hs := htail 's' rfl
      cases hs
    | cons c t => exact fun d hd => htail d (by simpa using hd)
  · exact ⟨tail, rfl, htail⟩

/-- Where the keyword `struct` is among words before the type it is dropped there, and otherwise
behind the type, if at all. -/
theorem exists_dropStructKeyword_spacedBehind {ws : List (List Char)} {type tail : List Char}
    (hws : ∀ w ∈ ws, IsIdent w) (htype : IsIdent type) (hne : type ≠ "struct".toList)
    (htail : Parted tail) :
    ∃ tail', dropStructKeyword (spacedBehind ws ++ (type ++ tail)) =
      spacedBehind (ws.erase "struct".toList) ++ (type ++ tail') ∧ Parted tail' := by
  have hkeyword : IsIdent "struct".toList := by decide
  by_cases hmem : "struct".toList ∈ ws
  · obtain ⟨before, behind, rfl, hfirst⟩ := List.eq_append_cons_of_mem hmem
    have hbefore : ∀ w ∈ before, IsIdent w ∧ w ≠ "struct".toList := fun w hw =>
      ⟨hws w (List.mem_append_left _ hw), fun heq => hfirst (heq ▸ hw)⟩
    -- Behind the keyword another word begins, so no more than one space is dropped with it.
    have hhead : ∀ c, (spacedBehind behind ++ (type ++ tail)).head? = some c →
        isSpace c = false := by
      obtain ⟨c, hc, hhead⟩ : ∃ c, isIdentChar c = true ∧
          (spacedBehind behind ++ (type ++ tail)).head? = some c := by
        cases behind with
        | nil => exact htype.head?_append tail
        | cons w behind =>
          have hw : IsIdent w := hws w (by simp)
          rw [spacedBehind_cons, List.append_assoc]
          exact hw.head?_append _
      intro d hd
      rw [hhead, Option.some.injEq] at hd
      exact hd ▸ isSpace_eq_false_of_isIdentChar hc
    have hfound : splitAtWord? "struct".toList
        (spacedBehind (before ++ "struct".toList :: behind) ++ (type ++ tail)) =
          some (spacedBehind before, ' ' :: (spacedBehind behind ++ (type ++ tail))) := by
      rw [spacedBehind_append, spacedBehind_cons, List.append_assoc, List.append_assoc,
        List.cons_append]
      exact splitAtWord?_spacedBehind hkeyword hbefore (parted_cons (by decide) _)
    refine ⟨tail, ?_, htail⟩
    rw [dropStructKeyword_of_found hfound hhead, List.erase_append_right _ hfirst,
      List.erase_cons_head, spacedBehind_append, List.append_assoc]
  · have hothers : ∀ w ∈ ws, IsIdent w ∧ w ≠ "struct".toList := fun w hw =>
      ⟨hws w hw, fun heq => hmem (heq ▸ hw)⟩
    have hpassed : splitAtWord? "struct".toList (spacedBehind ws ++ type ++ tail) =
        splitAtWordFrom "struct".toList (spacedBehind ws ++ type).reverse 0 tail := by
      rw [splitAtWord?, if_neg (by decide), List.append_assoc,
        splitAtWordFrom_spacedBehind hkeyword hothers,
        splitAtWordFrom_of_ne _ htype hkeyword hne htail, List.append_nil, List.reverse_append]
    obtain ⟨tail', hdrop, htail'⟩ := exists_dropStructKeyword_of_passed hpassed htail
    rw [List.append_assoc, List.append_assoc] at hdrop
    exact ⟨tail', by rw [List.erase_of_not_mem hmem, hdrop], htail'⟩

/-- In front of a block stand the words before the type, but for the keyword `struct`. -/
theorem lead_spacedBehind {ws : List (List Char)} {type tail : List Char}
    (hws : ∀ w ∈ ws, IsIdent w ∧ w ≠ type) (htype : IsIdent type) (hne : type ≠ "struct".toList)
    (htail : Parted tail) :
    lead (spacedBehind ws ++ (type ++ tail)) type = spacedBehind (ws.erase "struct".toList) := by
  obtain ⟨tail', hdrop, htail'⟩ :=
    exists_dropStructKeyword_spacedBehind (fun w hw => (hws w hw).1) htype hne htail
  rw [lead, hdrop, splitAtWord?_spacedBehind htype
    (fun w hw => hws w (List.mem_of_mem_erase hw)) htail']

end StructUnfold.Splice
