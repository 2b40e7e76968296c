import StructUnfold.Proofs.Expansion.Semantics
import StructUnfold.Proofs.Expansion.Splice

/-!
# Qualifiers before the type of a declaration

The type of a declaration may stand behind the words `struct`, `const` and `volatile`. They are
settled as they are, and a block that takes the place of the type has them in front of it, all but
the first `struct`. Neither depends on what the type is called.

* `Declaration.qualifiers`: the words that may stand before the type.
* `verdict_qualifier`: a qualifier is settled as it is, whatever follows.
* `nameIn_append`, `starsOf_append`: a name with stars behind it is taken apart again.
* `Splice.lead_behind_words`: what stands in front of a block depends on the words before it alone.
-/

namespace StructUnfold

open Text

/-- The words that may stand before the type of a declaration. -/
def Declaration.qualifiers : List String :=
  ["struct", "const", "volatile"]

theorem Declaration.isIdent_of_mem_qualifiers {q : String} (hq : q ∈ qualifiers) :
    IsIdent q.toList := by
  have hall : ∀ q ∈ qualifiers, IsIdent q.toList := by decide
  exact hall q hq

namespace Catalog

/-- No qualifier names a struct or an alias. -/
def SparesQualifiers (c : Catalog) : Prop :=
  ∀ q ∈ Declaration.qualifiers, c.structs.contains q = false ∧ c.aliases.contains q = false

instance (c : Catalog) : Decidable c.SparesQualifiers :=
  inferInstanceAs (Decidable (∀ q ∈ Declaration.qualifiers, _ ∧ _))

/-- An identifier that is no alias comes down to itself. -/
theorem resolve_of_not_alias {c : Catalog} {name : String} (hname : IsIdent name.toList)
    (hnone : c.aliases.contains name = false) : c.resolve name.toList = .ok ⟨name, false⟩ := by
  have hfollow : ∀ hops, follow? c.aliases hops name false = some ⟨name, false⟩ := by
    intro hops
    have hget := Table.contains_eq_false_iff.1 hnone
    cases hops <;> rw [follow?, hget]
  rw [resolve, trim_of_isWord hname.isWord]
  simp only [stripStars_of_isIdent hname, String.ofList_toList, bne_self_eq_false, hfollow]

/-- A qualifier comes down to itself. -/
theorem SparesQualifiers.resolve {c : Catalog} (h : c.SparesQualifiers)
    {q : String} (hq : q ∈ Declaration.qualifiers) : c.resolve q.toList = .ok ⟨q, false⟩ :=
  resolve_of_not_alias (Declaration.isIdent_of_mem_qualifiers hq) (h q hq).2

end Catalog

namespace Expansion

variable {ctx : Context}

/-! ### Names and stars -/

/-- A text of stars. -/
def IsStars (s : List Char) : Prop :=
  ∀ c ∈ s, isStar c = true

instance : DecidablePred IsStars := fun s =>
  decidable_of_iff (s.all isStar = true) List.all_eq_true

/-- Stars behind a name are no part of it. -/
theorem nameIn_append {name stars : List Char} (hname : IsIdent name) (hstars : IsStars stars) :
    nameIn (name ++ stars) = name := by
  rw [nameIn, dropEndWhile_append_of_all _ _ hstars]
  refine dropEndWhile_eq_self fun c hc => ?_
  have hident := hname.chars c (List.mem_of_getLast? hc)
  exact beq_false_of_ne (ne_of_isIdentChar hident (by decide))

theorem starsOf_append {name stars : List Char} (hname : IsIdent name) (hstars : IsStars stars) :
    starsOf (name ++ stars) = stars := by
  rw [starsOf, nameIn_append hname hstars, List.drop_left]

/-- Stars or the words that follow set a name apart. -/
theorem parted_stars {stars : List Char} (hstars : IsStars stars) (rest : Declaration) :
    Parted (stars ++ spaced rest) := by
  cases stars with
  | cons c cs =>
    have hc : c = '*' := by simpa [isStar] using hstars c List.mem_cons_self
    rw [hc]
    exact parted_cons (by decide) _
  | nil =>
    cases rest with
    | nil => exact fun c hc => by cases hc
    | cons w ws =>
      rw [List.nil_append, spaced_cons]
      exact parted_cons (by decide) _

/-! ### Qualifiers -/

/-- A qualifier that comes down to itself is settled as it is, whatever follows it. -/
theorem verdict_qualifier {q : String} (hq : q ∈ Declaration.qualifiers)
    (hresolve : ctx.catalog.resolve q.toList = .ok ⟨q, false⟩)
    (hundefined : ctx.catalog.structs.contains q = false) (depth : Nat) (rest : Declaration)
    (visited : List String) :
    verdict ctx depth q.toList rest visited =
      .settle q.toList
        (if visited.contains q then none else unexpandable? ctx.catalog q.toList q) := by
  have hident := Declaration.isIdent_of_mem_qualifiers hq
  have hname : nameIn q.toList = q.toList := by
    have hnil : IsStars [] := by decide
    have happend := nameIn_append hident hnil
    rwa [List.append_nil] at happend
  have hleaf : leafName ⟨q, false⟩ (hasStar q.toList rest) ++ starsOf q.toList = q.toList := by
    rw [starsOf, hname, List.drop_length, List.append_nil]
    rfl
  have hne : nameIn q.toList ≠ [] := by
    rw [hname]
    exact hident.ne_nil
  have hnamed : ctx.catalog.resolve (nameIn q.toList) = .ok ⟨q, false⟩ := by
    rw [hname]
    exact hresolve
  by_cases hvisited : q ∈ visited
  · have hsettle : verdict ctx depth q.toList rest visited =
        .settle (leafName ⟨q, false⟩ (hasStar q.toList rest) ++ starsOf q.toList) none :=
      verdict_eq_iff.2 (.visited hne hnamed hvisited)
    rw [if_pos (List.contains_iff_mem.2 hvisited), hsettle, hleaf]
  · rw [if_neg (mt List.contains_iff_mem.1 hvisited)]
    refine verdict_eq_iff.2 (.undefined hne hnamed hvisited hundefined ?_)
    rw [hname]

end Expansion

/-! ### What stands in front of a block -/

/-- In front of a block in the place of a name with stars behind it stand the words before it, but
for the keyword `struct`. -/
theorem Splice.lead_behind_words {ws : Declaration} {name stars : List Char}
    (hws : ∀ w ∈ ws, IsIdent w ∧ w ≠ name) (hname : IsIdent name) (hne : name ≠ "struct".toList)
    (hstars : Expansion.IsStars stars) (rest : Declaration) :
    lead (Declaration.text (ws ++ (name ++ stars) :: rest)) (Expansion.nameIn (name ++ stars)) =
      spacedBehind (ws.erase "struct".toList) := by
  rw [Expansion.nameIn_append hname hstars, Declaration.text, joinWords_append_cons,
    List.append_assoc]
  exact lead_spacedBehind hws hname hne (Expansion.parted_stars hstars rest)

end StructUnfold
