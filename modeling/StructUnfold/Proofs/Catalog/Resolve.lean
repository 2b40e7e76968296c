import Mathlib.Logic.Relation
import StructUnfold.Catalog.Resolve
import StructUnfold.Proofs.Text.Identifier
import StructUnfold.Proofs.Text.Space

/-!
# Resolving symbols

Stars behind a symbol change whether it comes down to a pointer, but not to which name.

* `follow?_eq_map`: a pointer stays a pointer along a chain of aliases.
* `resolve_concat_star`: a symbol with a further star comes down to the same name, as a pointer.
* `resolve_append`: so does one with any stars and white space behind it.
* `exists_follow?_eq_some`: a chain of aliases that never runs in a circle has no more hops than
  there are aliases.
-/

namespace StructUnfold.Catalog

/-- The name at the end of a chain does not depend on whether the chain starts at a pointer. -/
theorem follow?_eq_map (aliases : Table Alias) (hops : Nat) (name : String) (isPointer : Bool) :
    follow? aliases hops name isPointer =
      (follow? aliases hops name false).map fun r => ⟨r.root, isPointer || r.isPointer⟩ := by
  induction hops generalizing name isPointer with
  | zero =>
    rw [follow?, follow?]
    split <;> simp
  | succ hops ih =>
    rw [follow?, follow?]
    split
    · simp
    · rename_i a _
      dsimp only
      rw [ih a.target, ih a.target (false || a.isPointer), Option.map_map]
      simp [Function.comp_def, Bool.or_assoc]

theorem stripStars_concat_star (symbol : List Char) :
    stripStars (symbol ++ ['*']) = stripStars symbol := by
  rw [stripStars, Text.dropEndWhile_concat, if_pos (by rfl), stripStars]

/-- White space at the end of a symbol is stripped as well. -/
theorem stripStars_trimEnd (symbol : List Char) :
    stripStars (Text.trimEnd symbol) = stripStars symbol :=
  Text.dropEndWhile_dropEndWhile (fun c hc => by simp [isSymbolTail, hc]) symbol

/-- An identifier has nothing at its end to be stripped. -/
theorem stripStars_of_isIdent {symbol : List Char} (h : Text.IsIdent symbol) :
    stripStars symbol = symbol := by
  refine Text.dropEndWhile_eq_self fun c hc => ?_
  have hident := h.chars c (List.mem_of_getLast? hc)
  have hne : (c == '*') = false := beq_false_of_ne (Text.ne_of_isIdentChar hident (by decide))
  rw [isSymbolTail, hne, Text.isSpace_eq_false_of_isIdentChar hident]
  rfl

theorem trim_concat_star (symbol : List Char) :
    Text.trim (symbol ++ ['*']) = Text.trimStart symbol ++ ['*'] := by
  have hstar : Text.isSpace '*' = false := rfl
  have hstart : Text.trimStart (symbol ++ ['*']) = Text.trimStart symbol ++ ['*'] := by
    rw [Text.trimStart, List.dropWhile_append, Text.trimStart]
    split
    · rename_i hnil
      rw [List.isEmpty_iff.1 hnil, List.dropWhile_cons_of_neg (by simp [hstar]), List.nil_append]
    · rfl
  rw [Text.trim, hstart, Text.trimEnd, Text.dropEndWhile_concat, if_neg (by simp [hstar])]

theorem length_stripStars_le (symbol : List Char) : (stripStars symbol).length ≤ symbol.length := by
  obtain ⟨tail, hsymbol, -⟩ := Text.exists_dropEndWhile_append isSymbolTail symbol
  have hlength := congrArg List.length hsymbol
  rw [List.length_append] at hlength
  rw [stripStars]
  omega

/-- A further star makes a symbol a pointer to what it came down to before. -/
theorem resolve_concat_star (c : Catalog) (symbol : List Char) :
    c.resolve (symbol ++ ['*']) = (c.resolve symbol).map fun r => ⟨r.root, true⟩ := by
  have hstrip : stripStars (Text.trim (symbol ++ ['*'])) = stripStars (Text.trim symbol) := by
    rw [trim_concat_star, stripStars_concat_star, Text.trim, stripStars_trimEnd]
  -- Both symbols are stripped to one name, and the longer one loses at least its star.
  have hshorter :
      (stripStars (Text.trim symbol)).length ≠ (Text.trim (symbol ++ ['*'])).length := by
    rw [Text.trim, stripStars_trimEnd, trim_concat_star, List.length_append]
    have hle := length_stripStars_le (Text.trimStart symbol)
    simp only [List.length_singleton]
    omega
  rw [resolve, resolve]
  simp only [hstrip]
  rw [bne_iff_ne.2 hshorter, follow?_eq_map _ _ _ true,
    follow?_eq_map _ _ _ ((stripStars (Text.trim symbol)).length != (Text.trim symbol).length)]
  cases follow? c.aliases c.aliasHopBound (String.ofList (stripStars (Text.trim symbol))) false <;>
    simp [Except.map]

/-- Stars and white space behind a symbol make it a pointer to what it came down to before. -/
theorem resolve_append {symbol tail : List Char} (hsymbol : Text.trim symbol = symbol)
    (hstrip : stripStars symbol = symbol) (htail : ∀ c ∈ tail, isSymbolTail c = true)
    (htrim : Text.trim (symbol ++ tail) = symbol ++ tail) (c : Catalog) :
    c.resolve (symbol ++ tail) =
      (c.resolve symbol).map fun r => ⟨r.root, !tail.isEmpty || r.isPointer⟩ := by
  have hstrip' : stripStars (symbol ++ tail) = symbol := by
    rw [stripStars, Text.dropEndWhile_append_of_all _ _ htail, ← stripStars, hstrip]
  have hlonger : (symbol.length != (symbol ++ tail).length) = !tail.isEmpty := by
    cases tail with
    | nil => simp
    | cons d ds => simp [List.length_append, bne_iff_ne]
  rw [resolve, resolve]
  simp only [htrim, hsymbol, hstrip, hstrip', hlonger, bne_self_eq_false]
  rw [follow?_eq_map]
  cases follow? c.aliases c.aliasHopBound (String.ofList symbol) false <;> simp [Except.map]

/-- A symbol comes down to no name only because its aliases form too long a chain. -/
theorem exists_of_resolve_eq_error {c : Catalog} {symbol : List Char} {issue : Problem}
    (h : c.resolve symbol = .error issue) : ∃ name bound, issue = .cyclicAlias name bound := by
  rw [resolve] at h
  split at h
  · cases h
  · exact ⟨_, _, (Except.error.inj h).symm⟩

/-! ### Chains without circles -/

/-- A name is an alias of another one. -/
def Hop (aliases : Table Alias) (name target : String) : Prop :=
  ∃ a, aliases.get? name = some a ∧ a.target = target

/-- Names from which a name is reached by hops are aliases, so if no chain runs in a circle they are
fewer than there are aliases as long as the chain goes on. -/
private theorem exists_follow?_of_seen {aliases : Table Alias}
    (hacyclic : ∀ n, ¬Relation.TransGen (Hop aliases) n n) {hops : Nat} {name : String}
    (isPointer : Bool) {seen : List String} (hnodup : seen.Nodup)
    (hkeys : ∀ n ∈ seen, aliases.contains n = true)
    (hreach : ∀ n ∈ seen, Relation.TransGen (Hop aliases) n name)
    (hhops : aliases.size ≤ seen.length + hops) :
    ∃ found, follow? aliases hops name isPointer = some found := by
  induction hops generalizing name isPointer seen with
  | zero =>
    rw [follow?]
    cases hget : aliases.get? name with
    | none => exact ⟨_, rfl⟩
    | some a =>
      -- One alias more than there are would have been seen.
      have hfresh : name ∉ seen := fun hmem => hacyclic name (hreach name hmem)
      have hsub : name :: seen ⊆ aliases.keys := by
        intro n hn
        rcases List.mem_cons.1 hn with rfl | hn
        · exact Table.mem_keys_iff.2 (Table.contains_eq_true_iff.2 ⟨a, hget⟩)
        · exact Table.mem_keys_iff.2 (hkeys n hn)
      have hle := (List.nodup_cons.2 ⟨hfresh, hnodup⟩).length_le_of_subset hsub
      rw [Table.keys, List.length_map, List.length_cons] at hle
      rw [Table.size] at hhops
      omega
  | succ hops ih =>
    rw [follow?]
    cases hget : aliases.get? name with
    | none => exact ⟨_, rfl⟩
    | some a =>
      have hhop : Hop aliases name a.target := ⟨a, hget, rfl⟩
      have hfresh : name ∉ seen := fun hmem => hacyclic name (hreach name hmem)
      refine ih _ (List.nodup_cons.2 ⟨hfresh, hnodup⟩) (fun n hn => ?_) (fun n hn => ?_) ?_
      · rcases List.mem_cons.1 hn with rfl | hn
        · exact Table.contains_eq_true_iff.2 ⟨a, hget⟩
        · exact hkeys n hn
      · rcases List.mem_cons.1 hn with rfl | hn
        · exact .single hhop
        · exact (hreach n hn).tail hhop
      · rw [List.length_cons]
        omega

/-- A chain of aliases that never runs in a circle comes to an end within as many hops as there are
aliases. -/
theorem exists_follow?_eq_some {aliases : Table Alias}
    (hacyclic : ∀ n, ¬Relation.TransGen (Hop aliases) n n) {hops : Nat}
    (hhops : aliases.size ≤ hops) (name : String) (isPointer : Bool) :
    ∃ found, follow? aliases hops name isPointer = some found :=
  exists_follow?_of_seen hacyclic isPointer List.nodup_nil (by simp) (by simp)
    (by simpa using hhops)

end StructUnfold.Catalog
