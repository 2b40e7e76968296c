import StructUnfold.Proofs.Catalog.Resolve

/-!
# Chains of aliases

A symbol is a name between white space with stars behind it. The name is followed along the chain of
its aliases. A chain that ends passes no name twice, so it has no more hops than there are aliases,
and the bound of one hop more cuts off nothing but circles. Only a cap that is set can cut off more.

* `Hops`: the aliases that are followed from one name to another.
* `Spells`: how a symbol is put together; every symbol is (`exists_spells`).
* `follow?_eq_some_iff`: what is found within a number of hops.
* `Hops.length_le_size`: a chain that ends has no more hops than there are aliases.
* `resolve_follows_hops`: when a symbol comes down to a name, to which name, and when it does not.
-/

namespace StructUnfold.Catalog

/-! ### Hops -/

/-- From a name the aliases `hops`, one after the other, lead to the name `last`. -/
inductive Hops (aliases : Table Alias) : String → List Alias → String → Prop where
  /-- No hop is made. -/
  | nil (name : String) : Hops aliases name [] name
  /-- The name is an alias, and the other hops start at what it stands for. -/
  | cons {name last : String} {a : Alias} {hops : List Alias} (hget : aliases.get? name = some a)
    (h : Hops aliases a.target hops last) : Hops aliases name (a :: hops) last

variable {aliases : Table Alias} {name last : String}

/-- No hop is made from a name that is no alias. -/
theorem Hops.eq_nil {hops : List Alias} (h : Hops aliases name hops last)
    (hnone : aliases.get? name = none) : hops = [] ∧ last = name := by
  cases h with
  | nil => exact ⟨rfl, rfl⟩
  | cons hget =>
    rw [hnone] at hget
    cases hget

/-- The first hop is the alias of the name. -/
theorem Hops.exists_cons {hops : List Alias} (h : Hops aliases name hops last) {a : Alias}
    (hget : aliases.get? name = some a) (hend : aliases.get? last = none) :
    ∃ later, hops = a :: later ∧ Hops aliases a.target later last := by
  cases h with
  | nil =>
    rw [hget] at hend
    cases hend
  | cons hget' h =>
    obtain rfl := Option.some.inj (hget.symm.trans hget')
    exact ⟨_, rfl, h⟩

/-- A chain that ends does so in one way only. -/
theorem Hops.unique {hops hops' : List Alias} {last' : String} (h : Hops aliases name hops last)
    (hend : aliases.get? last = none) (h' : Hops aliases name hops' last')
    (hend' : aliases.get? last' = none) : hops = hops' ∧ last = last' := by
  induction h generalizing hops' with
  | nil =>
    obtain ⟨rfl, rfl⟩ := h'.eq_nil hend
    exact ⟨rfl, rfl⟩
  | cons hget _ ih =>
    obtain ⟨later, rfl, hlater⟩ := h'.exists_cons hget hend'
    obtain ⟨rfl, rfl⟩ := ih hend hlater
    exact ⟨rfl, rfl⟩

/-- The names that a chain passes before its end are aliases and differ: from each of them on the
rest of the chain is as long as it is from no other. -/
theorem Hops.exists_passed {hops : List Alias} (h : Hops aliases name hops last)
    (hend : aliases.get? last = none) :
    ∃ passed : List String, passed.length = hops.length ∧ passed.Nodup ∧
      (∀ n ∈ passed, aliases.contains n = true) ∧
      ∀ n ∈ passed, ∃ later, later.length ≤ hops.length ∧ Hops aliases n later last := by
  induction h with
  | nil => exact ⟨[], rfl, List.nodup_nil, by simp, by simp⟩
  | @cons name last a hops hget h ih =>
    obtain ⟨passed, hlength, hnodup, haliases, hlater⟩ := ih hend
    have hhere : Hops aliases name (a :: hops) last := .cons hget h
    have hfresh : name ∉ passed := by
      intro hmem
      -- From the same name on the chain would be shorter than it is.
      obtain ⟨later, hshorter, hagain⟩ := hlater name hmem
      obtain ⟨rfl, -⟩ := hagain.unique hend hhere hend
      exact absurd hshorter (Nat.not_succ_le_self _)
    refine ⟨name :: passed, congrArg Nat.succ hlength, List.nodup_cons.2 ⟨hfresh, hnodup⟩,
      List.forall_mem_cons.2 ⟨Table.contains_eq_true_iff.2 ⟨a, hget⟩, haliases⟩,
      List.forall_mem_cons.2 ⟨⟨_, Nat.le_refl _, hhere⟩, fun n hn => ?_⟩⟩
    obtain ⟨later, hle, hagain⟩ := hlater n hn
    exact ⟨later, Nat.le_succ_of_le hle, hagain⟩

/-- A chain that ends has no more hops than there are aliases. -/
theorem Hops.length_le_size {hops : List Alias} (h : Hops aliases name hops last)
    (hend : aliases.get? last = none) : hops.length ≤ aliases.size := by
  obtain ⟨passed, hlength, hnodup, haliases, -⟩ := h.exists_passed hend
  have hsub : passed ⊆ aliases.keys := fun n hn => Table.mem_keys_iff.2 (haliases n hn)
  have hle := hnodup.length_le_of_subset hsub
  rwa [hlength, Table.keys, List.length_map] at hle

/-- What is found within a number of hops is the end of the chain. -/
theorem follow?_eq_some_iff {bound : Nat} {isPointer : Bool} {found : Resolved} :
    follow? aliases bound name isPointer = some found ↔
      ∃ hops, Hops aliases name hops found.root ∧ aliases.get? found.root = none ∧
        hops.length ≤ bound ∧ found.isPointer = (isPointer || hops.any Alias.isPointer) := by
  -- By induction on the bound: a chain of hops loses its first one with each.
  induction bound generalizing name isPointer with
  | zero =>
    rw [follow?]
    constructor
    · intro h
      split at h
      · rename_i hnone
        obtain rfl := Option.some.inj h
        exact ⟨[], .nil name, hnone, Nat.le_refl _, by simp⟩
      · cases h
    · rintro ⟨hops, h, hend, hle, hpointer⟩
      obtain rfl := List.eq_nil_of_length_eq_zero (Nat.le_zero.1 hle)
      cases h
      rw [hend, ← Bool.or_false isPointer]
      exact congrArg some (congrArg (Resolved.mk found.root) hpointer.symm)
  | succ bound ih =>
    rw [follow?]
    cases hget : aliases.get? name with
    | none =>
      constructor
      · intro h
        obtain rfl := Option.some.inj h
        exact ⟨[], .nil name, hget, Nat.zero_le _, by simp⟩
      · rintro ⟨hops, h, -, -, hpointer⟩
        obtain ⟨rfl, hroot⟩ := h.eq_nil hget
        rw [List.any_nil, Bool.or_false] at hpointer
        rw [← hroot, ← hpointer]
    | some a =>
      dsimp only
      rw [ih]
      constructor
      · rintro ⟨hops, h, hend, hle, hpointer⟩
        exact ⟨a :: hops, .cons hget h, hend, Nat.succ_le_succ hle, by
          rw [hpointer, List.any_cons, Bool.or_assoc]⟩
      · rintro ⟨hops, h, hend, hle, hpointer⟩
        obtain ⟨later, rfl, hlater⟩ := h.exists_cons hget hend
        exact ⟨later, hlater, hend, Nat.le_of_succ_le_succ hle, by
          rw [hpointer, List.any_cons, Bool.or_assoc]⟩

/-! ### Symbols -/

/-- A symbol is a name with white space before it and with stars and white space behind it. -/
structure Spells (symbol name tail : List Char) : Prop where
  /-- Before the name stands white space. -/
  lead : ∃ lead, symbol = lead ++ (name ++ tail) ∧ ∀ c ∈ lead, Text.isSpace c = true
  /-- Behind it stand stars and white space. -/
  tail : ∀ c ∈ tail, c = '*' ∨ Text.isSpace c = true
  /-- The name does not begin with white space. -/
  head : ∀ c, name.head? = some c → Text.isSpace c = false
  /-- Nor does it end with white space or a star. -/
  last : ∀ c, name.getLast? = some c → c ≠ '*' ∧ Text.isSpace c = false

theorem isSymbolTail_iff {c : Char} : isSymbolTail c = true ↔ c = '*' ∨ Text.isSpace c = true := by
  rw [isSymbolTail, Bool.or_eq_true, beq_iff_eq]

/-- Every symbol can be read as a name between white space and stars. -/
theorem exists_spells (symbol : List Char) : ∃ name tail, Spells symbol name tail := by
  obtain ⟨tail, hsplit, htail⟩ :=
    Text.exists_dropEndWhile_append isSymbolTail (Text.trimStart symbol)
  refine ⟨stripStars (Text.trimStart symbol), tail,
    ⟨symbol.takeWhile Text.isSpace, ?_, List.all_eq_true.1 List.all_takeWhile⟩,
    fun c hc => isSymbolTail_iff.1 (htail c hc), fun c hc => ?_, fun c hc => ?_⟩
  · rw [stripStars, ← hsplit, Text.trimStart, List.takeWhile_append_dropWhile]
  · -- The name is the beginning of what trimming leaves.
    have hhead := List.head?_dropWhile_not Text.isSpace symbol
    rw [← Text.trimStart, hsplit, List.head?_append, ← stripStars, hc] at hhead
    simpa using hhead
  · have hnot := Text.not_of_getLast?_dropEndWhile hc
    rw [isSymbolTail, Bool.or_eq_false_iff, beq_eq_false_iff_ne] at hnot
    exact hnot

namespace Spells

variable {symbol name tail : List Char}

theorem stripStars_eq (h : Spells symbol name tail) : stripStars name = name := by
  refine Text.dropEndWhile_eq_self fun c hc => ?_
  obtain ⟨hstar, hspace⟩ := h.last c hc
  rw [isSymbolTail, hspace, beq_false_of_ne hstar]
  rfl

/-- White space at the start of a symbol is no part of its name, nor are the stars at its end. -/
theorem stripStars_trimStart (h : Spells symbol name tail) {stars : List Char}
    (hstars : ∀ c ∈ stars, isSymbolTail c = true) :
    stripStars (Text.trimStart (name ++ stars)) = name := by
  cases name with
  | nil =>
    -- There is no name, so white space before the stars is trimmed as well.
    refine (Text.dropEndWhile_append_of_all isSymbolTail [] fun c hc => ?_).trans rfl
    exact hstars c ((List.dropWhile_suffix _).mem hc)
  | cons c cs =>
    have hstart : Text.trimStart (c :: cs ++ stars) = c :: cs ++ stars := by
      rw [Text.trimStart, List.cons_append, List.dropWhile_cons_of_neg (by simp [h.head c rfl])]
    rw [hstart, stripStars, Text.dropEndWhile_append_of_all _ _ hstars]
    exact h.stripStars_eq

/-- A symbol is stripped to its name, and that takes a star away exactly if there is one. -/
theorem stripStars_trim (h : Spells symbol name tail) :
    stripStars (Text.trim symbol) = name ∧
      (name.length != (Text.trim symbol).length) = tail.contains '*' := by
  obtain ⟨lead, hsymbol, hlead⟩ := h.lead
  rw [hsymbol, Text.trim_append_of_all _ hlead]
  -- What trimming leaves of the tail is nothing, or it ends in a star.
  obtain ⟨blank, hblank, hspaces⟩ := Text.exists_dropEndWhile_append Text.isSpace tail
  have hend : ∀ c, (Text.dropEndWhile Text.isSpace tail).getLast? = some c → c = '*' := by
    intro c hc
    refine (h.tail c ?_).resolve_right (by simp [Text.not_of_getLast?_dropEndWhile hc])
    rw [hblank]
    exact List.mem_append_left _ (List.mem_of_getLast? hc)
  have htail := h.tail
  rw [hblank] at htail ⊢
  rw [← List.append_assoc, Text.trim_append_space _ hspaces]
  rcases List.eq_nil_or_concat (Text.dropEndWhile Text.isSpace tail) with hnil | ⟨u, c, hconcat⟩
  · have hname : Text.trim name = name :=
      Text.trim_eq_self h.head fun c hc => (h.last c hc).2
    have hnone : '*' ∉ blank := fun hmem => by
      have hstar := hspaces '*' hmem
      cases hstar
    rw [hnil, List.append_nil, List.nil_append, hname]
    exact ⟨h.stripStars_eq, by simpa using hnone⟩
  · rw [List.concat_eq_append] at hconcat
    obtain rfl := hend c (by rw [hconcat]; simp)
    rw [hconcat] at htail ⊢
    have hstars : ∀ c ∈ u, isSymbolTail c = true := fun c hc =>
      isSymbolTail_iff.2 (htail c (by simp [hc]))
    rw [← List.append_assoc, trim_concat_star, stripStars_concat_star]
    have hstrip := h.stripStars_trimStart hstars
    have hle := length_stripStars_le (Text.trimStart (name ++ u))
    rw [hstrip] at hle
    refine ⟨hstrip, ?_⟩
    rw [List.length_append, List.contains_eq_mem, decide_eq_true (by simp), bne_iff_ne]
    simp only [List.length_singleton]
    omega

/-- A symbol comes down to what is found from its name on. -/
theorem resolve_eq (h : Spells symbol name tail) (c : Catalog) :
    c.resolve symbol =
      match follow? c.aliases c.aliasHopBound (String.ofList name) (tail.contains '*') with
      | some found => .ok found
      | none => .error (.cyclicAlias (String.ofList name) c.aliasHopBound) := by
  obtain ⟨hstrip, hstar⟩ := h.stripStars_trim
  show (match follow? c.aliases c.aliasHopBound (String.ofList (stripStars (Text.trim symbol)))
      ((stripStars (Text.trim symbol)).length != (Text.trim symbol).length) with
    | some found => Except.ok found
    | none => Except.error
      (Problem.cyclicAlias (String.ofList (stripStars (Text.trim symbol))) c.aliasHopBound)) = _
  rw [hstrip, hstar]

/-- A symbol comes down to the end of the chain of its name if that lies within the bound. -/
theorem resolve_eq_ok_iff (h : Spells symbol name tail) (c : Catalog) (found : Resolved) :
    c.resolve symbol = .ok found ↔
      ∃ hops, Hops c.aliases (String.ofList name) hops found.root ∧
        c.aliases.get? found.root = none ∧ hops.length ≤ c.aliasHopBound ∧
        found.isPointer = (tail.contains '*' || hops.any Alias.isPointer) := by
  rw [← follow?_eq_some_iff, h.resolve_eq]
  split
  · rename_i hfollow
    rw [hfollow, Except.ok.injEq, Option.some.injEq]
  · rename_i hfollow
    rw [hfollow]
    exact iff_of_false nofun nofun

/-- It comes down to nothing if the chain does not end within the bound. -/
theorem resolve_eq_error_iff (h : Spells symbol name tail) (c : Catalog) (problem : Problem) :
    c.resolve symbol = .error problem ↔
      problem = .cyclicAlias (String.ofList name) c.aliasHopBound ∧
        ¬∃ hops last, Hops c.aliases (String.ofList name) hops last ∧
          c.aliases.get? last = none ∧ hops.length ≤ c.aliasHopBound := by
  constructor
  · intro herror
    refine ⟨?_, ?_⟩
    · rw [h.resolve_eq] at herror
      split at herror
      · cases herror
      · exact (Except.error.inj herror).symm
    · rintro ⟨hops, last, hhops, hend, hle⟩
      have hok := (h.resolve_eq_ok_iff c ⟨last, tail.contains '*' || hops.any Alias.isPointer⟩).2
        ⟨hops, hhops, hend, hle, rfl⟩
      rw [hok] at herror
      cases herror
  · rintro ⟨rfl, hnone⟩
    rw [h.resolve_eq]
    split
    · rename_i found hfollow
      obtain ⟨hops, hhops, hend, hle, -⟩ := follow?_eq_some_iff.1 hfollow
      exact absurd ⟨hops, found.root, hhops, hend, hle⟩ hnone
    · rfl

end Spells

/-- A number of hops lies within the bound if it lies within the number of aliases and one, and
within the cap if one is set. -/
theorem le_aliasHopBound_iff (c : Catalog) (cap : Option Nat) {n : Nat} :
    n ≤ (c.setMaxAliasHops cap).aliasHopBound ↔
      n ≤ c.aliases.size + 1 ∧ ∀ k ∈ cap, 0 < k → n ≤ k := by
  cases cap with
  | none =>
    show n ≤ c.aliases.size + 1 ↔ _
    simp
  | some k =>
    by_cases hk : 0 < k
    · have hbound : (c.setMaxAliasHops (some k)).aliasHopBound = min k (c.aliases.size + 1) := by
        simp [setMaxAliasHops, aliasHopBound, Option.filter, hk]
      rw [hbound, Nat.le_min, and_comm]
      simp [hk]
    · have hbound : (c.setMaxAliasHops (some k)).aliasHopBound = c.aliases.size + 1 := by
        simp [setMaxAliasHops, aliasHopBound, Option.filter, hk]
      rw [hbound]
      simp [hk]

/-- **Aliases are followed to their end.** Every symbol is a name between white space, with stars
and white space behind it, and that name is followed along its aliases. Under a cap on the number of
hops, of which zero is none, the symbol comes down to the name at the end of the chain if the chain
ends within the cap and one hop more than there are aliases, as a pointer exactly if a star stands
behind the symbol or an alias on the way is one. Otherwise it comes down to nothing, and the problem
names it without its stars. Without a cap that happens only where the chain never ends. -/
theorem resolve_follows_hops (c : Catalog) (cap : Option Nat) (symbol : List Char) :
    (∃ name tail, Spells symbol name tail) ∧
    ∀ name tail, Spells symbol name tail →
      (∀ found, (c.setMaxAliasHops cap).resolve symbol = .ok found ↔
        ∃ hops, Hops c.aliases (String.ofList name) hops found.root ∧
          c.aliases.get? found.root = none ∧ hops.length ≤ c.aliases.size + 1 ∧
          (∀ k ∈ cap, 0 < k → hops.length ≤ k) ∧
          found.isPointer = (tail.contains '*' || hops.any Alias.isPointer)) ∧
      (∀ problem, (c.setMaxAliasHops cap).resolve symbol = .error problem ↔
        problem = .cyclicAlias (String.ofList name) (c.setMaxAliasHops cap).aliasHopBound ∧
          ¬∃ hops last, Hops c.aliases (String.ofList name) hops last ∧
            c.aliases.get? last = none ∧ hops.length ≤ c.aliases.size + 1 ∧
            ∀ k ∈ cap, 0 < k → hops.length ≤ k) ∧
      ((∀ k ∈ cap, k = 0) →
        ((∃ problem, (c.setMaxAliasHops cap).resolve symbol = .error problem) ↔
          ∀ hops last, Hops c.aliases (String.ofList name) hops last →
            c.aliases.contains last = true)) := by
  refine ⟨exists_spells symbol, fun name tail h => ?_⟩
  have haliases : (c.setMaxAliasHops cap).aliases = c.aliases := rfl
  have hfound := h.resolve_eq_ok_iff (c.setMaxAliasHops cap)
  have hlost := h.resolve_eq_error_iff (c.setMaxAliasHops cap)
  simp only [haliases, le_aliasHopBound_iff, and_assoc] at hfound hlost
  refine ⟨hfound, hlost, fun hcap => ?_⟩
  simp only [hlost, exists_and_right, exists_eq, true_and]
  constructor
  · intro hnone hops last hhops
    refine Table.contains_eq_true_iff.2 (Option.ne_none_iff_exists'.1 fun hend => ?_)
    -- A chain that ended would be short enough.
    refine hnone ⟨hops, last, hhops, hend, Nat.le_succ_of_le (hhops.length_le_size hend), ?_⟩
    intro k hk hpos
    exact absurd (hcap k hk) (Nat.ne_of_gt hpos)
  · rintro hforever ⟨hops, last, hhops, hend, -⟩
    obtain ⟨a, hget⟩ := Table.contains_eq_true_iff.1 (hforever hops last hhops)
    rw [hend] at hget
    cases hget

/-- An alias that is declared in the file of `listCatalog`. -/
def listAlias (target : String) (isPointer : Bool) : Alias :=
  ⟨target, isPointer, .ofString "list.h"⟩

/-- A catalog with a chain of two aliases and with two that stand for each other. -/
def listCatalog : Catalog :=
  [("list_ref", listAlias "list_ptr" false), ("list_ptr", listAlias "list" true),
    ("left", listAlias "right" false), ("right", listAlias "left" true)].foldl
    (fun c a => c.insertAlias a.1 a.2) .empty

/-- `resolve_follows_hops` at symbols of `listCatalog`: the chain is followed to its end without a
cap and is too long for a cap of one hop, and the circle is never left. -/
theorem resolve_follows_hops_list :
    Spells "  list_ref * ".toList "list_ref".toList " * ".toList ∧
      (listCatalog.setMaxAliasHops none).resolve "  list_ref * ".toList = .ok ⟨"list", true⟩ ∧
      (listCatalog.setMaxAliasHops (some 1)).resolve "  list_ref * ".toList =
        .error (.cyclicAlias "list_ref" 1) ∧
      ∃ problem, (listCatalog.setMaxAliasHops (some 0)).resolve "left".toList = .error problem := by
  have hlist : Spells "  list_ref * ".toList "list_ref".toList " * ".toList := by
    refine ⟨⟨"  ".toList, by decide, List.all_eq_true.1 (by decide)⟩, fun c hc => ?_, ?_, ?_⟩
    · exact isSymbolTail_iff.1 (List.all_eq_true.1 (by decide) c hc)
    · rintro c ⟨⟩
      decide
    · rintro c ⟨⟩
      decide
  have hleft : Spells "left".toList "left".toList [] := by
    refine ⟨⟨[], rfl, nofun⟩, nofun, ?_, ?_⟩
    · rintro c ⟨⟩
      decide
    · rintro c ⟨⟩
      decide
  obtain ⟨href, hptr, hnone, hturn, hreturn⟩ :
      listCatalog.aliases.get? "list_ref" = some (listAlias "list_ptr" false) ∧
      listCatalog.aliases.get? "list_ptr" = some (listAlias "list" true) ∧
      listCatalog.aliases.get? "list" = none ∧
      listCatalog.aliases.get? "left" = some (listAlias "right" false) ∧
      listCatalog.aliases.get? "right" = some (listAlias "left" true) := by
    decide +kernel
  have hchain : Hops listCatalog.aliases "list_ref"
      [listAlias "list_ptr" false, listAlias "list" true] "list" :=
    .cons href (.cons hptr (.nil _))
  -- Whatever is reached from the circle lies on it.
  have hcircle : ∀ name hops last, Hops listCatalog.aliases name hops last →
      name = "left" ∨ name = "right" → last = "left" ∨ last = "right" := by
    intro name hops last h
    induction h with
    | nil => exact id
    | cons hname _ ih =>
      rintro (rfl | rfl)
      · obtain rfl := Option.some.inj (hname.symm.trans hturn)
        exact ih (.inr rfl)
      · obtain rfl := Option.some.inj (hname.symm.trans hreturn)
        exact ih (.inl rfl)
  refine ⟨hlist, ?_, ?_, ?_⟩
  · refine (((resolve_follows_hops listCatalog none _).2 _ _ hlist).1 ⟨"list", true⟩).2 ?_
    exact ⟨_, hchain, hnone, by decide +kernel, by simp, by decide⟩
  · refine (((resolve_follows_hops listCatalog (some 1) _).2 _ _ hlist).2.1 _).2
      ⟨by decide +kernel, ?_⟩
    -- Two hops lead to the end, and there is no other chain to one.
    rintro ⟨hops, last, h, hend, -, hcap⟩
    obtain ⟨rfl, -⟩ := h.unique hend hchain hnone
    exact absurd (hcap 1 rfl Nat.one_pos) (by decide)
  · refine (((resolve_follows_hops listCatalog (some 0) _).2 _ _ hleft).2.2 (by simp)).2 ?_
    intro hops last h
    rcases hcircle _ hops last h (.inl rfl) with rfl | rfl
    · exact Table.contains_eq_true_iff.2 ⟨_, hturn⟩
    · exact Table.contains_eq_true_iff.2 ⟨_, hreturn⟩

end StructUnfold.Catalog
