import StructUnfold.Scan.Basic

/-!
# What recording findings does to a catalog

The entries of one name in the three tables change only when a finding of that name is recorded, and
how they change depends on nothing but these entries. So the effect of scanning a text can be read
off from scanning it alone, into the empty catalog.

* `Catalog.AgreeAt c d n`: the catalogs `c` and `d` hold the same entries under the name `n`.
* `Scan.alone maxScan file`: the catalog of one file scanned alone.
* `agreeAt_scan`: scanning a text into catalogs that agree at a name keeps them in agreement there.
* `agreeAt_scan_of_not_defines`: a text leaves the names alone that it does not define.
* `DeclaredBy`, `StatedBy`: what a header and an alias statement declare, case by case.
* `alone_onlyFrom`: what a file scanned alone defines stands in that file.
-/

namespace StructUnfold

/-- A value that is found behind an insertion has been inserted or was found before. -/
theorem Table.eq_or_of_get?_insert {α : Type} {t : Table α} {m n : String} {v w : α}
    (h : (t.insert m v).get? n = some w) : (n = m ∧ w = v) ∨ t.get? n = some w := by
  rw [get?_insert] at h
  split at h
  · rename_i hn
    exact .inl ⟨hn, (Option.some.inj h).symm⟩
  · exact .inr h

/-- What a table keeps by a test is kept by the same test. -/
theorem Table.filter_filter_self {α : Type} (t : Table α) (p : String → α → Bool) :
    (t.filter p).filter p = t.filter p := by
  apply Table.ext_get?
  intro n
  rw [get?_filter, get?_filter, Option.filter_filter]
  simp only [Bool.and_self]

namespace Catalog

/-- A file that was forgotten is not forgotten a second time. -/
theorem removePath_removePath (c : Catalog) (path : Path) :
    (c.removePath path).removePath path = c.removePath path := by
  simp only [removePath, Table.filter_filter_self]

/-- A name has an entry in one of the three tables. -/
def Defines (c : Catalog) (name : String) : Prop :=
  c.structs.contains name = true ∨ c.aliases.contains name = true ∨
    c.unparseable.contains name = true

/-- The names that have an entry. -/
def names (c : Catalog) : List String :=
  c.structs.keys ++ c.aliases.keys ++ c.unparseable.keys

theorem mem_names_iff {c : Catalog} {name : String} : name ∈ c.names ↔ c.Defines name := by
  simp only [names, List.mem_append, Table.mem_keys_iff, Defines, or_assoc]

/-- Two catalogs hold the same entries under a name. -/
structure AgreeAt (c d : Catalog) (name : String) : Prop where
  /-- The name is the same struct in both. -/
  structs : c.structs.get? name = d.structs.get? name
  /-- The name is the same alias in both. -/
  aliases : c.aliases.get? name = d.aliases.get? name
  /-- The name has the same unparseable entry in both. -/
  unparseable : c.unparseable.get? name = d.unparseable.get? name

/-- All entries stand in one file. -/
structure OnlyFrom (c : Catalog) (path : Path) : Prop where
  /-- All structs stand there. -/
  structs : ∀ n d, c.structs.get? n = some d → d.path = path
  /-- All aliases stand there. -/
  aliases : ∀ n a, c.aliases.get? n = some a → a.path = path
  /-- All unparseable entries stand there. -/
  unparseable : ∀ n u, c.unparseable.get? n = some u → u.path = path

theorem AgreeAt.refl (c : Catalog) (n : String) : c.AgreeAt c n :=
  ⟨rfl, rfl, rfl⟩

theorem AgreeAt.symm {c d : Catalog} {n : String} (h : c.AgreeAt d n) : d.AgreeAt c n :=
  ⟨h.structs.symm, h.aliases.symm, h.unparseable.symm⟩

theorem AgreeAt.trans {b c d : Catalog} {n : String} (h : b.AgreeAt c n) (h' : c.AgreeAt d n) :
    b.AgreeAt d n :=
  ⟨h.structs.trans h'.structs, h.aliases.trans h'.aliases, h.unparseable.trans h'.unparseable⟩

/-- Catalogs that agree at a name both define it or both do not. -/
theorem AgreeAt.defines_iff {c d : Catalog} {n : String} (h : c.AgreeAt d n) :
    c.Defines n ↔ d.Defines n := by
  simp only [Defines, Table.contains, h.structs, h.aliases, h.unparseable]

@[simp] theorem not_defines_empty (n : String) : ¬ empty.Defines n := by
  simp [Defines, empty, Table.contains]

/-- A catalog that does not define a name agrees there with the empty one. -/
theorem agreeAt_empty_iff {c : Catalog} {n : String} : c.AgreeAt empty n ↔ ¬ c.Defines n := by
  constructor
  · intro h
    rw [h.defines_iff]
    exact not_defines_empty n
  · intro h
    simp only [Defines, not_or, Bool.not_eq_true, Table.contains_eq_false_iff] at h
    exact ⟨h.1, h.2.1, h.2.2⟩

end Catalog

namespace Scan

open Catalog

/-- The name a finding is recorded under. -/
def Finding.name? : Finding → Option String
  | .struct name _ => some name
  | .aliased name _ => some name
  | .unparseable name _ => some name
  | .problem _ => none

/-- The file a finding stands in. -/
def Finding.StandsIn (path : Path) : Finding → Prop
  | .struct _ d => d.path = path
  | .aliased _ a => a.path = path
  | .unparseable _ u => u.path = path
  | .problem _ => True

/-- A catalog holds what a finding records. -/
def Finding.HeldBy (c : Catalog) : Finding → Prop
  | .struct name d => c.structs.get? name = some d
  | .aliased name a => c.aliases.get? name = some a
  | .unparseable name u => c.unparseable.get? name = some u
  | .problem _ => False

/-- What is defined is held by the catalog in one of its tables. -/
theorem exists_heldBy_of_defines {c : Catalog} {n : String} (h : c.Defines n) :
    ∃ f : Finding, f.HeldBy c ∧ f.name? = some n := by
  simp only [Defines, Table.contains_eq_true_iff] at h
  rcases h with ⟨d, hd⟩ | ⟨a, ha⟩ | ⟨u, hu⟩
  · exact ⟨.struct n d, hd, rfl⟩
  · exact ⟨.aliased n a, ha, rfl⟩
  · exact ⟨.unparseable n u, hu, rfl⟩

/-- What a finding changes at a name depends on the entries of that name alone. -/
theorem agreeAt_record {c d : Catalog} {n : String} (h : c.AgreeAt d n) (f : Finding) :
    (f.record c).AgreeAt (f.record d) n := by
  obtain ⟨hs, ha, hu⟩ := h
  cases f with
  | struct m s =>
    refine ⟨?_, ha, ?_⟩
    · simp [Finding.record, insertStruct, Table.get?_insert, hs]
    · simp [Finding.record, insertStruct, hu]
  | aliased m a =>
    refine ⟨hs, ?_, hu⟩
    simp [Finding.record, insertAlias, Table.get?_insert, ha]
  | unparseable m u =>
    simp only [Finding.record, insertUnparseable]
    by_cases hm : n = m
    · -- The test that guards the table looks up the very name at which the catalogs agree.
      subst hm
      have hc : c.structs.contains n = d.structs.contains n := by
        rw [Table.contains, Table.contains, hs]
      rw [hc]
      split
      · exact ⟨hs, ha, hu⟩
      · exact ⟨hs, ha, by simp⟩
    · have keep : ∀ c : Catalog,
          (if c.structs.contains m then c
            else { c with unparseable := c.unparseable.insert m u }).AgreeAt c n := by
        intro c
        split
        · exact .refl c n
        · exact ⟨rfl, rfl, Table.get?_insert_of_ne _ u hm⟩
      exact ((keep c).trans ⟨hs, ha, hu⟩).trans (keep d).symm
  | problem p => exact ⟨hs, ha, hu⟩

/-- A finding changes nothing at other names. -/
theorem agreeAt_record_of_ne {f : Finding} {n : String} (h : f.name? ≠ some n) (c : Catalog) :
    (f.record c).AgreeAt c n := by
  cases f with
  | struct m s =>
    have hm : n ≠ m := fun hn => h (by rw [hn]; rfl)
    refine ⟨Table.get?_insert_of_ne _ s hm, rfl, ?_⟩
    simp [Finding.record, insertStruct, hm]
  | aliased m a =>
    have hm : n ≠ m := fun hn => h (by rw [hn]; rfl)
    exact ⟨rfl, Table.get?_insert_of_ne _ a hm, rfl⟩
  | unparseable m u =>
    have hm : n ≠ m := fun hn => h (by rw [hn]; rfl)
    simp only [Finding.record, insertUnparseable]
    split
    · exact .refl c n
    · exact ⟨rfl, rfl, Table.get?_insert_of_ne _ u hm⟩
  | problem p => exact .refl c n

/-- A finding is found again under its name. -/
theorem defines_record {f : Finding} {n : String} (h : f.name? = some n) (c : Catalog) :
    (f.record c).Defines n := by
  cases f with
  | struct m s =>
    obtain rfl : m = n := by simpa [Finding.name?] using h
    exact .inl (by simp [Finding.record, insertStruct, Table.contains])
  | aliased m a =>
    obtain rfl : m = n := by simpa [Finding.name?] using h
    exact .inr (.inl (by simp [Finding.record, insertAlias, Table.contains]))
  | unparseable m u =>
    obtain rfl : m = n := by simpa [Finding.name?] using h
    simp only [Finding.record, insertUnparseable]
    -- An entry that is not recorded gives way to a struct of its name.
    split
    · rename_i hs
      exact .inl hs
    · exact .inr (.inr (by simp [Table.contains]))
  | problem p => simp [Finding.name?] at h

/-- A finding takes no name out of the catalog: a struct replaces an unparseable entry only by an
entry of the same name. -/
theorem Defines.record {c : Catalog} {n : String} (h : c.Defines n) (f : Finding) :
    (f.record c).Defines n := by
  by_cases hf : f.name? = some n
  · exact defines_record hf c
  · rw [(agreeAt_record_of_ne hf c).defines_iff]
    exact h

/-- Recording keeps all entries in one file. -/
theorem onlyFrom_record {c : Catalog} {path : Path} (h : c.OnlyFrom path) {f : Finding}
    (hf : f.StandsIn path) : (f.record c).OnlyFrom path := by
  obtain ⟨hs, ha, hu⟩ := h
  cases f with
  | struct m s =>
    refine ⟨fun n d hn => ?_, ha, fun n u hn => ?_⟩
    · rcases Table.eq_or_of_get?_insert hn with ⟨-, rfl⟩ | hn
      · exact hf
      · exact hs n d hn
    · -- A struct takes the place of what could not be used under its name.
      simp only [Finding.record, insertStruct, Table.get?_erase] at hn
      split at hn
      · simp at hn
      · exact hu n u hn
  | aliased m a =>
    refine ⟨hs, fun n b hn => ?_, hu⟩
    rcases Table.eq_or_of_get?_insert hn with ⟨-, rfl⟩ | hn
    · exact hf
    · exact ha n b hn
  | unparseable m u =>
    simp only [Finding.record, insertUnparseable]
    split
    · exact ⟨hs, ha, hu⟩
    · refine ⟨hs, ha, fun n v hn => ?_⟩
      rcases Table.eq_or_of_get?_insert hn with ⟨-, rfl⟩ | hn
      · exact hf
      · exact hu n v hn
  | problem p => exact ⟨hs, ha, hu⟩

/-- What a catalog holds behind a finding is that finding or was held before. -/
theorem eq_or_heldBy_of_record {c : Catalog} {f g : Finding} (h : f.HeldBy (g.record c)) :
    f = g ∨ f.HeldBy c := by
  cases g with
  | struct m s =>
    cases f with
    | struct n d =>
      rcases Table.eq_or_of_get?_insert h with ⟨rfl, rfl⟩ | h
      · exact .inl rfl
      · exact .inr h
    | unparseable n u =>
      -- The struct takes an unparseable entry of its name away, and no entry is added.
      simp only [Finding.HeldBy, Finding.record, insertStruct, Table.get?_erase] at h
      split at h
      · cases h
      · exact .inr h
    | _ => exact .inr h
  | aliased m b =>
    cases f with
    | aliased n a =>
      rcases Table.eq_or_of_get?_insert h with ⟨rfl, rfl⟩ | h
      · exact .inl rfl
      · exact .inr h
    | _ => exact .inr h
  | unparseable m v =>
    rw [Finding.record, insertUnparseable] at h
    split at h
    · exact .inr h
    · cases f with
      | unparseable n u =>
        rcases Table.eq_or_of_get?_insert h with ⟨rfl, rfl⟩ | h
        · exact .inl rfl
        · exact .inr h
      | _ => exact .inr h
  | problem p => exact .inr h

/-! ## Lists of findings -/

theorem agreeAt_foldl_record {c d : Catalog} {n : String} (h : c.AgreeAt d n)
    (fs : List Finding) : (fs.foldl Finding.record c).AgreeAt (fs.foldl Finding.record d) n := by
  induction fs generalizing c d with
  | nil => exact h
  | cons f fs ih => exact ih (agreeAt_record h f)

theorem agreeAt_foldl_record_of_ne {fs : List Finding} {n : String}
    (h : ∀ f ∈ fs, f.name? ≠ some n) (c : Catalog) :
    (fs.foldl Finding.record c).AgreeAt c n := by
  induction fs generalizing c with
  | nil => exact .refl c n
  | cons f fs ih =>
    obtain ⟨hf, hfs⟩ := List.forall_mem_cons.1 h
    exact (ih hfs (f.record c)).trans (agreeAt_record_of_ne hf c)

theorem Defines.foldl_record {c : Catalog} {n : String} (h : c.Defines n) (fs : List Finding) :
    (fs.foldl Finding.record c).Defines n := by
  induction fs generalizing c with
  | nil => exact h
  | cons f fs ih => exact ih (Defines.record h f)

/-- Every name found is defined in the end. -/
theorem defines_foldl_record {fs : List Finding} {f : Finding} {n : String} (hf : f ∈ fs)
    (hn : f.name? = some n) (c : Catalog) : (fs.foldl Finding.record c).Defines n := by
  induction fs generalizing c with
  | nil => simp at hf
  | cons g gs ih =>
    rcases List.mem_cons.1 hf with rfl | hf
    · exact Defines.foldl_record (defines_record hn c) gs
    · exact ih hf (g.record c)

/-- What a catalog holds in the end is one of the findings or was held before. -/
theorem mem_or_heldBy_of_foldl_record {fs : List Finding} {c : Catalog} {f : Finding}
    (h : f.HeldBy (fs.foldl Finding.record c)) : f ∈ fs ∨ f.HeldBy c := by
  induction fs generalizing c with
  | nil => exact .inr h
  | cons g gs ih =>
    rcases ih h with hmem | hheld
    · exact .inl (List.mem_cons_of_mem _ hmem)
    · rcases eq_or_heldBy_of_record hheld with rfl | hheld
      · exact .inl List.mem_cons_self
      · exact .inr hheld

theorem onlyFrom_foldl_record {c : Catalog} {path : Path} (h : c.OnlyFrom path)
    {fs : List Finding} (hfs : ∀ f ∈ fs, f.StandsIn path) :
    (fs.foldl Finding.record c).OnlyFrom path := by
  induction fs generalizing c with
  | nil => exact h
  | cons f fs ih =>
    obtain ⟨hf, hfs⟩ := List.forall_mem_cons.1 hfs
    exact ih (onlyFrom_record h hf) hfs

@[simp] theorem maxAliasHops_record (f : Finding) (c : Catalog) :
    (f.record c).maxAliasHops = c.maxAliasHops := by
  cases f with
  | struct m s => rfl
  | aliased m a => rfl
  | unparseable m u =>
    simp only [Finding.record, insertUnparseable]
    split <;> rfl
  | problem p => rfl

theorem maxAliasHops_foldl_record (fs : List Finding) (c : Catalog) :
    (fs.foldl Finding.record c).maxAliasHops = c.maxAliasHops := by
  induction fs generalizing c with
  | nil => rfl
  | cons f fs ih => rw [List.foldl_cons, ih, maxAliasHops_record]

/-! ## What a text holds -/

/-- What a header declares at its brace: a struct or a name that cannot be used, and the names
behind the block if it is a `typedef`. -/
inductive DeclaredBy (maxScan : Nat) (path : Path) (text : List Char) (brace : Nat)
    (header : Header) : Finding → Prop where
  /-- The struct of the header. -/
  | struct (hfault : header.declared.fault = none) :
    DeclaredBy maxScan path text brace header
      (.struct header.declared.name ⟨path, brace, header.declared.base⟩)
  /-- The name of the header cannot be used. -/
  | unparseable {fault : Header.NameFault} (hfault : header.declared.fault = some fault)
    (hname : header.declared.name.isEmpty = false) :
    DeclaredBy maxScan path text brace header
      (.unparseable header.declared.name ⟨path, brace, fault.message⟩)
  /-- The block of the `typedef` is not found. -/
  | malformed {reason : Block.Error} (htypedef : header.isTypedef = true)
    (hextract : Block.extract (.declaration maxScan) text brace = .error reason) :
    DeclaredBy maxScan path text brace header (.problem (.malformedBlock path reason))
  /-- An alias of the struct stands behind its block. -/
  | aliased {span : Block.Span} {d : Declarator} (htypedef : header.isTypedef = true)
    (hextract : Block.extract (.declaration maxScan) text brace = .ok span)
    (hfault : header.declared.fault = none)
    (hd : d ∈ Declarator.parseList (span.trailer text)) (hne : d.name ≠ header.declared.name) :
    DeclaredBy maxScan path text brace header
      (.aliased d.name ⟨header.declared.name, d.isPointer, path⟩)
  /-- An alias of what cannot be used stands behind the block. -/
  | unnamed {span : Block.Span} {d : Declarator} {fault : Header.NameFault}
    (htypedef : header.isTypedef = true)
    (hextract : Block.extract (.declaration maxScan) text brace = .ok span)
    (hfault : header.declared.fault = some fault)
    (hd : d ∈ Declarator.parseList (span.trailer text)) :
    DeclaredBy maxScan path text brace header
      (.unparseable d.name ⟨path, brace, aliasReason fault⟩)

theorem mem_structAliases_iff {path : Path} {target : String} {declarators : List Declarator}
    {f : Finding} : f ∈ structAliases path target declarators ↔
      ∃ d ∈ declarators, d.name ≠ target ∧ f = .aliased d.name ⟨target, d.isPointer, path⟩ := by
  simp only [structAliases, List.mem_map, List.mem_filter, bne_iff_ne, ne_eq, and_assoc,
    @eq_comm _ f]

theorem declaredBy_of_mem_headerFindings {maxScan : Nat} {path : Path} {text : List Char}
    {brace : Nat} {header : Header} {f : Finding}
    (h : f ∈ headerFindings maxScan path text brace header) :
    DeclaredBy maxScan path text brace header f := by
  rw [headerFindings, List.mem_append] at h
  rcases h with h | h
  · rw [ownFindings] at h
    split at h
    · rename_i hfault
      exact List.mem_singleton.1 h ▸ .struct hfault
    · rename_i hfault
      split at h
      · cases h
      · rename_i hname
        exact List.mem_singleton.1 h ▸ .unparseable hfault (Bool.eq_false_iff.2 hname)
  · split at h
    · rename_i htypedef
      split at h
      · rename_i hextract
        exact List.mem_singleton.1 h ▸ .malformed htypedef hextract
      · rename_i hextract
        rw [declaratorFindings] at h
        split at h
        · rename_i hfault
          obtain ⟨d, hd, hne, rfl⟩ := mem_structAliases_iff.1 h
          exact .aliased htypedef hextract hfault hd hne
        · rename_i hfault
          obtain ⟨d, hd, rfl⟩ := List.mem_map.1 h
          exact .unnamed htypedef hextract hfault hd
    · cases h

/-- What an alias statement declares: aliases of its target, or nothing that can be parsed. -/
inductive StatedBy (path : Path) (statement : AliasStatement) : Finding → Prop where
  /-- An alias of the target. -/
  | aliased {target : String} {declarators : List Declarator} {d : Declarator}
    (hparse : AliasStatement.parse? statement.body = some (target, declarators))
    (hd : d ∈ declarators) (hne : d.name ≠ target) :
    StatedBy path statement (.aliased d.name ⟨target, d.isPointer, path⟩)
  /-- The statement cannot be parsed. -/
  | malformed (hparse : AliasStatement.parse? statement.body = none) :
    StatedBy path statement
      (.problem (.malformedAliasStatement path (String.ofList statement.text)))

theorem statedBy_of_mem_statementFindings {path : Path} {statement : AliasStatement}
    {f : Finding} (h : f ∈ statementFindings path statement) : StatedBy path statement f := by
  rw [statementFindings] at h
  split at h
  · rename_i hparse
    obtain ⟨d, hd, hne, rfl⟩ := mem_structAliases_iff.1 h
    exact .aliased hparse hd hne
  · rename_i hparse
    exact List.mem_singleton.1 h ▸ .malformed hparse

theorem standsIn_of_mem_findings {maxScan : Nat} {path : Path} {text : List Char} {f : Finding}
    (h : f ∈ findings maxScan path text) : f.StandsIn path := by
  rw [findings, List.mem_append, List.mem_flatMap, List.mem_flatMap] at h
  rcases h with ⟨_, -, h⟩ | ⟨statement, -, h⟩
  · cases declaredBy_of_mem_headerFindings h with
    | struct | unparseable | aliased | unnamed => rfl
    | malformed => trivial
  · cases statedBy_of_mem_statementFindings h with
    | aliased => rfl
    | malformed => trivial

/-! ## Scanning one file -/

/-- The catalog of one file that is scanned alone. -/
def alone (maxScan : Nat) (file : Path × List Char) : Catalog :=
  (scan maxScan Catalog.empty file.1 file.2).1

/-- A file scanned alone holds only what is found in it. -/
theorem mem_findings_of_heldBy_alone {maxScan : Nat} {file : Path × List Char} {f : Finding}
    (h : f.HeldBy (alone maxScan file)) : f ∈ findings maxScan file.1 file.2 := by
  rcases mem_or_heldBy_of_foldl_record h with hmem | hempty
  · exact hmem
  · -- The catalog that the scan began with is empty.
    cases f with
    | problem p => exact hempty.elim
    | _ => cases hempty

/-- A file scanned alone holds what is found in it under a name that is found only once. -/
theorem heldBy_alone_of_mem {maxScan : Nat} {file : Path × List Char} {f : Finding} {n : String}
    (hf : f ∈ findings maxScan file.1 file.2) (hn : f.name? = some n)
    (honce : ∀ g ∈ findings maxScan file.1 file.2, g.name? = some n → g = f) :
    f.HeldBy (alone maxScan file) := by
  -- Something is held under the name, and it can only be the finding itself.
  obtain ⟨g, hheld, hg⟩ := exists_heldBy_of_defines (defines_foldl_record hf hn Catalog.empty)
  have halone : g.HeldBy (alone maxScan file) := hheld
  rwa [honce g (mem_findings_of_heldBy_alone halone) hg] at halone

/-- What a file scanned alone defines stands in that file. -/
theorem alone_onlyFrom (maxScan : Nat) (file : Path × List Char) :
    (alone maxScan file).OnlyFrom file.1 :=
  onlyFrom_foldl_record ⟨by simp [Catalog.empty], by simp [Catalog.empty], by simp [Catalog.empty]⟩
    fun _ h => standsIn_of_mem_findings h

/-- Scanning a text into catalogs that agree at a name keeps them in agreement there. -/
theorem agreeAt_scan {c d : Catalog} {n : String} (h : c.AgreeAt d n) (maxScan : Nat) (path : Path)
    (text : List Char) :
    (scan maxScan c path text).1.AgreeAt (scan maxScan d path text).1 n :=
  agreeAt_foldl_record h _

/-- A text leaves the names alone that it does not define when it is scanned alone. -/
theorem agreeAt_scan_of_not_defines {maxScan : Nat} {path : Path} {text : List Char} {n : String}
    (h : ¬ (alone maxScan (path, text)).Defines n) (c : Catalog) :
    (scan maxScan c path text).1.AgreeAt c n :=
  agreeAt_foldl_record_of_ne (fun _ hf hn => h (defines_foldl_record hf hn Catalog.empty)) c

/-- At a name that a catalog does not define, scanning a text has the effect of scanning it
alone. -/
theorem agreeAt_scan_alone {c : Catalog} {n : String} (h : ¬ c.Defines n) (maxScan : Nat)
    (path : Path) (text : List Char) :
    (scan maxScan c path text).1.AgreeAt (alone maxScan (path, text)) n :=
  agreeAt_scan (agreeAt_empty_iff.2 h) maxScan path text

@[simp] theorem maxAliasHops_scan (maxScan : Nat) (c : Catalog) (path : Path) (text : List Char) :
    (scan maxScan c path text).1.maxAliasHops = c.maxAliasHops :=
  maxAliasHops_foldl_record _ c

end Scan

end StructUnfold
