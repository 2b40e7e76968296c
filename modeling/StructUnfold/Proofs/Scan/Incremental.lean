import Mathlib.Data.List.Infix
import Mathlib.Data.List.Pairwise
import StructUnfold.Proofs.Scan.Recording
import StructUnfold.Proofs.Scan.Report

/-!
# Incremental scanning

Files are scanned again whenever their text changes, each time into the one catalog. As long as no
two of the current texts define a name in common, the catalog is at all times the union of the
catalogs of the current texts, each scanned alone.

The argument is an invariant of the run, `Catalog.IsUnion`. Forgetting a file takes its part out of
the union, since what a file defines stands in that file; scanning its new text adds the new part,
since at each name either the text or the rest of the catalog has nothing to say.

* `currentFiles steps`: the last text of each path after a sequence of scans.
* `isUnion_rescan`: one scan keeps the invariant.
* `isUnion_rescans`: so does a sequence of scans.
* `rescans_eq_union`: the catalog after a sequence of scans, compared with the current files scanned
  alone and with a scan of the current files in any order.
-/

namespace StructUnfold

namespace Table

variable {α ι : Type}

/-- A table holds exactly the entries of the tables in a list. -/
def IsUnion (t : Table α) (parts : List (Table α)) : Prop :=
  ∀ n v, t.get? n = some v ↔ ∃ p ∈ parts, p.get? n = some v

/-- Unions of the same parts are equal. -/
theorem IsUnion.eq {t u : Table α} {parts parts' : List (Table α)} (ht : t.IsUnion parts)
    (hu : u.IsUnion parts') (hparts : ∀ p, p ∈ parts ↔ p ∈ parts') : t = u := by
  refine ext_get? fun n => Option.ext fun v => ?_
  rw [ht n v, hu n v]
  simp only [hparts]

/-- A name that a union holds is held by one of the parts. -/
theorem IsUnion.exists_contains {t : Table α} {fs : List ι} {part : ι → Table α}
    (h : t.IsUnion (fs.map part)) {n : String} (hn : t.contains n = true) :
    ∃ f ∈ fs, (part f).contains n = true := by
  obtain ⟨v, hv⟩ := contains_eq_true_iff.1 hn
  obtain ⟨_, hmem, hpart⟩ := (h n v).1 hv
  obtain ⟨f, hf, rfl⟩ := List.mem_map.1 hmem
  exact ⟨f, hf, contains_eq_true_iff.2 ⟨v, hpart⟩⟩

/-- A part is taken out of a union by a test that tells its entries from those of the others. -/
theorem IsUnion.filter {t : Table α} {fs : List ι} {part : ι → Table α}
    (h : t.IsUnion (fs.map part)) {p : String → α → Bool} {q : ι → Bool}
    (hq : ∀ f ∈ fs, ∀ n v, (part f).get? n = some v → p n v = q f) :
    (t.filter p).IsUnion ((fs.filter q).map part) := by
  intro n v
  rw [get?_filter, Option.filter_eq_some_iff, h n v]
  simp only [List.mem_map, List.mem_filter]
  constructor
  · rintro ⟨⟨_, ⟨f, hf, rfl⟩, hv⟩, hp⟩
    exact ⟨part f, ⟨f, ⟨hf, hq f hf n v hv ▸ hp⟩, rfl⟩, hv⟩
  · rintro ⟨_, ⟨f, ⟨hf, hp⟩, rfl⟩, hv⟩
    exact ⟨⟨part f, ⟨f, hf, rfl⟩, hv⟩, (hq f hf n v hv).trans hp⟩

/-- A union grows by a part: each name comes from the part or from the union, and the other one of
the two has no entry for it. -/
theorem IsUnion.append {t u part : Table α} {parts : List (Table α)} (h : t.IsUnion parts)
    (hcases : ∀ n, (u.get? n = part.get? n ∧ t.get? n = none) ∨
      (u.get? n = t.get? n ∧ part.get? n = none)) : u.IsUnion (parts ++ [part]) := by
  intro n v
  have hparts : (∃ p ∈ parts ++ [part], p.get? n = some v) ↔
      t.get? n = some v ∨ part.get? n = some v := by
    rw [h n v]
    simp only [List.mem_append, List.mem_singleton, or_and_right, exists_or, exists_eq_left]
  rw [hparts]
  rcases hcases n with ⟨hu, hn⟩ | ⟨hu, hn⟩
  · simp [hu, hn]
  · simp [hu, hn]

end Table

namespace Catalog

/-- A catalog holds exactly the entries of the catalogs in a list. -/
structure IsUnion (c : Catalog) (parts : List Catalog) : Prop where
  /-- The structs are those of the parts. -/
  structs : c.structs.IsUnion (parts.map Catalog.structs)
  /-- The aliases are those of the parts. -/
  aliases : c.aliases.IsUnion (parts.map Catalog.aliases)
  /-- The unparseable entries are those of the parts. -/
  unparseable : c.unparseable.IsUnion (parts.map Catalog.unparseable)

/-- No name is defined in both of two catalogs. -/
def Apart (c d : Catalog) : Prop :=
  ∀ n, ¬ (c.Defines n ∧ d.Defines n)

instance (c d : Catalog) : Decidable (c.Apart d) :=
  decidable_of_iff (∀ n ∈ c.names, n ∉ d.names) <| by
    simp only [Apart, mem_names_iff, not_and]

/-- The empty catalog is the union of no catalogs. -/
theorem isUnion_nil : empty.IsUnion [] :=
  ⟨by simp [Table.IsUnion, empty], by simp [Table.IsUnion, empty],
    by simp [Table.IsUnion, empty]⟩

/-- A name defined in a union is defined in one of the parts. -/
theorem IsUnion.exists_defines {c : Catalog} {parts : List Catalog} (h : c.IsUnion parts)
    {n : String} (hn : c.Defines n) : ∃ p ∈ parts, p.Defines n := by
  rcases hn with hn | hn | hn
  · obtain ⟨p, hp, hn⟩ := h.structs.exists_contains hn
    exact ⟨p, hp, .inl hn⟩
  · obtain ⟨p, hp, hn⟩ := h.aliases.exists_contains hn
    exact ⟨p, hp, .inr (.inl hn)⟩
  · obtain ⟨p, hp, hn⟩ := h.unparseable.exists_contains hn
    exact ⟨p, hp, .inr (.inr hn)⟩

/-- Unions of the same parts are equal. -/
theorem IsUnion.eq {c d : Catalog} {parts parts' : List Catalog} (hc : c.IsUnion parts)
    (hd : d.IsUnion parts') (hparts : ∀ p, p ∈ parts ↔ p ∈ parts')
    (hhops : c.maxAliasHops = d.maxAliasHops) : c = d := by
  have hmap : ∀ {α : Type} (table : Catalog → α) t, t ∈ parts.map table ↔ t ∈ parts'.map table := by
    simp only [List.mem_map, hparts, implies_true]
  have hs := hc.structs.eq hd.structs (hmap _)
  have ha := hc.aliases.eq hd.aliases (hmap _)
  have hu := hc.unparseable.eq hd.unparseable (hmap _)
  cases c
  cases d
  simp_all

/-- A union grows by a part that has no name in common with it: at each name the larger catalog
holds what the part holds, or else what the union held. -/
theorem IsUnion.append {c d part : Catalog} {parts : List Catalog} (h : c.IsUnion parts)
    (hapart : c.Apart part) (hpart : ∀ n, ¬ c.Defines n → d.AgreeAt part n)
    (hkeep : ∀ n, ¬ part.Defines n → d.AgreeAt c n) : d.IsUnion (parts ++ [part]) := by
  have hcases : ∀ n, (d.AgreeAt part n ∧ c.AgreeAt empty n) ∨
      (d.AgreeAt c n ∧ part.AgreeAt empty n) := by
    intro n
    by_cases hn : c.Defines n
    · have hp : ¬ part.Defines n := fun hp => hapart n ⟨hn, hp⟩
      exact .inr ⟨hkeep n hp, agreeAt_empty_iff.2 hp⟩
    · exact .inl ⟨hpart n hn, agreeAt_empty_iff.2 hn⟩
  constructor
  · rw [List.map_append]
    exact h.structs.append fun n => (hcases n).imp (fun hn => ⟨hn.1.structs, hn.2.structs⟩)
      fun hn => ⟨hn.1.structs, hn.2.structs⟩
  · rw [List.map_append]
    exact h.aliases.append fun n => (hcases n).imp (fun hn => ⟨hn.1.aliases, hn.2.aliases⟩)
      fun hn => ⟨hn.1.aliases, hn.2.aliases⟩
  · rw [List.map_append]
    exact h.unparseable.append fun n =>
      (hcases n).imp (fun hn => ⟨hn.1.unparseable, hn.2.unparseable⟩)
        fun hn => ⟨hn.1.unparseable, hn.2.unparseable⟩

/-- The part of a catalog that stands in some of the files. -/
def restrict (c : Catalog) (q : Path → Bool) : Catalog :=
  { c with
    structs := c.structs.filter fun _ d => q d.path
    aliases := c.aliases.filter fun _ a => q a.path
    unparseable := c.unparseable.filter fun _ u => q u.path }

/-- The part of a catalog that stands in one file. -/
def partIn (c : Catalog) (path : Path) : Catalog :=
  c.restrict fun p => p.same path

theorem removePath_eq_restrict (c : Catalog) (path : Path) :
    c.removePath path = c.restrict fun p => !p.same path := rfl

end Catalog

namespace Scan

open Catalog

variable {maxScan : Nat}

/-- The files with a new text for one path, in place of the earlier text of that path. -/
def putFile (files : List (Path × List Char)) (file : Path × List Char) :
    List (Path × List Char) :=
  files.filter (fun f => !f.1.same file.1) ++ [file]

/-- The last text of each path in a sequence of scans. -/
def currentFiles (steps : List (Path × List Char)) : List (Path × List Char) :=
  steps.foldl putFile []

/-- The catalog after scanning files one after the other, each time forgetting first what stood in
the file. -/
def rescans (maxScan : Nat) (c : Catalog) (steps : List (Path × List Char)) : Catalog :=
  steps.foldl (fun c file => (rescan maxScan c file.1 file.2).1) c

/-- No name is defined in two of the files. -/
def NamesApart (maxScan : Nat) (files : List (Path × List Char)) : Prop :=
  files.Pairwise fun f g => (alone maxScan f).Apart (alone maxScan g)

instance (maxScan : Nat) (files : List (Path × List Char)) :
    Decidable (NamesApart maxScan files) :=
  inferInstanceAs (Decidable (files.Pairwise _))

/-- Two files have different paths. -/
def PathsDiffer (f g : Path × List Char) : Prop :=
  f.1.same g.1 = false

instance : Std.Symm PathsDiffer where
  symm f g h := by
    rw [PathsDiffer, Path.same_comm]
    exact h

/-! ## Current files -/

/-- A path has one current text. -/
theorem pairwise_putFile {files : List (Path × List Char)} (h : files.Pairwise PathsDiffer)
    (file : Path × List Char) : (putFile files file).Pairwise PathsDiffer := by
  refine List.pairwise_append.2 ⟨h.filter _, List.pairwise_singleton _ _, fun f hf g hg => ?_⟩
  obtain rfl := List.mem_singleton.1 hg
  simpa [PathsDiffer] using (List.mem_filter.1 hf).2

theorem pairwise_currentFiles (steps : List (Path × List Char)) :
    (currentFiles steps).Pairwise PathsDiffer := by
  have hfold : ∀ files : List (Path × List Char), files.Pairwise PathsDiffer →
      (steps.foldl putFile files).Pairwise PathsDiffer := by
    induction steps with
    | nil => exact fun _ h => h
    | cons file steps ih => exact fun files h => ih _ (pairwise_putFile h file)
  exact hfold [] .nil

/-- Files of different paths are all current. -/
theorem currentFiles_eq_self {files : List (Path × List Char)}
    (h : files.Pairwise PathsDiffer) : currentFiles files = files := by
  have hfold : ∀ before : List (Path × List Char), (before ++ files).Pairwise PathsDiffer →
      files.foldl putFile before = before ++ files := by
    induction files with
    | nil => simp
    | cons file files ih =>
      intro before hb
      -- None of the files before has the path of this one, so none is replaced.
      have hkeep : putFile before file = before ++ [file] := by
        rw [putFile, List.filter_eq_self.2]
        intro f hf
        have hdiffer := (List.pairwise_append.1 hb).2.2 f hf file List.mem_cons_self
        simpa [PathsDiffer] using hdiffer
      have hb' : (before ++ [file] ++ files).Pairwise PathsDiffer := by simpa using hb
      rw [List.foldl_cons, hkeep, ih (List.pairwise_cons.1 h).2 (before ++ [file]) hb']
      simp
  exact hfold [] h

/-! ## One scan, and a sequence of scans -/

/-- Some of the files of a union are those whose paths pass the test. -/
theorem isUnion_restrict {c : Catalog} {files : List (Path × List Char)}
    (h : c.IsUnion (files.map (alone maxScan))) (q : Path → Bool) :
    (c.restrict q).IsUnion ((files.filter fun f => q f.1).map (alone maxScan)) := by
  obtain ⟨hs, ha, hu⟩ := h
  rw [List.map_map] at hs ha hu
  constructor
  · rw [List.map_map]
    exact hs.filter fun f _ n v hv => by rw [(alone_onlyFrom maxScan f).structs n v hv]
  · rw [List.map_map]
    exact ha.filter fun f _ n v hv => by rw [(alone_onlyFrom maxScan f).aliases n v hv]
  · rw [List.map_map]
    exact hu.filter fun f _ n v hv => by rw [(alone_onlyFrom maxScan f).unparseable n v hv]

/-- One step of the run: scanning a file again keeps the catalog the union of the current files, if
no other one has a name of the new text. -/
theorem isUnion_rescan_of_apart {c : Catalog} {files : List (Path × List Char)}
    (h : c.IsUnion (files.map (alone maxScan))) {file : Path × List Char}
    (hapart : ∀ f ∈ files, f.1.same file.1 = false →
      (alone maxScan f).Apart (alone maxScan file)) :
    (rescan maxScan c file.1 file.2).1.IsUnion ((putFile files file).map (alone maxScan)) := by
  -- Forgetting the file leaves the union of the others, which the new text has no names of.
  have hrest := isUnion_restrict h fun p => !p.same file.1
  rw [← removePath_eq_restrict] at hrest
  have hnew : (c.removePath file.1).Apart (alone maxScan file) := by
    rintro n ⟨hc, hn⟩
    obtain ⟨p, hp, hpn⟩ := hrest.exists_defines hc
    obtain ⟨f, hf, rfl⟩ := List.mem_map.1 hp
    obtain ⟨hmem, hdiffer⟩ := List.mem_filter.1 hf
    exact hapart f hmem (by simpa using hdiffer) n ⟨hpn, hn⟩
  rw [putFile, List.map_append, List.map_singleton]
  exact hrest.append hnew (fun n hn => agreeAt_scan_alone hn maxScan file.1 file.2)
    fun n hn => agreeAt_scan_of_not_defines hn _

theorem isUnion_rescan {c : Catalog} {files : List (Path × List Char)}
    (h : c.IsUnion (files.map (alone maxScan))) {file : Path × List Char}
    (hapart : NamesApart maxScan (putFile files file)) :
    (rescan maxScan c file.1 file.2).1.IsUnion ((putFile files file).map (alone maxScan)) := by
  refine isUnion_rescan_of_apart h fun f hf hdiffer => ?_
  exact (List.pairwise_append.1 hapart).2.2 f (List.mem_filter.2 ⟨hf, by simpa using hdiffer⟩) file
    (List.mem_singleton.2 rfl)

/-- The run: scanning files again keeps the catalog the union of the current files, if these never
have names in common. -/
theorem isUnion_rescans {c : Catalog} {files : List (Path × List Char)}
    (h : c.IsUnion (files.map (alone maxScan))) {steps : List (Path × List Char)}
    (hapart : ∀ done, done <+: steps → NamesApart maxScan (done.foldl putFile files)) :
    (rescans maxScan c steps).IsUnion ((steps.foldl putFile files).map (alone maxScan)) := by
  induction steps generalizing c files with
  | nil => exact h
  | cons file steps ih =>
    have hfirst : NamesApart maxScan (putFile files file) :=
      hapart [file] (List.prefix_append [file] steps)
    refine ih (isUnion_rescan h hfirst) fun done hdone => ?_
    exact hapart (file :: done) (List.cons_prefix_cons.2 ⟨rfl, hdone⟩)

theorem isUnion_rescans_empty {steps : List (Path × List Char)}
    (hapart : ∀ done, done <+: steps → NamesApart maxScan (currentFiles done)) :
    (rescans maxScan Catalog.empty steps).IsUnion ((currentFiles steps).map (alone maxScan)) :=
  @isUnion_rescans maxScan Catalog.empty [] isUnion_nil steps hapart

@[simp] theorem maxAliasHops_rescans (maxScan : Nat) (c : Catalog)
    (steps : List (Path × List Char)) :
    (rescans maxScan c steps).maxAliasHops = c.maxAliasHops := by
  induction steps generalizing c with
  | nil => rfl
  | cons file steps ih =>
    rw [rescans, List.foldl_cons, ← rescans, ih, rescan, maxAliasHops_scan, removePath]

/-- The scan of a workspace is a sequence of scans from the empty catalog. -/
theorem workspace_fst (maxScan : Nat) (files : List (Path × List Char)) :
    (workspace maxScan files).1 = rescans maxScan Catalog.empty files := by
  have hfold : ∀ done, (files.foldl (scanNext maxScan) done).1 =
      rescans maxScan done.1 files := by
    induction files with
    | nil => exact fun _ => rfl
    | cons file files ih => exact fun done => ih (scanNext maxScan done file)
  exact hfold (Catalog.empty, Report.empty)

/-- Scanning files of different paths that have no names in common gives the union of the files. -/
theorem isUnion_workspace {files : List (Path × List Char)} (hpaths : files.Pairwise PathsDiffer)
    (hapart : NamesApart maxScan files) :
    (workspace maxScan files).1.IsUnion (files.map (alone maxScan)) := by
  have hdone : ∀ done, done <+: files → NamesApart maxScan (currentFiles done) := by
    intro done hdone
    rw [currentFiles_eq_self (hpaths.sublist hdone.sublist)]
    exact hapart.sublist hdone.sublist
  have h := isUnion_rescans_empty hdone
  rwa [currentFiles_eq_self hpaths, ← workspace_fst] at h

/-- A union holds what its files hold. -/
theorem heldBy_iff_of_isUnion {c : Catalog} {files : List (Path × List Char)}
    (h : c.IsUnion (files.map (alone maxScan))) {f : Finding} :
    f.HeldBy c ↔ ∃ file ∈ files, f.HeldBy (alone maxScan file) := by
  obtain ⟨hs, ha, hu⟩ := h
  cases f with
  | struct n d => simpa [Finding.HeldBy] using hs n d
  | aliased n a => simpa [Finding.HeldBy] using ha n a
  | unparseable n u => simpa [Finding.HeldBy] using hu n u
  | problem p => simp [Finding.HeldBy]

/-- In a union of files of different paths, the part of each file is what the file defines when it
is scanned alone. -/
theorem partIn_eq_alone {c : Catalog} {files : List (Path × List Char)}
    (h : c.IsUnion (files.map (alone maxScan))) (hpaths : files.Pairwise PathsDiffer)
    (hhops : c.maxAliasHops = none) {file : Path × List Char} (hfile : file ∈ files) :
    c.partIn file.1 = alone maxScan file := by
  have hpart := isUnion_restrict h fun p => p.same file.1
  have hself : (alone maxScan file).IsUnion [alone maxScan file] :=
    ⟨by simp [Table.IsUnion], by simp [Table.IsUnion], by simp [Table.IsUnion]⟩
  -- No other file has the same path, so one part is left.
  have honly : ∀ f, f ∈ files.filter (fun f => f.1.same file.1) ↔ f = file := by
    intro f
    rw [List.mem_filter]
    constructor
    · rintro ⟨hf, hsame⟩
      by_contra hne
      have hdiffer := hpaths.forall hf hfile hne
      rw [PathsDiffer, hsame] at hdiffer
      contradiction
    · rintro rfl
      exact ⟨hfile, Path.same_refl _⟩
  rw [partIn]
  refine hpart.eq hself (fun p => ?_) ?_
  · simp only [List.mem_map, honly, exists_eq_left, List.mem_singleton]
    exact eq_comm
  · rw [alone, maxAliasHops_scan]
    exact hhops

/-- **Incremental scanning.** Scan files again and again from the empty catalog, and let no two of
the current texts define a name in common at any time. Then the catalog is the union of the current
texts, each scanned alone. It is the catalog of one scan of the current files, in any order, and the
part of it that stands in a file is what the current text of that file defines: no entry of an older
text is left, and none of the current text is missing. -/
theorem rescans_eq_union (maxScan : Nat) (steps : List (Path × List Char))
    (hapart : ∀ done, done <+: steps → NamesApart maxScan (currentFiles done)) :
    (rescans maxScan Catalog.empty steps).IsUnion ((currentFiles steps).map (alone maxScan)) ∧
      (∀ files : List (Path × List Char), files.Perm (currentFiles steps) →
        (workspace maxScan files).1 = rescans maxScan Catalog.empty steps) ∧
      ∀ file ∈ currentFiles steps,
        (rescans maxScan Catalog.empty steps).partIn file.1 = alone maxScan file := by
  have hunion := isUnion_rescans_empty hapart
  have hnow : NamesApart maxScan (currentFiles steps) := hapart steps (List.prefix_refl steps)
  have hpaths := pairwise_currentFiles steps
  refine ⟨hunion, fun files hperm => ?_, fun file hfile => ?_⟩
  · -- The hypotheses on the current files do not depend on their order.
    have hpaths' : files.Pairwise PathsDiffer := hperm.symm.pairwise hpaths symm
    have hnow' : NamesApart maxScan files :=
      hperm.symm.pairwise hnow fun h n hn => h n hn.symm
    refine (isUnion_workspace hpaths' hnow').eq hunion (fun p => ?_) ?_
    · exact (hperm.map (alone maxScan)).mem_iff
    · rw [workspace_fst, maxAliasHops_rescans, maxAliasHops_rescans]
  · exact partIn_eq_alone hunion hpaths (maxAliasHops_rescans ..) hfile

/-- A file that is scanned twice, its path written differently, with another file between. -/
def editedFile : List (Path × List Char) :=
  [(.ofString "src/a.h", "struct A { int x; };\nstruct { int y; };\n".toList),
    (.ofString "b.h", "typedef struct B { A a; } *PB;\n".toList),
    (.ofString "src//a.h", "struct C { int x; };\ntypedef struct C A;\n".toList)]

/-- `rescans_eq_union` at a file that is scanned twice: the hypothesis holds there, and the struct
`A` of the older text has become an alias. -/
theorem rescans_eq_union_editedFile :
    (∀ done, done <+: editedFile → NamesApart 64 (currentFiles done)) ∧
      (rescans 64 Catalog.empty editedFile).IsUnion
        ((currentFiles editedFile).map (alone 64)) ∧
      (rescans 64 Catalog.empty editedFile).structs.keys = ["B", "C"] := by
  have hapart : ∀ done, done <+: editedFile → NamesApart 64 (currentFiles done) := by
    intro done hdone
    -- There are four beginnings of the sequence, and each is checked.
    have hall : ∀ done ∈ editedFile.inits, NamesApart 64 (currentFiles done) := by
      decide +kernel
    exact hall done ((List.mem_inits _ _).2 hdone)
  exact ⟨hapart, (rescans_eq_union 64 editedFile hapart).1, by decide +kernel⟩

end Scan

end StructUnfold
