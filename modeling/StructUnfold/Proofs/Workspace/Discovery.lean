import StructUnfold.Proofs.Disk
import StructUnfold.Proofs.Distinct
import StructUnfold.Workspace.Discovery

/-!
# The paths of source files

Where all names on a disk are proper, all that is met on it stands at a place of proper names. So
the source files of a workspace are known by plain paths, if these are the paths of their places.

* `follow?_cases`, `mem_filesAt_succ`: what one level of a walk comes to.
* `exists_of_mem_discover`: source files are known by the normal forms of the paths on which they
  are met.
* `pairwise_files`: no two of them are known by the same path.
* `isPlain_of_mem_discover`: the paths of source files are plain.
-/

namespace StructUnfold

/-- All names on a disk are names that a path can hold. -/
structure Disk.HasProperNames (d : Disk) : Prop where
  /-- The names on the ways to what stands there. -/
  entries : ∀ e ∈ d.entries, ∀ name ∈ e.1, name.IsProper
  /-- The names on the way to the current directory. -/
  current : ∀ name ∈ d.current, name.IsProper

instance : DecidablePred Disk.HasProperNames := fun d =>
  decidable_of_iff
    ((∀ e ∈ d.entries, ∀ name ∈ e.1, name.IsProper) ∧ ∀ name ∈ d.current, name.IsProper)
    ⟨fun ⟨hentries, hcurrent⟩ => ⟨hentries, hcurrent⟩, fun h => ⟨h.entries, h.current⟩⟩

namespace Disk

variable {d : Disk}

/-- A path leads to a place of proper names. -/
theorem HasProperNames.isProper_of_resolve (hd : d.HasProperNames) {path : Path} {place : Place}
    (h : d.resolve path = .ok place) : ∀ name ∈ place, name.IsProper :=
  d.isPreserved_isProper.walk hd.current (fun _ => isProper_of_mem_steps)
    (resolve_eq_ok_iff.1 h).2

/-- The names in a directory are proper. -/
theorem HasProperNames.isProper_of_mem_children (hd : d.HasProperNames) {place : Place}
    {name : FileName} (h : name ∈ d.children place) : name.IsProper := by
  obtain ⟨e, he, hname⟩ := List.mem_filterMap.1 h
  split at hname
  · exact hd.entries e he name (List.mem_of_getLast? hname)
  · cases hname

end Disk

namespace Workspace

variable {d : Disk} {excluded : List Path} {around : List Place} {v w : Visit}

/-! ### One level of a walk -/

/-- An entry is met where it stands or, if it is a link, where it leads to. -/
theorem follow?_cases (h : follow? d around v = some w) :
    w.path = v.path ∧
      (w.place = v.place ∧
          (∃ entry, d.entryAt? v.place = some entry ∧ ∀ target, entry ≠ .link target) ∨
        (∃ target, d.entryAt? v.place = some (.link target)) ∧ d.resolve v.path = .ok w.place ∧
          ¬(d.entryAt? w.place = some .directory ∧ w.place ∈ around)) := by
  rw [follow?] at h
  split at h
  · rename_i target hentry
    split at h
    · rename_i found hfound
      split at h
      · cases h
      · rename_i hloop
        obtain rfl := Option.some.inj h
        exact ⟨rfl, .inr ⟨⟨target, hentry⟩, hfound, by simpa using hloop⟩⟩
    · cases h
  · rename_i entry hlink hentry
    obtain rfl := Option.some.inj h
    exact ⟨rfl, .inl ⟨rfl, entry, hentry, hlink⟩⟩
  · cases h

/-- The files in and beneath what is met: that itself, or those of an entry of it. -/
theorem mem_filesAt_succ {fuel : Nat} :
    w ∈ filesAt d excluded around v (fuel + 1) ↔
      isExcluded excluded (d.normalize v.path) = false ∧
        (w = v ∧ (d.entryAt? v.place).any DiskEntry.isFile = true ∨
          d.entryAt? v.place = some .directory ∧
          (around = [] ∨ v.path.fileName?.any isSkippedName = false) ∧
          v.path.bytes.length ≤ Disk.maxPathBytes ∧
          ∃ name ∈ d.children v.place, ∃ next,
            follow? d (v.place :: around) ⟨v.path.join ⟨name⟩, v.place ++ [name]⟩ = some next ∧
            w ∈ filesAt d excluded (v.place :: around) next fuel) := by
  rw [filesAt]
  split
  · rename_i hout
    simp [hout]
  rename_i hin
  rw [Bool.not_eq_true] at hin
  simp only [hin, true_and]
  split
  · rename_i hentry
    -- A directory is no file.
    have hnofile : ¬(w = v ∧ (d.entryAt? v.place).any DiskEntry.isFile = true) := by
      rw [hentry]
      rintro ⟨-, hfile⟩
      cases hfile
    rw [or_iff_right hnofile]
    split
    · rename_i hskipped
      have hnot : ¬(around = [] ∨ v.path.fileName?.any isSkippedName = false) := by
        simpa [not_or] using hskipped
      simp [hnot]
    rename_i hkept
    have hkept : around = [] ∨ v.path.fileName?.any isSkippedName = false := by
      simpa [imp_iff_not_or] using hkept
    split
    · rename_i hlong
      simp [Nat.not_le.2 hlong]
    · rename_i hshort
      simp only [hentry, hkept, Nat.le_of_not_lt hshort, true_and, List.mem_flatMap]
      refine exists_congr fun name => and_congr_right fun _ => ?_
      split
      · rename_i next hnext
        simp [hnext]
      · rename_i hnext
        simp [hnext]
  · rename_i entry hdir hentry
    -- What is no directory has no entries.
    have hnodir : d.entryAt? v.place ≠ some .directory := fun heq =>
      hdir (Option.some.inj (hentry.symm.trans heq))
    rw [or_iff_left fun h => hnodir h.1, hentry, Option.any_some]
    split
    · rename_i hfile
      simp [hfile]
    · rename_i hfile
      simp [hfile]
  · rename_i hentry
    simp [hentry]

/-- A source file is known by the normal form of a path on which it is met. -/
theorem exists_of_mem_discover {roots : List Path} {settings : IndexingSettings} {path : Path}
    (h : path ∈ (discover d roots settings).files) :
    ∃ v ∈ roots.flatMap (filesUnder d (excludedPrefixes d roots settings.excludePaths)),
      hasExtension settings.extensions v.path = true ∧ d.normalize v.path = path := by
  obtain ⟨v, hv, hpath⟩ := List.mem_map.1 ((eraseDupsBy_sublist _ _).mem h)
  obtain ⟨hmet, hext⟩ := List.mem_filter.1 (List.mem_filter.1 hv).1
  exact ⟨v, hmet, hext, hpath⟩

/-- No two source files are known by paths with the same components. -/
theorem pairwise_files (d : Disk) (roots : List Path) (settings : IndexingSettings) :
    (discover d roots settings).files.Pairwise fun p q => p.same q = false :=
  (pairwise_eraseDupsBy _ _).imp fun h => (Path.same_comm _ _).trans h

/-! ### Proper names -/

variable (hd : d.HasProperNames)
include hd

theorem isProper_of_follow? (hv : ∀ name ∈ v.place, name.IsProper)
    (h : follow? d around v = some w) : ∀ name ∈ w.place, name.IsProper := by
  obtain ⟨-, ⟨hplace, -⟩ | ⟨-, hfound, -⟩⟩ := follow?_cases h
  · rwa [hplace]
  · exact hd.isProper_of_resolve hfound

/-- The files in and beneath a place of proper names stand at places of proper names. -/
theorem isProper_of_mem_filesAt {fuel : Nat} (hv : ∀ name ∈ v.place, name.IsProper)
    (h : w ∈ filesAt d excluded around v fuel) : ∀ name ∈ w.place, name.IsProper := by
  induction fuel generalizing around v with
  | zero => cases h
  | succ fuel ih =>
    obtain ⟨-, ⟨rfl, -⟩ | ⟨-, -, -, name, hname, next, hnext, hw⟩⟩ := mem_filesAt_succ.1 h
    · exact hv
    · have hplace : ∀ n ∈ v.place ++ [name], n.IsProper :=
        List.forall_mem_append.2
          ⟨hv, List.forall_mem_singleton.2 (hd.isProper_of_mem_children hname)⟩
      exact ih (isProper_of_follow? hd hplace hnext) hw

/-- The source files of a workspace are known by plain paths, if what is met beneath its roots is
known by the path of its place. -/
theorem isPlain_of_mem_discover {roots : List Path} {settings : IndexingSettings} {path : Path}
    (hplace : ∀ v ∈ roots.flatMap (filesUnder d
        (excludedPrefixes d roots settings.excludePaths)), d.normalize v.path = .ofNames v.place)
    (h : path ∈ (discover d roots settings).files) : path.IsPlain := by
  obtain ⟨v, hv, -, rfl⟩ := exists_of_mem_discover h
  rw [hplace v hv]
  obtain ⟨root, -, hv⟩ := List.mem_flatMap.1 hv
  rw [filesUnder] at hv
  split at hv
  · rename_i place hroot
    exact Path.isPlain_ofNames
      (isProper_of_mem_filesAt hd (hd.isProper_of_resolve hroot) hv)
  · cases hv

end Workspace

end StructUnfold
