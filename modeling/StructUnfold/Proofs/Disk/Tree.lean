import Mathlib.Data.List.Nodup
import Mathlib.Data.List.Perm.Subperm
import StructUnfold.Proofs.Disk

/-!
# Disks that are trees

On the disk of a real system all names can be part of a path, no two things stand at one place, and
the current directory is there. Then all that a path leads to is reached from the root through
directories, and no more of them are on the way than there are things on the disk.

* `Disk.IsTree`: a disk that is a tree.
* `Disk.mem_children_iff`, `Disk.IsTree.nodup_children`: each entry of a directory has one name.
* `Disk.Stands.length_le`: a place is no deeper than the disk has things on it.
* `Disk.IsTree.stands_of_resolve`: paths lead to where something stands.
-/

namespace StructUnfold.Disk

/-- A disk is a tree of directories, files and links. -/
structure IsTree (d : Disk) : Prop where
  /-- All names can be part of a path. -/
  proper : ∀ e ∈ d.entries, ∀ name ∈ e.1, name.IsProper
  /-- No name is longer than the system takes. -/
  short : ∀ e ∈ d.entries, ∀ name ∈ e.1, name.length ≤ maxNameBytes
  /-- No two things stand at one place. -/
  distinct : (d.entries.map Prod.fst).Nodup
  /-- The current directory is there. -/
  current : d.Holds d.current

variable {d : Disk} {place : Place} {name : FileName} {entry : DiskEntry}

theorem mem_of_entryAt? (h : d.entryAt? place = some entry) (hne : place ≠ []) :
    place ∈ d.entries.map Prod.fst := by
  rw [entryAt?, if_neg (by simpa using hne), Option.map_eq_some_iff] at h
  obtain ⟨e, he, -⟩ := h
  have hplace : e.1 = place := by simpa using List.find?_some he
  rw [← hplace]
  exact List.mem_map_of_mem (List.mem_of_find?_eq_some he)

/-- The name of an entry of a directory, if the place is that of one. -/
def childName? (place below : Place) : Option FileName :=
  if below.length = place.length + 1 && place.isPrefixOf below then below.getLast? else none

theorem childName?_eq_some_iff {below : Place} :
    childName? place below = some name ↔ below = place ++ [name] := by
  rw [childName?]
  constructor
  · intro h
    split at h
    · rename_i hbelow
      rw [Bool.and_eq_true, decide_eq_true_eq, List.isPrefixOf_iff_prefix] at hbelow
      obtain ⟨hlength, rest, rfl⟩ := hbelow
      rw [List.length_append, Nat.add_left_cancel_iff] at hlength
      obtain ⟨last, rfl⟩ := List.length_eq_one_iff.1 hlength
      rw [List.getLast?_concat] at h
      rw [Option.some.inj h]
    · cases h
  · rintro rfl
    rw [if_pos (by simp), List.getLast?_concat]

theorem children_eq (d : Disk) (place : Place) :
    d.children place = (d.entries.map Prod.fst).filterMap (childName? place) := by
  rw [List.filterMap_map]
  rfl

/-- The names in a directory are those of the places right beneath it. -/
theorem mem_children_iff : name ∈ d.children place ↔ place ++ [name] ∈ d.entries.map Prod.fst := by
  rw [children_eq, List.mem_filterMap]
  simp only [childName?_eq_some_iff, exists_eq_right]

theorem take_mem_concat (hplace : ∀ k < place.length, place.take (k + 1) ∈ d.entries.map Prod.fst)
    (hentry : d.entryAt? (place ++ [name]) = some entry) :
    ∀ k < (place ++ [name]).length, (place ++ [name]).take (k + 1) ∈ d.entries.map Prod.fst := by
  intro k hk
  rw [List.length_append, List.length_singleton] at hk
  rcases Nat.lt_succ_iff_lt_or_eq.1 hk with hlt | rfl
  · rw [List.take_append_of_le_length hlt]
    exact hplace k hlt
  · rw [List.take_of_length_le (by simp)]
    exact mem_of_entryAt? hentry (List.concat_ne_nil _ _)

theorem Holds.take_mem (h : d.Holds place) :
    ∀ k < place.length, place.take (k + 1) ∈ d.entries.map Prod.fst := by
  induction h with
  | root => nofun
  | down _ _ _ hentry ih => exact take_mem_concat ih hentry

/-- All that is on the way from the root to a place stands on the disk. -/
theorem Stands.take_mem (h : d.Stands place) :
    ∀ k < place.length, place.take (k + 1) ∈ d.entries.map Prod.fst := by
  cases h with
  | directory hplace => exact hplace.take_mem
  | file hplace _ _ hentry _ => exact take_mem_concat hplace.take_mem hentry

/-- A place is no deeper than the disk has things on it. -/
theorem Stands.length_le (h : d.Stands place) : place.length ≤ d.entries.length := by
  have hnodup : ((List.range place.length).map fun k => place.take (k + 1)).Nodup := by
    refine List.Nodup.map_on (fun i hi j hj heq => ?_) List.nodup_range
    have hlength := congrArg List.length heq
    rw [List.mem_range] at hi hj
    rw [List.length_take, List.length_take] at hlength
    omega
  have hsubset : ((List.range place.length).map fun k => place.take (k + 1)) ⊆
      d.entries.map Prod.fst := by
    intro p hp
    obtain ⟨k, hk, rfl⟩ := List.mem_map.1 hp
    exact h.take_mem k (List.mem_range.1 hk)
  have hle := (hnodup.subperm hsubset).length_le
  rwa [List.length_map, List.length_range, List.length_map] at hle

theorem Stands.holds (h : d.Stands place) (hentry : d.entryAt? place = some .directory) :
    d.Holds place := by
  cases h with
  | directory hplace => exact hplace
  | file _ _ _ hfound hfile =>
    obtain rfl := Option.some.inj (hentry.symm.trans hfound)
    cases hfile

/-- Where something stands, the disk has it, or it is the root. -/
theorem Stands.mem (h : d.Stands place) : place ∈ [] :: d.entries.map Prod.fst := by
  cases h with
  | directory hplace =>
    cases hplace with
    | root => exact List.mem_cons_self
    | down _ _ _ hentry =>
      exact List.mem_cons_of_mem _ (mem_of_entryAt? hentry (List.concat_ne_nil _ _))
  | file _ _ _ hentry _ =>
    exact List.mem_cons_of_mem _ (mem_of_entryAt? hentry (List.concat_ne_nil _ _))

namespace IsTree

variable (hd : d.IsTree)
include hd

/-- Each entry of a directory has one name. -/
theorem nodup_children (place : Place) : (d.children place).Nodup := by
  rw [children_eq]
  refine hd.distinct.filterMap fun below other name hbelow hother => ?_
  rw [childName?_eq_some_iff.1 hbelow, childName?_eq_some_iff.1 hother]

theorem isProper_of_mem_children (h : name ∈ d.children place) : name.IsProper := by
  obtain ⟨e, he, hplace⟩ := List.mem_map.1 (mem_children_iff.1 h)
  exact hd.proper e he name (by rw [hplace]; simp)

theorem length_le_of_mem_children (h : name ∈ d.children place) : name.length ≤ maxNameBytes := by
  obtain ⟨e, he, hplace⟩ := List.mem_map.1 (mem_children_iff.1 h)
  exact hd.short e he name (by rw [hplace]; simp)

/-- Paths lead to where something stands. -/
theorem stands_of_resolve {path : Path} (h : d.resolve path = .ok place) : d.Stands place :=
  d.isPreserved_holds.walk hd.current (fun _ => isProper_of_mem_steps)
    (resolve_eq_ok_iff.1 h).2 rfl

/-- An entry of a directory that is no link stands in it. -/
theorem stands_of_mem_children (hplace : d.Holds place) (hname : name ∈ d.children place)
    (hentry : d.entryAt? (place ++ [name]) = some entry) (hlink : ∀ target, entry ≠ .link target) :
    d.Stands (place ++ [name]) := by
  have hproper := hd.isProper_of_mem_children hname
  have hshort := hd.length_le_of_mem_children hname
  cases entry with
  | text => exact .file hplace hproper hshort hentry rfl
  | binary => exact .file hplace hproper hshort hentry rfl
  | directory => exact .directory (.down hplace hproper hshort hentry)
  | link target => exact absurd rfl (hlink target)

end IsTree

end StructUnfold.Disk
