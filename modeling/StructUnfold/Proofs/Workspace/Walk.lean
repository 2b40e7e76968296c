import Mathlib.Data.Finset.Card
import StructUnfold.Proofs.Disk.Tree
import StructUnfold.Proofs.Workspace.Discovery

/-!
# What is met beneath a root

A directory is left unread beneath itself only where a link leads back to it. As each link that is
followed leads into a directory that is not being looked through yet, and between two links a place
gets deeper, the directories nest no deeper than is looked: everything is met that can be met.

## Main definitions

* `Workspace.Enters`: an entry of a directory that is not passed over.
* `Workspace.Reaches`: what is reached from a root by going into entries.
* `Workspace.Meets`: what is met on the way, with the directories that are being looked through.

## Main results

* `Workspace.Enters.spare_lt`: each step leaves less to go.
* `Workspace.mem_filesUnder_iff`: all files are found that are met, and no others.
-/

namespace StructUnfold.Workspace

/-- An entry of a directory that is not passed over; `around` are the directories into which no link
is followed. -/
structure Enters (d : Disk) (excluded : List Path) (around : List Place) (v w : Visit) : Prop where
  /-- The directory is one. -/
  directory : d.entryAt? v.place = some .directory
  /-- Its path is not longer than the system takes. -/
  short : v.path.bytes.length ≤ Disk.maxPathBytes
  /-- The entry has a name in it, and is what a link leads to. -/
  entry : ∃ name ∈ d.children v.place,
    follow? d around ⟨v.path.join ⟨name⟩, v.place ++ [name]⟩ = some w
  /-- It is not excluded. -/
  included : isExcluded excluded (d.normalize w.path) = false
  /-- It is no directory of a name that is passed over. -/
  kept : d.entryAt? w.place = some .directory → w.path.fileName?.any isSkippedName = false

/-- What is reached from a root by going into entries, however often into the same one. -/
inductive Reaches (d : Disk) (excluded : List Path) (root : Visit) : Visit → Prop where
  /-- The root itself, whatever its name is. -/
  | root (h : isExcluded excluded (d.normalize root.path) = false) : Reaches d excluded root root
  /-- An entry of a directory. -/
  | step {v w : Visit} (hv : Reaches d excluded root v) (h : Enters d excluded [] v w) :
      Reaches d excluded root w

/-- What is met beneath a root while some directories are being looked through, into which no link
is followed again. -/
inductive Meets (d : Disk) (excluded : List Path) (root : Visit) : List Place → Visit → Prop where
  /-- The root itself, whatever its name is. -/
  | root (h : isExcluded excluded (d.normalize root.path) = false) : Meets d excluded root [] root
  /-- An entry of a directory. -/
  | step {around : List Place} {v w : Visit} (hv : Meets d excluded root around v)
      (h : Enters d excluded (v.place :: around) v w) : Meets d excluded root (v.place :: around) w

variable {d : Disk} {excluded : List Path} {around : List Place} {root v w : Visit}

/-! ### Entries -/

theorem follow?_of_entry {entry : DiskEntry} (hentry : d.entryAt? v.place = some entry)
    (hlink : ∀ target, entry ≠ .link target) : follow? d around v = some v := by
  rw [follow?, hentry]
  cases entry with
  | link target => exact absurd rfl (hlink target)
  | _ => rfl

theorem follow?_of_link {target : Path} {place : Place}
    (hentry : d.entryAt? v.place = some (.link target)) (hfound : d.resolve v.path = .ok place)
    (hloop : ¬(d.entryAt? place = some .directory ∧ place ∈ around)) :
    follow? d around v = some ⟨v.path, place⟩ := by
  rw [follow?, hentry, hfound]
  exact if_neg (by simpa using hloop)

theorem follow?_nil (h : follow? d around v = some w) : follow? d [] v = some w := by
  obtain ⟨path, place⟩ := w
  obtain ⟨hpath, ⟨hplace, entry, hentry, hlink⟩ | ⟨⟨target, hentry⟩, hfound, -⟩⟩ := follow?_cases h
  · obtain rfl : path = v.path := hpath
    obtain rfl : place = v.place := hplace
    exact follow?_of_entry hentry hlink
  · obtain rfl : path = v.path := hpath
    exact follow?_of_link hentry hfound (by simp)

/-- What is entered is entered as well where no directories are being looked through. -/
theorem Enters.nil (h : Enters d excluded around v w) : Enters d excluded [] v w := by
  obtain ⟨name, hname, hfollow⟩ := h.entry
  exact ⟨h.directory, h.short, ⟨name, hname, follow?_nil hfollow⟩, h.included, h.kept⟩

theorem Enters.stands (hd : d.IsTree) (h : Enters d excluded around v w)
    (hv : d.Stands v.place) : d.Stands w.place := by
  obtain ⟨name, hname, hfollow⟩ := h.entry
  obtain ⟨-, ⟨hplace, entry, hentry, hlink⟩ | ⟨-, hfound, -⟩⟩ := follow?_cases hfollow
  · rw [hplace]
    exact hd.stands_of_mem_children (hv.holds h.directory) hname hentry hlink
  · exact hd.stands_of_resolve hfound

/-- What is entered is entered as well where nothing is excluded. -/
theorem Enters.unexcluded (h : Enters d excluded around v w) : Enters d [] around v w :=
  ⟨h.directory, h.short, h.entry, rfl, h.kept⟩

theorem Reaches.unexcluded (h : Reaches d excluded root v) : Reaches d [] root v := by
  induction h with
  | root => exact .root rfl
  | step _ h ih => exact .step ih h.unexcluded

theorem Reaches.stands (hd : d.IsTree) (hroot : d.Stands root.place)
    (h : Reaches d excluded root v) : d.Stands v.place := by
  induction h with
  | root => exact hroot
  | step _ h ih => exact h.stands hd ih

theorem Reaches.trans (h : Reaches d excluded root v) (hw : Reaches d excluded v w) :
    Reaches d excluded root w := by
  induction hw with
  | root => exact h
  | step _ hstep ih => exact .step ih hstep

/-! ### How deep directories nest -/

/-- The places on a disk that are not among those that are being looked through. -/
def unseen (d : Disk) (around : List Place) : Finset Place :=
  ([] :: d.entries.map Prod.fst).toFinset \ around.toFinset

/-- How much deeper directories can nest: so often a link can be followed, and so much deeper a
place can get before the next one. -/
def spare (d : Disk) (around : List Place) (place : Place) : Nat :=
  (unseen d (place :: around)).card * (d.entries.length + 2) +
    (d.entries.length + 1 - place.length)

theorem unseen_cons (d : Disk) (place : Place) (around : List Place) :
    unseen d (place :: around) = (unseen d around).erase place := by
  rw [unseen, unseen, @List.toFinset_cons _ _ around place, Finset.sdiff_insert]

theorem spare_pos {place : Place} (h : d.Stands place) : 0 < spare d around place := by
  have hle := h.length_le
  rw [spare]
  omega

/-- It is looked deep enough. -/
theorem spare_le_nestingBound (d : Disk) (place : Place) : spare d [] place ≤ nestingBound d := by
  have hcard : (unseen d [place]).card ≤ d.entries.length + 1 := by
    refine (Finset.card_le_card Finset.sdiff_subset).trans ((List.toFinset_card_le _).trans ?_)
    rw [List.length_cons, List.length_map]
  calc spare d [] place
      ≤ (d.entries.length + 1) * (d.entries.length + 2) + (d.entries.length + 1) :=
        Nat.add_le_add (Nat.mul_le_mul_right _ hcard) (Nat.sub_le _ _)
    _ ≤ nestingBound d := by
        rw [nestingBound, Nat.succ_mul (d.entries.length + 1)]
        omega

/-- A place in a directory is deeper. -/
theorem spare_down_lt {place : Place} (h : d.Stands place) (name : FileName) :
    spare d (place :: around) (place ++ [name]) < spare d around place := by
  have hle := h.length_le
  have hcard : (unseen d ((place ++ [name]) :: place :: around)).card ≤
      (unseen d (place :: around)).card := by
    rw [unseen_cons]
    exact Finset.card_erase_le
  have hmul := Nat.mul_le_mul_right (d.entries.length + 2) hcard
  rw [spare, spare, List.length_append, List.length_singleton]
  omega

/-- A link leads to where something stands that is not being looked through. -/
theorem spare_link_lt {place found : Place} (hfound : found ∈ unseen d (place :: around)) :
    spare d (place :: around) found < spare d around place := by
  have hcard : (unseen d (found :: place :: around)).card + 1 ≤
      (unseen d (place :: around)).card := by
    rw [unseen_cons]
    exact Finset.card_erase_lt_of_mem hfound
  have hmul := Nat.mul_le_mul_right (d.entries.length + 2) hcard
  rw [Nat.succ_mul] at hmul
  rw [spare, spare]
  omega

/-- Each step leaves less to go. -/
theorem Enters.spare_lt (hd : d.IsTree) (h : Enters d excluded (v.place :: around) v w)
    (hv : d.Stands v.place) (haround : ∀ place ∈ around, d.entryAt? place = some .directory) :
    spare d (v.place :: around) w.place < spare d around v.place := by
  obtain ⟨name, hname, hfollow⟩ := h.entry
  obtain ⟨-, ⟨hplace, -⟩ | ⟨-, hfound, hloop⟩⟩ := follow?_cases hfollow
  · rw [hplace]
    exact spare_down_lt hv name
  · have hstands := hd.stands_of_resolve hfound
    refine spare_link_lt (Finset.mem_sdiff.2 ⟨List.mem_toFinset.2 hstands.mem, fun hmem => ?_⟩)
    rw [List.mem_toFinset] at hmem
    refine hloop ⟨?_, hmem⟩
    rcases List.mem_cons.1 hmem with heq | hmem
    · rw [heq]
      exact h.directory
    · exact haround _ hmem

/-! ### All that is met is found -/

namespace Meets

theorem included (h : Meets d excluded root around v) :
    isExcluded excluded (d.normalize v.path) = false := by
  cases h with
  | root h => exact h
  | step _ h => exact h.included

theorem kept (h : Meets d excluded root around v) (hentry : d.entryAt? v.place = some .directory) :
    around = [] ∨ v.path.fileName?.any isSkippedName = false := by
  cases h with
  | root => exact .inl rfl
  | step _ h => exact .inr (h.kept hentry)

/-- What is being looked through are directories. -/
theorem directory (h : Meets d excluded root around v) :
    ∀ place ∈ around, d.entryAt? place = some .directory := by
  induction h with
  | root => nofun
  | step _ h ih => exact List.forall_mem_cons.2 ⟨h.directory, ih⟩

/-- What is met is reached. -/
theorem reaches (h : Meets d excluded root around v) : Reaches d excluded root v := by
  induction h with
  | root h => exact .root h
  | step _ h ih => exact .step ih h.nil

theorem stands (hd : d.IsTree) (hroot : d.Stands root.place)
    (h : Meets d excluded root around v) : d.Stands v.place :=
  h.reaches.stands hd hroot

end Meets

/-- What is found is met, if that is met beneath which it is looked for. -/
theorem exists_meets_of_mem_filesAt {fuel : Nat}
    (hv : isExcluded excluded (d.normalize v.path) = false →
      (d.entryAt? v.place = some .directory →
        around = [] ∨ v.path.fileName?.any isSkippedName = false) →
      Meets d excluded root around v)
    (h : w ∈ filesAt d excluded around v fuel) :
    (∃ around, Meets d excluded root around w) ∧
      (d.entryAt? w.place).any DiskEntry.isFile = true := by
  induction fuel generalizing around v with
  | zero => cases h
  | succ fuel ih =>
    obtain ⟨hin, ⟨rfl, hfile⟩ | ⟨hentry, hkept, hshort, name, hname, next, hnext, hw⟩⟩ :=
      mem_filesAt_succ.1 h
    · refine ⟨⟨around, hv hin fun hentry => ?_⟩, hfile⟩
      rw [hentry] at hfile
      cases hfile
    · have hmeets := hv hin fun _ => hkept
      refine ih (fun hin hkept => .step hmeets ⟨hentry, hshort, ⟨name, hname, hnext⟩, hin, ?_⟩) hw
      exact fun hentry => (hkept hentry).resolve_left (List.cons_ne_nil _ _)

/-- Beneath what is met it is looked deep enough. -/
theorem Meets.exists_fuel (hd : d.IsTree) (hroot : d.Stands root.place)
    (h : Meets d excluded root around v) :
    ∃ fuel, spare d around v.place ≤ fuel ∧ ∀ w ∈ filesAt d excluded around v fuel,
      w ∈ filesAt d excluded [] root (nestingBound d) := by
  induction h with
  | root => exact ⟨nestingBound d, spare_le_nestingBound d _, fun _ h => h⟩
  | @step around v w hv h ih =>
    obtain ⟨fuel, hspare, hfound⟩ := ih
    have hlt := h.spare_lt hd (hv.stands hd hroot) hv.directory
    have hpos : 0 < fuel := Nat.lt_of_lt_of_le (Nat.zero_lt_of_lt hlt) hspare
    obtain ⟨fuel, rfl⟩ := Nat.exists_eq_add_of_le' hpos
    refine ⟨fuel, by omega, fun u hu => hfound u (mem_filesAt_succ.2 ⟨hv.included, .inr ?_⟩)⟩
    obtain ⟨name, hname, hfollow⟩ := h.entry
    exact ⟨h.directory, hv.kept h.directory, h.short, name, hname, w, hfollow, hu⟩

/-- All files are found that are met, and no others. -/
theorem mem_filesUnder_iff (hd : d.IsTree) {path : Path} :
    w ∈ filesUnder d excluded path ↔
      ∃ place, d.resolve path = .ok place ∧
        (∃ around, Meets d excluded ⟨path, place⟩ around w) ∧
        (d.entryAt? w.place).any DiskEntry.isFile = true := by
  rw [filesUnder]
  cases hpath : d.resolve path with
  | error fault => simp
  | ok place =>
    simp only [Except.ok.injEq, exists_eq_left']
    constructor
    · exact exists_meets_of_mem_filesAt fun hin _ => .root hin
    · rintro ⟨⟨around, hmeets⟩, hfile⟩
      have hroot := hd.stands_of_resolve hpath
      obtain ⟨fuel, hspare, hfound⟩ := hmeets.exists_fuel hd hroot
      have hpos : 0 < spare d around w.place := spare_pos (hmeets.stands hd hroot)
      obtain ⟨fuel, rfl⟩ := Nat.exists_eq_add_of_le' (Nat.lt_of_lt_of_le hpos hspare)
      exact hfound w (mem_filesAt_succ.2 ⟨hmeets.included, .inl ⟨rfl, hfile⟩⟩)

end StructUnfold.Workspace
