import Mathlib.Data.List.TakeWhile
import StructUnfold.Proofs.Disk.Way
import StructUnfold.Proofs.Workspace.Walk

/-!
# Links that lead back

Where a link leads back into a directory that is being looked through, it is not followed. Nothing
is missed by this: what is reached through the link is met from the directory itself, on a path that
is no longer and takes no more links. And as all names in a directory differ, no path is met twice.

## Main definitions

* `Path.Begins`: a path is the beginning of another one.
* `Workspace.Normalizes`: what is reached from a root is known by the path of its place.
* `Workspace.Replaces`: what is met in one place is as good as what is reached in another.

## Main results

* `Workspace.normalizes_of_fits`: this is so where no path of a place is too long.
* `Workspace.Reaches.exists_meets`: all that is reached is met.
* `Workspace.nodup_filesUnder`: no file is found twice on one path.
-/

namespace StructUnfold

/-- A path is the beginning of another one, with the separator at its end or without. -/
structure Path.Begins (p q : Path) : Prop where
  /-- Its bytes come first. -/
  bytes : p.bytes <+: q.bytes
  /-- So they do without a separator at the end. -/
  stem : p.stem <+: q.stem
  /-- Its steps come first. -/
  front : Disk.front p <+: Disk.front q

namespace Path.Begins

variable {p q r : Path} {name : FileName}

theorem refl (p : Path) : p.Begins p :=
  ⟨List.prefix_refl _, List.prefix_refl _, List.prefix_refl _⟩

theorem trans (hp : p.Begins q) (hq : q.Begins r) : p.Begins r :=
  ⟨hp.bytes.trans hq.bytes, hp.stem.trans hq.stem, hp.front.trans hq.front⟩

/-- A path is the beginning of itself with a name joined to it. -/
theorem join (hp : p.bytes ≠ []) (hname : name.IsProper) : p.Begins (p.join ⟨name⟩) := by
  have hstem : p.stem <+: (p.join ⟨name⟩).bytes := by
    rw [bytes_join hp hname]
    exact List.prefix_append _ _
  refine ⟨?_, by rwa [stem_join hp hname], ?_⟩
  · rcases p.bytes_eq_or with heq | heq
    · rwa [heq]
    · rw [heq, bytes_join hp hname]
      exact ⟨name, by simp⟩
  · rw [Disk.front_join hp hname]
    exact List.prefix_append _ _

end Path.Begins

namespace Workspace

variable {d : Disk} {excluded : List Path} {around : List Place} {root u v w : Visit}

/-! ### What is reached is met -/

theorem Enters.exists_path (hd : d.IsTree) (h : Enters d excluded around v w) :
    ∃ name : FileName, name.IsProper ∧ w.path = v.path.join ⟨name⟩ := by
  obtain ⟨name, hname, hfollow⟩ := h.entry
  exact ⟨name, hd.isProper_of_mem_children hname, (follow?_cases hfollow).1⟩

theorem Reaches.ne_nil (hd : d.IsTree) (hroot : root.path.bytes ≠ [])
    (h : Reaches d excluded root v) : v.path.bytes ≠ [] := by
  induction h with
  | root => exact hroot
  | step _ h ih =>
    obtain ⟨name, hname, hpath⟩ := h.exists_path hd
    rw [hpath]
    exact Path.bytes_join_ne_nil ih hname

/-- The path on which something is reached leads to it. -/
theorem Reaches.walk_front (hd : d.IsTree) (hroot : d.resolve root.path = .ok root.place)
    (h : Reaches d excluded root v) :
    d.walk Disk.maxLinks d.current (Disk.front v.path) = .ok (v.place, true) := by
  have hne := Disk.ne_nil_of_refusal? (Disk.resolve_eq_ok_iff.1 hroot).1
  induction h with
  | root => exact Disk.walk_front_of_resolve hroot
  | @step v w hv h ih =>
    obtain ⟨name, hname, hfollow⟩ := h.entry
    have hproper := hd.isProper_of_mem_children hname
    obtain ⟨hpath, ⟨hplace, entry, hentry, hlink⟩ | ⟨-, hfound, -⟩⟩ := follow?_cases hfollow
    · -- An entry that is no link lies one step further on the same way.
      obtain ⟨links, hle, hgoes⟩ := Disk.walk_eq_ok_iff.1 ih
      have hshort := hd.length_le_of_mem_children hname
      have hstep : d.Goes 0 v.place [.down name] (w.place, true) := by
        rw [hplace]
        cases entry with
        | directory => exact .down hshort hentry .nil
        | link target => exact absurd rfl (hlink target)
        | text => exact .file hshort hentry rfl
        | binary => exact .file hshort hentry rfl
      rw [hpath, Disk.front_join (hv.ne_nil hd hne) hproper]
      exact (hgoes.append h.directory hstep).walk_eq hle
    · -- A link was followed from its whole path.
      rw [hpath]
      exact Disk.walk_front_of_resolve hfound

/-- So it leads nowhere else. -/
theorem Reaches.eq_of_resolve (hd : d.IsTree) (hroot : d.resolve root.path = .ok root.place)
    (h : Reaches d excluded root v) {place : Place} (hplace : d.resolve v.path = .ok place) :
    v.place = place := by
  have hsame := (h.walk_front hd hroot).symm.trans (Disk.walk_front_of_resolve hplace)
  exact (Prod.mk.inj (Except.ok.inj hsame)).1

/-! ### Normal forms of paths on which something is reached -/

/-- Each path on which something is reached from a root has the path of its place as its normal
form. -/
def Normalizes (d : Disk) (root : Path) : Prop :=
  ∀ place v, d.resolve root = .ok place → Reaches d [] ⟨root, place⟩ v →
    d.normalize v.path = .ofNames v.place

/-- The same is so of what is reached from there. -/
theorem Normalizes.of_reaches (hd : d.IsTree) (h : Normalizes d root.path)
    (hroot : d.resolve root.path = .ok root.place) (hv : Reaches d excluded root v) :
    Normalizes d v.path := by
  intro place w hplace hw
  obtain rfl := hv.eq_of_resolve hd hroot hplace
  exact h _ w hroot (hv.unexcluded.trans hw)

/-- A path on which something is reached has no byte that the system does not take. -/
theorem Reaches.nul_not_mem (hd : d.IsTree)
    (hnul : ∀ e ∈ d.entries, ∀ name ∈ e.1, (0 : UInt8) ∉ name)
    (hroot : d.resolve root.path = .ok root.place) (h : Reaches d excluded root v) :
    (0 : UInt8) ∉ v.path.bytes := by
  obtain ⟨htaken, -⟩ := Disk.resolve_eq_ok_iff.1 hroot
  induction h with
  | root =>
    rw [Disk.refusal?] at htaken
    split at htaken
    · cases htaken
    · rename_i hfree
      simpa using hfree
  | @step v w hv h ih =>
    obtain ⟨name, hname, hfollow⟩ := h.entry
    rw [(follow?_cases hfollow).1, Path.bytes_join (hv.ne_nil hd (Disk.ne_nil_of_refusal? htaken))
      (hd.isProper_of_mem_children hname), List.mem_append, List.mem_cons, not_or, not_or]
    obtain ⟨e, he, hplace⟩ := List.mem_map.1 (Disk.mem_children_iff.1 hname)
    refine ⟨fun hstem => ih ?_, by decide, hnul e he name (by rw [hplace]; simp)⟩
    rcases v.path.bytes_eq_or with heq | heq <;> rw [heq]
    · exact hstem
    · exact List.mem_append_left _ hstem

/-- The whole path on which something is reached leads to it. -/
theorem Reaches.walk_steps (hd : d.IsTree) (hroot : d.resolve root.path = .ok root.place)
    (h : Reaches d excluded root v) :
    d.walk Disk.maxLinks d.current (Disk.steps v.path) = .ok (v.place, true) := by
  have hfront := h.walk_front hd hroot
  cases h with
  | root => exact (Disk.resolve_eq_ok_iff.1 hroot).2
  | step hv h =>
    -- There is no separator at the end of a path that ends in a name.
    obtain ⟨name, hname, hpath⟩ := h.exists_path hd
    have hne := hv.ne_nil hd (Disk.ne_nil_of_refusal? (Disk.resolve_eq_ok_iff.1 hroot).1)
    rw [hpath, Disk.front_join hne hname] at hfront
    rw [hpath, Disk.steps_join hne hname]
    exact hfront

/-- Where the path of no place is too long and there is no byte in a name that the system does not
take, all that is reached is known by the path of its place. -/
theorem normalizes_of_fits (hd : d.IsTree)
    (hfits : ∀ e ∈ d.entries, (Path.ofNames e.1).bytes.length ≤ Disk.maxPathBytes)
    (hnul : ∀ e ∈ d.entries, ∀ name ∈ e.1, (0 : UInt8) ∉ name) (path : Path) :
    Normalizes d path := by
  intro place v hroot hv
  have hne := hv.ne_nil hd (Disk.ne_nil_of_refusal? (Disk.resolve_eq_ok_iff.1 hroot).1)
  have hfree := hv.nul_not_mem hd hnul hroot
  have hshort : (Path.ofNames v.place).bytes.length ≤ Disk.maxPathBytes := by
    rcases List.mem_cons.1 (hv.stands hd (hd.stands_of_resolve hroot)).mem with heq | hmem
    · rw [heq]
      decide
    · obtain ⟨e, he, heq⟩ := List.mem_map.1 hmem
      rw [← heq]
      exact hfits e he
  rw [Disk.normalize, if_neg (by simpa using ⟨hne, hfree⟩), hv.walk_steps hd hroot]
  exact if_pos hshort

/-! ### Links that lead back -/

/-- All directories that are being looked through have been met on the way. -/
theorem Meets.exists_begins (hd : d.IsTree) (hroot : root.path.bytes ≠ [])
    (h : Meets d excluded root around v) {place : Place} (hplace : place ∈ v.place :: around) :
    ∃ outer u, Meets d excluded root outer u ∧ u.place = place ∧ u.path.Begins v.path := by
  induction h with
  | root h =>
    obtain rfl := List.mem_singleton.1 hplace
    exact ⟨[], root, .root h, rfl, .refl _⟩
  | @step around v w hv h ih =>
    rcases List.mem_cons.1 hplace with rfl | hplace
    · exact ⟨_, w, hv.step h, rfl, .refl _⟩
    · obtain ⟨outer, u, hu, heq, hbegins⟩ := ih hplace
      obtain ⟨name, hname, hpath⟩ := h.exists_path hd
      refine ⟨outer, u, hu, heq, hbegins.trans ?_⟩
      rw [hpath]
      exact .join (hv.reaches.ne_nil hd hroot) hname

/-- What is met in one place is as good as what is reached in another: it is the same, its path is
no longer and leads as far. -/
structure Replaces (d : Disk) (v w : Visit) : Prop where
  /-- Both stand at one place. -/
  place : v.place = w.place
  /-- There is nothing on the path that is not on the other one. -/
  bytes : v.path.bytes.Sublist w.path.bytes
  /-- So it is without separators at the end. -/
  stem : v.path.stem.Sublist w.path.stem
  /-- It leads as far. -/
  leads : d.LeadsAsFar v.path w.path

namespace Replaces

theorem refl (d : Disk) (v : Visit) : Replaces d v v :=
  ⟨rfl, .refl _, .refl _, .refl _ _⟩

/-- Entries of one name in one directory. -/
theorem join {name : FileName} {place : Place} (h : Replaces d v w) (hv : v.path.bytes ≠ [])
    (hw : w.path.bytes ≠ []) (hname : name.IsProper) :
    Replaces d ⟨v.path.join ⟨name⟩, place⟩ ⟨w.path.join ⟨name⟩, place⟩ := by
  have hbytes : (v.path.join ⟨name⟩).bytes.Sublist (w.path.join ⟨name⟩).bytes := by
    rw [Path.bytes_join hv hname, Path.bytes_join hw hname]
    exact h.stem.append (.refl _)
  refine ⟨rfl, hbytes, ?_, h.leads.join hv hw hname⟩
  rwa [Path.stem_join hv hname, Path.stem_join hw hname]

/-- A directory in which a link leads back to what is met replaces what the link leads to. -/
theorem of_begins (h : Replaces d v w) (hplace : u.place = v.place) (hbegins : u.path.Begins v.path)
    (hu : d.walk Disk.maxLinks d.current (Disk.front u.path) = .ok (u.place, true))
    (hv : d.walk Disk.maxLinks d.current (Disk.front v.path) = .ok (v.place, true))
    (hentry : d.entryAt? v.place = some .directory) : Replaces d u w where
  place := hplace.trans h.place
  bytes := hbegins.bytes.sublist.trans h.bytes
  stem := hbegins.stem.sublist.trans h.stem
  leads := (Disk.LeadsAsFar.of_prefix hbegins.front (hplace ▸ hu) hv hentry).trans h.leads

end Replaces

/-- An entry of a directory is met from what replaces the directory as well, or a link to it leads
back. -/
theorem Replaces.follow?_or {name : FileName} (h : Replaces d v w) (inner : List Place)
    (hv : v.path.bytes ≠ []) (hw : w.path.bytes ≠ []) (hname : name.IsProper)
    (hfollow : follow? d [] ⟨w.path.join ⟨name⟩, w.place ++ [name]⟩ = some u) :
    follow? d inner ⟨v.path.join ⟨name⟩, v.place ++ [name]⟩ =
        some ⟨v.path.join ⟨name⟩, u.place⟩ ∨
      d.resolve (v.path.join ⟨name⟩) = .ok u.place ∧ d.entryAt? u.place = some .directory ∧
        u.place ∈ inner := by
  rw [h.place]
  obtain ⟨-, ⟨hplace, entry, hentry, hlink⟩ | ⟨⟨target, hentry⟩, hfound, -⟩⟩ :=
    follow?_cases hfollow
  · left
    rw [hplace]
    exact follow?_of_entry hentry hlink
  · have hresolve := h.leads.resolve_join hv hw hname h.stem hfound
    by_cases hloop : d.entryAt? u.place = some .directory ∧ u.place ∈ inner
    · exact .inr ⟨hresolve, hloop⟩
    · exact .inl (follow?_of_link hentry hresolve hloop)

/-- All that is reached is met, on a path that is no longer. A file is met by the same name. -/
theorem Reaches.exists_meets (hd : d.IsTree) (hnormal : Normalizes d root.path)
    (hroot : d.resolve root.path = .ok root.place) (h : Reaches d excluded root w) :
    ∃ around v, Meets d excluded root around v ∧ Replaces d v w ∧
      (d.entryAt? w.place ≠ some .directory → v.path.fileName? = w.path.fileName?) := by
  have hne := Disk.ne_nil_of_refusal? (Disk.resolve_eq_ok_iff.1 hroot).1
  induction h with
  | root h => exact ⟨[], root, .root h, .refl _ _, fun _ => rfl⟩
  | @step v w hreaches h ih =>
    obtain ⟨around, v', hmeets, hreplaces, -⟩ := ih
    obtain ⟨name, hname, hfollow⟩ := h.entry
    have hproper := hd.isProper_of_mem_children hname
    have hv := hreaches.ne_nil hd hne
    have hv' := hmeets.reaches.ne_nil hd hne
    have hpath : w.path = v.path.join ⟨name⟩ := (follow?_cases hfollow).1
    have hjoined : Replaces d ⟨v'.path.join ⟨name⟩, w.place⟩ ⟨w.path, w.place⟩ := by
      rw [hpath]
      exact hreplaces.join hv' hv hproper
    have hfile : (v'.path.join ⟨name⟩).fileName? = w.path.fileName? := by
      rw [hpath, Path.fileName?_join hv' hproper, Path.fileName?_join hv hproper]
    rcases hreplaces.follow?_or (v'.place :: around) hv' hv hproper hfollow with
      hentered | ⟨hresolve, hentry, hloop⟩
    · have henters : Enters d [] (v'.place :: around) v' ⟨v'.path.join ⟨name⟩, w.place⟩ := by
        refine ⟨?_, ?_, ⟨name, ?_, hentered⟩, rfl, fun hentry => ?_⟩
        · rw [hreplaces.place]
          exact h.directory
        · exact hreplaces.bytes.length_le.trans h.short
        · rwa [hreplaces.place]
        · rw [hfile]
          exact h.kept hentry
      -- Both are known by the path of one place, so neither is excluded.
      have hincluded : isExcluded excluded (d.normalize (v'.path.join ⟨name⟩)) = false := by
        have hknown := hnormal _ _ hroot (hmeets.reaches.unexcluded.step henters.nil)
        have hknown' := hnormal _ _ hroot (hreaches.step h).unexcluded
        rw [hknown, ← hknown']
        exact h.included
      exact ⟨_, _, hmeets.step ⟨henters.directory, henters.short, henters.entry, hincluded,
        henters.kept⟩, hjoined, fun _ => hfile⟩
    · -- The link leads back to a directory that is being looked through, so that it is met already.
      obtain ⟨outer, u, hu, hplace, hbegins⟩ := hmeets.exists_begins hd hne hloop
      refine ⟨outer, u, hu, ?_, fun hnot => absurd hentry hnot⟩
      exact hjoined.of_begins hplace (hbegins.trans (.join hv' hproper))
        (hu.reaches.walk_front hd hroot) (Disk.walk_front_of_resolve hresolve) hentry

/-! ### No path is met twice -/

/-- The name of the entry of a directory on the path of what is found beneath it. -/
def entryName (v w : Visit) : FileName :=
  (w.path.bytes.drop (v.path.stem.length + 1)).takeWhile (· ≠ Path.separator)

/-- The path of an entry of a directory is that of the directory and a name. -/
theorem stem_of_path_eq_join {name : FileName} (hv : v.path.bytes ≠ []) (hname : name.IsProper)
    (hw : w.path = v.path.join ⟨name⟩) :
    w.path.stem = v.path.stem ++ Path.separator :: name := by
  rw [hw, Path.stem_join hv hname, Path.bytes_join hv hname]

/-- The path of what is found goes on from that beneath which it is looked for. -/
theorem prefix_of_mem_filesAt (hd : d.IsTree) {fuel : Nat} (hv : v.path.bytes ≠ [])
    (h : w ∈ filesAt d excluded around v fuel) :
    w.path = v.path ∨ v.path.stem ++ [Path.separator] <+: w.path.bytes := by
  induction fuel generalizing around v with
  | zero => cases h
  | succ fuel ih =>
    obtain ⟨-, ⟨rfl, -⟩ | ⟨-, -, -, name, hname, next, hnext, hw⟩⟩ := mem_filesAt_succ.1 h
    · exact .inl rfl
    right
    have hproper := hd.isProper_of_mem_children hname
    have hpath : next.path = v.path.join ⟨name⟩ := (follow?_cases hnext).1
    have hpre : v.path.stem ++ [Path.separator] <+: next.path.stem := by
      rw [stem_of_path_eq_join hv hproper hpath]
      exact ⟨name, by simp⟩
    rcases ih (hpath ▸ Path.bytes_join_ne_nil hv hproper) hw with heq | hbehind
    · rw [heq, hpath, ← Path.stem_join hv hproper, ← hpath]
      exact hpre
    · exact hpre.trans ((List.prefix_append _ _).trans hbehind)

theorem entryName_of_mem_filesAt (hd : d.IsTree) {fuel : Nat} {name : FileName} {next : Visit}
    (hv : v.path.bytes ≠ []) (hname : name.IsProper) (hnext : next.path = v.path.join ⟨name⟩)
    (h : w ∈ filesAt d excluded around next fuel) : entryName v w = name := by
  have hne : next.path.bytes ≠ [] := by
    rw [hnext]
    exact Path.bytes_join_ne_nil hv hname
  have hpiece : ∀ b ∈ name, (b ≠ Path.separator : Bool) = true := fun b hb => by
    simpa using fun heq : b = Path.separator => hname.not_mem (heq ▸ hb)
  rcases prefix_of_mem_filesAt hd hne h with heq | ⟨rest, hrest⟩
  · rw [entryName, heq, hnext, Path.bytes_join hv hname, ← List.drop_drop, List.drop_left]
    exact List.takeWhile_eq_self_iff.2 hpiece
  · rw [stem_of_path_eq_join hv hname hnext, List.append_assoc, List.append_assoc] at hrest
    rw [entryName, ← hrest, ← List.drop_drop, List.drop_left]
    show (name ++ ([Path.separator] ++ rest)).takeWhile _ = name
    rw [List.takeWhile_append_of_pos hpiece]
    simp

/-- No file is found twice on one path. -/
theorem nodup_filesAt (hd : d.IsTree) {fuel : Nat} (hv : v.path.bytes ≠ []) :
    (filesAt d excluded around v fuel).Nodup := by
  induction fuel generalizing around v with
  | zero => exact List.nodup_nil
  | succ fuel ih =>
    rw [filesAt]
    split
    · exact List.nodup_nil
    split
    · split
      · exact List.nodup_nil
      split
      · exact List.nodup_nil
      have hproper : ∀ name ∈ d.children v.place, name.IsProper :=
        fun name => hd.isProper_of_mem_children
      refine List.nodup_flatMap.2 ⟨fun name hname => ?_, ?_⟩
      · split
        · rename_i next hnext
          refine ih ?_
          rw [(follow?_cases hnext).1]
          exact Path.bytes_join_ne_nil hv (hproper name hname)
        · exact List.nodup_nil
      · refine (hd.nodup_children _).pairwise_of_forall_ne fun n hn m hm hne => ?_
        -- The path of what is found tells beneath which entry it is.
        have hentry : ∀ name ∈ d.children v.place, ∀ next,
            follow? d (v.place :: around) ⟨v.path.join ⟨name⟩, v.place ++ [name]⟩ = some next →
            ∀ w ∈ filesAt d excluded (v.place :: around) next fuel, entryName v w = name :=
          fun name hname next hnext w hw =>
            entryName_of_mem_filesAt hd hv (hproper name hname) (follow?_cases hnext).1 hw
        intro w hn' hm'
        dsimp only at hn' hm'
        split at hn'
        · rename_i hnext
          split at hm'
          · rename_i hnext'
            exact hne ((hentry n hn _ hnext w hn').symm.trans (hentry m hm _ hnext' w hm'))
          · cases hm'
        · cases hn'
    · split
      · exact List.nodup_singleton _
      · exact List.nodup_nil
    · exact List.nodup_nil

theorem nodup_filesUnder (hd : d.IsTree) (path : Path) :
    (filesUnder d excluded path).Nodup := by
  rw [filesUnder]
  split
  · rename_i place hpath
    exact nodup_filesAt hd (Disk.ne_nil_of_refusal? (Disk.resolve_eq_ok_iff.1 hpath).1)
  · exact List.nodup_nil

end Workspace

end StructUnfold
