import StructUnfold.Disk.Basic
import StructUnfold.Proofs.Path

/-!
# Where paths lead

A path leads through directories and links to a place, and the path of the names of that place leads
there without links. So nothing is gained by bringing a path to its normal form twice.

* `Disk.Holds`: a directory that is reached from the root through directories.
* `Disk.Stands`: a directory or a file in one.
* `Disk.IsPreserved.walk`: what each step preserves holds of the end of a way.
* `Disk.resolve_eq_ok_iff`: where a path leads.
* `Disk.normalize_normalize`, `Path.IsPlain.normalize`: the normal form of a path.
-/

namespace StructUnfold

namespace Disk

/-- Steps go down by proper names. -/
def Step.IsProper : Step → Prop
  | down name => name.IsProper
  | _ => True

theorem Step.isProper_ofPiece {piece : FileName} (h : Path.separator ∉ piece) :
    (Step.ofPiece piece).IsProper := by
  rw [Step.ofPiece]
  split
  · trivial
  · rename_i hfiller
    split
    · trivial
    · rename_i hdots
      simp only [Path.isFiller, Bool.or_eq_true, List.isEmpty_iff, beq_iff_eq, not_or]
        at hfiller hdots
      exact ⟨hfiller.1, hfiller.2, hdots, h⟩

theorem Step.ofPiece_of_isProper {name : FileName} (h : name.IsProper) :
    Step.ofPiece name = .down name := by
  rw [Step.ofPiece, Path.isFiller, if_neg (by simp [h.ne_nil, h.ne_dot]),
    if_neg (by simp [h.ne_dots])]

theorem isProper_of_mem_steps {path : Path} {step : Step} (h : step ∈ steps path) :
    step.IsProper := by
  have hpieces : ∀ step ∈ (path.bytes.splitOn Path.separator).map Step.ofPiece, step.IsProper := by
    intro step hstep
    obtain ⟨piece, hpiece, rfl⟩ := List.mem_map.1 hstep
    exact Step.isProper_ofPiece (Path.not_mem_of_mem_splitOn hpiece)
  rw [steps] at h
  split at h
  · rcases List.mem_cons.1 h with rfl | h
    · trivial
    · exact hpieces step (List.mem_of_mem_drop h)
  · exact hpieces step h

/-- A directory that is reached from the root through directories. -/
inductive Holds (d : Disk) : Place → Prop where
  /-- The root. -/
  | root : Holds d []
  /-- A directory in another one. -/
  | down {place : Place} {name : FileName} (hplace : Holds d place) (hname : name.IsProper)
      (hshort : name.length ≤ maxNameBytes)
      (hentry : d.entryAt? (place ++ [name]) = some .directory) : Holds d (place ++ [name])

/-- A directory that is reached from the root through directories, or a file in one. -/
inductive Stands (d : Disk) : Place → Prop where
  /-- A directory. -/
  | directory {place : Place} (hplace : d.Holds place) : Stands d place
  /-- A file. -/
  | file {place : Place} {name : FileName} {entry : DiskEntry} (hplace : d.Holds place)
      (hname : name.IsProper) (hshort : name.length ≤ maxNameBytes)
      (hentry : d.entryAt? (place ++ [name]) = some entry) (hfile : entry.isFile = true) :
      Stands d (place ++ [name])

variable {d : Disk} {place : Place}

theorem Holds.isProper (h : d.Holds place) : ∀ name ∈ place, name.IsProper := by
  induction h with
  | root => simp
  | down hplace hname _ _ ih =>
    exact List.forall_mem_append.2 ⟨ih, List.forall_mem_singleton.2 hname⟩

theorem Stands.isProper (h : d.Stands place) : ∀ name ∈ place, name.IsProper := by
  cases h with
  | directory hplace => exact hplace.isProper
  | file hplace hname _ _ _ =>
    exact List.forall_mem_append.2 ⟨hplace.isProper, List.forall_mem_singleton.2 hname⟩

/-- The directory above. -/
theorem Holds.dropLast (h : d.Holds place) : d.Holds place.dropLast := by
  cases h with
  | root => exact .root
  | down hplace _ _ _ =>
    rw [List.dropLast_concat]
    exact hplace

/-! ### The way to a place -/

/-- What a step along proper names preserves: `Passes` of the directories on a way, and `Ends` of
the place it leads to and whether anything stands there. -/
structure IsPreserved (d : Disk) (Passes : Place → Prop) (Ends : Place × Bool → Prop) : Prop where
  /-- The root is passed. -/
  root : Passes []
  /-- The directory above is passed. -/
  up : ∀ {place}, Passes place → Passes place.dropLast
  /-- A directory in another one is passed. -/
  down : ∀ {place name}, Passes place → name.IsProper → name.length ≤ maxNameBytes →
    d.entryAt? (place ++ [name]) = some .directory → Passes (place ++ [name])
  /-- The way ends in a directory. -/
  directory : ∀ {place}, Passes place → Ends (place, true)
  /-- The way ends at a file. -/
  file : ∀ {place name entry}, Passes place → name.IsProper → name.length ≤ maxNameBytes →
    d.entryAt? (place ++ [name]) = some entry → entry.isFile = true → Ends (place ++ [name], true)
  /-- The way ends where nothing stands. -/
  missing : ∀ {place name}, Passes place → name.IsProper → Ends (place ++ [name], false)

variable {Passes : Place → Prop} {Ends : Place × Bool → Prop}

/-- What steps preserve holds of the end of a way, if it does of the ways from links. -/
theorem IsPreserved.walkThrough (hp : d.IsPreserved Passes Ends)
    {follow : Place → List Step → Except SystemFault (Place × Bool)}
    (hfollow : ∀ {place steps found}, Passes place → (∀ step ∈ steps, step.IsProper) →
      follow place steps = .ok found → Ends found)
    {steps : List Step} {found : Place × Bool} (hplace : Passes place)
    (hsteps : ∀ step ∈ steps, step.IsProper) (h : d.walkThrough follow place steps = .ok found) :
    Ends found := by
  induction steps generalizing place with
  | nil =>
    obtain rfl := Except.ok.inj h
    exact hp.directory hplace
  | cons step rest ih =>
    obtain ⟨hstep, hrest⟩ := List.forall_mem_cons.1 hsteps
    cases step with
    | root => exact ih hp.root hrest h
    | stay => exact ih hplace hrest h
    | up => exact ih (hp.up hplace) hrest h
    | down name =>
      -- Where a way ends, it ends at the place of its last step.
      have hend : ∀ {here : Bool} {fault : SystemFault}, Ends (place ++ [name], here) →
          (if rest.isEmpty then Except.ok (place ++ [name], here) else Except.error fault) =
            .ok found → Ends found := by
        intro here fault hplace hfound
        split at hfound
        · obtain rfl := Except.ok.inj hfound
          exact hplace
        · cases hfound
      rw [Disk.walkThrough] at h
      split at h
      · cases h
      · rename_i hlong
        have hshort := Nat.le_of_not_lt hlong
        cases hentry : d.entryAt? (place ++ [name]) with
        | none =>
          simp only [hentry] at h
          exact hend (hp.missing hplace hstep) h
        | some entry =>
          simp only [hentry] at h
          cases entry with
          | directory => exact ih (hp.down hplace hstep hshort hentry) hrest h
          -- The steps of the link come before those that are left.
          | link target =>
            have hlink : ∀ step ∈ Disk.steps target ++ rest, step.IsProper :=
              List.forall_mem_append.2 ⟨fun _ => isProper_of_mem_steps, hrest⟩
            exact hfollow hplace hlink h
          | text content => exact hend (hp.file hplace hstep hshort hentry rfl) h
          | binary size => exact hend (hp.file hplace hstep hshort hentry rfl) h

/-- What steps preserve holds of the end of a way. -/
theorem IsPreserved.walk (hp : d.IsPreserved Passes Ends) {links : Nat} {steps : List Step}
    {found : Place × Bool} (hplace : Passes place) (hsteps : ∀ step ∈ steps, step.IsProper)
    (h : d.walk links place steps = .ok found) : Ends found := by
  induction links generalizing place steps found with
  | zero => exact hp.walkThrough (fun _ _ h => by cases h) hplace hsteps h
  | succ links ih => exact hp.walkThrough ih hplace hsteps h

/-- Steps from a directory that is reached from the root lead to such directories and their
files. -/
theorem isPreserved_holds (d : Disk) :
    d.IsPreserved d.Holds fun found => found.2 = true → d.Stands found.1 where
  root := .root
  up hplace := hplace.dropLast
  down := .down
  directory hplace _ := .directory hplace
  file hplace hname hshort hentry hfile _ := .file hplace hname hshort hentry hfile
  missing _ _ hhere := by cases hhere

/-- Steps along proper names lead to places of proper names. -/
theorem isPreserved_isProper (d : Disk) :
    d.IsPreserved (fun place => ∀ name ∈ place, name.IsProper)
      fun found => ∀ name ∈ found.1, name.IsProper where
  root := by simp
  up hplace name hname := hplace name (List.dropLast_subset _ hname)
  down hplace hname _ _ := List.forall_mem_append.2 ⟨hplace, List.forall_mem_singleton.2 hname⟩
  directory hplace := hplace
  file hplace hname _ _ _ := List.forall_mem_append.2 ⟨hplace, List.forall_mem_singleton.2 hname⟩
  missing hplace hname := List.forall_mem_append.2 ⟨hplace, List.forall_mem_singleton.2 hname⟩

/-- The names of a directory lead to it. -/
theorem Holds.walkThrough (h : d.Holds place)
    (follow : Place → List Step → Except SystemFault (Place × Bool)) (rest : List Step) :
    d.walkThrough follow [] (place.map .down ++ rest) = d.walkThrough follow place rest := by
  induction h generalizing rest with
  | root => rfl
  | down _ _ hshort hentry ih =>
    rw [List.map_append, List.append_assoc, ih]
    show d.walkThrough follow _ (_ :: rest) = _
    rw [Disk.walkThrough, if_neg (Nat.not_lt.2 hshort)]
    simp only [hentry]

/-- The names of a place that stands lead to it. -/
theorem Stands.walkThrough (h : d.Stands place)
    (follow : Place → List Step → Except SystemFault (Place × Bool)) :
    d.walkThrough follow [] (place.map .down) = .ok (place, true) := by
  cases h with
  | directory hplace =>
    have hway := hplace.walkThrough follow []
    rw [List.append_nil] at hway
    rw [hway, Disk.walkThrough]
  | @file _ _ entry hplace _ hshort hentry hfile =>
    rw [List.map_append, hplace.walkThrough]
    show d.walkThrough follow _ [_] = _
    rw [Disk.walkThrough, if_neg (Nat.not_lt.2 hshort)]
    cases entry with
    | text content => simp only [hentry, List.isEmpty_nil, if_true]
    | binary size => simp only [hentry, List.isEmpty_nil, if_true]
    | directory => cases hfile
    | link target => cases hfile

/-- The path of a place that stands leads to it from everywhere. -/
theorem Stands.walk_ofNames (h : d.Stands place) (links : Nat) (start : Place) :
    d.walk links start (steps (.ofNames place)) = .ok (place, true) := by
  have hsteps : steps (.ofNames place) =
      .root :: ((List.intercalate [Path.separator] place).splitOn Path.separator).map
        Step.ofPiece := rfl
  have hthrough : ∀ follow, d.walkThrough follow start (steps (.ofNames place)) =
      .ok (place, true) := by
    intro follow
    cases place with
    | nil => rfl
    | cons name names =>
      have hnames : (name :: names).map Step.ofPiece = (name :: names).map .down :=
        List.map_congr_left fun n hn => Step.ofPiece_of_isProper (h.isProper n hn)
      rw [hsteps, List.splitOn_intercalate _ (fun n hn => (h.isProper n hn).not_mem)
        (List.cons_ne_nil _ _), hnames, Disk.walkThrough]
      exact h.walkThrough follow
  cases links with
  | zero => exact hthrough _
  | succ links => exact hthrough _

/-! ### Where paths lead -/

/-- A path leads to a place if it is taken and the way along it ends there. -/
theorem resolve_eq_ok_iff {p : Path} :
    d.resolve p = .ok place ↔
      refusal? p = none ∧ d.walk maxLinks d.current (steps p) = .ok (place, true) := by
  rw [resolve, locate]
  cases refusal? p with
  | some fault => simp
  | none =>
    cases d.walk maxLinks d.current (steps p) with
    | error fault => simp
    | ok found =>
      obtain ⟨reached, here⟩ := found
      cases here <;> simp

/-! ### Normal forms -/

/-- The normal form of a path is the path itself or that of a place that stands, if the way along it
begins at the root or in a directory that is there. -/
theorem normalize_eq_or (d : Disk) {p : Path} (h : p.isAbsolute = true ∨ d.Holds d.current) :
    d.normalize p = p ∨ ∃ place, d.Stands place ∧ d.normalize p = .ofNames place := by
  rw [normalize]
  split
  · exact .inl rfl
  · split
    · rename_i place hwalk
      split
      · refine .inr ⟨place, ?_, rfl⟩
        rcases h with habsolute | hcurrent
        · have hroot : d.walk maxLinks [] (steps p) = .ok (place, true) := by
            rw [← hwalk, steps, if_pos habsolute]
            rfl
          exact d.isPreserved_holds.walk .root (fun _ => isProper_of_mem_steps) hroot rfl
        · exact d.isPreserved_holds.walk hcurrent (fun _ => isProper_of_mem_steps) hwalk rfl
      · exact .inl rfl
    · exact .inl rfl

/-- The path of a place that stands is in normal form. -/
theorem Stands.normalize (h : d.Stands place) :
    d.normalize (.ofNames place) = .ofNames place := by
  rw [Disk.normalize]
  split
  · rfl
  · rw [h.walk_ofNames]
    dsimp only
    split <;> rfl

/-- A path in normal form is its own normal form. -/
theorem normalize_normalize (d : Disk) {p : Path} (h : p.isAbsolute = true ∨ d.Holds d.current) :
    d.normalize (d.normalize p) = d.normalize p := by
  rcases d.normalize_eq_or h with heq | ⟨place, hstands, heq⟩
  · rw [heq, heq]
  · rw [heq, hstands.normalize]

end Disk

/-- The normal form of a plain path is plain. -/
theorem Path.IsPlain.normalize {p : Path} (h : p.IsPlain) (d : Disk) : (d.normalize p).IsPlain := by
  rcases d.normalize_eq_or (.inl h.isAbsolute) with heq | ⟨place, hstands, heq⟩
  · rwa [heq]
  · rw [heq]
    exact isPlain_ofNames hstands.isProper

end StructUnfold
