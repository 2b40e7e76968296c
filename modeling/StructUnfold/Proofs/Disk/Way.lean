import StructUnfold.Proofs.Disk

/-!
# Ways that go on

A way along a path that leads to a directory goes on from there, with those links left to be
followed that the way has not used up. So of two paths to one directory, the one that is the
beginning of the other leads wherever the other does.

## Main definitions

* `Disk.Goes`: a way and the number of links that are followed on it.
* `Disk.front`: the steps to what a path leads to, a separator at its end aside.
* `Disk.LeadsAsFar`: a path leads wherever another one does.

## Main results

* `Disk.walk_eq_ok_iff`: a walk arrives if the way takes no more links than it may.
* `Disk.Goes.of_append`: what is left of a way behind a directory on it.
* `Disk.LeadsAsFar.of_prefix`: the beginning of a path to the same directory leads as far.
-/

namespace StructUnfold

namespace Disk

/-- A way leads from a place along steps to where it ends, and so many links are followed on it. -/
inductive Goes (d : Disk) : Nat → Place → List Step → Place × Bool → Prop where
  /-- A way without steps. -/
  | nil {place : Place} : Goes d 0 place [] (place, true)
  /-- A step to the root. -/
  | root {links : Nat} {place : Place} {rest : List Step} {found : Place × Bool}
      (h : Goes d links [] rest found) : Goes d links place (.root :: rest) found
  /-- A step that stays. -/
  | stay {links : Nat} {place : Place} {rest : List Step} {found : Place × Bool}
      (h : Goes d links place rest found) : Goes d links place (.stay :: rest) found
  /-- A step to the directory above. -/
  | up {links : Nat} {place : Place} {rest : List Step} {found : Place × Bool}
      (h : Goes d links place.dropLast rest found) : Goes d links place (.up :: rest) found
  /-- A step into a directory. -/
  | down {links : Nat} {place : Place} {name : FileName} {rest : List Step}
      {found : Place × Bool} (hshort : name.length ≤ maxNameBytes)
      (hentry : d.entryAt? (place ++ [name]) = some .directory)
      (h : Goes d links (place ++ [name]) rest found) :
      Goes d links place (.down name :: rest) found
  /-- A step to a link, which is followed. -/
  | link {links : Nat} {place : Place} {name : FileName} {target : Path} {rest : List Step}
      {found : Place × Bool} (hshort : name.length ≤ maxNameBytes)
      (hentry : d.entryAt? (place ++ [name]) = some (.link target))
      (h : Goes d links place (steps target ++ rest) found) :
      Goes d (links + 1) place (.down name :: rest) found
  /-- A last step to a file. -/
  | file {place : Place} {name : FileName} {entry : DiskEntry}
      (hshort : name.length ≤ maxNameBytes) (hentry : d.entryAt? (place ++ [name]) = some entry)
      (hfile : entry.isFile = true) : Goes d 0 place [.down name] (place ++ [name], true)
  /-- A last step to where nothing stands. -/
  | missing {place : Place} {name : FileName} (hshort : name.length ≤ maxNameBytes)
      (hentry : d.entryAt? (place ++ [name]) = none) :
      Goes d 0 place [.down name] (place ++ [name], false)

section

variable {d : Disk} {links : Nat} {place target : Place} {steps tail : List Step}
  {found : Place × Bool}

theorem walk_down (d : Disk) (links : Nat) (place : Place) (name : FileName) (rest : List Step) :
    d.walk links place (.down name :: rest) =
      if maxNameBytes < name.length then .error .nameTooLong
      else match d.entryAt? (place ++ [name]) with
        | none => if rest.isEmpty then .ok (place ++ [name], false) else .error .notFound
        | some .directory => d.walk links (place ++ [name]) rest
        | some (.link target) =>
          match links with
          | 0 => .error .linkLoop
          | links + 1 => d.walk links place (Disk.steps target ++ rest)
        | some (.text _) =>
          if rest.isEmpty then .ok (place ++ [name], true) else .error .notADirectory
        | some (.binary _) =>
          if rest.isEmpty then .ok (place ++ [name], true) else .error .notADirectory := by
  cases links <;> rfl

/-- What comes out where only the last step may lead. -/
theorem eq_of_ite_isEmpty {rest : List Step} {reached : Place × Bool} {fault : SystemFault}
    (h : (if rest.isEmpty then Except.ok reached else Except.error fault) = .ok found) :
    rest = [] ∧ reached = found := by
  split at h
  · rename_i hempty
    exact ⟨List.isEmpty_iff.1 hempty, Except.ok.inj h⟩
  · cases h

theorem Goes.walk_eq (h : d.Goes links place steps found) {most : Nat} (hle : links ≤ most) :
    d.walk most place steps = .ok found := by
  induction h generalizing most with
  | nil => cases most <;> rfl
  | root _ ih | stay _ ih | up _ ih =>
    rw [← ih hle]
    cases most <;> rfl
  | down hshort hentry _ ih =>
    rw [walk_down, if_neg (Nat.not_lt.2 hshort), hentry]
    exact ih hle
  -- A link takes one of the hops that are allowed.
  | link hshort hentry _ ih =>
    obtain ⟨most, rfl⟩ := Nat.exists_eq_add_of_le' (Nat.le_trans (Nat.le_add_left 1 _) hle)
    rw [walk_down, if_neg (Nat.not_lt.2 hshort), hentry]
    exact ih (Nat.le_of_succ_le_succ hle)
  | @file _ _ entry hshort hentry hfile =>
    rw [walk_down, if_neg (Nat.not_lt.2 hshort), hentry]
    cases entry with
    | text => rfl
    | binary => rfl
    | directory => cases hfile
    | link => cases hfile
  | missing hshort hentry =>
    rw [walk_down, if_neg (Nat.not_lt.2 hshort), hentry]
    rfl

theorem exists_goes_of_walk {most : Nat} (h : d.walk most place steps = .ok found) :
    ∃ links ≤ most, d.Goes links place steps found := by
  -- The number of links comes first: behind a link there may be more steps than before.
  induction most using Nat.strongRecOn generalizing place steps with
  | ind most ihMost =>
    induction steps generalizing place with
    | nil =>
      have hnil : d.walk most place [] = .ok (place, true) := Goes.nil.walk_eq (Nat.zero_le _)
      obtain rfl := Except.ok.inj (hnil.symm.trans h)
      exact ⟨0, Nat.zero_le _, .nil⟩
    | cons step rest ih =>
      cases step with
      | root =>
        obtain ⟨links, hle, hgoes⟩ := @ih [] (by cases most <;> exact h)
        exact ⟨links, hle, .root hgoes⟩
      | stay =>
        obtain ⟨links, hle, hgoes⟩ := @ih place (by cases most <;> exact h)
        exact ⟨links, hle, .stay hgoes⟩
      | up =>
        obtain ⟨links, hle, hgoes⟩ := @ih place.dropLast (by cases most <;> exact h)
        exact ⟨links, hle, .up hgoes⟩
      | down name =>
        rw [walk_down] at h
        split at h
        · cases h
        rename_i hlong
        have hshort := Nat.le_of_not_lt hlong
        split at h
        · rename_i hentry
          obtain ⟨rfl, rfl⟩ := eq_of_ite_isEmpty h
          exact ⟨0, Nat.zero_le _, .missing hshort hentry⟩
        · rename_i hentry
          obtain ⟨links, hle, hgoes⟩ := ih h
          exact ⟨links, hle, .down hshort hentry hgoes⟩
        · rename_i target hentry
          cases most with
          | zero => cases h
          | succ most =>
            obtain ⟨links, hle, hgoes⟩ := ihMost most (Nat.lt_succ_self _) h
            exact ⟨links + 1, Nat.succ_le_succ hle, .link hshort hentry hgoes⟩
        · rename_i hentry
          obtain ⟨rfl, rfl⟩ := eq_of_ite_isEmpty h
          exact ⟨0, Nat.zero_le _, .file hshort hentry rfl⟩
        · rename_i hentry
          obtain ⟨rfl, rfl⟩ := eq_of_ite_isEmpty h
          exact ⟨0, Nat.zero_le _, .file hshort hentry rfl⟩

/-- A walk arrives if the way takes no more links than it may. -/
theorem walk_eq_ok_iff {most : Nat} :
    d.walk most place steps = .ok found ↔ ∃ links ≤ most, d.Goes links place steps found :=
  ⟨exists_goes_of_walk, fun ⟨_, hle, h⟩ => h.walk_eq hle⟩

namespace Goes

/-- A way goes on from where it leads to. -/
theorem append {more : Nat} (h : d.Goes links place steps (target, true))
    (hentry : d.entryAt? target = some .directory) (htail : d.Goes more target tail found) :
    d.Goes (links + more) place (steps ++ tail) found := by
  generalize hend : (target, true) = reached at h
  induction h with
  | nil =>
    obtain ⟨rfl, -⟩ := Prod.mk.inj hend
    rwa [Nat.zero_add]
  | root _ ih => exact .root (ih hend)
  | stay _ ih => exact .stay (ih hend)
  | up _ ih => exact .up (ih hend)
  | down hshort hdirectory _ ih => exact .down hshort hdirectory (ih hend)
  | link hshort hlink _ ih =>
    have hbehind := ih hend
    rw [List.append_assoc] at hbehind
    rw [Nat.add_right_comm]
    exact .link hshort hlink hbehind
  | file _ hplace hfile =>
    obtain ⟨rfl, -⟩ := Prod.mk.inj hend
    obtain rfl := Option.some.inj (hentry.symm.trans hplace)
    cases hfile
  | missing => cases (Prod.mk.inj hend).2

/-- A step down leads into a directory, to a link, or ends the way. -/
theorem down_cases {name : FileName} {rest : List Step}
    (h : d.Goes links place (.down name :: rest) found) :
    d.entryAt? (place ++ [name]) = some .directory ∧ d.Goes links (place ++ [name]) rest found ∨
    (∃ fewer target, links = fewer + 1 ∧ d.entryAt? (place ++ [name]) = some (.link target) ∧
      d.Goes fewer place (Disk.steps target ++ rest) found) ∨
    rest = [] ∧ ∀ entry, d.entryAt? (place ++ [name]) = some entry → entry.isFile = true := by
  cases h with
  | down _ hentry h => exact .inl ⟨hentry, h⟩
  | link _ hentry h => exact .inr (.inl ⟨_, _, rfl, hentry, h⟩)
  | file _ hentry hfile =>
    refine .inr (.inr ⟨rfl, fun entry heq => ?_⟩)
    obtain rfl := Option.some.inj (hentry.symm.trans heq)
    exact hfile
  | missing _ hentry => exact .inr (.inr ⟨rfl, fun entry heq => by cases hentry.symm.trans heq⟩)

/-- What is left of a way behind a directory on it. -/
theorem of_append {all : Nat} (h : d.Goes links place steps (target, true))
    (hentry : d.entryAt? target = some .directory) (hall : d.Goes all place (steps ++ tail) found) :
    ∃ more, all = links + more ∧ d.Goes more target tail found := by
  generalize hend : (target, true) = reached at h
  -- By induction on the way to the directory: the longer way takes the same steps.
  induction h generalizing all with
  | nil =>
    obtain ⟨rfl, -⟩ := Prod.mk.inj hend
    exact ⟨all, (Nat.zero_add _).symm, hall⟩
  | root _ ih =>
    cases hall with
    | root hall => exact ih hall hend
  | stay _ ih =>
    cases hall with
    | stay hall => exact ih hall hend
  | up _ ih =>
    cases hall with
    | up hall => exact ih hall hend
  | down _ hdirectory _ ih =>
    rcases hall.down_cases with ⟨-, hall⟩ | ⟨_, _, -, hlink, -⟩ | ⟨-, hfile⟩
    · exact ih hall hend
    · cases hdirectory.symm.trans hlink
    · cases hfile _ hdirectory
  | link _ hlink _ ih =>
    rcases hall.down_cases with ⟨hdirectory, -⟩ | ⟨fewer, _, rfl, hentry, hall⟩ | ⟨-, hfile⟩
    · cases hdirectory.symm.trans hlink
    · obtain ⟨rfl⟩ := hlink.symm.trans hentry
      have hbehind : d.Goes fewer _ ((Disk.steps _ ++ _) ++ tail) found :=
        (List.append_assoc _ _ _).symm ▸ hall
      obtain ⟨more, rfl, hmore⟩ := ih hbehind hend
      exact ⟨more, Nat.add_right_comm _ _ _, hmore⟩
    · cases hfile _ hlink
  -- The way ends at a directory, so it ends at no file.
  | file _ hplace hfile =>
    obtain ⟨rfl, -⟩ := Prod.mk.inj hend
    obtain rfl := Option.some.inj (hentry.symm.trans hplace)
    cases hfile
  | missing => cases (Prod.mk.inj hend).2

/-- Of steps that are followed by one that stays, the first one comes off. -/
theorem exists_of_concat_stay {step : Step} {rest : List Step}
    (h : steps ++ [.stay] = step :: rest) (hstep : step ≠ .stay) :
    ∃ front, steps = step :: front ∧ front ++ [.stay] = rest := by
  rcases List.append_eq_cons_iff.1 h with ⟨-, heq⟩ | ⟨front, hfront, heq⟩
  · exact absurd (List.cons.inj heq).1 hstep.symm
  · exact ⟨front, hfront, heq.symm⟩

/-- A last step that stays changes nothing. -/
theorem of_concat_stay (h : d.Goes links place (steps ++ [.stay]) found) :
    d.Goes links place steps found := by
  generalize hsteps : steps ++ [.stay] = all at h
  induction h generalizing steps with
  | nil => cases List.append_ne_nil_of_right_ne_nil steps (List.cons_ne_nil _ _) hsteps
  | root _ ih =>
    obtain ⟨front, rfl, hfront⟩ := exists_of_concat_stay hsteps nofun
    exact .root (ih hfront)
  | stay h ih =>
    -- The step that stays may be the last one itself.
    rcases List.append_eq_cons_iff.1 hsteps with ⟨rfl, heq⟩ | ⟨front, rfl, heq⟩
    · cases heq
      exact h
    · exact .stay (ih heq.symm)
  | up _ ih =>
    obtain ⟨front, rfl, hfront⟩ := exists_of_concat_stay hsteps nofun
    exact .up (ih hfront)
  | down hshort hentry _ ih =>
    obtain ⟨front, rfl, hfront⟩ := exists_of_concat_stay hsteps nofun
    exact .down hshort hentry (ih hfront)
  | link hshort hentry _ ih =>
    obtain ⟨front, rfl, hfront⟩ := exists_of_concat_stay hsteps nofun
    refine .link hshort hentry (ih ?_)
    rw [List.append_assoc, hfront]
  -- The way would have to end behind its last step but one.
  | file | missing =>
    obtain ⟨front, -, hfront⟩ := exists_of_concat_stay hsteps nofun
    cases List.append_ne_nil_of_right_ne_nil front (List.cons_ne_nil _ _) hfront

end Goes

end

/-! ### Paths that are joined -/

variable {d : Disk} {place : Place} {p q : Path} {name : FileName}

/-- The steps to what a path leads to, a separator at its end aside. -/
def front (p : Path) : List Step :=
  let pieces := (p.stem.splitOn Path.separator).map Step.ofPiece
  if p.isAbsolute then .root :: pieces.drop 1 else pieces

/-- A first piece is always there, so that what is put behind it is not dropped. -/
theorem drop_one_splitOn_append (bytes : List UInt8) (more : List Step) :
    ((bytes.splitOn Path.separator).map Step.ofPiece ++ more).drop 1 =
      ((bytes.splitOn Path.separator).map Step.ofPiece).drop 1 ++ more := by
  refine List.drop_append_of_le_length ?_
  rw [List.length_map]
  exact List.length_pos_iff.2 (List.splitOn_ne_nil _ _)

theorem steps_join (hp : p.bytes ≠ []) (hname : name.IsProper) :
    steps (p.join ⟨name⟩) = front p ++ [.down name] := by
  rw [steps, front, Path.isAbsolute_join hp hname, Path.bytes_join hp hname,
    List.splitOn_append_cons_self, List.splitOn_eq_singleton hname.not_mem, List.map_append,
    List.map_singleton, Step.ofPiece_of_isProper hname]
  split
  · rw [drop_one_splitOn_append, List.cons_append]
  · rfl

theorem front_join (hp : p.bytes ≠ []) (hname : name.IsProper) :
    front (p.join ⟨name⟩) = front p ++ [.down name] := by
  rw [← steps_join hp hname, front, Path.stem_join hp hname, steps]

theorem steps_eq_or (p : Path) : steps p = front p ∨ steps p = front p ++ [.stay] := by
  rw [steps, front]
  rcases p.bytes_eq_or with heq | heq
  · rw [heq]
    exact .inl rfl
  · rw [heq, List.splitOn_append_cons_self, List.splitOn_nil, List.map_append]
    split
    · exact .inr (by rw [drop_one_splitOn_append, List.cons_append]; rfl)
    · exact .inr rfl

/-! ### Paths that lead as far as others -/

/-- A path leads, by way of what it leads to, wherever another one does. -/
def LeadsAsFar (d : Disk) (p q : Path) : Prop :=
  ∀ rest found, d.walk maxLinks d.current (front q ++ rest) = .ok found →
    d.walk maxLinks d.current (front p ++ rest) = .ok found

theorem LeadsAsFar.refl (d : Disk) (p : Path) : d.LeadsAsFar p p :=
  fun _ _ h => h

theorem LeadsAsFar.trans {r : Path} (hp : d.LeadsAsFar p q) (hq : d.LeadsAsFar q r) :
    d.LeadsAsFar p r :=
  fun rest found h => hp rest found (hq rest found h)

theorem LeadsAsFar.join (h : d.LeadsAsFar p q) (hp : p.bytes ≠ []) (hq : q.bytes ≠ [])
    (hname : name.IsProper) : d.LeadsAsFar (p.join ⟨name⟩) (q.join ⟨name⟩) := by
  intro rest found hfound
  rw [front_join hq hname, List.append_assoc] at hfound
  rw [front_join hp hname, List.append_assoc]
  exact h _ _ hfound

/-- The beginning of a path that leads to the same directory takes no more links. -/
theorem LeadsAsFar.of_prefix (hpre : front p <+: front q)
    (hp : d.walk maxLinks d.current (front p) = .ok (place, true))
    (hq : d.walk maxLinks d.current (front q) = .ok (place, true))
    (hentry : d.entryAt? place = some .directory) : d.LeadsAsFar p q := by
  obtain ⟨extra, hextra⟩ := hpre
  obtain ⟨few, -, hgoes⟩ := walk_eq_ok_iff.1 hp
  obtain ⟨many, -, hlong⟩ := walk_eq_ok_iff.1 hq
  intro rest found hfound
  obtain ⟨all, hall, hrest⟩ := walk_eq_ok_iff.1 hfound
  -- Behind the place, both ways go on alike.
  obtain ⟨more, rfl, hbehind⟩ := hlong.of_append hentry hrest
  rw [← hextra] at hlong
  obtain ⟨loop, rfl, -⟩ := hgoes.of_append hentry hlong
  exact walk_eq_ok_iff.2 ⟨few + more, by omega, hgoes.append hentry hbehind⟩

/-- A path that is taken is not empty. -/
theorem ne_nil_of_refusal? (h : refusal? p = none) : p.bytes ≠ [] := by
  intro hp
  rw [refusal?, hp] at h
  cases h

/-- A path whose bytes are among those of one that is taken is taken as well. -/
theorem refusal?_of_sublist (h : refusal? q = none) (hp : p.bytes ≠ [])
    (hsub : p.bytes.Sublist q.bytes) : refusal? p = none := by
  rw [refusal?] at h ⊢
  split at h
  · cases h
  rename_i hnul
  split at h
  · cases h
  split at h
  · cases h
  rename_i hlong
  have hfree : (0 : UInt8) ∉ p.bytes := fun hmem =>
    hnul (List.contains_iff_mem.2 (hsub.mem hmem))
  rw [if_neg (by simpa using hfree), if_neg (by simpa using hp),
    if_neg fun hlt => hlong (Nat.lt_of_lt_of_le hlt hsub.length_le)]

/-- What a path leads to is led to without a separator at its end as well. -/
theorem walk_front_of_resolve (h : d.resolve p = .ok place) :
    d.walk maxLinks d.current (front p) = .ok (place, true) := by
  have hwalk := (resolve_eq_ok_iff.1 h).2
  rcases steps_eq_or p with heq | heq
  · rwa [heq] at hwalk
  · rw [heq] at hwalk
    obtain ⟨links, hle, hgoes⟩ := walk_eq_ok_iff.1 hwalk
    exact hgoes.of_concat_stay.walk_eq hle

/-- If a path leads to something by a name, a path that leads as far and is no longer does so
too. -/
theorem LeadsAsFar.resolve_join (h : d.LeadsAsFar p q) (hp : p.bytes ≠ []) (hq : q.bytes ≠ [])
    (hname : name.IsProper) (hsub : p.stem.Sublist q.stem)
    (hresolve : d.resolve (q.join ⟨name⟩) = .ok place) :
    d.resolve (p.join ⟨name⟩) = .ok place := by
  obtain ⟨htaken, hwalk⟩ := resolve_eq_ok_iff.1 hresolve
  refine resolve_eq_ok_iff.2 ⟨?_, ?_⟩
  · refine refusal?_of_sublist htaken (Path.bytes_join_ne_nil hp hname) ?_
    rw [Path.bytes_join hp hname, Path.bytes_join hq hname]
    exact hsub.append (.refl _)
  · rw [steps_join hq hname] at hwalk
    rw [steps_join hp hname]
    exact h _ _ hwalk

end Disk

end StructUnfold
