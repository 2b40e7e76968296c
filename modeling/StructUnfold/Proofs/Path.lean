import Mathlib.Data.List.Basic
import StructUnfold.Path

/-!
# Plain paths

A path is plain if it consists of names with one separator before each. No two plain paths have the
same components.

* `FileName.IsProper`: a name that is a component of a path by itself.
* `Path.IsPlain`: a plain path.
* `Path.components_pieces`: the components of a path that is put together from pieces.
* `Path.IsPlain.eq_of_same`: plain paths with the same components are equal.
* `Path.bytes_join`, `Path.fileName?_join`: a path that a name is joined to.
-/

namespace StructUnfold

/-- A name that is a component of a path by itself. -/
structure FileName.IsProper (name : FileName) : Prop where
  /-- It is not empty. -/
  ne_nil : name ≠ []
  /-- It does not stand for the directory it is in. -/
  ne_dot : name ≠ [Path.dot]
  /-- It does not stand for the directory above. -/
  ne_dots : name ≠ [Path.dot, Path.dot]
  /-- There is no separator in it. -/
  not_mem : Path.separator ∉ name

instance : DecidablePred FileName.IsProper := fun name =>
  decidable_of_iff
    (name ≠ [] ∧ name ≠ [Path.dot] ∧ name ≠ [Path.dot, Path.dot] ∧ Path.separator ∉ name)
    ⟨fun ⟨h₁, h₂, h₃, h₄⟩ => ⟨h₁, h₂, h₃, h₄⟩, fun ⟨h₁, h₂, h₃, h₄⟩ => ⟨h₁, h₂, h₃, h₄⟩⟩

namespace Path

/-- What is cut at a character holds that character nowhere. -/
theorem not_mem_of_mem_splitOn {α : Type} [BEq α] [LawfulBEq α] {x : α} {s piece : List α}
    (h : piece ∈ s.splitOn x) : x ∉ piece := by
  induction s generalizing piece with
  | nil =>
    obtain rfl : piece = [] := by simpa using h
    exact List.not_mem_nil
  | cons c s ih =>
    obtain ⟨first, rest, hsplit⟩ := List.exists_cons_of_ne_nil (List.splitOn_ne_nil x s)
    rw [List.splitOn_cons_eq_if_modifyHead, hsplit] at h
    rw [hsplit] at ih
    split at h
    · rcases List.mem_cons.1 h with rfl | h
      · exact List.not_mem_nil
      · exact ih h
    · rename_i hc
      rcases List.mem_cons.1 h with rfl | h
      · rw [List.mem_cons, not_or]
        exact ⟨fun heq => hc (by simp [heq]), ih List.mem_cons_self⟩
      · exact ih (List.mem_cons_of_mem _ h)

namespace Component

/-- The name that a component is, if it is one. -/
def name? : Component → Option FileName
  | name n => some n
  | _ => none

/-- The piece between two separators that is kept as a component. -/
theorem ofPiece?_of_isProper {piece : FileName} (h : piece.IsProper) :
    ofPiece? piece = some (name piece) := by
  rw [ofPiece?, if_neg (by simp [h.ne_nil, h.ne_dot]), if_neg (by simp [h.ne_dots])]

/-- A component that is a name is the piece it comes from. -/
theorem ofPiece?_eq_name {piece name : FileName} (h : ofPiece? piece = some (.name name))
    (hpiece : separator ∉ piece) : piece = name ∧ name.IsProper := by
  rw [ofPiece?] at h
  split at h
  · cases h
  · rename_i hfiller
    split at h
    · cases h
    · rename_i hdots
      obtain rfl : piece = name := by simpa using h
      simp only [Bool.or_eq_true, List.isEmpty_iff, beq_iff_eq, not_or] at hfiller hdots
      exact ⟨rfl, hfiller.1, hfiller.2, hdots, hpiece⟩

end Component

/-- The names on a path. -/
def names (p : Path) : List FileName :=
  p.components.filterMap Component.name?

/-- A path of names with one separator before each. -/
def IsPlain (p : Path) : Prop :=
  ofNames p.names = p

instance : DecidablePred IsPlain := fun p => inferInstanceAs (Decidable (ofNames p.names = p))

/-! ### Paths put together from pieces -/

/-- Pieces with a separator before each. -/
def joinPieces (pieces : List FileName) : List UInt8 :=
  pieces.flatMap fun piece => separator :: piece

theorem joinPieces_eq_intercalate {pieces : List FileName} (h : pieces ≠ []) :
    joinPieces pieces = separator :: List.intercalate [separator] pieces := by
  induction pieces with
  | nil => exact absurd rfl h
  | cons piece pieces ih =>
    rw [joinPieces, List.flatMap_cons, ← joinPieces]
    cases pieces with
    | nil => simp [joinPieces]
    | cons next pieces =>
      rw [ih (List.cons_ne_nil _ _), List.intercalate_cons_cons]
      simp

/-- The components of a path that is put together from pieces, a separator behind them or not. -/
theorem components_pieces {pieces : List FileName} (h : ∀ piece ∈ pieces, separator ∉ piece) :
    components ⟨separator :: List.intercalate [separator] pieces⟩ =
      .root :: pieces.filterMap Component.ofPiece? := by
  show [Component.root] ++ _ = _
  cases pieces with
  | nil => rfl
  | cons piece pieces =>
    show _ :: List.filterMap _ (List.splitOn separator (List.intercalate [separator] _)) = _
    rw [List.splitOn_intercalate separator h (List.cons_ne_nil _ _)]

theorem components_joinPieces {pieces : List FileName} (h : ∀ piece ∈ pieces, separator ∉ piece)
    (hne : pieces ≠ []) :
    components ⟨joinPieces pieces⟩ = .root :: pieces.filterMap Component.ofPiece? := by
  rw [joinPieces_eq_intercalate hne, components_pieces h]

variable {places : List FileName}

theorem filterMap_ofPiece? (h : ∀ name ∈ places, name.IsProper) :
    places.filterMap Component.ofPiece? = places.map .name := by
  rw [← List.filterMap_eq_map']
  exact List.filterMap_congr fun name hname => Component.ofPiece?_of_isProper (h name hname)

theorem components_ofNames (h : ∀ name ∈ places, name.IsProper) :
    (ofNames places).components = .root :: places.map .name := by
  rw [ofNames, components_pieces fun name hname => (h name hname).not_mem, filterMap_ofPiece? h]

theorem names_ofNames (h : ∀ name ∈ places, name.IsProper) : (ofNames places).names = places := by
  rw [names, components_ofNames h, List.filterMap_cons_none rfl, List.filterMap_map]
  exact List.filterMap_some

/-- Paths of proper names are told apart by these. -/
theorem same_ofNames {others : List FileName} (h : ∀ name ∈ places, name.IsProper)
    (hothers : ∀ name ∈ others, name.IsProper) :
    (ofNames places).same (ofNames others) = (places == others) := by
  rw [Bool.eq_iff_iff, same_eq_true_iff, beq_iff_eq]
  constructor
  · intro hsame
    rw [← names_ofNames h, ← names_ofNames hothers, names, names, hsame]
  · rintro rfl
    rfl

/-- A path of proper names is plain. -/
theorem isPlain_ofNames (h : ∀ name ∈ places, name.IsProper) : (ofNames places).IsPlain :=
  congrArg ofNames (names_ofNames h)

namespace IsPlain

variable {p q : Path}

/-- No two plain paths have the same components. -/
theorem eq_of_same (hp : p.IsPlain) (hq : q.IsPlain) (h : p.same q = true) : p = q := by
  have hnames : p.names = q.names :=
    congrArg (List.filterMap Component.name?) (same_eq_true_iff.1 h)
  exact hp.symm.trans ((congrArg ofNames hnames).trans hq)

theorem isAbsolute (h : p.IsPlain) : p.isAbsolute = true := by
  rw [← h]
  rfl

end IsPlain

/-! ### Paths that are joined -/

variable {p : Path} {name : FileName}

/-- The path without a separator at its end. -/
def stem (p : Path) : List UInt8 :=
  if p.bytes.getLast? = some separator then p.bytes.dropLast else p.bytes

theorem bytes_eq_or (p : Path) : p.bytes = p.stem ∨ p.bytes = p.stem ++ [separator] := by
  rw [stem]
  split
  · rename_i hlast
    obtain ⟨front, hfront⟩ := List.getLast?_eq_some_iff.1 hlast
    exact .inr (by rw [hfront, List.dropLast_concat])
  · exact .inl rfl

theorem isAbsolute_of_isProper (hname : name.IsProper) : isAbsolute ⟨name⟩ = false := by
  rw [isAbsolute, beq_eq_false_iff_ne]
  exact fun h => hname.not_mem (List.mem_of_head? h)

/-- A name is joined with one separator before it. -/
theorem bytes_join (hp : p.bytes ≠ []) (hname : name.IsProper) :
    (p.join ⟨name⟩).bytes = p.stem ++ separator :: name := by
  rw [join, if_neg (by simp [isAbsolute_of_isProper hname, hp]), stem]
  split
  · rename_i hlast
    rw [beq_iff_eq] at hlast
    rw [if_pos hlast]
    obtain ⟨front, hfront⟩ := List.getLast?_eq_some_iff.1 hlast
    simp [hfront]
  · rename_i hlast
    rw [beq_iff_eq] at hlast
    rw [if_neg hlast]

theorem bytes_join_ne_nil (hp : p.bytes ≠ []) (hname : name.IsProper) :
    (p.join ⟨name⟩).bytes ≠ [] := by
  rw [bytes_join hp hname]
  exact List.append_ne_nil_of_right_ne_nil _ (List.cons_ne_nil _ _)

/-- Nothing is at the end of a path that ends in a name. -/
theorem stem_join (hp : p.bytes ≠ []) (hname : name.IsProper) :
    (p.join ⟨name⟩).stem = (p.join ⟨name⟩).bytes := by
  rw [stem, if_neg]
  rw [bytes_join hp hname, List.getLast?_append_cons]
  intro hlast
  rw [List.getLast?_cons, Option.some_inj, List.getLast?_eq_some_getLast hname.ne_nil] at hlast
  exact hname.not_mem (hlast ▸ List.getLast_mem hname.ne_nil)

theorem isAbsolute_join (hp : p.bytes ≠ []) (hname : name.IsProper) :
    (p.join ⟨name⟩).isAbsolute = p.isAbsolute := by
  rw [isAbsolute, isAbsolute, bytes_join hp hname]
  rcases p.bytes_eq_or with heq | heq
  · rw [heq] at hp ⊢
    obtain ⟨b, bytes, hbytes⟩ := List.exists_cons_of_ne_nil hp
    rw [hbytes]
    rfl
  · rw [heq]
    cases p.stem <;> rfl

/-- The last piece of a path that ends in a name is that name. -/
theorem exists_splitRoot_append (hname : name.IsProper) (bytes : List UInt8) :
    ∃ start body pieces, splitRoot (bytes ++ separator :: name) = (start, body) ∧
      body.splitOn separator = pieces ++ [name] := by
  have hsplit : ∀ bytes : List UInt8, (bytes ++ separator :: name).splitOn separator =
      bytes.splitOn separator ++ [name] := fun bytes => by
    rw [List.splitOn_append_cons_self, List.splitOn_eq_singleton hname.not_mem]
  cases bytes with
  | nil => exact ⟨[.root], name, [], rfl, List.splitOn_eq_singleton hname.not_mem⟩
  | cons b bytes =>
    rw [List.cons_append, splitRoot]
    split
    · exact ⟨_, _, _, rfl, hsplit bytes⟩
    · split
      · exact ⟨_, _, _, rfl, hsplit bytes⟩
      · exact ⟨_, _, _, rfl, hsplit (b :: bytes)⟩

/-- A path that ends in a name has this name. -/
theorem fileName?_join (hp : p.bytes ≠ []) (hname : name.IsProper) :
    (p.join ⟨name⟩).fileName? = some name := by
  obtain ⟨start, body, pieces, hroot, hbody⟩ := exists_splitRoot_append hname p.stem
  have hcomponents : (p.join ⟨name⟩).components =
      (start ++ pieces.filterMap Component.ofPiece?) ++ [.name name] := by
    rw [components, bytes_join hp hname, hroot]
    simp [hbody, Component.ofPiece?_of_isProper hname]
  rw [fileName?, hcomponents, List.getLast?_concat]

end Path

end StructUnfold
