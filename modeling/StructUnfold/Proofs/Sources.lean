import StructUnfold.Sources

/-!
# Texts held in memory

The text of a file is the one put last under a path with the same components.
-/

namespace StructUnfold

/-- A path is compared in the same way with paths that are the same. -/
theorem Path.same_congr_right {p q : Path} (h : p.same q = true) (r : Path) :
    r.same p = r.same q := by
  rw [same_comm, same_congr h, same_comm]

namespace Sources

/-- The text of a file depends on the components of its path alone. -/
theorem get?_congr (s : Sources) {p q : Path} (h : p.same q = true) : s.get? p = s.get? q := by
  simp only [get?, Path.same_congr_right h]

/-- A file that is replaced where it stands is found under the same paths as before. -/
theorem get?_replace (s : Sources) (path other : Path) (text : List Char) :
    get? ⟨s.files.map fun f => if f.1.same path then (f.1, text) else f⟩ other =
      (s.files.find? fun f => f.1.same other).map fun f =>
        if f.1.same path then text else f.2 := by
  have hfind : (fun f : Path × List Char => f.1.same other) ∘
      (fun f : Path × List Char => if f.1.same path then (f.1, text) else f) =
        fun f => f.1.same other := by
    funext f
    show (if f.1.same path then (f.1, text) else f).1.same other = f.1.same other
    split <;> rfl
  rw [get?, List.find?_map, hfind, Option.map_map]
  refine congrArg (fun g => Option.map g _) ?_
  funext f
  show (if f.1.same path then (f.1, text) else f).2 = _
  split <;> rfl

/-- A file that is put has the text it was put with. -/
theorem get?_put_self (s : Sources) (path : Path) (text : List Char) :
    (s.put path text).get? path = some text := by
  rw [put]
  split
  · -- The file is replaced where it stands, under the path it was put under first.
    rename_i hsome
    rw [get?, Option.isSome_map] at hsome
    obtain ⟨f, hf⟩ := Option.isSome_iff_exists.1 hsome
    have hfsame : f.1.same path = true := by simpa using List.find?_some hf
    rw [get?_replace, hf, Option.map_some, if_pos hfsame]
  · rename_i hnone
    rw [get?, Option.isSome_map] at hnone
    have hnew : [(path, text)].find? (fun f => f.1.same path) = some (path, text) :=
      List.find?_cons_of_pos (Path.same_refl path)
    rw [get?, List.find?_append, Option.not_isSome_iff_eq_none.1 hnone, Option.none_or, hnew,
      Option.map_some]

/-- All other files keep their texts. -/
theorem get?_put_of_differ (s : Sources) {path other : Path} (h : path.same other = false)
    (text : List Char) : (s.put path text).get? other = s.get? other := by
  rw [put]
  split
  · rw [get?_replace, get?]
    cases hf : s.files.find? fun f => f.1.same other with
    | none => rfl
    | some f =>
      have hfsame : f.1.same other = true := by simpa using List.find?_some hf
      -- The file that is found is not the one that is replaced.
      have hfpath : ¬f.1.same path = true := by
        rw [Path.same_congr hfsame, Path.same_comm, h]
        exact Bool.false_ne_true
      rw [Option.map_some, Option.map_some, if_neg hfpath]
  · rw [get?, List.find?_append, List.find?_cons_of_neg (by simp [h]), List.find?_nil,
      Option.or_none, get?]

/-- Putting a file sets the text of its path and keeps all others. -/
theorem get?_put (s : Sources) (path other : Path) (text : List Char) :
    (s.put path text).get? other = if path.same other then some text else s.get? other := by
  by_cases h : path.same other = true
  · rw [if_pos h, ← get?_congr _ h, get?_put_self]
  · rw [if_neg h, get?_put_of_differ _ (Bool.eq_false_iff.2 h)]

@[simp] theorem get?_empty (path : Path) : empty.get? path = none := rfl

@[simp] theorem ofList_concat (files : List (Path × List Char)) (file : Path × List Char) :
    ofList (files ++ [file]) = (ofList files).put file.1 file.2 := by
  simp [ofList]

/-- Of several texts for one path the last one is held. -/
theorem get?_ofList (files : List (Path × List Char)) (path : Path) :
    (ofList files).get? path = (files.reverse.find? fun f => f.1.same path).map Prod.snd := by
  induction hreverse : files.reverse generalizing files with
  | nil =>
    rw [List.reverse_eq_nil_iff.1 hreverse]
    rfl
  | cons file others ih =>
    have hfiles : files = others.reverse ++ [file] := by
      rw [← List.reverse_reverse files, hreverse, List.reverse_cons]
    have hothers := ih others.reverse (List.reverse_reverse others)
    rw [hfiles, ofList_concat, get?_put, hothers, List.find?_cons]
    cases file.1.same path <;> simp

/-- A text that is held is the one of some file. -/
theorem exists_mem_of_get?_ofList {files : List (Path × List Char)} {path : Path}
    {text : List Char} (h : (ofList files).get? path = some text) :
    ∃ file ∈ files, file.2 = text := by
  rw [get?_ofList] at h
  obtain ⟨file, hfind, htext⟩ := Option.map_eq_some_iff.1 h
  exact ⟨file, List.mem_reverse.1 (List.mem_of_find?_eq_some hfind), htext⟩

/-- Of different files each one is held. -/
theorem get?_ofList_of_mem {files : List (Path × List Char)}
    (hpaths : files.Pairwise fun f g => f.1.same g.1 = false) {file : Path × List Char}
    (hfile : file ∈ files) : (ofList files).get? file.1 = some file.2 := by
  have hfind : files.reverse.find? (fun f => f.1.same file.1) = some file := by
    obtain ⟨before, after, rfl⟩ := List.append_of_mem hfile
    obtain ⟨-, hlater, -⟩ := List.pairwise_append.1 hpaths
    have hafter : ∀ f ∈ after.reverse, ¬f.1.same file.1 = true := by
      intro f hf
      rw [Path.same_comm, (List.pairwise_cons.1 hlater).1 f (List.mem_reverse.1 hf)]
      exact Bool.false_ne_true
    rw [List.reverse_append, List.reverse_cons, List.append_assoc, List.find?_append,
      List.find?_eq_none.2 hafter, Option.none_or, List.singleton_append]
    exact List.find?_cons_of_pos (Path.same_refl _)
  rw [get?_ofList, hfind, Option.map_some]

/-- The reader gives the text that is held, each time it is asked. -/
theorem reader_eq_ok_iff {s : Sources} {reads : Nat} {path : Path} {text : List Char} :
    s.reader reads path = .ok text ↔ s.get? path = some text := by
  rw [reader]
  split
  · rename_i found h
    rw [h, Except.ok.injEq, Option.some.injEq]
  · rename_i h
    rw [h]
    simp only [reduceCtorEq]

end Sources

end StructUnfold
