import StructUnfold.Proofs.Comment.Body

/-!
# Braces of a body

The end of a body is found by counting the braces in its code. The body without its comments is read
once more, and its braces are counted again. Both counts are of the same braces: the body begins and
ends outside comments, so its comments are told apart in it as they are in the whole text.

* `IsBalanced.count_lt`, `IsBalanced.count_eq`: the numbers of braces in a text in which they come in
  pairs.
* `foldlM_nextDepth_flatMap_space`: a text without comments has the braces of its code.
* `isBalanced_strip_of_extract`: the braces of a body without comments come in pairs.
-/

namespace StructUnfold.Block

open Text

/-! ### Counting braces -/

/-- Around more open braces a text does the same. -/
theorem foldlM_nextDepth_add {s : List Char} {depth depth' : Nat}
    (h : s.foldlM nextDepth depth = some depth') (more : Nat) :
    s.foldlM nextDepth (depth + more) = some (depth' + more) := by
  induction s generalizing depth with
  | nil =>
    obtain rfl := Option.some.inj h
    rfl
  | cons c s ih =>
    rw [List.foldlM_cons] at h ⊢
    obtain ⟨mid, hnext, hrest⟩ := Option.bind_eq_some_iff.1 h
    have hmore : nextDepth (depth + more) c = some (mid + more) := by
      refine nextDepth_eq_some_iff.2 ?_
      rcases nextDepth_eq_some_iff.1 hnext with ⟨hopen, rfl⟩ | ⟨hclose, rfl⟩ | ⟨hopen, hclose, rfl⟩
      · exact .inl ⟨hopen, Nat.add_right_comm _ _ _⟩
      · exact .inr (.inl ⟨hclose, Nat.add_right_comm _ _ _⟩)
      · exact .inr (.inr ⟨hopen, hclose, rfl⟩)
    rw [hmore]
    exact ih hrest

/-- Braces that come in pairs where none is open do so everywhere. -/
theorem isBalanced_iff {s : List Char} : IsBalanced s ↔ s.foldlM nextDepth 0 = some 0 := by
  refine ⟨fun h => h 0, fun h depth => ?_⟩
  have hmore := foldlM_nextDepth_add h depth
  rwa [Nat.zero_add] at hmore

/-- Before a closing brace more braces are opened than closed. -/
theorem IsBalanced.count_lt {front back : List Char} (h : IsBalanced (front ++ '}' :: back)) :
    front.count '}' < front.count '{' := by
  have hall := h 0
  rw [List.foldlM_append] at hall
  obtain ⟨depth, hfront, hback⟩ := Option.bind_eq_some_iff.1 hall
  have hcount := Comment.count_of_foldlM_nextDepth hfront
  have hpos : depth ≠ 0 := by
    rintro rfl
    cases hback
  omega

/-- As many braces are opened as closed. -/
theorem IsBalanced.count_eq {s : List Char} (h : IsBalanced s) : s.count '{' = s.count '}' := by
  have hcount := Comment.count_of_foldlM_nextDepth (h 0)
  omega

end StructUnfold.Block

namespace StructUnfold.Comment

open Text Block

/-! ### Braces of the code -/

/-- A text without comments has the braces of its code. -/
theorem foldlM_nextDepth_flatMap_space (m : List (Char × Kind)) (depth : Nat) :
    (m.flatMap space).foldlM nextDepth depth = (codeOf m).foldlM nextDepth depth := by
  induction m generalizing depth with
  | nil => rfl
  | cons x m ih =>
    obtain ⟨c, k⟩ := x
    cases k with
    | code =>
      rw [codeOf_cons_code, List.flatMap_cons, List.foldlM_append, List.foldlM_cons]
      show (nextDepth depth c >>= pure) >>= _ = _
      rw [bind_pure]
      exact bind_congr ih
    | opening =>
      -- The space in the place of a comment is no brace.
      rw [codeOf_cons_of_ne (by decide), List.flatMap_cons, List.foldlM_append]
      exact ih depth
    | inside =>
      rw [codeOf_cons_of_ne (by decide), List.flatMap_cons]
      exact ih depth

/-- White space holds no braces. -/
theorem isBalanced_codeOf_of_spaces {m : List (Char × Kind)}
    (h : ∀ x ∈ m, isAsciiSpace x.1 = true) : IsBalanced (codeOf m) := by
  have hspace : ∀ c ∈ codeOf m, isAsciiSpace c = true := by
    intro c hc
    obtain ⟨x, hx, rfl⟩ := List.mem_map.1 hc
    exact h x (List.mem_of_mem_filter hx)
  refine isBalanced_of_not_mem (fun hmem => ?_) fun hmem => ?_
  · exact absurd (hspace _ hmem) (by decide)
  · exact absurd (hspace _ hmem) (by decide)

/-- The text of a block whose code has its braces in pairs still has them so without white space at
its start and without comments. -/
theorem isBalanced_strip_dropWhile {m : List (Char × Kind)} (hm : m = kinds (m.map Prod.fst))
    (h : (codeOf m).foldlM nextDepth 0 = some 0) :
    IsBalanced (strip ((m.map Prod.fst).dropWhile isAsciiSpace)) := by
  obtain ⟨spaces, rest, -, rfl, -, -, hrest, -, hall, hhead, -⟩ :=
    Alike.exists_spaces (rfl : Alike m m) hm hm
  rw [codeOf_append, List.foldlM_append, isBalanced_codeOf_of_spaces hall] at h
  rw [(cut_spaces hall hhead).2, strip_eq_flatMap_space, ← hrest, isBalanced_iff,
    foldlM_nextDepth_flatMap_space]
  exact h

end StructUnfold.Comment

namespace StructUnfold.Block

open Text Comment

/-! ### The body that is found -/

/-- A block that is found is that of a brace behind white space. -/
theorem exists_brace_of_extract {options : Options} {text : List Char} {start : Nat} {span : Span}
    (h : extract options text start = .ok span) :
    ∃ before body, text = before ++ '{' :: body ∧
      extractAfterBrace options (byteSize before + 1) body = .ok span := by
  rw [extract] at h
  split at h
  · cases h
  · rename_i rest hdrop
    obtain ⟨front, rfl, rfl⟩ := dropBytes?_eq_some_iff.1 hdrop
    dsimp only at h
    split at h
    · rename_i body hbrace
      have hrest : rest = rest.takeWhile isAsciiSpace ++ '{' :: body := by
        rw [← hbrace, List.takeWhile_append_dropWhile]
      have hsize : byteSize (front ++ rest.takeWhile isAsciiSpace) =
          byteSize front + (rest.takeWhile isAsciiSpace).length := by
        rw [byteSize_append, byteSize_takeWhile_isAsciiSpace]
      refine ⟨front ++ rest.takeWhile isAsciiSpace, body, ?_, ?_⟩
      · rw [List.append_assoc, ← hrest]
      · rw [hsize]
        split at h
        · cases h
        · split at h
          · rename_i found hfound
            split at h
            · exact hfound.trans h
            · cases h
          · cases h
    · cases h

/-- The braces of a body that is found come in pairs when its comments are taken away. -/
theorem isBalanced_strip_of_extract {maxScan : Nat} {text : List Char} {start : Nat} {span : Span}
    (h : extract (.body maxScan) text start = .ok span) :
    IsBalanced (strip (span.text text)) := by
  obtain ⟨before, body, rfl, hextract⟩ := exists_brace_of_extract h
  have hkinds : kinds body = kinds ((kinds body).map Prod.fst) := by rw [map_fst_kinds]
  have hend := ends_seek_behind hkinds nextDepth 0 (byteSize before + 1)
  rw [map_fst_kinds] at hend
  simp only [extractAfterBrace, Options.body, Bool.false_eq_true, if_false] at hextract
  generalize seek true nextDepth .code 0 0 (byteSize before + 1) body = found at hend hextract
  cases hend with
  | exhausted last e passed left => cases e <;> cases hextract
  | stopped w c back last parts passed stops =>
    obtain rfl := eq_of_nextDepth_eq_none stops
    obtain rfl := eq_zero_of_nextDepth_eq_none stops
    -- The body lies between the braces, where it is read like a text of its own.
    have hbody : body = w.map Prod.fst ++ '}' :: back.map Prod.fst := by
      rw [← map_fst_kinds body, parts, List.map_append, List.map_cons]
    have hw : w = kinds (w.map Prod.fst) := by
      rw [hbody] at parts
      exact kindsFrom_eq_of_code parts rfl
    obtain rfl := Except.ok.inj hextract
    rw [hbody, text_body]
    exact isBalanced_strip_dropWhile hw passed

end StructUnfold.Block
