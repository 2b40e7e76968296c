import StructUnfold.Proofs.Path
import StructUnfold.Uri.Basic

/-!
# URIs of files

The URI that names the file of a path leads back to that file.

* `decode_encodeBytes`: what is encoded in percent encoding is read back.
* `exists_toFilePath?_eq`: the URI of a path names a path with the same components.
-/

namespace StructUnfold.Uri

/-! ### Percent encoding -/

theorem hexDigit?_upperHex {n : Nat} (h : n < 16) : Json.hexDigit? (upperHex n) = some n := by
  revert n
  decide

/-- A byte in percent encoding is read back. -/
theorem decode_encodeByte (b : UInt8) (cs : List Char) :
    decode (encodeByte b ++ cs) = b :: decode cs := by
  have hlt := b.toNat_lt
  have hhigh := hexDigit?_upperHex (n := b.toNat / 16) (by omega)
  have hlow := hexDigit?_upperHex (n := b.toNat % 16) (by omega)
  have hb : UInt8.ofNat (b.toNat / 16 * 16 + b.toNat % 16) = b := by
    rw [Nat.div_add_mod', UInt8.ofNat_toNat]
  show decode ('%' :: _ :: _ :: cs) = _
  rw [decode, hhigh, hlow]
  exact congrArg (· :: decode cs) hb

/-- A character that is no control is one byte long. -/
theorem utf8_of_not_isControl {b : UInt8} (h : isControl b = false) :
    Text.utf8 (String.singleton (Char.ofNat b.toNat)) = [b] := by
  have hall : ∀ n < 256, isControl (UInt8.ofNat n) = false →
      Text.utf8 (String.singleton (Char.ofNat (UInt8.ofNat n).toNat)) = [UInt8.ofNat n] := by
    decide +kernel
  have hb := hall b.toNat b.toNat_lt
  rw [UInt8.ofNat_toNat] at hb
  exact hb h

/-- What is encoded in percent encoding is read back, if the percent sign is encoded. -/
theorem decode_encodeBytes {p : Char → Bool} (hp : p '%' = true) (bytes : List UInt8) :
    decode (encodeBytes p bytes) = bytes := by
  induction bytes with
  | nil => rfl
  | cons b bytes ih =>
    rw [encodeBytes, List.flatMap_cons, ← encodeBytes]
    dsimp only
    split
    · rw [decode_encodeByte, ih]
    · rename_i hplain
      rw [Bool.or_eq_true, not_or, Bool.not_eq_true] at hplain
      have hne : Char.ofNat b.toNat ≠ '%' := fun heq => hplain.2 (heq ▸ hp)
      rw [List.singleton_append, decode, utf8_of_not_isControl hplain.1, ih]
      · rfl
      · exact fun _ _ _ heq => absurd heq hne

/-! ### Paths in URIs -/

open StructUnfold.Path

/-- The component of a piece is written in a URI so that the piece is read back. -/
theorem exists_segmentOf? {piece : FileName} {component : Component}
    (h : Component.ofPiece? piece = some component) (hpiece : separator ∉ piece) :
    ∃ segment, segmentOf? component = some segment ∧ decode segment.toList = piece := by
  cases component with
  | name name =>
    obtain ⟨rfl, -⟩ := Component.ofPiece?_eq_name h hpiece
    refine ⟨_, rfl, ?_⟩
    rw [String.toList_ofList, decode_encodeBytes rfl]
  | parent =>
    refine ⟨"..", rfl, ?_⟩
    rw [Component.ofPiece?] at h
    split at h
    · cases h
    · split at h
      · rename_i hdots
        exact (beq_iff_eq.1 hdots).symm
      · cases h
  | root =>
    rw [Component.ofPiece?] at h
    split at h
    · cases h
    · split at h <;> cases h
  | current =>
    rw [Component.ofPiece?] at h
    split at h
    · cases h
    · split at h <;> cases h

/-- The pieces that are kept as components are read back from a URI. -/
theorem flatMap_segmentOf? {pieces : List FileName} (h : ∀ piece ∈ pieces, separator ∉ piece) :
    ((pieces.filterMap Component.ofPiece?).filterMap segmentOf?).flatMap
        (fun segment => separator :: decode segment.toList) =
      joinPieces (pieces.filter fun piece => (Component.ofPiece? piece).isSome) := by
  induction pieces with
  | nil => rfl
  | cons piece pieces ih =>
    obtain ⟨hpiece, hpieces⟩ := List.forall_mem_cons.1 h
    cases hcomponent : Component.ofPiece? piece with
    | none =>
      rw [List.filterMap_cons_none hcomponent, ih hpieces,
        List.filter_cons_of_neg (by simp [hcomponent])]
    | some component =>
      obtain ⟨segment, hsegment, hdecode⟩ := exists_segmentOf? hcomponent hpiece
      rw [List.filterMap_cons_some hcomponent, List.filterMap_cons_some hsegment,
        List.flatMap_cons, ih hpieces, hdecode, List.filter_cons_of_pos (by simp [hcomponent])]
      rfl

/-- A URI names the path of its names, perhaps with a separator at its end. -/
theorem exists_toFilePath?_segments {scheme : String} {authority query fragment : Option String}
    {names : List String} {pieces : List FileName} (hpieces : ∀ piece ∈ pieces, separator ∉ piece)
    (hne : pieces ≠ [])
    (h : (names.flatMap fun name => separator :: decode name.toList) = joinPieces pieces) :
    ∃ q, toFilePath? ⟨scheme, authority, none, .segments names, query, fragment⟩ = some q ∧
      q.components = .root :: pieces.filterMap Component.ofPiece? := by
  refine ⟨_, rfl, ?_⟩
  rw [h]
  split
  · have hlast : joinPieces pieces ++ [separator] = joinPieces (pieces ++ [[]]) := by
      simp [joinPieces]
    rw [hlast, components_joinPieces
      (List.forall_mem_append.2 ⟨hpieces, by simp⟩) (by simp [hne]), List.filterMap_append]
    exact congrArg (List.cons _) (List.append_nil _)
  · rw [components_joinPieces hpieces hne]

/-- A URI names an absolute path, or the empty one. -/
theorem isAbsolute_or_eq_of_toFilePath? {uri : Uri} {p : Path} (h : uri.toFilePath? = some p) :
    p.isAbsolute = true ∨ p = ⟨[]⟩ := by
  rw [toFilePath?] at h
  split at h
  · cases h
  · rename_i names htrail
    split at h
    · obtain rfl := Option.some.inj h
      cases names with
      | nil => exact .inr rfl
      | cons name names =>
        left
        split <;> rfl
    · cases h

/-- The URI of an absolute path names a path with the same components. -/
theorem exists_toFilePath?_eq {p : Path} (h : p.isAbsolute = true) :
    ∃ uri q, ofFilePath? p = some uri ∧ uri.toFilePath? = some q ∧ q.same p = true := by
  obtain ⟨body, hbytes⟩ : ∃ body, p.bytes = separator :: body := by
    rw [isAbsolute, beq_iff_eq] at h
    exact List.head?_eq_some_iff.1 h
  obtain ⟨pieces, hpieces⟩ : ∃ pieces, pieces = body.splitOn separator := ⟨_, rfl⟩
  have hseparator : ∀ piece ∈ pieces, separator ∉ piece := by
    rw [hpieces]
    exact fun _ => not_mem_of_mem_splitOn
  have hcomponents : p.components = .root :: pieces.filterMap Component.ofPiece? := by
    rw [components, hbytes, hpieces]
    rfl
  have hsegments := flatMap_segmentOf? hseparator
  have huri : ofFilePath? p = some ⟨"file", some "", none,
      .segments (if (p.components.filterMap segmentOf?).isEmpty then [""]
        else p.components.filterMap segmentOf?), none, none⟩ := if_pos h
  rw [hcomponents, List.filterMap_cons_none rfl] at huri
  have hfilter : (pieces.filter fun piece => (Component.ofPiece? piece).isSome).filterMap
      Component.ofPiece? = pieces.filterMap Component.ofPiece? := by
    rw [List.filterMap_filter]
    refine List.filterMap_congr fun piece _ => ?_
    cases Component.ofPiece? piece <;> rfl
  cases hkept : pieces.filter fun piece => (Component.ofPiece? piece).isSome with
  | nil =>
    -- No piece is kept, and the URI has one empty name.
    rw [hkept] at hfilter
    rw [← hfilter] at huri
    obtain ⟨q, hq, hqcomponents⟩ := @exists_toFilePath?_segments "file" (some "") none none [""]
      [[]] (by simp) (by simp) rfl
    refine ⟨_, q, huri, hq, same_eq_true_iff.2 ?_⟩
    rw [hqcomponents, hcomponents, ← hfilter]
    rfl
  | cons piece rest =>
    rw [hkept] at hfilter hsegments
    have hempty : ((pieces.filterMap Component.ofPiece?).filterMap segmentOf?).isEmpty = false := by
      rw [List.isEmpty_eq_false_iff]
      intro hnil
      rw [hnil] at hsegments
      cases hsegments
    rw [hempty] at huri
    have hmem : ∀ kept ∈ piece :: rest, separator ∉ kept := by
      rw [← hkept]
      exact fun kept hmem => hseparator kept (List.mem_of_mem_filter hmem)
    obtain ⟨q, hq, hqcomponents⟩ := @exists_toFilePath?_segments "file" (some "") none none _
      _ hmem (List.cons_ne_nil _ _) hsegments
    refine ⟨_, q, huri, hq, same_eq_true_iff.2 ?_⟩
    rw [hqcomponents, hcomponents, hfilter]

end StructUnfold.Uri
