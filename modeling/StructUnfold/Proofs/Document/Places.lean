import Mathlib.Order.Bounds.Defs
import StructUnfold.CommandLine.Listing
import StructUnfold.Proofs.Document.Synchronization

/-!
# Offsets and places

A byte offset between two characters has a place: the line that starts last at or before it, and the
number of UTF-16 units between the start of that line and the offset. An editor may name other
places as well, inside a character or behind the end of a line. Each of them is taken for the place
of some offset, as long as there is a line of its number.

## Main definitions

* `Document.IsPlaceOf`: the place of an offset.

## Main results

* `LineAt.offsetOf?_eq`, `LineAt.positionOf?_eq`: both ways of going from one to the other, in a
  text that is cut at the start of the line and at the offset.
* `Document.offsets_and_places`: going to the place of an offset and back, in order.
-/

namespace StructUnfold

open Text

namespace IndexedText

variable {s front line back front' line' back' part rest : List Char} {k : Nat}

/-! ### The line of an offset -/

/-- A text has one line more than line feeds. -/
theorem length_splitLines (s : List Char) : (splitLines s).length = s.count '\n' + 1 := by
  induction s using lines_induction with
  | last s h =>
    rw [splitLines_of_not_mem h, List.count_eq_zero_of_not_mem h]
    rfl
  | cons line rest hline ih =>
    rw [splitLines_append hline, List.length_cons, ih, List.count_append,
      List.count_eq_zero_of_not_mem hline, List.count_cons_self, Nat.zero_add]

theorem length_startsFrom (pos : Nat) (ls : List (List Char)) :
    (startsFrom pos ls).length = ls.length := by
  induction ls generalizing pos with
  | nil => rfl
  | cons l ls ih => rw [startsFrom, List.length_cons, ih, List.length_cons]

/-- What stands before one of two lines of the same number does not reach beyond what stands before
the other one, for a line feed would lie between them. -/
theorem LineAt.eq_nil_of_append {m : List Char} (h : LineAt s k front line back)
    (h' : LineAt s k (front ++ m) line' back') : m = [] := by
  by_contra hne
  have hfeed : '\n' ∈ m := by
    rcases h'.begun with hnil | hlast
    · exact absurd (List.append_eq_nil_iff.1 hnil).2 hne
    · rw [List.getLast?_append_of_ne_nil _ hne] at hlast
      exact List.mem_of_getLast? hlast
  have hcount := h'.count
  rw [List.count_append, h.count] at hcount
  have hpos := List.count_pos_iff.2 hfeed
  omega

/-- There is one line of each number. -/
theorem LineAt.unique (h : LineAt s k front line back) (h' : LineAt s k front' line' back') :
    front = front' ∧ line = line' ∧ back = back' := by
  obtain rfl : front = front' := by
    rcases List.prefix_or_prefix_of_prefix ⟨_, h.parts.symm⟩ ⟨_, h'.parts.symm⟩ with
      ⟨m, rfl⟩ | ⟨m, rfl⟩
    · rw [h.eq_nil_of_append h', List.append_nil]
    · rw [h'.eq_nil_of_append h, List.append_nil]
  have hrest := List.append_cancel_left (h.parts.symm.trans h'.parts)
  obtain rfl : line = line' := by rw [← h.takeWhile_eq, hrest, h'.takeWhile_eq]
  exact ⟨rfl, rfl, List.append_cancel_left hrest⟩

/-- A line is found under its number, and so is its start. -/
theorem LineAt.getElem?_eq (h : LineAt s k front line back) :
    (splitLines s)[k]? = some line ∧ (ofChars s).lineStarts[k]? = some (byteSize front) := by
  rcases startsFrom_cases s 0 k with ⟨front', line', back', h', hline, hstart, -⟩ | ⟨hnone, -⟩
  · obtain ⟨rfl, rfl, rfl⟩ := h.unique h'
    exact ⟨hline, by rw [ofChars, hstart, Nat.zero_add]⟩
  · have hle : k ≤ s.count '\n' := by
      rw [h.parts, List.count_append, h.count]
      exact Nat.le_add_right _ _
    rw [List.getElem?_eq_none_iff, length_splitLines] at hnone
    omega

/-- There is a line of each number that is looked up. -/
theorem exists_lineAt (h : (splitLines s)[k]? = some line) :
    ∃ front back, LineAt s k front line back := by
  rcases startsFrom_cases s 0 k with ⟨front, line', back, hat, hline, -⟩ | ⟨hnone, -⟩
  · obtain rfl := Option.some.inj (h.symm.trans hline)
    exact ⟨front, back, hat⟩
  · rw [h] at hnone
    cases hnone

/-- A text that is cut in two is cut in one of its lines: the one whose number is that of the line
feeds before the cut. -/
theorem exists_lineAt_of_cut {before after : List Char} (h : s = before ++ after) :
    ∃ front part rest back, before = front ++ part ∧
      LineAt s (before.count '\n') front (part ++ rest) back := by
  -- The line begins behind the last line feed before the cut, or at the start of the text.
  have hsplit : ∀ t : List Char, ∃ front part, t = front ++ part ∧ '\n' ∉ part ∧
      (front = [] ∨ front.getLast? = some '\n') := by
    intro t
    refine ⟨(t.reverse.dropWhile (· != '\n')).reverse, (t.reverse.takeWhile (· != '\n')).reverse,
      ?_, ?_, ?_⟩
    · rw [← List.reverse_append, List.takeWhile_append_dropWhile, List.reverse_reverse]
    · intro hmem
      have hne := List.all_eq_true.1 List.all_takeWhile _ (List.mem_reverse.1 hmem)
      simp at hne
    · rw [List.getLast?_reverse]
      cases hhead : (t.reverse.dropWhile (· != '\n')).head? with
      | none => exact .inl (by rw [List.head?_eq_none_iff.1 hhead]; rfl)
      | some c => exact .inr (by simpa using not_of_head?_dropWhile hhead)
  obtain ⟨front, part, rfl, hpart, hbegun⟩ := hsplit before
  refine ⟨front, part, after.takeWhile (· != '\n'), after.dropWhile (· != '\n'), rfl, ?_⟩
  -- And it ends before the next one.
  have hrest : '\n' ∉ after.takeWhile (· != '\n') := by
    intro hmem
    have hne := List.all_eq_true.1 List.all_takeWhile _ hmem
    simp at hne
  refine ⟨?_, ?_, hbegun, ?_, ?_⟩
  · rw [h, List.append_assoc, List.append_assoc, List.takeWhile_append_dropWhile]
  · rw [List.mem_append, not_or]
    exact ⟨hpart, hrest⟩
  · cases hhead : (after.dropWhile (· != '\n')).head? with
    | none => exact .inl (List.head?_eq_none_iff.1 hhead)
    | some c => exact .inr (by simpa using not_of_head?_dropWhile hhead)
  · rw [List.count_append, List.count_eq_zero_of_not_mem hpart, Nat.add_zero]

/-! ### From places to offsets -/

theorem cutAt_zero (before line : List Char) : cutAt before 0 line = (before, line) := by
  cases line with
  | nil => rfl
  | cons c line => exact if_pos rfl

/-- A column that is not before the end of a part of a line lies in the rest of the line. -/
theorem cutAt_append_of_le (before part rest : List Char) {column : Nat}
    (h : units part ≤ column) :
    cutAt before column (part ++ rest) =
      cutAt (part.reverse ++ before) (column - units part) rest := by
  induction part generalizing before column with
  | nil => rfl
  | cons c part ih =>
    rw [units_cons] at h
    have hpos := charUnits_pos c
    rw [List.cons_append, cutAt, if_neg (by omega), ih _ (by omega), units_cons, Nat.sub_sub,
      List.reverse_cons, List.append_assoc]
    rfl

/-- The place of a column that cuts a line. -/
theorem LineAt.offsetOf?_eq (h : LineAt s k front (part ++ rest) back) {column : Nat}
    (hcut : (cutAt [] column (part ++ rest)).1 = part.reverse) :
    (ofChars s).offsetOf? ⟨k, column⟩ = some (byteSize (front ++ part)) := by
  rw [offsetOf?, h.getElem?_eq.2, Option.map_some, h.lineFrom_eq, hcut, byteSize_reverse,
    byteSize_append]

/-- The column of a cut leads to it. -/
theorem LineAt.offsetOf?_units (h : LineAt s k front (part ++ rest) back) :
    (ofChars s).offsetOf? ⟨k, units part⟩ = some (byteSize (front ++ part)) := by
  refine h.offsetOf?_eq ?_
  rw [cutAt_append_of_le _ _ _ (Nat.le_refl _), Nat.sub_self, cutAt_zero, List.append_nil]

/-- A place on a line that there is denotes a cut in that line, at the column it stands for. -/
theorem exists_lineAt_of_offsetOf? {p : Position} {offset : Nat}
    (h : (ofChars s).offsetOf? p = some offset) :
    ∃ front part rest back, LineAt s p.line front (part ++ rest) back ∧
      offset = byteSize (front ++ part) ∧
      Editor.settle (utf16 (part ++ rest)) p.character = units part := by
  rcases startsFrom_cases s 0 p.line with ⟨front, line, back, hat, -⟩ | ⟨-, hnone⟩
  · obtain ⟨part, rest, rfl, hcut, hsettle⟩ := exists_cutAt_eq [] line p.character
    rw [List.append_nil] at hcut
    rw [hat.offsetOf?_eq (by rw [hcut])] at h
    exact ⟨front, part, rest, back, hat, (Option.some.inj h).symm, hsettle⟩
  · rw [offsetOf?, ofChars, hnone] at h
    cases h

end IndexedText

/-! ### From offsets to places -/

open IndexedText

namespace Document

variable {d : Document} {before after front part rest back : List Char} {k : Nat}

/-- The place of an offset is that of the text before it. -/
theorem positionOf?_eq_some_iff {offset : Nat} {p : Position} :
    d.positionOf? offset = some p ↔
      ∃ before after, d.text = before ++ after ∧
        byteSize before = min offset (byteSize d.text) ∧
        p = ⟨before.count '\n', units (before.reverse.takeWhile (· != '\n'))⟩ := by
  have hcount : ∀ r : List Char, r.countP (· == '\n') = r.reverse.count '\n' := fun r => by
    rw [List.count_reverse, List.count]
  simp only [positionOf?, Option.map_eq_some_iff, takeBytesOnto?_eq_some_iff]
  constructor
  · rintro ⟨r, ⟨after, htext, hsize⟩, rfl⟩
    exact ⟨r.reverse, after, htext, by rwa [byteSize_reverse],
      by rw [hcount, List.reverse_reverse]⟩
  · rintro ⟨before, after, htext, hsize, rfl⟩
    exact ⟨before.reverse, ⟨after, by rwa [List.reverse_reverse], by rwa [byteSize_reverse]⟩,
      by rw [hcount, List.reverse_reverse]⟩

/-- On the line of an offset its column counts what stands before it. -/
theorem takeWhile_reverse_append (hbegun : front = [] ∨ front.getLast? = some '\n')
    (hpart : '\n' ∉ part) :
    (front ++ part).reverse.takeWhile (· != '\n') = part.reverse := by
  have hall : ∀ c ∈ part.reverse, (c != '\n') = true := fun c hc =>
    bne_iff_ne.2 fun heq => hpart (heq ▸ List.mem_reverse.1 hc)
  have hstop : front.reverse.takeWhile (· != '\n') = [] := by
    rcases hbegun with rfl | hfeed
    · rfl
    · rw [← List.head?_reverse] at hfeed
      obtain ⟨cs, hcs⟩ := List.head?_eq_some_iff.1 hfeed
      rw [hcs]
      rfl
  rw [List.reverse_append, List.takeWhile_append_of_pos hall, hstop, List.append_nil]

end Document

/-- The place of a cut in a line is made of the number of the line and the units before the cut. -/
theorem IndexedText.LineAt.positionOf?_eq {d : Document} {front part rest back : List Char}
    {k : Nat} (h : LineAt d.text k front (part ++ rest) back) :
    d.positionOf? (byteSize (front ++ part)) = some ⟨k, units part⟩ := by
  have hpart : '\n' ∉ part := fun hmem => h.no_feed (List.mem_append_left _ hmem)
  have hle : byteSize (front ++ part) ≤ byteSize d.text := by
    rw [h.parts]
    simp only [byteSize_append]
    omega
  refine Document.positionOf?_eq_some_iff.2 ⟨front ++ part, rest ++ back, ?_, ?_, ?_⟩
  · rw [h.parts]
    simp
  · rw [Nat.min_eq_left hle]
  · rw [Document.takeWhile_reverse_append h.begun hpart, units_reverse, List.count_append, h.count,
      List.count_eq_zero_of_not_mem hpart, Nat.add_zero]

/-! ### In order -/

namespace Document

variable {d : Document}

/-- The place of an offset, which is given by the text before it. -/
structure IsPlaceOf (d : Document) (before : List Char) (p : Position) : Prop where
  /-- Its line is the number of line feeds before the offset. -/
  line : p.line = before.count '\n'
  /-- It is the line that starts last, but not behind the offset, and the column is the number of
  units between that start and the offset. -/
  start : ∃ front part, before = front ++ part ∧ p.character = units part ∧
    d.indexed.lineStarts[p.line]? = some (byteSize front) ∧
    IsGreatest {n | n ∈ d.indexed.lineStarts ∧ n ≤ byteSize before} (byteSize front)

/-- No line starts between the start of a line and a cut in it. -/
theorem isGreatest_start {s front part rest back : List Char} {k : Nat}
    (h : LineAt s k front (part ++ rest) back) :
    IsGreatest {n | n ∈ (ofChars s).lineStarts ∧ n ≤ byteSize (front ++ part)}
      (byteSize front) := by
  refine ⟨⟨List.mem_of_getElem? h.getElem?_eq.2, byteSize_le_append front part⟩, ?_⟩
  rintro n ⟨hmem, hle⟩
  obtain ⟨before, after, hsplit, rfl, hbefore⟩ := ((isExact_ofChars s).mem_iff n).1 hmem
  rw [show (ofChars s).chars = s from rfl] at hsplit
  have hparts : s = (front ++ part) ++ (rest ++ back) := by rw [h.parts]; simp
  obtain ⟨m, hm⟩ := (exists_between (hsplit.symm.trans hparts)).2 hle
  -- What starts a line within the part of the line would stand behind a line feed of it.
  rcases List.append_eq_append_iff.1 hm with ⟨u, rfl, hu⟩ | ⟨u, rfl, -⟩
  · cases u with
    | nil => rw [List.append_nil]
    | cons c u =>
      rcases hbefore with hnil | hfeed
      · simp at hnil
      · rw [List.getLast?_append_of_ne_nil _ (List.cons_ne_nil c u)] at hfeed
        have hin : '\n' ∈ part := by
          rw [hu]
          exact List.mem_append_left _ (List.mem_of_getLast? hfeed)
        exact absurd (List.mem_append_left _ hin) h.no_feed
  · exact byteSize_le_append _ u

/-- Of two offsets the later one has the later place. -/
theorem lt_of_positionOf?_eq {o₁ o₂ : Nat} {p₁ p₂ : Position} (h₁ : d.positionOf? o₁ = some p₁)
    (h₂ : d.positionOf? o₂ = some p₂) (hlt : o₁ < o₂) (hle : o₂ ≤ byteSize d.text) :
    p₁.line < p₂.line ∨ p₁.line = p₂.line ∧ p₁.character < p₂.character := by
  obtain ⟨before₁, after₁, hsplit₁, hsize₁, rfl⟩ := positionOf?_eq_some_iff.1 h₁
  obtain ⟨before₂, after₂, hsplit₂, hsize₂, rfl⟩ := positionOf?_eq_some_iff.1 h₂
  rw [Nat.min_eq_left (Nat.le_of_lt (Nat.lt_of_lt_of_le hlt hle))] at hsize₁
  rw [Nat.min_eq_left hle] at hsize₂
  obtain ⟨m, rfl⟩ := (exists_between (hsplit₁.symm.trans hsplit₂)).2 (by omega)
  have hpos : 0 < byteSize m := by
    rw [byteSize_append] at hsize₂
    omega
  by_cases hfeed : '\n' ∈ m
  · refine .inl ?_
    have hcount := List.count_pos_iff.2 hfeed
    show before₁.count '\n' < (before₁ ++ m).count '\n'
    rw [List.count_append]
    omega
  · -- No line ends between the two offsets.
    refine .inr ⟨?_, ?_⟩
    · show before₁.count '\n' = (before₁ ++ m).count '\n'
      rw [List.count_append, List.count_eq_zero_of_not_mem hfeed, Nat.add_zero]
    · have hall : ∀ c ∈ m.reverse, (c != '\n') = true := fun c hc =>
        bne_iff_ne.2 fun heq => hfeed (heq ▸ List.mem_reverse.1 hc)
      have hunits : 0 < units m := by
        cases m with
        | nil => cases hpos
        | cons c m =>
          have hc := charUnits_pos c
          rw [units_cons]
          omega
      show units (before₁.reverse.takeWhile _) < units ((before₁ ++ m).reverse.takeWhile _)
      rw [List.reverse_append, List.takeWhile_append_of_pos hall, units_append, units_reverse]
      omega

/-! ### Boundaries of an editor -/

/-- The place of an offset is one between two characters, for an editor as well. -/
theorem isBoundary_units {s front part rest back : List Char} {k : Nat}
    (h : LineAt s k front (part ++ rest) back) :
    Editor.IsBoundary (utf16 s) ⟨k, units part⟩ := by
  refine ⟨utf16 (part ++ rest), ?_, ?_, ?_⟩
  · rw [lines_utf16, List.getElem?_map, h.getElem?_eq.1]
    rfl
  · show units part ≤ (utf16 (part ++ rest)).length
    rw [length_utf16, units_append]
    exact Nat.le_add_right _ _
  · have hsettle := Editor.settle_zero rest
    show ((utf16 (part ++ rest))[units part]?.any Text.isTrailing) = false
    rw [utf16_append, ← length_utf16, List.getElem?_append_right (Nat.le_refl _), Nat.sub_self]
    rw [Editor.settle] at hsettle
    split at hsettle
    · cases hsettle
    · rename_i hfirst
      exact Bool.eq_false_iff.2 hfirst

/-- A place between two characters is that of the offset it denotes. -/
theorem positionOf?_of_isBoundary {p : Position} {offset : Nat}
    (h : Editor.IsBoundary (utf16 d.text) p) (hoffset : d.offsetOf? p = some offset) :
    d.positionOf? offset = some p := by
  obtain ⟨front, part, rest, back, hat, rfl, hsettle⟩ := exists_lineAt_of_offsetOf? hoffset
  obtain ⟨row, hrow, hle, hpair⟩ := h
  rw [lines_utf16, List.getElem?_map, hat.getElem?_eq.1, Option.map_some, Option.mem_some] at hrow
  subst hrow
  rw [Editor.settle, hpair, if_neg Bool.false_ne_true, Nat.min_eq_left hle] at hsettle
  rw [hat.positionOf?_eq, ← hsettle]

/-! ### Going there and back -/

/-- The lines of a document are numbered by the line feeds before them. -/
theorem lineCount_eq (d : Document) : d.lineCount = d.text.count '\n' + 1 := by
  rw [lineCount, indexed, ofChars, length_startsFrom, length_splitLines]

/-- A place denotes an offset if there is a line of its number. -/
theorem isSome_offsetOf?_iff {p : Position} :
    (d.offsetOf? p).isSome = true ↔ p.line < d.lineCount := by
  rw [offsetOf?, IndexedText.offsetOf?, Option.isSome_map, isSome_getElem?, lineCount]

/-- An offset has a place, from which it is found again. -/
theorem exists_place {before after : List Char} (h : d.text = before ++ after) :
    ∃ p, d.positionOf? (byteSize before) = some p ∧ d.offsetOf? p = some (byteSize before) ∧
      d.IsPlaceOf before p := by
  obtain ⟨front, part, rest, back, hbefore, hat⟩ := exists_lineAt_of_cut h
  have hgreatest := isGreatest_start hat
  have hposition := hat.positionOf?_eq
  have hoffset := hat.offsetOf?_units
  rw [← hbefore] at hgreatest hposition hoffset
  exact ⟨_, hposition, hoffset, rfl, front, part, hbefore, rfl, hat.getElem?_eq.2, hgreatest⟩

/-- The column of a place lies on a line, so it is as small as the lines are short. -/
theorem character_lt_of_positionOf?_eq {bound offset : Nat} {p : Position}
    (hlines : ∀ line ∈ splitLines d.text, units line < bound)
    (h : d.positionOf? offset = some p) : p.character < bound := by
  obtain ⟨before, after, hsplit, -, rfl⟩ := positionOf?_eq_some_iff.1 h
  obtain ⟨front, part, rest, back, rfl, hat⟩ := exists_lineAt_of_cut hsplit
  have hpart : '\n' ∉ part := fun hmem => hat.no_feed (List.mem_append_left _ hmem)
  have hlt := hlines _ (List.mem_of_getElem? hat.getElem?_eq.1)
  rw [units_append] at hlt
  show units ((front ++ part).reverse.takeWhile _) < bound
  rw [takeWhile_reverse_append hat.begun hpart, units_reverse]
  omega

/-- Byte offsets between two characters and their places.

Each such offset has a place, on the line that is counted by the line feeds before it and that is
listed under the next higher number. The place leads back to the offset, and later offsets have
later places. A place denotes an offset if there is a line of its number, and then one on that line,
between two characters and not behind its line feed. The place of that offset denotes it again, and
is the place itself if that lies between two characters for an editor. Where lines have fewer than
2 ^ 32 units, so have the columns. -/
theorem offsets_and_places (d : Document) :
    (∀ before after, d.text = before ++ after → ∃ p,
        d.positionOf? (byteSize before) = some p ∧ d.offsetOf? p = some (byteSize before) ∧
        d.IsPlaceOf before p ∧
        CommandLine.lineNumber? d.text (byteSize before) = some (p.line + 1)) ∧
      (∀ o₁ o₂ p₁ p₂, d.positionOf? o₁ = some p₁ → d.positionOf? o₂ = some p₂ → o₁ < o₂ →
        o₂ ≤ byteSize d.text →
          p₁.line < p₂.line ∨ p₁.line = p₂.line ∧ p₁.character < p₂.character) ∧
      (d.lineCount = d.text.count '\n' + 1 ∧
        ∀ p, (d.offsetOf? p).isSome = true ↔ p.line < d.lineCount) ∧
      (∀ p offset, d.offsetOf? p = some offset →
        (∃ front part rest back, LineAt d.text p.line front (part ++ rest) back ∧
          offset = byteSize (front ++ part)) ∧
        ∃ q, d.positionOf? offset = some q ∧ d.offsetOf? q = some offset) ∧
      (∀ p, Editor.IsBoundary (utf16 d.text) p ↔
        ∃ offset, d.offsetOf? p = some offset ∧ d.positionOf? offset = some p) ∧
      ((∀ line ∈ splitLines d.text, units line < 2 ^ 32) →
        ∀ offset p, d.positionOf? offset = some p → p.character < 2 ^ 32) := by
  refine ⟨fun before after h => ?_, fun o₁ o₂ p₁ p₂ h₁ h₂ => lt_of_positionOf?_eq h₁ h₂,
    ⟨d.lineCount_eq, fun p => isSome_offsetOf?_iff⟩, fun p offset h => ?_, fun p => ⟨fun h => ?_, ?_⟩,
    fun hlines offset p => character_lt_of_positionOf?_eq hlines⟩
  · obtain ⟨p, hposition, hoffset, hplace⟩ := exists_place h
    refine ⟨p, hposition, hoffset, hplace, ?_⟩
    rw [CommandLine.lineNumber?, h, takeBytes?_byteSize_append, Option.map_some, hplace.line]
  · obtain ⟨front, part, rest, back, hat, rfl, -⟩ := exists_lineAt_of_offsetOf? h
    exact ⟨⟨front, part, rest, back, hat, rfl⟩, _, hat.positionOf?_eq, hat.offsetOf?_units⟩
  · -- The line of a boundary is among the lines of the text.
    obtain ⟨row, hrow, -⟩ := id h
    rw [lines_utf16] at hrow
    have hline := (List.getElem?_eq_some_iff.1 hrow).1
    rw [List.length_map, length_splitLines, ← lineCount_eq] at hline
    obtain ⟨offset, hoffset⟩ := Option.isSome_iff_exists.1 (isSome_offsetOf?_iff.2 hline)
    exact ⟨offset, hoffset, positionOf?_of_isBoundary h hoffset⟩
  · rintro ⟨offset, hoffset, hposition⟩
    obtain ⟨front, part, rest, back, hat, rfl, -⟩ := exists_lineAt_of_offsetOf? hoffset
    rw [← Option.some.inj (hat.positionOf?_eq.symm.trans hposition)]
    exact isBoundary_units hat

end Document

end StructUnfold
