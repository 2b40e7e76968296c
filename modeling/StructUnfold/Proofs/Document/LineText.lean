import StructUnfold.Proofs.Document.Places
import StructUnfold.Proofs.Text.Space

/-!
# Columns and the text of a line

The text of a line is what is left of it without the carriage returns at its end. An offset is
looked up in the line itself, which ends at its line feed. So a column that is not behind the text
of its line leads into that text, but one behind it reaches into the carriage returns, as far as
there are any.

* `IndexedText.cutAt_append_of_le_units`, `IndexedText.cutAt_replicate_return`: the cut of a column
  in the text of a line, and in the carriage returns behind it.
* `Document.exists_line`: a line is its text and carriage returns.
* `Document.column_reaches`: what stands before a column on its line.
-/

namespace StructUnfold

open Text

namespace IndexedText

/-- A column that is not behind a part of a line cuts this part. -/
theorem cutAt_append_of_le_units (before part rest : List Char) {column : Nat}
    (h : column ≤ units part) :
    cutAt before column (part ++ rest) =
      ((cutAt before column part).1, (cutAt before column part).2 ++ rest) := by
  induction part generalizing before column with
  | nil =>
    obtain rfl : column = 0 := Nat.le_zero.1 h
    rw [cutAt_zero, cutAt_zero]
  | cons c part ih =>
    rw [units_cons] at h
    rw [List.cons_append, cutAt, cutAt]
    split
    · rfl
    · exact ih _ (by omega)

/-- A carriage return takes one column. -/
theorem cutAt_replicate_return (before : List Char) (column returns : Nat) :
    (cutAt before column (List.replicate returns '\r')).1 =
      List.replicate (min column returns) '\r' ++ before := by
  induction returns generalizing before column with
  | zero => rw [Nat.min_zero]; rfl
  | succ returns ih =>
    rw [List.replicate_succ, cutAt]
    split
    · rename_i hzero
      rw [hzero, Nat.zero_min]
      rfl
    · rename_i hne
      obtain ⟨column, rfl⟩ := Nat.exists_eq_succ_of_ne_zero hne
      have hunits : charUnits '\r' = 1 := rfl
      rw [ih, hunits, Nat.succ_sub_one, Nat.succ_min_succ, Nat.succ_eq_add_one,
        List.replicate_succ', List.append_assoc]
      rfl

end IndexedText

namespace Document

open IndexedText

variable {d : Document} {l : Nat}

/-- A line is its text and carriage returns, and its text does not end in one. -/
theorem exists_line (h : l < d.lineCount) :
    ∃ text returns, d.lineText? l = some text ∧
      (splitLines d.text)[l]? = some (text ++ List.replicate returns '\r') ∧
      text.getLast? ≠ some '\r' := by
  have hlt : l < (splitLines d.text).length := by rwa [length_splitLines, ← lineCount_eq]
  obtain ⟨returns, hline, hall⟩ :=
    exists_dropEndWhile_append (· == '\r') (splitLines d.text)[l]
  have hreturns : returns = List.replicate returns.length '\r' :=
    List.eq_replicate_length.2 fun c hc => beq_iff_eq.1 (hall c hc)
  refine ⟨dropEndWhile (· == '\r') (splitLines d.text)[l], returns.length, ?_, ?_, fun hlast => ?_⟩
  · rw [lineText?, List.getElem?_eq_getElem hlt, Option.map_some]
  · rw [List.getElem?_eq_getElem hlt, ← hreturns, ← hline]
  · have hnot := not_of_getLast?_dropEndWhile hlast
    simp at hnot

/-- A range from the start of a line up to a column of it covers what stands before the column. -/
theorem textIn?_eq {front part rest back : List Char} {column : Nat}
    (h : LineAt d.text l front (part ++ rest) back)
    (hcut : (cutAt [] column (part ++ rest)).1 = part.reverse) :
    d.textIn? ⟨⟨l, 0⟩, ⟨l, column⟩⟩ = some part := by
  have hparts : d.text = front ++ part ++ (rest ++ back) := by rw [h.parts]; simp
  have hat : LineAt d.text l front ([] ++ (part ++ rest)) back := h
  have hzero : (cutAt [] 0 ([] ++ (part ++ rest))).1 = [].reverse := by rw [cutAt_zero]; rfl
  have hstart := hat.offsetOf?_eq hzero
  have hstop := h.offsetOf?_eq hcut
  rw [List.append_nil, hparts] at hstart
  rw [hparts] at hstop
  rw [textIn?, indexed, hparts, cut?_eq hstart hstop, Option.map_some]

/-- What stands before a column on its line.

It begins where the line does and goes up to the offset of the column. A column that is not behind
the text of the line leads to a cut of that text. One behind it leads behind as many of the carriage
returns at the end of the line as it is columns away, so that the offset lies within the text of the
line only if there are none of them. -/
theorem column_reaches (d : Document) (l column : Nat) (h : l < d.lineCount) :
    ∃ text returns start part,
      d.lineText? l = some text ∧ text.getLast? ≠ some '\r' ∧
      (splitLines d.text)[l]? = some (text ++ List.replicate returns '\r') ∧
      d.indexed.lineStarts[l]? = some start ∧
      d.offsetOf? ⟨l, column⟩ = some (start + byteSize part) ∧
      d.textIn? ⟨⟨l, 0⟩, ⟨l, column⟩⟩ = some part ∧
      (column ≤ units text → part <+: text ∧ units part = Editor.settle (utf16 text) column) ∧
      (units text ≤ column →
        part = text ++ List.replicate (min (column - units text) returns) '\r') ∧
      (start + byteSize part ≤ start + byteSize text ↔ column ≤ units text ∨ returns = 0) := by
  obtain ⟨text, returns, htext, hline, hlast⟩ := exists_line h
  obtain ⟨front, back, hat⟩ := exists_lineAt hline
  -- What a cut of the line says about the place of the column.
  have hreach : ∀ part rest, text ++ List.replicate returns '\r' = part ++ rest →
      (cutAt [] column (text ++ List.replicate returns '\r')).1 = part.reverse →
      d.offsetOf? ⟨l, column⟩ = some (byteSize front + byteSize part) ∧
        d.textIn? ⟨⟨l, 0⟩, ⟨l, column⟩⟩ = some part := by
    intro part rest hparts hcut
    rw [hparts] at hat hcut
    exact ⟨by rw [← byteSize_append]; exact hat.offsetOf?_eq hcut, textIn?_eq hat hcut⟩
  rcases Nat.lt_or_ge (units text) column with hbehind | hwithin
  · -- The cut lies in the carriage returns.
    have hreturns : List.replicate returns '\r' =
        List.replicate (min (column - units text) returns) '\r' ++
          List.replicate (returns - min (column - units text) returns) '\r' := by
      rw [← List.replicate_add, Nat.add_sub_cancel' (Nat.min_le_right _ _)]
    obtain ⟨hoffset, htextIn⟩ := hreach _ _ (by rw [List.append_assoc, ← hreturns]) (by
      rw [cutAt_append_of_le _ _ _ (Nat.le_of_lt hbehind), cutAt_replicate_return,
        List.append_nil, List.reverse_append, List.reverse_replicate])
    refine ⟨text, returns, byteSize front, _, htext, hlast, hline, hat.getElem?_eq.2, hoffset,
      htextIn, fun hle => absurd hbehind (Nat.not_lt.2 hle), fun _ => rfl, ?_⟩
    have hsize : byteSize (List.replicate (min (column - units text) returns) '\r') = 0 ↔
        min (column - units text) returns = 0 := by
      rw [byteSize_eq_zero_iff, List.replicate_eq_nil_iff]
    rw [byteSize_append]
    omega
  · -- The cut lies in the text of the line.
    obtain ⟨part, rest, htextParts, hcut, hsettle⟩ := exists_cutAt_eq [] text column
    rw [List.append_nil] at hcut
    obtain ⟨hoffset, htextIn⟩ := hreach part (rest ++ List.replicate returns '\r')
      (by rw [htextParts, List.append_assoc]) (by rw [cutAt_append_of_le_units _ _ _ hwithin, hcut])
    have hfront : part <+: text := ⟨rest, htextParts.symm⟩
    refine ⟨text, returns, byteSize front, part, htext, hlast, hline, hat.getElem?_eq.2, hoffset,
      htextIn, fun _ => ⟨hfront, hsettle.symm⟩, fun hge => ?_, ?_⟩
    · -- The column is at the end of the text, which is all that stands before it.
      have hall := congrArg Prod.fst (cutAt_append_of_le [] text [] hge)
      rw [List.append_nil, hcut, Nat.sub_eq_zero_of_le hwithin, cutAt_zero, List.append_nil] at hall
      rw [Nat.sub_eq_zero_of_le hwithin, Nat.zero_min, List.replicate_zero, List.append_nil]
      exact List.reverse_injective hall
    · have hle : byteSize part ≤ byteSize text := by
        rw [htextParts, byteSize_append]
        exact Nat.le_add_right _ _
      omega

/-- Two lines, the first of which ends in a carriage return. -/
def returned : Document :=
  ⟨"ab\r\ncd".toList, 1⟩

theorem column_reaches_returned :
    0 < returned.lineCount ∧
      ∃ text returns start part,
        returned.lineText? 0 = some text ∧ text.getLast? ≠ some '\r' ∧
        (splitLines returned.text)[0]? = some (text ++ List.replicate returns '\r') ∧
        returned.indexed.lineStarts[0]? = some start ∧
        returned.offsetOf? ⟨0, 9⟩ = some (start + byteSize part) ∧
        returned.textIn? ⟨⟨0, 0⟩, ⟨0, 9⟩⟩ = some part ∧
        (9 ≤ units text → part <+: text ∧ units part = Editor.settle (utf16 text) 9) ∧
        (units text ≤ 9 → part = text ++ List.replicate (min (9 - units text) returns) '\r') ∧
        (start + byteSize part ≤ start + byteSize text ↔ 9 ≤ units text ∨ returns = 0) :=
  ⟨by decide, column_reaches returned 0 9 (by decide)⟩

/-- A column behind the text of a line leads in between the two characters that end the line. -/
theorem column_splits_terminator :
    returned.indexed.lineStarts[0]? = some 0 ∧ returned.lineText? 0 = some "ab".toList ∧
      returned.offsetOf? ⟨0, 9⟩ = some 3 ∧ ¬3 ≤ 0 + byteSize "ab".toList ∧
      returned.textIn? ⟨⟨0, 0⟩, ⟨0, 9⟩⟩ = some "ab\r".toList := by
  decide

end Document

end StructUnfold
