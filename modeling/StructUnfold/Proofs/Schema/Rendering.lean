import StructUnfold.Expansion.Tree
import StructUnfold.Proofs.Schema.Basic
import StructUnfold.Proofs.Text.Line

/-!
# Drawing blocks line by line

A block that takes the place of a member's type is drawn behind what stands in front of the type,
its later lines indented by as much. So drawing a block means to indent its lines, and what is drawn
is read back as the same lines.

* `Splice.attach_unlines`: a block behind a text is drawn line by line.
* `frame_eq_unlines`, `attach_nil_unlines`: so is a block with nothing in front of it.
* `DrawnAs`: items are drawn as lines.
-/

namespace StructUnfold

open Text

namespace Splice

/-- What stands in front of a block goes before its first line, and the others are indented by as
much. -/
theorem attach_unlines (lead : List Char) {l : List Char} {ls : List (List Char)}
    (h : ∀ k ∈ l :: ls, IsLine k) :
    attach lead (unlines (l :: ls)) =
      unlines ((lead ++ l) :: ls.map (List.replicate lead.length ' ' ++ ·)) := by
  -- No line is empty, so each of them is indented.
  have hindent : ls.map (fun k => '\n' :: indentLine lead.length k) =
      ls.map fun k => '\n' :: (List.replicate lead.length ' ' ++ k) := by
    refine List.map_congr_left fun k hk => ?_
    rw [indentLine, if_neg (by simpa using (h k (List.mem_cons_of_mem _ hk)).ne_nil)]
  rw [attach, lines_unlines h, unlines_cons, List.flatMap_map]
  dsimp only
  rw [List.flatMap_def, List.flatMap_def, hindent]

end Splice

namespace Schema

open Expansion

/-- A block with nothing in front of it is drawn as it is. -/
theorem attach_nil_unlines {ls : List (List Char)} (h : ∀ l ∈ ls, IsLine l) :
    Splice.attach [] (unlines ls) = unlines ls := by
  cases ls with
  | nil => rfl
  | cons l ls =>
    rw [Splice.attach_unlines [] h]
    simp

/-- A block is drawn line by line. -/
theorem frame_eq_unlines (indentWidth : Nat) (label : List Char) {texts : List (List Char)}
    (h : ∀ l ∈ texts.flatMap lines, IsLine l) :
    frame indentWidth label texts =
      unlines (blockLines indentWidth label (texts.flatMap lines)) := by
  have hlines : ∀ inner : List (List Char), blockLines indentWidth label inner =
      ['|'] :: (inner.map (List.replicate indentWidth ' ' ++ ·) ++ [['|'], '|' :: ' ' :: label]) :=
    fun _ => rfl
  rw [frame, hlines, unlines_cons]
  revert h
  generalize texts.flatMap lines = inner
  intro h
  -- No line is empty, so each of them is indented.
  have hinner : inner.flatMap (fun l => '\n' :: Splice.indentLine indentWidth l) =
      (inner.map (List.replicate indentWidth ' ' ++ ·)).flatMap ('\n' :: ·) := by
    rw [List.flatMap_map, List.flatMap_def, List.flatMap_def, List.map_congr_left fun l hl => ?_]
    rw [Splice.indentLine, if_neg (by simpa using (h l hl).ne_nil)]
  rw [hinner]
  simp

/-- The lines of a block can be read back. -/
theorem isLine_of_mem_blockLines {label : List Char} {inner : List (List Char)}
    (hlabel : Unbroken label) (hinner : ∀ l ∈ inner, IsLine l) (indentWidth : Nat) :
    ∀ l ∈ blockLines indentWidth label inner, IsLine l := by
  have hbar : IsLine ['|'] := ⟨by decide, by decide, by decide⟩
  intro l hl
  rw [blockLines, List.mem_append, List.mem_cons, List.mem_map] at hl
  rcases hl with (rfl | ⟨k, hk, rfl⟩) | hl
  · exact hbar
  · have hline := hinner k hk
    exact ((unbroken_replicate_space _).append hline.unbroken).isLine (by simp [hline.ne_nil])
  · simp only [List.mem_cons, List.not_mem_nil, or_false] at hl
    rcases hl with rfl | rfl
    · exact hbar
    · have hmark : Unbroken ['|', ' '] := by decide
      exact (hmark.append hlabel).isLine (List.cons_ne_nil _ _)

/-! ### Items that are drawn line by line -/

/-- Items are drawn as lines. -/
structure DrawnAs (indentWidth : Nat) (items : List Item) (ls : List (List Char)) : Prop where
  /-- The lines of their texts are these. -/
  lines : (renderItems indentWidth items).flatMap Text.lines = ls
  /-- They can be read back. -/
  isLine : ∀ l ∈ ls, IsLine l

variable {indentWidth : Nat} {items : List Item} {ls : List (List Char)}

theorem drawnAs_nil : DrawnAs indentWidth [] [] :=
  ⟨rfl, by simp⟩

/-- A declaration that is kept in one line is drawn as that line. -/
theorem DrawnAs.cons_line (h : DrawnAs indentWidth items ls) {l : List Char} (hl : IsLine l) :
    DrawnAs indentWidth (.line l :: items) (l :: ls) := by
  refine ⟨?_, List.forall_mem_cons.2 ⟨hl, h.isLine⟩⟩
  rw [renderItems, List.flatMap_cons, Item.render, lines_of_isLine hl, h.lines]
  rfl

/-- A block with nothing in front of it is drawn as its lines. -/
theorem DrawnAs.cons_nested (h : DrawnAs indentWidth items ls) {inner : List Item}
    {innerLines : List (List Char)} (hinner : DrawnAs indentWidth inner innerLines) (root : String)
    {label : List Char} (hlabel : IsLine label) :
    DrawnAs indentWidth (.nested [] root label inner :: items)
      (blockLines indentWidth label innerLines ++ ls) := by
  have hblock : ∀ l ∈ blockLines indentWidth label innerLines, IsLine l :=
    isLine_of_mem_blockLines hlabel.unbroken hinner.isLine indentWidth
  have hframe : frame indentWidth label (renderItems indentWidth inner) =
      unlines (blockLines indentWidth label innerLines) := by
    rw [frame_eq_unlines indentWidth label (by rw [hinner.lines]; exact hinner.isLine),
      hinner.lines]
  refine ⟨?_, fun l hl => ?_⟩
  · rw [renderItems, List.flatMap_cons, Item.render, hframe, attach_nil_unlines hblock,
      lines_unlines hblock, h.lines]
  · rcases List.mem_append.1 hl with hl | hl
    · exact hblock l hl
    · exact h.isLine l hl

/-- A block is drawn as its lines. -/
theorem DrawnAs.render_block (h : DrawnAs indentWidth items ls) (root : String)
    (label : List Char) :
    Block.render indentWidth ⟨root, label, items⟩ =
      List.intercalate ['\n'] (blockLines indentWidth label ls) := by
  rw [Block.render, frame_eq_unlines indentWidth label (by rw [h.lines]; exact h.isLine), h.lines,
    unlines]

end Schema

end StructUnfold
