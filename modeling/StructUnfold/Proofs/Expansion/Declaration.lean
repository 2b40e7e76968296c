import StructUnfold.Expansion.Declaration
import StructUnfold.Proofs.Text.Search
import StructUnfold.Proofs.Text.Space

/-!
# Declarations and their words

* `ofPiece_induction`: what stays when labels are dropped.
* `isWord_of_mem_all`: a declaration of a body consists of words.
* `all_append_of_words`: where a body begins with a text that a semicolon ends, its declarations are
  the words of that text and the declarations of the rest.
-/

namespace StructUnfold.Declaration

open Text

/-! ### Words -/

theorem isWord_of_mem_dropLabel {label : List Char} {d : Declaration} (h : ∀ w ∈ d, IsWord w)
    {w : List Char} (hw : w ∈ dropLabel label d) : IsWord w := by
  cases d with
  | nil => exact h w hw
  | cons word rest =>
    rw [dropLabel] at hw
    split at hw
    · exact h w hw
    · exact h w (List.mem_cons_of_mem _ hw)
    · rename_i c cs hafter
      rcases List.mem_cons.1 hw with rfl | hw
      · -- What follows a label in its word is a word of its own.
        have hword := h word List.mem_cons_self
        rw [after?_eq_some_iff.1 hafter] at hword
        exact ⟨List.cons_ne_nil _ _, fun ch hch =>
          hword.no_space ch (List.mem_append_right _ hch)⟩
      · exact h w (List.mem_cons_of_mem _ hw)

/-- What holds of the words of a piece and stays when an access label is dropped holds of the
declaration in it. -/
theorem ofPiece_induction {motive : Declaration → Prop} {piece : List Char}
    (hwords : motive (words piece))
    (hdrop : ∀ label ∈ accessLabels, ∀ d, motive d → motive (dropLabel label d)) :
    motive (ofPiece piece) := by
  rw [ofPiece]
  revert hwords hdrop
  generalize words piece = d
  induction accessLabels generalizing d with
  | nil => exact fun hd _ => hd
  | cons label labels ih =>
    intro hd hdrop
    obtain ⟨hlabel, hlabels⟩ := List.forall_mem_cons.1 hdrop
    exact ih _ (hlabel d hd) hlabels

theorem isWord_of_mem_ofPiece {piece : List Char} : ∀ w ∈ ofPiece piece, IsWord w :=
  ofPiece_induction (motive := fun d => ∀ w ∈ d, IsWord w) (fun _ => isWord_of_mem_words)
    fun _ _ _ hd _ => isWord_of_mem_dropLabel hd

/-- A declaration of a body consists of words. -/
theorem isWord_of_mem_all {body : List Char} {d : Declaration} (hd : d ∈ all body)
    {w : List Char} (hw : w ∈ d) : IsWord w := by
  rw [all, List.mem_filter, List.mem_map] at hd
  obtain ⟨⟨piece, -, rfl⟩, -⟩ := hd
  exact isWord_of_mem_ofPiece w hw

/-- A declaration of a body is not empty. -/
theorem ne_nil_of_mem_all {body : List Char} {d : Declaration} (hd : d ∈ all body) : d ≠ [] := by
  rintro rfl
  cases (List.mem_filter.1 hd).2

/-! ### Bodies that begin with a declaration -/

/-- A text without braces is a piece up to its first semicolon. -/
theorem piecesFrom_append {front : List Char}
    (hfront : ∀ c ∈ front, c ≠ '{' ∧ c ≠ '}' ∧ c ≠ ';') (acc rest : List Char) :
    piecesFrom 0 acc (front ++ ';' :: rest) =
      (acc.reverse ++ front ++ [';']) :: pieces rest := by
  induction front generalizing acc with
  | nil => simp [piecesFrom, pieces]
  | cons c cs ih =>
    obtain ⟨⟨hopen, hclose, hsemicolon⟩, hcs⟩ := List.forall_mem_cons.1 hfront
    rw [List.cons_append, piecesFrom, if_neg hopen, if_neg hclose,
      if_neg fun h => hsemicolon h.1, ih hcs]
    simp

/-- A label is not dropped from words that do not begin with it. -/
theorem dropLabel_of_not_isPrefix {label : List Char} {d : Declaration}
    (h : ∀ word ∈ d.head?, ¬label <+: word) : dropLabel label d = d := by
  cases d with
  | nil => rfl
  | cons word rest =>
    have hnone : after? label word = none := by
      refine Option.eq_none_iff_forall_ne_some.2 fun back hback => ?_
      exact h word rfl ⟨back, (after?_eq_some_iff.1 hback).symm⟩
    rw [dropLabel, hnone]

/-- A label is not dropped from words in which it cannot occur. -/
theorem dropLabel_eq_self {label : List Char} {c : Char} (hc : c ∈ label) {d : Declaration}
    (hd : ∀ w ∈ d, c ∉ w) : dropLabel label d = d :=
  dropLabel_of_not_isPrefix fun word hword hstart =>
    hd word (List.mem_of_head? hword) (hstart.subset hc)

/-- A piece without colons is the declaration of its words. -/
theorem ofPiece_eq_words {piece : List Char} (h : ∀ w ∈ words piece, ':' ∉ w) :
    ofPiece piece = words piece := by
  have hlabels : ∀ label ∈ accessLabels, ':' ∈ label := by decide
  refine ofPiece_induction (motive := (· = words piece)) rfl fun label hlabel d hd => ?_
  rw [hd, dropLabel_eq_self (hlabels label hlabel) h]

/-- The declarations of a body that begins with a text that a semicolon ends. -/
theorem all_append_of_words {front : List Char} {d : Declaration}
    (hfront : ∀ c ∈ front, c ≠ '{' ∧ c ≠ '}' ∧ c ≠ ';') (hwords : words (front ++ [';']) = d)
    (hlabels : ∀ w ∈ d, ':' ∉ w) (hvoid : isVoid d = false) (rest : List Char) :
    all (front ++ ';' :: rest) = d :: all rest := by
  have hpiece : ofPiece (front ++ [';']) = d := by
    rw [ofPiece_eq_words (by rwa [hwords]), hwords]
  rw [all, pieces, piecesFrom_append hfront, List.map_cons, List.filter_cons]
  rw [List.reverse_nil, List.nil_append, hpiece, hvoid, all]
  rfl

end StructUnfold.Declaration
