import Mathlib.Algebra.Order.BigOperators.Group.List
import Mathlib.Algebra.Order.Ring.Nat
import Mathlib.Tactic.MkIffOfInductiveProp
import StructUnfold.Proofs.Expansion.Pieces

/-!
# Putting access labels between members

Access labels are put in front of the members of a body, each with white space behind it. They end
no piece of the body, so each becomes part of the piece in front of which it stands, and is dropped
from its words. As the labels of a piece are dropped in the order in which they are listed and each
of them once, those put there vanish exactly if they stand in this order, together with the labels
that are dropped of the member itself.

## Main definitions

* `Spot`: a member, with labels that are put in front of it.
* `IsLabelling`: a body with labels put between its members.
* `Spot.IsOrdered`: the labels put in front of a member are in order.

## Main results

* `pieces_labelled`: labels do not change where a body is cut.
* `Spot.IsValid.exists_losesLabels`: which labels of a member are dropped when others are put in
  front of it.
* `Spot.IsValid.weight_lt`: a declaration gets longer if one of them stays.
* `labels_vanish_iff_ordered`: when labels change no declaration.
-/

namespace StructUnfold.Declaration

open Text

/-! ### Cutting -/

/-- What is read of a piece so far is put in front of it. -/
theorem piecesFrom_eq_modifyHead (depth : Nat) (acc s : List Char) :
    piecesFrom depth acc s = (piecesFrom depth [] s).modifyHead (acc.reverse ++ ·) := by
  induction s generalizing depth acc with
  | nil => simp [piecesFrom]
  | cons c cs ih =>
    -- The character is put behind what is read so far, wherever it does not end the piece.
    have hstep : ∀ depth, piecesFrom depth (c :: acc) cs =
        (piecesFrom depth [c] cs).modifyHead (acc.reverse ++ ·) := by
      intro depth
      rw [ih, ih depth [c], List.modifyHead_modifyHead]
      refine congrArg (List.modifyHead · _) (funext fun t => ?_)
      simp
    rw [piecesFrom, piecesFrom, hstep, hstep, hstep]
    split
    · rfl
    · split
      · rfl
      · split
        · simp
        · rfl

/-- How many braces are open behind a character. -/
def depthBehind (depth : Nat) (c : Char) : Nat :=
  if c = '{' then depth + 1 else if c = '}' then depth - 1 else depth

/-- A character ends a piece or is put in front of what follows. -/
theorem piecesFrom_cons (depth : Nat) (c : Char) (s : List Char) :
    piecesFrom depth [] (c :: s) =
      if c = ';' ∧ depth = 0 then [c] :: pieces s
      else (piecesFrom (depthBehind depth c) [] s).modifyHead (c :: ·) := by
  have hstep : ∀ depth, piecesFrom depth [c] s = (piecesFrom depth [] s).modifyHead (c :: ·) :=
    fun depth => piecesFrom_eq_modifyHead depth [c] s
  rw [piecesFrom, hstep, hstep, hstep, depthBehind]
  split
  · rename_i hopen
    rw [if_neg fun h => by rw [h.1] at hopen; cases hopen]
  · split
    · rename_i hclose
      rw [if_neg fun h => by rw [h.1] at hclose; cases hclose]
    · rfl

theorem piecesFrom_ne_nil (depth : Nat) (s : List Char) : piecesFrom depth [] s ≠ [] := by
  induction s generalizing depth with
  | nil => exact List.cons_ne_nil _ _
  | cons c cs ih =>
    rw [piecesFrom_cons]
    split
    · exact List.cons_ne_nil _ _
    · rw [Ne, List.modifyHead_eq_nil_iff]
      exact ih _

/-- The first piece is the whole text, or it is the first one whatever follows it. -/
theorem exists_of_piecesFrom_eq_cons {depth : Nat} {s p : List Char} {ps : List (List Char)}
    (h : piecesFrom depth [] s = p :: ps) :
    (ps = [] ∧ s = p) ∨ ∃ rest, s = p ++ rest ∧ pieces rest = ps ∧
      ∀ rest', piecesFrom depth [] (p ++ rest') = p :: pieces rest' := by
  induction s generalizing depth p with
  | nil =>
    obtain ⟨rfl, rfl⟩ := List.cons_eq_cons.1 h
    exact .inl ⟨rfl, rfl⟩
  | cons c cs ih =>
    rw [piecesFrom_cons] at h
    split at h
    · rename_i hends
      obtain ⟨rfl, rfl⟩ := List.cons_eq_cons.1 h
      -- The character ends the piece, whatever follows it.
      refine .inr ⟨cs, rfl, rfl, fun rest' => ?_⟩
      rw [List.singleton_append, piecesFrom_cons, if_pos hends]
    · rename_i hgoes
      cases hrest : piecesFrom (depthBehind depth c) [] cs with
      | nil =>
        rw [hrest] at h
        cases h
      | cons q qs =>
        rw [hrest, List.modifyHead_cons] at h
        obtain ⟨rfl, rfl⟩ := List.cons_eq_cons.1 h
        -- Otherwise it is put before the first piece of the rest.
        rcases ih hrest with ⟨rfl, rfl⟩ | ⟨rest, rfl, hpieces, hfirst⟩
        · exact .inl ⟨rfl, rfl⟩
        · refine .inr ⟨rest, rfl, hpieces, fun rest' => ?_⟩
          rw [List.cons_append, piecesFrom_cons, if_neg hgoes, hfirst, List.modifyHead_cons]

/-- A text without braces and semicolons becomes part of the piece behind it. -/
theorem pieces_append_of_marks_eq_nil {front : List Char} (hfront : marks front = [])
    (s : List Char) : pieces (front ++ s) = (pieces s).modifyHead (front ++ ·) := by
  induction front with
  | nil => exact (congrFun List.modifyHead_id _).symm
  | cons c cs ih =>
    rw [marks, List.filter_cons] at hfront
    split at hfront
    · cases hfront
    · rename_i hmark
      simp only [isMark, Bool.or_eq_true, beq_iff_eq, not_or] at hmark
      have hdepth : depthBehind 0 c = 0 := by
        rw [depthBehind, if_neg hmark.1.1, if_neg hmark.1.2]
      rw [List.cons_append, pieces, piecesFrom_cons, if_neg fun h => hmark.2 h.1, hdepth, ← pieces,
        ih hfront, List.modifyHead_modifyHead]
      rfl

/-- Where a piece begins with a text without braces and semicolons, another such text can stand
there. -/
theorem pieces_replace {front front' s rest : List Char} {ps : List (List Char)}
    (hfront : marks front = []) (hfront' : marks front' = [])
    (h : pieces (front ++ s) = (front ++ rest) :: ps) :
    pieces (front' ++ s) = (front' ++ rest) :: ps := by
  rw [pieces_append_of_marks_eq_nil hfront] at h
  rw [pieces_append_of_marks_eq_nil hfront']
  cases hs : pieces s with
  | nil =>
    rw [hs] at h
    cases h
  | cons q qs =>
    rw [hs, List.modifyHead_cons] at h
    obtain ⟨hq, rfl⟩ := List.cons_eq_cons.1 h
    rw [List.modifyHead_cons, List.append_cancel_left hq]

/-! ### Spots -/

/-- A member of a body, with labels that are put in front of it. -/
structure Spot where
  /-- White space in front of the labels. -/
  lead : List Char
  /-- The labels, each with the white space behind it. -/
  labels : List (List Char × List Char)
  /-- The member, which may itself begin with white space and labels. -/
  member : List Char

namespace Spot

/-- The labels without the white space. -/
def names (spot : Spot) : List (List Char) :=
  spot.labels.map Prod.fst

/-- The text of labels. -/
def labelText (labels : List (List Char × List Char)) : List Char :=
  labels.flatMap fun label => label.1 ++ label.2

/-- The text without the labels. -/
def plain (spot : Spot) : List Char :=
  spot.lead ++ spot.member

/-- The text with the labels. -/
def labelled (spot : Spot) : List Char :=
  spot.lead ++ labelText spot.labels ++ spot.member

/-- The labels are access labels, and around them there is nothing but white space. -/
@[mk_iff]
structure IsValid (spot : Spot) : Prop where
  /-- The text in front is white space. -/
  lead : ∀ c ∈ spot.lead, isSpace c = true
  /-- The labels are access labels. -/
  label : ∀ label ∈ spot.labels, label.1 ∈ accessLabels
  /-- The text behind each of them is white space. -/
  gap : ∀ label ∈ spot.labels, ∀ c ∈ label.2, isSpace c = true

instance : DecidablePred IsValid := fun spot =>
  decidable_of_iff (spot.lead.all isSpace = true ∧
      (∀ label ∈ spot.labels, label.1 ∈ accessLabels) ∧
      ∀ label ∈ spot.labels, label.2.all isSpace = true)
    (by simp only [isValid_iff, List.all_eq_true])

end Spot

/-- Labels are put between the members of a body, at the beginning of its pieces. -/
@[mk_iff]
structure IsLabelling (body labelled : List Char) (spots : List Spot) : Prop where
  /-- The labels are access labels with white space behind them. -/
  valid : ∀ spot ∈ spots, spot.IsValid
  /-- Without them there are the pieces of the body. -/
  plain : pieces body = spots.map Spot.plain
  /-- With them the text is this one. -/
  labelled : labelled = (spots.map Spot.labelled).flatten

instance (body labelled : List Char) (spots : List Spot) :
    Decidable (IsLabelling body labelled spots) :=
  decidable_of_iff' _ (isLabelling_iff body labelled spots)

/-- White space holds no braces and semicolons. -/
theorem marks_eq_nil_of_spaces {gap : List Char} (h : ∀ c ∈ gap, isSpace c = true) :
    marks gap = [] :=
  List.filter_eq_nil_iff.2 fun c hc => by rw [isMark_eq_false_of_isSpace (h c hc)]; decide

/-- Labels hold no braces and semicolons. -/
theorem Spot.IsValid.marks_labelText {spot : Spot} (h : spot.IsValid) :
    marks (labelText spot.labels) = [] := by
  have hlabels : ∀ label ∈ accessLabels, marks label = [] := by decide
  rw [labelText, marks, List.filter_flatMap]
  refine List.flatMap_eq_nil_iff.2 fun label hlabel => ?_
  exact (marks_append _ _).trans (by
    rw [hlabels _ (h.label label hlabel), marks_eq_nil_of_spaces (h.gap label hlabel)]
    rfl)

/-- Labels between the members do not change where a body is cut. -/
theorem pieces_labelled {body : List Char} {spots : List Spot}
    (hvalid : ∀ spot ∈ spots, spot.IsValid) (hplain : pieces body = spots.map Spot.plain) :
    pieces (spots.map Spot.labelled).flatten = spots.map Spot.labelled := by
  induction spots generalizing body with
  | nil => exact absurd hplain (piecesFrom_ne_nil 0 body)
  | cons spot spots ih =>
    obtain ⟨hspot, hspots⟩ := List.forall_mem_cons.1 hvalid
    have hlead := marks_eq_nil_of_spaces hspot.lead
    have hfront : marks (spot.lead ++ Spot.labelText spot.labels) = [] := by
      rw [marks_append, hlead, hspot.marks_labelText]
      rfl
    rw [List.map_cons] at hplain ⊢
    rw [List.flatten_cons, Spot.labelled, List.append_assoc]
    rcases exists_of_piecesFrom_eq_cons hplain with ⟨hnone, hbody⟩ | ⟨rest, -, hrest, hfirst⟩
    · -- It is the last member, and the only piece.
      obtain rfl := List.map_eq_nil_iff.1 hnone
      rw [hbody, Spot.plain] at hplain
      have hnew := pieces_replace hlead hfront hplain
      rwa [List.map_nil, List.flatten_nil, List.append_nil]
    · have hnew := hfirst (spots.map Spot.labelled).flatten
      rw [Spot.plain, List.append_assoc, ih hspots hrest] at hnew
      exact pieces_replace hlead hfront hnew

/-! ### Dropping the labels of a member -/

/-- Access labels are words. -/
theorem isWord_of_mem_accessLabels {label : List Char} (h : label ∈ accessLabels) :
    IsWord label := by
  have hall : ∀ l ∈ accessLabels, IsWord l := by decide
  exact hall label h

variable {label : List Char} {s : List Char}

/-- A label in front of a text is a word of its own, or the first word goes on behind it. -/
theorem words_append_cases (hlabel : IsWord label) (s : List Char) :
    words (label ++ s) = label :: words s ∨
      ∃ c cs ws, words s = (c :: cs) :: ws ∧ words (label ++ s) = (label ++ c :: cs) :: ws := by
  obtain ⟨w, ws, hw, hwords, hfront⟩ := exists_words_append s
  have hword : IsWord (label ++ w) :=
    ⟨List.append_ne_nil_of_left_ne_nil hlabel.ne_nil w, fun c hc =>
      (List.mem_append.1 hc).elim (hlabel.no_space c) (hw c)⟩
  rw [hfront label hword, hwords]
  cases w with
  | nil => exact .inl (by rw [List.append_nil]; rfl)
  | cons c cs =>
    rw [words_of_isWord ⟨List.cons_ne_nil c cs, hw⟩]
    exact .inr ⟨c, cs, ws, rfl, rfl⟩

/-- The words of a text behind a label have the label in front. -/
theorem Labelled.words_append {labels : List (List Char)} {rest : Declaration}
    (hlabel : IsWord label) (h : Labelled labels rest (words s)) :
    Labelled (label :: labels) rest (words (label ++ s)) := by
  rcases words_append_cases hlabel s with happart | ⟨c, cs, ws, hs, hattached⟩
  · rw [happart]
    exact .apart h
  · rw [hs] at h
    rw [hattached]
    exact .attached h

/-- A label in front of a text is dropped from its words, and the words of the text are left. -/
theorem dropLabel_words_append (hlabel : IsWord label) (s : List Char) :
    dropLabel label (words (label ++ s)) = words s := by
  rcases words_append_cases hlabel s with happart | ⟨c, cs, ws, hs, hattached⟩
  · rw [happart, dropLabel, after?_eq_some_iff.2 (List.append_nil label).symm]
  · rw [hattached, hs, dropLabel, after?_append]

/-- Another label is not dropped there. -/
theorem dropLabel_words_append_of_ne {other : List Char} (hlabel : label ∈ accessLabels)
    (hother : other ∈ accessLabels) (hne : label ≠ other) (s : List Char) :
    dropLabel label (words (other ++ s)) = words (other ++ s) :=
  ((Labelled.nil _).words_append (isWord_of_mem_accessLabels hother)).dropLabel_eq hlabel hother hne

namespace Spot

variable {labels : List (List Char × List Char)}

/-- The words behind labels have the labels in front. -/
theorem labelled_labelText {own : List (List Char)} {rest : Declaration}
    (hlabel : ∀ l ∈ labels, l.1 ∈ accessLabels) (hgap : ∀ l ∈ labels, ∀ c ∈ l.2, isSpace c = true)
    (h : Labelled own rest (words s)) :
    Labelled (labels.map Prod.fst ++ own) rest (words (labelText labels ++ s)) := by
  induction labels with
  | nil => exact h
  | cons l labels ih =>
    obtain ⟨hl, hlabel⟩ := List.forall_mem_cons.1 hlabel
    obtain ⟨hspaces, hgap⟩ := List.forall_mem_cons.1 hgap
    have hrest := ih hlabel hgap
    rw [← words_append_of_all _ hspaces] at hrest
    rw [labelText, List.flatMap_cons, List.append_assoc, List.append_assoc]
    exact hrest.words_append (isWord_of_mem_accessLabels hl)

/-- Labels that are all dropped before any of the text behind them leave what is left of that text.
The labels `own` are those that can be dropped from the text itself. -/
theorem foldl_dropLabel_labelText {order own : List (List Char)} (hnodup : order.Nodup)
    (horder : ∀ l ∈ order, l ∈ accessLabels)
    (hown : ∀ l ∈ order, l ∉ own → dropLabel l (words s) = words s)
    (hlabel : ∀ l ∈ labels, l.1 ∈ accessLabels) (hgap : ∀ l ∈ labels, ∀ c ∈ l.2, isSpace c = true)
    (h : (labels.map Prod.fst ++ own).Sublist order) :
    order.foldl (fun ws l => dropLabel l ws) (words (labelText labels ++ s)) =
      order.foldl (fun ws l => dropLabel l ws) (words s) := by
  induction order generalizing labels with
  | nil =>
    obtain ⟨hnone, -⟩ := List.append_eq_nil_iff.1 (List.sublist_nil.1 h)
    obtain rfl := List.map_eq_nil_iff.1 hnone
    rfl
  | cons next order ih =>
    obtain ⟨hnext, horder⟩ := List.forall_mem_cons.1 horder
    obtain ⟨hfresh, hnodup⟩ := List.nodup_cons.1 hnodup
    cases labels with
    | nil => rfl
    | cons l labels =>
      obtain ⟨hl, hlabel'⟩ := List.forall_mem_cons.1 hlabel
      obtain ⟨hspaces, hgap'⟩ := List.forall_mem_cons.1 hgap
      have htext : labelText (l :: labels) ++ s = l.1 ++ (l.2 ++ (labelText labels ++ s)) := by
        rw [labelText, List.flatMap_cons, List.append_assoc, List.append_assoc]
        rfl
      -- The next label is not among those that can be dropped from the text later.
      have hlater : ∀ ls : List (List Char), (ls ++ own).Sublist order →
          dropLabel next (words s) = words s := fun _ hsub =>
        hown next List.mem_cons_self fun hmem =>
          hfresh (hsub.subset (List.mem_append_right _ hmem))
      have hown' : ∀ l ∈ order, l ∉ own → dropLabel l (words s) = words s := fun l hl =>
        hown l (List.mem_cons_of_mem _ hl)
      rw [List.foldl_cons, List.foldl_cons]
      rw [List.map_cons, List.cons_append] at h
      by_cases heq : next = l.1
      · rw [heq, List.cons_sublist_cons] at h
        rw [hlater _ h, htext, heq, dropLabel_words_append (isWord_of_mem_accessLabels hl),
          words_append_of_all _ hspaces]
        exact ih hnodup horder hown' hlabel' hgap' h
      · have hsub : (l.1 :: (labels.map Prod.fst ++ own)).Sublist order := by
          rcases List.sublist_cons_iff.1 h with hsub | ⟨r, hr, -⟩
          · exact hsub
          · exact absurd (List.cons_eq_cons.1 hr).1.symm heq
        rw [hlater (l.1 :: labels.map Prod.fst) hsub, htext,
          dropLabel_words_append_of_ne hnext hl heq, ← htext]
        exact ih hnodup horder hown' hlabel hgap hsub

end Spot

/-- A label that is not dropped from a piece does not stand in front of it. -/
theorem LosesLabels.dropLabel_eq {piece : List Char} {gone kept : List (List Char)}
    {rest : Declaration} (h : LosesLabels piece gone kept rest) (hlabel : label ∈ accessLabels)
    (hgone : label ∉ gone) : Declaration.dropLabel label (Text.words piece) = Text.words piece := by
  have hwords := h.words
  cases gone with
  | nil =>
    cases kept with
    | nil =>
      cases hwords with
      | nil => exact dropLabel_of_not_isPrefix (h.bare label hlabel)
    | cons first kept =>
      -- A label that stands alone is in order.
      have hfirst := h.labels first List.mem_cons_self
      exact absurd (List.singleton_sublist.2 hfirst) (h.stops first rfl)
  | cons first gone =>
    exact hwords.dropLabel_eq hlabel (h.labels first List.mem_cons_self) fun heq =>
      hgone (heq ▸ List.mem_cons_self)

/-! ### Labels put in front of a member -/

/-- Words with labels in front of them have the characters of both. -/
theorem Labelled.length_flatten {labels : List (List Char)} {rest d : Declaration}
    (h : Labelled labels rest d) :
    d.flatten.length = labels.flatten.length + rest.flatten.length := by
  induction h with
  | nil => simp
  | apart _ ih =>
    simp only [List.flatten_cons, List.length_append, ih]
    omega
  | attached _ ih =>
    simp only [List.flatten_cons, List.length_append] at ih ⊢
    omega

variable {spot : Spot} {gone kept : List (List Char)} {rest : Declaration}

/-- Where labels are put in front of a member, those are dropped that stand in order: at most these
labels and those that are dropped of the member itself. -/
theorem Spot.IsValid.exists_losesLabels (hspot : spot.IsValid)
    (h : LosesLabels spot.plain gone kept rest) :
    ∃ dropped stuck, dropped ++ stuck = spot.names ++ gone ∧
      LosesLabels spot.labelled dropped (stuck ++ kept) rest := by
  have hwords : Labelled (spot.names ++ (gone ++ kept)) rest (Text.words spot.labelled) := by
    have hplain := h.words
    rw [Spot.plain, words_append_of_all _ hspot.lead] at hplain
    rw [Spot.labelled, List.append_assoc, words_append_of_all _ hspot.lead]
    exact Spot.labelled_labelText hspot.label hspot.gap hplain
  have hlabels : ∀ label ∈ spot.names ++ (gone ++ kept), label ∈ accessLabels := by
    intro label hlabel
    rcases List.mem_append.1 hlabel with hname | hown
    · obtain ⟨l, hl, rfl⟩ := List.mem_map.1 hname
      exact hspot.label l hl
    · exact h.labels label hown
  obtain ⟨dropped, left, hparts, hordered, hstops, hleft⟩ :=
    exists_foldl_dropLabel (fun _ => id) hlabels h.bare hwords
  have hloses : LosesLabels spot.labelled dropped left rest :=
    ⟨hparts ▸ hlabels, h.bare, hparts ▸ hwords, hordered, hstops, hleft⟩
  rw [← List.append_assoc] at hparts
  rcases List.append_eq_append_iff.1 hparts with ⟨more, hdropped, hkept⟩ | ⟨stuck, hstuck, hleft⟩
  · cases more with
    | nil =>
      rw [List.append_nil] at hdropped
      refine ⟨dropped, [], by rw [List.append_nil, hdropped], ?_⟩
      rwa [hkept]
    | cons next more =>
      -- The next label of the member would be in order behind those that are dropped of it.
      refine absurd (List.Sublist.trans ?_ hordered) (h.stops next (by rw [hkept]; rfl))
      rw [hdropped, List.append_assoc]
      refine List.Sublist.trans ?_ (List.sublist_append_right _ _)
      exact List.Sublist.append_left (List.cons_sublist_cons.2 (List.nil_sublist more)) gone
  · exact ⟨dropped, stuck, hstuck.symm, hleft ▸ hloses⟩

/-- The declaration stays the same if the labels are in order, together with those that are dropped
of the member itself. -/
theorem Spot.IsValid.ofPiece_labelled (hspot : spot.IsValid)
    (h : LosesLabels spot.plain gone kept rest)
    (hordered : (spot.names ++ gone).Sublist accessLabels) :
    ofPiece spot.labelled = ofPiece spot.plain := by
  have hdrop := Spot.foldl_dropLabel_labelText (s := spot.member) (by decide) (fun _ => id)
    (fun label hlabel hgone => ?_) hspot.label hspot.gap hordered
  · rw [ofPiece, ofPiece, Spot.labelled, Spot.plain, List.append_assoc,
      words_append_of_all _ hspot.lead, words_append_of_all _ hspot.lead]
    exact hdrop
  · have hown := h.dropLabel_eq hlabel hgone
    rwa [Spot.plain, words_append_of_all _ hspot.lead] at hown

/-- Number of characters of a declaration; none if it declares nothing. -/
def weight (d : Declaration) : Nat :=
  if isVoid d then 0 else d.flatten.length

theorem weight_le (d : Declaration) : weight d ≤ d.flatten.length := by
  rw [weight]
  split
  · exact Nat.zero_le _
  · exact Nat.le_refl _

theorem weight_eq_of_lt {d : Declaration} (h : 1 < d.flatten.length) :
    weight d = d.flatten.length := by
  refine if_neg fun hvoid => ?_
  rw [isVoid, Bool.or_eq_true, beq_iff_eq, beq_iff_eq] at hvoid
  rcases hvoid with rfl | rfl
  · exact absurd h (by decide)
  · exact absurd h (by decide)

/-- Otherwise it gets longer. -/
theorem Spot.IsValid.weight_lt (hspot : spot.IsValid)
    (h : LosesLabels spot.plain gone kept rest)
    (hordered : ¬(spot.names ++ gone).Sublist accessLabels) :
    weight (ofPiece spot.plain) < weight (ofPiece spot.labelled) := by
  obtain ⟨dropped, stuck, hparts, hloses⟩ := hspot.exists_losesLabels h
  have hlong : 1 < stuck.flatten.length := by
    cases stuck with
    | nil =>
      rw [List.append_nil] at hparts
      exact absurd (hparts ▸ hloses.ordered) hordered
    | cons label stuck =>
      have hall : ∀ l ∈ accessLabels, 1 < l.length := by decide
      have hlabel := hall label (hloses.labels label (by simp))
      rw [List.flatten_cons, List.length_append]
      omega
  have hplain := h.ofPiece.length_flatten
  have hlabelled := hloses.ofPiece.length_flatten
  rw [List.flatten_append, List.length_append] at hlabelled
  have hle := weight_le (ofPiece spot.plain)
  rw [weight_eq_of_lt (d := ofPiece spot.labelled) (by omega)]
  omega

/-! ### Labels in a body -/

/-- The characters of the declarations of a body are those of its pieces. -/
theorem sum_length_filter (ds : List Declaration) :
    ((ds.filter fun d => !isVoid d).map fun d => d.flatten.length).sum = (ds.map weight).sum := by
  induction ds with
  | nil => rfl
  | cons d ds ih =>
    rw [List.filter_cons, List.map_cons, List.sum_cons, ← ih, weight]
    cases isVoid d with
    | true => exact (Nat.zero_add _).symm
    | false => rfl

variable {body labelled : List Char} {spots : List Spot}

/-- The labels are in order, together with those that are dropped of the member without them. -/
def Spot.IsOrdered (spot : Spot) : Prop :=
  ∀ gone kept rest, LosesLabels spot.plain gone kept rest →
    (spot.names ++ gone).Sublist accessLabels

/-- Labels that are in order at every spot change no declaration. -/
theorem IsLabelling.all_eq (h : IsLabelling body labelled spots)
    (hordered : ∀ spot ∈ spots, spot.IsOrdered) : all labelled = all body := by
  have hsame : spots.map (ofPiece ∘ Spot.labelled) = spots.map (ofPiece ∘ Spot.plain) := by
    refine List.map_congr_left fun spot hspot => ?_
    obtain ⟨gone, kept, rest, hloses⟩ := losesLabels_ofPiece spot.plain
    exact (h.valid spot hspot).ofPiece_labelled hloses (hordered spot hspot gone kept rest hloses)
  rw [all, all, h.labelled, pieces_labelled h.valid h.plain, h.plain, List.map_map, List.map_map,
    hsame]

/-- Declarations with the same characters in all have lost the labels at every spot. -/
theorem IsLabelling.ordered_of_all_eq (h : IsLabelling body labelled spots)
    (hall : all labelled = all body) : ∀ spot ∈ spots, spot.IsOrdered := by
  have hsum : (spots.map fun spot => weight (ofPiece spot.labelled)).sum =
      (spots.map fun spot => weight (ofPiece spot.plain)).sum := by
    have hcount :=
      congrArg (fun ds : List Declaration => (ds.map fun d => d.flatten.length).sum) hall
    simp only [all, h.labelled, pieces_labelled h.valid h.plain, h.plain, sum_length_filter,
      List.map_map] at hcount
    exact hcount
  -- No member gets lighter, so none gets heavier.
  have hle : ∀ spot ∈ spots, weight (ofPiece spot.plain) ≤ weight (ofPiece spot.labelled) := by
    intro spot hspot
    obtain ⟨gone, kept, rest, hloses⟩ := losesLabels_ofPiece spot.plain
    by_cases hordered : (spot.names ++ gone).Sublist accessLabels
    · rw [(h.valid spot hspot).ofPiece_labelled hloses hordered]
    · exact Nat.le_of_lt ((h.valid spot hspot).weight_lt hloses hordered)
  intro spot hspot gone kept rest hloses
  by_contra hordered
  have hheavier := (h.valid spot hspot).weight_lt hloses hordered
  exact absurd hsum (Nat.ne_of_gt (List.sum_lt_sum _ _ hle ⟨spot, hspot, hheavier⟩))

/-- Labels put between the members of a body change neither where it is cut nor what stands behind
the labels of a member. They change no declaration exactly if at each spot they are in order,
together with the labels that are dropped of the member without them; otherwise the labels from the
first one that is out of order stay in front. -/
theorem labels_vanish_iff_ordered (h : IsLabelling body labelled spots) :
    pieces labelled = spots.map Spot.labelled ∧
      (all labelled = all body ↔ ∀ spot ∈ spots, spot.IsOrdered) ∧
      ∀ spot ∈ spots, ∃ own dropped stuck kept rest,
        LosesLabels spot.plain own kept rest ∧
          LosesLabels spot.labelled dropped (stuck ++ kept) rest ∧
          dropped ++ stuck = spot.names ++ own := by
  refine ⟨?_, ⟨h.ordered_of_all_eq, h.all_eq⟩, fun spot hspot => ?_⟩
  · rw [h.labelled]
    exact pieces_labelled h.valid h.plain
  · obtain ⟨own, kept, rest, hloses⟩ := losesLabels_ofPiece spot.plain
    obtain ⟨dropped, stuck, hparts, hlabelled⟩ := (h.valid spot hspot).exists_losesLabels hloses
    exact ⟨own, dropped, stuck, kept, rest, hloses, hlabelled, hparts⟩

/-- Labels in order, apart and attached, also in front of a member that has one. -/
def gateSpots : List Spot :=
  [⟨"\n  ".toList, [("public:".toList, "\n\t".toList), ("private:".toList, [])], "int x;".toList⟩,
    ⟨"\n".toList, [("public:".toList, [' '])], "protected: int y;".toList⟩, ⟨['\n'], [], []⟩]

theorem labels_vanish_iff_ordered_gate :
    let body := "\n  int x;\nprotected: int y;\n".toList
    let labelled := "\n  public:\n\tprivate:int x;\npublic: protected: int y;\n".toList
    IsLabelling body labelled gateSpots ∧ pieces labelled = gateSpots.map Spot.labelled ∧
      (∀ spot ∈ gateSpots, spot.IsOrdered) ∧
      all labelled = [["int".toList, "x;".toList], ["int".toList, "y;".toList]] := by
  intro body labelled
  have hlabelling : IsLabelling body labelled gateSpots := by decide +kernel
  obtain ⟨hpieces, hiff, -⟩ := labels_vanish_iff_ordered hlabelling
  exact ⟨hlabelling, hpieces, hiff.1 (by decide +kernel), by decide +kernel⟩

/-- Of two labels in front of a member the second one stays if it is listed first. -/
theorem label_between_members_stays :
    let body := "\nint x;\n".toList
    let labelled := "\nprotected: public: int x;\n".toList
    IsLabelling body labelled
        [⟨['\n'], [("protected:".toList, [' ']), ("public:".toList, [' '])], "int x;".toList⟩,
          ⟨['\n'], [], []⟩] ∧
      all body = [["int".toList, "x;".toList]] ∧
      all labelled = [["public:".toList, "int".toList, "x;".toList]] := by
  decide +kernel

end StructUnfold.Declaration
