import StructUnfold.Proofs.Expansion.Declaration

/-!
# Access labels

A segment of a body may begin with access labels, each a word of its own or the beginning of one.
They are dropped one after the other, each of the three once and in the order in which they are
listed. So labels in a row are dropped up to the first that is out of order.

* `Labelled`: words with labels in front of them.
* `Bare`: words that do not begin with an access label.
* `LosesLabels`: what a segment loses of its labels when it becomes a declaration.
* `losesLabels_ofPiece`: how labels are dropped.
-/

namespace StructUnfold.Declaration

open Text

/-- Words with labels in front of them: `Labelled labels rest d` if `d` begins with `labels`, each
set apart or attached to what follows it, and goes on with `rest`. -/
inductive Labelled : List (List Char) → Declaration → Declaration → Prop where
  /-- No label is left. -/
  | nil (d : Declaration) : Labelled [] d d
  /-- A label that is a word. -/
  | apart {label labels rest d} (h : Labelled labels rest d) :
    Labelled (label :: labels) rest (label :: d)
  /-- A label that begins a word. -/
  | attached {label labels rest c cs d} (h : Labelled labels rest ((c :: cs) :: d)) :
    Labelled (label :: labels) rest ((label ++ c :: cs) :: d)

/-- Words do not begin with an access label. -/
def Bare (d : Declaration) : Prop :=
  ∀ label ∈ accessLabels, ∀ word ∈ d.head?, ¬label <+: word

/-- A segment becomes a declaration: its words are labels and then `rest`. The labels `gone` are
dropped, for they stand in order and none of them twice; the first of the labels `kept` is out of
order, and so these stay in front. -/
structure LosesLabels (piece : List Char) (gone kept : List (List Char)) (rest : Declaration) :
    Prop where
  /-- The labels are access labels. -/
  labels : ∀ label ∈ gone ++ kept, label ∈ accessLabels
  /-- Behind them there are no more. -/
  bare : Bare rest
  /-- The segment consists of them and the rest. -/
  words : Labelled (gone ++ kept) rest (Text.words piece)
  /-- Those are dropped that stand in order. -/
  ordered : gone.Sublist accessLabels
  /-- The next one does not. -/
  stops : ∀ label ∈ kept.head?, ¬(gone ++ [label]).Sublist accessLabels
  /-- The declaration consists of what is left. -/
  ofPiece : Labelled kept rest (ofPiece piece)

variable {label : List Char} {labels kept : List (List Char)} {rest d : Declaration}

/-- Words begin with labels and go on with words that do not begin with any. -/
theorem exists_labelled (d : Declaration) :
    ∃ labels rest, (∀ label ∈ labels, label ∈ accessLabels) ∧ Bare rest ∧
      Labelled labels rest d := by
  -- By induction on the number of characters, for the rest of a word is a word again.
  induction hn : d.flatten.length using Nat.strongRecOn generalizing d with
  | ind n ih =>
    by_cases hlabel : ∃ label ∈ accessLabels, ∃ word ∈ d.head?, label <+: word
    · obtain ⟨label, hlabel, word, hword, back, rfl⟩ := hlabel
      obtain ⟨ds, rfl⟩ := List.head?_eq_some_iff.1 hword
      have hpos : ∀ l ∈ accessLabels, 0 < l.length := by decide
      have hlength := hpos label hlabel
      have hlabels : ∀ {labels : List (List Char)}, (∀ l ∈ labels, l ∈ accessLabels) →
          ∀ l ∈ label :: labels, l ∈ accessLabels := fun h =>
        List.forall_mem_cons.2 ⟨hlabel, h⟩
      rw [List.flatten_cons, List.length_append, List.length_append] at hn
      cases back with
      | nil =>
        obtain ⟨labels, rest, hall, hrest, h⟩ := ih _ (by omega) ds rfl
        rw [List.append_nil]
        exact ⟨_, rest, hlabels hall, hrest, .apart h⟩
      | cons c cs =>
        obtain ⟨labels, rest, hall, hrest, h⟩ := ih _ (by
          rw [← hn, List.flatten_cons, List.length_append]
          omega) ((c :: cs) :: ds) rfl
        exact ⟨_, rest, hlabels hall, hrest, .attached h⟩
    · have hbare : Bare d := fun label hmem word hword hstart =>
        hlabel ⟨label, hmem, word, hword, hstart⟩
      exact ⟨[], d, nofun, hbare, .nil d⟩

/-! ### Dropping one label -/

/-- The label in front is dropped. -/
theorem Labelled.dropLabel (h : Labelled (label :: labels) rest d) :
    Labelled labels rest (dropLabel label d) := by
  cases h with
  | apart h =>
    have hafter : after? label label = some [] := after?_eq_some_iff.2 (List.append_nil _).symm
    rw [Declaration.dropLabel, hafter]
    exact h
  | attached h =>
    rw [Declaration.dropLabel, after?_append]
    exact h

/-- No access label is the beginning of another one. -/
theorem not_isPrefix_append {other : List Char} (hlabel : label ∈ accessLabels)
    (hother : other ∈ accessLabels) (hne : label ≠ other) (back : List Char) :
    ¬label <+: other ++ back := by
  intro hstart
  have hapart : ∀ l ∈ accessLabels, ∀ k ∈ accessLabels, l ≠ k → ¬l <+: k := by decide
  rcases List.prefix_or_prefix_of_prefix hstart (List.prefix_append other back) with h | h
  · exact hapart _ hlabel _ hother hne h
  · exact hapart _ hother _ hlabel (Ne.symm hne) h

/-- Another label than the one in front is not dropped. -/
theorem Labelled.dropLabel_eq {other : List Char} (h : Labelled (other :: labels) rest d)
    (hlabel : label ∈ accessLabels) (hother : other ∈ accessLabels) (hne : label ≠ other) :
    Declaration.dropLabel label d = d := by
  refine dropLabel_of_not_isPrefix fun word hword => ?_
  cases h with
  | apart h =>
    obtain rfl := Option.some.inj hword
    have hself := not_isPrefix_append hlabel hother hne []
    rwa [List.append_nil] at hself
  | attached h =>
    obtain rfl := Option.some.inj hword
    exact not_isPrefix_append hlabel hother hne _

/-! ### Dropping the labels -/

/-- Where some of the access labels are dropped one after the other, those in front are dropped as
long as they stand in this order. -/
theorem exists_foldl_dropLabel {order : List (List Char)}
    (horder : ∀ label ∈ order, label ∈ accessLabels)
    (hlabels : ∀ label ∈ labels, label ∈ accessLabels) (hbare : Bare rest)
    (h : Labelled labels rest d) :
    ∃ gone kept, labels = gone ++ kept ∧ gone.Sublist order ∧
      (∀ label ∈ kept.head?, ¬(gone ++ [label]).Sublist order) ∧
      Labelled kept rest (order.foldl (fun words label => dropLabel label words) d) := by
  induction order generalizing labels d with
  | nil => exact ⟨[], labels, rfl, List.Sublist.refl _, by simp, h⟩
  | cons next order ih =>
    obtain ⟨hnext, horder⟩ := List.forall_mem_cons.1 horder
    rw [List.foldl_cons]
    cases labels with
    | nil =>
      cases h with
      | nil =>
        rw [dropLabel_of_not_isPrefix (hbare next hnext)]
        obtain ⟨gone, kept, hparts, -, -, hkept⟩ := ih horder hlabels (.nil rest)
        obtain ⟨rfl, rfl⟩ := List.append_eq_nil_iff.1 hparts.symm
        exact ⟨[], [], rfl, List.nil_sublist _, by simp, hkept⟩
    | cons front labels =>
      obtain ⟨hfront, hlater⟩ := List.forall_mem_cons.1 hlabels
      by_cases heq : next = front
      · subst heq
        obtain ⟨gone, kept, rfl, hgone, hstops, hkept⟩ := ih horder hlater h.dropLabel
        refine ⟨next :: gone, kept, rfl, hgone.cons_cons next, fun label hlabel => ?_, hkept⟩
        rw [List.cons_append, List.cons_sublist_cons]
        exact hstops label hlabel
      · rw [h.dropLabel_eq hnext hfront heq]
        obtain ⟨gone, kept, hparts, hgone, hstops, hkept⟩ := ih horder hlabels h
        refine ⟨gone, kept, hparts, hgone.cons next, fun label hlabel hsub => ?_, hkept⟩
        rcases List.sublist_cons_iff.1 hsub with hsub | ⟨r, hr, -⟩
        · exact hstops label hlabel hsub
        · -- The first label is `front`, whether it is dropped or not.
          refine heq ?_
          cases gone with
          | nil =>
            rw [List.nil_append] at hparts hr
            rw [← hparts, List.head?_cons, Option.mem_some] at hlabel
            rw [hlabel, (List.cons_eq_cons.1 hr).1]
          | cons first gone =>
            rw [(List.cons_eq_cons.1 hparts).1]
            exact (List.cons_eq_cons.1 hr).1.symm

/-- How a segment loses its labels. -/
theorem losesLabels_ofPiece (piece : List Char) :
    ∃ gone kept rest, LosesLabels piece gone kept rest := by
  obtain ⟨labels, rest, hlabels, hbare, h⟩ := exists_labelled (words piece)
  obtain ⟨gone, kept, rfl, hordered, hstops, hkept⟩ :=
    exists_foldl_dropLabel (fun _ => id) hlabels hbare h
  exact ⟨gone, kept, rest, hlabels, hbare, h, hordered, hstops, hkept⟩

/-- The labels are dropped exactly if they stand in order. -/
theorem LosesLabels.kept_eq_nil_iff {piece : List Char} {gone : List (List Char)}
    (h : LosesLabels piece gone kept rest) : kept = [] ↔ (gone ++ kept).Sublist accessLabels := by
  constructor
  · rintro rfl
    rw [List.append_nil]
    exact h.ordered
  · intro hsub
    cases kept with
    | nil => rfl
    | cons label kept =>
      refine absurd (List.Sublist.trans ?_ hsub) (h.stops label rfl)
      exact List.Sublist.append_left (List.cons_sublist_cons.2 (List.nil_sublist kept)) gone

end StructUnfold.Declaration
