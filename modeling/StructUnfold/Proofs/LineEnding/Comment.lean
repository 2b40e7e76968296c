import StructUnfold.Proofs.Comment.Kinds
import StructUnfold.Proofs.LineEnding.Text

/-!
# Comments in lines with carriage returns

The comments of a text stand in the same places, whether its lines end in a line feed alone or in a
carriage return and a line feed: neither character opens or closes a comment but the line feed, and
a carriage return before it belongs to whatever goes on up to the end of the line.

* `Mode.Admits`: the character that may follow behind a mode.
* `ignoresReturns_strip`: what is read from a text without its comments.
* `exists_kindsFrom_crlf`, `inSpans_crlf`: a character stands in a comment of both forms or of none.
-/

namespace StructUnfold.Comment

open Text

/-! ### The automaton -/

/-- Whether the automaton can stand in a mode before a character, or at the end of the text: it is
in the middle of a mark only if the rest of the mark follows. -/
def Mode.Admits (mode : Mode) (next : Option Char) : Prop :=
  match mode with
  | .openingLine => next = some '/'
  | .openingBlock => next = some '*'
  | .closingBlock => next = some '/'
  | _ => True

theorem Mode.admits_code (next : Option Char) : Mode.code.Admits next :=
  trivial

/-- The automaton steps into the middle of a mark only if it sees the rest of the mark. -/
theorem Mode.admits_step (mode : Mode) (c : Char) (next : Option Char) :
    (mode.step c next).2.Admits next := by
  cases mode with
  | code =>
    rw [step]
    split
    · rename_i h
      -- The test for a mark has looked at the next character.
      exact eq_of_beq (Bool.and_eq_true_iff.1 h).2
    · split
      · rename_i h
        exact eq_of_beq (Bool.and_eq_true_iff.1 h).2
      · trivial
  | line =>
    rw [step]
    split <;> trivial
  | block =>
    rw [step]
    split
    · rename_i h
      exact eq_of_beq (Bool.and_eq_true_iff.1 h).2
    · trivial
  | _ => trivial

/-- A step depends on the next character only as far as it may complete a mark. -/
theorem Mode.step_congr {next next' : Option Char}
    (hslash : (next == some '/') = (next' == some '/'))
    (hstar : (next == some '*') = (next' == some '*')) (mode : Mode) (c : Char) :
    mode.step c next = mode.step c next' := by
  cases mode <;> simp only [step, hslash, hstar]

theorem Mode.step_head?_crlf (mode : Mode) (c : Char) (s : List Char) :
    mode.step c (crlf s).head? = mode.step c s.head? := by
  cases s with
  | nil => rfl
  | cons d s =>
    by_cases hd : d = '\n'
    · subst hd
      exact step_congr rfl rfl mode c
    · rw [crlf_cons_of_ne hd]
      rfl

/-- A carriage return before a line feed leaves the automaton in its mode. -/
theorem Mode.step_return {mode : Mode} (h : mode.Admits (some '\n')) :
    (mode.step '\r' (some '\n')).2 = mode := by
  cases mode with
  | code => rfl
  | line => rfl
  | block => rfl
  | _ => cases h

/-! ### Texts without comments -/

/-- What is read from a text without its comments. A carriage return is kept with the line feed,
except at the end of a line comment, where the line feed is kept alone. -/
theorem ignoresReturns_strip {α : Type} {f : List Char → α} (h : IgnoresReturns f) :
    IgnoresReturns fun s => f (strip s) := by
  intro s t
  -- Up to the line end the automaton goes through the same modes; then the mode decides whether the
  -- carriage return is kept.
  have hfrom : ∀ acc (mode : Mode), mode.Admits (s ++ '\n' :: t).head? →
      f (stripOnto acc mode (s ++ '\r' :: '\n' :: t)) =
        f (stripOnto acc mode (s ++ '\n' :: t)) := by
    induction s with
    | nil =>
      intro acc mode hadmits
      cases mode with
      | code =>
        have hreturn : stripOnto acc .code ('\r' :: '\n' :: t) =
            stripOnto ('\n' :: '\r' :: acc) .code t := rfl
        have hfeed : stripOnto acc .code ('\n' :: t) = stripOnto ('\n' :: acc) .code t := rfl
        rw [List.nil_append, List.nil_append, hreturn, hfeed, stripOnto_eq,
          stripOnto_eq ('\n' :: acc)]
        simpa using h acc.reverse (stripOnto [] .code t)
      | line => rfl
      | block => rfl
      | _ => cases hadmits
    | cons c s ih =>
      intro acc mode _
      have hstep : mode.step c (s ++ '\r' :: '\n' :: t).head? =
          mode.step c (s ++ '\n' :: t).head? := by
        cases s with
        | nil => exact Mode.step_congr rfl rfl mode c
        | cons d s => rfl
      have hadmits := mode.admits_step c (s ++ '\n' :: t).head?
      rw [List.cons_append, List.cons_append, stripOnto, stripOnto, hstep]
      revert hadmits
      obtain ⟨kind, mode'⟩ := mode.step c (s ++ '\n' :: t).head?
      intro hadmits
      cases kind with
      | code => exact ih _ _ hadmits
      | opening => exact ih _ _ hadmits
      | inside => exact ih _ _ hadmits
  exact hfrom [] .code trivial

/-! ### Places of comments -/

theorem kindsFrom_crlf_cons_of_ne (mode : Mode) {c : Char} (hc : c ≠ '\n') (s : List Char) :
    kindsFrom mode (crlf (c :: s)) =
      (c, (mode.step c s.head?).1) :: kindsFrom (mode.step c s.head?).2 (crlf s) := by
  rw [crlf_cons_of_ne hc, kindsFrom, Mode.step_head?_crlf]

theorem kindsFrom_crlf_feed_cons {mode : Mode} (h : mode.Admits (some '\n')) (s : List Char) :
    kindsFrom mode (crlf ('\n' :: s)) = ('\r', (mode.step '\r' (some '\n')).1) ::
      ('\n', (mode.step '\n' s.head?).1) :: kindsFrom (mode.step '\n' s.head?).2 (crlf s) := by
  rw [crlf_feed_cons, kindsFrom, kindsFrom, List.head?_cons, Mode.step_return h,
    Mode.step_head?_crlf]

/-- A character that ends no line is found again behind the same text and is of the same kind. -/
theorem exists_kindsFrom_crlf {mode : Mode} {s : List Char} {front back : List (Char × Kind)}
    {c : Char} {k : Kind} (hadmits : mode.Admits s.head?)
    (h : kindsFrom mode s = front ++ (c, k) :: back) (hc : c ≠ '\n') :
    ∃ front' back', kindsFrom mode (crlf s) = front' ++ (c, k) :: back' ∧
      front'.map Prod.fst = crlf (front.map Prod.fst) := by
  induction s generalizing mode front with
  | nil => simp [kindsFrom] at h
  | cons d s ih =>
    have hnext := mode.admits_step d s.head?
    rw [kindsFrom] at h
    cases front with
    | nil =>
      obtain ⟨hx, -⟩ := List.cons_eq_cons.1 h
      obtain ⟨rfl, rfl⟩ := Prod.mk.inj hx
      exact ⟨[], _, kindsFrom_crlf_cons_of_ne mode hc s, rfl⟩
    | cons x front =>
      obtain ⟨rfl, hrest⟩ := List.cons_eq_cons.1 h
      obtain ⟨front', back', hkinds, hfront⟩ := ih hnext hrest
      by_cases hd : d = '\n'
      · subst hd
        rw [kindsFrom_crlf_feed_cons hadmits, hkinds, List.map_cons, crlf_feed_cons, ← hfront]
        exact ⟨_ :: _ :: front', back', rfl, rfl⟩
      · rw [kindsFrom_crlf_cons_of_ne mode hd, hkinds, List.map_cons, crlf_cons_of_ne hd, ← hfront]
        exact ⟨_ :: front', back', rfl, rfl⟩

/-- A character that ends no line stands in a comment of both forms of a text or of none. -/
theorem inSpans_crlf (p t : List Char) {c : Char} (hc : c ≠ '\n') :
    inSpans (spans (crlf (p ++ c :: t))) (byteSize (crlf p)) =
      inSpans (spans (p ++ c :: t)) (byteSize p) := by
  -- Whether a comment covers the character is told by its kind, which both forms agree on.
  obtain ⟨front, back, hkinds, rfl, hback⟩ :=
    List.map_eq_append_iff.1 (map_fst_kinds (p ++ c :: t))
  obtain ⟨⟨d, k⟩, back, rfl, hd, -⟩ := List.map_eq_cons_iff.1 hback
  obtain rfl : d = c := hd
  obtain ⟨front', back', hkinds', hfront⟩ :=
    exists_kindsFrom_crlf (Mode.admits_code _) hkinds hc
  rw [← hfront, inSpans_eq hkinds', inSpans_eq hkinds]

end StructUnfold.Comment
