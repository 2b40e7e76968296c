import Mathlib.Algebra.GroupWithZero.Nat
import Mathlib.Data.List.Infix
import StructUnfold.Document.Basic
import StructUnfold.Proofs.Outline.Alias
import StructUnfold.Proofs.Text.Offset
import StructUnfold.Proofs.Text.Utf16

/-!
# Documents and the buffers of an editor

An editor holds a text as UTF-16 code units and names a place by the number of line feeds before it
and the number of units on its line. A document holds the same text as characters and looks for the
place in an index of its lines. Changes keep the two in step.

* `Editor.change`: what a change does to the buffer of an editor.
* `offsetOf?_cases`: a place denotes the same cut in the text and in the buffer, or no cut in both.
* `utf16_change`: one change does the same to both.
* `isExact_change`: and leaves an index that lists the starts of the lines.
* `Document.applyChanges_eq_editor`: so do all changes of a session.
-/

namespace StructUnfold

open Text

/-- Whether a place is not behind another. -/
def Position.le (p q : Position) : Bool :=
  p.line < q.line || p.line == q.line && p.character ≤ q.character

namespace Editor

/-- The text of a document as an editor holds it. -/
abbrev Buffer := List UInt16

variable {b : Buffer} {p q : Position}

/-- The lines of a buffer. -/
def lines (b : Buffer) : List Buffer :=
  b.splitOn feedUnit

/-- Number of units before a line. -/
def startOf (b : Buffer) (line : Nat) : Nat :=
  (((lines b).take line).map (·.length + 1)).sum

/-- A place is one between two characters of the text, at an end of a line or at the end. -/
def IsBoundary (b : Buffer) (p : Position) : Prop :=
  ∃ row ∈ (lines b)[p.line]?,
    p.character ≤ row.length ∧ (row[p.character]?.any isTrailing) = false

/-- The column that a column stands for: the end of the character it is in, or the end of the line
if it lies behind that. -/
def settle (row : Buffer) (column : Nat) : Nat :=
  if row[column]?.any isTrailing then column + 1 else min column row.length

/-- Number of units before a place; none if there is no such line. -/
def indexOf? (b : Buffer) (p : Position) : Option Nat :=
  (lines b)[p.line]?.map fun line => startOf b p.line + settle line p.character

/-- The buffer after a change. -/
def change (b : Buffer) (c : Change) : Buffer :=
  match c.range with
  | none => utf16 c.text
  | some r =>
    match indexOf? b r.start, indexOf? b r.stop with
    | some i, some j => if i ≤ j then b.take i ++ utf16 c.text ++ b.drop j else b
    | _, _ => b

/-- The index of a boundary is made of its line and its column alone. -/
theorem IsBoundary.indexOf?_eq (h : IsBoundary b p) :
    indexOf? b p = some (startOf b p.line + p.character) := by
  obtain ⟨line, hline, hle, hpair⟩ := h
  rw [indexOf?, Option.mem_def.1 hline, Option.map_some, settle, hpair, if_neg Bool.false_ne_true,
    Nat.min_eq_left hle]

theorem startOf_succ {k : Nat} {line : Buffer} (h : (lines b)[k]? = some line) :
    startOf b (k + 1) = startOf b k + (line.length + 1) := by
  rw [startOf, startOf, List.take_add_one, h, List.map_append, List.sum_append]
  rfl

theorem startOf_mono {k l : Nat} (h : k ≤ l) : startOf b k ≤ startOf b l := by
  induction l, h using Nat.le_induction with
  | base => exact le_rfl
  | succ l _ ih =>
    refine ih.trans ?_
    rw [startOf, startOf, List.take_add_one, List.map_append, List.sum_append]
    exact Nat.le_add_right _ _

/-- Boundaries are ordered as their indices are. -/
theorem IsBoundary.le_iff (hp : IsBoundary b p) (hq : IsBoundary b q) :
    p.le q = true ↔
      startOf b p.line + p.character ≤ startOf b q.line + q.character := by
  obtain ⟨line, hline, hle, -⟩ := hp
  obtain ⟨line', hline', hle', -⟩ := hq
  simp only [Position.le, Bool.or_eq_true, Bool.and_eq_true, decide_eq_true_eq, beq_iff_eq]
  rcases Nat.lt_trichotomy p.line q.line with hlt | heq | hgt
  · have hnext := startOf_succ hline
    have hmono : startOf b (p.line + 1) ≤ startOf b q.line := startOf_mono hlt
    omega
  · rw [heq]
    omega
  · have hnext := startOf_succ hline'
    have hmono : startOf b (q.line + 1) ≤ startOf b p.line := startOf_mono hgt
    omega

/-- A change of lines that are not there changes nothing. -/
theorem change_eq_self {r : Range} {text : List Char}
    (h : (lines b).length ≤ r.start.line ∨ (lines b).length ≤ r.stop.line) :
    change b ⟨some r, text⟩ = b := by
  have hnone : ∀ p : Position, (lines b).length ≤ p.line → indexOf? b p = none := fun p hp => by
    rw [indexOf?, List.getElem?_eq_none hp]
    rfl
  rcases h with h | h
  · simp only [change, hnone _ h]
  · simp only [change, hnone _ h]
    cases indexOf? b r.start <;> rfl

/-! ## Columns -/

/-- No character ends where a line starts. -/
theorem settle_zero (s : List Char) : settle (utf16 s) 0 = 0 := by
  cases s with
  | nil => rfl
  | cons c s =>
    rcases codeUnits_cases c with ⟨-, u, hu, -, hfirst⟩ | ⟨-, u, v, huv, -, hfirst, -⟩
    · simp [settle, utf16_cons, hu, hfirst]
    · simp [settle, utf16_cons, huv, hfirst]

/-- A column behind the start of a character lies behind the whole character. -/
theorem settle_cons (c : Char) (s : List Char) {column : Nat} (h : column ≠ 0) :
    settle (utf16 (c :: s)) column =
      charUnits c + settle (utf16 s) (column - charUnits c) := by
  obtain ⟨column, rfl⟩ := Nat.exists_eq_succ_of_ne_zero h
  rw [utf16_cons]
  rcases codeUnits_cases c with ⟨hone, u, hu, -⟩ | ⟨htwo, u, v, huv, -, -, hsecond⟩
  · rw [hu, hone, settle, settle]
    simp only [List.singleton_append, List.getElem?_cons_succ, List.length_cons,
      Nat.succ_eq_add_one, Nat.add_sub_cancel]
    split <;> omega
  · rw [huv, htwo]
    cases column with
    | zero =>
      rw [Nat.sub_eq_zero_of_le (by decide), settle_zero, settle]
      simp [hsecond]
    | succ column =>
      rw [settle, settle]
      simp only [List.cons_append, List.nil_append, List.getElem?_cons_succ, List.length_cons,
        Nat.succ_eq_add_one]
      have hcolumn : column + 1 + 1 - 2 = column := by omega
      rw [hcolumn]
      split <;> omega

end Editor

namespace IndexedText

/-- A line is cut between two characters, at the column that the given one stands for. -/
theorem exists_cutAt_eq (before line : List Char) (column : Nat) :
    ∃ front back, line = front ++ back ∧
      cutAt before column line = (front.reverse ++ before, back) ∧
      Editor.settle (utf16 line) column = units front := by
  induction line generalizing before column with
  | nil => exact ⟨[], [], rfl, rfl, by simp [Editor.settle]⟩
  | cons c line ih =>
    rw [cutAt]
    split
    · rename_i hzero
      rw [hzero]
      exact ⟨[], c :: line, rfl, rfl, Editor.settle_zero _⟩
    · rename_i hne
      obtain ⟨front, back, rfl, hcut, hsettle⟩ := ih (c :: before) (column - charUnits c)
      refine ⟨c :: front, back, rfl, ?_, ?_⟩
      · rw [hcut, List.reverse_cons, List.append_assoc]
        rfl
      · rw [Editor.settle_cons c _ hne, hsettle, units_cons]

/-! ## Lines -/

/-- A text is one line, or it is a line, a line feed and a shorter text. -/
@[elab_as_elim]
theorem lines_induction {P : List Char → Prop} (last : ∀ s, '\n' ∉ s → P s)
    (cons : ∀ line rest, '\n' ∉ line → P rest → P (line ++ '\n' :: rest)) (s : List Char) :
    P s := by
  induction hn : s.length using Nat.strong_induction_on generalizing s with
  | _ n ih =>
    by_cases h : '\n' ∈ s
    · obtain ⟨line, rest, rfl, hline⟩ := List.eq_append_cons_of_mem h
      refine cons line rest hline (ih _ ?_ rest rfl)
      rw [← hn, List.length_append, List.length_cons]
      omega
    · exact last s h

theorem splitLines_of_not_mem {s : List Char} (h : '\n' ∉ s) : splitLines s = [s] :=
  List.splitOn_eq_singleton h

theorem splitLines_append {line : List Char} (h : '\n' ∉ line) (rest : List Char) :
    splitLines (line ++ '\n' :: rest) = line :: splitLines rest :=
  List.splitOn_append_cons_self_of_not_mem h rest

/-- The lines of a buffer are those of the text. -/
theorem lines_utf16 (s : List Char) : Editor.lines (utf16 s) = (splitLines s).map utf16 := by
  induction s using lines_induction with
  | last s h =>
    rw [splitLines_of_not_mem h]
    exact List.splitOn_eq_singleton (feedUnit_not_mem_utf16 h)
  | cons line rest hline ih =>
    have hfeed : utf16 (line ++ '\n' :: rest) = utf16 line ++ feedUnit :: utf16 rest := by
      rw [utf16_append, utf16_cons]
      rfl
    rw [splitLines_append hline, List.map_cons, hfeed, Editor.lines,
      List.splitOn_append_cons_self_of_not_mem (feedUnit_not_mem_utf16 hline)]
    exact congrArg _ ih

/-- A line of a text: `front` stands before it, and `back` behind it begins with the line feed that
ends the line. -/
structure LineAt (s : List Char) (k : Nat) (front line back : List Char) : Prop where
  /-- The text is put together of the three. -/
  parts : s = front ++ (line ++ back)
  /-- The line holds no line feed. -/
  no_feed : '\n' ∉ line
  /-- It begins where the text does or behind a line feed. -/
  begun : front = [] ∨ front.getLast? = some '\n'
  /-- It goes on to the next line feed or to the end of the text. -/
  ended : back = [] ∨ back.head? = some '\n'
  /-- Its number is that of the line feeds before it. -/
  count : front.count '\n' = k

/-- A line is what stands before the next line feed. -/
theorem LineAt.takeWhile_eq {s front line back : List Char} {k : Nat}
    (h : LineAt s k front line back) : (line ++ back).takeWhile (· != '\n') = line := by
  have hstop : back.takeWhile (· != '\n') = [] := by
    rcases h.ended with rfl | hhead
    · rfl
    · obtain ⟨rest, rfl⟩ := List.head?_eq_some_iff.1 hhead
      rfl
  have hall : ∀ c ∈ line, (c != '\n') = true := fun c hc =>
    bne_iff_ne.2 fun heq => h.no_feed (heq ▸ hc)
  rw [List.takeWhile_append_of_pos hall, hstop, List.append_nil]

/-- A line lies behind the text whose size is its start, or there is no such line. -/
theorem startsFrom_cases (s : List Char) (pos k : Nat) :
    (∃ front line back, LineAt s k front line back ∧
        (splitLines s)[k]? = some line ∧
        (startsFrom pos (splitLines s))[k]? = some (pos + byteSize front) ∧
        (((splitLines s).take k).map (units · + 1)).sum = units front) ∨
      (splitLines s)[k]? = none ∧ (startsFrom pos (splitLines s))[k]? = none := by
  induction s using lines_induction generalizing pos k with
  | last s h =>
    rw [splitLines_of_not_mem h]
    cases k with
    | zero => exact .inl ⟨[], s, [], ⟨by simp, h, .inl rfl, .inl rfl, rfl⟩, rfl, rfl, rfl⟩
    | succ k => exact .inr ⟨rfl, rfl⟩
  | cons first rest hfirst ih =>
    rw [splitLines_append hfirst, startsFrom]
    cases k with
    | zero =>
      exact .inl ⟨[], first, '\n' :: rest, ⟨rfl, hfirst, .inl rfl, .inr rfl, rfl⟩, rfl, rfl, rfl⟩
    | succ k =>
      simp only [List.getElem?_cons_succ]
      rcases ih (pos + byteSize first + 1) k with
        ⟨front, line, back, ⟨rfl, hline, hbegun, hback, hcount⟩, hk, hstart, hunits⟩ | hnone
      · -- A line of the rest has the first line and its line feed before it.
        refine .inl ⟨first ++ '\n' :: front, line, back, ⟨by simp, hline, .inr ?_, hback, ?_⟩, hk,
          ?_, ?_⟩
        · rcases hbegun with rfl | hfeed
          · simp
          · simp [List.getLast?_cons, hfeed]
        · rw [List.count_append, List.count_eq_zero_of_not_mem hfirst, List.count_cons_self, hcount,
            Nat.zero_add]
        · rw [hstart, byteSize_append, byteSize_newline_cons]
          exact congrArg some (by omega)
        · have hfeed : charUnits '\n' = 1 := rfl
          rw [List.take_succ_cons, List.map_cons, List.sum_cons, hunits, units_append, units_cons,
            hfeed, Nat.add_assoc]
      · exact .inr hnone

/-- The line of a start is read from there. -/
theorem LineAt.lineFrom_eq {s front line back : List Char} {k : Nat}
    (h : LineAt s k front line back) : (ofChars s).lineFrom (byteSize front) = line := by
  rw [lineFrom, ofChars, h.parts, dropBytes?_byteSize_append, Option.getD_some, h.takeWhile_eq]

/-- A place denotes the same cut in the text and in the buffer, or no cut in both. -/
theorem offsetOf?_cases (s : List Char) (p : Position) :
    (∃ before after, s = before ++ after ∧
        (ofChars s).offsetOf? p = some (byteSize before) ∧
        Editor.indexOf? (utf16 s) p = some (units before)) ∨
      (ofChars s).offsetOf? p = none ∧ Editor.indexOf? (utf16 s) p = none := by
  rw [offsetOf?, Editor.indexOf?, lines_utf16, List.getElem?_map]
  rcases startsFrom_cases s 0 p.line with
    ⟨front, line, back, hat, hk, hstart, hunits⟩ | ⟨hk, hstart⟩
  · refine .inl ?_
    have hstart' : (ofChars s).lineStarts[p.line]? = some (byteSize front) := by
      rw [ofChars, hstart, Nat.zero_add]
    have hindex : Editor.startOf (utf16 s) p.line = units front := by
      rw [Editor.startOf, lines_utf16, ← hunits, ← List.map_take, List.map_map]
      refine congrArg List.sum (List.map_congr_left fun l _ => ?_)
      show (utf16 l).length + 1 = _
      rw [length_utf16]
    have hfrom := hat.lineFrom_eq
    obtain ⟨front', back', rfl, hcut, hsettle⟩ := exists_cutAt_eq [] line p.character
    refine ⟨front ++ front', back' ++ back, by rw [hat.parts]; simp, ?_, ?_⟩
    · rw [hstart', Option.map_some, hfrom, hcut, List.append_nil, byteSize_reverse,
        byteSize_append]
    · rw [hk, Option.map_some, Option.map_some, hindex, hsettle, units_append]
  · rw [ofChars, hstart, hk]
    exact .inr ⟨rfl, rfl⟩

/-! ## Changes -/

/-- Of two cuts of a text, the one with the fewer bytes before it has the fewer units before it, and
a stretch lies between them. -/
theorem exists_between {b₁ a₁ b₂ a₂ : List Char} (h : b₁ ++ a₁ = b₂ ++ a₂) :
    (units b₁ ≤ units b₂ ↔ byteSize b₁ ≤ byteSize b₂) ∧
      (byteSize b₁ ≤ byteSize b₂ → ∃ m, b₂ = b₁ ++ m) := by
  rcases List.prefix_or_prefix_of_prefix ⟨a₁, h⟩ ⟨a₂, rfl⟩ with ⟨m, rfl⟩ | ⟨m, rfl⟩
  · rw [units_append, byteSize_append]
    exact ⟨⟨fun _ => by omega, fun _ => by omega⟩, fun _ => ⟨m, rfl⟩⟩
  · rw [units_append, byteSize_append]
    have hzero : units m = 0 ↔ byteSize m = 0 := by
      cases m with
      | nil => rfl
      | cons c m =>
        have hunits := charUnits_pos c
        have hbytes := c.utf8Size_pos
        rw [units_cons, byteSize_cons]
        omega
    refine ⟨by omega, fun hle => ⟨[], ?_⟩⟩
    obtain rfl : m = [] := byteSize_eq_zero_iff.1 (by omega)
    simp

/-- What lies before, in and behind a range is cut at its two ends. -/
theorem cut?_eq {b m a : List Char} {r : Range}
    (hstart : (ofChars (b ++ m ++ a)).offsetOf? r.start = some (byteSize b))
    (hstop : (ofChars (b ++ m ++ a)).offsetOf? r.stop = some (byteSize (b ++ m))) :
    (ofChars (b ++ m ++ a)).cut? r = some (b, m, a) := by
  have hlen : byteSize (b ++ m) - byteSize b = byteSize m := by
    rw [byteSize_append]
    omega
  have hle : byteSize b ≤ byteSize (b ++ m) := by
    rw [byteSize_append]
    omega
  rw [cut?, hstart, hstop]
  simp only [Option.bind_eq_bind, Option.bind_some, if_pos hle, hlen]
  simp [ofChars, List.append_assoc]

/-- One change does the same to a text and to the buffer of an editor. -/
theorem utf16_change (s : List Char) (c : Change) :
    utf16 ((ofChars s).change c).chars = Editor.change (utf16 s) c := by
  rw [change, Editor.change]
  cases hrange : c.range with
  | none => rfl
  | some r =>
    rcases offsetOf?_cases s r.start with
      ⟨b₁, a₁, rfl, hstart, hstart'⟩ | ⟨hstart, hstart'⟩
    · rcases offsetOf?_cases (b₁ ++ a₁) r.stop with
        ⟨b₂, a₂, heq, hstop, hstop'⟩ | ⟨hstop, hstop'⟩
      · -- Both ends of the range are found. In bytes they are in order exactly if they are in
        -- units.
        obtain ⟨hiff, hbetween⟩ := exists_between heq
        simp only [hstart', hstop']
        by_cases hle : byteSize b₁ ≤ byteSize b₂
        · obtain ⟨m, rfl⟩ := hbetween hle
          rw [if_pos (hiff.2 hle)]
          rw [heq] at hstart hstop ⊢
          have htake : (utf16 (b₁ ++ m ++ a₂)).take (units b₁) = utf16 b₁ := by
            rw [List.append_assoc, utf16_append, ← length_utf16, List.take_left]
          have hdrop : (utf16 (b₁ ++ m ++ a₂)).drop (units (b₁ ++ m)) = utf16 a₂ := by
            rw [utf16_append, ← length_utf16, List.drop_left]
          rw [cut?_eq hstart hstop, htake, hdrop]
          simp [ofChars]
        · have hnone : (ofChars (b₁ ++ a₁)).cut? r = none := by
            rw [cut?, hstart, hstop]
            simp [hle]
          rw [hnone, if_neg (fun h => hle (hiff.1 h))]
          rfl
      · -- One end of the range is not found.
        have hnone : (ofChars (b₁ ++ a₁)).cut? r = none := by
          rw [cut?, hstart, hstop]
          rfl
        simp only [hnone, hstart', hstop']
        rfl
    · have hnone : (ofChars s).cut? r = none := by
        rw [cut?, hstart]
        rfl
      simp only [hnone, hstart']
      rfl

/-! ## The index of lines -/

/-- The index of a text lists the places at which lines start, in order: the start of the text and
the places behind line feeds. -/
structure IsExact (t : IndexedText) : Prop where
  /-- They are in order, none twice. -/
  sorted : t.lineStarts.Pairwise (· < ·)
  /-- They are the starts of lines. -/
  mem_iff : ∀ n, n ∈ t.lineStarts ↔ ∃ before after, t.chars = before ++ after ∧
    byteSize before = n ∧ (before = [] ∨ before.getLast? = some '\n')

/-- The lines of a text start where it starts and behind its line feeds. -/
theorem mem_startsFrom_iff (s : List Char) (pos n : Nat) :
    n ∈ startsFrom pos (splitLines s) ↔ ∃ before after, s = before ++ after ∧
      pos + byteSize before = n ∧ (before = [] ∨ before.getLast? = some '\n') := by
  induction s using lines_induction generalizing pos with
  | last s h =>
    rw [splitLines_of_not_mem h, startsFrom, startsFrom, List.mem_singleton]
    constructor
    · rintro rfl
      exact ⟨[], s, rfl, rfl, .inl rfl⟩
    · rintro ⟨before, after, rfl, rfl, rfl | hfeed⟩
      · rfl
      · exact absurd (List.mem_append_left _ (List.mem_of_getLast? hfeed)) h
  | cons line rest hline ih =>
    rw [splitLines_append hline, startsFrom, List.mem_cons, ih]
    constructor
    · rintro (rfl | ⟨before, after, rfl, rfl, hbefore⟩)
      · exact ⟨[], _, rfl, rfl, .inl rfl⟩
      · refine ⟨line ++ '\n' :: before, after, by simp, ?_, .inr ?_⟩
        · rw [byteSize_append, byteSize_newline_cons]
          omega
        · rcases hbefore with rfl | hfeed
          · simp
          · simp [List.getLast?_cons, hfeed]
    · rintro ⟨before, after, heq, rfl, rfl | hfeed⟩
      · exact .inl rfl
      · refine .inr ?_
        -- A text that ends in a line feed reaches beyond the first line.
        have hout : before.length ≤ line.length → False := fun hle =>
          hline ((List.prefix_of_prefix_length_le ⟨after, heq.symm⟩ ⟨_, rfl⟩ hle).subset
            (List.mem_of_getLast? hfeed))
        rcases List.append_eq_append_iff.1 heq with ⟨m, rfl, hm⟩ | ⟨m, rfl, -⟩
        · cases m with
          | nil => exact (hout (by simp)).elim
          | cons c m =>
            obtain ⟨rfl, rfl⟩ := List.cons_eq_cons.1 hm
            refine ⟨m, after, rfl, ?_, ?_⟩
            · rw [byteSize_append, byteSize_newline_cons]
              omega
            · cases m with
              | nil => exact .inl rfl
              | cons d m =>
                refine .inr ?_
                rw [List.getLast?_append_of_ne_nil _ (List.cons_ne_nil _ _),
                  List.getLast?_cons_cons] at hfeed
                exact hfeed
        · exact (hout (by simp)).elim

theorem pairwise_startsFrom (ls : List (List Char)) (pos : Nat) :
    (startsFrom pos ls).Pairwise (· < ·) ∧ ∀ n ∈ startsFrom pos ls, pos ≤ n := by
  induction ls generalizing pos with
  | nil => exact ⟨.nil, by simp [startsFrom]⟩
  | cons l ls ih =>
    obtain ⟨hpair, hle⟩ := ih (pos + byteSize l + 1)
    rw [startsFrom, List.pairwise_cons, List.forall_mem_cons]
    refine ⟨⟨fun n hn => ?_, hpair⟩, le_rfl, fun n hn => ?_⟩
    · have := hle n hn
      omega
    · have := hle n hn
      omega

/-- The index that is made for a text is exact. -/
theorem isExact_ofChars (s : List Char) : (ofChars s).IsExact where
  sorted := (pairwise_startsFrom _ _).1
  mem_iff n := by
    rw [ofChars, mem_startsFrom_iff]
    simp only [Nat.zero_add]

/-- A change makes a new index. -/
theorem change_eq_ofChars (t : IndexedText) (c : Change) :
    t.change c = ofChars (t.change c).chars := by
  rw [change]
  split
  · rfl
  · split <;> rfl

/-- Changes leave an exact index. -/
theorem foldl_change_eq_ofChars (s : List Char) (changes : List Change) :
    changes.foldl change (ofChars s) = ofChars (changes.foldl change (ofChars s)).chars := by
  induction changes generalizing s with
  | nil => rfl
  | cons c changes ih => rw [List.foldl_cons, change_eq_ofChars, ← ih]

/-- Changes do the same to a text and to the buffer of an editor. -/
theorem utf16_foldl_change (s : List Char) (changes : List Change) :
    utf16 (changes.foldl change (ofChars s)).chars = changes.foldl Editor.change (utf16 s) := by
  induction changes generalizing s with
  | nil => rfl
  | cons c changes ih =>
    rw [List.foldl_cons, List.foldl_cons, change_eq_ofChars, ih, utf16_change]

end IndexedText

namespace Document

/-- The document of an open buffer stays in step with the editor that sends the changes. Batches of
changes leave the text that the editor holds, and an index that lists the starts of its lines after
each of them. A range between two boundaries is replaced by the new text if its start is not behind
its end. The text stays if the place for which the start stands is behind that of the end, or if a
line of the range is not in the document. -/
theorem applyChanges_eq_editor (d : Document) :
    (∀ batches : List (List Change × Int),
      utf16 (batches.foldl (fun d batch => d.applyChanges batch.1 batch.2) d).text =
        (batches.flatMap Prod.fst).foldl Editor.change (utf16 d.text)) ∧
      (∀ changes : List Change, (changes.foldl IndexedText.change d.indexed).IsExact) ∧
      ∀ (r : Range) (text : List Char) (version : Int),
        let b := utf16 d.text
        let edited := utf16 (d.applyChanges [⟨some r, text⟩] version).text
        (Editor.IsBoundary b r.start → Editor.IsBoundary b r.stop →
          edited = if r.start.le r.stop then
            b.take (Editor.startOf b r.start.line + r.start.character) ++ utf16 text ++
              b.drop (Editor.startOf b r.stop.line + r.stop.character) else b) ∧
        (∀ i ∈ Editor.indexOf? b r.start, ∀ j ∈ Editor.indexOf? b r.stop, j < i → edited = b) ∧
        ((Editor.lines b).length ≤ r.start.line ∨ (Editor.lines b).length ≤ r.stop.line →
          edited = b) := by
  have hone : ∀ (d : Document) (changes : List Change) (version : Int),
      utf16 (d.applyChanges changes version).text = changes.foldl Editor.change (utf16 d.text) :=
    fun d changes _ => IndexedText.utf16_foldl_change d.text changes
  refine ⟨fun batches => ?_, fun changes => ?_, fun r text version => ?_⟩
  · induction batches generalizing d with
    | nil => rfl
    | cons batch batches ih =>
      rw [List.foldl_cons, ih, hone, List.flatMap_cons, List.foldl_append]
  · rw [indexed, IndexedText.foldl_change_eq_ofChars]
    exact IndexedText.isExact_ofChars _
  · intro b edited
    have hedited : edited = Editor.change b ⟨some r, text⟩ := hone d [⟨some r, text⟩] version
    refine ⟨fun hstart hstop => ?_, fun i hi j hj hlt => ?_, fun hout => ?_⟩
    · simp only [hedited, Editor.change, hstart.indexOf?_eq, hstop.indexOf?_eq,
        ← hstart.le_iff hstop]
    · simp only [hedited, Editor.change, Option.mem_def.1 hi, Option.mem_def.1 hj,
        if_neg (Nat.not_le_of_lt hlt)]
    · rw [hedited]
      exact Editor.change_eq_self hout

/-- A range whose columns lie behind the end of their line is empty, in whatever order they stand:
the new text is put there. -/
theorem applyChanges_reversed :
    let d : Document := ⟨"ab".toList, 1⟩
    let r : Range := ⟨⟨0, 9⟩, ⟨0, 5⟩⟩
    r.start.le r.stop = false ∧
      (d.applyChanges [⟨some r, "X".toList⟩] 2).text = "abX".toList := by
  decide

end Document

end StructUnfold
