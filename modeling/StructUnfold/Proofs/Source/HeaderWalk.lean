import StructUnfold.Proofs.Source.Header

/-!
# Finding headers from left to right

`Header.all` cuts a text into lines. The same headers are found on one walk over the text, which
remembers what stands on the present line, as long as no brace does. A walk over a text that is put
together goes over one part after the other.

* `walk`, `nextLine`: the walk, and what it remembers behind a character.
* `all_eq_walk`: the walk finds the headers of a text.
* `walk_append`: a walk over two texts.
* `walk_of_not_mem`, `walk_head`: a text without braces, and a head with its brace.
-/

namespace StructUnfold.Header

open Text

/-- What stands on a line behind one more character, read backwards; none behind a brace. -/
def nextLine (line : Option (List Char)) (c : Char) : Option (List Char) :=
  if c = '\n' then some []
  else line.bind fun back => if c = '{' then none else some (c :: back)

/-- The header that ends in a character, if that is the first brace of its line. -/
def endsAt? (line : Option (List Char)) (c : Char) : Option Header :=
  line.bind fun back => if c = '{' then parse? back.reverse else none

/-- The headers in the rest of a text at offset `pos`, where `line` stands before it on its first
line. -/
def walk (line : Option (List Char)) (pos : Nat) : List Char → List (Nat × Header)
  | [] => []
  | c :: cs =>
    ((endsAt? line c).map fun header => (pos, header)).toList ++
      walk (nextLine line c) (pos + c.utf8Size) cs

/-- A walk over two texts is a walk over the first and one over the second. -/
theorem walk_append (line : Option (List Char)) (pos : Nat) (s t : List Char) :
    walk line pos (s ++ t) =
      walk line pos s ++ walk (s.foldl nextLine line) (pos + byteSize s) t := by
  induction s generalizing line pos with
  | nil => rfl
  | cons c s ih =>
    rw [List.cons_append, walk, ih, walk, List.foldl_cons, byteSize_cons, List.append_assoc,
      Nat.add_assoc]

/-! ### The walk and the lines -/

theorem ofLine?_of_not_mem {line : List Char} (h : '{' ∉ line) : ofLine? line = none := by
  refine Option.eq_none_iff_forall_ne_some.2 fun found hfound => ?_
  obtain ⟨⟨-, after, rfl⟩, -⟩ := ofLine?_eq_some_iff.1 hfound
  simp at h

theorem ofLine?_append {head : List Char} (h : '{' ∉ head) (after : List Char) :
    ofLine? (head ++ '{' :: after) = (parse? head).map fun header => (head, header) := by
  have htake : (head ++ '{' :: after).takeWhile (· != '{') = head := by
    rw [List.takeWhile_append_of_pos]
    · simp
    · intro c hc
      have hne : c ≠ '{' := fun heq => h (heq ▸ hc)
      simpa using hne
  simp [ofLine?, htake]

/-- A line without braces has no header. -/
theorem ofLinesFrom_cons_of_not_mem {line : List Char} (h : '{' ∉ line) (pos : Nat)
    (lines : List (List Char)) :
    ofLinesFrom pos (line :: lines) = ofLinesFrom (pos + byteSize line + 1) lines := by
  rw [ofLinesFrom, ofLine?_of_not_mem h]

theorem splitLines_cons (c : Char) (cs : List Char) :
    splitLines (c :: cs) =
      if c = '\n' then [] :: splitLines cs else (splitLines cs).modifyHead (c :: ·) := by
  rw [splitLines, List.splitOn_cons_eq_if_modifyHead]
  simp [splitLines]

/-- What is left to be found in a text: behind a brace that is in the lines behind the present one,
and before a brace also in that line, of which `back` has been read. -/
theorem walk_eq_ofLinesFrom {cs first : List Char} {rest : List (List Char)}
    (h : splitLines cs = first :: rest) :
    (∀ pos, walk none pos cs = ofLinesFrom (pos + byteSize first + 1) rest) ∧
      ∀ back pos, '{' ∉ back →
        walk (some back) (pos + byteSize back) cs =
          ofLinesFrom pos ((back.reverse ++ first) :: rest) := by
  induction cs generalizing first rest with
  | nil =>
    obtain ⟨rfl, rfl⟩ : first = [] ∧ rest = [] := by simpa [splitLines, eq_comm] using h
    refine ⟨fun pos => rfl, fun back pos hback => ?_⟩
    rw [List.append_nil, ofLinesFrom_cons_of_not_mem (by simpa using hback)]
    rfl
  | cons c cs ih =>
    obtain ⟨first', rest', hsplit⟩ := List.exists_cons_of_ne_nil (List.splitOn_ne_nil '\n' cs)
    obtain ⟨hnone, hsome⟩ := ih hsplit
    rw [splitLines_cons] at h
    have hstart := fun pos => hsome [] pos List.not_mem_nil
    by_cases hfeed : c = '\n'
    · -- A new line begins.
      subst hfeed
      rw [if_pos rfl] at h
      obtain ⟨rfl, rfl⟩ := List.cons_eq_cons.1 h
      refine ⟨fun pos => ?_, fun back pos hback => ?_⟩
      · exact (hstart (pos + 1)).trans (congrArg _ hsplit.symm)
      · rw [List.append_nil, ofLinesFrom_cons_of_not_mem (by simpa using hback), byteSize_reverse]
        exact (hstart (pos + byteSize back + 1)).trans (congrArg _ hsplit.symm)
    · rw [if_neg hfeed, splitLines, hsplit, List.modifyHead_cons] at h
      obtain ⟨rfl, rfl⟩ := List.cons_eq_cons.1 h
      have hnext : ∀ line, nextLine line c =
          line.bind fun back => if c = '{' then none else some (c :: back) := fun line => by
        rw [nextLine, if_neg hfeed]
      refine ⟨fun pos => ?_, fun back pos hback => ?_⟩
      · rw [walk, hnext, Option.bind_none, hnone, byteSize_cons]
        simp only [endsAt?, Option.bind_none, Option.map_none, Option.toList_none, List.nil_append,
          Nat.add_assoc]
      · rw [walk, hnext, Option.bind_some, endsAt?, Option.bind_some]
        by_cases hbrace : c = '{'
        · -- The line has its first brace here.
          subst hbrace
          rw [if_pos rfl, if_pos rfl, hnone, ofLinesFrom, ofLine?_append (by simpa using hback)]
          have hpos : pos + byteSize back + Char.utf8Size '{' + byteSize first' + 1 =
              pos + byteSize (back.reverse ++ '{' :: first') + 1 := by
            rw [byteSize_append, byteSize_reverse, byteSize_cons]
            omega
          cases parse? back.reverse with
          | none => rw [hpos]; rfl
          | some header =>
            rw [hpos, ← byteSize_reverse back]
            rfl
        · rw [if_neg hbrace, if_neg hbrace]
          have hlonger := hsome (c :: back) pos (by simp [Ne.symm hbrace, hback])
          rw [byteSize_cons, Nat.add_comm c.utf8Size, ← Nat.add_assoc] at hlonger
          rw [hlonger, List.reverse_cons, List.append_assoc]
          rfl

/-- The walk finds the headers of a text. -/
theorem all_eq_walk (text : List Char) : all text = walk (some []) 0 text := by
  obtain ⟨first, rest, hsplit⟩ := List.exists_cons_of_ne_nil (List.splitOn_ne_nil '\n' text)
  have hwalk := (walk_eq_ofLinesFrom hsplit).2 [] 0 List.not_mem_nil
  rw [List.reverse_nil, List.nil_append, ← hsplit] at hwalk
  exact hwalk.symm

/-! ### Texts that are walked over -/

/-- In a text without braces no header ends. -/
theorem walk_of_not_mem {s : List Char} (h : '{' ∉ s) (line : Option (List Char)) (pos : Nat) :
    walk line pos s = [] := by
  induction s generalizing line pos with
  | nil => rfl
  | cons c s ih =>
    rw [List.mem_cons, not_or] at h
    have hnone : endsAt? line c = none := by
      cases line with
      | none => rfl
      | some back => exact if_neg (Ne.symm h.1)
    rw [walk, hnone, ih h.2]
    rfl

/-- Behind a line feed nothing stands on the line. -/
theorem foldl_nextLine_of_getLast? {s : List Char} (h : s.getLast? = some '\n')
    (line : Option (List Char)) : s.foldl nextLine line = some [] := by
  rcases List.eq_nil_or_concat s with rfl | ⟨s, c, rfl⟩
  · cases h
  · rw [List.concat_eq_append, List.getLast?_concat] at h
    obtain rfl := Option.some.inj h
    rw [List.concat_eq_append, List.foldl_append]
    rfl

/-- What stands on a line goes on as long as neither a line feed nor a brace comes. -/
theorem foldl_nextLine_of_isHead {head : List Char} (h : IsHead head) (back : List Char) :
    head.foldl nextLine (some back) = some (head.reverse ++ back) := by
  induction head generalizing back with
  | nil => rfl
  | cons c head ih =>
    obtain ⟨hfeed, hbrace⟩ := h
    rw [List.mem_cons, not_or] at hfeed hbrace
    have hnext : nextLine (some back) c = some (c :: back) := by
      rw [nextLine, if_neg (Ne.symm hfeed.1), Option.bind_some, if_neg (Ne.symm hbrace.1)]
    rw [List.foldl_cons, hnext, ih ⟨hfeed.2, hbrace.2⟩]
    simp

/-- At the start of a line a header is found if a head is followed by a brace. -/
theorem walk_head {head : List Char} (h : IsHead head) (pos : Nat) (rest : List Char) :
    walk (some []) pos (head ++ '{' :: rest) =
      ((parse? head).map fun header => (pos + byteSize head, header)).toList ++
        walk none (pos + byteSize head + 1) rest := by
  have hline := foldl_nextLine_of_isHead h []
  rw [List.append_nil] at hline
  rw [walk_append, walk_of_not_mem h.2, hline, List.nil_append, walk]
  simp only [endsAt?, nextLine, Option.bind_some, if_pos, List.reverse_reverse, Char.reduceEq,
    if_false]
  rfl

end StructUnfold.Header
