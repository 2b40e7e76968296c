import StructUnfold.Proofs.Text.Search
import StructUnfold.Source.Declarator
import StructUnfold.Text.Offset

/-!
# Where alias statements stand

The search for statements goes through a text from left to right. It passes over a text in which no
statement begins, whatever stands around it, and over each statement as a whole.

* `Inert`: no statement begins in a text, whatever follows it.
* `Inert.append`, `Inert.word_append`, `inert_of_forall`: texts without statements are put together
  from identifiers and other characters.
* `ofTextFrom_ofParts`, `ofTextFrom_statement`: a statement is found, and the search goes on behind
  it.
* `exists_of_startOf?`: nothing else is found.
-/

namespace StructUnfold.AliasStatement

open Text

/-- No statement begins in a text, whatever stands before and behind it. -/
def Inert (s : List Char) : Prop :=
  ∀ previous pos rest, ofTextFrom previous 0 pos (s ++ rest) =
    ofTextFrom (s.getLast?.or previous) 0 (pos + byteSize s) rest

theorem Inert.append {s t : List Char} (hs : Inert s) (ht : Inert t) : Inert (s ++ t) := by
  intro previous pos rest
  rw [List.append_assoc, hs, ht, List.getLast?_append, Option.or_assoc, byteSize_append,
    Nat.add_assoc]

theorem inert_nil : Inert [] :=
  fun previous pos rest => by simp

theorem getLast?_cons_or (c : Char) (cs : List Char) (previous : Option Char) :
    (c :: cs).getLast?.or previous = cs.getLast?.or (some c) := by
  cases cs with
  | nil => rfl
  | cons d ds => rw [List.getLast?_cons_cons, List.getLast?_cons, Option.some_or, Option.some_or]

/-- Nothing begins where the search passes over a character. -/
theorem ofTextFrom_cons_of_eq_none {previous : Option Char} {c : Char} {cs : List Char}
    (h : (if previous.any isWordChar then none else startOf? (c :: cs)) = none) (pos : Nat) :
    ofTextFrom previous 0 pos (c :: cs) = ofTextFrom (some c) 0 (pos + c.utf8Size) cs := by
  rw [ofTextFrom, h]

/-- A statement begins with a letter. -/
theorem inert_of_not_isIdentChar {c : Char} (h : isIdentChar c = false) : Inert [c] := by
  intro previous pos rest
  have hafter : after? "typedef".toList (c :: rest) = none := by
    refine Option.eq_none_iff_forall_ne_some.2 fun back hback => ?_
    have hhead : some c = some 't' := congrArg List.head? (after?_eq_some_iff.1 hback)
    obtain rfl := Option.some.inj hhead
    cases h
  have hnone : startOf? (c :: rest) = none := by rw [startOf?, hafter]
  rw [List.singleton_append, ofTextFrom_cons_of_eq_none (by rw [hnone]; split <;> rfl)]
  simp

/-- No statement begins inside an identifier. -/
theorem ofTextFrom_of_begun {w : List Char} (hw : ∀ c ∈ w, isIdentChar c = true) {b : Char}
    (hb : isIdentChar b = true) (pos : Nat) (rest : List Char) :
    ofTextFrom (some b) 0 pos (w ++ rest) =
      ofTextFrom (w.getLast?.or (some b)) 0 (pos + byteSize w) rest := by
  induction w generalizing b pos with
  | nil => simp
  | cons c cs ih =>
    obtain ⟨hc, hcs⟩ := List.forall_mem_cons.1 hw
    have hword : (some b).any isWordChar = true := isWordChar_of_isIdentChar hb
    rw [List.cons_append, ofTextFrom_cons_of_eq_none (by rw [hword]; rfl), ih hcs hc, byteSize_cons,
      Nat.add_assoc, getLast?_cons_or]

/-- No statement begins in an identifier, if none does at its first character. -/
theorem Inert.ident_append {w s : List Char} (hs : Inert s) (hw : IsIdent w)
    (hstart : ∀ rest, startOf? (w ++ (s ++ rest)) = none) : Inert (w ++ s) := by
  intro previous pos rest
  obtain ⟨c, cs, rfl⟩ := List.exists_cons_of_ne_nil hw.ne_nil
  obtain ⟨hc, hcs⟩ := List.forall_mem_cons.1 hw.chars
  have hnone : (if previous.any isWordChar then none else
      startOf? (c :: (cs ++ (s ++ rest)))) = none := by
    split
    · rfl
    · exact hstart rest
  rw [List.append_assoc, List.cons_append, ofTextFrom_cons_of_eq_none hnone,
    ofTextFrom_of_begun hcs hc, hs, List.getLast?_append, byteSize_append, byteSize_cons]
  rw [Option.or_assoc, getLast?_cons_or]
  simp only [Nat.add_assoc]

/-- No statement begins with an identifier other than `typedef`, or with one that no blank
follows. -/
theorem startOf?_eq_none {w rest : List Char} (hw : IsIdent w) (hrest : Parted rest)
    (h : w = "typedef".toList → ∀ c, rest.head? = some c → isBlank c = false) :
    startOf? (w ++ rest) = none := by
  have htypedef : IsIdent "typedef".toList := by decide
  rw [startOf?]
  cases hafter : after? "typedef".toList (w ++ rest) with
  | none => rfl
  | some r =>
    obtain ⟨t, hw', rfl⟩ :=
      exists_of_append_eq_append htypedef.chars hrest (after?_eq_some_iff.1 hafter)
    -- The identifier goes on behind the keyword, or it is the keyword and no blank follows it.
    have hhead : ∀ c, (t ++ rest).head? = some c → isBlank c = false := by
      intro c hc
      cases t with
      | nil => exact h (by simpa using hw') c hc
      | cons d t =>
        rw [List.cons_append, List.head?_cons, Option.some.injEq] at hc
        exact isBlank_eq_false_of_isIdentChar (hw.chars c (by simp [hw', ← hc]))
    have hdrop : (t ++ rest).dropWhile isBlank = t ++ rest := by
      cases hs : t ++ rest with
      | nil => rfl
      | cons d s =>
        rw [hs] at hhead
        exact List.dropWhile_cons_of_neg (by simp [hhead d rfl])
    dsimp only
    rw [hdrop, if_neg (Nat.lt_irrefl _)]

/-- No statement begins in an identifier before a character that belongs to none, except that
`typedef` and a blank may begin one. -/
theorem inert_ident {w : List Char} (hw : IsIdent w) {c : Char} (hc : isIdentChar c = false)
    (h : w = "typedef".toList → isBlank c = false) : Inert (w ++ [c]) := by
  refine (inert_of_not_isIdentChar hc).ident_append hw fun rest => ?_
  refine startOf?_eq_none hw (parted_cons hc rest) fun hw' d hd => ?_
  rw [List.singleton_append, List.head?_cons, Option.some.injEq] at hd
  exact hd ▸ h hw'

/-- No statement begins in characters that belong to no identifier. -/
theorem inert_of_forall {s : List Char} (h : ∀ c ∈ s, isIdentChar c = false) : Inert s := by
  induction s with
  | nil => exact inert_nil
  | cons c s ih =>
    obtain ⟨hc, hs⟩ := List.forall_mem_cons.1 h
    exact (inert_of_not_isIdentChar hc).append (ih hs)

/-- No statement begins with an identifier other than `typedef` that ends where it is followed by
a text in which none begins. -/
theorem Inert.word_append {w s : List Char} (hw : IsIdent w) (hne : w ≠ "typedef".toList)
    (hs : Inert s) (hparted : ∀ rest, Parted (s ++ rest)) : Inert (w ++ s) :=
  hs.ident_append hw fun rest => startOf?_eq_none hw (hparted rest) fun heq => absurd heq hne

/-- The characters of a statement are passed over. -/
theorem ofTextFrom_skip (s : List Char) (previous : Option Char) (pos : Nat) (rest : List Char) :
    ofTextFrom previous s.length pos (s ++ rest) =
      ofTextFrom (s.getLast?.or previous) 0 (pos + byteSize s) rest := by
  induction s generalizing previous pos with
  | nil => simp
  | cons c cs ih =>
    rw [List.length_cons, List.cons_append, ofTextFrom, ih, byteSize_cons, Nat.add_assoc,
      getLast?_cons_or]

/-- Behind the keyword a body goes on up to the first character that cannot belong to it. -/
theorem bodyFromKeyword?_append {body : List Char} (hbody : ∀ c ∈ body, isBodyChar c = true)
    (hhead : body.head?.any isWordChar = false) {stop : Char} (hstop : isBodyChar stop = false)
    (hword : isWordChar stop = false) (rest : List Char) :
    bodyFromKeyword? ("struct".toList ++ (body ++ stop :: rest)) =
      if stop = ';' then some body else none := by
  have hnone : (body ++ stop :: rest).head?.any isWordChar = false := by
    cases body with
    | nil => exact hword
    | cons c cs => exact hhead
  have hneg : ¬isBodyChar stop = true := by simp [hstop]
  rw [bodyFromKeyword?, after?_append]
  dsimp only
  rw [hnone, List.dropWhile_append_of_pos hbody, List.takeWhile_append_of_pos hbody,
    List.dropWhile_cons_of_neg hneg, List.takeWhile_cons_of_neg hneg, List.append_nil]
  simp

/-- A word other than `struct` is no keyword that a body could stand behind. -/
theorem bodyFromKeyword?_eq_none {w s : List Char} (hw : IsIdent w) (hne : w ≠ "struct".toList)
    (hs : Parted s) : bodyFromKeyword? (w ++ s) = none := by
  have hstruct : IsIdent "struct".toList := by decide
  rw [bodyFromKeyword?]
  cases hafter : after? "struct".toList (w ++ s) with
  | none => rfl
  | some rest =>
    obtain ⟨t, hw', rfl⟩ :=
      exists_of_append_eq_append hstruct.chars hs (after?_eq_some_iff.1 hafter)
    cases t with
    | nil => exact absurd (by simpa using hw') hne
    | cons c t => exact if_pos (isWordChar_of_isIdentChar (hw.chars c (by simp [hw'])))

/-- No statement begins with a keyword that no body stands behind. -/
theorem startOf?_keyword_eq_none {s : List Char}
    (h : bodyFromKeyword? (s.dropWhile isBlank) = none) :
    startOf? ("typedef".toList ++ s) = none := by
  rw [startOf?, after?_append]
  dsimp only
  rw [h, Option.map_none, ite_self]

/-- What a text starts with that begins with both keywords. -/
theorem startOf?_append {gap : List Char} (hgap : gap ≠ []) (hblank : ∀ c ∈ gap, isBlank c = true)
    (s : List Char) :
    startOf? ("typedef".toList ++ (gap ++ ("struct".toList ++ s))) =
      (bodyFromKeyword? ("struct".toList ++ s)).map fun body =>
        ("typedef".toList.length + gap.length + "struct".toList.length + body.length + 1,
          body) := by
  have hdrop : (gap ++ ("struct".toList ++ s)).dropWhile isBlank = "struct".toList ++ s := by
    rw [List.dropWhile_append_of_pos hblank]
    exact List.dropWhile_cons_of_neg (by decide)
  have hshorter : ∀ t : List Char, t.length < (gap ++ t).length := by
    intro t
    have hpos := List.length_pos_iff.2 hgap
    rw [List.length_append]
    omega
  have hlength : ∀ typedef keyword : List Char,
      (typedef ++ (gap ++ keyword)).length - keyword.length = typedef.length + gap.length := by
    intro typedef keyword
    rw [List.length_append, List.length_append]
    omega
  rw [startOf?, after?_append]
  dsimp only
  rw [hdrop, if_pos (hshorter _)]
  -- The two texts differ in how the length of the first keyword and the blanks is counted.
  refine congrArg (fun n => (bodyFromKeyword? _).map fun body =>
    (n + "struct".toList.length + body.length + 1, body)) ?_
  exact hlength _ _

/-- A statement with this body and these blanks between its keywords. -/
def ofParts (gap body : List Char) : List Char :=
  "typedef".toList ++ (gap ++ ("struct".toList ++ (body ++ [';'])))

/-- A statement with this body and one space between its keywords. -/
def ofBody (body : List Char) : List Char :=
  "typedef".toList ++ ' ' :: ("struct".toList ++ (body ++ [';']))

theorem ofBody_eq (body : List Char) : ofBody body = ofParts [' '] body := rfl

/-- A statement ends in its semicolon. -/
theorem exists_ofParts_eq (gap body : List Char) : ∃ front, ofParts gap body = front ++ [';'] := by
  have htext : ∀ typedef struct : List Char, typedef ++ (gap ++ (struct ++ (body ++ [';']))) =
      (typedef ++ (gap ++ (struct ++ body))) ++ [';'] := by
    simp
  exact ⟨_, htext _ _⟩

/-- A character that occurs in no part of a statement. -/
theorem not_mem_ofParts {gap body : List Char} {c : Char} (hgap : c ∉ gap) (hbody : c ∉ body)
    (hident : isIdentChar c = false) (hsemicolon : c ≠ ';') : c ∉ ofParts gap body := by
  have htypedef : IsIdent "typedef".toList := by decide
  have hstruct : IsIdent "struct".toList := by decide
  have hparts : ∀ typedef struct : List Char, c ∉ typedef → c ∉ struct →
      c ∉ typedef ++ (gap ++ (struct ++ (body ++ [';']))) := by
    intro typedef struct htypedef hstruct
    simp [htypedef, hstruct, hgap, hbody, hsemicolon]
  exact hparts _ _ (htypedef.not_mem hident) (hstruct.not_mem hident)

theorem startOf?_ofParts {gap body : List Char} (hgap : gap ≠ [])
    (hblank : ∀ c ∈ gap, isBlank c = true) (hbody : ∀ c ∈ body, isBodyChar c = true)
    (hhead : body.head?.any isWordChar = false) (rest : List Char) :
    startOf? (ofParts gap body ++ rest) = some ((ofParts gap body).length, body) := by
  have hfrom : bodyFromKeyword? ("struct".toList ++ (body ++ ';' :: rest)) = some body :=
    bodyFromKeyword?_append hbody hhead (by decide) (by decide) rest
  have htext : ∀ typedef struct : List Char,
      (typedef ++ (gap ++ (struct ++ (body ++ [';'])))) ++ rest =
        typedef ++ (gap ++ (struct ++ (body ++ ';' :: rest))) := by
    simp
  have hlength : ∀ typedef struct : List Char,
      typedef.length + gap.length + struct.length + body.length + 1 =
        (typedef ++ (gap ++ (struct ++ (body ++ [';'])))).length := by
    intro typedef struct
    simp only [List.length_append, List.length_cons, List.length_nil]
    omega
  refine (congrArg startOf? (htext _ _)).trans ((startOf?_append hgap hblank _).trans ?_)
  rw [hfrom]
  exact congrArg (fun n => some (n, body)) (hlength _ _)

/-- Behind the keyword nothing but a body and a semicolon can follow. -/
theorem exists_of_bodyFromKeyword? {s body : List Char} (h : bodyFromKeyword? s = some body) :
    ∃ rest, s = "struct".toList ++ (body ++ ';' :: rest) ∧ (∀ c ∈ body, isBodyChar c = true) ∧
      body.head?.any isWordChar = false := by
  rw [bodyFromKeyword?] at h
  cases hafter : after? "struct".toList s with
  | none =>
    rw [hafter] at h
    cases h
  | some behind =>
    rw [hafter] at h
    dsimp only at h
    split at h
    · cases h
    · rename_i hword
      split at h
      · rename_i hstop
        obtain rfl := Option.some.inj h
        obtain ⟨rest, hdrop⟩ : ∃ rest, behind.dropWhile isBodyChar = ';' :: rest := by
          cases hcons : behind.dropWhile isBodyChar with
          | nil => simp [hcons] at hstop
          | cons c rest =>
            rw [hcons, List.head?_cons, Option.some.injEq] at hstop
            exact ⟨rest, by rw [hstop]⟩
        -- The body is what can stand in one, and a semicolon stops it.
        have hsplit : behind.takeWhile isBodyChar ++ ';' :: rest = behind := by
          rw [← hdrop, List.takeWhile_append_dropWhile]
        refine ⟨rest, ?_, List.all_eq_true.1 List.all_takeWhile, ?_⟩
        · rw [hsplit]
          exact after?_eq_some_iff.1 hafter
        · rw [← hsplit] at hword
          revert hword
          cases behind.takeWhile isBodyChar with
          | nil => exact fun _ => rfl
          | cons c body => exact fun hword => by simpa using hword
      · cases h

/-- What begins a statement is a statement. -/
theorem exists_of_startOf? {s body : List Char} {n : Nat} (h : startOf? s = some (n, body)) :
    ∃ gap rest, s = ofParts gap body ++ rest ∧ gap ≠ [] ∧ (∀ c ∈ gap, isBlank c = true) ∧
      (∀ c ∈ body, isBodyChar c = true) ∧ body.head?.any isWordChar = false := by
  rw [startOf?] at h
  cases hafter : after? "typedef".toList s with
  | none =>
    rw [hafter] at h
    cases h
  | some behind =>
    rw [hafter] at h
    dsimp only at h
    split at h
    · rename_i hshorter
      obtain ⟨found, hfound, heq⟩ := Option.map_eq_some_iff.1 h
      obtain rfl := (Prod.mk.inj heq).2
      obtain ⟨rest, hkeyword, hbody, hhead⟩ := exists_of_bodyFromKeyword? hfound
      have hsplit : behind.takeWhile isBlank ++ behind.dropWhile isBlank = behind :=
        List.takeWhile_append_dropWhile
      refine ⟨behind.takeWhile isBlank, rest, ?_, ?_, List.all_eq_true.1 List.all_takeWhile, hbody,
        hhead⟩
      · have htext : ∀ typedef gap struct : List Char,
            typedef ++ (gap ++ (struct ++ (found ++ ';' :: rest))) =
              (typedef ++ (gap ++ (struct ++ (found ++ [';'])))) ++ rest := by
          simp
        calc s = "typedef".toList ++ behind := after?_eq_some_iff.1 hafter
          _ = "typedef".toList ++ (behind.takeWhile isBlank ++
                ("struct".toList ++ (found ++ ';' :: rest))) := by rw [← hkeyword, hsplit]
          _ = ofParts (behind.takeWhile isBlank) found ++ rest := htext _ _ _
      · -- Behind the keyword the text gets shorter, so there is a gap.
        intro hnone
        rw [hnone, List.nil_append] at hsplit
        rw [hsplit] at hshorter
        exact Nat.lt_irrefl _ hshorter
    · cases h

/-- A statement is found whatever blanks stand between its keywords, and the search goes on behind
it. -/
theorem ofTextFrom_ofParts {previous : Option Char} (hprevious : previous.any isWordChar = false)
    {gap body : List Char} (hgap : gap ≠ []) (hblank : ∀ c ∈ gap, isBlank c = true)
    (hbody : ∀ c ∈ body, isBodyChar c = true) (hhead : body.head?.any isWordChar = false)
    (pos : Nat) (rest : List Char) :
    ofTextFrom previous 0 pos (ofParts gap body ++ rest) =
      ⟨pos, ofParts gap body, body⟩ ::
        ofTextFrom (some ';') 0 (pos + byteSize (ofParts gap body)) rest := by
  have hstart := startOf?_ofParts hgap hblank hbody hhead rest
  have hskip := fun previous pos => ofTextFrom_skip (ofParts gap body).tail previous pos rest
  have hlast : (ofParts gap body).tail.getLast?.or (some 't') = some ';' := by
    have htail : (ofParts gap body).tail =
        "typedef".toList.tail ++ (gap ++ ("struct".toList ++ body)) ++ [';'] := by
      have htail : ∀ t s : List Char, t ≠ [] → (t ++ (gap ++ (s ++ (body ++ [';'])))).tail =
          t.tail ++ (gap ++ (s ++ body)) ++ [';'] := by
        intro t s ht
        obtain ⟨c, cs, rfl⟩ := List.exists_cons_of_ne_nil ht
        simp
      exact htail _ _ (by decide)
    rw [htail, List.getLast?_concat, Option.some_or]
  have hcons : ofParts gap body = 't' :: (ofParts gap body).tail := rfl
  have htake : (ofParts gap body ++ rest).take (ofParts gap body).length = ofParts gap body :=
    List.take_left
  have hsize : byteSize (ofParts gap body) =
      Char.utf8Size 't' + byteSize (ofParts gap body).tail := by
    rw [← byteSize_cons, ← hcons]
  simp only [List.length_tail] at hskip
  -- What is known of the statement is stated, so its text may stay closed from here on.
  generalize (ofParts gap body).tail = tail at hskip hlast hcons hsize
  generalize (ofParts gap body).length = length at hstart hskip htake
  rw [hcons, List.cons_append] at hstart htake ⊢
  rw [ofTextFrom, hprevious]
  simp only [Bool.false_eq_true, if_false, hstart, htake, hskip, hlast]
  rw [← hcons, hsize, Nat.add_assoc]

/-- A statement with one space between its keywords is found. -/
theorem ofTextFrom_statement {previous : Option Char} (hprevious : previous.any isWordChar = false)
    {body : List Char} (hbody : ∀ c ∈ body, isBodyChar c = true)
    (hhead : body.head?.any isWordChar = false) (pos : Nat) (rest : List Char) :
    ofTextFrom previous 0 pos (ofBody body ++ rest) =
      ⟨pos, ofBody body, body⟩ ::
        ofTextFrom (some ';') 0 (pos + byteSize (ofBody body)) rest := by
  rw [ofBody_eq]
  exact ofTextFrom_ofParts hprevious (List.cons_ne_nil _ _) (List.forall_mem_singleton.2 rfl) hbody
    hhead pos rest

end StructUnfold.AliasStatement
