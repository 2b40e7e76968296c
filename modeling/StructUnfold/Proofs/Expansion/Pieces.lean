import StructUnfold.Proofs.Comment.Balance
import StructUnfold.Proofs.Expansion.Labels

/-!
# The declarations of a body

A body in which the braces come in pairs is cut behind each semicolon outside braces, and each
segment becomes a declaration: its words without the access labels in front of them. Nothing else is
lost, so a declaration has the braces and semicolons of its segment.

## Main definitions

* `SemicolonsInBraces`, `IsCut`: a text without a semicolon outside braces, and a body that is cut
  behind each of them.
* `IsEnded`: a declaration that is ended by a semicolon outside braces.

## Main results

* `isCut_pieces`: a body is cut into its pieces.
* `marks_text_ofPiece`: the braces and semicolons of a segment are kept.
* `declarations_of_extract`: the declarations of a body that is found.
-/

namespace StructUnfold.Declaration

open Text Block

/-! ### Cutting a body -/

/-- Each semicolon of a text stands in braces that are opened in the text. -/
def SemicolonsInBraces (s : List Char) : Prop :=
  ∀ front back, s = front ++ ';' :: back → front.count '{' ≠ front.count '}'

/-- A body is cut behind each semicolon outside braces. -/
inductive IsCut : List Char → List (List Char) → Prop where
  /-- There is none. -/
  | last {s} (balanced : IsBalanced s) (inner : SemicolonsInBraces s) : IsCut s [s]
  /-- Behind the first one the rest is cut. -/
  | cons {s rest segments} (balanced : IsBalanced s) (inner : SemicolonsInBraces s)
    (h : IsCut rest segments) : IsCut (s ++ ';' :: rest) ((s ++ [';']) :: segments)

variable {s t : List Char}

theorem semicolonsInBraces_nil : SemicolonsInBraces [] := by
  intro front back h
  simp at h

/-- Each semicolon still stands in braces if the character behind the text is no semicolon, or if
braces are open there. -/
theorem SemicolonsInBraces.concat (h : SemicolonsInBraces s) {c : Char}
    (hc : c ≠ ';' ∨ s.count '{' ≠ s.count '}') : SemicolonsInBraces (s ++ [c]) := by
  intro front back heq
  rcases List.eq_nil_or_concat back with rfl | ⟨back, d, rfl⟩
  · obtain ⟨rfl, hd⟩ := List.append_inj' heq rfl
    exact hc.resolve_left (not_not_intro (List.cons_eq_cons.1 hd).1)
  · rw [List.concat_eq_append, ← List.cons_append, ← List.append_assoc] at heq
    exact h front back (List.append_inj' heq rfl).1

/-- The pieces of a body whose braces come in pairs with those that are open. -/
theorem isCut_piecesFrom {depth : Nat} {acc body : List Char}
    (hacc : acc.reverse.foldlM nextDepth 0 = some depth) (hinner : SemicolonsInBraces acc.reverse)
    (hbody : body.foldlM nextDepth depth = some 0) :
    IsCut (acc.reverse ++ body) (piecesFrom depth acc body) := by
  induction body generalizing depth acc with
  | nil =>
    obtain rfl := Option.some.inj hbody
    rw [piecesFrom, List.append_nil]
    exact .last (isBalanced_iff.2 hacc) hinner
  | cons c cs ih =>
    rw [List.foldlM_cons] at hbody
    obtain ⟨mid, hnext, hrest⟩ := Option.bind_eq_some_iff.1 hbody
    have hcount := Comment.count_of_foldlM_nextDepth hacc
    -- The character is added to the piece unless it ends it.
    have hadd : c ≠ ';' ∨ depth ≠ 0 →
        IsCut (acc.reverse ++ c :: cs) (piecesFrom mid (c :: acc) cs) := by
      intro hc
      have hgoes : (c :: acc).reverse.foldlM nextDepth 0 = some mid := by
        rw [List.reverse_cons, List.foldlM_append, hacc]
        exact (bind_pure _).trans hnext
      have hstays : SemicolonsInBraces (c :: acc).reverse := by
        rw [List.reverse_cons]
        exact hinner.concat (hc.imp_right fun hne => by omega)
      have hcut := ih hgoes hstays hrest
      rwa [List.reverse_cons, List.append_assoc, List.singleton_append] at hcut
    rw [piecesFrom]
    rcases nextDepth_eq_some_iff.1 hnext with ⟨rfl, rfl⟩ | ⟨rfl, rfl⟩ | ⟨hopen, hclose, rfl⟩
    · exact hadd (.inl (by decide))
    · exact hadd (.inl (by decide))
    · rw [if_neg hopen, if_neg hclose]
      split
      · rename_i hends
        obtain ⟨rfl, rfl⟩ := hends
        have hcut : IsCut cs (piecesFrom 0 [] cs) := @ih 0 [] rfl semicolonsInBraces_nil hrest
        rw [List.reverse_cons]
        exact .cons (isBalanced_iff.2 hacc) hinner hcut
      · rename_i hgoes
        exact hadd (Decidable.not_and_iff_or_not.1 hgoes)

/-- A body whose braces come in pairs is cut into its pieces. -/
theorem isCut_pieces {body : List Char} (h : IsBalanced body) : IsCut body (pieces body) :=
  @isCut_piecesFrom 0 [] body rfl semicolonsInBraces_nil (h 0)

namespace IsCut

variable {body : List Char} {segments : List (List Char)}

/-- The segments are the whole body. -/
theorem flatten_eq (h : IsCut body segments) : segments.flatten = body := by
  induction h with
  | last => simp
  | cons _ _ _ ih =>
    rw [List.flatten_cons, ih]
    simp

theorem ne_nil (h : IsCut body segments) : segments ≠ [] := by
  cases h with
  | last => exact List.cons_ne_nil _ _
  | cons => exact List.cons_ne_nil _ _

/-- A segment ends behind a semicolon exactly if that stands outside braces. -/
theorem ends_iff (h : IsCut body segments) {front back : List Char}
    (hbody : body = front ++ ';' :: back) :
    front.count '{' = front.count '}' ↔
      ∃ done rest, rest ≠ [] ∧ segments = done ++ rest ∧ done.flatten = front ++ [';'] := by
  induction h generalizing front with
  | last _ inner =>
    refine iff_of_false (inner front back hbody) ?_
    rintro ⟨done, rest, hne, hparts, hdone⟩
    cases done with
    | nil => simp at hdone
    | cons d done =>
      obtain ⟨-, hnil⟩ := List.cons_eq_cons.1 hparts
      exact hne (List.append_eq_nil_iff.1 hnil.symm).2
  | @cons s rest segments balanced inner hrest ih =>
    have hself : front = s → (front.count '{' = front.count '}' ↔
        ∃ done rest, rest ≠ [] ∧ (s ++ [';']) :: segments = done ++ rest ∧
          done.flatten = front ++ [';']) := by
      rintro rfl
      refine iff_of_true balanced.count_eq ⟨[front ++ [';']], segments, hrest.ne_nil, rfl, ?_⟩
      rw [List.flatten_singleton]
    rcases List.append_eq_append_iff.1 hbody with ⟨m, rfl, hm⟩ | ⟨m, rfl, hm⟩
    · cases m with
      | nil => exact hself (List.append_nil s)
      | cons c m =>
        -- It stands behind the first segment.
        obtain ⟨rfl, rfl⟩ := List.cons_eq_cons.1 hm
        have hcount : ∀ b : Char, b ≠ ';' → (s ++ ';' :: m).count b = s.count b + m.count b :=
          fun b hb => by rw [List.count_append, List.count_cons_of_ne (Ne.symm hb)]
        rw [hcount _ (by decide), hcount _ (by decide), balanced.count_eq, Nat.add_left_cancel_iff,
          ih rfl]
        constructor
        · rintro ⟨done, rest, hne, rfl, hdone⟩
          refine ⟨(s ++ [';']) :: done, rest, hne, rfl, ?_⟩
          rw [List.flatten_cons, hdone]
          simp
        · rintro ⟨done, rest, hne, hparts, hdone⟩
          cases done with
          | nil => simp at hdone
          | cons d done =>
            obtain ⟨rfl, hsegments⟩ := List.cons_eq_cons.1 hparts
            refine ⟨done, rest, hne, hsegments, ?_⟩
            simpa using hdone
    · cases m with
      | nil => exact hself (List.append_nil front).symm
      | cons c m =>
        -- It stands in the first segment.
        obtain ⟨rfl, -⟩ := List.cons_eq_cons.1 hm
        refine iff_of_false (inner front m rfl) ?_
        rintro ⟨done, rest, hne, hparts, hdone⟩
        cases done with
        | nil => simp at hdone
        | cons d done =>
          obtain ⟨rfl, -⟩ := List.cons_eq_cons.1 hparts
          have hlength := congrArg List.length hdone
          simp at hlength

end IsCut

/-! ### Braces and semicolons -/

/-- Whether a character is a brace or a semicolon. -/
def isMark (c : Char) : Bool :=
  c == '{' || c == '}' || c == ';'

/-- The braces and semicolons of a text. -/
def marks (s : List Char) : List Char :=
  s.filter isMark

@[simp] theorem marks_append (s t : List Char) : marks (s ++ t) = marks s ++ marks t :=
  List.filter_append s t

/-- White space holds no braces and semicolons. -/
theorem isMark_eq_false_of_isSpace {c : Char} (hc : isSpace c = true) : isMark c = false := by
  refine Bool.eq_false_iff.2 fun hmark => ?_
  simp only [isMark, Bool.or_eq_true, beq_iff_eq] at hmark
  rcases hmark with (rfl | rfl) | rfl
  · exact absurd hc (by decide)
  · exact absurd hc (by decide)
  · exact absurd hc (by decide)

theorem count_marks {c : Char} (hc : isMark c = true) (s : List Char) :
    (marks s).count c = s.count c :=
  List.count_filter hc

/-- Whether braces come in pairs is told by the braces alone. -/
theorem foldlM_nextDepth_marks (s : List Char) (depth : Nat) :
    (marks s).foldlM nextDepth depth = s.foldlM nextDepth depth := by
  induction s generalizing depth with
  | nil => rfl
  | cons c s ih =>
    rw [marks, List.filter_cons]
    split
    · rw [List.foldlM_cons, List.foldlM_cons]
      exact bind_congr ih
    · rename_i hmark
      simp only [isMark, Bool.or_eq_true, beq_iff_eq, not_or] at hmark
      rw [List.foldlM_cons, nextDepth, if_neg hmark.1.1, if_neg hmark.1.2]
      exact ih depth

theorem isBalanced_of_marks_eq (h : marks t = marks s) (hs : IsBalanced s) : IsBalanced t := by
  intro depth
  rw [← foldlM_nextDepth_marks, h, foldlM_nextDepth_marks]
  exact hs depth

/-- Whether semicolons stand in braces is told by the braces and semicolons alone. -/
theorem semicolonsInBraces_of_marks_eq (h : marks t = marks s) (hs : SemicolonsInBraces s) :
    SemicolonsInBraces t := by
  rintro front back rfl
  rw [marks_append] at h
  obtain ⟨front', rest, rfl, hfront, hrest⟩ := List.filter_eq_append_iff.1 h.symm
  obtain ⟨between, back', rfl, hbetween, -, -⟩ := List.filter_eq_cons_iff.1 hrest
  have hnone : marks between = [] := List.filter_eq_nil_iff.2 hbetween
  have hcount : ∀ c, isMark c = true → (front' ++ between).count c = front.count c := by
    intro c hc
    rw [← count_marks hc, ← count_marks hc front, marks_append, hnone, List.append_nil, ← hfront,
      marks]
  have hne := hs (front' ++ between) back' (List.append_assoc _ _ _).symm
  rwa [hcount _ rfl, hcount _ rfl] at hne

/-! ### The text of a declaration -/

/-- The words of a text are the text without its white space. -/
theorem flatten_words (s : List Char) : (words s).flatten = s.filter fun c => !isSpace c := by
  induction s with
  | nil => rfl
  | cons c s ih =>
    by_cases hc : isSpace c = true
    · have hwords := words_append_of_all s (List.forall_mem_singleton.2 hc)
      rw [List.singleton_append] at hwords
      rw [hwords, ih, List.filter_cons_of_neg (by simp [hc])]
    · -- The character belongs to the first word of what follows it, which may be empty.
      obtain ⟨w, ws, hw, hwords, hfront⟩ := exists_words_append s
      have hword : IsWord ([c] ++ w) :=
        ⟨List.cons_ne_nil c w, List.forall_mem_cons.2 ⟨Bool.eq_false_iff.2 hc, hw⟩⟩
      have hflat : (words w).flatten = w := by
        cases w with
        | nil => rfl
        | cons d w => rw [words_of_isWord ⟨List.cons_ne_nil d w, hw⟩, List.flatten_singleton]
      have hc' := hfront [c] hword
      rw [List.singleton_append] at hc'
      rw [List.filter_cons_of_pos (by simp [hc]), ← ih, hwords, List.flatten_append, hflat, hc',
        List.flatten_cons]
      rfl

theorem marks_spaced (ws : List (List Char)) : marks (spaced ws) = marks ws.flatten := by
  induction ws with
  | nil => rfl
  | cons w ws ih =>
    rw [spaced_cons, List.flatten_cons, marks_append, ← ih, ← marks_append]
    rfl

theorem marks_joinWords (ws : List (List Char)) : marks (joinWords ws) = marks ws.flatten := by
  cases ws with
  | nil => rfl
  | cons w ws => rw [joinWords_cons, List.flatten_cons, marks_append, marks_append, marks_spaced]

/-- Joined words end as the last one does. -/
theorem getLast?_joinWords {ws : List (List Char)} (h : ∀ w ∈ ws, IsWord w) :
    (joinWords ws).getLast? = ws.flatten.getLast? := by
  rcases List.eq_nil_or_concat ws with rfl | ⟨vs, v, rfl⟩
  · rfl
  · rw [List.concat_eq_append] at h ⊢
    have hv : v ≠ [] := (h v (by simp)).ne_nil
    have hjoin : ∃ front, joinWords (vs ++ [v]) = front ++ v := by
      cases vs with
      | nil => exact ⟨[], by rw [List.nil_append, joinWords_cons, spaced_nil, List.append_nil]; rfl⟩
      | cons w vs =>
        refine ⟨joinWords (w :: vs) ++ [' '], ?_⟩
        rw [joinWords_append, spaced_cons, spaced_nil]
        simp
    obtain ⟨front, hfront⟩ := hjoin
    rw [hfront, List.flatten_append, List.flatten_singleton, List.getLast?_append_of_ne_nil _ hv,
      List.getLast?_append_of_ne_nil _ hv]

/-- A label that is dropped stood in front. -/
theorem flatten_dropLabel (label : List Char) (d : Declaration) :
    d.flatten = (dropLabel label d).flatten ∨ d.flatten = label ++ (dropLabel label d).flatten := by
  cases d with
  | nil => exact .inl rfl
  | cons word d =>
    rw [dropLabel]
    split
    · exact .inl rfl
    · rename_i hafter
      rw [List.flatten_cons, after?_eq_some_iff.1 hafter, List.append_nil]
      exact .inr rfl
    · rename_i hafter
      rw [List.flatten_cons, after?_eq_some_iff.1 hafter, List.flatten_cons, List.append_assoc]
      exact .inr rfl

/-- A declaration has the braces and semicolons of its piece. -/
theorem marks_text_ofPiece (piece : List Char) : marks (text (ofPiece piece)) = marks piece := by
  rw [text, marks_joinWords]
  refine ofPiece_induction (motive := fun d => marks d.flatten = marks piece) ?_
    fun label hlabel d hd => ?_
  · rw [flatten_words, marks, List.filter_filter, marks]
    refine List.filter_congr fun c _ => ?_
    cases hspace : isSpace c with
    | false => exact Bool.and_true _
    | true =>
      rw [isMark_eq_false_of_isSpace hspace]
      rfl
  · have hnone : ∀ l ∈ accessLabels, marks l = [] := by decide
    rw [← hd]
    rcases flatten_dropLabel label d with heq | heq
    · rw [heq]
    · rw [heq, marks_append, hnone label hlabel, List.nil_append]

/-- A declaration ends in a semicolon if its piece does. -/
theorem exists_text_ofPiece_eq (s : List Char) :
    ∃ u, text (ofPiece (s ++ [';'])) = u ++ [';'] ∧ marks u = marks s := by
  have hlast : (text (ofPiece (s ++ [';']))).getLast? = some ';' := by
    rw [text, getLast?_joinWords isWord_of_mem_ofPiece]
    refine ofPiece_induction (motive := fun d => d.flatten.getLast? = some ';') ?_
      fun label hlabel d hd => ?_
    · rw [flatten_words, List.filter_append]
      exact List.getLast?_concat
    · -- No label ends in a semicolon, so there is more behind it.
      have hnot : ∀ l ∈ accessLabels, l.getLast? ≠ some ';' := by decide
      rcases flatten_dropLabel label d with heq | heq
      · rwa [heq] at hd
      · rw [heq] at hd
        by_cases hnil : (dropLabel label d).flatten = []
        · rw [hnil, List.append_nil] at hd
          exact absurd hd (hnot label hlabel)
        · rwa [List.getLast?_append_of_ne_nil _ hnil] at hd
  obtain ⟨u, hu⟩ := List.getLast?_eq_some_iff.1 hlast
  have hmarks := marks_text_ofPiece (s ++ [';'])
  rw [hu, marks_append, marks_append] at hmarks
  exact ⟨u, hu, List.append_cancel_right hmarks⟩

/-- The declaration of a segment that a semicolon ends. -/
structure IsEnded (d : Declaration) (s : List Char) : Prop where
  /-- It is ended by a semicolon as well. -/
  text : text d = s ++ [';']
  /-- Its braces come in pairs. -/
  balanced : IsBalanced s
  /-- No other semicolon stands outside them. -/
  inner : SemicolonsInBraces s

/-- All declarations of a body but the last one are ended by a semicolon outside braces, and there
are no others in them. -/
theorem IsCut.exists_ended {body : List Char} {segments : List (List Char)}
    (h : IsCut body segments) :
    ∃ ended last, (segments.map ofPiece).filter (fun d => !isVoid d) = ended ++ last ∧
      (∀ d ∈ ended, ∃ s, IsEnded d s) ∧ last.length ≤ 1 ∧
      ∀ d ∈ last, IsBalanced (text d) ∧ SemicolonsInBraces (text d) := by
  induction h with
  | @last s balanced inner =>
    refine ⟨[], [ofPiece s].filter fun d => !isVoid d, rfl, nofun, List.length_filter_le _ _,
      fun d hd => ?_⟩
    obtain rfl := List.mem_singleton.1 (List.mem_of_mem_filter hd)
    have hmarks := marks_text_ofPiece s
    exact ⟨isBalanced_of_marks_eq hmarks balanced, semicolonsInBraces_of_marks_eq hmarks inner⟩
  | @cons s rest segments balanced inner _ ih =>
    obtain ⟨ended, last, hparts, hended, hlast⟩ := ih
    obtain ⟨u, htext, hmarks⟩ := exists_text_ofPiece_eq s
    have hfirst : IsEnded (ofPiece (s ++ [';'])) u :=
      ⟨htext, isBalanced_of_marks_eq hmarks balanced, semicolonsInBraces_of_marks_eq hmarks inner⟩
    rw [List.map_cons, List.filter_cons, hparts]
    split
    · exact ⟨_ :: ended, last, rfl, List.forall_mem_cons.2 ⟨⟨u, hfirst⟩, hended⟩, hlast⟩
    · exact ⟨ended, last, rfl, hended, hlast⟩

/-! ### Bodies that are found -/

/-- **The declarations of a body.** Take the body of a struct that is found in a text, without its
comments. Before each closing brace in it more braces are opened than closed, and all are closed in
the end. It is cut behind each semicolon outside braces and nowhere else, and nothing of it is lost.
Each segment becomes a declaration, its words without the access labels in front; but where labels in
a row are not in the order in which they are dropped, those from the first that is out of order stay.
A segment that is left empty, or with a semicolon alone, declares nothing, and all others are kept in
order. Of the declarations all but the last are ended by a semicolon outside braces, and no other
semicolon stands outside braces. -/
theorem declarations_of_extract {maxScan : Nat} {source : List Char} {start : Nat} {span : Span}
    (h : extract (.body maxScan) source start = .ok span) :
    let body := Comment.strip (span.text source)
    ((∀ front back, body = front ++ '}' :: back → front.count '}' < front.count '{') ∧
        body.count '{' = body.count '}') ∧
      ∃ segments, (IsCut body segments ∧ segments.flatten = body ∧
          ∀ front back, body = front ++ ';' :: back → (front.count '{' = front.count '}' ↔
            ∃ done rest, rest ≠ [] ∧ segments = done ++ rest ∧ done.flatten = front ++ [';'])) ∧
        all body = (segments.map ofPiece).filter (fun d => !isVoid d) ∧
        (∀ piece ∈ segments, ∃ gone kept rest, LosesLabels piece gone kept rest ∧
          (kept = [] ↔ (gone ++ kept).Sublist accessLabels)) ∧
        ∃ ended last, all body = ended ++ last ∧ (∀ d ∈ ended, ∃ s, IsEnded d s) ∧
          last.length ≤ 1 ∧ ∀ d ∈ last, IsBalanced (text d) ∧ SemicolonsInBraces (text d) := by
  intro body
  have hbalanced : IsBalanced body := isBalanced_strip_of_extract h
  have hcut := isCut_pieces hbalanced
  refine ⟨⟨fun front back hbody => ?_, hbalanced.count_eq⟩, pieces body,
    ⟨hcut, hcut.flatten_eq, fun front back => hcut.ends_iff⟩, rfl, fun piece _ => ?_,
    hcut.exists_ended⟩
  · rw [hbody] at hbalanced
    exact hbalanced.count_lt
  · obtain ⟨gone, kept, rest, hloses⟩ := losesLabels_ofPiece piece
    exact ⟨gone, kept, rest, hloses, hloses.kept_eq_nil_iff⟩

/-- A struct with braces and semicolons in comments, a struct in it and labels. -/
def gateText : List Char :=
  "struct gate \x7b // \x7b\nprivate: public: int x; /* ; \x7d */\n".toList ++
    "struct \x7b int y; \x7d in;\nprotected:private:;\n int z\n\x7d;\n".toList

theorem declarations_of_extract_gate :
    let body := Comment.strip (Span.text ⟨14, 102, 102⟩ gateText)
    extract (.body 4096) gateText 12 = .ok ⟨14, 102, 102⟩ ∧
      body.count '{' = body.count '}' ∧
      (∃ segments, IsCut body segments ∧
        all body = (segments.map ofPiece).filter fun d => !isVoid d) ∧
      (all body).map text =
        ["public: int x;".toList, "struct \x7b int y; \x7d in;".toList, "int z".toList] := by
  intro body
  have hextract : extract (.body 4096) gateText 12 = .ok ⟨14, 102, 102⟩ := by decide +kernel
  obtain ⟨⟨-, hcount⟩, segments, ⟨hcut, -⟩, hall, -⟩ := declarations_of_extract hextract
  exact ⟨hextract, hcount, ⟨segments, hcut, hall⟩, by decide +kernel⟩

/-- Of two labels in a row the second one stays if it is listed first. -/
theorem label_out_of_order_stays :
    let source := "struct gate \x7b\nprivate: public: int x;\n\x7d;\n".toList
    let piece := "private: public: int x;".toList
    extract (.body 4096) source 12 = .ok ⟨14, 38, 38⟩ ∧
      pieces (Comment.strip (Span.text ⟨14, 38, 38⟩ source)) = [piece, ['\n']] ∧
      Labelled ["private:".toList, "public:".toList] ["int".toList, "x;".toList] (words piece) ∧
      all (Comment.strip (Span.text ⟨14, 38, 38⟩ source)) =
        [["public:".toList, "int".toList, "x;".toList]] :=
  ⟨by decide +kernel, by decide +kernel, .apart (.apart (.nil _)), by decide +kernel⟩

end StructUnfold.Declaration
