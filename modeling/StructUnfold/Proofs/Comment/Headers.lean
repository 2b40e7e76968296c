import StructUnfold.Proofs.Comment.Kinds
import StructUnfold.Proofs.Source.HeaderWalk

/-!
# Comments on the lines of headers

A comment that begins on the line of a header keeps the line from being a header, whatever it says,
unless a colon stands before it. So on such lines, and where no comment stands before the brace, the
header is found that is found when the comments are erased.

* `headIsSafe`: a line on which it makes no difference what the comments say.
* `parse?_eq_none_of_star`: a star before the colon keeps a line from being a header.
* `filter_all_eq`: the headers outside comments are those of the erased text.
-/

namespace StructUnfold.Comment

open Text Header

/-- Whether on a line that ends in a header no comment stands before the brace, or one that begins
on the line and before any colon. -/
def headIsSafe (line : List (Char × Kind)) : Bool :=
  !(line.any fun c => c.1 == '{') ||
    match (line.takeWhile fun c => c.1 != '{').dropWhile fun c => c.2 == .code with
    | [] => true
    | c :: _ => c.2 == .opening && !(line.takeWhile fun c => c.2 == .code).any fun c => c.1 == ':'

/-! ### Stars -/

/-- Before a star neither a base nor the end of the line is reached. -/
theorem nameAndBase?_eq_none_of_star {u : List Char} (hu : ':' ∉ u) (y : List Char) :
    nameAndBase? (u ++ '*' :: y) = none := by
  have hblank : ¬isBlank '*' = true := by decide
  have hname : ¬isNameChar '*' = true := by decide
  rw [nameAndBase?, dropWhile_append_cons_of_neg hblank, dropWhile_append_cons_of_neg hname,
    dropWhile_append_cons_of_neg hblank]
  have hsuffix := ((List.dropWhile_suffix isBlank).trans (List.dropWhile_suffix isNameChar)).trans
    (List.dropWhile_suffix isBlank (l := u))
  cases hrest : ((u.dropWhile isBlank).dropWhile isNameChar).dropWhile isBlank with
  | nil => rfl
  | cons c rest =>
    have hc : c ≠ ':' := fun heq => hu (hsuffix.subset (by rw [hrest, heq]; simp))
    split
    · rename_i heq
      cases heq
    · rename_i heq
      exact absurd (List.cons_eq_cons.1 heq).1 hc
    · rfl

theorem fromKeyword?_eq_none_of_star {u : List Char} (hu : ':' ∉ u) (y : List Char) :
    fromKeyword? (u ++ '*' :: y) = none := by
  rw [fromKeyword?]
  cases hafter : after? "struct".toList (u ++ '*' :: y) with
  | none => rfl
  | some rest =>
    -- The keyword ends before the star.
    obtain ⟨u', rfl, rfl⟩ : ∃ u', u = "struct".toList ++ u' ∧ rest = u' ++ '*' :: y := by
      rcases List.append_eq_append_iff.1 (after?_eq_some_iff.1 hafter) with
        ⟨t, hstruct, hrest⟩ | ⟨u', hu', hrest⟩
      · cases t with
        | nil => exact ⟨[], by simpa using hstruct.symm, by simpa using hrest.symm⟩
        | cons c t =>
          obtain ⟨rfl, -⟩ := List.cons_eq_cons.1 hrest
          have hmem : '*' ∈ "struct".toList := by rw [hstruct]; simp
          exact absurd hmem (by decide)
      · exact ⟨u', hu', hrest⟩
    dsimp only
    rw [nameAndBase?_eq_none_of_star (fun hmem => hu (List.mem_append_right _ hmem)), ite_self]

theorem fromWords?_eq_none_of_star {u : List Char} (hu : ':' ∉ u) (inWord : Bool) (y : List Char) :
    fromWords? inWord (u ++ '*' :: y) = none := by
  induction u generalizing inWord with
  | nil =>
    have hkeyword := fromKeyword?_eq_none_of_star List.not_mem_nil y
    rw [List.nil_append] at hkeyword ⊢
    rw [fromWords?, if_neg (by decide), hkeyword]
    cases inWord <;> rfl
  | cons c u ih =>
    have hkeyword := fromKeyword?_eq_none_of_star hu y
    rw [List.mem_cons, not_or] at hu
    rw [List.cons_append] at hkeyword ⊢
    rw [fromWords?, hkeyword]
    dsimp only
    rw [ih hu.2, ih hu.2, ite_self, ite_self, ite_self, ite_self]

/-- A star before any colon keeps a line from being a header. -/
theorem parse?_eq_none_of_star {u : List Char} (hu : ':' ∉ u) (y : List Char) :
    parse? (u ++ '*' :: y) = none := by
  rw [parse?, fromWords?_eq_none_of_star hu, Option.map_none]

/-! ### Lines -/

/-- What is found on a line: the header and how far into the line its brace stands. -/
def onLine (line : List Char) : Option (Nat × Header) :=
  (ofLine? line).map fun found => (byteSize found.1, found.2)

theorem onLine_of_not_mem {line : List Char} (h : '{' ∉ line) : onLine line = none := by
  rw [onLine, ofLine?_of_not_mem h, Option.map_none]

theorem onLine_append {head : List Char} (h : '{' ∉ head) (after : List Char) :
    onLine (head ++ '{' :: after) = (parse? head).map fun header => (byteSize head, header) := by
  rw [onLine, ofLine?_append h, Option.map_map]
  rfl

theorem onLine_eq_none_of_star {u : List Char} (hu : ':' ∉ u) (hbrace : '{' ∉ u) (y : List Char) :
    onLine (u ++ '*' :: y) = none := by
  by_cases hy : '{' ∈ y
  · obtain ⟨y₁, y₂, rfl, hy₁⟩ := List.eq_append_cons_of_mem hy
    have hhead : '{' ∉ u ++ '*' :: y₁ := by simp [hbrace, hy₁]
    rw [← List.cons_append, ← List.append_assoc, onLine_append hhead, parse?_eq_none_of_star hu]
    rfl
  · exact onLine_of_not_mem (by simp [hbrace, hy])

/-- The headers of a text line by line. -/
theorem ofLinesFrom_cons (pos : Nat) (line : List Char) (lines : List (List Char)) :
    ofLinesFrom pos (line :: lines) =
      ((onLine line).map fun found => (pos + found.1, found.2)).toList ++
        ofLinesFrom (pos + byteSize line + 1) lines := by
  rw [ofLinesFrom, onLine]
  cases ofLine? line <;> rfl

/-- A character that is erased leaves no brace. -/
theorem not_mem_map_blot {c : Char × Kind} (hc : c.2 ≠ .code) {d : Char} (hstar : d ≠ '*')
    (hfeed : d ≠ '\n') : d ∉ (blot c).map Prod.fst := by
  intro hmem
  obtain ⟨x, hx, rfl⟩ := List.mem_map.1 hmem
  rcases (eq_star_or_eq_feed hc hx).2 with heq | ⟨heq, -⟩
  · exact hstar heq
  · exact hfeed heq

theorem not_mem_map_flatMap_blot {m : List (Char × Kind)} (hm : ∀ x ∈ m, x.2 ≠ .code) {d : Char}
    (hstar : d ≠ '*') (hfeed : d ≠ '\n') : d ∉ (m.flatMap blot).map Prod.fst := by
  intro hmem
  obtain ⟨y, hy, rfl⟩ := List.mem_map.1 hmem
  obtain ⟨x, hx, hyx⟩ := List.mem_flatMap.1 hy
  exact not_mem_map_blot (hm x hx) hstar hfeed (List.mem_map_of_mem hyx)

/-- What is erased on a line begins with a star. -/
theorem blot_eq_star_cons {c : Char × Kind} (hc : c.2 ≠ .code) (hfeed : c.1 ≠ '\n') :
    ∃ n, blot c = ('*', c.2) :: List.replicate n ('*', c.2) := by
  obtain ⟨n, hn⟩ := Nat.exists_eq_succ_of_ne_zero (Nat.pos_iff_ne_zero.1 c.1.utf8Size_pos)
  refine ⟨n, ?_⟩
  rw [blot, if_neg (by simp [hc, hfeed]), hn, List.replicate_succ]

/-- A list is cut where a test fails for the first time. -/
theorem exists_cut {α : Type} (p : α → Bool) (l : List α) :
    ∃ u r, l = u ++ r ∧ (∀ x ∈ u, p x = true) ∧ ∀ x, r.head? = some x → p x = false := by
  induction l with
  | nil => exact ⟨[], [], rfl, by simp, by simp⟩
  | cons a l ih =>
    by_cases ha : p a = true
    · obtain ⟨u, r, rfl, hu, hr⟩ := ih
      exact ⟨a :: u, r, rfl, List.forall_mem_cons.2 ⟨ha, hu⟩, hr⟩
    · exact ⟨[], a :: l, rfl, by simp, by simpa using ha⟩

/-- A character stands somewhere for the first time. -/
theorem exists_first {line : List (Char × Kind)} {c : Char} (h : c ∈ line.map Prod.fst) :
    ∃ a k b, line = a ++ (c, k) :: b ∧ c ∉ a.map Prod.fst := by
  obtain ⟨a, r, rfl, ha, hr⟩ := exists_cut (fun x => x.1 != c) line
  have hfirst : c ∉ a.map Prod.fst := by
    intro hmem
    obtain ⟨x, hx, rfl⟩ := List.mem_map.1 hmem
    simpa using ha x hx
  cases r with
  | nil => exact absurd h (by simpa using hfirst)
  | cons x r =>
    obtain ⟨d, k⟩ := x
    obtain rfl : d = c := by simpa using hr _ rfl
    exact ⟨a, k, r, rfl, hfirst⟩

section

variable {t : List Char} {front line rest : List (Char × Kind)}

/-- Where the first brace of a line stands in a comment, nothing is found outside comments. -/
theorem filter_onLine_of_not_mem (h : kinds t = front ++ (line ++ rest))
    (hbrace : '{' ∉ (line.flatMap blot).map Prod.fst) :
    (onLine (line.map Prod.fst)).filter (fun found =>
      !inSpans (spans t) (byteSize (front.map Prod.fst) + found.1)) = none := by
  by_cases hraw : '{' ∈ line.map Prod.fst
  · obtain ⟨a, k, b, rfl, ha⟩ := exists_first hraw
    have hk : k ≠ .code := by
      rintro rfl
      refine hbrace ?_
      rw [List.flatMap_append, List.flatMap_cons, blot_code]
      simp
    have hsplit : kinds t = (front ++ a) ++ ('{', k) :: (b ++ rest) := by simp [h]
    have hspan := inSpans_eq hsplit
    rw [List.map_append, byteSize_append] at hspan
    rw [List.map_append, List.map_cons, onLine_append ha]
    cases parse? (a.map Prod.fst) with
    | none => rfl
    | some header => simp [Option.filter, hspan, hk]
  · rw [onLine_of_not_mem hraw]
    rfl

/-- Where a brace stands before any comment, the header is found. -/
theorem filter_onLine_of_mem {u r : List (Char × Kind)}
    (h : kinds t = front ++ (u ++ r ++ rest)) (hu : ∀ x ∈ u, x.2 = .code)
    (hmem : '{' ∈ u.map Prod.fst) (r' : List Char) :
    (onLine (u.map Prod.fst ++ r.map Prod.fst)).filter (fun found =>
        !inSpans (spans t) (byteSize (front.map Prod.fst) + found.1)) =
      onLine (u.map Prod.fst ++ r') := by
  obtain ⟨a, k, b, rfl, ha⟩ := exists_first hmem
  obtain rfl : k = .code := hu ('{', k) (by simp)
  have hsplit : kinds t = (front ++ a) ++ ('{', .code) :: (b ++ r ++ rest) := by simp [h]
  have hspan := inSpans_eq hsplit
  rw [List.map_append, byteSize_append] at hspan
  rw [List.map_append, List.map_cons, List.append_assoc, List.append_assoc, List.cons_append,
    List.cons_append, onLine_append ha, onLine_append ha]
  cases parse? (a.map Prod.fst) with
  | none => rfl
  | some header => simp [Option.filter, hspan]

/-- A safe line with a comment before its brace: the comment begins on it and before any colon. -/
theorem of_headIsSafe {u r : List (Char × Kind)} {c : Char × Kind} (hu : ∀ x ∈ u, x.2 = .code)
    (hbrace : '{' ∉ u.map Prod.fst) (hmem : '{' ∈ (u ++ c :: r).map Prod.fst)
    (hc : c.2 ≠ .code) (hc' : c.1 ≠ '{') (hsafe : headIsSafe (u ++ c :: r) = true) :
    c.2 = .opening ∧ ':' ∉ u.map Prod.fst := by
  have hbrace' : ∀ x ∈ u, (x.1 != '{') = true := by
    intro x hx
    rw [bne_iff_ne]
    rintro heq
    exact hbrace (heq ▸ List.mem_map_of_mem hx)
  have hcode : ∀ x ∈ u, (x.2 == Kind.code) = true := fun x hx => by simp [hu x hx]
  have hany : ((u ++ c :: r).any fun x => x.1 == '{') = true := by
    rw [List.any_eq_true]
    obtain ⟨x, hx, heq⟩ := List.mem_map.1 hmem
    exact ⟨x, hx, by simp [heq]⟩
  -- The line is cut where its code ends, which is at the first character of the comment.
  have hdrop : ∀ s, (u ++ c :: s).dropWhile (fun x => x.2 == .code) = c :: s := by
    intro s
    rw [List.dropWhile_append_of_pos hcode, List.dropWhile_cons_of_neg (by simp [hc])]
  have htake : (u ++ c :: r).takeWhile (fun x => x.2 == .code) = u := by
    rw [List.takeWhile_append_of_pos hcode, List.takeWhile_cons_of_neg (by simp [hc]),
      List.append_nil]
  rw [headIsSafe, hany, htake, List.takeWhile_append_of_pos hbrace',
    List.takeWhile_cons_of_pos (by simp [hc']), hdrop] at hsafe
  simp only [Bool.not_true, Bool.false_or, Bool.and_eq_true, beq_iff_eq, Bool.not_eq_true',
    List.any_eq_false] at hsafe
  refine ⟨hsafe.1, fun hcolon => ?_⟩
  obtain ⟨x, hx, heq⟩ := List.mem_map.1 hcolon
  exact hsafe.2 x hx (by simp [heq])

/-- On a safe line the header outside comments is that of the erased line. -/
theorem filter_onLine (h : kinds t = front ++ (line ++ rest)) (hline : '\n' ∉ line.map Prod.fst)
    (hrest : ∀ x, rest.head? = some x → x.1 = '\n')
    (hsafe : headIsSafe (line.flatMap blot) = true) :
    (onLine (line.map Prod.fst)).filter (fun found =>
        !inSpans (spans t) (byteSize (front.map Prod.fst) + found.1)) =
      onLine ((line.flatMap blot).map Prod.fst) := by
  by_cases hbrace : '{' ∈ (line.flatMap blot).map Prod.fst
  · -- The line is cut where its first comment begins.
    obtain ⟨u, r, rfl, hu, hr⟩ := exists_cut (fun x => x.2 == Kind.code) line
    replace hu : ∀ x ∈ u, x.2 = .code := fun x hx => by simpa using hu x hx
    rw [List.flatMap_append, flatMap_blot_of_code hu] at hbrace hsafe ⊢
    rw [List.map_append] at hbrace
    rw [List.map_append, List.map_append]
    by_cases hmem : '{' ∈ u.map Prod.fst
    · exact filter_onLine_of_mem h hu hmem _
    · cases r with
      | nil => simp [hmem] at hbrace
      | cons x r =>
        obtain ⟨c, k⟩ := x
        have hk : k ≠ .code := by simpa using hr (c, k) rfl
        have hfeed : c ≠ '\n' := fun heq => hline (by simp [heq])
        obtain ⟨n, hn⟩ := blot_eq_star_cons (c := (c, k)) hk hfeed
        rw [List.flatMap_cons, hn, List.cons_append] at hsafe hbrace ⊢
        rw [← List.map_append] at hbrace
        obtain ⟨rfl, hcolon⟩ := of_headIsSafe hu hmem hbrace hk (show '*' ≠ '{' by decide) hsafe
        have hsplit : kindsFrom .code t = (front ++ u) ++ (c, .opening) :: (r ++ rest) := by
          rw [← kinds, h]
          simp
        obtain ⟨rfl, d, rest', hback, hd⟩ := exists_of_opening hsplit
        rw [List.map_cons, List.map_cons, onLine_eq_none_of_star hcolon hmem]
        cases r with
        | nil =>
          -- The second character of the comment stands on the same line.
          have hd' : d = '\n' := hrest (d, .inside) (by rw [← List.nil_append rest, hback]; rfl)
          rcases hd with rfl | ⟨rfl, -⟩ <;> cases hd'
        | cons x r =>
          rw [List.cons_append] at hback
          obtain ⟨rfl, rfl⟩ := List.cons_eq_cons.1 hback
          rcases hd with rfl | ⟨rfl, hcomment⟩
          · have hnone := onLine_eq_none_of_star (u := u.map Prod.fst ++ ['/'])
              (by simpa using hcolon) (by simpa using hmem) (r.map Prod.fst)
            rw [List.append_assoc] at hnone
            exact congrArg (Option.filter _) hnone
          · -- Behind two slashes there is no code and so no brace.
            have hnocode := hcomment r rest rfl fun hmem' => hline (by simp [hmem'])
            have hnone := not_mem_map_flatMap_blot (m := ('/', .inside) :: r)
              (List.forall_mem_cons.2 ⟨by simp, hnocode⟩) (d := '{') (by decide) (by decide)
            have hstars : '{' ∉ (List.replicate n ('*', Kind.opening)).map Prod.fst := by simp
            rw [List.map_append, List.map_cons, List.map_append, List.mem_append, List.mem_cons,
              List.mem_append] at hbrace
            rcases hbrace with hbrace | hbrace | hbrace | hbrace
            · exact absurd hbrace hmem
            · cases hbrace
            · exact absurd hbrace hstars
            · exact absurd hbrace hnone
  · rw [filter_onLine_of_not_mem h hbrace, onLine_of_not_mem hbrace]

/-! ### Texts -/

/-- The lines of a text are safe. -/
def LinesAreSafe (m : List (Char × Kind)) : Prop :=
  ∀ line ∈ m.splitOnP fun c => c.1 == '\n', headIsSafe line = true

/-- Erasing keeps lines apart. -/
theorem feed_not_mem_flatMap_blot {line : List (Char × Kind)} (h : '\n' ∉ line.map Prod.fst) :
    '\n' ∉ (line.flatMap blot).map Prod.fst := by
  intro hmem
  obtain ⟨y, hy, hfeed⟩ := List.mem_map.1 hmem
  obtain ⟨⟨c, k⟩, hx, hyx⟩ := List.mem_flatMap.1 hy
  refine h (List.mem_map.2 ⟨(c, k), hx, ?_⟩)
  by_cases hk : k = .code
  · subst hk
    rw [blot_code] at hyx
    obtain rfl := List.mem_singleton.1 hyx
    exact hfeed
  · rcases (eq_star_or_eq_feed (c := (c, k)) hk hyx).2 with heq | ⟨-, heq⟩
    · rw [heq] at hfeed
      cases hfeed
    · exact heq

theorem blot_feed (k : Kind) : blot ('\n', k) = [('\n', k)] :=
  if_pos (.inr rfl)

/-- The headers in the rest of a text whose lines are safe, where comments are left out or
erased. -/
theorem filter_ofLinesFrom {front m : List (Char × Kind)} (h : kinds t = front ++ m)
    (hsafe : LinesAreSafe (m.flatMap blot)) :
    (ofLinesFrom (byteSize (front.map Prod.fst)) (splitLines (m.map Prod.fst))).filter
        (fun found => !inSpans (spans t) found.1) =
      ofLinesFrom (byteSize (front.map Prod.fst))
        (splitLines ((m.flatMap blot).map Prod.fst)) := by
  obtain ⟨line, rest, rfl, hline, hrest⟩ := exists_cut (fun x : Char × Kind => x.1 != '\n') m
  replace hline : '\n' ∉ line.map Prod.fst := by
    intro hmem
    obtain ⟨x, hx, heq⟩ := List.mem_map.1 hmem
    simpa [heq] using hline x hx
  replace hrest : ∀ x, rest.head? = some x → x.1 = '\n' := fun x hx => by simpa using hrest x hx
  have hfeed := feed_not_mem_flatMap_blot hline
  have hnofeed : ∀ x ∈ line.flatMap blot, (x.1 == '\n') = false := by
    intro x hx
    rw [beq_eq_false_iff_ne]
    rintro heq
    exact hfeed (heq ▸ List.mem_map_of_mem hx)
  -- One line is compared, and the lines behind it have been.
  have hstep : ∀ (lines lines' : List (List Char)), headIsSafe (line.flatMap blot) = true →
      (ofLinesFrom (byteSize (front.map Prod.fst) + byteSize (line.map Prod.fst) + 1) lines).filter
          (fun found => !inSpans (spans t) found.1) =
        ofLinesFrom (byteSize (front.map Prod.fst) + byteSize (line.map Prod.fst) + 1) lines' →
      (ofLinesFrom (byteSize (front.map Prod.fst)) (line.map Prod.fst :: lines)).filter
          (fun found => !inSpans (spans t) found.1) =
        ofLinesFrom (byteSize (front.map Prod.fst))
          ((line.flatMap blot).map Prod.fst :: lines') := by
    intro lines lines' hhead hlines
    rw [ofLinesFrom_cons, ofLinesFrom_cons, List.filter_append, byteSize_map_flatMap_blot, hlines,
      ← Option.toList_filter, Option.filter_map]
    exact congrArg (fun found => (Option.map _ found).toList ++ _)
      (filter_onLine h hline hrest hhead)
  cases rest with
  | nil =>
    have hone := hsafe (line.flatMap blot) (by
      rw [List.append_nil, List.splitOnP_eq_singleton hnofeed]
      exact List.mem_singleton_self _)
    rw [List.append_nil, splitLines, splitLines, List.splitOn_eq_singleton hline,
      List.splitOn_eq_singleton hfeed]
    exact hstep [] [] hone rfl
  | cons x rest =>
    obtain ⟨c, k⟩ := x
    obtain rfl : c = '\n' := hrest _ rfl
    have hblot : (line ++ ('\n', k) :: rest).flatMap blot =
        line.flatMap blot ++ ('\n', k) :: rest.flatMap blot := by
      rw [List.flatMap_append, List.flatMap_cons, blot_feed, List.singleton_append]
    rw [LinesAreSafe, hblot, List.splitOnP_append_cons_of_forall_mem hnofeed _ (by rfl)] at hsafe
    obtain ⟨hone, hmore⟩ := List.forall_mem_cons.1 hsafe
    have hsplit : kinds t = (front ++ line ++ [('\n', k)]) ++ rest := by simp [h]
    have ih := filter_ofLinesFrom hsplit hmore
    have hpos : byteSize ((front ++ line ++ [('\n', k)]).map Prod.fst) =
        byteSize (front.map Prod.fst) + byteSize (line.map Prod.fst) + 1 := by
      rw [List.map_append, List.map_append, byteSize_append, byteSize_append]
      rfl
    rw [hpos] at ih
    rw [hblot, List.map_append, List.map_cons, List.map_append, List.map_cons, splitLines,
      splitLines, List.splitOn_append_cons_self_of_not_mem hline,
      List.splitOn_append_cons_self_of_not_mem hfeed]
    exact hstep _ _ hone ih
termination_by m.length

end

/-- In a text whose lines are safe the headers outside comments are those of the erased text. -/
theorem filter_all_eq {t : List Char} (h : LinesAreSafe (blotted t)) :
    (Header.all t).filter (fun found => !inSpans (spans t) found.1) = Header.all (erased t) := by
  have hkinds : kinds t = [] ++ kinds t := rfl
  have hall := filter_ofLinesFrom hkinds h
  rwa [map_fst_kinds] at hall

end StructUnfold.Comment
