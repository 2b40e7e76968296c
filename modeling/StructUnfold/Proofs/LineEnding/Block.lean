import StructUnfold.Proofs.LineEnding.Comment
import StructUnfold.Proofs.Source.Block

/-!
# Blocks in lines with carriage returns

The search for the end of a block is not stopped by the end of a line. So a block that is found in a
text is found in the other form of the text as well, between the same braces, and a block that is
not found is missed there for the same reason. Only the offsets are others.

* `Error.mapOffsets`: an error that speaks of other offsets.
* `SameStop`, `seek_crlf`: a search comes to the same character in both forms.
* `extract_declaration_crlf`, `extract_body_crlf`: so does the search for a block.
-/

namespace StructUnfold.Block

open Text Comment

/-- The error with other offsets. -/
def Error.mapOffsets (f : Nat → Nat) : Error → Error
  | missingOpenBrace start => missingOpenBrace (f start)
  | invalidStart start => invalidStart (f start)
  | unbalanced start => unbalanced (f start)
  | unterminatedComment start => unterminatedComment (f start)
  | missingTerminator close => missingTerminator (f close)
  | scanLimit start limit => scanLimit (f start) limit
  | staleHeader offset expected => staleHeader (f offset) expected

/-! ### Searching -/

/-- A search in the rest `s` of a text that begins with `before` and one in the other form of the
text end at the same character, or both end nowhere, and in the same comment if in one. -/
def SameStop {σ : Type} (next : σ → Char → Option σ) (before s : List Char)
    (found found' : Except (Option Nat) (Nat × List Char)) : Prop :=
  (∃ front c back, s = front ++ c :: back ∧ (∃ last, next last c = none) ∧
    found = .ok (byteSize (before ++ front), back) ∧
    found' = .ok (byteSize (crlf (before ++ front)), crlf back)) ∨
  ∃ opened, found = .error opened ∧ found' = .error (opened.map (crlfOffset (before ++ s)))

section

variable {σ : Type} {next : σ → Char → Option σ}

/-- A search that goes on behind a character ends behind it. -/
theorem SameStop.cons {before s : List Char} {c : Char}
    {found found' : Except (Option Nat) (Nat × List Char)}
    (h : SameStop next (before ++ [c]) s found found') :
    SameStop next before (c :: s) found found' := by
  rcases h with ⟨front, d, back, rfl, hlast, hfound, hfound'⟩ | ⟨opened, hfound, hfound'⟩
  · rw [List.append_assoc, List.singleton_append] at hfound hfound'
    exact .inl ⟨c :: front, d, back, rfl, hlast, hfound, hfound'⟩
  · rw [List.append_assoc, List.singleton_append] at hfound'
    exact .inr ⟨opened, hfound, hfound'⟩

/-- A carriage return before a line feed is passed over. -/
theorem seek_return (hreturn : ∀ state, next state '\r' = some state) {mode : Mode}
    (hadmits : mode.Admits (some '\n')) (opened : Nat) (state : σ) (pos : Nat) (s : List Char) :
    seek true next mode opened state pos ('\r' :: '\n' :: s) =
      seek true next mode opened state (pos + 1) ('\n' :: s) := by
  cases mode with
  | code =>
    have hstep : Mode.code.step '\r' (some '\n') = (.code, .code) := rfl
    rw [seek, if_pos rfl, List.head?_cons, hstep]
    dsimp only
    rw [hreturn]
    rfl
  | line => rfl
  | block => rfl
  | _ => cases hadmits

/-- A search that the end of a line does not stop comes to the same character. -/
theorem seek_crlf (hreturn : ∀ state, next state '\r' = some state)
    (hfeed : ∀ state, next state '\n' = some state) {mode : Mode} {s : List Char}
    (hadmits : mode.Admits s.head?) (opened : Nat) (state : σ) (before : List Char) :
    SameStop next before s (seek true next mode opened state (byteSize before) s)
      (seek true next mode (crlfOffset (before ++ s) opened) state (byteSize (crlf before))
        (crlf s)) := by
  induction s generalizing mode opened state before with
  | nil =>
    refine .inr ⟨_, rfl, ?_⟩
    rw [crlf_nil, seek]
    split <;> rfl
  | cons c s ih =>
    -- Where a line ends, the other form has one character more before the same step.
    obtain ⟨pos, hpos, hbehind, hseek⟩ : ∃ pos, (c ≠ '\n' → pos = byteSize (crlf before)) ∧
        pos + c.utf8Size = byteSize (crlf (before ++ [c])) ∧
        ∀ opened, seek true next mode opened state (byteSize (crlf before)) (crlf (c :: s)) =
          seek true next mode opened state pos (c :: crlf s) := by
      by_cases hc : c = '\n'
      · subst hc
        exact ⟨byteSize (crlf before) + 1, fun h => absurd rfl h,
          (byteSize_crlf_concat_feed before).symm,
          fun opened => seek_return hreturn hadmits opened state _ (crlf s)⟩
      · exact ⟨byteSize (crlf before), fun _ => rfl, (byteSize_crlf_concat_of_ne before hc).symm,
          fun opened => by rw [crlf_cons_of_ne hc]⟩
    have hnext := mode.admits_step c s.head?
    have htext : before ++ c :: s = (before ++ [c]) ++ s := by simp
    rw [hseek, seek, seek, if_pos rfl, if_pos rfl, Mode.step_head?_crlf, ← byteSize_concat,
      hbehind]
    obtain ⟨kind, mode', hstep⟩ : ∃ kind mode', mode.step c s.head? = (kind, mode') := ⟨_, _, rfl⟩
    rw [hstep] at hnext ⊢
    cases kind with
    | code =>
      dsimp only
      cases hstop : next state c with
      | none =>
        have hc : c ≠ '\n' := by
          rintro rfl
          rw [hfeed] at hstop
          cases hstop
        refine .inl ⟨[], c, s, rfl, ⟨state, hstop⟩, ?_, ?_⟩
        · rw [List.append_nil]
        · rw [List.append_nil, hpos hc]
      | some state' =>
        dsimp only
        rw [htext]
        exact (ih hnext opened state' (before ++ [c])).cons
    | opening =>
      -- The comment begins here, and the search remembers where.
      obtain ⟨rfl, -⟩ := Mode.of_step_eq_opening hstep
      have hopened := crlfOffset_append before ('/' :: s)
      rw [htext] at hopened
      dsimp only
      rw [hpos (by decide), ← hopened]
      exact (ih hnext (byteSize before) state (before ++ ['/'])).cons
    | inside =>
      dsimp only
      rw [htext]
      exact (ih hnext opened state (before ++ [c])).cons

/-- The search behind a brace comes to the same character. -/
theorem seek_behind_crlf (hreturn : ∀ state, next state '\r' = some state)
    (hfeed : ∀ state, next state '\n' = some state) {x : Char} (hx : x = '{' ∨ x = '}')
    (state : σ) (before s : List Char) :
    (∃ front c back, s = front ++ c :: back ∧ (∃ last, next last c = none) ∧
      seek true next .code 0 state (byteSize before + 1) s =
        .ok (byteSize before + 1 + byteSize front, back) ∧
      seek true next .code 0 state (byteSize (crlf before) + 1) (crlf s) =
        .ok (byteSize (crlf before) + 1 + byteSize (crlf front), crlf back)) ∨
    ∃ opened, seek true next .code 0 state (byteSize before + 1) s = .error opened ∧
      seek true next .code 0 state (byteSize (crlf before) + 1) (crlf s) =
        .error (opened.map (crlfOffset (before ++ x :: s))) := by
  -- No comment is open yet, so the search remembers no place, which is written as the place zero.
  have hsearch := seek_crlf hreturn hfeed (Mode.admits_code s.head?) 0 state (before ++ [x])
  have hsize : byteSize [x] = 1 := by
    rcases hx with rfl | rfl <;> rfl
  have hline : crlf [x] = [x] := by
    rcases hx with rfl | rfl <;> rfl
  have hbehind : ∀ front, byteSize ((before ++ [x]) ++ front) =
      byteSize before + 1 + byteSize front := fun front => by
    rw [byteSize_append, byteSize_append, hsize]
  have hbehind' : ∀ front, byteSize (crlf ((before ++ [x]) ++ front)) =
      byteSize (crlf before) + 1 + byteSize (crlf front) := fun front => by
    rw [crlf_append, crlf_append, hline, byteSize_append, byteSize_append, hsize]
  have hpos := hbehind []
  have hpos' := hbehind' []
  rw [List.append_nil, byteSize_nil, Nat.add_zero] at hpos
  rw [List.append_nil, crlf_nil, byteSize_nil, Nat.add_zero] at hpos'
  rw [crlfOffset_zero, hpos, hpos'] at hsearch
  rcases hsearch with ⟨front, c, back, hs, hlast, hfound, hfound'⟩ | ⟨opened, hfound, hfound'⟩
  · rw [hbehind] at hfound
    rw [hbehind'] at hfound'
    exact .inl ⟨front, c, back, hs, hlast, hfound, hfound'⟩
  · rw [List.append_assoc, List.singleton_append] at hfound'
    exact .inr ⟨opened, hfound, hfound'⟩

end

/-! ### Blocks -/

/-- The span of a block with the names behind it, told by what stands before its brace, between the
braces and before the semicolon. -/
def Span.ofParts (before inner trailer : List Char) : Span :=
  ⟨byteSize before, byteSize before + 1 + byteSize inner,
    byteSize before + 1 + byteSize inner + 1 + byteSize trailer + 1⟩

/-- Behind its brace a block with names is found in both forms of a text or in none. -/
theorem extractAfterBrace_declaration_crlf (maxScan : Nat) (before body : List Char) :
    (∃ inner trailer rest, body = inner ++ '}' :: (trailer ++ ';' :: rest) ∧
      extractAfterBrace (.declaration maxScan) (byteSize before + 1) body =
        .ok (.ofParts before inner trailer) ∧
      extractAfterBrace (.declaration maxScan) (byteSize (crlf before) + 1) (crlf body) =
        .ok (.ofParts (crlf before) (crlf inner) (crlf trailer))) ∨
    ∃ e, extractAfterBrace (.declaration maxScan) (byteSize before + 1) body = .error e ∧
      extractAfterBrace (.declaration maxScan) (byteSize (crlf before) + 1) (crlf body) =
        .error (e.mapOffsets (crlfOffset (before ++ '{' :: body))) := by
  have hstart := crlfOffset_append before ('{' :: body)
  rcases @seek_behind_crlf _ nextDepth (fun _ => rfl) (fun _ => rfl) '{' (.inl rfl) 0 before
    body with ⟨inner, c, rest, rfl, ⟨depth, hlast⟩, hclose, hclose'⟩ | ⟨opened, hclose, hclose'⟩
  · obtain rfl := eq_of_nextDepth_eq_none hlast
    -- Behind the closing brace the search for the semicolon begins anew, with that brace before it.
    have hbrace : byteSize (before ++ '{' :: inner) = byteSize before + 1 + byteSize inner := by
      rw [byteSize_append, byteSize_brace_cons]
      omega
    have hbrace' : byteSize (crlf (before ++ '{' :: inner)) =
        byteSize (crlf before) + 1 + byteSize (crlf inner) := by
      rw [crlf_append, crlf_cons_of_ne (by decide), byteSize_append, byteSize_brace_cons]
      omega
    have htext : (before ++ '{' :: inner) ++ '}' :: rest =
        before ++ '{' :: (inner ++ '}' :: rest) := by simp
    have hbehind := crlfOffset_append (before ++ '{' :: inner) ('}' :: rest)
    have hnames := @seek_behind_crlf _ untilSemicolon (fun _ => rfl) (fun _ => rfl) '}' (.inr rfl)
      () (before ++ '{' :: inner) rest
    rw [htext, hbrace, hbrace'] at hbehind
    rw [htext, hbrace, hbrace'] at hnames
    rcases hnames with ⟨trailer, c, rest, rfl, ⟨u, hlast⟩, hsemicolon, hsemicolon'⟩ |
      ⟨opened, hsemicolon, hsemicolon'⟩
    · obtain rfl := eq_of_untilSemicolon_eq_none hlast
      refine .inl ⟨inner, trailer, rest, rfl, ?_, ?_⟩
      · simp only [extractAfterBrace, Options.declaration, hclose, hsemicolon, if_true,
          Span.ofParts, Nat.add_sub_cancel]
      · simp only [extractAfterBrace, Options.declaration, hclose', hsemicolon', if_true,
          Span.ofParts, Nat.add_sub_cancel]
    · refine .inr ?_
      simp only [extractAfterBrace, Options.declaration, hclose, hclose', hsemicolon, hsemicolon',
        if_true]
      cases opened with
      | none => exact ⟨_, rfl, by simp only [Option.map_none, Error.mapOffsets, hbehind]⟩
      | some opened => exact ⟨_, rfl, rfl⟩
  · refine .inr ?_
    simp only [extractAfterBrace, Options.declaration, hclose, hclose']
    cases opened with
    | none => exact ⟨_, rfl, by simp [Error.mapOffsets, hstart]⟩
    | some opened => exact ⟨_, rfl, rfl⟩

/-- Behind its brace a body is found in both forms of a text or in none. -/
theorem extractAfterBrace_body_crlf (maxScan : Nat) (before body : List Char) :
    (∃ inner rest, body = inner ++ '}' :: rest ∧
      extractAfterBrace (.body maxScan) (byteSize before + 1) body =
        .ok ⟨byteSize before + 1 + (body.takeWhile isAsciiSpace).length,
          byteSize before + 1 + byteSize inner, byteSize before + 1 + byteSize inner⟩ ∧
      extractAfterBrace (.body maxScan) (byteSize (crlf before) + 1) (crlf body) =
        .ok ⟨byteSize (crlf before) + 1 + ((crlf body).takeWhile isAsciiSpace).length,
          byteSize (crlf before) + 1 + byteSize (crlf inner),
          byteSize (crlf before) + 1 + byteSize (crlf inner)⟩) ∨
    ∃ e, extractAfterBrace (.body maxScan) (byteSize before + 1) body = .error e ∧
      extractAfterBrace (.body maxScan) (byteSize (crlf before) + 1) (crlf body) =
        .error (e.mapOffsets (crlfOffset (before ++ '{' :: body))) := by
  have hstart := crlfOffset_append before ('{' :: body)
  rcases @seek_behind_crlf _ nextDepth (fun _ => rfl) (fun _ => rfl) '{' (.inl rfl) 0 before
    body with ⟨inner, c, rest, rfl, ⟨depth, hlast⟩, hclose, hclose'⟩ | ⟨opened, hclose, hclose'⟩
  · obtain rfl := eq_of_nextDepth_eq_none hlast
    refine .inl ⟨inner, rest, rfl, ?_, ?_⟩
    · simp only [extractAfterBrace, Options.body, hclose, Bool.false_eq_true, if_false]
    · simp only [extractAfterBrace, Options.body, hclose', Bool.false_eq_true, if_false]
  · refine .inr ?_
    simp only [extractAfterBrace, Options.body, hclose, hclose']
    cases opened with
    | none => exact ⟨_, rfl, by simp only [Option.map_none, Error.mapOffsets, Nat.add_sub_cancel,
        hstart]⟩
    | some opened => exact ⟨_, rfl, rfl⟩

variable {before body : List Char}

theorem crlf_append_brace_cons (before body : List Char) :
    crlf (before ++ '{' :: body) = crlf before ++ '{' :: crlf body := by
  rw [crlf_append, crlf_cons_of_ne (by decide)]

/-- Where the ceiling is not reached, a block is looked for behind its brace in both forms of a
text. -/
theorem extract_eq_and_extract_crlf_eq (options : Options)
    (hceiling : byteSize (crlf (before ++ '{' :: body)) ≤ options.maxScan) :
    extract options (before ++ '{' :: body) (byteSize before) =
        extractAfterBrace options (byteSize before + 1) body ∧
      extract options (crlf (before ++ '{' :: body)) (byteSize (crlf before)) =
        extractAfterBrace options (byteSize (crlf before) + 1) (crlf body) := by
  have hlong := byteSize_le_byteSize_crlf (before ++ '{' :: body)
  rw [crlf_append_brace_cons] at hceiling hlong ⊢
  exact ⟨extract_of_ceiling (Nat.le_trans hlong hceiling), extract_of_ceiling hceiling⟩

/-- A block with names behind it is found in both forms of a text, with the same behind it, or in
none, for the same reason. -/
theorem extract_declaration_crlf {maxScan : Nat}
    (hceiling : byteSize (crlf (before ++ '{' :: body)) ≤ maxScan) :
    (∃ span span', extract (.declaration maxScan) (before ++ '{' :: body) (byteSize before) =
        .ok span ∧
      extract (.declaration maxScan) (crlf (before ++ '{' :: body)) (byteSize (crlf before)) =
        .ok span' ∧
      span'.trailer (crlf (before ++ '{' :: body)) =
        crlf (span.trailer (before ++ '{' :: body))) ∨
    ∃ e, extract (.declaration maxScan) (before ++ '{' :: body) (byteSize before) = .error e ∧
      extract (.declaration maxScan) (crlf (before ++ '{' :: body)) (byteSize (crlf before)) =
        .error (e.mapOffsets (crlfOffset (before ++ '{' :: body))) := by
  obtain ⟨hextract, hextract'⟩ :=
    extract_eq_and_extract_crlf_eq (.declaration maxScan) hceiling
  rw [hextract, hextract']
  rcases extractAfterBrace_declaration_crlf maxScan before body with
    ⟨inner, trailer, rest, rfl, hfound, hfound'⟩ | ⟨e, hfound, hfound'⟩
  · refine .inl ⟨_, _, hfound, hfound', ?_⟩
    have hparts : crlf (inner ++ '}' :: (trailer ++ ';' :: rest)) =
        crlf inner ++ '}' :: (crlf trailer ++ ';' :: crlf rest) := by
      rw [crlf_append, crlf_cons_of_ne (by decide), crlf_append, crlf_cons_of_ne (by decide)]
    rw [crlf_append_brace_cons, hparts, Span.ofParts, trailer_declaration, Span.ofParts,
      trailer_declaration, crlf_append]
    rfl
  · exact .inr ⟨e, hfound, hfound'⟩

/-- A body is found in both forms of a text, with the same lines, or in none, for the same
reason. -/
theorem extract_body_crlf {maxScan : Nat}
    (hceiling : byteSize (crlf (before ++ '{' :: body)) ≤ maxScan) :
    (∃ span span', extract (.body maxScan) (before ++ '{' :: body) (byteSize before) = .ok span ∧
      extract (.body maxScan) (crlf (before ++ '{' :: body)) (byteSize (crlf before)) =
        .ok span' ∧
      span'.text (crlf (before ++ '{' :: body)) = crlf (span.text (before ++ '{' :: body))) ∨
    ∃ e, extract (.body maxScan) (before ++ '{' :: body) (byteSize before) = .error e ∧
      extract (.body maxScan) (crlf (before ++ '{' :: body)) (byteSize (crlf before)) =
        .error (e.mapOffsets (crlfOffset (before ++ '{' :: body))) := by
  obtain ⟨hextract, hextract'⟩ :=
    extract_eq_and_extract_crlf_eq (.body maxScan) hceiling
  rw [hextract, hextract']
  rcases extractAfterBrace_body_crlf maxScan before body with
    ⟨inner, rest, rfl, hfound, hfound'⟩ | ⟨e, hfound, hfound'⟩
  · refine .inl ⟨_, _, hfound, hfound', ?_⟩
    have hparts : crlf (inner ++ '}' :: rest) = crlf inner ++ '}' :: crlf rest := by
      rw [crlf_append, crlf_cons_of_ne (by decide)]
    rw [crlf_append_brace_cons, hparts, text_body, text_body, dropWhile_crlf rfl]
  · exact .inr ⟨e, hfound, hfound'⟩

end StructUnfold.Block
