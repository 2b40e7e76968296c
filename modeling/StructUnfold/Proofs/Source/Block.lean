import StructUnfold.Proofs.Source.Comment
import StructUnfold.Proofs.Text.Offset
import StructUnfold.Proofs.Text.Space
import StructUnfold.Source.Block

/-!
# Extracting blocks

* `extract_of_brace_behind`, `extract_of_brace`: the block of a brace that stands behind white space
  or at the offset itself.
* `extract_of_ceiling`: it is what follows the brace if the ceiling lies behind the text.
* `seek_append`: code without slashes is run over up to the character that stops the search.
* `extract_body`, `extract_declaration`: the block of a body without braces and comments.
* `IsBalanced`, `extract_declaration_of_le`: the block of a body in which the braces come in pairs.
-/

namespace StructUnfold.Block

open Text

/-- Where a brace follows behind white space, the block is what follows the brace, up to the
ceiling. -/
theorem extract_of_brace_behind (options : Options) {text rest body : List Char} {start : Nat}
    (hdrop : Text.dropBytes? start text = some rest)
    (hbrace : rest.dropWhile Text.isAsciiSpace = '{' :: body) :
    extract options text start =
      if start + options.maxScan < start + (rest.takeWhile Text.isAsciiSpace).length then
        .error (.missingOpenBrace start)
      else
        match extractAfterBrace options
            (start + (rest.takeWhile Text.isAsciiSpace).length + 1) body with
        | .ok span =>
          if max (span.close + 1) span.stop ≤ start + options.maxScan then .ok span
          else .error (.scanLimit start options.maxScan)
        | .error e =>
          .error (if start + options.maxScan < Text.byteSize text then
            .scanLimit start options.maxScan else e) := by
  rw [extract, hdrop]
  dsimp only
  rw [hbrace]
  rfl

/-- Where a brace stands at the offset, the block is what follows it, up to the ceiling. -/
theorem extract_of_brace (options : Options) {text rest : List Char} {start : Nat}
    (h : Text.dropBytes? start text = some ('{' :: rest)) :
    extract options text start =
      match extractAfterBrace options (start + 1) rest with
      | .ok span =>
        if max (span.close + 1) span.stop ≤ start + options.maxScan then .ok span
        else .error (.scanLimit start options.maxScan)
      | .error e =>
        .error (if start + options.maxScan < Text.byteSize text then
          .scanLimit start options.maxScan else e) := by
  have hspace : ¬Text.isAsciiSpace '{' = true := by decide
  rw [extract_of_brace_behind options h (List.dropWhile_cons_of_neg hspace),
    List.takeWhile_cons_of_neg hspace]
  exact if_neg (by simp)

/-- Where something else follows behind white space, there is no block. -/
theorem extract_of_not_brace (options : Options) {text rest : List Char} {start : Nat}
    (hdrop : Text.dropBytes? start text = some rest)
    (hhead : (rest.dropWhile Text.isAsciiSpace).head? ≠ some '{') :
    extract options text start = .error (.missingOpenBrace start) := by
  rw [extract, hdrop]
  dsimp only
  split
  · rename_i hbrace
    rw [hbrace] at hhead
    exact absurd rfl hhead
  · rfl

/-- A search that ends does so at a character of the text that gives no further state. -/
theorem exists_of_seek {σ : Type} {skipComments : Bool} {next : σ → Char → Option σ}
    {mode : Comment.Mode} {opened pos place : Nat} {state : σ} {s rest : List Char}
    (h : seek skipComments next mode opened state pos s = .ok (place, rest)) :
    ∃ front c, s = front ++ c :: rest ∧ place = pos + byteSize front ∧
      ∃ last, next last c = none := by
  induction s generalizing mode opened state pos with
  | nil => cases h
  | cons c s ih =>
    have hlater : ∀ {mode opened state},
        seek skipComments next mode opened state (pos + c.utf8Size) s = .ok (place, rest) →
          ∃ front d, c :: s = front ++ d :: rest ∧ place = pos + byteSize front ∧
            ∃ last, next last d = none := by
      intro mode opened state hseek
      obtain ⟨front, d, rfl, rfl, hlast⟩ := ih hseek
      exact ⟨c :: front, d, rfl, by rw [byteSize_cons, Nat.add_assoc], hlast⟩
    rw [seek] at h
    split at h
    · split at h
      · rename_i hnone
        obtain ⟨rfl, rfl⟩ := Prod.mk.inj (Except.ok.inj h)
        exact ⟨[], c, rfl, rfl, state, hnone⟩
      · exact hlater h
    · exact hlater h
    · exact hlater h

/-- A block that is found lies in the text. -/
theorem le_of_extractAfterBrace {options : Options} {pos : Nat} {body : List Char} {span : Span}
    (h : extractAfterBrace options pos body = .ok span) :
    max (span.close + 1) span.stop ≤ pos + byteSize body := by
  rw [extractAfterBrace] at h
  split at h
  · cases h
  · cases h
  · rename_i close rest hclose
    obtain ⟨inner, c, rfl, rfl, -⟩ := exists_of_seek hclose
    have hc := c.utf8Size_pos
    rw [byteSize_append, byteSize_cons]
    split at h
    · split at h
      · cases h
      · cases h
      · rename_i semicolon behind hsemicolon
        obtain ⟨trailer, d, rfl, rfl, -⟩ := exists_of_seek hsemicolon
        have hd := d.utf8Size_pos
        obtain rfl := Except.ok.inj h
        rw [byteSize_append, byteSize_cons]
        dsimp only
        omega
    · obtain rfl := Except.ok.inj h
      dsimp only
      omega

/-- Where the ceiling lies behind the text, the block is what follows the brace. -/
theorem extract_of_ceiling {options : Options} {before body : List Char}
    (hceiling : byteSize (before ++ '{' :: body) ≤ options.maxScan) :
    extract options (before ++ '{' :: body) (byteSize before) =
      extractAfterBrace options (byteSize before + 1) body := by
  rw [extract_of_brace options (dropBytes?_byteSize_append before _)]
  cases hfound : extractAfterBrace options (byteSize before + 1) body with
  | ok span =>
    have hle := le_of_extractAfterBrace hfound
    rw [byteSize_append, byteSize_brace_cons] at hceiling
    exact if_pos (by omega)
  | error e => exact congrArg Except.error (if_neg (by omega))

/-- The search runs over code that does not stop it. -/
theorem seek_append_of_isCode {σ : Type} (skipComments : Bool) {next : σ → Char → Option σ}
    {state state' : σ} {s : List Char} (hs : Comment.IsCode s)
    (hstate : s.foldlM next state = some state') (opened pos : Nat) (rest : List Char) :
    seek skipComments next .code opened state pos (s ++ rest) =
      seek skipComments next .code opened state' (pos + byteSize s) rest := by
  induction s generalizing state pos with
  | nil =>
    rw [List.foldlM_nil] at hstate
    obtain rfl := Option.some.inj hstate
    rfl
  | cons c s ih =>
    obtain ⟨hc, hs⟩ := Comment.isCode_cons_iff.1 hs
    rw [List.foldlM_cons] at hstate
    obtain ⟨mid, hmid, hstate⟩ := Option.bind_eq_some_iff.1 hstate
    -- Comments are looked for or not, and either way the character is code.
    have hcode : (if skipComments then Comment.Mode.code.step c (s ++ rest).head?
        else (.code, .code)) = (.code, .code) := by
      rw [hc]
      split <;> rfl
    rw [List.cons_append, seek, hcode]
    dsimp only
    rw [hmid]
    dsimp only
    rw [ih hs hstate, byteSize_cons, Nat.add_assoc]

/-- The search stops at a character that gives no further state. -/
theorem seek_cons_of_eq_none {σ : Type} (skipComments : Bool) {next : σ → Char → Option σ}
    {state : σ} {c : Char} (hc : c ≠ '/') (hstop : next state c = none) (opened pos : Nat)
    (rest : List Char) :
    seek skipComments next .code opened state pos (c :: rest) = .ok (pos, rest) := by
  have hcode : (if skipComments then Comment.Mode.code.step c rest.head? else (.code, .code)) =
      (.code, .code) := by
    rw [Comment.step_of_ne_slash hc]
    split <;> rfl
  rw [seek, hcode]
  dsimp only
  rw [hstop]

/-- The search runs over characters that neither begin a comment nor change its state, and stops at
one that gives no further state. -/
theorem seek_append {σ : Type} (skipComments : Bool) {next : σ → Char → Option σ} {state : σ}
    {s : List Char} {c : Char} (hs : ∀ d ∈ s, d ≠ '/' ∧ next state d = some state) (hc : c ≠ '/')
    (hstop : next state c = none) (opened pos : Nat) (rest : List Char) :
    seek skipComments next .code opened state pos (s ++ c :: rest) =
      .ok (pos + byteSize s, rest) := by
  have hcode : Comment.IsCode s := Comment.isCode_of_not_mem fun hmem => (hs _ hmem).1 rfl
  have hstate : s.foldlM next state = some state := by
    clear hcode
    induction s with
    | nil => rfl
    | cons d s ih =>
      obtain ⟨⟨-, hd⟩, hs⟩ := List.forall_mem_cons.1 hs
      rw [List.foldlM_cons, hd]
      exact ih hs
  rw [seek_append_of_isCode skipComments hcode hstate, seek_cons_of_eq_none skipComments hc hstop]

/-- A character opens a brace, closes one that is open, or is none. -/
theorem nextDepth_eq_some_iff {depth mid : Nat} {c : Char} :
    nextDepth depth c = some mid ↔ c = '{' ∧ mid = depth + 1 ∨ c = '}' ∧ depth = mid + 1 ∨
      c ≠ '{' ∧ c ≠ '}' ∧ mid = depth := by
  by_cases hopen : c = '{'
  · subst hopen
    simp [nextDepth, eq_comm]
  · by_cases hclose : c = '}'
    · subst hclose
      cases depth with
      | zero => simp [nextDepth]
      | succ depth => simp [nextDepth, eq_comm]
    · simp [nextDepth, hopen, hclose, eq_comm]

/-- The search for the end of a body is ended by a brace that closes none that is open. -/
theorem nextDepth_eq_none_iff {depth : Nat} {c : Char} :
    nextDepth depth c = none ↔ c = '}' ∧ depth = 0 := by
  by_cases hopen : c = '{'
  · subst hopen
    simp [nextDepth]
  · by_cases hclose : c = '}'
    · subst hclose
      simp [nextDepth]
    · simp [nextDepth, hopen, hclose]

theorem eq_of_nextDepth_eq_none {depth : Nat} {c : Char} (h : nextDepth depth c = none) :
    c = '}' :=
  (nextDepth_eq_none_iff.1 h).1

theorem eq_zero_of_nextDepth_eq_none {depth : Nat} {c : Char} (h : nextDepth depth c = none) :
    depth = 0 :=
  (nextDepth_eq_none_iff.1 h).2

/-- Only a semicolon ends the search for the end of a list of names. -/
theorem eq_of_untilSemicolon_eq_none {u : Unit} {c : Char} (h : untilSemicolon u c = none) :
    c = ';' := by
  rw [untilSemicolon] at h
  split at h
  · assumption
  · cases h

variable {inner trailer : List Char}

/-- Text without braces and comments. -/
def IsFlat (s : List Char) : Prop :=
  ∀ c ∈ s, c ≠ '/' ∧ c ≠ '{' ∧ c ≠ '}'

theorem seek_of_isFlat (skipComments : Bool) (hinner : IsFlat inner) (pos : Nat)
    (rest : List Char) :
    seek skipComments nextDepth .code 0 0 pos (inner ++ '}' :: rest) =
      .ok (pos + byteSize inner, rest) := by
  refine seek_append skipComments (fun c hc => ?_) (by decide) (by rfl) 0 pos rest
  obtain ⟨hslash, hopen, hclose⟩ := hinner c hc
  exact ⟨hslash, by rw [nextDepth, if_neg hopen, if_neg hclose]⟩

/-- White space before a brace is one byte to a character. -/
theorem byteSize_takeWhile_isAsciiSpace (s : List Char) :
    byteSize (s.takeWhile isAsciiSpace) = (s.takeWhile isAsciiSpace).length := by
  induction s with
  | nil => rfl
  | cons c cs ih =>
    by_cases hc : isAsciiSpace c = true
    · have hsize : c.utf8Size = 1 := by
        simp only [isAsciiSpace, Bool.or_eq_true, beq_iff_eq] at hc
        rcases hc with (((rfl | rfl) | rfl) | hc) | rfl
        · rfl
        · rfl
        · rfl
        · have hff : c = Char.ofNat 12 := by
            rw [← Char.toNat_inj, hc]
            rfl
          rw [hff]
          rfl
        · rfl
      rw [List.takeWhile_cons_of_pos hc, byteSize_cons, List.length_cons, ih, hsize, Nat.add_comm]
    · rw [List.takeWhile_cons_of_neg hc]
      rfl

/-- A span that is kept below a ceiling is found or the ceiling is reached. -/
theorem eq_error_or_exists_ok {fits : Prop} [Decidable fits] {span : Span} {e : Error}
    {good : Span → Prop} (h : good span) :
    (if fits then Except.ok span else .error e) = .error e ∨
      ∃ found, (if fits then Except.ok span else .error e) = .ok found ∧ good found := by
  by_cases hfits : fits
  · rw [if_pos hfits]
    exact .inr ⟨span, rfl, h⟩
  · rw [if_neg hfits]
    exact .inl rfl

/-- The text of a body begins behind the white space that follows its brace. -/
theorem text_body (before inner rest : List Char) :
    Span.text ⟨byteSize before + 1 + ((inner ++ '}' :: rest).takeWhile isAsciiSpace).length,
        byteSize before + 1 + byteSize inner, byteSize before + 1 + byteSize inner⟩
      (before ++ '{' :: (inner ++ '}' :: rest)) = inner.dropWhile isAsciiSpace := by
  have htake : (inner ++ '}' :: rest).takeWhile isAsciiSpace = inner.takeWhile isAsciiSpace :=
    takeWhile_append_cons_of_neg (by decide) inner rest
  have hsize := byteSize_takeWhile_isAsciiSpace inner
  have hsplit :=
    congrArg byteSize (List.takeWhile_append_dropWhile (p := isAsciiSpace) (l := inner))
  rw [byteSize_append] at hsplit
  have hstart : byteSize before + 1 + (inner.takeWhile isAsciiSpace).length =
      byteSize (before ++ '{' :: inner.takeWhile isAsciiSpace) := by
    rw [byteSize_append, byteSize_brace_cons]
    omega
  have htext : before ++ '{' :: (inner ++ '}' :: rest) =
      (before ++ '{' :: inner.takeWhile isAsciiSpace) ++
        (inner.dropWhile isAsciiSpace ++ '}' :: rest) := by
    rw [List.append_assoc, List.cons_append, ← List.append_assoc _ _ ('}' :: rest),
      List.takeWhile_append_dropWhile]
  -- Behind its white space the body goes on up to the closing brace.
  have hlength : byteSize before + 1 + byteSize inner -
      byteSize (before ++ '{' :: inner.takeWhile isAsciiSpace) =
        byteSize (inner.dropWhile isAsciiSpace) := by
    rw [byteSize_append, byteSize_brace_cons]
    omega
  rw [Span.text, htake, hstart, htext, dropBytes?_byteSize_append]
  simp only [Option.bind_some, hlength, takeBytes?_byteSize_append, Option.getD_some]

/-- The body of a struct without braces and comments in it is found unless it reaches the
ceiling. -/
theorem extract_body (maxScan : Nat) (before rest : List Char) (hinner : IsFlat inner) :
    extract (.body maxScan) (before ++ '{' :: (inner ++ '}' :: rest)) (byteSize before) =
        .error (.scanLimit (byteSize before) maxScan) ∨
      ∃ span,
        extract (.body maxScan) (before ++ '{' :: (inner ++ '}' :: rest)) (byteSize before) =
          .ok span ∧
        span.text (before ++ '{' :: (inner ++ '}' :: rest)) = inner.dropWhile isAsciiSpace := by
  rw [extract_of_brace _ (dropBytes?_byteSize_append before _), extractAfterBrace,
    seek_of_isFlat _ hinner]
  simp only [Options.body, Bool.false_eq_true, if_false]
  exact eq_error_or_exists_ok (text_body before inner rest)

/-- The text behind the brace that ends a body. -/
theorem trailer_declaration (before inner trailer rest : List Char) :
    Span.trailer ⟨byteSize before, byteSize before + 1 + byteSize inner,
        byteSize before + 1 + byteSize inner + 1 + byteSize trailer + 1⟩
      (before ++ '{' :: (inner ++ '}' :: (trailer ++ ';' :: rest))) = trailer ++ [';'] := by
  have hbehind : byteSize before + 1 + byteSize inner + 1 =
      byteSize (before ++ '{' :: (inner ++ ['}'])) := by
    have hclose : byteSize ['}'] = 1 := rfl
    rw [byteSize_append, byteSize_brace_cons, byteSize_append, hclose]
    omega
  have htext : before ++ '{' :: (inner ++ '}' :: (trailer ++ ';' :: rest)) =
      (before ++ '{' :: (inner ++ ['}'])) ++ (trailer ++ [';'] ++ rest) := by
    simp
  have hlength : byteSize before + 1 + byteSize inner + 1 + byteSize trailer + 1 -
      byteSize (before ++ '{' :: (inner ++ ['}'])) = byteSize (trailer ++ [';']) := by
    have hsemi : byteSize [';'] = 1 := rfl
    rw [← hbehind, byteSize_append, hsemi]
    omega
  rw [Span.trailer, if_neg (by simp only; omega)]
  simp only [hbehind] at hlength ⊢
  rw [htext, dropBytes?_byteSize_append, Option.bind_some, hlength, takeBytes?_byteSize_append,
    Option.getD_some]

/-- The names behind a body are run over up to their semicolon. -/
theorem seek_trailer (htrailer : ∀ c ∈ trailer, c ≠ '/' ∧ c ≠ ';') (pos : Nat)
    (rest : List Char) :
    seek true untilSemicolon .code 0 () pos (trailer ++ ';' :: rest) =
      .ok (pos + byteSize trailer, rest) := by
  refine seek_append true (fun c hc => ⟨(htrailer c hc).1, ?_⟩) (by decide) (by rfl) 0 pos rest
  rw [untilSemicolon, if_neg (htrailer c hc).2]

/-- The names behind a body without braces and comments in it are found unless they reach the
ceiling. -/
theorem extract_declaration (maxScan : Nat) (before rest : List Char) (hinner : IsFlat inner)
    (htrailer : ∀ c ∈ trailer, c ≠ '/' ∧ c ≠ ';') :
    extract (.declaration maxScan) (before ++ '{' :: (inner ++ '}' :: (trailer ++ ';' :: rest)))
        (byteSize before) = .error (.scanLimit (byteSize before) maxScan) ∨
      ∃ span,
        extract (.declaration maxScan)
          (before ++ '{' :: (inner ++ '}' :: (trailer ++ ';' :: rest))) (byteSize before) =
          .ok span ∧
        span.trailer (before ++ '{' :: (inner ++ '}' :: (trailer ++ ';' :: rest))) =
          trailer ++ [';'] := by
  rw [extract_of_brace _ (dropBytes?_byteSize_append before _), extractAfterBrace,
    seek_of_isFlat _ hinner]
  simp only [Options.declaration, if_true, seek_trailer htrailer]
  exact eq_error_or_exists_ok (trailer_declaration before inner trailer rest)

/-! ### Braces in pairs -/

/-- Every brace that is opened in a text is closed in it, and no other is. -/
def IsBalanced (s : List Char) : Prop :=
  ∀ depth, s.foldlM nextDepth depth = some depth

theorem isBalanced_nil : IsBalanced [] :=
  fun _ => rfl

theorem IsBalanced.append {s t : List Char} (hs : IsBalanced s) (ht : IsBalanced t) :
    IsBalanced (s ++ t) := by
  intro depth
  rw [List.foldlM_append, hs]
  exact ht depth

/-- A text without braces. -/
theorem isBalanced_of_not_mem {s : List Char} (hopen : '{' ∉ s) (hclose : '}' ∉ s) :
    IsBalanced s := by
  induction s with
  | nil => exact isBalanced_nil
  | cons c s ih =>
    rw [List.mem_cons, not_or] at hopen hclose
    intro depth
    rw [List.foldlM_cons, nextDepth, if_neg (Ne.symm hopen.1), if_neg (Ne.symm hclose.1)]
    exact ih hopen.2 hclose.2 depth

/-- A text in braces. -/
theorem IsBalanced.braced {s : List Char} (h : IsBalanced s) :
    IsBalanced ('{' :: (s ++ ['}'])) := by
  intro depth
  rw [List.foldlM_cons]
  show (s ++ ['}']).foldlM nextDepth (depth + 1) = _
  rw [List.foldlM_append, h]
  rfl

/-- Code in which the braces come in pairs is run over up to the brace that ends it. -/
theorem IsBalanced.seek_append (skipComments : Bool) (h : IsBalanced inner)
    (hcode : Comment.IsCode inner) (pos : Nat) (rest : List Char) :
    seek skipComments nextDepth .code 0 0 pos (inner ++ '}' :: rest) =
      .ok (pos + byteSize inner, rest) := by
  rw [seek_append_of_isCode skipComments hcode (h 0)]
  exact seek_cons_of_eq_none skipComments (by decide) rfl 0 _ rest

/-- The names behind a body of code are found if they lie before the ceiling. -/
theorem extract_declaration_of_le {maxScan : Nat} (before rest : List Char)
    (hinner : IsBalanced inner) (hcode : Comment.IsCode inner)
    (htrailer : ∀ c ∈ trailer, c ≠ '/' ∧ c ≠ ';')
    (hfits : 1 + byteSize inner + 1 + byteSize trailer + 1 ≤ maxScan) :
    ∃ span,
      extract (.declaration maxScan)
        (before ++ '{' :: (inner ++ '}' :: (trailer ++ ';' :: rest))) (byteSize before) =
        .ok span ∧
      span.trailer (before ++ '{' :: (inner ++ '}' :: (trailer ++ ';' :: rest))) =
        trailer ++ [';'] := by
  rw [extract_of_brace _ (dropBytes?_byteSize_append before _), extractAfterBrace,
    hinner.seek_append _ hcode]
  simp only [Options.declaration, if_true, seek_trailer htrailer]
  exact ⟨_, if_pos (by omega), trailer_declaration before inner trailer rest⟩

end StructUnfold.Block
