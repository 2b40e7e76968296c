import StructUnfold.Proofs.Source.Block
import StructUnfold.Proofs.Text.Encode

/-!
# Extracting blocks byte by byte

A block is found by a cursor that goes over the bytes of a text and stops at a ceiling. It examines
a byte, or that byte and the next one where a comment may begin or end, and neither may lie behind
the ceiling; wherever the ceiling cuts its way off, it tells so. Only the brace that opens the block
is looked for without regard to the ceiling.

Bytes of characters outside ASCII mean nothing to the cursor. So without a ceiling, going over the
bytes comes to the same as going over the characters, as `Block.seek` does.

* `Block.Cursor.find`: the search of the cursor, with comments passed over as a whole.
* `Block.Cursor.extract`: the block that the cursor finds.
* `Block.Cursor.Reads`: a search of bytes does what a search of characters does.
* `Block.Cursor.find_encode`: both find the same.
-/

namespace StructUnfold.Block.Cursor

open Text

/-! ### The search of the cursor -/

/-- What becomes of the cursor where it looks for a comment. -/
inductive Passing where
  /-- No comment begins there. -/
  | none
  /-- It is behind the comment, with these bytes before it. -/
  | past (pos : Nat) (window : List UInt8)
  /-- The comment is not closed in the window. -/
  | unclosed

/-- Pass over the rest of a block comment, up to its closing mark. -/
def passBlock (pos : Nat) : List UInt8 → Option (Nat × List UInt8)
  | a :: b :: rest =>
    if a = byte '*' ∧ b = byte '/' then some (pos + 2, rest) else passBlock (pos + 1) (b :: rest)
  | _ => none

/-- Pass over a comment, if one begins at the cursor. The bytes of its opening mark must both lie in
the window. -/
def passComment (pos : Nat) : List UInt8 → Passing
  | a :: b :: rest =>
    if a = byte '/' then
      if b = byte '/' then
        .past (pos + 2 + (rest.takeWhile (· != byte '\n')).length)
          (rest.dropWhile (· != byte '\n'))
      else if b = byte '*' then
        match passBlock (pos + 2) rest with
        | some (pos, rest) => .past pos rest
        | none => .unclosed
      else .none
    else .none
  | _ => .none

/-- Pass over a comment, if comments are looked for. -/
def pass (skipComments : Bool) (pos : Nat) (window : List UInt8) : Passing :=
  if skipComments then passComment pos window else .none

theorem add_length_of_passBlock {pos place : Nat} {window rest : List UInt8}
    (h : passBlock pos window = some (place, rest)) :
    place + rest.length = pos + window.length ∧ pos + 2 ≤ place := by
  fun_induction passBlock pos window with
  | case1 pos a b window hmark =>
    obtain ⟨rfl, rfl⟩ := Prod.mk.inj (Option.some.inj h)
    simp only [List.length_cons]
    omega
  | case2 pos a b window hmark ih =>
    obtain ⟨hlength, hle⟩ := ih h
    simp only [List.length_cons] at hlength ⊢
    omega
  | case3 => cases h

/-- A comment that is passed over is at least as long as its opening mark. -/
theorem add_length_of_pass {skipComments : Bool} {pos place : Nat} {window rest : List UInt8}
    (h : pass skipComments pos window = .past place rest) :
    place + rest.length = pos + window.length ∧ pos + 2 ≤ place := by
  rw [pass] at h
  split at h
  · rw [passComment.eq_def] at h
    split at h
    · rename_i a b bytes
      have hparts := congrArg List.length
        (List.takeWhile_append_dropWhile (p := (· != byte '\n')) (l := bytes))
      rw [List.length_append] at hparts
      rw [List.length_cons, List.length_cons]
      split at h
      · split at h
        · obtain ⟨rfl, rfl⟩ := Passing.past.inj h
          omega
        · split at h
          · split at h
            · rename_i hblock
              obtain ⟨rfl, rfl⟩ := Passing.past.inj h
              have hlength := add_length_of_passBlock hblock
              omega
            · cases h
          · cases h
      · cases h
    · cases h
  · cases h

theorem length_lt_of_pass {skipComments : Bool} {pos place : Nat} {window rest : List UInt8}
    (h : pass skipComments pos window = .past place rest) : rest.length < window.length := by
  have hlength := add_length_of_pass h
  omega

/-- The offset at which `next`, run over the bytes of a window outside comments, gives no state.
Failing that, the offset of the block comment in which the window ends, if it does. -/
def find {σ : Type} (skipComments : Bool) (next : σ → UInt8 → Option σ) (state : σ) (pos : Nat)
    (window : List UInt8) : Except (Option Nat) Nat :=
  match window with
  | [] => .error none
  | b :: rest =>
    match _hpass : pass skipComments pos (b :: rest) with
    | .past place behind => find skipComments next state place behind
    | .unclosed => .error (some pos)
    | .none =>
      match next state b with
      | none => .ok pos
      | some state => find skipComments next state (pos + 1) rest
termination_by window.length
decreasing_by
  · exact length_lt_of_pass _hpass
  · exact Nat.lt_succ_self _

/-- The number of open braces behind a byte; none when it closes the outermost. -/
def depthAfter (depth : Nat) (b : UInt8) : Option Nat :=
  if b = byte '{' then some (depth + 1)
  else if b = byte '}' then (if depth = 0 then none else some (depth - 1))
  else some depth

/-- Stop at a semicolon. -/
def untilTerminator (_ : Unit) (b : UInt8) : Option Unit :=
  if b = byte ';' then none else some ()

/-- Whether a byte is that of white space before a brace. -/
def isSpaceByte (b : UInt8) : Bool :=
  b == byte ' ' || b == byte '\t' || b == byte '\n' || b.toNat == 12 || b == byte '\r'

/-- The error of a search that has come to the end of the window: if bytes are left behind it, the
ceiling was reached. -/
def exhausted (options : Options) (start : Nat) (bytes : List UInt8) (e : Error) : Error :=
  if options.maxScan < bytes.length then .scanLimit start options.maxScan else e

/-- The block of the brace that stands behind a gap. -/
def extractBehind (options : Options) (start gap : Nat) (bytes : List UInt8) :
    Except Error Span :=
  let window := bytes.take options.maxScan
  let brace := start + gap
  let body := window.drop (gap + 1)
  let blank := if options.keepBraces then 0 else (body.takeWhile isSpaceByte).length
  match find options.skipComments depthAfter 0 (brace + 1 + blank) (body.drop blank) with
  | .error opened =>
    .error (exhausted options start bytes
      (opened.elim (.unbalanced brace) .unterminatedComment))
  | .ok close =>
    if options.keepBraces then
      match find options.skipComments untilTerminator () (close + 1)
          (window.drop (close + 1 - start)) with
      | .error opened =>
        .error (exhausted options start bytes
          (opened.elim (.missingTerminator close) .unterminatedComment))
      | .ok semicolon => .ok ⟨brace, close, semicolon + 1⟩
    else .ok ⟨brace + 1 + blank, close, close⟩

/-- The block that the cursor finds. The byte behind the white space is looked at, be it in the
window or not. -/
def extract (options : Options) (text : List Char) (start : Nat) : Except Error Span :=
  match dropBytes? start text with
  | none => .error (.invalidStart start)
  | some rest =>
    let bytes := encode rest
    let gap := ((bytes.take options.maxScan).takeWhile isSpaceByte).length
    if bytes[gap]? = some (byte '{') then extractBehind options start gap bytes
    else .error (.missingOpenBrace start)

/-! ### Steps of the search -/

section

variable {σ : Type} {skipComments : Bool} {next : σ → UInt8 → Option σ} {state : σ}
  {pos place : Nat} {b : UInt8} {rest window behind : List UInt8}

theorem find_nil : find skipComments next state pos [] = .error none := by
  rw [find]

theorem find_of_past (h : pass skipComments pos (b :: rest) = .past place behind) :
    find skipComments next state pos (b :: rest) = find skipComments next state place behind := by
  rw [find]
  split
  · rename_i heq
    obtain ⟨rfl, rfl⟩ := Passing.past.inj (h.symm.trans heq)
    rfl
  · rename_i heq
    cases h.symm.trans heq
  · rename_i heq
    cases h.symm.trans heq

theorem find_of_unclosed (h : pass skipComments pos (b :: rest) = .unclosed) :
    find skipComments next state pos (b :: rest) = .error (some pos) := by
  rw [find]
  split
  · rename_i heq
    cases h.symm.trans heq
  · rfl
  · rename_i heq
    cases h.symm.trans heq

theorem find_of_none (h : pass skipComments pos (b :: rest) = .none) :
    find skipComments next state pos (b :: rest) =
      match next state b with
      | none => .ok pos
      | some state => find skipComments next state (pos + 1) rest := by
  rw [find]
  split
  · rename_i heq
    cases h.symm.trans heq
  · rename_i heq
    cases h.symm.trans heq
  · rfl

/-- A byte begins no comment unless it is a slash that a slash or a star follows. -/
theorem pass_eq_none (h : b = byte '/' → rest.head? ≠ some (byte '/') ∧
    rest.head? ≠ some (byte '*')) : pass skipComments pos (b :: rest) = .none := by
  rw [pass]
  split
  · cases rest with
    | nil => rfl
    | cons d rest =>
      rw [passComment]
      split
      · rename_i hslash
        obtain ⟨hline, hblock⟩ := h hslash
        rw [if_neg fun heq => hline (by rw [heq, List.head?_cons]),
          if_neg fun heq => hblock (by rw [heq, List.head?_cons])]
      · rfl
  · rfl

/-- The cursor goes over bytes that begin no comment and do not change its state. -/
theorem find_append {bytes : List UInt8}
    (h : ∀ b ∈ bytes, b ≠ byte '/' ∧ next state b = some state) :
    find skipComments next state pos (bytes ++ rest) =
      find skipComments next state (pos + bytes.length) rest := by
  induction bytes generalizing pos with
  | nil => rfl
  | cons b bytes ih =>
    obtain ⟨⟨hb, hnext⟩, hbytes⟩ := List.forall_mem_cons.1 h
    rw [List.cons_append, find_of_none (pass_eq_none fun heq => absurd heq hb), hnext]
    dsimp only
    rw [ih hbytes, List.length_cons, Nat.add_assoc, Nat.add_comm 1]

end

/-! ### Bytes and characters -/

/-- A search of bytes does what a search of characters does: the bytes of characters outside ASCII
mean nothing to it, and it stops at no slash. -/
structure Reads {σ : Type} (next : σ → Char → Option σ) (nextByte : σ → UInt8 → Option σ) :
    Prop where
  /-- An ASCII character is its byte. -/
  ascii : ∀ state c, c.utf8Size = 1 → nextByte state (byte c) = next state c
  /-- Other characters change nothing. -/
  wide : ∀ state c, c.utf8Size ≠ 1 → next state c = some state
  /-- Nor do their bytes. -/
  high : ∀ state b, 128 ≤ b.toNat → nextByte state b = some state
  /-- Nor does a slash, nor white space. -/
  passive : ∀ state c, c = '/' ∨ isAsciiSpace c = true → next state c = some state

theorem reads_nextDepth : Reads nextDepth depthAfter where
  ascii := by
    intro depth c hc
    simp only [depthAfter, nextDepth, byte_eq_iff hc (show ('{' : Char).utf8Size = 1 from rfl),
      byte_eq_iff hc (show ('}' : Char).utf8Size = 1 from rfl)]
  wide := by
    intro depth c hc
    rw [nextDepth, if_neg (ne_of_wide hc rfl), if_neg (ne_of_wide hc rfl)]
  high := by
    intro depth b hb
    rw [depthAfter, if_neg (ne_of_high hb rfl), if_neg (ne_of_high hb rfl)]
  passive := by
    intro depth c hc
    rw [nextDepth, if_neg, if_neg]
    · rintro rfl
      exact absurd hc (by decide)
    · rintro rfl
      exact absurd hc (by decide)

theorem reads_untilSemicolon : Reads untilSemicolon untilTerminator where
  ascii := by
    intro u c hc
    simp only [untilTerminator, untilSemicolon,
      byte_eq_iff hc (show (';' : Char).utf8Size = 1 from rfl)]
  wide := by
    intro u c hc
    rw [untilSemicolon, if_neg (ne_of_wide hc rfl)]
  high := by
    intro u b hb
    rw [untilTerminator, if_neg (ne_of_high hb rfl)]
  passive := by
    intro u c hc
    rw [untilSemicolon, if_neg]
    rintro rfl
    exact absurd hc (by decide)

section

variable {σ : Type} {next : σ → Char → Option σ} {nextByte : σ → UInt8 → Option σ} {state : σ}
  {pos opened : Nat} {c : Char} {cs : List Char}

/-- In a line comment the search goes on at the end of the line. -/
theorem seek_line (cs : List Char) : seek true next .line opened state pos cs =
    seek true next .code opened state (pos + byteSize (cs.takeWhile (· != '\n')))
      (cs.dropWhile (· != '\n')) := by
  induction cs generalizing pos with
  | nil => rfl
  | cons c cs ih =>
    by_cases hc : c = '\n'
    · subst hc
      rfl
    · have hchar : (c != '\n') = true := by simpa using hc
      rw [seek, List.takeWhile_cons, if_pos hchar, List.dropWhile_cons, if_pos hchar, byteSize_cons,
        ← Nat.add_assoc, ← ih]
      simp [Comment.Mode.step, hc]

/-- A byte that does not begin the mark behind a block comment is passed over. -/
theorem passBlock_cons {a : UInt8} {rest : List UInt8}
    (h : a = byte '*' → rest.head? ≠ some (byte '/')) :
    passBlock pos (a :: rest) = passBlock (pos + 1) rest := by
  cases rest with
  | nil => rfl
  | cons b rest =>
    rw [passBlock, if_neg]
    rintro ⟨ha, rfl⟩
    exact h ha rfl

theorem passBlock_append_of_high {bytes rest : List UInt8} (h : ∀ b ∈ bytes, 128 ≤ b.toNat) :
    passBlock pos (bytes ++ rest) = passBlock (pos + bytes.length) rest := by
  induction bytes generalizing pos with
  | nil => rfl
  | cons b bytes ih =>
    obtain ⟨hb, hbytes⟩ := List.forall_mem_cons.1 h
    rw [List.cons_append, passBlock_cons fun heq => absurd heq (ne_of_high hb rfl), ih hbytes,
      List.length_cons, Nat.add_assoc, Nat.add_comm 1]

/-- In a block comment the search goes on behind the mark that closes it, or breaks off. -/
theorem seek_block (cs : List Char) :
    (passBlock pos (encode cs) = none ∧
      seek true next .block opened state pos cs = .error (some opened)) ∨
    ∃ place behind, passBlock pos (encode cs) = some (place, encode behind) ∧
      behind.length ≤ cs.length ∧
      seek true next .block opened state pos cs =
        seek true next .code opened state place behind := by
  induction cs generalizing pos with
  | nil => exact .inl ⟨rfl, rfl⟩
  | cons c cs ih =>
    -- The mark that closes the comment begins here, or the search goes on behind the character.
    by_cases hmark : c = '*' ∧ cs.head? = some '/'
    · obtain ⟨rfl, hslash⟩ := hmark
      cases cs with
      | nil => cases hslash
      | cons d cs =>
        obtain rfl := Option.some.inj hslash
        refine .inr ⟨pos + 2, cs, ?_, by simp only [List.length_cons]; omega, rfl⟩
        rw [encode_cons_of_ascii rfl, encode_cons_of_ascii rfl, passBlock, if_pos ⟨rfl, rfl⟩]
    · have hseek : seek true next .block opened state pos (c :: cs) =
          seek true next .block opened state (pos + c.utf8Size) cs := by
        rw [seek]
        simp only [Comment.Mode.step, Bool.and_eq_true, decide_eq_true_eq, beq_iff_eq, if_true,
          if_neg hmark]
      have hpass : passBlock pos (encode (c :: cs)) = passBlock (pos + c.utf8Size) (encode cs) := by
        by_cases hc : c.utf8Size = 1
        · rw [encode_cons_of_ascii hc, hc, passBlock_cons]
          intro heq hhead
          exact hmark ⟨(byte_eq_iff hc rfl).1 heq, (head?_encode rfl).1 hhead⟩
        · -- No byte of a wide character is one of the mark.
          rw [encode_cons, passBlock_append_of_high fun b hb => le_of_mem_utf8EncodeChar hc hb,
            String.length_utf8EncodeChar]
      rw [hseek, hpass]
      rcases @ih (pos + c.utf8Size) with hnone | ⟨place, behind, hsome, hle, heq⟩
      · exact .inl hnone
      · exact .inr ⟨place, behind, hsome, Nat.le_succ_of_le hle, heq⟩

/-- A character of code. -/
theorem find_code (hreads : Reads next nextByte) {skipComments : Bool}
    (hcode : c = '/' → skipComments = true → cs.head? ≠ some '/' ∧ cs.head? ≠ some '*') :
    find skipComments nextByte state pos (encode (c :: cs)) =
      match next state c with
      | none => .ok pos
      | some state => find skipComments nextByte state (pos + c.utf8Size) (encode cs) := by
  by_cases hc : c.utf8Size = 1
  · have hpass : pass skipComments pos (byte c :: encode cs) = .none := by
      cases hskip : skipComments with
      | false => rfl
      | true =>
        refine pass_eq_none fun heq => ?_
        obtain ⟨hline, hblock⟩ := hcode ((byte_eq_iff hc rfl).1 heq) hskip
        exact ⟨fun h => hline ((head?_encode rfl).1 h), fun h => hblock ((head?_encode rfl).1 h)⟩
    rw [encode_cons_of_ascii hc, find_of_none hpass, hreads.ascii state c hc, hc]
  · rw [hreads.wide state c hc, encode_cons, find_append, String.length_utf8EncodeChar]
    intro b hb
    have hhigh := le_of_mem_utf8EncodeChar hc hb
    exact ⟨ne_of_high hhigh rfl, hreads.high state b hhigh⟩

/-- Going over the bytes of a text is going over its characters. -/
theorem find_encode (hreads : Reads next nextByte) (skipComments : Bool) (state : σ)
    (pos opened : Nat) (cs : List Char) :
    find skipComments nextByte state pos (encode cs) =
      (seek skipComments next .code opened state pos cs).map Prod.fst := by
  -- A comment is passed over as a whole, so the text behind it counts.
  induction hn : cs.length using Nat.strongRecOn generalizing cs state pos opened with
  | ind n ih =>
    cases cs with
    | nil => exact find_nil
    | cons c cs =>
      rw [List.length_cons] at hn
      by_cases hline : skipComments = true ∧ c = '/' ∧ cs.head? = some '/'
      · obtain ⟨rfl, rfl, hslash⟩ := hline
        obtain ⟨cs, rfl⟩ := List.head?_eq_some_iff.1 hslash
        have hpass : pass true pos (byte '/' :: encode ('/' :: cs)) =
            .past (pos + 2 + byteSize (cs.takeWhile (· != '\n')))
              (encode (cs.dropWhile (· != '\n'))) := by
          rw [← length_encode, ← (takeWhile_encode rfl cs).1, ← (takeWhile_encode rfl cs).2]
          rfl
        have hseek : seek true next .code opened state pos ('/' :: '/' :: cs) =
            seek true next .line pos state (pos + 2) cs := rfl
        have hshort := (List.dropWhile_sublist (p := (· != '\n')) (l := cs)).length_le
        rw [List.length_cons] at hn
        rw [hseek, seek_line, encode_cons_of_ascii rfl, find_of_past hpass]
        exact ih _ (by omega) state _ pos _ rfl
      by_cases hblock : skipComments = true ∧ c = '/' ∧ cs.head? = some '*'
      · obtain ⟨rfl, rfl, hstar⟩ := hblock
        obtain ⟨cs, rfl⟩ := List.head?_eq_some_iff.1 hstar
        have hpass : pass true pos (byte '/' :: encode ('*' :: cs)) =
            match passBlock (pos + 2) (encode cs) with
            | some (pos, rest) => .past pos rest
            | none => .unclosed := rfl
        have hseek : seek true next .code opened state pos ('/' :: '*' :: cs) =
            seek true next .block pos state (pos + 2) cs := rfl
        rw [List.length_cons] at hn
        rw [hseek, encode_cons_of_ascii rfl]
        rcases @seek_block _ next state (pos + 2) pos cs with
          ⟨hnone, heq⟩ | ⟨place, behind, hsome, hle, heq⟩
        · rw [hnone] at hpass
          rw [heq, find_of_unclosed hpass]
          rfl
        · rw [hsome] at hpass
          rw [heq, find_of_past hpass]
          exact ih _ (by omega) state _ pos _ rfl
      · have hcode : c = '/' → skipComments = true →
            cs.head? ≠ some '/' ∧ cs.head? ≠ some '*' := fun hc hskip =>
          ⟨fun h => hline ⟨hskip, hc, h⟩, fun h => hblock ⟨hskip, hc, h⟩⟩
        have hstep : (if skipComments then Comment.Mode.code.step c cs.head? else (.code, .code)) =
            (.code, .code) := by
          split
          · rename_i hskip
            simp only [Comment.Mode.step, Bool.and_eq_true, decide_eq_true_eq, beq_iff_eq]
            rw [if_neg fun h => (hcode h.1 hskip).1 h.2, if_neg fun h => (hcode h.1 hskip).2 h.2]
          · rfl
        rw [find_code hreads hcode, seek, hstep]
        dsimp only
        cases hnext : next state c with
        | none => rfl
        | some state' => exact ih cs.length (by omega) state' _ opened cs rfl

end

end StructUnfold.Block.Cursor
