import StructUnfold.Source.Comment
import StructUnfold.Text.Space

/-!
# Blocks in braces

`Block.extract` finds the block whose opening brace stands at an offset, white space aside. Only
braces and comments count. No byte from the ceiling on is examined: an answer that would need one is
`scanLimit`.
-/

namespace StructUnfold.Block

/-- What to extract, and how far to look. -/
structure Options where
  /-- Keep the braces and go on to the `;` behind the closing one. -/
  keepBraces : Bool
  /-- Pass over comments. -/
  skipComments : Bool
  /-- Number of bytes that may be examined from the start on. -/
  maxScan : Nat
deriving DecidableEq, Repr

/-- Ceiling that holds where none is set: one mebibyte. -/
def defaultMaxScan : Nat := 1048576

/-- The list of fields between the braces. -/
def Options.body (maxScan : Nat) : Options :=
  ⟨false, true, maxScan⟩

/-- The block with its braces and the names up to the `;`. -/
def Options.declaration (maxScan : Nat) : Options :=
  ⟨true, true, maxScan⟩

/-- Why no block was found. -/
inductive Error where
  /-- No opening brace stands at the offset. -/
  | missingOpenBrace (start : Nat)
  /-- The offset lies past the end of the text or inside a character. -/
  | invalidStart (start : Nat)
  /-- The brace at the offset is never closed. -/
  | unbalanced (start : Nat)
  /-- The block comment at the offset is never closed. -/
  | unterminatedComment (start : Nat)
  /-- No `;` follows the closing brace at the offset. -/
  | missingTerminator (close : Nat)
  /-- The ceiling was reached first. -/
  | scanLimit (start limit : Nat)
  /-- The brace at the offset does not open the struct it is meant to open. -/
  | staleHeader (offset : Nat) (expected : String)
deriving DecidableEq, Repr

/-- The wording of an error. -/
def Error.message : Error → String
  | missingOpenBrace start => "no opening brace at offset " ++ toString start
  | invalidStart start =>
    "offset " ++ toString start ++ " is past the end of the text or not on a character boundary"
  | unbalanced start => "block opened at offset " ++ toString start ++ " is never closed"
  | unterminatedComment start =>
    "block comment opened at offset " ++ toString start ++ " is never closed"
  | missingTerminator close =>
    "alias list after offset " ++ toString close ++ " has no terminating `;`"
  | scanLimit start limit =>
    "scan from offset " ++ toString start ++ " exceeded the " ++ toString limit ++ "-byte ceiling"
  | staleHeader offset expected =>
    "brace at offset " ++ toString offset ++ " no longer opens `struct " ++ expected ++ "`"

/-- Byte offsets of a block. -/
structure Span where
  /-- Where the block's text starts. -/
  start : Nat
  /-- Where the closing brace stands. -/
  close : Nat
  /-- Where the block's text ends: at the closing brace, or behind the `;` if braces are kept. -/
  stop : Nat
deriving DecidableEq, Repr

/-- The text of a block. -/
def Span.text (s : Span) (source : List Char) : List Char :=
  ((Text.dropBytes? s.start source).bind (Text.takeBytes? (s.stop - s.start))).getD []

/-- The text behind the closing brace. -/
def Span.trailer (s : Span) (source : List Char) : List Char :=
  if s.stop ≤ s.close then []
  else
    ((Text.dropBytes? (s.close + 1) source).bind
      (Text.takeBytes? (s.stop - (s.close + 1)))).getD []

/-- A place in the code of a text, found by running `next` over its code characters until it gives
no state: the offset of the last character and the text behind it. Failing that, the offset of the
block comment in which the text ends, if it does. -/
def seek {σ : Type} (skipComments : Bool) (next : σ → Char → Option σ) (mode : Comment.Mode)
    (opened : Nat) (state : σ) (pos : Nat) : List Char → Except (Option Nat) (Nat × List Char)
  | [] => .error (if mode = .block then some opened else none)
  | c :: cs =>
    match if skipComments then mode.step c cs.head? else (.code, .code) with
    | (.code, mode) =>
      match next state c with
      | none => .ok (pos, cs)
      | some state => seek skipComments next mode opened state (pos + c.utf8Size) cs
    | (.opening, mode) => seek skipComments next mode pos state (pos + c.utf8Size) cs
    | (.inside, mode) => seek skipComments next mode opened state (pos + c.utf8Size) cs

/-- The number of open braces behind a character; none when it closes the outermost. -/
def nextDepth (depth : Nat) (c : Char) : Option Nat :=
  if c = '{' then some (depth + 1)
  else if c = '}' then (if depth = 0 then none else some (depth - 1))
  else some depth

/-- Stop at a semicolon. -/
def untilSemicolon (_ : Unit) (c : Char) : Option Unit :=
  if c = ';' then none else some ()

/-- The block of a text whose opening brace has just been passed; `pos` is the offset behind it. -/
def extractAfterBrace (options : Options) (pos : Nat) (body : List Char) : Except Error Span :=
  match seek options.skipComments nextDepth .code 0 0 pos body with
  | .error (some opened) => .error (.unterminatedComment opened)
  | .error none => .error (.unbalanced (pos - 1))
  | .ok (close, rest) =>
    if options.keepBraces then
      match seek options.skipComments untilSemicolon .code 0 () (close + 1) rest with
      | .error (some opened) => .error (.unterminatedComment opened)
      | .error none => .error (.missingTerminator close)
      | .ok (semicolon, _) => .ok ⟨pos - 1, close, semicolon + 1⟩
    else .ok ⟨pos + (body.takeWhile Text.isAsciiSpace).length, close, close⟩

/-- The block whose opening brace stands at `start` or behind white space there. -/
def extract (options : Options) (text : List Char) (start : Nat) : Except Error Span :=
  match Text.dropBytes? start text with
  | none => .error (.invalidStart start)
  | some rest =>
    let limit := start + options.maxScan
    let size := Text.byteSize text
    let brace := start + (rest.takeWhile Text.isAsciiSpace).length
    match rest.dropWhile Text.isAsciiSpace with
    | '{' :: body =>
      if limit < brace then .error (.missingOpenBrace start)
      else
        match extractAfterBrace options (brace + 1) body with
        -- An answer stands if the bytes it rests on lie before the ceiling; a failure rests on all.
        | .ok span =>
          if max (span.close + 1) span.stop ≤ limit then .ok span
          else .error (.scanLimit start options.maxScan)
        | .error e => .error (if limit < size then .scanLimit start options.maxScan else e)
    | _ => .error (.missingOpenBrace start)

end StructUnfold.Block
