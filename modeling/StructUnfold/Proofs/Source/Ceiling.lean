import StructUnfold.Proofs.Source.Window

/-!
# Ceilings of the search for a block

The cursor finds what stands in the text, or the ceiling is reached. So an answer that is given
below one ceiling is given below all higher ones, but for one case: the byte behind the white space
at the start is looked at even where the ceiling lies inside the white space, and then no brace is
said to follow though one does. The ceiling is told to have been reached wherever else it cuts the
way off.

## Main definitions

* `Block.IsAnswer`: the ceiling was not reached.
* `Block.CutsGap`: a ceiling lies inside the white space in front of a brace, a higher one does not.

## Main results

* `Block.Cursor.extract_eq`: the cursor finds the block that stands in the text.
* `Block.extract_of_le`: an answer is kept unless the ceiling lies inside the white space.
* `Block.answer_kept_iff`: exactly then it is kept.
-/

namespace StructUnfold.Block

open Text

namespace Cursor

/-! ### White space in bytes -/

theorem isSpaceByte_byte {c : Char} (hc : c.utf8Size = 1) :
    isSpaceByte (byte c) = isAsciiSpace c := by
  have heq : ∀ d : Char, d.utf8Size = 1 → (byte c == byte d) = (c == d) := fun d hd => by
    rw [Bool.eq_iff_iff, beq_iff_eq, beq_iff_eq, byte_eq_iff hc hd]
  rw [isSpaceByte, isAsciiSpace, heq ' ' rfl, heq '\t' rfl, heq '\n' rfl, heq '\r' rfl,
    toNat_byte hc]

/-- White space before a brace is ASCII. -/
theorem utf8Size_of_isAsciiSpace {c : Char} (hc : isAsciiSpace c = true) : c.utf8Size = 1 := by
  have hsize := byteSize_takeWhile_isAsciiSpace [c]
  rwa [List.takeWhile_cons_of_pos hc, List.takeWhile_nil, byteSize_cons, byteSize_nil] at hsize

theorem isSpaceByte_of_high {b : UInt8} (hb : 128 ≤ b.toNat) : isSpaceByte b = false := by
  have hne : ∀ d : Char, d.utf8Size = 1 → (b == byte d) = false := fun d hd =>
    beq_false_of_ne (ne_of_high hb hd)
  have htwelve : (b.toNat == 12) = false := by
    rw [beq_eq_false_iff_ne]
    omega
  rw [isSpaceByte, hne ' ' rfl, hne '\t' rfl, hne '\n' rfl, hne '\r' rfl, htwelve]
  rfl

/-- White space at the start of a text is white space at the start of its bytes. -/
theorem takeWhile_encode_space (s : List Char) :
    ((encode s).takeWhile isSpaceByte).length = (s.takeWhile isAsciiSpace).length ∧
      (encode s).dropWhile isSpaceByte = encode (s.dropWhile isAsciiSpace) := by
  induction s with
  | nil => exact ⟨rfl, rfl⟩
  | cons c s ih =>
    by_cases hspace : isAsciiSpace c = true
    · have hc := utf8Size_of_isAsciiSpace hspace
      have hbyte := (isSpaceByte_byte hc).trans hspace
      rw [encode_cons_of_ascii hc, List.takeWhile_cons_of_pos hbyte,
        List.dropWhile_cons_of_pos hbyte, List.takeWhile_cons_of_pos hspace,
        List.dropWhile_cons_of_pos hspace, List.length_cons, List.length_cons, ih.1, ih.2]
      exact ⟨rfl, rfl⟩
    · -- White space is ASCII, and a byte of another character is no byte of it.
      obtain ⟨b, bs, hbytes, hb⟩ : ∃ b bs, encode (c :: s) = b :: bs ∧ ¬isSpaceByte b = true := by
        by_cases hc : c.utf8Size = 1
        · exact ⟨_, _, encode_cons_of_ascii hc s, by rwa [isSpaceByte_byte hc]⟩
        · obtain ⟨b, bs, hbytes, hhigh⟩ := exists_encode_cons hc s
          refine ⟨b, bs, hbytes, ?_⟩
          rw [isSpaceByte_of_high hhigh]
          exact Bool.false_ne_true
      rw [List.takeWhile_cons_of_neg hspace, List.dropWhile_cons_of_neg hspace, hbytes,
        List.takeWhile_cons_of_neg hb, List.dropWhile_cons_of_neg hb]
      exact ⟨rfl, rfl⟩

/-- The byte behind the white space that lies in the window is a brace exactly if the white space
lies in it as a whole and a brace follows. -/
theorem getElem?_gap_iff (rest : List Char) (n : Nat) :
    (encode rest)[(((encode rest).take n).takeWhile isSpaceByte).length]? = some (byte '{') ↔
      (rest.takeWhile isAsciiSpace).length ≤ n ∧
        (rest.dropWhile isAsciiSpace).head? = some '{' := by
  obtain ⟨hspace, hbehind⟩ := takeWhile_encode_space rest
  have hall : ∀ b ∈ (encode rest).takeWhile isSpaceByte, isSpaceByte b = true := fun b hb =>
    List.all_eq_true.1 List.all_takeWhile b hb
  have hparts := List.takeWhile_append_dropWhile (p := isSpaceByte) (l := encode rest)
  rw [← List.take_takeWhile, List.length_take, ← hspace, ← head?_encode rfl, ← hbehind]
  generalize (encode rest).takeWhile isSpaceByte = spaces at hall hparts ⊢
  generalize (encode rest).dropWhile isSpaceByte = others at hparts ⊢
  rw [← hparts]
  by_cases hle : spaces.length ≤ n
  · rw [Nat.min_eq_right hle, List.getElem?_append_right (Nat.le_refl _), Nat.sub_self,
      List.head?_eq_getElem?]
    exact (and_iff_right hle).symm
  · -- The byte behind the window is white space.
    rw [Nat.min_eq_left (by omega), List.getElem?_append_left (by omega)]
    refine iff_of_false (fun h => ?_) fun h => hle h.1
    exact absurd (hall _ (List.mem_of_getElem? h)) (by decide)

/-- The white space in front of the first field is no part of the search. -/
theorem find_blank {window : List UInt8} {n : Nat} (hn : n ≤ (window.takeWhile isSpaceByte).length)
    (skipComments : Bool) (pos : Nat) :
    find skipComments depthAfter 0 (pos + n) (window.drop n) =
      find skipComments depthAfter 0 pos window := by
  have hspaces : ∀ b ∈ window.take n, isSpaceByte b = true := by
    intro b hb
    rw [← List.takeWhile_append_dropWhile (p := isSpaceByte) (l := window),
      List.take_append_of_le_length hn] at hb
    exact List.all_eq_true.1 List.all_takeWhile b (List.mem_of_mem_take hb)
  -- White space opens no comment and no brace.
  have hpassive : ∀ b ∈ window.take n, b ≠ byte '/' ∧ depthAfter 0 b = some 0 := by
    intro b hb
    have hspace := hspaces b hb
    refine ⟨?_, ?_⟩
    · rintro rfl
      exact absurd hspace (by decide)
    · rw [depthAfter, if_neg, if_neg]
      · rintro rfl
        exact absurd hspace (by decide)
      · rintro rfl
        exact absurd hspace (by decide)
  have hlength : (window.take n).length = n :=
    List.length_take_of_le (Nat.le_trans hn (List.takeWhile_sublist _).length_le)
  have hfind : find skipComments depthAfter 0 pos (window.take n ++ window.drop n) = _ :=
    find_append hpassive
  rw [hlength, List.take_append_drop] at hfind
  exact hfind.symm

/-- Where something is found behind white space, the white space lies in the window as a whole. -/
theorem length_blank {skipComments : Bool} {pos place n : Nat} {body : List Char}
    (h : find skipComments depthAfter 0 pos ((encode body).take n) = .ok place) :
    (((encode body).take n).takeWhile isSpaceByte).length =
      (body.takeWhile isAsciiSpace).length := by
  have hlt : (((encode body).take n).takeWhile isSpaceByte).length < n := by
    have hlength := congrArg List.length
      (List.takeWhile_append_dropWhile (p := isSpaceByte) (l := (encode body).take n))
    have hle := List.length_take_le n (encode body)
    rw [← find_blank (Nat.le_refl _)] at h
    have hbound := le_of_find h
    rw [List.length_drop] at hbound
    omega
  rw [← List.take_takeWhile, List.length_take, (takeWhile_encode_space body).1] at hlt ⊢
  exact Nat.min_eq_right (by omega)

/-- An answer that is found stands if it lies before the ceiling. -/
def capped (options : Options) (start : Nat) (bytes : List UInt8) :
    Except Error Span → Except Error Span
  | .ok span =>
    if max (span.close + 1) span.stop ≤ start + options.maxScan then .ok span
    else .error (.scanLimit start options.maxScan)
  | .error e => .error (exhausted options start bytes e)

theorem exhausted_of_lt {options : Options} {start : Nat} {bytes : List UInt8} (e : Error)
    (h : options.maxScan < bytes.length) :
    exhausted options start bytes e = .scanLimit start options.maxScan :=
  if_pos h

/-- The search for the semicolon. -/
theorem capped_terminator (options : Options) {start brace close : Nat} {before rest : List Char}
    (hclose : start + byteSize before = close + 1) (hlt : close < start + options.maxScan) :
    (match find options.skipComments untilTerminator () (close + 1)
        (((encode (before ++ rest)).take options.maxScan).drop (close + 1 - start)) with
      | .error opened =>
        .error (exhausted options start (encode (before ++ rest))
          (opened.elim (.missingTerminator close) .unterminatedComment))
      | .ok semicolon => .ok ⟨brace, close, semicolon + 1⟩) =
    capped options start (encode (before ++ rest))
      (match seek options.skipComments untilSemicolon .code 0 () (close + 1) rest with
        | .error (some opened) => .error (.unterminatedComment opened)
        | .error none => .error (.missingTerminator close)
        | .ok (semicolon, _) => .ok ⟨brace, close, semicolon + 1⟩) := by
  have hwindow := findsIn_drop reads_untilSemicolon options.skipComments () start 0 options.maxScan
    before rest
  have hdrop : close + 1 - start = byteSize before := by omega
  rw [hclose, ← length_encode (before ++ rest)] at hwindow
  rw [hdrop]
  generalize find options.skipComments untilTerminator () _ _ = r at hwindow ⊢
  generalize seek options.skipComments untilSemicolon _ _ _ _ _ = found at hwindow ⊢
  cases hwindow with
  | found h hplace =>
    subst h
    exact (if_pos (by simp only; omega)).symm
  | missed h hplace hcut =>
    subst h
    dsimp only
    rw [exhausted_of_lt _ hcut]
    exact (if_neg (by simp only; omega)).symm
  | @absent e e' h he =>
    subst h
    rcases he with hcut | rfl
    · dsimp only
      cases e <;> rw [capped, exhausted_of_lt _ hcut, exhausted_of_lt _ hcut]
    · cases e' <;> rfl

/-- Behind a brace the cursor finds what is found in the text, up to the ceiling. -/
theorem extractBehind_eq (options : Options) (spaces body : List Char) (start : Nat) :
    extractBehind options start (byteSize spaces) (encode (spaces ++ '{' :: body)) =
      capped options start (encode (spaces ++ '{' :: body))
        (extractAfterBrace options (start + byteSize spaces + 1) body) := by
  have hsize : byteSize (spaces ++ ['{']) = byteSize spaces + 1 := byteSize_append _ _
  have htext : spaces ++ '{' :: body = (spaces ++ ['{']) ++ body := by simp
  have hwindow := findsIn_drop reads_nextDepth options.skipComments 0 start 0 options.maxScan
    (spaces ++ ['{']) body
  rw [← htext, hsize, ← Nat.add_assoc, ← length_encode (spaces ++ '{' :: body)] at hwindow
  -- Kept braces or not, no more is skipped than white space, and it stops nothing.
  have hblank : ∀ window : List UInt8,
      (if options.keepBraces = true then 0 else (window.takeWhile isSpaceByte).length) ≤
        (window.takeWhile isSpaceByte).length := by
    intro window
    split
    · exact Nat.zero_le _
    · exact Nat.le_refl _
  rw [extractBehind, extractAfterBrace, find_blank (hblank _), Nat.add_sub_cancel]
  generalize hfind : find options.skipComments depthAfter 0 _ _ = r at hwindow ⊢
  -- The closing brace lies in the window, or behind it, or there is none.
  cases hwindow with
  | @found close rest h hlt =>
    rw [h]
    dsimp only
    split
    · obtain ⟨inner, c, rfl, hplace, last, hlast⟩ := exists_of_seek h
      obtain rfl := eq_of_nextDepth_eq_none hlast
      have hbefore : spaces ++ '{' :: (inner ++ '}' :: rest) =
          (spaces ++ '{' :: (inner ++ ['}'])) ++ rest := by
        simp
      have hclose : byteSize (spaces ++ '{' :: (inner ++ ['}'])) =
          byteSize spaces + byteSize inner + 2 := by
        have hone : byteSize ['}'] = 1 := rfl
        rw [byteSize_append, byteSize_brace_cons, byteSize_append, hone]
        omega
      rw [hbefore]
      exact capped_terminator options (by omega) hlt
    · rw [htext, List.drop_take, encode_append, List.drop_left' (by rw [length_encode, hsize])]
        at hfind ⊢
      rw [length_blank hfind]
      exact (if_pos (by simp only; omega)).symm
  | @missed close rest e h hle hcut =>
    rw [h]
    dsimp only
    rw [exhausted_of_lt _ hcut]
    -- Whatever is found further on lies behind the ceiling as well.
    have hscan : ∀ span : Span, span.close = close →
        capped options start (encode (spaces ++ '{' :: body)) (.ok span) =
          .error (.scanLimit start options.maxScan) := by
      rintro span rfl
      exact if_neg (by omega)
    have hfail : ∀ e, capped options start (encode (spaces ++ '{' :: body)) (.error e) =
        .error (.scanLimit start options.maxScan) := fun e => by
      rw [capped, exhausted_of_lt _ hcut]
    split
    · split
      · exact (hfail _).symm
      · exact (hfail _).symm
      · exact (hscan _ rfl).symm
    · exact (hscan _ rfl).symm
  | @absent e e' h he =>
    rw [h]
    rcases he with hcut | rfl
    · dsimp only
      cases e <;> rw [capped, exhausted_of_lt _ hcut, exhausted_of_lt _ hcut]
    · cases e' <;> rfl

/-- The ceiling lies before the end of what follows if it lies before the end of the text. -/
theorem exhausted_eq (options : Options) {before rest : List Char} {start : Nat}
    (hstart : byteSize before = start) (e : Error) :
    exhausted options start (encode rest) e =
      if start + options.maxScan < byteSize (before ++ rest) then .scanLimit start options.maxScan
      else e := by
  rw [exhausted, length_encode, byteSize_append, hstart]
  simp only [Nat.add_lt_add_iff_left]

/-- The cursor finds the block that stands in the text. -/
theorem extract_eq (options : Options) (text : List Char) (start : Nat) :
    extract options text start = Block.extract options text start := by
  rw [extract]
  cases hdrop : dropBytes? start text with
  | none => rw [Block.extract, hdrop]
  | some rest =>
    obtain ⟨before, rfl, hstart⟩ := dropBytes?_eq_some_iff.1 hdrop
    have hsize := byteSize_takeWhile_isAsciiSpace rest
    have hparts := List.takeWhile_append_dropWhile (p := isAsciiSpace) (l := rest)
    dsimp only
    split
    · rename_i hbrace
      obtain ⟨hle, hhead⟩ := (getElem?_gap_iff rest options.maxScan).1 hbrace
      obtain ⟨body, hbody⟩ := List.head?_eq_some_iff.1 hhead
      have hgap : (((encode rest).take options.maxScan).takeWhile isSpaceByte).length =
          byteSize (rest.takeWhile isAsciiSpace) := by
        rw [← List.take_takeWhile, List.length_take, (takeWhile_encode_space rest).1, hsize]
        exact Nat.min_eq_right hle
      have hbehind := extractBehind_eq options (rest.takeWhile isAsciiSpace) body start
      rw [hbody] at hparts
      rw [hparts] at hbehind
      rw [hgap, hbehind, extract_of_brace_behind options hdrop hbody, if_neg (by omega), hsize]
      cases extractAfterBrace options (start + (rest.takeWhile isAsciiSpace).length + 1) body with
      | ok span => rfl
      | error e => exact congrArg Except.error (exhausted_eq options hstart e)
    · rename_i hbrace
      rw [getElem?_gap_iff] at hbrace
      by_cases hhead : (rest.dropWhile isAsciiSpace).head? = some '{'
      · -- A brace follows, but the white space in front of it does not end in the window.
        obtain ⟨body, hbody⟩ := List.head?_eq_some_iff.1 hhead
        have hlong := Nat.lt_of_not_le fun hle => hbrace ⟨hle, hhead⟩
        rw [extract_of_brace_behind options hdrop hbody, if_pos (by omega)]
      · rw [extract_of_not_brace options hdrop hhead]

end Cursor

/-! ### Higher ceilings -/

variable {text rest : List Char} {start : Nat}

/-- The ceiling was not reached. -/
def IsAnswer (result : Except Error Span) : Prop :=
  ∀ start limit, result ≠ .error (.scanLimit start limit)

/-- A ceiling lies inside the white space in front of a brace, and a higher one does not. -/
def CutsGap (text : List Char) (start low high : Nat) : Prop :=
  ∃ rest body, dropBytes? start text = some rest ∧ rest.dropWhile isAsciiSpace = '{' :: body ∧
    low < (rest.takeWhile isAsciiSpace).length ∧ (rest.takeWhile isAsciiSpace).length ≤ high

/-- An answer that rests on what follows a brace is kept when more bytes may be examined. -/
theorem extract_of_le {options : Options} {maxScan : Nat} (hle : options.maxScan ≤ maxScan)
    (hdrop : dropBytes? start text = some rest)
    (hhead : (rest.dropWhile isAsciiSpace).head? = some '{')
    (hgap : (rest.takeWhile isAsciiSpace).length ≤ options.maxScan)
    (h : IsAnswer (extract options text start)) :
    extract { options with maxScan := maxScan } text start = extract options text start := by
  obtain ⟨body, hbody⟩ := List.head?_eq_some_iff.1 hhead
  have hsame : ∀ pos, extractAfterBrace { options with maxScan := maxScan } pos body =
      extractAfterBrace options pos body := fun _ => rfl
  have hlow : ¬start + options.maxScan < start + (rest.takeWhile isAsciiSpace).length := by omega
  have hhigh : ¬start + maxScan < start + (rest.takeWhile isAsciiSpace).length := by omega
  rw [extract_of_brace_behind options hdrop hbody, if_neg hlow] at h ⊢
  rw [extract_of_brace_behind _ hdrop hbody, if_neg hhigh, hsame]
  cases hspan : extractAfterBrace options
      (start + (rest.takeWhile isAsciiSpace).length + 1) body with
  | ok span =>
    rw [hspan] at h
    -- A block that ends before the lower ceiling ends before the higher one.
    by_cases hin : max (span.close + 1) span.stop ≤ start + options.maxScan
    · have hin' : max (span.close + 1) span.stop ≤ start + maxScan := by omega
      exact (if_pos hin').trans (if_pos hin).symm
    · exact absurd (if_neg hin) (h _ _)
  | error e =>
    rw [hspan] at h
    -- An error is an answer only if no byte was cut off.
    by_cases hcut : start + options.maxScan < byteSize text
    · exact absurd (congrArg Except.error (if_pos hcut)) (h _ _)
    · have hall : ¬start + maxScan < byteSize text := by omega
      exact congrArg Except.error ((if_neg hall).trans (if_neg hcut).symm)

/-- What goes wrong behind a brace is never that there is none. -/
theorem extractAfterBrace_ne (options : Options) (pos start : Nat) (body : List Char) :
    extractAfterBrace options pos body ≠ .error (.missingOpenBrace start) := by
  rw [extractAfterBrace]
  split
  · simp
  · simp
  · split
    · split <;> simp
    · simp

/-- Where the ceiling does not lie inside the white space in front of a brace, the brace is seen. -/
theorem extract_ne_missingOpenBrace {options : Options}
    (hdrop : dropBytes? start text = some rest)
    (hhead : (rest.dropWhile isAsciiSpace).head? = some '{')
    (hgap : (rest.takeWhile isAsciiSpace).length ≤ options.maxScan) :
    extract options text start ≠ .error (.missingOpenBrace start) := by
  obtain ⟨body, hbody⟩ := List.head?_eq_some_iff.1 hhead
  rw [extract_of_brace_behind _ hdrop hbody, if_neg (by omega)]
  cases hspan : extractAfterBrace options
      (start + (rest.takeWhile isAsciiSpace).length + 1) body with
  | ok span =>
    dsimp only
    split <;> simp
  | error e =>
    dsimp only
    split
    · simp
    · exact fun h => extractAfterBrace_ne _ _ start _ (hspan.trans h)

/-- Where a ceiling lies inside the white space in front of a brace, no brace is said to follow. A
ceiling that does not tells otherwise. -/
theorem CutsGap.extract_eq {options : Options} {high : Nat}
    (h : CutsGap text start options.maxScan high) :
    extract options text start = .error (.missingOpenBrace start) ∧
      extract { options with maxScan := high } text start ≠ .error (.missingOpenBrace start) := by
  obtain ⟨rest, body, hdrop, hbody, hlow, hhigh⟩ := h
  refine ⟨?_, extract_ne_missingOpenBrace hdrop (by rw [hbody]; rfl) hhigh⟩
  rw [extract_of_brace_behind _ hdrop hbody, if_pos (by omega)]

/-- In all other cases an answer is kept below a higher ceiling. -/
theorem extract_eq_of_not_cutsGap {options : Options} {high : Nat} (hle : options.maxScan ≤ high)
    (hgap : ¬CutsGap text start options.maxScan high) (h : IsAnswer (extract options text start)) :
    extract { options with maxScan := high } text start = extract options text start := by
  cases hdrop : dropBytes? start text with
  | none => rw [extract, extract, hdrop]
  | some rest =>
    by_cases hhead : (rest.dropWhile isAsciiSpace).head? = some '{'
    · by_cases hlow : (rest.takeWhile isAsciiSpace).length ≤ options.maxScan
      · exact extract_of_le hle hdrop hhead hlow h
      · -- The brace lies behind both ceilings.
        obtain ⟨body, hbody⟩ := List.head?_eq_some_iff.1 hhead
        have hhigh : ¬(rest.takeWhile isAsciiSpace).length ≤ high := fun hhigh =>
          hgap ⟨rest, body, hdrop, hbody, Nat.lt_of_not_le hlow, hhigh⟩
        rw [extract_of_brace_behind options hdrop hbody, if_pos (by omega),
          extract_of_brace_behind _ hdrop hbody]
        exact if_pos (Nat.add_lt_add_left (Nat.lt_of_not_le hhigh) start)
    · rw [extract_of_not_brace _ hdrop hhead, extract_of_not_brace _ hdrop hhead]

/-- The cursor reads no byte from the ceiling on and comes to the same block as a search of the
whole text, held against the ceiling. An answer it gives below a ceiling, be it a block or an error,
is the answer below each higher one as well, unless the lower one lies inside the white space in
front of a brace and the higher one does not: then the first answer is that no brace follows, and
the second is another one. This never happens where a brace stands at the offset itself. -/
theorem answer_kept_iff (text : List Char) (start : Nat) (keepBraces skipComments : Bool) :
    (∀ maxScan, Cursor.extract ⟨keepBraces, skipComments, maxScan⟩ text start =
      extract ⟨keepBraces, skipComments, maxScan⟩ text start) ∧
    ∀ low high, low ≤ high →
      IsAnswer (extract ⟨keepBraces, skipComments, low⟩ text start) →
      (extract ⟨keepBraces, skipComments, high⟩ text start =
          extract ⟨keepBraces, skipComments, low⟩ text start ↔ ¬CutsGap text start low high) ∧
      (CutsGap text start low high →
        extract ⟨keepBraces, skipComments, low⟩ text start = .error (.missingOpenBrace start) ∧
        extract ⟨keepBraces, skipComments, high⟩ text start ≠ .error (.missingOpenBrace start)) ∧
      ∀ body, dropBytes? start text = some ('{' :: body) →
        extract ⟨keepBraces, skipComments, high⟩ text start =
          extract ⟨keepBraces, skipComments, low⟩ text start := by
  refine ⟨fun maxScan => Cursor.extract_eq _ _ _, fun low high hle hanswer => ?_⟩
  have hcuts : CutsGap text start low high →
      extract ⟨keepBraces, skipComments, low⟩ text start = .error (.missingOpenBrace start) ∧
      extract ⟨keepBraces, skipComments, high⟩ text start ≠ .error (.missingOpenBrace start) :=
    @CutsGap.extract_eq _ _ ⟨keepBraces, skipComments, low⟩ high
  have hkept : ¬CutsGap text start low high →
      extract ⟨keepBraces, skipComments, high⟩ text start =
        extract ⟨keepBraces, skipComments, low⟩ text start :=
    fun hgap => @extract_eq_of_not_cutsGap _ _ ⟨keepBraces, skipComments, low⟩ _ hle hgap hanswer
  refine ⟨⟨fun heq hgap => ?_, hkept⟩, hcuts, fun body hbrace => hkept ?_⟩
  · obtain ⟨hlow, hhigh⟩ := hcuts hgap
    exact hhigh (heq.trans hlow)
  · rintro ⟨rest, inner, hdrop, -, hlow, -⟩
    obtain rfl := Option.some.inj (hbrace.symm.trans hdrop)
    rw [List.takeWhile_cons_of_neg (by decide)] at hlow
    exact absurd hlow (Nat.not_lt_zero _)

/-- `answer_kept_iff` at two texts that go on behind the lower ceiling: a block behind white space,
and one with a name behind it. -/
theorem answer_kept_iff_braces :
    extract ⟨false, true, 64⟩ "  \x7b\x7d int x;".toList 0 =
        extract ⟨false, true, 4⟩ "  \x7b\x7d int x;".toList 0 ∧
      extract ⟨true, true, 64⟩ "\x7b /* \x7d */ \x7d A; int x;".toList 0 =
        extract ⟨true, true, 14⟩ "\x7b /* \x7d */ \x7d A; int x;".toList 0 := by
  have hspaced : extract ⟨false, true, 4⟩ "  \x7b\x7d int x;".toList 0 = .ok ⟨3, 3, 3⟩ := rfl
  have hnamed : extract ⟨true, true, 14⟩ "\x7b /* \x7d */ \x7d A; int x;".toList 0 =
      .ok ⟨0, 10, 14⟩ := rfl
  obtain ⟨hiff, -, -⟩ := (answer_kept_iff "  \x7b\x7d int x;".toList 0 false true).2 4 64
    (by decide) (by rw [hspaced]; nofun)
  obtain ⟨-, -, hbrace⟩ :=
    (answer_kept_iff "\x7b /* \x7d */ \x7d A; int x;".toList 0 true true).2 14 64 (by decide)
      (by rw [hnamed]; nofun)
  refine ⟨hiff.2 ?_, hbrace _ rfl⟩
  rintro ⟨rest, body, hdrop, -, hlow, -⟩
  obtain rfl := Option.some.inj hdrop
  exact absurd hlow (by decide)

/-- A brace behind two blanks is said to be missing if one byte may be examined, and found if four
bytes may. -/
theorem missing_brace_found :
    IsAnswer (extract ⟨false, true, 1⟩ "  \x7b\x7d".toList 0) ∧
      extract ⟨false, true, 1⟩ "  \x7b\x7d".toList 0 = .error (.missingOpenBrace 0) ∧
      extract ⟨false, true, 4⟩ "  \x7b\x7d".toList 0 = .ok ⟨3, 3, 3⟩ := by
  have hmissing : extract ⟨false, true, 1⟩ "  \x7b\x7d".toList 0 =
      .error (.missingOpenBrace 0) := rfl
  exact ⟨by rw [hmissing]; nofun, hmissing, rfl⟩

end StructUnfold.Block
