import Mathlib.Data.List.TakeWhile
import Mathlib.Order.Lattice.Nat
import StructUnfold.Proofs.Comment.Search

/-!
# The block of a brace

Which block a brace opens is told by the characters of code behind it alone: it ends at the first
closing brace before which as many braces are opened as closed, and with the names behind it at the
next semicolon.

* `Closes`: a closing brace that may end a block.
* `IsBlock`: the block of a brace.
* `Fails`: why a brace opens no block.
* `extract_finds_block`: the block of a brace is found, or the reason is told why there is none.
-/

namespace StructUnfold.Comment

open Text Block

/-! ### Blocks -/

/-- As many braces are opened as closed in the code between an opening brace and a closing one. -/
structure Closes (text : List Char) (opened close : Nat) : Prop where
  /-- The closing brace stands behind the opening one. -/
  behind : opened < close
  /-- It is no comment. -/
  brace : codeAt? close text = some '}'
  /-- The braces between them come in equal numbers. -/
  pairs : (codeBetween text opened close).count '{' = (codeBetween text opened close).count '}'

/-- The block of the brace at an offset. -/
structure IsBlock (keepBraces : Bool) (text : List Char) (opened : Nat) (span : Block.Span) :
    Prop where
  /-- It is closed by the first brace that may do so. -/
  close : IsLeast {n | Closes text opened n} span.close
  /-- Without its braces it reaches from the first byte that is no white space to the closing
  brace. -/
  bare : keepBraces = false →
    IsLeast {n | opened < n ∧ (charAt? n text).any isAsciiSpace = false} span.start ∧
      span.stop = span.close
  /-- With its braces it reaches behind the first semicolon after the closing brace. -/
  kept : keepBraces = true → span.start = opened ∧
    ∃ semicolon, IsLeast {n | span.close < n ∧ codeAt? n text = some ';'} semicolon ∧
      span.stop = semicolon + 1

/-- Why the brace at an offset opens no block. -/
def Fails (text : List Char) (opened : Nat) : Block.Error → Prop
  | .unterminatedComment start => opened < start ∧ Unclosed text start
  | .unbalanced start =>
    start = opened ∧ (∀ n, opened < n → ¬Unclosed text n) ∧ ∀ n, ¬Closes text opened n
  | .missingTerminator close =>
    (∀ n, opened < n → ¬Unclosed text n) ∧ IsLeast {n | Closes text opened n} close ∧
      ∀ n, close < n → codeAt? n text ≠ some ';'
  | _ => False

/-- A brace opens one block at most. -/
theorem IsBlock.unique {keepBraces : Bool} {text : List Char} {opened : Nat}
    {span span' : Block.Span} (h : IsBlock keepBraces text opened span)
    (h' : IsBlock keepBraces text opened span') : span = span' := by
  obtain ⟨start, close, stop⟩ := span
  obtain ⟨start', close', stop'⟩ := span'
  obtain rfl : close = close' := h.close.unique h'.close
  cases keepBraces with
  | false =>
    obtain ⟨hstart, hstop⟩ := h.bare rfl
    obtain ⟨hstart', hstop'⟩ := h'.bare rfl
    obtain rfl : start = start' := hstart.unique hstart'
    obtain rfl : stop = stop' := hstop.trans hstop'.symm
    rfl
  | true =>
    obtain ⟨hstart, semicolon, hleast, hstop⟩ := h.kept rfl
    obtain ⟨hstart', semicolon', hleast', hstop'⟩ := h'.kept rfl
    obtain rfl : start = start' := hstart.trans hstart'.symm
    obtain rfl := hleast.unique hleast'
    obtain rfl : stop = stop' := hstop.trans hstop'.symm
    rfl

/-- One block comment at most is never closed. -/
theorem Unclosed.unique {text : List Char} {start start' : Nat} (h : Unclosed text start)
    (h' : Unclosed text start') : start = start' := by
  rw [unclosed_iff_opensBlock] at h h'
  -- A search that nothing stops tells which comment it is.
  have hkinds : kinds text = kinds ((kinds text).map Prod.fst) := by rw [map_fst_kinds]
  have hend := ends_seek_behind hkinds (fun (_ : Unit) _ => some ()) () 0
  generalize seek true (fun (_ : Unit) _ => some ()) .code 0 () 0 _ = found at hend
  cases hend with
  | stopped _ _ _ _ _ _ stops => cases stops
  | exhausted _ e _ left =>
    exact Option.some.inj (((left start).2 h).symm.trans ((left start').2 h'))

/-- There is one reason at most. -/
theorem Fails.unique {text : List Char} {opened : Nat} :
    ∀ {e e' : Block.Error}, Fails text opened e → Fails text opened e' → e = e'
  | .unterminatedComment _, .unterminatedComment _, h, h' => congrArg _ (h.2.unique h'.2)
  | .unterminatedComment _, .unbalanced _, h, h' => absurd h.2 (h'.2.1 _ h.1)
  | .unterminatedComment _, .missingTerminator _, h, h' => absurd h.2 (h'.1 _ h.1)
  | .unbalanced _, .unterminatedComment _, h, h' => absurd h'.2 (h.2.1 _ h'.1)
  | .unbalanced _, .unbalanced _, h, h' => congrArg _ (h.1.trans h'.1.symm)
  | .unbalanced _, .missingTerminator _, h, h' => absurd h'.2.1.1 (h.2.2 _)
  | .missingTerminator _, .unterminatedComment _, h, h' => absurd h'.2 (h.1 _ h'.1)
  | .missingTerminator _, .unbalanced _, h, h' => absurd h.2.1.1 (h'.2.2 _)
  | .missingTerminator _, .missingTerminator _, h, h' => congrArg _ (h.2.1.unique h'.2.1)

variable {text : List Char} {front back : List (Char × Kind)}

/-! ### The closing brace -/

/-- Passing over a text of braces changes the depth by the braces in it. -/
theorem count_of_foldlM_nextDepth {s : List Char} {depth depth' : Nat}
    (h : s.foldlM nextDepth depth = some depth') :
    depth' + s.count '}' = depth + s.count '{' := by
  induction s generalizing depth with
  | nil =>
    obtain rfl := Option.some.inj h
    rfl
  | cons c s ih =>
    rw [List.foldlM_cons] at h
    obtain ⟨mid, hnext, hrest⟩ := Option.bind_eq_some_iff.1 h
    have hcount := ih hrest
    rcases nextDepth_eq_some_iff.1 hnext with ⟨rfl, rfl⟩ | ⟨rfl, rfl⟩ | ⟨hopen, hclose, rfl⟩
    · rw [List.count_cons_self, List.count_cons_of_ne (by decide)]
      omega
    · rw [List.count_cons_self, List.count_cons_of_ne (by decide)]
      omega
    · rw [List.count_cons_of_ne hopen, List.count_cons_of_ne hclose]
      exact hcount

/-- The closing braces that may end a block, in characters with their kinds. -/
theorem closes_iff (h : kinds text = front ++ ('{', .code) :: back) {close : Nat} :
    Closes text (byteSize (front.map Prod.fst)) close ↔
      ∃ w rest, back = w ++ ('}', .code) :: rest ∧
        close = byteSize (front.map Prod.fst) + 1 + byteSize (w.map Prod.fst) ∧
          (codeOf w).count '{' = (codeOf w).count '}' := by
  constructor
  · rintro ⟨hbehind, hbrace, hpairs⟩
    obtain ⟨w, rest, rfl, rfl⟩ := (codeAt?_behind_iff h rfl).1 ⟨hbehind, hbrace⟩
    rw [codeBetween_eq h] at hpairs
    exact ⟨w, rest, rfl, rfl, hpairs⟩
  · rintro ⟨w, rest, rfl, rfl, hpairs⟩
    obtain ⟨hbehind, hbrace⟩ := (codeAt?_behind_iff h rfl).2 ⟨w, rest, rfl, rfl⟩
    exact ⟨hbehind, hbrace, by rwa [codeBetween_eq h]⟩

/-- A closing brace that is passed over does not end the block. -/
theorem count_ne_of_passed {u v : List (Char × Kind)} {last : Nat}
    (h : (codeOf (u ++ ('}', .code) :: v)).foldlM nextDepth 0 = some last) :
    (codeOf u).count '{' ≠ (codeOf u).count '}' := by
  obtain ⟨mid, hmid, hnext⟩ := exists_next_of_passed h
  have hcount := count_of_foldlM_nextDepth hmid
  have hpos : mid ≠ 0 := fun hzero => hnext (by rw [hzero]; rfl)
  omega

/-- The brace that stops the search for it is the first that may end the block. -/
theorem isLeast_closes {w rest : List (Char × Kind)} {last : Nat} {c : Char}
    (h : kinds text = front ++ ('{', .code) :: (w ++ (c, .code) :: rest))
    (hpassed : (codeOf w).foldlM nextDepth 0 = some last) (hstops : nextDepth last c = none) :
    IsLeast {n | Closes text (byteSize (front.map Prod.fst)) n}
      (byteSize (front.map Prod.fst) + 1 + byteSize (w.map Prod.fst)) := by
  obtain rfl := eq_of_nextDepth_eq_none hstops
  constructor
  · refine (closes_iff h).2 ⟨w, rest, rfl, rfl, ?_⟩
    have hcount := count_of_foldlM_nextDepth hpassed
    have hzero := eq_zero_of_nextDepth_eq_none hstops
    omega
  · intro n hn
    obtain ⟨w', rest', hback, rfl, hpairs⟩ := (closes_iff h).1 hn
    by_contra hlt
    obtain ⟨v, rfl, -⟩ := exists_behind hback.symm (by omega)
    exact count_ne_of_passed hpassed hpairs

/-- Where the search is not stopped there is no brace that may end the block. -/
theorem not_closes {last : Nat} (h : kinds text = front ++ ('{', .code) :: back)
    (hpassed : (codeOf back).foldlM nextDepth 0 = some last) (n : Nat) :
    ¬Closes text (byteSize (front.map Prod.fst)) n := by
  intro hn
  obtain ⟨w, rest, rfl, -, hpairs⟩ := (closes_iff h).1 hn
  exact count_ne_of_passed hpassed hpairs

/-! ### The semicolon -/

/-- A semicolon stops the search for it. -/
theorem not_passed_semicolon {u v : List (Char × Kind)} {last : Unit} :
    (codeOf (u ++ (';', .code) :: v)).foldlM untilSemicolon () ≠ some last := by
  intro h
  obtain ⟨mid, -, hnext⟩ := exists_next_of_passed h
  exact hnext rfl

/-- The character that stops the search for a semicolon is the first one behind the brace. -/
theorem isLeast_semicolon {w rest : List (Char × Kind)} {last : Unit} {c : Char}
    (h : kinds text = front ++ ('}', .code) :: (w ++ (c, .code) :: rest))
    (hpassed : (codeOf w).foldlM untilSemicolon () = some last)
    (hstops : untilSemicolon last c = none) :
    IsLeast {n | byteSize (front.map Prod.fst) < n ∧ codeAt? n text = some ';'}
      (byteSize (front.map Prod.fst) + 1 + byteSize (w.map Prod.fst)) := by
  obtain rfl := eq_of_untilSemicolon_eq_none hstops
  refine ⟨(codeAt?_behind_iff h rfl).2 ⟨w, rest, rfl, rfl⟩, ?_⟩
  intro n hn
  obtain ⟨w', rest', hback, rfl⟩ := (codeAt?_behind_iff h rfl).1 hn
  by_contra hlt
  obtain ⟨v, rfl, -⟩ := exists_behind hback.symm (by omega)
  exact not_passed_semicolon hpassed

/-! ### White space -/

/-- White space is one byte to a character. -/
theorem byteSize_of_isAsciiSpace {s : List Char} (h : ∀ c ∈ s, isAsciiSpace c = true) :
    byteSize s = s.length := by
  have hsize := byteSize_takeWhile_isAsciiSpace s
  rwa [List.takeWhile_eq_self_iff.2 h] at hsize

/-- A character of white space is one byte. -/
theorem utf8Size_of_isAsciiSpace {c : Char} (h : isAsciiSpace c = true) : c.utf8Size = 1 := by
  have hsize := byteSize_of_isAsciiSpace (s := [c]) (List.forall_mem_singleton.2 h)
  rwa [byteSize_cons, byteSize_nil, Nat.add_zero] at hsize

/-- What a body begins with behind white space. -/
theorem dropBytes?_start (before body : List Char) :
    dropBytes? (byteSize before + 1 + (body.takeWhile isAsciiSpace).length)
      (before ++ '{' :: body) = some (body.dropWhile isAsciiSpace) := by
  have hpos : byteSize (before ++ '{' :: body.takeWhile isAsciiSpace) =
      byteSize before + 1 + (body.takeWhile isAsciiSpace).length := by
    rw [byteSize_append, byteSize_brace_cons, byteSize_takeWhile_isAsciiSpace]
    omega
  have htext : before ++ '{' :: body =
      (before ++ '{' :: body.takeWhile isAsciiSpace) ++ body.dropWhile isAsciiSpace := by
    rw [List.append_assoc, List.cons_append, List.takeWhile_append_dropWhile]
  rw [htext, ← hpos, dropBytes?_byteSize_append]

/-- A body begins at the first byte that is no white space. -/
theorem isLeast_start (before body : List Char) :
    IsLeast {n | byteSize before < n ∧
        (charAt? n (before ++ '{' :: body)).any isAsciiSpace = false}
      (byteSize before + 1 + (body.takeWhile isAsciiSpace).length) := by
  constructor
  · refine ⟨by omega, ?_⟩
    rw [charAt?, dropBytes?_start, Option.bind_some]
    cases hrest : body.dropWhile isAsciiSpace with
    | nil => rfl
    | cons c rest =>
      have hc := List.head?_dropWhile_not isAsciiSpace body
      rw [hrest] at hc
      simpa using hc
  · rintro n ⟨hlt, hn⟩
    -- Every byte before it is that of a white space behind the brace.
    by_contra hbefore
    obtain ⟨i, rfl⟩ := Nat.exists_eq_add_of_le (Nat.succ_le_of_lt hlt)
    have hi : i < (body.takeWhile isAsciiSpace).length := by omega
    obtain ⟨u, c, v, hbody, rfl⟩ : ∃ u c v, body.takeWhile isAsciiSpace = u ++ c :: v ∧
        u.length = i :=
      ⟨_, _, _, by rw [List.getElem_cons_drop hi, List.take_append_drop],
        List.length_take_of_le (Nat.le_of_lt hi)⟩
    have hspace : ∀ d ∈ u ++ c :: v, isAsciiSpace d = true := fun _ hd =>
      List.mem_takeWhile_imp (hbody ▸ hd)
    have hpos : byteSize (before ++ '{' :: u) = byteSize before + 1 + u.length := by
      rw [byteSize_append, byteSize_brace_cons,
        byteSize_of_isAsciiSpace fun d hd => hspace d (List.mem_append_left _ hd)]
      omega
    have htext : before ++ '{' :: body =
        (before ++ '{' :: u) ++ c :: (v ++ body.dropWhile isAsciiSpace) := by
      have hsplit := List.takeWhile_append_dropWhile (p := isAsciiSpace) (l := body)
      rw [hbody, List.append_assoc, List.cons_append] at hsplit
      rw [List.append_assoc, List.cons_append, hsplit]
    rw [htext, Nat.succ_eq_add_one, ← hpos, charAt?_append_cons, Option.any_some,
      hspace c (by simp)] at hn
    cases hn

/-- What stands before a brace is white space. -/
theorem exists_space_before {start opened : Nat} {behind : List Char} (hle : start ≤ opened)
    (hspace : ∀ n, start ≤ n → n < opened → (charAt? n text).any isAsciiSpace = true)
    (hbrace : dropBytes? opened text = some behind) :
    ∃ space, dropBytes? start text = some (space ++ behind) ∧
      (∀ c ∈ space, isAsciiSpace c = true) ∧ opened = start + space.length := by
  obtain ⟨k, rfl⟩ := Nat.exists_eq_add_of_le hle
  induction k generalizing start with
  | zero => exact ⟨[], hbrace, by simp, rfl⟩
  | succ k ih =>
    obtain ⟨c, hchar, hc⟩ := (Option.any_eq_true _ _).1 (hspace start (by omega) (by omega))
    obtain ⟨before, rest, rfl, rfl⟩ := exists_of_charAt? hchar
    have hsize : byteSize (before ++ [c]) = byteSize before + 1 := by
      rw [byteSize_concat, utf8Size_of_isAsciiSpace hc]
    have hstep : byteSize before + (k + 1) = byteSize before + 1 + k := by omega
    rw [hstep] at hspace hbrace ⊢
    obtain ⟨space, hdrop, hall, hlength⟩ :=
      ih (by omega) (fun n hn => hspace n (by omega)) hbrace
    rw [← hsize, List.append_cons before c rest, dropBytes?_byteSize_append] at hdrop
    obtain rfl := Option.some.inj hdrop
    refine ⟨c :: space, by rw [dropBytes?_byteSize_append]; rfl, ?_, ?_⟩
    · exact List.forall_mem_cons.2 ⟨hc, hall⟩
    · rw [List.length_cons]
      omega

/-- Where the ceiling lies behind the text, the block is what follows the brace behind the white
space. -/
theorem extract_of_space {options : Block.Options} {start opened : Nat} {body : List Char}
    (hceiling : byteSize text ≤ start + options.maxScan) (hle : start ≤ opened)
    (hspace : ∀ n, start ≤ n → n < opened → (charAt? n text).any isAsciiSpace = true)
    (hbrace : dropBytes? opened text = some ('{' :: body)) :
    extract options text start = extractAfterBrace options (opened + 1) body := by
  obtain ⟨space, hdrop, hall, hopened⟩ := exists_space_before hle hspace hbrace
  obtain ⟨before, htext, hsize⟩ := dropBytes?_eq_some_iff.1 hbrace
  have htotal : byteSize text = opened + 1 + byteSize body := by
    rw [htext, byteSize_append, byteSize_brace_cons, hsize]
    omega
  have hneg : ¬isAsciiSpace '{' = true := by decide
  have htake : (space ++ '{' :: body).takeWhile isAsciiSpace = space := by
    rw [takeWhile_append_cons_of_neg hneg, List.takeWhile_eq_self_iff.2 hall]
  have hrest : (space ++ '{' :: body).dropWhile isAsciiSpace = '{' :: body := by
    have hsplit := List.takeWhile_append_dropWhile (p := isAsciiSpace) (l := space ++ '{' :: body)
    rw [htake] at hsplit
    exact List.append_cancel_left hsplit
  rw [extract_of_brace_behind options hdrop hrest, htake, ← hopened]
  refine (if_neg (by omega)).trans ?_
  cases hfound : extractAfterBrace options (opened + 1) body with
  | ok span =>
    have hfits := le_of_extractAfterBrace hfound
    exact if_pos (by omega)
  | error e => exact congrArg Except.error (if_neg (by omega))

/-! ### The block that is found -/

/-- A place where something stands. -/
theorem isSome_dropBytes?_of_charAt? {offset : Nat} {c : Char}
    (h : charAt? offset text = some c) : (dropBytes? offset text).isSome = true := by
  obtain ⟨before, behind, rfl, rfl⟩ := exists_of_charAt? h
  rw [dropBytes?_byteSize_append]
  rfl

/-- The place behind what stands at an offset. -/
theorem isSome_dropBytes?_behind {offset : Nat} {c : Char} (h : charAt? offset text = some c) :
    (dropBytes? (offset + c.utf8Size) text).isSome = true := by
  obtain ⟨before, behind, rfl, rfl⟩ := exists_of_charAt? h
  rw [← byteSize_concat, List.append_cons before c behind, dropBytes?_byteSize_append]
  rfl

/-- A place lies before the end of the text. -/
theorem le_of_isSome_dropBytes? {offset : Nat} (h : (dropBytes? offset text).isSome = true) :
    offset ≤ byteSize text := by
  obtain ⟨rest, hrest⟩ := Option.isSome_iff_exists.1 h
  obtain ⟨before, rfl, rfl⟩ := dropBytes?_eq_some_iff.1 hrest
  exact byteSize_le_append before rest

/-- What stands at an offset in the code stands there in the text. -/
theorem charAt?_of_codeAt? {offset : Nat} {c : Char} (h : codeAt? offset text = some c) :
    charAt? offset text = some c := by
  rw [codeAt?] at h
  split at h
  · cases h
  · exact h

/-- The offsets of a block fall between the characters of a text. -/
structure Lies (span : Block.Span) (text : List Char) : Prop where
  start_le : span.start ≤ span.close
  close_le : span.close ≤ span.stop
  stop_le : span.stop ≤ byteSize text
  boundaries : ∀ n ∈ [span.start, span.close, span.stop], (dropBytes? n text).isSome = true

/-- What an attempt to extract a block comes to: the block that there is, or the reason why there is
none. -/
inductive Settles (keepBraces : Bool) (text : List Char) (opened : Nat) :
    Except Block.Error Block.Span → Prop
  | found (span : Block.Span) (isBlock : IsBlock keepBraces text opened span)
      (lies : Lies span text) : Settles keepBraces text opened (.ok span)
  | failed (e : Block.Error) (fails : Fails text opened e)
      (noBlock : ∀ span, ¬IsBlock keepBraces text opened span) :
      Settles keepBraces text opened (.error e)

/-- The body of a block is found. -/
theorem settles_bare {w rest : List (Char × Kind)} {c : Char}
    (h : kinds text = front ++ ('{', .code) :: (w ++ (c, .code) :: rest))
    (hleast : IsLeast {n | Closes text (byteSize (front.map Prod.fst)) n}
      (byteSize (front.map Prod.fst) + 1 + byteSize (w.map Prod.fst))) :
    Settles false text (byteSize (front.map Prod.fst))
      (.ok ⟨byteSize (front.map Prod.fst) + 1 +
          (((w ++ (c, .code) :: rest).map Prod.fst).takeWhile isAsciiSpace).length,
        byteSize (front.map Prod.fst) + 1 + byteSize (w.map Prod.fst),
        byteSize (front.map Prod.fst) + 1 + byteSize (w.map Prod.fst)⟩) := by
  have htext : text = front.map Prod.fst ++ '{' :: (w ++ (c, .code) :: rest).map Prod.fst := by
    rw [← map_fst_kinds text, h, List.map_append, List.map_cons]
  have hstart := isLeast_start (front.map Prod.fst) ((w ++ (c, .code) :: rest).map Prod.fst)
  have hdrop := dropBytes?_start (front.map Prod.fst) ((w ++ (c, .code) :: rest).map Prod.fst)
  rw [← htext] at hstart hdrop
  have hbrace := charAt?_of_codeAt? hleast.1.brace
  have hclose := isSome_dropBytes?_of_charAt? hbrace
  refine .found _ ⟨hleast, fun _ => ⟨hstart, rfl⟩, nofun⟩ ⟨?_, Nat.le_refl _, ?_, ?_⟩
  · exact hstart.2 ⟨hleast.1.behind, by rw [hbrace]; rfl⟩
  · exact le_of_isSome_dropBytes? hclose
  · simp only [List.forall_mem_cons]
    exact ⟨by rw [hdrop]; rfl, hclose, hclose, nofun⟩

/-- The names behind a block are found up to the semicolon, or they are not. -/
theorem settles_kept {opened : Nat} {rest : List (Char × Kind)}
    (h : kinds text = front ++ ('}', .code) :: rest)
    (hleast : IsLeast {n | Closes text opened n} (byteSize (front.map Prod.fst)))
    (hopened : (dropBytes? opened text).isSome = true) :
    Settles true text opened
      (match seek true untilSemicolon .code 0 () (byteSize (front.map Prod.fst) + 1)
          (rest.map Prod.fst) with
        | .error (some opened) => .error (.unterminatedComment opened)
        | .error none => .error (.missingTerminator (byteSize (front.map Prod.fst)))
        | .ok (semicolon, _) =>
          .ok ⟨opened, byteSize (front.map Prod.fst), semicolon + 1⟩) := by
  have hlt := hleast.1.behind
  have hend := ends_seek_behind (eq_kinds_of_code h) untilSemicolon ()
    (byteSize (front.map Prod.fst) + 1)
  generalize seek true untilSemicolon .code 0 () _ _ = found at hend
  cases hend with
  | stopped w c back last parts passed stops =>
    rw [parts] at h
    have hfirst := isLeast_semicolon h passed stops
    have hbehind := isSome_dropBytes?_behind (charAt?_of_codeAt? hfirst.1.2)
    have hle := hfirst.1.1
    refine .found _ ⟨hleast, nofun, fun _ => ⟨rfl, _, hfirst, rfl⟩⟩
      ⟨Nat.le_of_lt hlt, ?_, ?_, ?_⟩
    · dsimp only
      omega
    · exact le_of_isSome_dropBytes? hbehind
    · simp only [List.forall_mem_cons]
      exact ⟨hopened, isSome_dropBytes?_of_charAt? (charAt?_of_codeAt? hleast.1.brace), hbehind,
        nofun⟩
  | exhausted last e passed left =>
    have hsemicolon : ∀ n, byteSize (front.map Prod.fst) < n → codeAt? n text ≠ some ';' := by
      intro n hn hcode
      obtain ⟨w, back, rfl, -⟩ := (codeAt?_behind_iff h rfl).1 ⟨hn, hcode⟩
      exact not_passed_semicolon passed
    have hnone : ∀ span, ¬IsBlock true text opened span := by
      intro span hspan
      obtain ⟨-, semicolon, hfirst, -⟩ := hspan.kept rfl
      rw [hspan.close.unique hleast] at hfirst
      exact hsemicolon semicolon hfirst.1.1 hfirst.1.2
    -- What is left open begins behind the closing brace, for there is no code in it.
    have hopen : ∀ start, e = some start ↔ opened < start ∧ Unclosed text start := by
      intro start
      rw [left, ← unclosed_behind_iff h rfl]
      constructor
      · rintro ⟨hbehind, hunclosed⟩
        exact ⟨by omega, hunclosed⟩
      · rintro ⟨-, hunclosed⟩
        exact ⟨hunclosed.lt_of_codeAt? hleast.1.brace, hunclosed⟩
    cases e with
    | none =>
      refine .failed _ ⟨fun n hn hunclosed => ?_, hleast, hsemicolon⟩ hnone
      cases (hopen n).2 ⟨hn, hunclosed⟩
    | some start => exact .failed _ ((hopen start).1 rfl) hnone

/-- Behind a brace its block is found, or the reason is told why there is none. -/
theorem settles_extractAfterBrace {options : Block.Options} (hskip : options.skipComments = true)
    (h : kinds text = front ++ ('{', .code) :: back) :
    Settles options.keepBraces text (byteSize (front.map Prod.fst))
      (extractAfterBrace options (byteSize (front.map Prod.fst) + 1) (back.map Prod.fst)) := by
  have hend := ends_seek_behind (eq_kinds_of_code h) nextDepth 0
    (byteSize (front.map Prod.fst) + 1)
  rw [extractAfterBrace, hskip]
  generalize seek true nextDepth .code 0 0 _ _ = found at hend
  cases hend with
  | stopped w c rest last parts passed stops =>
    subst parts
    have hleast := isLeast_closes h passed stops
    obtain rfl := eq_of_nextDepth_eq_none stops
    dsimp only
    cases hkeep : options.keepBraces with
    | false => exact settles_bare h hleast
    | true =>
      have hclose : kinds text = (front ++ ('{', .code) :: w) ++ ('}', .code) :: rest := by
        rw [h, List.append_assoc, List.cons_append]
      have hopened := isSome_dropBytes?_of_charAt? (charAt?_of_kinds h).1
      rw [← byteSize_behind (c := '{') rfl .code] at hleast ⊢
      exact settles_kept hclose hleast hopened
  | exhausted last e passed left =>
    have hnone : ∀ span, ¬IsBlock options.keepBraces text (byteSize (front.map Prod.fst)) span :=
      fun span hspan => not_closes h passed _ hspan.close.1
    have hopen := fun start => (left start).trans (unclosed_behind_iff h rfl).symm
    cases e with
    | none =>
      refine .failed _ ⟨rfl, fun n hn hunclosed => ?_, not_closes h passed⟩ hnone
      cases (hopen n).2 ⟨hn, hunclosed⟩
    | some start => exact .failed _ ((hopen start).1 rfl) hnone

/-- There is a block where a brace may end it and, with the names behind it, a semicolon follows. -/
theorem exists_isBlock_iff {keepBraces : Bool} {opened : Nat} :
    (∃ span, IsBlock keepBraces text opened span) ↔
      ∃ close, Closes text opened close ∧
        (keepBraces = true →
          ∃ semicolon, close < semicolon ∧ codeAt? semicolon text = some ';') := by
  constructor
  · rintro ⟨span, hspan⟩
    refine ⟨span.close, hspan.close.1, fun hkeep => ?_⟩
    obtain ⟨-, semicolon, hleast, -⟩ := hspan.kept hkeep
    exact ⟨semicolon, hleast.1⟩
  · rintro ⟨close, hclose, hsemicolon⟩
    have hfirst := isLeast_csInf (s := {n | Closes text opened n}) ⟨close, hclose⟩
    cases keepBraces with
    | false =>
      -- Behind the text there is no white space, so the body begins somewhere.
      have hpast : (charAt? (opened + 1 + byteSize text) text).any isAsciiSpace = false := by
        rw [charAt?_of_le (by omega)]
        rfl
      have hstart := isLeast_csInf
        (s := {n | opened < n ∧ (charAt? n text).any isAsciiSpace = false})
        ⟨_, by omega, hpast⟩
      exact ⟨⟨_, _, _⟩, hfirst, fun _ => ⟨hstart, rfl⟩, nofun⟩
    | true =>
      obtain ⟨semicolon, hlt, hcode⟩ := hsemicolon rfl
      have hnext := isLeast_csInf
        (s := {n | sInf {n | Closes text opened n} < n ∧ codeAt? n text = some ';'})
        ⟨semicolon, Nat.lt_of_le_of_lt (hfirst.2 hclose) hlt, hcode⟩
      exact ⟨⟨opened, _, _⟩, hfirst, nofun, fun _ => ⟨rfl, _, hnext, rfl⟩⟩

/-- The block of a brace outside all comments is found exactly if there is one, and otherwise the
reason is told why there is none, where comments are passed over and the ceiling lies behind the
text. White space may stand before the brace. -/
theorem extract_finds_block {options : Block.Options} {text : List Char} {start opened : Nat}
    (hskip : options.skipComments = true)
    (hceiling : byteSize text ≤ start + options.maxScan) (hle : start ≤ opened)
    (hspace : ∀ n, start ≤ n → n < opened → (charAt? n text).any isAsciiSpace = true)
    (hbrace : codeAt? opened text = some '{') :
    ((∃ span, extract options text start = .ok span) ↔
        ∃ close, Closes text opened close ∧ (options.keepBraces = true →
          ∃ semicolon, close < semicolon ∧ codeAt? semicolon text = some ';')) ∧
      (∀ span, extract options text start = .ok span ↔
        IsBlock options.keepBraces text opened span) ∧
      (∀ e, extract options text start = .error e ↔
        (∀ span, ¬IsBlock options.keepBraces text opened span) ∧ Fails text opened e) ∧
      ∀ span, extract options text start = .ok span → Lies span text := by
  obtain ⟨front, back, hkinds, rfl⟩ := kinds_of_codeAt? hbrace
  have hdrop : dropBytes? (byteSize (front.map Prod.fst)) text =
      some ('{' :: back.map Prod.fst) := by
    rw [← map_fst_kinds text, hkinds, List.map_append, dropBytes?_byteSize_append]
    rfl
  have hsettles := settles_extractAfterBrace hskip hkinds
  rw [← extract_of_space hceiling hle hspace hdrop] at hsettles
  rw [← exists_isBlock_iff]
  generalize extract options text start = found at hsettles
  -- What settles the search is told by its answer, and both answers rule the other out.
  cases hsettles with
  | found span isBlock lies =>
    refine ⟨iff_of_true ⟨span, rfl⟩ ⟨span, isBlock⟩, fun other => ⟨?_, ?_⟩, fun e => ?_, ?_⟩
    · rintro ⟨⟩
      exact isBlock
    · exact fun hother => congrArg _ (isBlock.unique hother)
    · exact iff_of_false nofun fun h => h.1 span isBlock
    · rintro other ⟨⟩
      exact lies
  | failed e fails noBlock =>
    refine ⟨iff_of_false nofun fun h => noBlock _ h.choose_spec, fun span => ?_,
      fun other => ⟨?_, ?_⟩, nofun⟩
    · exact iff_of_false nofun (noBlock span)
    · rintro ⟨⟩
      exact ⟨noBlock, fails⟩
    · exact fun hother => congrArg _ (fails.unique hother.2)

/-- A block with comments and another block in it, between comments. -/
def nested : List Char :=
  "/* \x7b */\n \x7b int a; // \x7d\n struct \x7b /*/ \x7d */ int b; ".toList ++
    "\x7d c; \x7d d /* ; */, *e; /*/".toList

/-- A block that a comment leaves open. -/
def leftOpen : List Char :=
  "\n\x7b int a; /*/ \x7d".toList

theorem extract_finds_block_nested :
    IsBlock false nested 9 ⟨11, 54, 54⟩ ∧ IsBlock true nested 9 ⟨9, 54, 70⟩ ∧
      Fails leftOpen 1 (.unterminatedComment 10) := by
  have hspace : ∀ n, 7 ≤ n → n < 9 → (charAt? n nested).any isAsciiSpace = true := by
    intro n hle hlt
    obtain rfl | rfl : n = 7 ∨ n = 8 := by omega
    · decide +kernel
    · decide +kernel
  have hspace' : ∀ n, 0 ≤ n → n < 1 → (charAt? n leftOpen).any isAsciiSpace = true := by
    intro n _ hlt
    obtain rfl : n = 0 := by omega
    decide +kernel
  have hbody := @extract_finds_block (.body 100) _ _ _ rfl (by decide +kernel) (by decide)
    hspace (by decide +kernel)
  have hnames := @extract_finds_block (.declaration 100) _ _ _ rfl (by decide +kernel)
    (by decide) hspace (by decide +kernel)
  have hopen := @extract_finds_block (.body 100) _ _ _ rfl (by decide +kernel) (by decide)
    hspace' (by decide +kernel)
  exact ⟨(hbody.2.1 _).1 (by decide +kernel), (hnames.2.1 _).1 (by decide +kernel),
    ((hopen.2.2.1 _).1 (by decide +kernel)).2⟩

end StructUnfold.Comment
