import StructUnfold.Expansion.Run
import StructUnfold.Proofs.Comment.Alike
import StructUnfold.Proofs.Comment.Extraction
import StructUnfold.Proofs.Source.Header

/-!
# Bodies in texts that hold the same code

Where two texts hold the same code, the block of a brace ends at the same place in both, and its body
without comments is the same. If there is no block, the same error says so in both texts, but for one
case: a comment that is left open in one of the texts may be closed at the end of the other one.

## Main definitions

* `Comment.SameLine`: two texts have the same line around an offset.
* `Block.Error.Alike`: errors of two texts that differ at most in whether a comment is left open.

## Main results

* `Comment.SameCode.nameAt?_eq`: the same name is read at the end of the same header.
* `Block.extractAfterBrace_alike`, `Block.extract_sameCode`: the block of a brace is the same.
* `Expansion.bodyIn_sameCode`: the body of a struct is the same.
-/

namespace StructUnfold

open Text

namespace Comment

/-- Two texts have the same characters on the line that holds an offset: at each place that no line
feed parts from the offset. -/
def SameLine (offset : Nat) (s t : List Char) : Prop :=
  ∀ n, (∀ m < max n offset, min n offset ≤ m → charAt? m s ≠ some '\n') →
    charAt? n s = charAt? n t

/-- Whether two texts have the same line is told by the offsets in them. -/
instance (offset : Nat) (s t : List Char) : Decidable (SameLine offset s t) :=
  decidable_of_iff (∀ n < max (byteSize s) (byteSize t),
      (∀ m < max n offset, min n offset ≤ m → charAt? m s ≠ some '\n') →
        charAt? n s = charAt? n t)
    ⟨fun h n hline => (Decidable.em (n < max (byteSize s) (byteSize t))).elim
      (fun hn => h n hn hline)
      fun hn => (charAt?_of_le (by omega)).trans (charAt?_of_le (by omega)).symm,
    fun h n _ => h n⟩

variable {s t : List Char} {offset : Nat}

theorem SameCode.symm (h : SameCode s t) : SameCode t s where
  size := h.size.symm
  spans := h.spans.symm
  code := fun n hn => (h.code n (by rwa [h.spans])).symm
  feeds := fun n => (h.feeds n).symm

theorem SameLine.symm (h : SameLine offset s t) (hfeeds : ∀ n, charAt? n s = some '\n' ↔
    charAt? n t = some '\n') : SameLine offset t s :=
  fun n hline => (h n fun m hm hle hfeed => hline m hm hle ((hfeeds m).1 hfeed)).symm

/-! ### The line of a header -/

/-- A part of a text, offset by offset. -/
theorem filterMap_charAt? (before part behind : List Char) :
    (List.range' (byteSize before) (byteSize part)).filterMap
      (fun n => charAt? n (before ++ (part ++ behind))) = part := by
  induction part generalizing before with
  | nil => rfl
  | cons c part ih =>
    have htext : before ++ (c :: part ++ behind) = (before ++ [c]) ++ (part ++ behind) := by simp
    obtain ⟨k, hk⟩ := Nat.exists_eq_succ_of_ne_zero (Nat.pos_iff_ne_zero.1 c.utf8Size_pos)
    have hinside : (List.range' (byteSize before + 1) k).filterMap
        (fun n => charAt? n (before ++ c :: (part ++ behind))) = [] := by
      refine List.filterMap_eq_nil_iff.2 fun n hn => ?_
      rw [List.mem_range'_1] at hn
      obtain ⟨i, rfl⟩ := Nat.exists_eq_add_of_le (Nat.le_of_succ_le hn.1)
      exact charAt?_of_lt before _ (by omega) (by omega)
    have hrest := ih (before ++ [c])
    rw [← htext, byteSize_concat] at hrest
    rw [byteSize_cons, ← List.range'_append_1, List.filterMap_append, hrest, hk, List.range'_succ,
      List.filterMap_cons, List.cons_append, charAt?_append_cons, hinside]
    rfl

/-- A part of a text is found in every text that reads the same there. -/
theorem exists_eq_append_of_charAt?_eq {before part behind front back : List Char}
    (h : ∀ n, byteSize before ≤ n → n < byteSize before + byteSize part →
      charAt? n (before ++ (part ++ behind)) = charAt? n (front ++ back))
    (hsize : byteSize front = byteSize before + byteSize part) :
    ∃ start, front = start ++ part := by
  -- The text is read offset by offset up to the end of the part.
  have hfront := filterMap_charAt? [] front back
  rw [List.nil_append, byteSize_nil, hsize, ← List.range'_append_1, List.filterMap_append,
    Nat.zero_add] at hfront
  have hpart : (List.range' (byteSize before) (byteSize part)).filterMap
      (fun n => charAt? n (front ++ back)) = part := by
    refine Eq.trans (List.filterMap_congr fun n hn => ?_) (filterMap_charAt? before part behind)
    rw [List.mem_range'_1] at hn
    exact (h n hn.1 hn.2).symm
  rw [hpart] at hfront
  exact ⟨_, hfront.symm⟩

/-- A header that stands in a text stands in every text with the same line and the line feeds at the
same places. -/
theorem SameLine.standsAt (h : SameLine offset s t)
    (hfeeds : ∀ n, charAt? n s = some '\n' ↔ charAt? n t = some '\n') {header : Header}
    (hstands : Header.StandsAt s offset header) : Header.StandsAt t offset header := by
  obtain ⟨before, head, ⟨hends, hhead, after, rfl⟩, rfl, hparse⟩ := hstands
  rw [byteSize_append] at h
  -- On the line of the brace there is no line feed up to the brace.
  have hsame : ∀ n, byteSize before ≤ n → n ≤ byteSize before + byteSize head →
      charAt? n (before ++ (head ++ '{' :: after)) = charAt? n t := by
    intro n hle hle'
    refine h n fun m hm hmin hfeed => hhead.1 ?_
    rw [← filterMap_charAt? before head ('{' :: after)]
    exact List.mem_filterMap.2 ⟨m, List.mem_range'_1.2 ⟨by omega, by omega⟩, hfeed⟩
  have hbrace : charAt? (byteSize before + byteSize head) t = some '{' := by
    rw [← hsame _ (by omega) (Nat.le_refl _), ← byteSize_append, ← List.append_assoc]
    exact charAt?_append_cons _ _ _
  obtain ⟨front, after', rfl, hsize⟩ := exists_of_charAt? hbrace
  -- It is left to find the line before the brace of the other text.
  suffices hfront : ∃ start, Header.EndsLine start ∧ front = start ++ head by
    obtain ⟨start, hstart, rfl⟩ := hfront
    refine ⟨start, head, ⟨hstart, hhead, after', List.append_assoc _ _ _⟩, ?_, hparse⟩
    rw [byteSize_append, hsize]
  rcases List.eq_nil_or_concat before with rfl | ⟨u, d, rfl⟩
  · -- The line is the first one of both texts.
    obtain ⟨start, rfl⟩ := exists_eq_append_of_charAt?_eq
      (fun n hle hlt => hsame n hle (Nat.le_of_lt hlt)) hsize.symm
    rw [byteSize_nil, Nat.zero_add, byteSize_append] at hsize
    obtain rfl : start = [] := byteSize_eq_zero_iff.1 (by omega)
    exact ⟨[], Header.endsLine_nil, rfl⟩
  · -- A line feed stands before the line in both texts.
    rw [List.concat_eq_append] at hends hfeeds hsame hsize
    obtain rfl : d = '\n' := hends d (by simp)
    have hone : '\n'.utf8Size = 1 := rfl
    rw [byteSize_concat, hone] at hsame hsize
    have htext : (u ++ ['\n']) ++ (head ++ '{' :: after) = u ++ ('\n' :: head ++ '{' :: after) := by
      simp
    rw [htext] at hsame hfeeds
    have hfeed : charAt? (byteSize u) (u ++ ('\n' :: head ++ '{' :: after)) = some '\n' :=
      charAt?_append_cons u '\n' _
    have hline : ∀ n, byteSize u ≤ n → n < byteSize u + byteSize ('\n' :: head) →
        charAt? n (u ++ ('\n' :: head ++ '{' :: after)) = charAt? n (front ++ '{' :: after') := by
      intro n hle hlt
      rw [byteSize_newline_cons] at hlt
      rcases Nat.eq_or_lt_of_le hle with rfl | hlt'
      · rw [hfeed, (hfeeds _).1 hfeed]
      · exact hsame n hlt' (by omega)
    obtain ⟨start, rfl⟩ := exists_eq_append_of_charAt?_eq hline (by
      rw [byteSize_newline_cons]
      omega)
    exact ⟨start ++ ['\n'], by simp, by simp⟩

/-- A header ends in a brace. -/
theorem charAt?_of_nameAt? {text name : List Char} (h : Header.nameAt? text offset = some name) :
    charAt? offset text = some '{' := by
  obtain ⟨header, ⟨before, head, ⟨-, -, after, rfl⟩, rfl, -⟩, -⟩ := Header.nameAt?_eq_some_iff.1 h
  rw [← List.append_assoc]
  exact charAt?_append_cons _ _ _

/-- The same name is read at an offset in texts that hold the same code, if the line of the brace is
the same. -/
theorem SameCode.nameAt?_eq (h : SameCode s t) (houtside : inSpans (Comment.spans s) offset = false)
    (hline : charAt? offset s = some '{' → SameLine offset s t) :
    Header.nameAt? s offset = Header.nameAt? t offset := by
  have hchar := h.code offset houtside
  ext name
  constructor
  · intro hname
    obtain ⟨header, hstands, heq⟩ := Header.nameAt?_eq_some_iff.1 hname
    have hsame := hline (charAt?_of_nameAt? hname)
    exact Header.nameAt?_eq_some_iff.2 ⟨header, hsame.standsAt h.feeds hstands, heq⟩
  · intro hname
    obtain ⟨header, hstands, heq⟩ := Header.nameAt?_eq_some_iff.1 hname
    have hsame := (hline (hchar.trans (charAt?_of_nameAt? hname))).symm h.feeds
    exact Header.nameAt?_eq_some_iff.2 ⟨header, hsame.standsAt h.symm.feeds hstands, heq⟩

/-! ### What stands at an offset -/

/-- Code is read as code at the start of a text. -/
theorem Mode.code_step_of_step {mode mode' : Mode} {c : Char} {next : Option Char}
    (h : mode.step c next = (.code, mode')) : Mode.code.step c next = (.code, .code) := by
  cases mode with
  | code =>
    obtain rfl := Mode.eq_code_of_step h
    exact h
  | line =>
    -- The only code behind a line comment is the line feed that ends it.
    rw [Mode.step] at h
    split at h
    · rename_i hc
      subst hc
      exact step_of_ne_slash (by decide) next
    · cases h
  | block =>
    rw [Mode.step] at h
    split at h <;> cases h
  | _ => cases h

/-- From a character of code on the rest of a text is read like a text of its own. -/
theorem cons_eq_kinds_of_code {mode : Mode} {front back : List (Char × Kind)} {c : Char}
    (h : kindsFrom mode s = front ++ (c, .code) :: back) :
    (c, .code) :: back = kinds (c :: back.map Prod.fst) := by
  obtain ⟨before, behind, hstep, hback⟩ := exists_step_of_kindsFrom h
  obtain rfl := Mode.eq_code_of_step hstep
  rw [kinds, kindsFrom, Mode.code_step_of_step hstep, ← hback]

/-- Where code stands in one of two texts that hold the same code, the texts go on alike. -/
theorem SameCode.exists_alike (h : SameCode s t)
    (houtside : inSpans (Comment.spans s) offset = false) {c : Char}
    (hc : charAt? offset s = some c) :
    ∃ front m front' n, kinds s = front ++ m ∧ kinds t = front' ++ n ∧
      byteSize (front.map Prod.fst) = offset ∧ byteSize (front'.map Prod.fst) = offset ∧
      m = kinds (m.map Prod.fst) ∧ n = kinds (n.map Prod.fst) ∧ Alike m n := by
  have hcode : codeAt? offset s = some c := by
    rw [codeAt?, houtside]
    exact hc
  have hcode' : codeAt? offset t = some c := by
    rw [codeAt?, ← h.spans, houtside, ← hc]
    exact (h.code offset houtside).symm
  obtain ⟨front, back, hs, hsize⟩ := kinds_of_codeAt? hcode
  obtain ⟨front', back', ht, hsize'⟩ := kinds_of_codeAt? hcode'
  refine ⟨front, _, front', _, hs, ht, hsize.symm, hsize'.symm, ?_, ?_, ?_⟩
  · exact cons_eq_kinds_of_code hs
  · exact cons_eq_kinds_of_code ht
  · exact h.alike hs ht (hsize.symm.trans hsize')

end Comment

namespace Block

/-- Errors of two texts that differ at most in whether a comment is left open: a text in which one is
tells so, and the other one tells that the block is not closed. -/
inductive Error.Alike (s t : List Char) : Error → Error → Prop where
  /-- The same error. -/
  | same (e : Error) : Alike s t e e
  /-- A comment is left open in the first text alone. -/
  | first {start brace : Nat} (opened : Comment.Unclosed s start)
    (closed : ∀ n, ¬Comment.Unclosed t n) :
    Alike s t (.unterminatedComment start) (.unbalanced brace)
  /-- A comment is left open in the second text alone. -/
  | second {start brace : Nat} (opened : Comment.Unclosed t start)
    (closed : ∀ n, ¬Comment.Unclosed s n) :
    Alike s t (.unbalanced brace) (.unterminatedComment start)

/-- Errors that are alike are the same where a comment is left open in both texts or in none. -/
theorem Error.Alike.eq {s t : List Char} {e e' : Error} (h : e.Alike s t e')
    (hopen : (∃ start, Comment.Unclosed s start) ↔ ∃ start, Comment.Unclosed t start) :
    e = e' := by
  cases h with
  | same => rfl
  | first opened closed =>
    obtain ⟨start, hstart⟩ := hopen.1 ⟨_, opened⟩
    exact absurd hstart (closed start)
  | second opened closed =>
    obtain ⟨start, hstart⟩ := hopen.2 ⟨_, opened⟩
    exact absurd hstart (closed start)

/-- Attempts to extract the body of a block from two texts that come to the same: a body that is the
same without its comments, or errors. -/
inductive SameBody (s t : List Char) : Except Error Span → Except Error Span → Prop where
  /-- The body is found. -/
  | found (span : Span) (same : Comment.strip (span.text s) = Comment.strip (span.text t)) :
    SameBody s t (.ok span) (.ok span)
  /-- There is none. -/
  | failed {e e' : Error} (alike : e.Alike s t e') : SameBody s t (.error e) (.error e')

variable {s t : List Char}

open Comment

/-- What is left open behind a brace of code is what is left open in the text. -/
theorem unclosed_iff_opensBlock_behind {front back : List (Char × Kind)}
    (h : kinds s = front ++ ('{', .code) :: back) {start : Nat} :
    Unclosed s start ↔ OpensBlock back (byteSize (front.map Prod.fst) + 1) start := by
  rw [← unclosed_behind_iff h rfl]
  exact ⟨fun hopen => ⟨hopen.lt_of_codeAt? (codeAt?_of_kinds h), hopen⟩, And.right⟩

/-- What stands between two braces of code is read like a text of its own. -/
theorem inner_eq_kinds {front inner rest : List (Char × Kind)}
    (h : kinds s = front ++ ('{', .code) :: (inner ++ ('}', .code) :: rest)) :
    inner = kinds (inner.map Prod.fst) := by
  have hinner := eq_kinds_of_code h
  rw [List.map_append, List.map_cons] at hinner
  exact kindsFrom_eq_of_code hinner.symm rfl

/-- The text of a body between two braces. -/
theorem text_inner {front inner rest : List (Char × Kind)}
    (h : kinds s = front ++ ('{', .code) :: (inner ++ ('}', .code) :: rest)) :
    Span.text ⟨byteSize (front.map Prod.fst) + 1 +
        (((inner ++ ('}', .code) :: rest).map Prod.fst).takeWhile isAsciiSpace).length,
      byteSize (front.map Prod.fst) + 1 + byteSize (inner.map Prod.fst),
      byteSize (front.map Prod.fst) + 1 + byteSize (inner.map Prod.fst)⟩ s =
    (inner.map Prod.fst).dropWhile isAsciiSpace := by
  have htext : s = front.map Prod.fst ++
      '{' :: (inner.map Prod.fst ++ '}' :: rest.map Prod.fst) := by
    rw [← map_fst_kinds s, h]
    simp
  rw [htext, List.map_append, List.map_cons]
  exact text_body _ _ _

/-- Behind a brace in texts that hold the same code the same body is found, or none. -/
theorem extractAfterBrace_alike {front front' m n : List (Char × Kind)}
    (hs : kinds s = front ++ ('{', .code) :: m) (ht : kinds t = front' ++ ('{', .code) :: n)
    (hsize : byteSize (front.map Prod.fst) = byteSize (front'.map Prod.fst)) (halike : Alike m n)
    (maxScan : Nat) :
    SameBody s t
      (extractAfterBrace (.body maxScan) (byteSize (front.map Prod.fst) + 1) (m.map Prod.fst))
      (extractAfterBrace (.body maxScan) (byteSize (front.map Prod.fst) + 1)
        (n.map Prod.fst)) := by
  have hm := eq_kinds_of_code hs
  have hn := eq_kinds_of_code ht
  have hspaces := halike.takeWhile_eq hm hn
  have hstar : ∀ depth, nextDepth depth '*' = some depth := fun _ => rfl
  have hfeed : ∀ depth, nextDepth depth '\n' = some depth := fun _ => rfl
  rw [extractAfterBrace, extractAfterBrace]
  simp only [Options.body, Bool.false_eq_true, if_false]
  rcases halike.seek hm hn hstar hfeed 0 (byteSize (front.map Prod.fst) + 1) with
    ⟨u, c, u', v, d, v', rfl, rfl, huv, ⟨last, hlast⟩, ⟨last', hlast'⟩, hseek, hseek'⟩ |
    ⟨e, e', hseek, hseek'⟩
  · obtain rfl := eq_of_nextDepth_eq_none hlast
    obtain rfl := eq_of_nextDepth_eq_none hlast'
    -- The braces stand at the same places in both texts, so the bodies have one span.
    have htext := text_inner ht
    rw [← hsize, ← hspaces, ← huv.byteSize_eq] at htext
    rw [hseek, hseek', ← hspaces]
    apply SameBody.found
    rw [text_inner hs, htext]
    exact huv.strip_eq (inner_eq_kinds hs) (inner_eq_kinds ht)
  · -- No brace closes the block. Each search tells whether a comment is left open behind the brace.
    have hend := ends_seek_behind hm nextDepth 0 (byteSize (front.map Prod.fst) + 1)
    have hend' := ends_seek_behind hn nextDepth 0 (byteSize (front.map Prod.fst) + 1)
    rw [hseek] at hend
    rw [hseek'] at hend'
    rw [hseek, hseek']
    have hopens : ∀ start, e = some start ↔ Unclosed s start := fun start =>
      (hend.left_iff start).trans (unclosed_iff_opensBlock_behind hs).symm
    have hopens' : ∀ start, e' = some start ↔ Unclosed t start := by
      intro start
      rw [hend'.left_iff, unclosed_iff_opensBlock_behind ht, hsize]
    cases e with
    | none =>
      have hclosed : ∀ n, ¬Unclosed s n := fun n hn => by cases (hopens n).2 hn
      cases e' with
      | none => exact .failed (.same _)
      | some start => exact .failed (.second ((hopens' start).1 rfl) hclosed)
    | some start =>
      cases e' with
      | none =>
        have hclosed : ∀ n, ¬Unclosed t n := fun n hn => by cases (hopens' n).2 hn
        exact .failed (.first ((hopens start).1 rfl) hclosed)
      | some start' =>
        obtain rfl :=
          halike.start_eq hm hn ((hend.left_iff start).1 rfl) ((hend'.left_iff start').1 rfl)
        exact .failed (.same _)

/-! ### The block at an offset -/

/-- Where nothing stands at an offset, there is no block. -/
theorem extract_of_charAt?_eq_none (options : Options) {offset : Nat}
    (h : charAt? offset s = none) :
    extract options s offset =
      .error (if offset = byteSize s then .missingOpenBrace offset else .invalidStart offset) := by
  cases hdrop : dropBytes? offset s with
  | none =>
    -- The end of a text is a place in it.
    have hne : offset ≠ byteSize s := by
      rintro rfl
      have hend := dropBytes?_byteSize_append s []
      rw [List.append_nil, hdrop] at hend
      cases hend
    rw [if_neg hne, extract, hdrop]
  | some rest =>
    rw [charAt?, hdrop] at h
    obtain rfl := List.head?_eq_none_iff.1 h
    obtain ⟨before, rfl, rfl⟩ := dropBytes?_eq_some_iff.1 hdrop
    rw [List.append_nil] at hdrop ⊢
    rw [if_pos rfl]
    exact extract_of_not_brace options hdrop (by simp)

/-- What an attempt comes to under a ceiling in a text of some size. -/
def below (limit size : Nat) (reached : Error) : Except Error Span → Except Error Span
  | .ok span => if max (span.close + 1) span.stop ≤ limit then .ok span else .error reached
  | .error e => .error (if limit < size then reached else e)

/-- A ceiling is reached in both texts or in none. -/
theorem SameBody.below {found found' : Except Error Span} (h : SameBody s t found found')
    (limit size : Nat) (reached : Error) :
    SameBody s t (Block.below limit size reached found) (Block.below limit size reached found') := by
  cases h with
  | found span same =>
    rw [Block.below]
    split
    · exact .found span same
    · exact .failed (.same _)
  | failed halike =>
    rw [Block.below, Block.below]
    split
    · exact .failed (.same _)
    · exact .failed halike

/-- At an offset outside comments the same body is found in texts that hold the same code, or
none. -/
theorem extract_sameCode {offset : Nat} (h : SameCode s t)
    (houtside : inSpans (spans s) offset = false) (maxScan : Nat) :
    SameBody s t (extract (.body maxScan) s offset) (extract (.body maxScan) t offset) := by
  cases hchar : charAt? offset s with
  | none =>
    have hchar' : charAt? offset t = none := (h.code offset houtside).symm.trans hchar
    rw [extract_of_charAt?_eq_none _ hchar, extract_of_charAt?_eq_none _ hchar', h.size]
    exact .failed (.same _)
  | some c =>
    obtain ⟨front, m, front', n, hs, ht, rfl, hsize, hm, hn, halike⟩ :=
      h.exists_alike houtside hchar
    have hdrop : dropBytes? (byteSize (front.map Prod.fst)) s = some (m.map Prod.fst) := by
      rw [← map_fst_kinds s, hs, List.map_append, dropBytes?_byteSize_append]
    have hdrop' : dropBytes? (byteSize (front.map Prod.fst)) t = some (n.map Prod.fst) := by
      rw [← map_fst_kinds t, ht, List.map_append, ← hsize, dropBytes?_byteSize_append]
    -- The same white space follows in both texts, and then a brace in both or in none.
    obtain ⟨spaces, m', n', rfl, rfl, hrest, hm', hn', hall, hhead, hhead'⟩ :=
      halike.exists_spaces hm hn
    obtain ⟨htake, hbehind⟩ := cut_spaces hall hhead
    obtain ⟨htake', hbehind'⟩ := cut_spaces hall hhead'
    by_cases hbrace : (m'.map Prod.fst).head? = some '{'
    · obtain ⟨b, b', rfl, rfl, hbody⟩ := hrest.exists_brace hm' hbrace
      have hlength : byteSize (front.map Prod.fst) + (spaces.map Prod.fst).length =
          byteSize ((front ++ spaces).map Prod.fst) := by
        have hspaces : ∀ c ∈ spaces.map Prod.fst, isAsciiSpace c = true :=
          List.forall_mem_map.2 hall
        rw [List.map_append, byteSize_append, byteSize_of_isAsciiSpace hspaces]
      have hlength' : byteSize ((front ++ spaces).map Prod.fst) =
          byteSize ((front' ++ spaces).map Prod.fst) := by
        rw [List.map_append, byteSize_append, ← hsize, ← byteSize_append, ← List.map_append]
      rw [← List.append_assoc] at hs ht
      have hfound := extractAfterBrace_alike hs ht hlength' hbody maxScan
      rw [extract_of_brace_behind _ hdrop hbehind, extract_of_brace_behind _ hdrop' hbehind', htake,
        htake', hlength, ← h.size]
      split
      · exact .failed (.same _)
      · exact hfound.below _ _ _
    · have hnone : (n'.map Prod.fst).head? ≠ some '{' := by
        intro hbrace'
        obtain ⟨_, b, -, rfl, -⟩ := hrest.symm.exists_brace hn' hbrace'
        exact hbrace rfl
      rw [extract_of_not_brace _ hdrop (hbehind ▸ hbrace),
        extract_of_not_brace _ hdrop' (hbehind' ▸ hnone)]
      exact .failed (.same _)

end Block

namespace Expansion

open Comment

/-- The body of a struct that is read from texts that hold the same code: the same body, or errors of
both texts. -/
theorem bodyIn_sameCode {s t : List Char} {offset : Nat} (h : SameCode s t)
    (houtside : inSpans (spans s) offset = false)
    (hline : charAt? offset s = some '{' → SameLine offset s t) (maxScan : Nat) (root : String) :
    (∃ body, bodyIn maxScan root offset s = .ok body ∧ bodyIn maxScan root offset t = .ok body) ∨
      ∃ e e', bodyIn maxScan root offset s = .error e ∧
        bodyIn maxScan root offset t = .error e' ∧ e.Alike s t e' := by
  have hextract := Block.extract_sameCode h houtside maxScan
  rw [bodyIn, bodyIn, ← h.nameAt?_eq houtside hline]
  generalize Block.extract (.body maxScan) s offset = found at hextract ⊢
  generalize Block.extract (.body maxScan) t offset = found' at hextract ⊢
  cases hextract with
  | found span same =>
    dsimp only
    rw [← same]
    split
    · exact .inl ⟨_, rfl, rfl⟩
    · exact .inr ⟨_, _, rfl, rfl, .same _⟩
  | failed halike => exact .inr ⟨_, _, rfl, rfl, halike⟩

end Expansion

end StructUnfold
