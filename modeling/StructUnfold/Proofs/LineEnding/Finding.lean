import Mathlib.Data.List.Basic
import StructUnfold.Expansion.Declaration
import StructUnfold.Proofs.Comment.Statements
import StructUnfold.Proofs.LineEnding.Block
import StructUnfold.Proofs.LineEnding.Text
import StructUnfold.Proofs.Source.HeaderWalk
import StructUnfold.Scan.Finding
import StructUnfold.Source.Declarator

/-!
# Findings in lines with carriage returns

A list of declarators and a body are cut at characters that end no line, and only the words of the
pieces count. Headers and alias statements stand on one line each, before the carriage return. What
is found in a text is found in its other form as well, in the same order, with the offsets moved.

* `Declarator.ignoresReturns_parseList`: a list of declarators is read alike.
* `Declaration.ignoresReturns_all`: so are the declarations of a body.
* `Header.all_crlf`, `AliasStatement.all_crlf`: headers and statements.
* `Relocation`, `Finding.relocate`: findings with other offsets.
* `Scan.findings_crlf`: what a text holds.
-/

namespace StructUnfold

/-! ### Declarators and declarations -/

open Text

namespace Declarator

theorem ignoresReturns_tokens : IgnoresReturns tokens :=
  ((ignoresReturns_words.comp (List.map Token.word)).splitOn (x := '*') (by decide)
    (by decide)).comp (List.intercalate [Token.star])

/-- A declarator is told by its tokens. -/
theorem ignoresReturns_parse? : IgnoresReturns parse? := by
  intro s t
  rw [parse?, parse?, ignoresReturns_tokens]

theorem ignoresReturns_parseList : IgnoresReturns parseList := by
  have hpieces : IgnoresReturns fun s => (s.splitOn ',').filterMap parse? := by
    have h := (ignoresReturns_parse?.splitOn (x := ',') (by decide) (by decide)).comp
      (List.filterMap id)
    simpa only [List.filterMap_map, Function.id_comp] using h
  exact (hpieces.dropEndWhile (p := (· == ';')) (by decide)).trim

end Declarator

namespace Declaration

/-- The words of a piece depend on what has been read of it only through the words it begins
with. -/
theorem map_words_piecesFrom {front back : List Char}
    (h : ∀ t, words (front.reverse ++ t) = words (back.reverse ++ t)) (depth : Nat)
    (s : List Char) :
    (piecesFrom depth front s).map words = (piecesFrom depth back s).map words := by
  induction s generalizing depth front back with
  | nil => simpa [piecesFrom] using h []
  | cons c s ih =>
    have hlonger : ∀ t, words ((c :: front).reverse ++ t) = words ((c :: back).reverse ++ t) := by
      intro t
      simpa using h (c :: t)
    have hend := hlonger []
    rw [List.append_nil, List.append_nil] at hend
    rw [piecesFrom, piecesFrom]
    split
    · exact ih hlonger _
    · split
      · exact ih hlonger _
      · split
        · rw [List.map_cons, List.map_cons, hend]
        · exact ih hlonger _

theorem ignoresReturns_pieces : IgnoresReturns fun s => (pieces s).map words := by
  intro s t
  -- Up to the line feed both texts are cut alike, and `acc` has been read of the present piece.
  have hfrom : ∀ depth acc, (piecesFrom depth acc (s ++ '\r' :: '\n' :: t)).map words =
      (piecesFrom depth acc (s ++ '\n' :: t)).map words := by
    induction s with
    | nil =>
      intro depth acc
      have hreturn : piecesFrom depth acc ('\r' :: '\n' :: t) =
          piecesFrom depth ('\n' :: '\r' :: acc) t := by simp [piecesFrom]
      have hfeed : piecesFrom depth acc ('\n' :: t) = piecesFrom depth ('\n' :: acc) t := by
        simp [piecesFrom]
      rw [List.nil_append, List.nil_append, hreturn, hfeed]
      refine map_words_piecesFrom (fun u => ?_) depth t
      simpa using ignoresReturns_words acc.reverse u
    | cons c s ih =>
      intro depth acc
      rw [List.cons_append, List.cons_append, piecesFrom, piecesFrom]
      split
      · exact ih _ _
      · split
        · exact ih _ _
        · split
          · rw [List.map_cons, List.map_cons, ih]
          · exact ih _ _
  exact hfrom 0 []

theorem ignoresReturns_all : IgnoresReturns all := by
  have hall : ∀ s, all s = (((pieces s).map words).map fun ws =>
      accessLabels.foldl (fun words label => dropLabel label words) ws).filter
        fun d => !isVoid d := by
    intro s
    rw [all, List.map_map]
    rfl
  intro s t
  rw [hall, hall]
  exact congrArg _ (congrArg _ (ignoresReturns_pieces s t))

end Declaration

/-! ### Headers, statements and findings -/

namespace Header

/-- A carriage return ends no header, and a line feed begins a new line in any case. -/
theorem walk_return (line : Option (List Char)) (pos : Nat) (s : List Char) :
    walk line pos ('\r' :: '\n' :: s) = walk (some []) (pos + 1 + 1) s := by
  cases line <;> rfl

theorem walk_feed (line : Option (List Char)) (pos : Nat) (s : List Char) :
    walk line pos ('\n' :: s) = walk (some []) (pos + 1) s := by
  cases line <;> rfl

/-- The same headers are found on a walk over the rest of a text in both forms. -/
theorem walk_crlf (line : Option (List Char)) (before s : List Char) :
    walk line (byteSize (crlf before)) (crlf s) =
      (walk line (byteSize before) s).map fun found =>
        (crlfOffset (before ++ s) found.1, found.2) := by
  induction s generalizing line before with
  | nil => rfl
  | cons c s ih =>
    have htext : (before ++ [c]) ++ s = before ++ c :: s := by simp
    have hrest := fun line => ih line (before ++ [c])
    rw [htext, byteSize_concat] at hrest
    by_cases hc : c = '\n'
    · subst hc
      rw [crlf_feed_cons, walk_return, walk_feed, ← byteSize_crlf_concat_feed, hrest]
      rfl
    · rw [byteSize_crlf_concat_of_ne before hc] at hrest
      rw [crlf_cons_of_ne hc, walk, walk, hrest, List.map_append]
      -- The header that ends here is found at the place of this character.
      refine congrArg (fun found => found ++ _) ?_
      cases endsAt? line c with
      | none => rfl
      | some header => simp [crlfOffset_append]

/-- The same headers stand in both forms of a text. -/
theorem all_crlf (text : List Char) :
    all (crlf text) = (all text).map fun found => (crlfOffset text found.1, found.2) := by
  rw [all_eq_walk, all_eq_walk]
  exact walk_crlf (some []) [] text

end Header

namespace AliasStatement

/-- A statement stands on one line. -/
theorem feed_not_mem_ofParts {gap body : List Char} (hgap : ∀ c ∈ gap, isBlank c = true)
    (hbody : ∀ c ∈ body, isBodyChar c = true) : '\n' ∉ ofParts gap body := by
  refine not_mem_ofParts (fun hmem => ?_) (fun hmem => ?_) (by decide) (by decide)
  · cases hgap _ hmem
  · cases hbody _ hmem

/-- Where no statement begins in a text none begins in its other form. -/
theorem startOf?_crlf_eq_none {s : List Char} (h : startOf? s = none) :
    startOf? (crlf s) = none := by
  -- A statement in the other form would stand on one line, so it would stand in the text as well.
  refine Option.eq_none_iff_forall_ne_some.2 fun found hfound => ?_
  obtain ⟨gap, rest, hs, hgap, hblank, hbody, hhead⟩ := exists_of_startOf? hfound
  have hline := feed_not_mem_ofParts hblank hbody
  obtain ⟨front, hparts⟩ := exists_ofParts_eq gap found.2
  have hs' : crlf s = front ++ ';' :: rest := by
    rw [hs, hparts, List.append_assoc]
    rfl
  rw [hparts, List.mem_append, not_or] at hline
  obtain ⟨rest', rfl⟩ := exists_of_crlf_eq_append hline.1 (by decide) (by decide) hs'
  have hstart := startOf?_ofParts hgap hblank hbody hhead rest'
  rw [hparts, List.append_assoc] at hstart
  rw [← List.singleton_append, hstart] at h
  cases h

/-- Where no statement begins in a text, the search goes on behind the same character in its other
form. -/
theorem ofTextFrom_crlf_cons_of_eq_none {previous : Option Char} {c : Char} {s : List Char}
    (h : (if previous.any isWordChar then none else startOf? (c :: s)) = none)
    (before : List Char) :
    ofTextFrom previous 0 (byteSize (crlf before)) (crlf (c :: s)) =
      ofTextFrom (some c) 0 (byteSize (crlf (before ++ [c]))) (crlf s) := by
  by_cases hc : c = '\n'
  · subst hc
    have hinert := (inert_of_not_isIdentChar (c := '\r') (by decide)).append
      (inert_of_not_isIdentChar (c := '\n') (by decide))
    rw [byteSize_crlf_concat_feed]
    exact hinert previous (byteSize (crlf before)) (crlf s)
  · have hother : (if previous.any isWordChar then none else startOf? (c :: crlf s)) = none := by
      rw [← crlf_cons_of_ne hc]
      split at h
      · rename_i hword
        exact if_pos hword
      · rename_i hword
        exact (if_neg hword).trans (startOf?_crlf_eq_none h)
    rw [crlf_cons_of_ne hc, ofTextFrom_cons_of_eq_none hother, byteSize_crlf_concat_of_ne before hc]

/-- The same statements are found in the rest of a text in both forms. -/
theorem ofTextFrom_crlf (previous : Option Char) (before s : List Char) :
    ofTextFrom previous 0 (byteSize (crlf before)) (crlf s) =
      (ofTextFrom previous 0 (byteSize before) s).map fun st =>
        { st with offset := crlfOffset (before ++ s) st.offset } := by
  -- A statement is passed over as a whole, so the rest is shorter by more than one character.
  induction hlength : s.length using Nat.strongRecOn generalizing previous before s with
  | ind n ih =>
    cases s with
    | nil => rfl
    | cons c s =>
      cases hstart : (if previous.any isWordChar then none else startOf? (c :: s)) with
      | none =>
        have hrest := ih s.length (by rw [← hlength, List.length_cons]; omega) (some c)
          (before ++ [c]) s rfl
        have htext : (before ++ [c]) ++ s = before ++ c :: s := by simp
        rw [htext, byteSize_concat] at hrest
        rw [ofTextFrom_crlf_cons_of_eq_none hstart, ofTextFrom_cons_of_eq_none hstart, hrest]
      | some found =>
        split at hstart
        · cases hstart
        rename_i hprevious
        obtain ⟨gap, rest, hs, hgap, hblank, hbody, hhead⟩ := exists_of_startOf? hstart
        have hword : previous.any isWordChar = false := by simpa using hprevious
        have hline := crlf_eq_self (feed_not_mem_ofParts hblank hbody)
        have hshorter : rest.length < n := by
          obtain ⟨front, hparts⟩ := exists_ofParts_eq gap found.2
          rw [← hlength, hs, hparts]
          simp only [List.length_append, List.length_cons, List.length_nil]
          omega
        have hbehind := ih rest.length hshorter (some ';') (before ++ ofParts gap found.2) rest rfl
        rw [crlf_append, hline, byteSize_append, byteSize_append, List.append_assoc] at hbehind
        rw [hs, crlf_append, hline, ofTextFrom_ofParts hword hgap hblank hbody hhead,
          ofTextFrom_ofParts hword hgap hblank hbody hhead, hbehind, List.map_cons,
          crlfOffset_append]

/-- The same statements stand in both forms of a text. -/
theorem all_crlf (text : List Char) :
    all (crlf text) = (all text).map fun st =>
      { st with offset := crlfOffset text st.offset } :=
  ofTextFrom_crlf none [] text

end AliasStatement

/-! ### Findings with other offsets -/

/-- Where the offsets in each file come to lie. -/
abbrev Relocation := Path → Nat → Nat

/-- The definition with another offset. -/
def StructDefinition.relocate (f : Relocation) (d : StructDefinition) : StructDefinition :=
  { d with offset := f d.path d.offset }

/-- The entry with another offset. -/
def UnparseableStruct.relocate (f : Relocation) (u : UnparseableStruct) : UnparseableStruct :=
  { u with offset := f u.path u.offset }

/-- The problem with other offsets. It is of the same kind and in the same file. -/
def Problem.relocate (f : Relocation) : Problem → Problem
  | .malformedBlock path reason => .malformedBlock path (reason.mapOffsets (f path))
  | p => p

namespace Scan

/-- The finding with other offsets. -/
def Finding.relocate (f : Relocation) : Finding → Finding
  | .struct name d => .struct name (d.relocate f)
  | .aliased name a => .aliased name a
  | .unparseable name u => .unparseable name (u.relocate f)
  | .problem p => .problem (p.relocate f)

variable {f : Relocation} {path : Path} {text : List Char} {maxScan : Nat}

/-- Aliases have no offsets. -/
theorem map_relocate_structAliases (f : Relocation) (path : Path) (target : String)
    (declarators : List Declarator) :
    (structAliases path target declarators).map (Finding.relocate f) =
      structAliases path target declarators := by
  rw [structAliases, List.map_map]
  rfl

theorem map_relocate_statementFindings (f : Relocation) (path : Path) (st : AliasStatement) :
    (statementFindings path st).map (Finding.relocate f) = statementFindings path st := by
  rw [statementFindings]
  split
  · exact map_relocate_structAliases f path _ _
  · rfl

theorem map_relocate_ownFindings (f : Relocation) (path : Path) (brace : Nat)
    (declared : Header.Declared) :
    (ownFindings path brace declared).map (Finding.relocate f) =
      ownFindings path (f path brace) declared := by
  rw [ownFindings, ownFindings]
  split
  · rfl
  · split <;> rfl

theorem map_relocate_declaratorFindings (f : Relocation) (path : Path) (brace : Nat)
    (declared : Header.Declared) (declarators : List Declarator) :
    (declaratorFindings path brace declared declarators).map (Finding.relocate f) =
      declaratorFindings path (f path brace) declared declarators := by
  rw [declaratorFindings, declaratorFindings]
  split
  · exact map_relocate_structAliases f path _ _
  · rw [List.map_map]
    rfl

/-- The same is found at a header in both forms of a text. -/
theorem headerFindings_crlf (hf : f path = crlfOffset text)
    (hceiling : byteSize (crlf text) ≤ maxScan) {brace : Nat} {header : Header}
    (h : Header.StandsAt text brace header) :
    headerFindings maxScan path (crlf text) (crlfOffset text brace) header =
      (headerFindings maxScan path text brace header).map (Finding.relocate f) := by
  -- The header ends before the brace, so only the names behind the block are left to compare.
  obtain ⟨before, head, ⟨-, -, after, rfl⟩, rfl, -⟩ := h
  rw [← List.append_assoc] at hf hceiling ⊢
  rw [headerFindings, headerFindings, List.map_append, map_relocate_ownFindings, hf]
  refine congrArg (fun found => _ ++ found) ?_
  split
  · have hoffset := crlfOffset_append (before ++ head) ('{' :: after)
    rcases Block.extract_declaration_crlf hceiling with ⟨span, span', hfound, hfound', htrailer⟩ |
      ⟨e, hfound, hfound'⟩
    · rw [hoffset, hfound', hfound]
      dsimp only
      rw [map_relocate_declaratorFindings, htrailer, hf, hoffset,
        Declarator.ignoresReturns_parseList.crlf]
    · rw [hoffset, hfound', hfound]
      dsimp only
      rw [List.map_singleton, Finding.relocate, Problem.relocate, hf]
  · rfl

/-- A header stands in a comment of both forms of a text or of none. -/
theorem inSpans_header_crlf {brace : Nat} {header : Header}
    (h : Header.StandsAt text brace header) :
    Comment.inSpans (Comment.spans (crlf text)) (crlfOffset text brace) =
      Comment.inSpans (Comment.spans text) brace := by
  obtain ⟨before, head, ⟨-, -, after, rfl⟩, rfl, -⟩ := h
  rw [← List.append_assoc, crlfOffset_append, Comment.inSpans_crlf _ _ (by decide)]

/-- So does a statement. -/
theorem inSpans_statement_crlf {st : AliasStatement} (h : st ∈ AliasStatement.all text) :
    Comment.inSpans (Comment.spans (crlf text)) (crlfOffset text st.offset) =
      Comment.inSpans (Comment.spans text) st.offset := by
  obtain ⟨front, back, rfl, hoffset, hstart⟩ := AliasStatement.exists_of_mem_ofTextFrom h
  obtain ⟨found, hfound⟩ := Option.isSome_iff_exists.1 hstart
  obtain ⟨gap, rest, rfl, -⟩ := AliasStatement.exists_of_startOf? hfound
  rw [Nat.zero_add] at hoffset
  rw [hoffset, crlfOffset_append]
  exact Comment.inSpans_crlf front _ (c := 't') (by decide)

/-- What a text holds is held by its other form, with the offsets moved, where the ceiling is not
reached. -/
theorem findings_crlf (hf : f path = crlfOffset text)
    (hceiling : byteSize (crlf text) ≤ maxScan) :
    findings maxScan path (crlf text) =
      (findings maxScan path text).map (Finding.relocate f) := by
  -- The same headers and statements stand outside comments, and the same is found at each.
  have hheaders : (Header.all text).filter
      (fun found => !Comment.inSpans (Comment.spans (crlf text)) (crlfOffset text found.1)) =
        (Header.all text).filter fun found => !Comment.inSpans (Comment.spans text) found.1 :=
    List.filter_congr fun found hfound => by
      rw [inSpans_header_crlf (Header.mem_all_iff.1 hfound)]
  have hstatements : (AliasStatement.all text).filter
      (fun st => !Comment.inSpans (Comment.spans (crlf text)) (crlfOffset text st.offset)) =
        (AliasStatement.all text).filter fun st =>
          !Comment.inSpans (Comment.spans text) st.offset :=
    List.filter_congr fun st hst => by rw [inSpans_statement_crlf hst]
  simp only [findings, Header.all_crlf, AliasStatement.all_crlf, List.filter_map, List.flatMap_map,
    List.map_append, List.map_flatMap, map_relocate_statementFindings]
  refine congr (congrArg _ ?_) ?_
  · refine (congrArg (List.flatMap _) hheaders).trans (List.flatMap_congr fun found hfound => ?_)
    exact headerFindings_crlf hf hceiling (Header.mem_all_iff.1 (List.mem_filter.1 hfound).1)
  · exact congrArg (List.flatMap _) hstatements

end Scan

end StructUnfold
