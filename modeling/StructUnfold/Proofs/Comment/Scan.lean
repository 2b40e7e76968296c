import Mathlib.Data.List.Basic
import Mathlib.Tactic.MkIffOfInductiveProp
import StructUnfold.Proofs.Comment.Blocks
import StructUnfold.Proofs.Comment.SameCode
import StructUnfold.Proofs.Comment.Statements
import StructUnfold.Proofs.Scan.Recording

/-!
# Scanning texts with comments

Comments matter to a scan at three places: on the line of a header from its colon on, in the stretch
of a statement or of the keyword `typedef`, and among the names behind a block. Where there are none
at these places, a text is scanned as if its comments were erased, and texts that differ in nothing
but what their comments say are scanned alike.

* `Harmless`: no comment stands where it matters.
* `scan_erased`: a text is scanned as if its comments were erased.
* `SameCode`, `scan_eq_of_sameCode`: what the comments say makes no difference.
-/

namespace StructUnfold.Comment

open Text Scan

/-- Whether no comment reaches into what follows a block up to the semicolon. -/
def trailerIsSafe (comments : List Span) : Except Block.Error Block.Span → Bool
  | .error _ => true
  | .ok span => comments.all fun c => decide (c.stop ≤ span.close) || decide (span.stop ≤ c.start)

/-- No comment of a text stands where it matters to a scan. -/
@[mk_iff]
structure Harmless (maxScan : Nat) (t : List Char) : Prop where
  /-- On the line of a header a comment begins before any colon or behind the brace. -/
  lines : LinesAreSafe (blotted t)
  /-- No comment stands between two semicolons, braces or line feeds with the keyword `typedef`. -/
  stretches : StretchesAreSafe (blotted t)
  /-- There is no comment among the names behind a block. -/
  trailers : ∀ found ∈ Header.all (erased t), found.2.isTypedef = true →
    trailerIsSafe (spans t) (Block.extract (.declaration maxScan) (erased t) found.1) = true

instance (m : List (Char × Kind)) : Decidable (LinesAreSafe m) :=
  inferInstanceAs (Decidable (∀ line ∈ m.splitOnP fun c => c.1 == '\n', headIsSafe line = true))

instance (m : List (Char × Kind)) : Decidable (StretchesAreSafe m) :=
  inferInstanceAs (Decidable (∀ stretch ∈ m.splitOnP isCut,
    (stretch.any fun c => c.2 != .code) = true →
      containsText "typedef".toList (stretch.map Prod.fst) = false))

instance (maxScan : Nat) (t : List Char) : Decidable (Harmless maxScan t) :=
  decidable_of_iff' _ (harmless_iff maxScan t)

/-- Where comments stand is all that makes them harmful. -/
theorem Harmless.of_sameCode {maxScan : Nat} {s t : List Char} (h : SameCode s t)
    (hs : Harmless maxScan s) : Harmless maxScan t := by
  have hblotted := h.blotted_eq
  have herased : erased s = erased t := congrArg (List.map Prod.fst) hblotted
  obtain ⟨hlines, hstretches, htrailers⟩ := hs
  rw [hblotted] at hlines hstretches
  rw [herased, h.spans] at htrailers
  exact ⟨hlines, hstretches, htrailers⟩

/-- What is entered in the catalog, problems left out. -/
def entries (findings : List Finding) : List Finding :=
  findings.filter fun f => f.name?.isSome

theorem entries_append (fs gs : List Finding) : entries (fs ++ gs) = entries fs ++ entries gs :=
  List.filter_append fs gs

/-- A problem changes nothing in a catalog. -/
theorem foldl_record_entries (fs : List Finding) (c : Catalog) :
    (entries fs).foldl Finding.record c = fs.foldl Finding.record c := by
  induction fs generalizing c with
  | nil => rfl
  | cons f fs ih =>
    rw [List.foldl_cons, ← ih]
    cases f <;> rfl

variable {maxScan : Nat} {path : Path} {t : List Char}

/-- The brace of a header outside comments is code. -/
theorem exists_kinds_of_mem_all {found : Nat × Header} (h : found ∈ Header.all t)
    (houtside : inSpans (spans t) found.1 = false) :
    ∃ front back, kinds t = front ++ ('{', .code) :: back ∧
      found.1 = byteSize (front.map Prod.fst) := by
  obtain ⟨before, head, ⟨-, -, after, ht⟩, hbrace, -⟩ := Header.mem_all_iff.1 h
  have hmap : (kinds t).map Prod.fst = (before ++ head) ++ '{' :: after := by
    rw [map_fst_kinds, ht, List.append_assoc]
  obtain ⟨front, back, hkinds, hfront, hback⟩ := List.map_eq_append_iff.1 hmap
  obtain ⟨⟨c, k⟩, back, rfl, hc, -⟩ := List.map_eq_cons_iff.1 hback
  obtain rfl : c = '{' := hc
  rw [← hfront] at hbrace
  have hkind := inSpans_eq hkinds
  rw [← hbrace, houtside] at hkind
  obtain rfl : k = .code := by simpa using hkind.symm
  exact ⟨front, back, hkinds, hbrace⟩

/-- At a header outside comments the same is found in the erased text. -/
theorem entries_headerFindings {front back : List (Char × Kind)}
    (h : kinds t = front ++ ('{', .code) :: back) {header : Header}
    (hsafe : header.isTypedef = true → trailerIsSafe (spans t)
      (Block.extract (.declaration maxScan) (erased t) (byteSize (front.map Prod.fst))) = true) :
    entries (headerFindings maxScan path t (byteSize (front.map Prod.fst)) header) =
      entries (headerFindings maxScan path (erased t) (byteSize (front.map Prod.fst)) header) := by
  rw [headerFindings, headerFindings, entries_append, entries_append]
  cases htypedef : header.isTypedef with
  | false => rfl
  | true =>
    rcases extract_erased h maxScan with ⟨parts, rfl, hfound, hfound'⟩ | ⟨e, e', hfound, hfound'⟩
    · have hsafe := hsafe htypedef
      rw [hfound', trailerIsSafe, List.all_eq_true] at hsafe
      -- A character of a comment would lie in one of the spans.
      have hcode : ∀ x ∈ parts.trailer, x.2 = .code := by
        intro x hx
        refine Decidable.byContradiction fun hk => ?_
        obtain ⟨a, b, htrailer⟩ := List.append_of_mem hx
        obtain ⟨c, k⟩ := x
        have hsplit : kinds t = (front ++ ('{', .code) :: (parts.inner ++ ('}', .code) :: a)) ++
            (c, k) :: (b ++ (';', .code) :: parts.rest) := by
          rw [h, Parts.joined, htrailer]
          simp
        have hspan := (inSpans_spans_iff hsplit c.utf8Size_pos).2 hk
        obtain ⟨comment, hcomment, hcontains⟩ := List.any_eq_true.1 hspan
        have hclear := hsafe comment hcomment
        have hpos : byteSize ((front ++ ('{', Kind.code) ::
            (parts.inner ++ ('}', .code) :: a)).map Prod.fst) =
              byteSize (front.map Prod.fst) + 1 + byteSize (parts.inner.map Prod.fst) + 1 +
                byteSize (a.map Prod.fst) := by
          simp only [List.map_append, List.map_cons, byteSize_append, byteSize_cons]
          have hbrace : '{'.utf8Size = 1 ∧ '}'.utf8Size = 1 := ⟨rfl, rfl⟩
          omega
        have hsize : byteSize (a.map Prod.fst) < byteSize (parts.trailer.map Prod.fst) := by
          have hc := c.utf8Size_pos
          rw [htrailer, List.map_append, List.map_cons, byteSize_append, byteSize_cons]
          dsimp only
          omega
        rw [hpos, Span.contains, Bool.and_eq_true, decide_eq_true_eq,
          decide_eq_true_eq] at hcontains
        rw [Bool.or_eq_true, decide_eq_true_eq, decide_eq_true_eq] at hclear
        dsimp only [Parts.span] at hclear
        omega
      simp only [hfound, hfound', if_true, trailer_erased h hcode]
    · simp only [hfound, hfound', if_true]
      rfl

/-- What is entered in the catalog for a text without harmful comments is what is entered for the
erased text. -/
theorem entries_findings (h : Harmless maxScan t) :
    entries (Scan.findings maxScan path t) = entries (Scan.findings maxScan path (erased t)) := by
  have hnone : ∀ offset, inSpans (spans (erased t)) offset = false := by
    intro offset
    rw [spans_erased]
    rfl
  -- Header by header, since the headers of both texts are the same.
  have hheader : ∀ found ∈ Header.all (erased t),
      entries (headerFindings maxScan path t found.1 found.2) =
        entries (headerFindings maxScan path (erased t) found.1 found.2) := by
    intro found hfound
    have hmem := hfound
    rw [← filter_all_eq h.lines, List.mem_filter] at hmem
    obtain ⟨front, back, hkinds, hbrace⟩ := exists_kinds_of_mem_all hmem.1 (by simpa using hmem.2)
    have hsafe := h.trailers found hfound
    rw [hbrace] at hsafe ⊢
    exact entries_headerFindings hkinds hsafe
  simp only [Scan.findings, filter_all_eq h.lines, filter_allStatements_eq h.stretches, hnone]
  rw [List.filter_eq_self.2 (by simp), List.filter_eq_self.2 (by simp), entries_append,
    entries_append]
  refine congrArg (fun fs => fs ++ _) ?_
  simp only [entries, List.filter_flatMap]
  exact List.flatMap_congr hheader

/-- A text without harmful comments is scanned as if its comments were erased. -/
theorem scan_erased (h : Harmless maxScan t) (c : Catalog) (path : Path) :
    (scan maxScan c path t).1 = (scan maxScan c path (erased t)).1 := by
  show (Scan.findings maxScan path t).foldl Finding.record c =
    (Scan.findings maxScan path (erased t)).foldl Finding.record c
  rw [← foldl_record_entries, entries_findings h, foldl_record_entries]

/-- Texts that differ in nothing but what their comments say are scanned alike, unless a comment
stands where it matters. -/
theorem scan_eq_of_sameCode {s t : List Char} (h : SameCode s t) (hs : Harmless maxScan s)
    (c : Catalog) (path : Path) :
    (scan maxScan c path s).1 = (scan maxScan c path t).1 := by
  have herased : erased s = erased t := congrArg (List.map Prod.fst) h.blotted_eq
  rw [scan_erased hs, scan_erased (hs.of_sameCode h), herased]

/-- A text with comments before headers, in bodies and behind declarations. -/
def annotated : List Char :=
  "/* struct No \x7b\n */\nstruct A \x7b int x; // \x7b\n\x7d;\n".toList ++
    "struct B : A \x7b int y; \x7d; /* \x7d */\n".toList ++
      "typedef struct C \x7b /* \x7d; */ int z; \x7d D, *E; // typedef struct C Q;\n".toList ++
        "typedef struct B F;\n".toList

/-- The same text with other words in its comments. -/
def annotatedOtherwise : List Char :=
  "/* typedef \x7b ;\n */\nstruct A \x7b int x; // ;\n\x7d;\n".toList ++
    "struct B : A \x7b int y; \x7d; /*é;*/\n".toList ++
      "typedef struct C \x7b /* \x7b\x7b */ int z; \x7d D, *E;".toList ++
        " // D, *E;\x7d struct F \x7b \ntypedef struct B F;\n".toList

theorem scan_annotated :
    let path := Path.ofString "a.h"
    (SameCode annotated annotatedOtherwise ∧ annotated ≠ annotatedOtherwise) ∧
      Harmless 100 annotated ∧
      (scan 100 Catalog.empty path annotated).1.structs.keys = ["A", "B", "C"] ∧
      (scan 100 Catalog.empty path annotated).1.aliases.keys = ["D", "E", "F"] ∧
      (scan 100 Catalog.empty path annotated).1 =
        (scan 100 Catalog.empty path annotatedOtherwise).1 :=
  ⟨by decide +kernel, by decide +kernel, by decide +kernel, by decide +kernel,
    scan_eq_of_sameCode (by decide +kernel) (by decide +kernel) _ _⟩

/-- A text with a comment among the names behind a block. -/
def namedInComment : List Char :=
  "typedef struct S \x7b int x; \x7d A /*,B,*/;\n".toList

/-- The same text with nothing in the comment. -/
def namedOutsideComment : List Char :=
  "typedef struct S \x7b int x; \x7d A /*   */;\n".toList

/-- What a comment among the names behind a block says makes a difference. -/
theorem scan_ne_of_sameCode :
    SameCode namedInComment namedOutsideComment ∧
      (scan 1048576 Catalog.empty (Path.ofString "a.h") namedInComment).1 ≠
        (scan 1048576 Catalog.empty (Path.ofString "a.h") namedOutsideComment).1 := by
  refine ⟨by decide +kernel, fun h => ?_⟩
  have hkeys := congrArg (fun c => c.aliases.keys) h
  revert hkeys
  decide +kernel

end StructUnfold.Comment
