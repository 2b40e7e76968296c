import StructUnfold.Proofs.Catalog.Search
import StructUnfold.Proofs.Document.Places
import StructUnfold.Proofs.Scan.Registration
import StructUnfold.Proofs.Server.Editing

/-!
# Where names of the workspace are found

A name is shown at the offset at which it was scanned, seen in the present text of its file. That
text may be another one by now. An offset behind its end stands for the end, and one between two
characters has a place; but one that has come to lie inside a character has none, and then the whole
query breaks off. This does not happen as long as the catalog is up to date with the text.

## Main definitions

* `Text.CutsChar`: an offset lies inside a character.
* `Server.Session.CutsChar`: the offset of a row does so in the present text of its file.
* `Server.Session.IsSymbolOf`: what is shown for a row.

## Main results

* `Document.positionOf?_eq_none_iff`: the offsets without a place.
* `Server.Session.not_isCurrent_of_cutsChar`: a catalog that is up to date has none of them.
* `Server.Session.symbols_aborted_or_answered`: when a query breaks off, and its answer otherwise.
-/

namespace StructUnfold

/-! ### Offsets inside a character -/

namespace Text

variable {s before after : List Char} {offset : Nat}

/-- An offset lies inside a character of a text. -/
def CutsChar (s : List Char) (offset : Nat) : Prop :=
  ∃ before c after, s = before ++ c :: after ∧ byteSize before < offset ∧
    offset < byteSize before + c.utf8Size

theorem CutsChar.lt (h : CutsChar s offset) : offset < byteSize s := by
  obtain ⟨before, c, after, rfl, -, hlt⟩ := h
  rw [byteSize_append, byteSize_cons]
  omega

/-- An offset between two characters lies inside none. -/
theorem not_cutsChar_of_cut (h : s = before ++ after) : ¬CutsChar s (byteSize before) := by
  rintro ⟨front, c, back, hs, hlt, hgt⟩
  obtain ⟨m, rfl⟩ := (IndexedText.exists_between (hs.symm.trans h)).2 (Nat.le_of_lt hlt)
  rw [byteSize_append] at hlt hgt
  have hrest : m ++ after = c :: back := by
    rw [hs, List.append_assoc] at h
    exact (List.append_cancel_left h).symm
  cases m with
  | nil => simp at hlt
  | cons e m =>
    obtain ⟨rfl, -⟩ := List.cons_eq_cons.1 hrest
    rw [byteSize_cons] at hgt
    omega

/-- Any other offset that is not behind the end does. -/
theorem exists_cut_or_cutsChar (h : offset ≤ byteSize s) :
    (∃ before after, s = before ++ after ∧ byteSize before = offset) ∨ CutsChar s offset := by
  induction s generalizing offset with
  | nil => exact .inl ⟨[], [], rfl, (Nat.le_zero.1 h).symm⟩
  | cons c s ih =>
    rw [byteSize_cons] at h
    rcases Nat.eq_zero_or_pos offset with rfl | hpos
    · exact .inl ⟨[], c :: s, rfl, rfl⟩
    rcases Nat.lt_or_ge offset c.utf8Size with hlt | hge
    · exact .inr ⟨[], c, s, rfl, hpos, by simpa using hlt⟩
    · -- The offset lies in what follows the first character.
      have hrest : offset - c.utf8Size ≤ byteSize s := by omega
      rcases ih hrest with ⟨front, back, rfl, hsize⟩ | ⟨front, e, back, rfl, hlt, hgt⟩
      · exact .inl ⟨c :: front, back, rfl, by rw [byteSize_cons]; omega⟩
      · exact .inr ⟨c :: front, e, back, rfl, by rw [byteSize_cons]; omega,
          by rw [byteSize_cons]; omega⟩

end Text

open Text

/-- The offsets without a place are those inside a character. -/
theorem Document.positionOf?_eq_none_iff {d : Document} {offset : Nat} :
    d.positionOf? offset = none ↔ CutsChar d.text offset := by
  constructor
  · intro hnone
    have hcuts : CutsChar d.text (min offset (byteSize d.text)) := by
      refine (exists_cut_or_cutsChar (Nat.min_le_right ..)).resolve_left ?_
      rintro ⟨before, after, hparts, hsize⟩
      have hsome := positionOf?_eq_some_iff.2 ⟨before, after, hparts, hsize, rfl⟩
      rw [hnone] at hsome
      cases hsome
    have hlt := hcuts.lt
    rwa [Nat.min_eq_left (by omega)] at hcuts
  · intro hcuts
    rw [Option.eq_none_iff_forall_ne_some]
    intro p hp
    obtain ⟨before, after, hparts, hsize, -⟩ := positionOf?_eq_some_iff.1 hp
    rw [Nat.min_eq_left (Nat.le_of_lt hcuts.lt)] at hsize
    exact not_cutsChar_of_cut hparts (hsize ▸ hcuts)

/-! ### Rows of a search -/

namespace Catalog

variable {c : Catalog} {row : Entry} {offset : Nat}

/-- The offset of a row is the place that the catalog holds for it. -/
theorem Lists.exists_heldBy (h : c.Lists row) (hoffset : row.offset = some offset) :
    ∃ f : Scan.Finding, f.HeldBy c ∧ f.place? = some (row.path, offset) := by
  cases h with
  | @struct name d h =>
    obtain rfl := Option.some.inj hoffset
    exact ⟨.struct name d, h, rfl⟩
  | aliasName h => cases hoffset
  | @unparseable name u h =>
    obtain rfl := Option.some.inj hoffset
    exact ⟨.unparseable name u, h, rfl⟩

end Catalog

namespace Server.Session

open Catalog

variable {s : Session} {row : Entry}

/-- The offset of a row lies inside a character of the present text of its file. -/
def CutsChar (s : Session) (row : Entry) : Prop :=
  ∃ uri offset document, Uri.ofFilePath? row.path = some uri ∧ row.offset = some offset ∧
    s.present? uri row.path = some document ∧ Text.CutsChar document.text offset

/-- The catalog is not up to date with the present text of the file of a row. -/
def IsStale (s : Session) (row : Entry) : Prop :=
  ∃ uri document, Uri.ofFilePath? row.path = some uri ∧
    s.present? uri row.path = some document ∧
    ∀ maxScan, ¬s.state.catalog.IsCurrent maxScan (row.path, document.text)

/-- What is shown for a row: its name and its file, and the place of its offset in the present text
of the file. An offset behind the end of that text stands for the end. A row without an offset, or
one whose file cannot be read, is shown at the start of the file. -/
structure IsSymbolOf (s : Session) (row : Entry) (symbol : WorkspaceSymbol) : Prop where
  /-- Its file has a URI. -/
  uri : Uri.ofFilePath? row.path = some symbol.uri
  /-- It is shown under its name. -/
  name : symbol.name = row.name
  /-- It is shown with what is to be said about it. -/
  detail : symbol.detail = row.detail
  /-- It is shown at its offset. -/
  place : ∀ offset document, row.offset = some offset →
    s.present? symbol.uri row.path = some document → ∃ before after,
      document.text = before ++ after ∧ byteSize before = min offset (byteSize document.text) ∧
      document.IsPlaceOf before symbol.position
  /-- It is shown at the start of its file if there is no such offset. -/
  start : row.offset = none ∨ s.present? symbol.uri row.path = none → symbol.position = ⟨0, 0⟩

/-- What is up to date with a text leads to braces in it, and no brace is inside a character. -/
theorem isStale_of_cutsChar (hrow : s.state.catalog.Lists row) (h : s.CutsChar row) :
    s.IsStale row := by
  obtain ⟨uri, offset, document, huri, hoffset, hdocument, hcuts⟩ := h
  refine ⟨uri, document, huri, hdocument, fun maxScan hcurrent => ?_⟩
  obtain ⟨f, hheld, hplace⟩ := hrow.exists_heldBy hoffset
  have hstands : f.StandsIn row.path := by
    cases f with
    | struct name d => exact congrArg Prod.fst (Option.some.inj hplace)
    | unparseable name u => exact congrArg Prod.fst (Option.some.inj hplace)
    | aliased name a => cases hplace
    | problem p => cases hplace
  have hfound := Scan.mem_findings_of_heldBy_alone (hcurrent f hheld hstands)
  obtain ⟨rest, hbrace⟩ := (Scan.codeBrace_of_mem_findings hfound hplace).2.brace
  obtain ⟨before, hparts, rfl⟩ := dropBytes?_eq_some_iff.1 hbrace
  exact not_cutsChar_of_cut hparts hcuts

/-- A row has no place if its offset lies inside a character. -/
theorem placeOf?_eq_none_iff {uri : Uri} (huri : Uri.ofFilePath? row.path = some uri) :
    s.placeOf? uri row = none ↔ s.CutsChar row := by
  rw [placeOf?]
  constructor
  · intro h
    split at h
    · rename_i offset document hoffset hdocument
      exact ⟨uri, offset, document, huri, hoffset, hdocument, Document.positionOf?_eq_none_iff.1 h⟩
    · cases h
  · rintro ⟨uri', offset, document, huri', hoffset, hdocument, hcuts⟩
    obtain rfl := Option.some.inj (huri.symm.trans huri')
    rw [hoffset, hdocument]
    exact Document.positionOf?_eq_none_iff.2 hcuts

/-- A row that has a place is shown there. -/
theorem isSymbolOf_of_placeOf?_eq {uri : Uri} {position : Position}
    (huri : Uri.ofFilePath? row.path = some uri) (h : s.placeOf? uri row = some position) :
    s.IsSymbolOf row ⟨row.name, uri, position, row.detail⟩ := by
  refine ⟨huri, rfl, rfl, fun offset document hoffset hdocument => ?_, fun hnone => ?_⟩
  · rw [placeOf?, hoffset, hdocument] at h
    obtain ⟨before, after, hparts, hsize, rfl⟩ := Document.positionOf?_eq_some_iff.1 h
    refine ⟨before, after, hparts, hsize, ?_⟩
    obtain ⟨p, hp, -, hplace⟩ := Document.exists_place hparts
    have hself := Document.positionOf?_eq_some_iff.2 ⟨before, after, hparts,
      (Nat.min_eq_left (by rw [hsize]; exact Nat.min_le_right ..)).symm, rfl⟩
    rw [hp] at hself
    exact Option.some.inj hself ▸ hplace
  · rw [placeOf?] at h
    split at h
    · rename_i hoffset hdocument
      rcases hnone with hnone | hnone
      · rw [hoffset] at hnone
        cases hnone
      · cases hdocument.symm.trans hnone
    · exact (Option.some.inj h).symm

/-- The rows are shown one by one, as far as their files have URIs. -/
theorem symbolsOf?_cases (s : Session) (rows : List Entry) :
    (s.symbolsOf? rows = none ∧ ∃ row ∈ rows, s.CutsChar row) ∨
      (∀ row ∈ rows, ¬s.CutsChar row) ∧ ∃ found, s.symbolsOf? rows = some found ∧
        List.Forall₂ s.IsSymbolOf (rows.filter fun row => (Uri.ofFilePath? row.path).isSome)
          found := by
  induction rows with
  | nil => exact .inr ⟨by simp, [], rfl, .nil⟩
  | cons row rows ih =>
    cases huri : Uri.ofFilePath? row.path with
    | none =>
      -- The row is passed over.
      have hcuts : ¬s.CutsChar row := by
        rintro ⟨uri, -, -, huri', -⟩
        rw [huri] at huri'
        cases huri'
      simpa [symbolsOf?, huri, hcuts] using ih
    | some uri =>
      cases hplace : s.placeOf? uri row with
      | none =>
        refine .inl ⟨?_, row, List.mem_cons_self, (placeOf?_eq_none_iff huri).1 hplace⟩
        simp [symbolsOf?, huri, hplace]
      | some position =>
        have hcuts : ¬s.CutsChar row := by
          rw [← placeOf?_eq_none_iff huri, hplace]
          exact Option.some_ne_none position
        rcases ih with ⟨hnone, later, hmem, hlater⟩ | ⟨hall, found, hsome, hfound⟩
        · refine .inl ⟨?_, later, List.mem_cons_of_mem _ hmem, hlater⟩
          simp [symbolsOf?, huri, hplace, hnone]
        · refine .inr ⟨?_, ⟨row.name, uri, position, row.detail⟩ :: found, ?_, ?_⟩
          · simpa [hcuts] using hall
          · simp [symbolsOf?, huri, hplace, hsome]
          · rw [List.filter_cons_of_pos (by rw [huri]; rfl)]
            exact .cons (isSymbolOf_of_placeOf?_eq huri hplace) hfound

/-- A query for names of the workspace breaks off if one of the rows found has an offset inside a
character of the present text of its file, with which the catalog is then not up to date. Otherwise
it is answered: the rows whose files have URIs are shown in order, each at its offset. -/
theorem symbols_aborted_or_answered (s : Session) (query : String) :
    (s.symbols query = .aborted ∧
        ∃ row ∈ s.state.catalog.search query symbolLimit, s.CutsChar row ∧ s.IsStale row) ∨
      (∀ row ∈ s.state.catalog.search query symbolLimit, ¬s.CutsChar row) ∧
        ∃ found, s.symbols query = .answered (.symbols found) ∧
          List.Forall₂ s.IsSymbolOf
            ((s.state.catalog.search query symbolLimit).filter fun row =>
              (Uri.ofFilePath? row.path).isSome) found := by
  rcases s.symbolsOf?_cases (s.state.catalog.search query symbolLimit) with
    ⟨hnone, row, hmem, hcuts⟩ | ⟨hall, found, hsome, hfound⟩
  · have hstale := isStale_of_cutsChar (lists_of_mem_search hmem) hcuts
    exact .inl ⟨by rw [symbols, hnone], row, hmem, hcuts, hstale⟩
  · exact .inr ⟨hall, found, by rw [symbols, hsome], hfound⟩

/-- A letter of two bytes is typed behind the name of a struct. The brace was found behind the first
of these bytes. -/
theorem symbols_aborted_at_letter :
    let text := "struct Nodeé \x7b\n    int value;\n\x7d;\n".toList
    let t := nodeSession.index.1.after (.opened (nodeUri "node.h") ⟨text, 1⟩)
    t.state.catalog.structs.get? "Node" = some ⟨Path.ofString "/w/node.h", 12, none⟩ ∧
      Document.positionOf? ⟨text, 1⟩ 12 = none ∧
      nodeSession.index.1.symbols "Node" ≠ .aborted ∧ t.symbols "Node" = .aborted := by
  decide +kernel

end Server.Session

end StructUnfold
