import StructUnfold.CommandLine.Run
import StructUnfold.Proofs.Catalog.Search
import StructUnfold.Proofs.Scan.Registration

/-!
# Reading a listing back

The line of a row has four columns, name, kind, place and detail, with tabs between them, so the
rows can be read back from the lines. But a listing is printed without the white space at its end.
Where the last row has no detail, this takes away the tab in front of the empty column as well, and
the last line has a column less than all others.

## Main definitions

* `CommandLine.columns`, `CommandLine.readBack`: the columns of a row, and of what is printed.
* `Catalog.Entry.IsTabular`: the parts of a row fit into columns.
* `CommandLine.ReadsBack`: what can be read back of a listing.

## Main results

* `CommandLine.readBack_listing`: all lines but the last one have the columns of their rows.
* `Catalog.Entry.isTidy_of_lists_catalogOf`: the parts of what is scanned fit into columns.
* `CommandLine.symbols_read_back`: what can be read back of the output of the command.
-/

namespace StructUnfold

/-! ### Texts in columns -/

namespace Text

variable {s t : List Char}

/-- A text fits into a column: neither a tab nor a line feed is in it. -/
structure IsColumn (s : List Char) : Prop where
  /-- There is no tab in it. -/
  no_tab : '\t' ∉ s
  /-- There is no line feed in it. -/
  no_feed : '\n' ∉ s

instance : DecidablePred IsColumn := fun s =>
  decidable_of_iff ('\t' ∉ s ∧ '\n' ∉ s) ⟨fun h => ⟨h.1, h.2⟩, fun h => ⟨h.no_tab, h.no_feed⟩⟩

theorem IsColumn.append (hs : IsColumn s) (ht : IsColumn t) : IsColumn (s ++ t) :=
  ⟨fun h => (List.mem_append.1 h).elim hs.no_tab ht.no_tab,
    fun h => (List.mem_append.1 h).elim hs.no_feed ht.no_feed⟩

theorem isColumn_of_no_space (h : ∀ c ∈ s, isSpace c = false) : IsColumn s :=
  ⟨fun hmem => absurd (h _ hmem) (by decide), fun hmem => absurd (h _ hmem) (by decide)⟩

/-- A text ends in a character that is no white space. -/
def EndsUnspaced (s : List Char) : Prop :=
  ∃ c, s.getLast? = some c ∧ isSpace c = false

instance : DecidablePred EndsUnspaced := fun s =>
  decidable_of_iff ((s.getLast?.any fun c => !isSpace c) = true)
    (by simp [EndsUnspaced, Option.any_eq_true])

theorem EndsUnspaced.append (h : EndsUnspaced t) (s : List Char) : EndsUnspaced (s ++ t) := by
  obtain ⟨c, hc, hspace⟩ := h
  exact ⟨c, by rw [List.getLast?_append, hc, Option.some_or], hspace⟩

theorem endsUnspaced_of_no_space (hne : s ≠ []) (h : ∀ c ∈ s, isSpace c = false) :
    EndsUnspaced s :=
  ⟨s.getLast hne, List.getLast?_eq_some_getLast hne, h _ (List.getLast_mem hne)⟩

theorem EndsUnspaced.trimEnd_eq (h : EndsUnspaced s) : trimEnd s = s := by
  obtain ⟨c, hc, hspace⟩ := h
  refine dropEndWhile_eq_self fun e he => ?_
  rwa [← Option.some.inj (hc.symm.trans he)]

/-- What stands in front of the white space at the end is kept. -/
theorem EndsUnspaced.trimEnd_append (h : EndsUnspaced s) (t : List Char) :
    trimEnd (s ++ t) = s ++ trimEnd t := by
  rw [trimEnd, dropEndWhile_append]
  split
  · rename_i hnil
    rw [trimEnd, List.isEmpty_iff.1 hnil, List.append_nil]
    exact h.trimEnd_eq
  · rfl

/-- A text behind a tab keeps the end of the line as it is exactly if it ends in something. -/
theorem trimEnd_tab_eq_iff : trimEnd (s ++ '\t' :: t) = s ++ '\t' :: t ↔ EndsUnspaced t := by
  constructor
  · intro heq
    have hend : ∀ c, (s ++ '\t' :: t).getLast? = some c → isSpace c = false := by
      rw [← heq]
      exact fun c hc => not_of_getLast?_dropEndWhile hc
    rcases List.eq_nil_or_concat t with rfl | ⟨front, c, rfl⟩
    · cases hend '\t' (by rw [List.getLast?_append_cons, List.getLast?_singleton])
    · rw [List.concat_eq_append] at hend ⊢
      have hlast : (s ++ '\t' :: (front ++ [c])).getLast? = some c := by
        rw [List.getLast?_append_cons, ← List.cons_append, List.getLast?_concat]
      exact ⟨c, List.getLast?_concat, hend c hlast⟩
  · intro h
    have hend : EndsUnspaced ('\t' :: t) := h.append ['\t']
    exact (hend.append s).trimEnd_eq

/-- Lines that are ended by line feeds are read back, and nothing stands behind the last one. -/
theorem splitLines_flatMap {ls : List (List Char)} (h : ∀ l ∈ ls, '\n' ∉ l) :
    splitLines (ls.flatMap (· ++ ['\n'])) = ls ++ [[]] := by
  induction ls with
  | nil => rfl
  | cons l ls ih =>
    obtain ⟨hl, hls⟩ := List.forall_mem_cons.1 h
    rw [splitLines] at ih ⊢
    rw [List.flatMap_cons, List.append_assoc, splitOn_append_of_not_mem hl, List.singleton_append,
      List.splitOn_cons_eq_if_modifyHead, if_pos (by rfl), ih hls]
    simp

end Text

open Text

/-! ### Rows in columns -/

namespace Catalog.Entry

/-- What is said about a row, if anything. -/
def detailText (e : Entry) : String :=
  e.detail.getD ""

/-- The parts of a row fit into columns. -/
structure IsTabular (e : Entry) : Prop where
  /-- Its name does. -/
  name : IsColumn e.name.toList
  /-- Its path does. -/
  path : IsColumn e.path.display.toList
  /-- What is said about it does. -/
  detail : IsColumn e.detailText.toList

instance : DecidablePred IsTabular := fun e =>
  decidable_of_iff
    (IsColumn e.name.toList ∧ IsColumn e.path.display.toList ∧ IsColumn e.detailText.toList)
    ⟨fun ⟨h₁, h₂, h₃⟩ => ⟨h₁, h₂, h₃⟩, fun ⟨h₁, h₂, h₃⟩ => ⟨h₁, h₂, h₃⟩⟩

end Catalog.Entry

namespace CommandLine

open Catalog Output

variable {lineOf : Path → Nat → Option Nat} {e last : Entry} {front : List Entry}

/-- The columns of a row: name, kind, place and detail, which is empty if there is none. -/
def columns (lineOf : Path → Nat → Option Nat) (e : Entry) : List (List Char) :=
  [e.name.toList, e.kind.word.toList, (location lineOf e).toList, e.detailText.toList]

/-- The columns with tabs between them. -/
def line (lineOf : Path → Nat → Option Nat) (e : Entry) : List Char :=
  List.intercalate ['\t'] (columns lineOf e)

/-- The columns in each line of what is printed. -/
def readBack (printed : String) : List (List (List Char)) :=
  (splitLines printed.toList).dropLast.map fun line => line.splitOn '\t'

theorem toList_row : (row lineOf e).toList = line lineOf e ++ ['\n'] := by
  simp [row, line, columns, Entry.detailText, List.intercalate_cons_cons]

/-- The last column stands behind all others. -/
theorem exists_line_eq (lineOf : Path → Nat → Option Nat) (e : Entry) :
    ∃ before, line lineOf e = before ++ '\t' :: e.detailText.toList := by
  refine ⟨List.intercalate ['\t'] (columns lineOf e).dropLast, ?_⟩
  simp [line, columns, List.intercalate_cons_cons]

/-- A number is written in digits. -/
theorem isColumn_toString (n : Nat) : IsColumn (toString n).toList := by
  have hdigits : ∀ c ∈ (toString n).toList, c.isDigit = true := by
    intro c hc
    rw [Nat.toString_eq_ofList_toDigits, String.toList_ofList] at hc
    exact Nat.isDigit_of_mem_toDigits (by decide) (by decide) hc
  exact ⟨fun h => absurd (hdigits _ h) (by decide), fun h => absurd (hdigits _ h) (by decide)⟩

theorem isColumn_location (h : IsColumn e.path.display.toList) :
    IsColumn (location lineOf e).toList := by
  rw [location]
  split
  · rw [String.toList_append, String.toList_append]
    exact (h.append (by decide)).append (isColumn_toString _)
  · exact h

theorem isColumn_word (kind : EntryKind) : IsColumn kind.word.toList := by
  cases kind <;> decide

theorem isColumn_of_mem_columns (h : e.IsTabular) :
    ∀ column ∈ columns lineOf e, IsColumn column := by
  intro column hmem
  simp only [columns, List.mem_cons, List.not_mem_nil, or_false] at hmem
  rcases hmem with rfl | rfl | rfl | rfl
  · exact h.name
  · exact isColumn_word _
  · exact isColumn_location h.path
  · exact h.detail

/-- The columns of a line are read back. -/
theorem splitOn_line (h : e.IsTabular) : (line lineOf e).splitOn '\t' = columns lineOf e :=
  List.splitOn_intercalate '\t' (fun _ hmem => (isColumn_of_mem_columns h _ hmem).no_tab)
    (List.cons_ne_nil _ _)

theorem not_mem_line (h : e.IsTabular) : '\n' ∉ line lineOf e := by
  intro hmem
  have hcolumns : ∀ column ∈ columns lineOf e, IsColumn column := isColumn_of_mem_columns h
  rw [columns] at hcolumns
  rw [line, columns, intercalate_cons, List.mem_append, List.mem_flatMap] at hmem
  rcases hmem with hmem | ⟨column, hcolumn, hmem⟩
  · exact h.name.no_feed hmem
  · rcases List.mem_append.1 hmem with hmem | hmem
    · exact absurd hmem (by decide)
    · exact (hcolumns column (List.mem_cons_of_mem _ hcolumn)).no_feed hmem

/-- If nothing is said about a row, its line loses the last column and the tab in front of it. -/
theorem trimEnd_line_of_detailText_eq (h : e.detailText = "")
    (hends : EndsUnspaced (location lineOf e).toList) :
    trimEnd (line lineOf e) = List.intercalate ['\t']
      [e.name.toList, e.kind.word.toList, (location lineOf e).toList] := by
  have hline : line lineOf e =
      (e.name.toList ++ '\t' :: e.kind.word.toList ++ ['\t']) ++
        (location lineOf e).toList ++ ['\t'] := by
    simp [line, columns, h, List.intercalate_cons_cons]
  have htab : trimEnd ['\t'] = [] := by decide
  rw [hline, (hends.append _).trimEnd_append, htab]
  simp [List.intercalate_cons_cons]

/-- The kind of a row is no white space, so something is left of its line. -/
theorem trimEnd_line_ne_nil (lineOf : Path → Nat → Option Nat) (e : Entry) :
    trimEnd (line lineOf e) ≠ [] := by
  have hword : EndsUnspaced e.kind.word.toList := by
    cases e.kind <;> decide
  have hline : line lineOf e = e.name.toList ++ ['\t'] ++ e.kind.word.toList ++
      ('\t' :: (location lineOf e).toList ++ '\t' :: e.detailText.toList) := by
    simp [line, columns, List.intercalate_cons_cons]
  rw [hline, (hword.append _).trimEnd_append]
  intro hnil
  obtain ⟨c, hc, -⟩ := hword.append (e.name.toList ++ ['\t'])
  rw [(List.append_eq_nil_iff.1 hnil).1] at hc
  cases hc

/-- The white space at the end of a listing is that at the end of its last line. -/
theorem toList_written_listing (lineOf : Path → Nat → Option Nat) (front : List Entry)
    (last : Entry) :
    (written (listing lineOf (front ++ [last]))).toList =
      (front.map (line lineOf) ++ [trimEnd (line lineOf last)]).flatMap (· ++ ['\n']) := by
  have hlast : trimEnd (line lineOf last ++ ['\n']) = trimEnd (line lineOf last) := by
    rw [trimEnd, dropEndWhile_concat, if_pos (by rfl), trimEnd]
  have hrows : (String.join ((front ++ [last]).map (row lineOf))).toList =
      (front.map (line lineOf)).flatMap (· ++ ['\n']) ++ (line lineOf last ++ ['\n']) := by
    simp [toList_row, List.flatMap_map]
  rw [written, String.toList_append, listing, String.toList_ofList, hrows, trimEnd,
    dropEndWhile_append, ← trimEnd, hlast, if_neg (by simpa using trimEnd_line_ne_nil lineOf last)]
  simp

/-- All lines but the last one have the columns of their rows, and the last one has those that are
left of its row without the white space at its end. -/
theorem readBack_listing (h : ∀ e ∈ front ++ [last], e.IsTabular) :
    readBack (written (listing lineOf (front ++ [last]))) =
      front.map (columns lineOf) ++ [(trimEnd (line lineOf last)).splitOn '\t'] := by
  have hlast : '\n' ∉ trimEnd (line lineOf last) := by
    obtain ⟨t, hline, -⟩ := exists_dropEndWhile_append isSpace (line lineOf last)
    have hnot : '\n' ∉ line lineOf last := not_mem_line (h last (by simp))
    rw [hline, List.mem_append, not_or] at hnot
    exact hnot.1
  have hlines : ∀ l ∈ front.map (line lineOf) ++ [trimEnd (line lineOf last)], '\n' ∉ l := by
    intro l hl
    rcases List.mem_append.1 hl with hl | hl
    · obtain ⟨e, he, rfl⟩ := List.mem_map.1 hl
      exact not_mem_line (h e (List.mem_append_left _ he))
    · rwa [List.mem_singleton.1 hl]
  rw [readBack, toList_written_listing, splitLines_flatMap hlines, List.dropLast_concat,
    List.map_append, List.map_map, List.map_singleton]
  congr 1
  exact List.map_congr_left fun e he => splitOn_line (h e (List.mem_append_left _ he))

theorem readBack_listing_nil (lineOf : Path → Nat → Option Nat) :
    readBack (written (listing lineOf [])) = [[[]]] := by
  have hnone : (written (listing lineOf [])).toList = ['\n'] := by
    rw [written, String.toList_append, listing, String.toList_ofList]
    rfl
  rw [readBack, hnone]
  rfl

/-- What can be read back of the listing of rows. -/
structure ReadsBack (lineOf : Path → Nat → Option Nat) (rows : List Entry) (printed : String) :
    Prop where
  /-- Without rows there is one line, which is empty. -/
  empty : rows = [] → readBack printed = [[[]]]
  /-- Otherwise there is a line for each row, in order. Each but the last one has the columns of its
  row, and the last one has them without the white space at its end. -/
  lines : ∀ front last, rows = front ++ [last] → readBack printed =
    front.map (columns lineOf) ++ [(trimEnd (line lineOf last)).splitOn '\t']
  /-- The rows are read back, the last one included, if something is said about the last one that
  ends in no white space, and only then. -/
  whole_iff : ∀ front last, rows = front ++ [last] →
    (readBack printed = rows.map (columns lineOf) ↔ EndsUnspaced last.detailText.toList)
  /-- If nothing is said about the last row, its line ends with the third column. -/
  short : ∀ front last, rows = front ++ [last] → last.detailText = "" →
    EndsUnspaced (location lineOf last).toList → (readBack printed).getLast? =
      some [last.name.toList, last.kind.word.toList, (location lineOf last).toList]

/-- The last line has the columns of its row if it loses nothing, and only then. -/
theorem splitOn_trimEnd_line_iff (h : last.IsTabular) :
    (trimEnd (line lineOf last)).splitOn '\t' = columns lineOf last ↔
      EndsUnspaced last.detailText.toList := by
  obtain ⟨before, hline⟩ := exists_line_eq lineOf last
  constructor
  · intro heq
    have hsame : trimEnd (line lineOf last) = line lineOf last := by
      have hjoin : ['\t'].intercalate ((trimEnd (line lineOf last)).splitOn '\t') =
          trimEnd (line lineOf last) := List.intercalate_splitOn '\t'
      rw [← hjoin, heq, line]
    rwa [hline, trimEnd_tab_eq_iff] at hsame
  · intro hends
    have hsame : trimEnd (line lineOf last) = line lineOf last := by
      rwa [hline, trimEnd_tab_eq_iff]
    rw [hsame, splitOn_line h]

theorem readsBack_listing {rows : List Entry} (h : ∀ e ∈ rows, e.IsTabular) :
    ReadsBack lineOf rows (written (listing lineOf rows)) where
  empty := by
    rintro rfl
    exact readBack_listing_nil lineOf
  lines := by
    rintro front last rfl
    exact readBack_listing h
  whole_iff := by
    rintro front last rfl
    rw [readBack_listing h, List.map_append, List.map_singleton, List.append_cancel_left_eq,
      List.singleton_inj]
    exact splitOn_trimEnd_line_iff (h last (by simp))
  short := by
    rintro front last rfl hdetail hends
    rw [readBack_listing h, List.getLast?_concat, trimEnd_line_of_detailText_eq hdetail hends,
      List.splitOn_intercalate '\t' _ (List.cons_ne_nil _ _)]
    intro column hmem
    have hcolumn : column ∈ columns lineOf last :=
      List.mem_append_left [last.detailText.toList] hmem
    exact (isColumn_of_mem_columns (h last (by simp)) column hcolumn).no_tab

end CommandLine

/-! ### What is scanned -/

/-- The name of a row fits into a column, and so does what is said about it, if anything, which then
ends in no white space. -/
structure Catalog.Entry.IsTidy (e : Catalog.Entry) : Prop where
  /-- The name fits into a column. -/
  name : IsColumn e.name.toList
  /-- What is said about it does. -/
  detail : ∀ text, e.detail = some text → IsColumn text.toList ∧ EndsUnspaced text.toList

namespace Scan

open Catalog

variable {maxScan brace : Nat} {path : Path} {text : List Char} {header : Header} {f : Finding}
  {e : Entry}

/-- The row of a finding once it is recorded. -/
def Finding.row? : Finding → Option Entry
  | .struct name d => some (structEntry name d)
  | .aliased name a => some (aliasEntry name a)
  | .unparseable name u => some (unparseableEntry name u)
  | .problem _ => none

theorem isTidy_structEntry {name : String} {d : StructDefinition}
    (hname : ∀ c ∈ name.toList, isSpace c = false)
    (hbase : ∀ base, d.base = some base → IsWord base.toList) : (structEntry name d).IsTidy := by
  refine ⟨isColumn_of_no_space hname, fun text htext => ?_⟩
  obtain ⟨base, hsome, rfl⟩ := Option.map_eq_some_iff.1 htext
  have hword := hbase base hsome
  rw [String.toList_append]
  exact ⟨.append (by decide) (isColumn_of_no_space hword.no_space),
    (endsUnspaced_of_no_space hword.ne_nil hword.no_space).append _⟩

theorem isTidy_aliasEntry {name : String} {a : Alias} (hname : isIdentifier name.toList = true)
    (htarget : isIdentifier a.target.toList = true) : (aliasEntry name a).IsTidy := by
  have hident := isIdent_of_isIdentifier htarget
  have hcolumn := isColumn_of_no_space hident.no_space
  have hends := endsUnspaced_of_no_space hident.ne_nil hident.no_space
  refine ⟨isColumn_of_no_space (isIdent_of_isIdentifier hname).no_space, fun text htext => ?_⟩
  obtain rfl := Option.some.inj htext
  split
  · rw [String.toList_append]
    exact ⟨.append (by decide) hcolumn, hends.append _⟩
  · exact ⟨hcolumn, hends⟩

/-- The reasons are fixed texts. -/
theorem isTidy_unparseableEntry {name : String} {offset : Nat} {fault : Header.NameFault}
    {reason : String} (hname : ∀ c ∈ name.toList, isSpace c = false)
    (hreason : reason = fault.message ∨ reason = aliasReason fault) :
    (unparseableEntry name ⟨path, offset, reason⟩).IsTidy := by
  refine ⟨isColumn_of_no_space hname, fun text htext => ?_⟩
  obtain rfl := Option.some.inj htext
  dsimp only
  have hmessage : IsColumn fault.message.toList ∧ EndsUnspaced fault.message.toList := by
    cases fault <;> decide
  rcases hreason with rfl | rfl
  · exact hmessage
  · unfold aliasReason
    rw [String.toList_append, String.toList_append]
    exact ⟨.append (.append (by decide) hmessage.1) (by decide), .append (by decide) _⟩

/-- What a header declares can be listed. -/
theorem isTidy_of_mem_headerFindings (hheader : Header.StandsAt text brace header)
    (h : f ∈ headerFindings maxScan path text brace header) (hrow : f.row? = some e) :
    e.IsTidy := by
  obtain ⟨hname, hbase⟩ := Header.no_space_declared hheader.no_space
  have hwell := wellNamed_of_mem_headerFindings h
  cases declaredBy_of_mem_headerFindings h with
  | struct =>
    obtain rfl := Option.some.inj hrow
    exact isTidy_structEntry hname hbase
  | unparseable =>
    obtain rfl := Option.some.inj hrow
    exact isTidy_unparseableEntry hname (.inl rfl)
  | malformed => cases hrow
  | aliased =>
    obtain rfl := Option.some.inj hrow
    exact isTidy_aliasEntry hwell.1 hwell.2.1
  | unnamed _ _ _ hd =>
    obtain rfl := Option.some.inj hrow
    have hident := isIdent_of_isIdentifier (isIdentifier_of_mem_parseList hd)
    exact isTidy_unparseableEntry hident.no_space (.inr rfl)

/-- All that a text holds can be listed. -/
theorem isTidy_of_mem_findings (h : f ∈ findings maxScan path text) (hrow : f.row? = some e) :
    e.IsTidy := by
  have hwell := wellNamed_of_mem_findings h
  rw [findings, List.mem_append, List.mem_flatMap, List.mem_flatMap] at h
  rcases h with ⟨⟨brace, header⟩, hheader, h⟩ | ⟨statement, -, h⟩
  · exact isTidy_of_mem_headerFindings (Header.mem_all_iff.1 (List.mem_filter.1 hheader).1) h hrow
  · cases statedBy_of_mem_statementFindings h with
    | aliased =>
      obtain rfl := Option.some.inj hrow
      exact isTidy_aliasEntry hwell.1 hwell.2.1
    | malformed => cases hrow

end Scan

namespace Workspace

open Catalog Scan

/-- What a catalog holds after files have been read and scanned was found in one of their texts, or
the catalog held it before. -/
theorem mem_findings_or_heldBy_of_foldl_scanFile {maxScan : Nat} {reader : Reader}
    {files : List Path} {done : Scanned} {f : Finding}
    (h : f.HeldBy (files.foldl (scanFile maxScan reader) done).catalog) :
    (∃ path text, f ∈ findings maxScan path text) ∨ f.HeldBy done.catalog := by
  induction files generalizing done with
  | nil => exact .inr h
  | cons path files ih =>
    rcases ih h with hfound | hheld
    · exact .inl hfound
    · rw [scanFile] at hheld
      split at hheld
      · rename_i text _
        rcases mem_or_heldBy_of_foldl_record hheld with hmem | hheld
        · exact .inl ⟨path, text, hmem⟩
        · exact .inr (heldBy_removePath hheld).1
      · exact .inr hheld

end Workspace

/-- The rows of a catalog that has been filled by scanning can be listed. -/
theorem Catalog.Lists.isTidy {d : Disk} {roots : List Path} {s : Settings} {e : Catalog.Entry}
    (h : (CommandLine.catalogOf d roots s).Lists e) : e.IsTidy := by
  have hheld : ∃ f : Scan.Finding, f.HeldBy (CommandLine.catalogOf d roots s) ∧
      f.row? = some e := by
    cases h with
    | @struct name definition h => exact ⟨.struct name definition, h, rfl⟩
    | @aliasName name value h => exact ⟨.aliased name value, h, rfl⟩
    | @unparseable name entry h => exact ⟨.unparseable name entry, h, rfl⟩
  obtain ⟨f, hheld, hrow⟩ := hheld
  have hscanned : f.HeldBy (Workspace.scanInto s.flatten.maxScanBytes d.reader .empty 0
      (Workspace.discover d roots s.indexing).files).catalog := by
    cases f <;> exact hheld
  rcases Workspace.mem_findings_or_heldBy_of_foldl_scanFile hscanned with
    ⟨path, text, hmem⟩ | hempty
  · exact Scan.isTidy_of_mem_findings hmem hrow
  · cases f <;> simp [Scan.Finding.HeldBy, Catalog.empty] at hempty

namespace CommandLine

open Catalog Output

/-- What can be read back of the listing of a search. Its rows, in order, are those of the lines, as
long as no tab and no line feed is in a name, a path or what is said about a row; for a catalog that
is scanned by the command itself, only the paths matter. But the white space at the end of the
listing is dropped, and the tab in front of an empty last column is part of it: the last row is read
back exactly if something is said about it. Otherwise its line ends with the third column. -/
theorem symbols_read_back (query : String) :
    (∀ (c : Catalog) (lineOf : Path → Nat → Option Nat),
      (∀ e ∈ c.searchAll query, e.IsTabular) →
      ReadsBack lineOf (c.searchAll query) (written (listing lineOf (c.searchAll query)))) ∧
    ∀ (d : Disk) (roots : List Path) (s : Settings),
      loadSettings d (scanRoots d roots) none = .ok s →
      let rows := (catalogOf d (scanRoots d roots) s).searchAll query
      (∀ e ∈ rows, IsColumn e.path.display.toList) →
      ReadsBack (lineOfFile d) rows (runSymbols d query roots).printed ∧
      ∀ front last, rows = front ++ [last] →
        (readBack (runSymbols d query roots).printed = rows.map (columns (lineOfFile d)) ↔
          last.detail.isSome = true) := by
  refine ⟨fun c lineOf h => readsBack_listing h, fun d roots s hs => ?_⟩
  intro rows hpaths
  have hprinted : (runSymbols d query roots).printed = written (listing (lineOfFile d) rows) := by
    rw [runSymbols, hs]
    rfl
  have htidy : ∀ e ∈ rows, e.IsTidy := fun e he => ((mem_ordered_iff (.refl _)).1 he).1.isTidy
  -- Only a path can hold a tab or a line feed.
  have htabular : ∀ e ∈ rows, e.IsTabular := by
    refine fun e he => ⟨(htidy e he).name, hpaths e he, ?_⟩
    rw [Entry.detailText]
    cases hdetail : e.detail with
    | none => decide
    | some text => exact ((htidy e he).detail text hdetail).1
  have hread : ReadsBack (lineOfFile d) rows (runSymbols d query roots).printed := by
    rw [hprinted]
    exact readsBack_listing htabular
  refine ⟨hread, fun front last hrows => ?_⟩
  rw [hread.whole_iff front last hrows, Entry.detailText]
  cases hdetail : last.detail with
  | none => simp [EndsUnspaced]
  | some text =>
    have hends := ((htidy last (by rw [hrows]; simp)).detail text hdetail).2
    simpa using hends

/-- A directory with a file that defines a struct and another one that it is based on. -/
def treeDisk : Disk where
  entries :=
    [([.ofString "w"], .directory),
      ([.ofString "w", .ofString "tree.h"],
        .text "struct Leaf : Node \x7b\n    int a;\n\x7d;\nstruct Node \x7b\n    int b;\n\x7d;\n")]
  current := [.ofString "w"]

/-- The row of the struct that has a base. -/
def leafRow : Entry :=
  ⟨"Leaf", .struct, .ofString "/w/tree.h", some 19, some ": Node"⟩

/-- The row of the base. -/
def nodeRow : Entry :=
  ⟨"Node", .struct, .ofString "/w/tree.h", some 47, none⟩

theorem loadSettings_treeDisk :
    loadSettings treeDisk (scanRoots treeDisk []) none = .ok .default := by
  decide +kernel

/-- The rows are in order already. -/
theorem searchAll_treeDisk :
    (catalogOf treeDisk (scanRoots treeDisk []) .default).searchAll "" = [leafRow, nodeRow] ∧
    (catalogOf treeDisk (scanRoots treeDisk []) .default).searchAll "leaf" = [leafRow] := by
  have hall : (catalogOf treeDisk (scanRoots treeDisk []) .default).allEntries =
      [leafRow, nodeRow] := by
    decide +kernel
  have hboth : [leafRow, nodeRow].filter (fun e => nameMatches (lowercase "".toList) e.name) =
      [leafRow, nodeRow] := by
    decide +kernel
  have hleaf : [leafRow, nodeRow].filter (fun e => nameMatches (lowercase "leaf".toList) e.name) =
      [leafRow] := by
    decide +kernel
  rw [searchAll, searchAll, hall, hboth, hleaf, List.mergeSort_singleton]
  exact ⟨List.mergeSort_of_pairwise (by decide +kernel), rfl⟩

/-- `symbols_read_back` for two queries: the row of a struct with a base is read back, with a line
number or without one, and that of its base, which comes last, lacks a column. -/
theorem symbols_read_back_tree :
    readBack (written (listing (fun _ _ => none)
        ((catalogOf treeDisk (scanRoots treeDisk []) .default).searchAll "leaf"))) =
      [["Leaf".toList, "struct".toList, "/w/tree.h".toList, ": Node".toList]] ∧
    readBack (runSymbols treeDisk "leaf" []).printed =
      [["Leaf".toList, "struct".toList, "/w/tree.h:1".toList, ": Node".toList]] ∧
    (readBack (runSymbols treeDisk "" []).printed).getLast? =
      some ["Node".toList, "struct".toList, "/w/tree.h:4".toList] := by
  obtain ⟨hboth, hleaf⟩ := searchAll_treeDisk
  obtain ⟨-, hiff⟩ := (symbols_read_back "leaf").2 treeDisk [] .default loadSettings_treeDisk
    (by rw [hleaf]; decide +kernel)
  obtain ⟨hread, -⟩ := (symbols_read_back "").2 treeDisk [] .default loadSettings_treeDisk
    (by rw [hboth]; decide +kernel)
  have hlisted := (symbols_read_back "leaf").1 (catalogOf treeDisk (scanRoots treeDisk []) .default)
    (fun _ _ => none) (by rw [hleaf]; decide +kernel)
  refine ⟨?_, ?_, ?_⟩
  · rw [(hlisted.whole_iff [] leafRow hleaf).2 (by decide +kernel), hleaf]
    decide +kernel
  · rw [(hiff [] leafRow hleaf).2 rfl, hleaf]
    decide +kernel
  · rw [hread.short [leafRow] nodeRow hboth rfl (by decide +kernel)]
    decide +kernel

/-- There is a row for each of two structs, and the line of the second one has three columns instead
of four. -/
theorem symbols_lose_column :
    (catalogOf treeDisk (scanRoots treeDisk []) .default).searchAll "" = [leafRow, nodeRow] ∧
    (∀ e ∈ [leafRow, nodeRow], e.IsTabular) ∧
    (runSymbols treeDisk "" []).printed =
      "Leaf\tstruct\t/w/tree.h:1\t: Node\nNode\tstruct\t/w/tree.h:4\n" ∧
    readBack (runSymbols treeDisk "" []).printed ≠
      [leafRow, nodeRow].map (columns (lineOfFile treeDisk)) := by
  have hprinted : (runSymbols treeDisk "" []).printed =
      "Leaf\tstruct\t/w/tree.h:1\t: Node\nNode\tstruct\t/w/tree.h:4\n" := by
    rw [runSymbols, loadSettings_treeDisk]
    dsimp only
    rw [searchAll_treeDisk.1]
    decide +kernel
  rw [hprinted]
  exact ⟨searchAll_treeDisk.1, by decide +kernel, rfl, by decide +kernel⟩

end CommandLine

end StructUnfold
