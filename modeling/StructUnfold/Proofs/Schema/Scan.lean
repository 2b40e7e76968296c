import StructUnfold.Proofs.Schema.Printing
import StructUnfold.Proofs.Source.Comment
import StructUnfold.Proofs.Source.Declarator
import StructUnfold.Proofs.Source.Header

/-!
# Reading printed files

Headers are found line by line and statements by one walk over the text. Both walks pass over an
entry as a whole, whatever stands behind it, so what they find in a file is put together from what
they find in its entries.

* `all_printFile`: the headers of a printed file are those of its structs.
* `map_body_all_printFile`: the statements of a printed file are those that declare aliases.
-/

namespace StructUnfold.Schema

open Text

/-! ### Headers -/

/-- A line without a brace has no header. -/
theorem ofLinesFrom_append_of_not_mem {ls : List (List Char)} (h : ∀ l ∈ ls, '{' ∉ l) (pos : Nat)
    (rest : List (List Char)) :
    Header.ofLinesFrom pos (ls ++ rest) =
      Header.ofLinesFrom (pos + byteSize (joinLines ls)) rest := by
  induction ls generalizing pos with
  | nil => simp
  | cons l ls ih =>
    obtain ⟨hl, hls⟩ := List.forall_mem_cons.1 h
    have hnone : Header.ofLine? l = none := by
      refine Option.eq_none_iff_forall_ne_some.2 fun found hfound => ?_
      obtain ⟨⟨-, after, rfl⟩, -⟩ := Header.ofLine?_eq_some_iff.1 hfound
      simp at hl
    rw [List.cons_append, Header.ofLinesFrom, hnone]
    dsimp only
    rw [ih hls, joinLines_cons, byteSize_append, byteSize_newline_cons]
    ac_rfl

namespace Entry

/-- The header of an entry whose first line begins at an offset, with the offset of its brace. -/
def header? (pos : Nat) : Entry → Option (Nat × Header)
  | .struct name _ aliases =>
    some (pos + byteSize (opening name aliases), ⟨!aliases.isEmpty, name.toList, none⟩)
  | .alias _ _ => none

/-- The line that opens a struct parses. -/
theorem parse?_opening {name : String} (hname : isIdentifier name.toList = true)
    (aliases : List Declarator) :
    Header.parse? (opening name aliases) = some ⟨!aliases.isEmpty, name.toList, none⟩ := by
  have hident := isIdent_of_isIdentifier hname
  cases aliases with
  | nil => exact Header.parse?_struct hident
  | cons d ds => exact Header.parse?_typedef hident

/-- The search for headers passes over an entry. -/
theorem Proper.ofLinesFrom_lines {e : Entry} (he : e.Proper) (pos : Nat)
    (rest : List (List Char)) :
    Header.ofLinesFrom pos (e.lines ++ rest) =
      (e.header? pos).toList ++ Header.ofLinesFrom (pos + byteSize (joinLines e.lines)) rest := by
  cases he with
  | @struct name members aliases hname _ hmembers haliases _ =>
    have hbrace : '{' ∉ opening name aliases :=
      (isPlain_opening hname aliases).not_mem (by decide) (by decide)
    have hline : Header.ofLine? (opening name aliases ++ ['{']) =
        some (opening name aliases, ⟨!aliases.isEmpty, name.toList, none⟩) :=
      Header.ofLine?_eq_some_iff.2 ⟨⟨hbrace, [], rfl⟩, parse?_opening hname aliases⟩
    -- Of the lines of a struct only the first one holds a brace that is opened.
    have hinner := not_mem_innerLines hmembers haliases (c := '{') (by decide) (by decide)
    have hlines : lines (.struct name members aliases) =
        (opening name aliases ++ ['{']) :: innerLines members aliases := rfl
    rw [hlines, List.cons_append, Header.ofLinesFrom, hline]
    dsimp only
    rw [ofLinesFrom_append_of_not_mem hinner, joinLines_cons, byteSize_append _ ('\n' :: _),
      byteSize_newline_cons, header?]
    simp only [Option.toList_some, List.singleton_append]
    congr 2
    ac_rfl
  | @«alias» target aliases htarget _ haliases _ =>
    refine ofLinesFrom_append_of_not_mem (fun l hl => ?_) pos rest
    rw [lines_alias] at hl
    obtain rfl := List.mem_singleton.1 hl
    exact not_mem_ofBody (.statementBody htarget haliases) (by decide) (by decide)

end Entry

/-- The headers of entries that begin at an offset, each with the offset of its brace. -/
def headersFrom (pos : Nat) : List Entry → List (Nat × Header)
  | [] => []
  | e :: es => (e.header? pos).toList ++ headersFrom (pos + byteSize (joinLines e.lines)) es

/-- The headers of a printed file are those of its structs. -/
theorem all_printFile {es : List Entry} (hes : ∀ e ∈ es, e.Proper) :
    Header.all (printFile es) = headersFrom 0 es := by
  have hlines : ∀ l ∈ es.flatMap Entry.lines, '\n' ∉ l := by
    intro l hl
    obtain ⟨e, he, hl⟩ := List.mem_flatMap.1 hl
    exact (hes e he).not_mem_line (by decide) (by decide) l hl
  have hfrom : ∀ pos, Header.ofLinesFrom pos (es.flatMap Entry.lines ++ [[]]) =
      headersFrom pos es := by
    clear hlines
    induction es with
    | nil => exact fun _ => rfl
    | cons e es ih =>
      obtain ⟨he, hes⟩ := List.forall_mem_cons.1 hes
      intro pos
      rw [List.flatMap_cons, List.append_assoc, he.ofLinesFrom_lines, ih hes, headersFrom]
  rw [Header.all, printFile, splitLines_joinLines hlines, hfrom]

/-- A header stands where its entry does. -/
theorem mem_headersFrom_iff {pos : Nat} {es : List Entry} {found : Nat × Header} :
    found ∈ headersFrom pos es ↔ ∃ es₁ e es₂, es = es₁ ++ e :: es₂ ∧
      e.header? (pos + byteSize (printFile es₁)) = some found := by
  induction es generalizing pos with
  | nil => simp [headersFrom]
  | cons e es ih =>
    rw [headersFrom, List.mem_append, ih, Option.mem_toList]
    constructor
    · rintro (hfound | ⟨es₁, e', es₂, rfl, hfound⟩)
      · exact ⟨[], e, es, rfl, by simpa using hfound⟩
      · refine ⟨e :: es₁, e', es₂, rfl, ?_⟩
        rwa [printFile_cons, byteSize_append, ← Nat.add_assoc]
    · rintro ⟨es₁, e', es₂, heq, hfound⟩
      cases es₁ with
      | nil =>
        obtain ⟨rfl, rfl⟩ := List.cons_eq_cons.1 heq
        exact .inl (by simpa using hfound)
      | cons e₁ es₁ =>
        obtain ⟨rfl, rfl⟩ := List.cons_eq_cons.1 heq
        refine .inr ⟨es₁, e', es₂, rfl, ?_⟩
        rwa [printFile_cons, byteSize_append, ← Nat.add_assoc] at hfound

/-! ### Statements -/

open AliasStatement

/-- No statement begins in a name that is not `typedef` itself. -/
theorem inert_name {name : String} (hname : isIdentifier name.toList = true)
    (hne : name ≠ "typedef") {c : Char} (hc : isIdentChar c = false) :
    Inert (name.toList ++ [c]) := by
  refine inert_ident (isIdent_of_isIdentifier hname) hc fun heq => ?_
  exact absurd (String.toList_inj.1 heq) hne

/-- No statement begins in the keyword of a struct. -/
theorem inert_keyword : Inert ("struct".toList ++ [' ']) :=
  inert_ident (by decide) (by decide) (by decide)

/-- A name that is no keyword does not begin a statement. -/
theorem ne_typedef_of_not_mem_keywords {name : String} (h : name ∉ keywords) :
    name ≠ "typedef" := by
  rintro rfl
  exact h (by decide)

/-- No statement begins in the text of a member. -/
theorem Member.inert_text {m : Member} (hm : IsMember m) : Inert m.text := by
  have htype : ∀ c, isIdentChar c = false → Inert (m.type.toList ++ [c]) := fun c =>
    inert_name hm.type hm.no_typedef
  have hchar : ∀ c, isIdentChar c = false → Inert [c] := fun c => inert_of_not_isIdentChar
  have hname : Inert (m.declarator.toList ++ [';']) :=
    inert_ident (isIdent_of_isIdentifier hm.declarator) (by decide) fun _ => by decide
  -- No word before the declarator is `typedef`, and each is followed by a space or a star.
  have hlead : Inert m.lead := by
    rw [lead]
    refine .append ?_ ?_
    · split
      · exact inert_keyword
      · exact inert_nil
    · cases m.style with
      | plain => exact htype ' ' (by decide)
      | keyword => exact htype ' ' (by decide)
      | starOnType =>
        have h := (htype '*' (by decide)).append (hchar ' ' (by decide))
        rwa [List.append_assoc] at h
      | starOnName =>
        have h := (htype ' ' (by decide)).append (hchar '*' (by decide))
        rwa [List.append_assoc] at h
  rw [text_eq, List.append_assoc]
  exact hlead.append hname

/-- No statement begins in a list of declarators. -/
theorem inert_declaratorList {d : Declarator} {ds : List Declarator}
    (h : ∀ e ∈ d :: ds, IsDeclarator e) : Inert (declaratorList (d :: ds) ++ [';']) := by
  have hone : ∀ e, IsDeclarator e → ∀ c, isIdentChar c = false →
      Inert (declaratorText e ++ [c]) := by
    intro e he c hc
    have hname := inert_name he.ident (ne_typedef_of_not_mem_keywords he.no_keyword) hc
    rw [declaratorText, List.append_assoc]
    refine .append ?_ hname
    split
    · exact inert_of_not_isIdentChar (by decide)
    · exact inert_nil
  induction ds generalizing d with
  | nil =>
    rw [declaratorList_singleton]
    exact hone d (h d List.mem_cons_self) ';' (by decide)
  | cons e ds ih =>
    obtain ⟨hd, hds⟩ := List.forall_mem_cons.1 h
    have hspace : Inert [' '] := inert_of_not_isIdentChar (by decide)
    have hall := ((hone d hd ',' (by decide)).append hspace).append (ih hds)
    rw [declaratorList_cons_cons]
    simpa using hall

/-- No statement begins in lines if none begins in one of them. -/
theorem inert_joinLines {ls : List (List Char)} (h : ∀ l ∈ ls, Inert l) : Inert (joinLines ls) := by
  induction ls with
  | nil => exact inert_nil
  | cons l ls ih =>
    obtain ⟨hl, hls⟩ := List.forall_mem_cons.1 h
    have hfeed : Inert ['\n'] := inert_of_not_isIdentChar (by decide)
    rw [joinLines_cons]
    exact hl.append (hfeed.append (ih hls))

namespace Entry

/-- No statement begins in the line that opens a struct, for a brace comes before the semicolon. -/
theorem inert_opening {name : String} (hname : isIdentifier name.toList = true)
    (hkeyword : name ∉ keywords) (aliases : List Declarator) :
    Inert (opening name aliases ++ ['{']) := by
  have hword : Inert (name.toList ++ [' ']) :=
    inert_name hname (ne_typedef_of_not_mem_keywords hkeyword) (by decide)
  have hchar : ∀ c, isIdentChar c = false → Inert [c] := fun c => inert_of_not_isIdentChar
  have hstruct : Inert ("struct".toList ++ [' '] ++ (name.toList ++ [' ']) ++ ['{']) :=
    (inert_keyword.append hword).append (hchar '{' (by decide))
  have hassoc : ∀ front struct : List Char, front ++ (struct ++ [' ']) ++ name.toList ++ [' '] ++
      ['{'] = front ++ (struct ++ [' '] ++ (name.toList ++ [' ']) ++ ['{']) := by simp
  cases aliases with
  | nil => exact hassoc [] "struct".toList ▸ hstruct
  | cons d ds =>
    -- With the keyword before it the line begins like a statement, but runs into the brace.
    have hspace : IsPlain [' '] := by decide
    have hbody : IsPlain (' ' :: (name.toList ++ [' '])) :=
      hspace.append ((IsPlain.ident hname).append hspace)
    have hstart : ∀ rest,
        startOf? ("typedef".toList ++
          ([' '] ++ ("struct".toList ++ [' '] ++ (name.toList ++ [' ']) ++ ['{']) ++ rest)) =
            none := by
      intro rest
      have htext : ∀ struct : List Char,
          [' '] ++ (struct ++ [' '] ++ (name.toList ++ [' ']) ++ ['{']) ++ rest =
            ' ' :: (struct ++ (' ' :: (name.toList ++ [' ']) ++ '{' :: rest)) := by
        simp
      rw [htext]
      refine (startOf?_append (List.cons_ne_nil ' ' [])
        (List.forall_mem_singleton.2 rfl) _).trans ?_
      rw [bodyFromKeyword?_append hbody.isBodyChar rfl (by decide) (by decide)]
      rfl
    have hall := ((hchar ' ' (by decide)).append hstruct).ident_append
      (w := "typedef".toList) (by decide) hstart
    have hfront : ∀ s : List Char, "typedef".toList ++ ([' '] ++ s) = "typedef ".toList ++ s :=
      fun s => rfl
    rw [hfront] at hall
    exact hassoc "typedef ".toList "struct".toList ▸ hall

/-- No statement begins in a struct. -/
theorem Proper.inert_struct {name : String} {members : List Member} {aliases : List Declarator}
    (h : Proper (.struct name members aliases)) :
    Inert (joinLines (lines (.struct name members aliases))) := by
  cases h with
  | struct hname hkeyword hmembers haliases _ =>
    have hchar : ∀ c, isIdentChar c = false → Inert [c] := fun c => inert_of_not_isIdentChar
    have hindent : Inert "    ".toList := by
      have hspace := hchar ' ' (by decide)
      exact hspace.append (hspace.append (hspace.append hspace))
    have hinner : ∀ l ∈ innerLines members aliases, Inert l := by
      intro l hl
      rw [innerLines, List.mem_append, List.mem_map, List.mem_singleton] at hl
      rcases hl with ⟨m, hm, rfl⟩ | rfl
      · exact hindent.append (Member.inert_text (hmembers m hm))
      · refine (hchar '}' (by decide)).append ?_
        cases aliases with
        | nil => exact hchar ';' (by decide)
        | cons d ds => exact (hchar ' ' (by decide)).append (inert_declaratorList haliases)
    exact inert_joinLines (List.forall_mem_cons.2 ⟨inert_opening hname hkeyword aliases, hinner⟩)

/-- What stands between `struct` and the semicolon of the statement that an entry is. -/
def statement? : Entry → Option (List Char)
  | .struct _ _ _ => none
  | .alias target aliases => some (statementBody target aliases)

end Entry

theorem getLast?_joinLines {ls : List (List Char)} (h : ls ≠ []) :
    (joinLines ls).getLast? = some '\n' := by
  rcases List.eq_nil_or_concat ls with rfl | ⟨ls, l, rfl⟩
  · exact absurd rfl h
  · simp

/-- The statements of a printed file are those that declare aliases. -/
theorem map_body_all_printFile {es : List Entry} (hes : ∀ e ∈ es, e.Proper) :
    (AliasStatement.all (printFile es)).map AliasStatement.body =
      es.filterMap Entry.statement? := by
  -- Each entry ends in a line feed, so no word goes on where the next one begins.
  have hfrom : ∀ previous : Option Char, previous.any isWordChar = false → ∀ pos,
      (ofTextFrom previous 0 pos (printFile es)).map AliasStatement.body =
        es.filterMap Entry.statement? := by
    induction es with
    | nil => exact fun _ _ _ => rfl
    | cons e es ih =>
      have hrest := fun pos => ih (List.forall_mem_cons.1 hes).2 (some '\n') (by decide) pos
      intro previous hprevious pos
      cases hes e List.mem_cons_self with
      | @struct name members aliases hname hkeyword hmembers haliases hdiffer =>
        have hinert := (Entry.Proper.struct hname hkeyword hmembers haliases hdiffer).inert_struct
        have hlines : Entry.lines (.struct name members aliases) ≠ [] := List.cons_ne_nil _ _
        rw [printFile_cons, hinert, getLast?_joinLines hlines, Option.some_or,
          hrest]
        rfl
      | @«alias» target aliases htarget _ haliases _ =>
        have hbody := IsPlain.statementBody htarget haliases
        have hfeed : Inert ['\n'] := inert_of_not_isIdentChar (by decide)
        have htext : printFile (.alias target aliases :: es) =
            ofBody (statementBody target aliases) ++ (['\n'] ++ printFile es) := by
          rw [printFile_cons, Entry.lines_alias, joinLines_cons, joinLines_nil, List.append_assoc]
        rw [htext, ofTextFrom_statement hprevious hbody.isBodyChar rfl, hfeed, List.map_cons]
        exact congrArg _ (hrest _)
  exact hfrom none rfl 0

end StructUnfold.Schema
