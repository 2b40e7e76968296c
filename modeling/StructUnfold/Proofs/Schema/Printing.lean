import StructUnfold.Proofs.Schema.Declarators
import StructUnfold.Proofs.Source.Declarator
import StructUnfold.Text.Line

/-!
# Printed entries

The printed text of an entry holds identifiers and a few other characters, and a brace only at the
end of the line that opens a struct and at the start of the one that closes it.

* `Entry.Proper`: the entries of a well-formed schema.
* `IsPlain`: a text holds the characters of printed lines, braces aside.
* `splitLines_joinLines`: printed lines are told apart again.
-/

namespace StructUnfold.Schema

open Text

/-! ### Entries of a well-formed schema -/

/-- A member of a well-formed schema. -/
structure IsMember (m : Member) : Prop where
  /-- Its type is an identifier. -/
  type : isIdentifier m.type.toList = true
  /-- Its type does not begin a statement. -/
  no_typedef : m.type ≠ "typedef"
  /-- Its name is an identifier. -/
  declarator : isIdentifier m.declarator.toList = true

namespace Entry

/-- An entry of a well-formed schema. -/
inductive Proper : Entry → Prop where
  /-- A struct and its aliases. -/
  | struct {name members aliases} (hname : isIdentifier name.toList = true)
    (hkeyword : name ∉ keywords) (hmembers : ∀ m ∈ members, IsMember m)
    (haliases : ∀ d ∈ aliases, IsDeclarator d) (hdiffer : ∀ d ∈ aliases, d.name ≠ name) :
    Proper (.struct name members aliases)
  /-- Aliases of another name. -/
  | alias {target aliases} (htarget : isIdentifier target.toList = true) (hne : aliases ≠ [])
    (haliases : ∀ d ∈ aliases, IsDeclarator d) (hdiffer : ∀ d ∈ aliases, d.name ≠ target) :
    Proper (.alias target aliases)

end Entry

variable {s : Schema}

/-- All entries of a well-formed schema are proper. -/
theorem Valid.proper (hs : s.Valid) {e : Entry} (he : e ∈ s.entries) : e.Proper := by
  have hnames := hs.names e he
  have hnodup := (List.nodup_flatMap.1 hs.nodup).1 e he
  cases e with
  | struct name members aliases =>
    have hname := hnames name List.mem_cons_self
    refine .struct hname.1 hname.2 (fun m hm => ?_) (fun d hd => ?_) fun d hd => ?_
    · have htype := hs.types _ he m hm
      exact ⟨htype.1, htype.2, hs.declarators _ he m hm⟩
    · have hd := hnames d.name (List.mem_cons_of_mem _ (List.mem_map_of_mem hd))
      exact ⟨hd.1, hd.2⟩
    · rintro rfl
      exact (List.nodup_cons.1 hnodup).1 (List.mem_map_of_mem hd)
  | «alias» target aliases =>
    obtain ⟨htarget, hne⟩ := hs.statements target aliases he
    refine .alias htarget hne (fun d hd => ?_) fun d hd => ?_
    · have hd := hnames d.name (List.mem_map_of_mem hd)
      exact ⟨hd.1, hd.2⟩
    · -- An alias of its own name would lead back to itself.
      rintro rfl
      exact hs.acyclic d.name (.single ⟨d.isPointer, .inr ⟨aliases, he, hd⟩⟩)

/-- The members of a struct of a well-formed schema. -/
theorem Valid.isMember_of_hasStruct (hs : s.Valid) {name : String} {members : List Member}
    (h : s.HasStruct name members) : ∀ m ∈ members, IsMember m := by
  obtain ⟨aliases, he⟩ := h
  cases hs.proper he with
  | struct _ _ hmembers => exact hmembers

/-! ### Characters of printed lines -/

/-- A text holds the characters of printed lines, braces and semicolons aside. -/
def IsPlain (text : List Char) : Prop :=
  ∀ c ∈ text, isIdentChar c = true ∨ c ∈ [' ', ',', '*']

instance : DecidablePred IsPlain := fun text =>
  List.decidableBAll _ text

namespace IsPlain

variable {text text' : List Char}

/-- No other character occurs in it. -/
theorem not_mem (h : IsPlain text) {c : Char} (hc : isIdentChar c = false)
    (hc' : c ∉ [' ', ',', '*']) : c ∉ text := by
  intro hmem
  rcases h c hmem with hident | hother
  · exact ne_of_isIdentChar hident hc rfl
  · exact hc' hother

/-- A semicolon behind it adds nothing but that. -/
theorem not_mem_concat (h : IsPlain text) {c : Char} (hc : isIdentChar c = false)
    (hc' : c ∉ [' ', ',', '*', ';']) : c ∉ text ++ [';'] := by
  rw [List.mem_append, not_or]
  refine ⟨h.not_mem hc fun hmem => hc' ?_, fun hmem => hc' ?_⟩
  · exact List.mem_append_left [';'] hmem
  · exact List.mem_append_right [' ', ',', '*'] hmem

/-- It can stand in a statement. -/
theorem isBodyChar (h : IsPlain text) : ∀ c ∈ text, AliasStatement.isBodyChar c = true := by
  intro c hc
  have hne : ∀ d, isIdentChar d = false → d ∉ [' ', ',', '*'] → (c != d) = true := by
    intro d hd hd'
    refine bne_iff_ne.2 ?_
    rintro rfl
    exact h.not_mem hd hd' hc
  rw [AliasStatement.isBodyChar, hne '{' (by decide) (by decide), hne '}' (by decide) (by decide),
    hne ';' (by decide) (by decide), hne '\n' (by decide) (by decide)]
  rfl

theorem append (h : IsPlain text) (h' : IsPlain text') : IsPlain (text ++ text') := by
  intro c hc
  rcases List.mem_append.1 hc with hc | hc
  · exact h c hc
  · exact h' c hc

theorem ident {w : List Char} (hw : isIdentifier w = true) : IsPlain w :=
  fun c hc => .inl ((isIdent_of_isIdentifier hw).chars c hc)

theorem declaratorText {d : Declarator} (hd : IsDeclarator d) :
    IsPlain (Schema.declaratorText d) := by
  intro c hc
  rcases hd.eq_or_of_mem_text hc with rfl | hc
  · exact .inr (by decide)
  · exact .inl hc

theorem declaratorList {ds : List Declarator} (hds : ∀ d ∈ ds, IsDeclarator d) :
    IsPlain (Schema.declaratorList ds) := by
  have hsep : IsPlain ", ".toList := by decide
  cases ds with
  | nil => exact fun c hc => absurd hc (by simp [Schema.declaratorList])
  | cons d ds =>
    rw [Schema.declaratorList, List.map_cons, intercalate_cons]
    refine (declaratorText (hds d List.mem_cons_self)).append fun c hc => ?_
    obtain ⟨text, htext, hc⟩ := List.mem_flatMap.1 hc
    obtain ⟨e, he, rfl⟩ := List.mem_map.1 htext
    exact hsep.append (declaratorText (hds e (List.mem_cons_of_mem _ he))) c hc

/-- What stands between `struct` and the semicolon of a statement. -/
theorem statementBody {target : String} (htarget : isIdentifier target.toList = true)
    {aliases : List Declarator} (haliases : ∀ d ∈ aliases, IsDeclarator d) :
    IsPlain (Schema.statementBody target aliases) := by
  have hspace : IsPlain [' '] := by decide
  exact hspace.append ((ident htarget).append (hspace.append (declaratorList haliases)))

end IsPlain

namespace Member

/-- What stands in the text of a member before its own name. -/
def lead (m : Member) : List Char :=
  (if m.style = .keyword then "struct ".toList else []) ++ (m.type.toList ++
    match m.style with
    | .plain | .keyword => [' ']
    | .starOnType => ['*', ' ']
    | .starOnName => [' ', '*'])

/-- The name of a member and a semicolon end its text. -/
theorem text_eq (m : Member) : m.text = m.lead ++ m.declarator.toList ++ [';'] := by
  obtain ⟨type, style, declarator⟩ := m
  cases style <;>
    simp [text, lead, words, wordsWith, typeWord, declaratorWord, joinWords_cons]

/-- What stands before the semicolon of a member. -/
theorem isPlain_front {m : Member} (hm : IsMember m) :
    IsPlain (m.lead ++ m.declarator.toList) := by
  have hstruct : IsPlain "struct ".toList := by decide
  have hnil : IsPlain [] := by decide
  have hgap : ∀ gap ∈ [[' '], ['*', ' '], [' ', '*']], IsPlain gap := by decide
  refine .append (.append ?_ ((IsPlain.ident hm.type).append ?_)) (.ident hm.declarator)
  · split
    · exact hstruct
    · exact hnil
  · cases m.style <;> exact hgap _ (by decide)

/-- Another character than those of the line does not occur in it. -/
theorem not_mem_line {m : Member} (hm : IsMember m) {c : Char} (hc : isIdentChar c = false)
    (hc' : c ∉ [' ', ',', '*', ';']) : c ∉ m.line := by
  have hindent : IsPlain "    ".toList := by decide
  have hline := (hindent.append (isPlain_front hm)).not_mem_concat hc hc'
  rw [List.append_assoc, ← m.text_eq] at hline
  exact hline

end Member

/-! ### Lines -/

@[simp] theorem joinLines_nil : joinLines [] = [] := rfl

@[simp] theorem joinLines_cons (l : List Char) (ls : List (List Char)) :
    joinLines (l :: ls) = l ++ '\n' :: joinLines ls := by
  simp [joinLines]

@[simp] theorem joinLines_append (ls ls' : List (List Char)) :
    joinLines (ls ++ ls') = joinLines ls ++ joinLines ls' := by
  simp [joinLines]

@[simp] theorem printFile_nil : printFile [] = [] := rfl

theorem printFile_append (es es' : List Entry) :
    printFile (es ++ es') = printFile es ++ printFile es' := by
  simp [printFile]

theorem printFile_cons (e : Entry) (es : List Entry) :
    printFile (e :: es) = joinLines e.lines ++ printFile es := by
  simp [printFile]

/-- Lines are told apart again; nothing stands behind the last line feed. -/
theorem splitLines_joinLines {ls : List (List Char)} (h : ∀ l ∈ ls, '\n' ∉ l) :
    splitLines (joinLines ls) = ls ++ [[]] := by
  induction ls with
  | nil => rfl
  | cons l ls ih =>
    obtain ⟨hl, hls⟩ := List.forall_mem_cons.1 h
    have hrest := ih hls
    rw [splitLines] at hrest ⊢
    rw [joinLines_cons, List.splitOn_append_cons_self_of_not_mem hl, hrest, List.cons_append]

namespace Entry

/-- What stands between the brace that ends the body of a struct and the semicolon. -/
def trailer (aliases : List Declarator) : List Char :=
  if aliases = [] then [] else ' ' :: declaratorList aliases

theorem isPlain_opening {name : String} (hname : isIdentifier name.toList = true)
    (aliases : List Declarator) : IsPlain (opening name aliases) := by
  have hfront : IsPlain (if aliases = [] then [] else "typedef ".toList) := by
    split
    · decide
    · decide
  have hstruct : IsPlain "struct ".toList := by decide
  exact ((hfront.append hstruct).append (.ident hname)).append (by decide)

theorem isPlain_trailer {aliases : List Declarator} (haliases : ∀ d ∈ aliases, IsDeclarator d) :
    IsPlain (trailer aliases) := by
  have hspace : IsPlain [' '] := by decide
  rw [trailer]
  split
  · decide
  · exact hspace.append (.declaratorList haliases)

/-- The lines of a struct behind the first one. -/
def innerLines (members : List Member) (aliases : List Declarator) : List (List Char) :=
  members.map Member.line ++ ['}' :: closing aliases]

theorem not_mem_innerLines {members : List Member} (hmembers : ∀ m ∈ members, IsMember m)
    {aliases : List Declarator} (haliases : ∀ d ∈ aliases, IsDeclarator d) {c : Char}
    (hc : isIdentChar c = false) (hc' : c ∉ [' ', ',', '*', ';', '}']) :
    ∀ l ∈ innerLines members aliases, c ∉ l := by
  have hplain : c ∉ [' ', ',', '*', ';'] := fun hmem => hc' (List.mem_append_left ['}'] hmem)
  intro l hl
  rw [innerLines, List.mem_append, List.mem_map, List.mem_singleton] at hl
  rcases hl with ⟨m, hm, rfl⟩ | rfl
  · exact Member.not_mem_line (hmembers m hm) hc hplain
  · rw [List.mem_cons, not_or]
    refine ⟨?_, (isPlain_trailer haliases).not_mem_concat hc hplain⟩
    rintro rfl
    exact hc' (by decide)

/-- The line of a statement is the statement. -/
theorem lines_alias (target : String) (aliases : List Declarator) :
    lines (.alias target aliases) = [AliasStatement.ofBody (statementBody target aliases)] := by
  have hassoc : ∀ front front' : List Char, front = front' →
      front ++ target.toList ++ [' '] ++ declaratorList aliases ++ [';'] =
        front' ++ (target.toList ++ ' ' :: declaratorList aliases ++ [';']) := by
    rintro front _ rfl
    simp
  exact congrArg (fun l => [l]) (hassoc _ _ rfl)

theorem not_mem_ofBody {body : List Char} (hbody : IsPlain body) {c : Char}
    (hc : isIdentChar c = false) (hc' : c ∉ [' ', ',', '*', ';']) :
    c ∉ AliasStatement.ofBody body := by
  have hfront : IsPlain ("typedef".toList ++ ' ' :: "struct".toList) := by decide
  have hassoc : ∀ typedef struct : List Char, (typedef ++ ' ' :: struct) ++ body ++ [';'] =
      typedef ++ ' ' :: (struct ++ (body ++ [';'])) := by simp
  have hall := (hfront.append hbody).not_mem_concat hc hc'
  exact (hassoc _ _).subst (motive := (c ∉ ·)) hall

/-- Another character than those of the lines occurs in none of them. -/
theorem Proper.not_mem_line {e : Entry} (he : e.Proper) {c : Char} (hc : isIdentChar c = false)
    (hc' : c ∉ [' ', ',', '*', ';', '}', '{']) : ∀ l ∈ e.lines, c ∉ l := by
  cases he with
  | @struct name members aliases hname _ hmembers haliases _ =>
    have hinner : c ∉ [' ', ',', '*', ';', '}'] := fun hmem =>
      hc' (List.mem_append_left ['{'] hmem)
    refine List.forall_mem_cons.2 ⟨?_, not_mem_innerLines hmembers haliases hc hinner⟩
    rw [List.mem_append, not_or]
    refine ⟨(isPlain_opening hname aliases).not_mem hc fun hmem => hc' ?_, fun hmem => hc' ?_⟩
    · exact List.mem_append_left [';', '}', '{'] hmem
    · exact List.mem_append_right [' ', ',', '*', ';', '}'] hmem
  | «alias» htarget _ haliases _ =>
    rw [lines_alias]
    rintro l hl
    obtain rfl := List.mem_singleton.1 hl
    refine not_mem_ofBody (.statementBody htarget haliases) hc fun hmem => hc' ?_
    exact List.mem_append_left ['}', '{'] hmem

end Entry

/-- No comment can stand in a printed file. -/
theorem slash_not_mem_printFile {es : List Entry} (hes : ∀ e ∈ es, e.Proper) :
    '/' ∉ printFile es := by
  rw [printFile, joinLines, List.mem_flatMap]
  rintro ⟨l, hl, hmem⟩
  obtain ⟨e, he, hl⟩ := List.mem_flatMap.1 hl
  rw [List.mem_append, List.mem_singleton] at hmem
  rcases hmem with hmem | hmem
  · exact (hes e he).not_mem_line (by decide) (by decide) l hl hmem
  · cases hmem

end StructUnfold.Schema
