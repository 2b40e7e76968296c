import Mathlib.Data.List.Nodup
import Mathlib.Tactic.MkIffOfInductiveProp
import StructUnfold.Catalog.Basic
import StructUnfold.Proofs.Schema.Basic
import StructUnfold.Proofs.Source.Header
import StructUnfold.Source.Comment
import StructUnfold.Source.Declarator
import StructUnfold.Text.Search
import StructUnfold.Text.WordChar

/-!
# Outlines

An outline is a source text that is taken apart into definitions of structs and alias statements,
with all white space between their parts. What such a text declares, and where, is read off its
parts.

* `Outline.Opening`: what stands before the brace of a struct.
* `Outline.Body`: members, of which some define structs themselves.
* `Outline.AliasText`: a name in a list of aliases with the marks before it.
* `Outline.text`: the text of an outline; `Outline.Proper`: its parts are what they should be.
* `Outline.structs`, `Outline.aliases`: what is declared.
-/

namespace StructUnfold

namespace Outline

open Text

/-! ### Parts of a text -/

/-- The base of a struct, behind its name. -/
structure Base where
  /-- Blanks before the colon. -/
  before : List Char
  /-- Blanks behind the colon. -/
  behind : List Char
  /-- A word for access with the blanks behind it, if there is one. -/
  access : Option (String × List Char)
  /-- Name of the base. -/
  name : String

/-- What stands before the brace of a struct. -/
structure Opening where
  /-- Blanks at the start of the line. -/
  indent : List Char
  /-- Blanks behind the keyword `typedef`, if it is there. -/
  typedef : Option (List Char)
  /-- Words before the keyword `struct`, each with the blanks behind it. -/
  qualifiers : List (String × List Char)
  /-- Blanks behind the keyword `struct`. -/
  gap : List Char
  /-- Name of the struct. -/
  name : String
  /-- Its base, if it has one. -/
  base : Option Base
  /-- Blanks before the brace. -/
  behind : List Char

/-- What stands between the braces of a struct: members, one after the other. -/
inductive Body where
  /-- White space and no further member. -/
  | done (space : List Char)
  /-- A member without braces, up to its semicolon. -/
  | plain (text : List Char) (rest : Body)
  /-- A member that defines a struct itself; `declarator` stands before its semicolon. -/
  | nested (space : List Char) (opening : Opening) (inner : Body) (declarator : List Char)
      (rest : Body)

/-- What may stand before the name of an alias. -/
inductive Mark where
  /-- A star. -/
  | star
  /-- The word `const`. -/
  | const
  /-- The word `volatile`. -/
  | volatile
deriving DecidableEq, Repr

/-- A name in a list of aliases. -/
structure AliasText where
  /-- White space before it. -/
  before : List Char
  /-- The marks of the name, each with the white space behind it. -/
  marks : List (Mark × List Char)
  /-- The name. -/
  name : String
  /-- White space behind it. -/
  behind : List Char

/-- The aliases of a struct, parted by commas. -/
structure AliasList where
  /-- White space before the first one. -/
  space : List Char
  /-- The aliases. -/
  list : List AliasText

/-- What stands at the top level of a text. -/
inductive Item where
  /-- The definition of a struct. -/
  | definition (opening : Opening) (body : Body) (aliases : AliasList)
  /-- A statement that declares aliases of a struct: its indent, the blanks behind `typedef`, the
  white space behind `struct` and the name of the struct. -/
  | statement (indent gap space : List Char) (target : String) (aliases : AliasList)

/-! ### Their texts -/

/-- The text of a base, from the blanks before the colon on. -/
def Base.text (b : Base) : List Char :=
  b.before ++ ':' :: (b.behind ++
    ((b.access.elim [] fun a => a.1.toList ++ a.2) ++ b.name.toList))

namespace Opening

/-- The text of the words before the keyword `struct`. -/
def qualifierText (o : Opening) : List Char :=
  o.qualifiers.flatMap fun q => q.1.toList ++ q.2

/-- The text behind the keyword `struct`. -/
def nameText (o : Opening) : List Char :=
  o.gap ++ (o.name.toList ++ (o.base.elim [] Base.text ++ o.behind))

/-- The text of an opening. -/
def text (o : Opening) : List Char :=
  o.indent ++ ((o.typedef.elim [] fun gap => "typedef".toList ++ gap) ++
    (o.qualifierText ++ ("struct".toList ++ o.nameText)))

end Opening

/-- The text of a body. -/
def Body.text : Body → List Char
  | done space => space
  | plain t rest => t ++ ';' :: rest.text
  | nested space opening inner declarator rest =>
    space ++ (opening.text ++ '{' :: (inner.text ++ '}' :: (declarator ++ ';' :: rest.text)))

/-- The text of a mark. -/
def Mark.text : Mark → List Char
  | star => ['*']
  | const => "const".toList
  | volatile => "volatile".toList

/-- The text of an alias. -/
def AliasText.text (a : AliasText) : List Char :=
  a.before ++ ((a.marks.flatMap fun m => m.1.text ++ m.2) ++ (a.name.toList ++ a.behind))

/-- The text of a list of aliases. -/
def AliasList.text (as : AliasList) : List Char :=
  as.space ++ List.intercalate [','] (as.list.map AliasText.text)

/-- What stands between `struct` and the semicolon of a statement. -/
def statementText (space : List Char) (target : String) (aliases : AliasList) : List Char :=
  space ++ (target.toList ++ aliases.text)

/-- The text of an item. -/
def Item.text : Item → List Char
  | definition opening body aliases =>
    opening.text ++ '{' :: (body.text ++ '}' :: (aliases.text ++ [';']))
  | statement indent gap space target aliases =>
    indent ++ ("typedef".toList ++ (gap ++ ("struct".toList ++
      (statementText space target aliases ++ [';']))))

/-! ### What the parts should be -/

/-- A text of spaces and tabs. -/
def IsBlanks (s : List Char) : Prop :=
  ∀ c ∈ s, isBlank c = true

/-- Spaces and tabs, one at least. -/
@[mk_iff]
structure IsGap (s : List Char) : Prop where
  /-- There is one. -/
  ne_nil : s ≠ []
  /-- All are spaces and tabs. -/
  blanks : IsBlanks s

/-- A text of white space. -/
def IsSpaces (s : List Char) : Prop :=
  ∀ c ∈ s, isSpace c = true

/-- White space, if any, that ends a line. -/
@[mk_iff]
structure EndsLine (s : List Char) : Prop where
  /-- It is white space. -/
  spaces : IsSpaces s
  /-- A line begins behind it. -/
  ends : Header.EndsLine s

/-- A name is an identifier and none of the keywords that matter here. -/
@[mk_iff]
structure IsName (name : String) : Prop where
  /-- It is an identifier. -/
  ident : isIdentifier name.toList = true
  /-- It is no keyword. -/
  no_keyword : name ∉ Schema.keywords

/-- The words that may stand before the name of a base. -/
def accessWords : List String :=
  ["public", "private", "protected"]

/-- A base is written as it should be. -/
@[mk_iff]
structure Base.Proper (b : Base) : Prop where
  /-- Blanks stand before the colon. -/
  before : IsBlanks b.before
  /-- Blanks stand behind it. -/
  behind : IsBlanks b.behind
  /-- A word for access is parted from the name. -/
  access : ∀ a ∈ b.access, a.1 ∈ accessWords ∧ IsGap a.2
  /-- The name is one. -/
  name : IsName b.name

/-- An opening is written as it should be. -/
@[mk_iff]
structure Opening.Proper (o : Opening) : Prop where
  /-- Blanks stand at the start of the line. -/
  indent : IsBlanks o.indent
  /-- The keyword `typedef` is parted from what follows. -/
  typedef : ∀ gap ∈ o.typedef, IsGap gap
  /-- The words before `struct` are parted as well, and none is a keyword that has another place. -/
  qualifiers : ∀ q ∈ o.qualifiers,
    isIdentifier q.1.toList = true ∧ q.1 ≠ "struct" ∧ q.1 ≠ "typedef" ∧ IsGap q.2
  /-- The keyword `struct` is parted from the name. -/
  gap : IsGap o.gap
  /-- The name is one. -/
  name : IsName o.name
  /-- A base is written as it should be. -/
  base : ∀ b ∈ o.base, b.Proper
  /-- Blanks stand before the brace. -/
  behind : IsBlanks o.behind

/-- Whether a word stands by itself nowhere in a text that follows the character `previous`. -/
def lacksWord (word : List Char) (previous : Option Char) : List Char → Bool
  | [] => true
  | c :: cs =>
    !(isEdge previous && (after? word (c :: cs)).any fun rest => isEdge rest.head?) &&
      lacksWord word (some c) cs

/-- A text that declares something: it has no braces, no semicolon, no comment and no keyword
`typedef`. -/
@[mk_iff]
structure IsDeclaration (t : List Char) : Prop where
  /-- It has no opening brace. -/
  no_open : '{' ∉ t
  /-- It has no closing brace. -/
  no_close : '}' ∉ t
  /-- It has no semicolon. -/
  no_semicolon : ';' ∉ t
  /-- It has no comment. -/
  no_comment : Comment.spans t = []
  /-- The keyword does not stand in it. -/
  no_typedef : lacksWord "typedef".toList none t = true

/-- A body is written as it should be: a definition in it begins a line and declares no type. -/
inductive Body.Proper : Body → Prop where
  /-- White space. -/
  | done {space} (hspace : IsSpaces space) : Proper (.done space)
  /-- A member without braces. -/
  | plain {t rest} (ht : IsDeclaration t) (hrest : rest.Proper) : Proper (.plain t rest)
  /-- A member that defines a struct. -/
  | nested {space opening inner declarator rest} (hspace : EndsLine space) (hne : space ≠ [])
      (hopening : opening.Proper) (htypedef : opening.typedef = none) (hinner : inner.Proper)
      (hdeclarator : IsDeclaration declarator) (hrest : rest.Proper) :
      Proper (.nested space opening inner declarator rest)

/-- Whether marks are parted: white space or a star follows each word. -/
def marksParted : List (Mark × List Char) → Bool
  | [] => true
  | (mark, space) :: rest =>
    (mark == .star || !space.isEmpty || rest.head?.any fun next => next.1 == .star) &&
      marksParted rest

/-- An alias is written as it should be. -/
@[mk_iff]
structure AliasText.Proper (a : AliasText) : Prop where
  /-- White space stands before it. -/
  before : IsSpaces a.before
  /-- White space stands behind the marks. -/
  marks : ∀ m ∈ a.marks, IsSpaces m.2
  /-- The marks are parted. -/
  parted : marksParted a.marks = true
  /-- The name is one. -/
  name : IsName a.name
  /-- White space stands behind it. -/
  behind : IsSpaces a.behind

/-- A list of aliases is written as it should be. -/
@[mk_iff]
structure AliasList.Proper (as : AliasList) : Prop where
  /-- White space stands before it. -/
  space : IsSpaces as.space
  /-- The aliases are written as they should be. -/
  list : ∀ a ∈ as.list, a.Proper

/-- An item is written as it should be. -/
inductive Item.Proper : Item → Prop where
  /-- A definition has aliases only if it declares types. -/
  | definition {opening body aliases} (hopening : opening.Proper) (hbody : body.Proper)
      (haliases : aliases.Proper) (hnone : opening.typedef = none → aliases.list = []) :
      Proper (.definition opening body aliases)
  /-- A statement stands on one line, and the name of the struct is parted from the aliases. -/
  | statement {indent gap space target aliases} (hindent : IsBlanks indent) (hgap : IsGap gap)
      (hspace : IsSpaces space) (hne : space ≠ []) (htarget : IsName target)
      (haliases : aliases.Proper) (hsome : aliases.list ≠ [])
      (hparted : isEdge aliases.text.head? = true)
      (hline : '\n' ∉ statementText space target aliases) :
      Proper (.statement indent gap space target aliases)

/-- The block of a definition of types lies before the ceiling. -/
def Item.FitsIn (maxScan : Nat) : Item → Prop
  | definition opening body aliases =>
    opening.typedef.isSome → 1 + byteSize body.text + 1 + byteSize aliases.text + 1 ≤ maxScan
  | statement _ _ _ _ _ => True

/-! ### Whether they are can be decided -/

instance : DecidablePred IsBlanks := fun s =>
  decidable_of_iff (s.all isBlank = true) List.all_eq_true

instance : DecidablePred IsSpaces := fun s =>
  decidable_of_iff (s.all isSpace = true) List.all_eq_true

instance : DecidablePred Header.EndsLine := fun s =>
  decidable_of_iff (s.getLast?.all (· == '\n') = true) <| by
    cases h : s.getLast? <;> simp [Header.EndsLine, h]

instance : DecidablePred IsGap := fun s => decidable_of_iff' _ (isGap_iff s)

instance : DecidablePred EndsLine := fun s => decidable_of_iff' _ (endsLine_iff s)

instance : DecidablePred IsName := fun name => decidable_of_iff' _ (isName_iff name)

instance : DecidablePred Base.Proper := fun b => decidable_of_iff' _ (Base.proper_iff b)

instance : DecidablePred Opening.Proper := fun o => decidable_of_iff' _ (Opening.proper_iff o)

instance : DecidablePred IsDeclaration := fun t => decidable_of_iff' _ (isDeclaration_iff t)

instance : DecidablePred AliasText.Proper := fun a =>
  decidable_of_iff' _ (AliasText.proper_iff a)

instance : DecidablePred AliasList.Proper := fun as =>
  decidable_of_iff' _ (AliasList.proper_iff as)

/-- Whether a body is written as it should be. -/
def Body.decidableProper : (body : Body) → Decidable body.Proper
  | done space => decidable_of_iff (IsSpaces space) ⟨.done, fun (.done h) => h⟩
  | plain t rest =>
    have := rest.decidableProper
    decidable_of_iff (IsDeclaration t ∧ rest.Proper)
      ⟨fun h => .plain h.1 h.2, fun (.plain ht hrest) => ⟨ht, hrest⟩⟩
  | nested space opening inner declarator rest =>
    have := inner.decidableProper
    have := rest.decidableProper
    decidable_of_iff ((EndsLine space ∧ space ≠ []) ∧ (opening.Proper ∧ opening.typedef = none) ∧
        inner.Proper ∧ IsDeclaration declarator ∧ rest.Proper)
      ⟨fun ⟨⟨hspace, hne⟩, ⟨hopening, htypedef⟩, hinner, hdeclarator, hrest⟩ =>
          .nested hspace hne hopening htypedef hinner hdeclarator hrest,
        fun (.nested hspace hne hopening htypedef hinner hdeclarator hrest) =>
          ⟨⟨hspace, hne⟩, ⟨hopening, htypedef⟩, hinner, hdeclarator, hrest⟩⟩

instance : DecidablePred Body.Proper := Body.decidableProper

instance : DecidablePred Item.Proper
  | .definition opening body aliases =>
    decidable_of_iff (opening.Proper ∧ body.Proper ∧ aliases.Proper ∧
        (opening.typedef = none → aliases.list = []))
      ⟨fun ⟨hopening, hbody, haliases, hnone⟩ => .definition hopening hbody haliases hnone,
        fun (.definition hopening hbody haliases hnone) => ⟨hopening, hbody, haliases, hnone⟩⟩
  | .statement indent gap space target aliases =>
    decidable_of_iff ((IsBlanks indent ∧ IsGap gap) ∧ (IsSpaces space ∧ space ≠ []) ∧
        IsName target ∧ (aliases.Proper ∧ aliases.list ≠ []) ∧
        isEdge aliases.text.head? = true ∧ '\n' ∉ statementText space target aliases)
      ⟨fun ⟨⟨hindent, hgap⟩, ⟨hspace, hne⟩, htarget, ⟨haliases, hsome⟩, hparted, hline⟩ =>
          .statement hindent hgap hspace hne htarget haliases hsome hparted hline,
        fun (.statement hindent hgap hspace hne htarget haliases hsome hparted hline) =>
          ⟨⟨hindent, hgap⟩, ⟨hspace, hne⟩, htarget, ⟨haliases, hsome⟩, hparted, hline⟩⟩

instance (maxScan : Nat) : DecidablePred (Item.FitsIn maxScan)
  | .definition opening body aliases => inferInstanceAs (Decidable (opening.typedef.isSome →
      1 + byteSize body.text + 1 + byteSize aliases.text + 1 ≤ maxScan))
  | .statement _ _ _ _ _ => inferInstanceAs (Decidable True)

/-! ### What is declared -/

/-- What an opening at the path and brace declares. -/
def Opening.struct (o : Opening) (path : Path) (brace : Nat) : String × StructDefinition :=
  (o.name, ⟨path, brace, o.base.map Base.name⟩)

/-- The openings in a body that begins at an offset, each with the offset of its brace. -/
def Body.openings (pos : Nat) : Body → List (Nat × Opening)
  | done _ => []
  | plain t rest => rest.openings (pos + byteSize t + 1)
  | nested space opening inner declarator rest =>
    let brace := pos + byteSize space + byteSize opening.text
    (brace, opening) :: (inner.openings (brace + 1) ++
      rest.openings (brace + 1 + byteSize inner.text + 1 + byteSize declarator + 1))

/-- The openings in an item that begins at an offset. -/
def Item.openings (pos : Nat) : Item → List (Nat × Opening)
  | definition opening body _ =>
    let brace := pos + byteSize opening.text
    (brace, opening) :: body.openings (brace + 1)
  | statement _ _ _ _ _ => []

/-- What an alias declares. -/
def AliasText.declarator (a : AliasText) : Declarator :=
  ⟨a.name, a.marks.any fun m => m.1 == .star⟩

/-- The aliases of a struct in a list; the name of the struct itself is none. -/
def AliasList.of (as : AliasList) (path : Path) (target : String) :
    List (String × Alias) :=
  ((as.list.map AliasText.declarator).filter fun d => d.name != target).map fun d =>
    (d.name, ⟨target, d.isPointer, path⟩)

/-- The aliases in an item. -/
def Item.aliases (path : Path) : Item → List (String × Alias)
  | definition opening _ aliases => aliases.of path opening.name
  | statement _ _ _ target aliases => aliases.of path target

end Outline

open Outline in
/-- A source text that is taken apart into items. -/
structure Outline where
  /-- The items, each with the white space before it. -/
  items : List (List Char × Item)
  /-- White space at the end. -/
  behind : List Char

namespace Outline

open Text

/-- The text of items with the white space before them. -/
def itemsText (items : List (List Char × Item)) : List Char :=
  items.flatMap fun i => i.1 ++ i.2.text

/-- The text of an outline. -/
def text (o : Outline) : List Char :=
  itemsText o.items ++ o.behind

/-- An outline is written as it should be: each item begins a line. -/
@[mk_iff]
structure Proper (o : Outline) : Prop where
  /-- A line begins behind the white space before an item. -/
  spaces : ∀ i ∈ o.items, EndsLine i.1
  /-- Such white space stands between items. -/
  parted : ∀ i ∈ o.items.tail, i.1 ≠ []
  /-- The items are written as they should be. -/
  items : ∀ i ∈ o.items, i.2.Proper
  /-- White space stands at the end. -/
  behind : IsSpaces o.behind

instance : DecidablePred Proper := fun o => decidable_of_iff' _ (proper_iff o)

/-- The openings in items that begin at an offset, each with the offset of its brace. -/
def openingsFrom (pos : Nat) : List (List Char × Item) → List (Nat × Opening)
  | [] => []
  | i :: items =>
    i.2.openings (pos + byteSize i.1) ++
      openingsFrom (pos + byteSize i.1 + byteSize i.2.text) items

/-- The structs of an outline: each with the offset of its brace and its base. -/
def structs (o : Outline) (path : Path) : List (String × StructDefinition) :=
  (openingsFrom 0 o.items).map fun found => found.2.struct path found.1

/-- The aliases of an outline. -/
def aliases (o : Outline) (path : Path) : List (String × Alias) :=
  o.items.flatMap fun i => i.2.aliases path

/-- The names that an outline declares. -/
def names (o : Outline) : List String :=
  (o.structs ⟨[]⟩).map Prod.fst ++ (o.aliases ⟨[]⟩).map Prod.fst

end Outline

end StructUnfold
