import Mathlib.Data.List.Nodup
import Mathlib.Data.List.Pairwise
import Mathlib.Logic.Relation
import StructUnfold.Source.Declarator
import StructUnfold.Path
import StructUnfold.Text.Space

/-!
# Schemas

A schema is a workspace without its text: files that declare structs, each a list of members, and
aliases of structs or of other aliases. It can be printed as source text, and it can be unfolded
without any text at all, by recursion on the graph that its names form.

* `Schema.print`: the source files of a schema.
* `Schema.Valid`: names are identifiers, no two of them the same, and no alias leads back to itself.
* `Schema.Resolves`: the name an alias comes down to, and whether a pointer is on the way.
* `Schema.Unfolds`, `Schema.Shows`: the lines a list of members unfolds to, and the text of a
  query.
* `Schema.Unfolds.unique`, `Schema.Shows.unique`: these are unique.
-/

namespace StructUnfold

namespace Schema

/-! ### Members, entries and files -/

/-- How a member `d` of type `T` is written. -/
inductive Style where
  /-- As `T d;`. -/
  | plain
  /-- As `struct T d;`. -/
  | keyword
  /-- As `T* d;`. -/
  | starOnType
  /-- As `T *d;`. -/
  | starOnName
deriving DecidableEq, Repr

/-- A member of a struct. -/
structure Member where
  /-- Name of its type. -/
  type : String
  /-- How it is written. -/
  style : Style
  /-- Its own name. -/
  declarator : String
deriving DecidableEq, Repr

/-- What stands at the top level of a file. -/
inductive Entry where
  /-- The definition of a struct, with aliases declared behind its body. -/
  | struct (name : String) (members : List Member) (aliases : List Declarator)
  /-- The statement that declares aliases of a name. -/
  | alias (target : String) (aliases : List Declarator)
deriving DecidableEq, Repr

namespace Member

/-- Whether the member is written as a pointer. -/
def hasStar (m : Member) : Bool :=
  m.style == .starOnType || m.style == .starOnName

/-- The word of the type, when a name stands in the place of the type's own. -/
def typeWord (m : Member) (type : List Char) : List Char :=
  if m.style = .starOnType then type ++ ['*'] else type

/-- The last word. -/
def declaratorWord (m : Member) : List Char :=
  (if m.style = .starOnName then ['*'] else []) ++ m.declarator.toList ++ [';']

/-- The words, when a name stands in the place of the type's own. -/
def wordsWith (m : Member) (type : List Char) : List (List Char) :=
  (if m.style = .keyword then ["struct".toList] else []) ++ [m.typeWord type, m.declaratorWord]

/-- The words. -/
def words (m : Member) : List (List Char) :=
  m.wordsWith m.type.toList

/-- The words in one line. -/
def text (m : Member) : List Char :=
  Text.joinWords m.words

/-- The line of the member in a printed file. -/
def line (m : Member) : List Char :=
  "    ".toList ++ m.text

/-- The line of a member whose struct is not unfolded a second time: the name of the struct stands
in the place of the type, with a star if the member is a pointer by its alias alone. -/
def renamed (m : Member) (root : String) (isPointer : Bool) : List Char :=
  Text.joinWords (m.wordsWith
    (if isPointer && !m.hasStar then root.toList ++ ['*'] else root.toList))

/-- What the block of a member is labelled with. -/
def label (m : Member) (isPointer : Bool) : List Char :=
  if m.hasStar || isPointer then ['*'] else m.declaratorWord

end Member

/-- A declarator: its name, behind a star if it is a pointer. -/
def declaratorText (d : Declarator) : List Char :=
  (if d.isPointer then ['*'] else []) ++ d.name.toList

/-- The declarators of a list. -/
def declaratorList (ds : List Declarator) : List Char :=
  List.intercalate ", ".toList (ds.map declaratorText)

namespace Entry

/-- The names that are declared. -/
def names : Entry → List String
  | .struct name _ aliases => name :: aliases.map Declarator.name
  | .alias _ aliases => aliases.map Declarator.name

/-- The members of the struct that is defined. -/
def members : Entry → List Member
  | .struct _ members _ => members
  | .alias _ _ => []

/-- The line that begins the definition of a struct, up to the brace. -/
def opening (name : String) (aliases : List Declarator) : List Char :=
  (if aliases = [] then [] else "typedef ".toList) ++ "struct ".toList ++ name.toList ++ [' ']

/-- What follows the brace that ends the body of a struct. -/
def closing (aliases : List Declarator) : List Char :=
  (if aliases = [] then [] else ' ' :: declaratorList aliases) ++ [';']

/-- The lines of an entry. -/
def lines : Entry → List (List Char)
  | .struct name members aliases =>
    (opening name aliases ++ ['{']) :: members.map Member.line ++ ['}' :: closing aliases]
  | .alias target aliases =>
    ["typedef struct ".toList ++ target.toList ++ [' '] ++ declaratorList aliases ++ [';']]

end Entry

/-- Lines, each ended by a line feed. -/
def joinLines (ls : List (List Char)) : List Char :=
  ls.flatMap (· ++ ['\n'])

/-- The text of a file. -/
def printFile (es : List Entry) : List Char :=
  joinLines (es.flatMap Entry.lines)

end Schema

/-- A workspace without its text: the entries of each file. -/
abbrev Schema := List (Path × List Schema.Entry)

namespace Schema

/-- The source files. -/
def print (s : Schema) : List (Path × List Char) :=
  s.map fun file => (file.1, printFile file.2)

/-- The entries of all files. -/
def entries (s : Schema) : List Entry :=
  s.flatMap Prod.snd

/-- A struct is defined with these members. -/
def HasStruct (s : Schema) (name : String) (members : List Member) : Prop :=
  ∃ aliases, Entry.struct name members aliases ∈ s.entries

/-- A name is declared as an alias of another one, or of a pointer to it. -/
def HasAlias (s : Schema) (name target : String) (isPointer : Bool) : Prop :=
  (∃ members aliases, Entry.struct target members aliases ∈ s.entries ∧
      Declarator.mk name isPointer ∈ aliases) ∨
    ∃ aliases, Entry.alias target aliases ∈ s.entries ∧ Declarator.mk name isPointer ∈ aliases

/-- A name is an alias of another one. -/
def Hop (s : Schema) (name target : String) : Prop :=
  ∃ isPointer, s.HasAlias name target isPointer

/-- The keywords that can be taken for a part of a declaration. -/
def keywords : List String :=
  ["struct", "typedef", "const", "volatile"]

/-- A schema is well formed. -/
structure Valid (s : Schema) : Prop where
  /-- Files have different paths. -/
  paths : s.Pairwise fun f g => f.1.same g.1 = false
  /-- No two declarations share a name. -/
  nodup : (s.entries.flatMap Entry.names).Nodup
  /-- Names are identifiers. -/
  names : ∀ e ∈ s.entries, ∀ name ∈ e.names, Text.isIdentifier name.toList = true ∧ name ∉ keywords
  /-- Types are identifiers or the words of the language for simple types. -/
  types : ∀ e ∈ s.entries, ∀ m ∈ e.members,
    Text.isIdentifier m.type.toList = true ∧ m.type ≠ "typedef"
  /-- Members have identifiers as their names. -/
  declarators : ∀ e ∈ s.entries, ∀ m ∈ e.members, Text.isIdentifier m.declarator.toList = true
  /-- A statement declares at least one alias, of an identifier. -/
  statements : ∀ target aliases, Entry.alias target aliases ∈ s.entries →
    Text.isIdentifier target.toList = true ∧ aliases ≠ []
  /-- No alias leads back to itself. -/
  acyclic : ∀ name, ¬Relation.TransGen s.Hop name name

/-! ### Unfolding a schema -/

/-- A name comes down to `root`, which is no alias, and it is or is not a pointer to it. -/
inductive Resolves (s : Schema) : String → String → Bool → Prop where
  /-- A name that is no alias stands for itself. -/
  | settled {name} (h : ∀ target, ¬s.Hop name target) : Resolves s name name false
  /-- An alias stands for what its target comes down to. -/
  | hop {name target root isPointer isPointer'} (h : s.HasAlias name target isPointer)
    (htarget : Resolves s target root isPointer') :
    Resolves s name root (isPointer || isPointer')

/-- The lines of a block: a bar, the lines inside, and the label behind a bar. -/
def blockLines (indentWidth : Nat) (label : List Char) (inner : List (List Char)) :
    List (List Char) :=
  ['|'] :: inner.map (List.replicate indentWidth ' ' ++ ·) ++ [['|'], '|' :: ' ' :: label]

/-- The members of a struct unfold to lines, from first to last. `visited` are the structs that have
been unfolded before, the latest first, and no struct is unfolded twice. -/
inductive Unfolds (s : Schema) (indentWidth : Nat) :
    List String → List Member → List (List Char) → List String → Prop where
  /-- No member is left. -/
  | nil {visited} : Unfolds s indentWidth visited [] [] visited
  /-- A struct that has not been unfolded becomes a block in the place of the member. -/
  | block {visited m root isPointer members inner mid ms ls after}
    (hresolves : s.Resolves m.type root isPointer) (hstruct : s.HasStruct root members)
    (hfresh : root ∉ visited) (hinner : Unfolds s indentWidth (root :: visited) members inner mid)
    (hrest : Unfolds s indentWidth mid ms ls after) :
    Unfolds s indentWidth visited (m :: ms)
      (blockLines indentWidth (m.label isPointer) inner ++ ls) after
  /-- A struct that has been unfolded is named. -/
  | name {visited m root isPointer ms ls after} (hresolves : s.Resolves m.type root isPointer)
    (hvisited : root ∈ visited) (hrest : Unfolds s indentWidth visited ms ls after) :
    Unfolds s indentWidth visited (m :: ms) (m.renamed root isPointer :: ls) after
  /-- Any other member is kept as it is written. -/
  | keep {visited m root isPointer ms ls after} (hresolves : s.Resolves m.type root isPointer)
    (hfresh : root ∉ visited) (hnone : ∀ members, ¬s.HasStruct root members)
    (hrest : Unfolds s indentWidth visited ms ls after) :
    Unfolds s indentWidth visited (m :: ms) (m.text :: ls) after

/-- The text of a query: the block of the struct that the name comes down to, labelled with the name
or, if it or the query is a pointer, with a star. -/
def Shows (s : Schema) (indentWidth : Nat) (name : String) (isPointer : Bool) (text : List Char) :
    Prop :=
  ∃ root isPointer' members inner after, s.Resolves name root isPointer' ∧
    s.HasStruct root members ∧ s.Unfolds indentWidth [root] members inner after ∧
    text = List.intercalate ['\n']
      (blockLines indentWidth (if isPointer || isPointer' then ['*'] else name.toList) inner)

/-! ### What a schema unfolds to is unique -/

variable {s : Schema}

namespace Valid

/-- A name is declared by one entry. -/
theorem entry_unique (hs : s.Valid) {e e' : Entry} (he : e ∈ s.entries) (he' : e' ∈ s.entries)
    {name : String} (hname : name ∈ e.names) (hname' : name ∈ e'.names) : e = e' := by
  have hdisjoint := (List.nodup_flatMap.1 hs.nodup).2
  have hsymm : Std.Symm (Function.onFun List.Disjoint Entry.names) :=
    ⟨fun _ _ h n hn hn' => h hn' hn⟩
  by_contra hne
  exact hdisjoint.forall he he' hne hname hname'

/-- A struct has one list of members. -/
theorem struct_unique (hs : s.Valid) {name : String} {members members' : List Member}
    (h : s.HasStruct name members) (h' : s.HasStruct name members') : members = members' := by
  obtain ⟨aliases, he⟩ := h
  obtain ⟨aliases', he'⟩ := h'
  have hname : ∀ {members aliases}, name ∈ (Entry.struct name members aliases).names :=
    List.mem_cons_self
  have heq := hs.entry_unique he he' hname hname
  exact (Entry.struct.inj heq).2.1

/-- The aliases of one entry have different names. -/
theorem declarator_unique (hs : s.Valid) {e : Entry} (he : e ∈ s.entries)
    {aliases : List Declarator} (haliases : aliases.map Declarator.name <:+ e.names)
    {d d' : Declarator} (hd : d ∈ aliases) (hd' : d' ∈ aliases) (hname : d.name = d'.name) :
    d = d' :=
  List.inj_on_of_nodup_map
    (((List.nodup_flatMap.1 hs.nodup).1 e he).sublist haliases.sublist) hd hd' hname

/-- An alias stands for one name, and is or is not a pointer. -/
theorem alias_unique (hs : s.Valid) {name target target' : String} {isPointer isPointer' : Bool}
    (h : s.HasAlias name target isPointer) (h' : s.HasAlias name target' isPointer') :
    target = target' ∧ isPointer = isPointer' := by
  have hmem : ∀ {p : Bool} {aliases : List Declarator}, Declarator.mk name p ∈ aliases →
      name ∈ aliases.map Declarator.name := fun hd => List.mem_map_of_mem (f := Declarator.name) hd
  rcases h with ⟨members, aliases, he, hd⟩ | ⟨aliases, he, hd⟩ <;>
    rcases h' with ⟨members', aliases', he', hd'⟩ | ⟨aliases', he', hd'⟩
  · have heq := hs.entry_unique he he' (List.mem_cons_of_mem _ (hmem hd))
      (List.mem_cons_of_mem _ (hmem hd'))
    obtain ⟨rfl, -, rfl⟩ := Entry.struct.inj heq
    exact ⟨rfl, (Declarator.mk.inj
      (hs.declarator_unique he (List.suffix_cons _ _) hd hd' rfl)).2⟩
  · have heq := hs.entry_unique he he' (List.mem_cons_of_mem _ (hmem hd)) (hmem hd')
    cases heq
  · have heq := hs.entry_unique he he' (hmem hd) (List.mem_cons_of_mem _ (hmem hd'))
    cases heq
  · have heq := hs.entry_unique he he' (hmem hd) (hmem hd')
    obtain ⟨rfl, rfl⟩ := Entry.alias.inj heq
    exact ⟨rfl, (Declarator.mk.inj (hs.declarator_unique he (List.suffix_refl _) hd hd' rfl)).2⟩

/-- A name comes down to one name. -/
theorem resolves_unique (hs : s.Valid) {name root root' : String} {isPointer isPointer' : Bool}
    (h : s.Resolves name root isPointer) (h' : s.Resolves name root' isPointer') :
    root = root' ∧ isPointer = isPointer' := by
  induction h generalizing root' isPointer' with
  | settled hnone =>
    cases h' with
    | settled => exact ⟨rfl, rfl⟩
    | hop halias => exact absurd ⟨_, halias⟩ (hnone _)
  | hop halias _ ih =>
    cases h' with
    | settled hnone => exact absurd ⟨_, halias⟩ (hnone _)
    | hop halias' htarget' =>
      obtain ⟨rfl, rfl⟩ := hs.alias_unique halias halias'
      obtain ⟨rfl, rfl⟩ := ih htarget'
      exact ⟨rfl, rfl⟩

end Valid

/-- Members unfold to one list of lines. -/
theorem Unfolds.unique (hs : s.Valid) {indentWidth : Nat} {visited after after' : List String}
    {ms : List Member} {ls ls' : List (List Char)}
    (h : s.Unfolds indentWidth visited ms ls after)
    (h' : s.Unfolds indentWidth visited ms ls' after') : ls = ls' ∧ after = after' := by
  -- What becomes of a member depends on the struct its type comes down to, and this is unique.
  induction h generalizing ls' after' with
  | nil =>
    cases h' with
    | nil => exact ⟨rfl, rfl⟩
  | block hresolves hstruct hfresh _ _ ihinner ihrest =>
    cases h' with
    | block hresolves' hstruct' _ hinner' hrest' =>
      obtain ⟨rfl, rfl⟩ := hs.resolves_unique hresolves hresolves'
      obtain rfl := hs.struct_unique hstruct hstruct'
      obtain ⟨rfl, rfl⟩ := ihinner hinner'
      obtain ⟨rfl, rfl⟩ := ihrest hrest'
      exact ⟨rfl, rfl⟩
    | name hresolves' hvisited' =>
      obtain ⟨rfl, -⟩ := hs.resolves_unique hresolves hresolves'
      exact absurd hvisited' hfresh
    | keep hresolves' _ hnone' =>
      obtain ⟨rfl, -⟩ := hs.resolves_unique hresolves hresolves'
      exact absurd hstruct (hnone' _)
  | name hresolves hvisited _ ihrest =>
    cases h' with
    | block hresolves' _ hfresh' =>
      obtain ⟨rfl, -⟩ := hs.resolves_unique hresolves hresolves'
      exact absurd hvisited hfresh'
    | name hresolves' _ hrest' =>
      obtain ⟨rfl, rfl⟩ := hs.resolves_unique hresolves hresolves'
      obtain ⟨rfl, rfl⟩ := ihrest hrest'
      exact ⟨rfl, rfl⟩
    | keep hresolves' hfresh' =>
      obtain ⟨rfl, -⟩ := hs.resolves_unique hresolves hresolves'
      exact absurd hvisited hfresh'
  | keep hresolves hfresh hnone _ ihrest =>
    cases h' with
    | block hresolves' hstruct' =>
      obtain ⟨rfl, -⟩ := hs.resolves_unique hresolves hresolves'
      exact absurd hstruct' (hnone _)
    | name hresolves' hvisited' =>
      obtain ⟨rfl, -⟩ := hs.resolves_unique hresolves hresolves'
      exact absurd hvisited' hfresh
    | keep _ _ _ hrest' =>
      obtain ⟨rfl, rfl⟩ := ihrest hrest'
      exact ⟨rfl, rfl⟩

/-- A query shows one text. -/
theorem Shows.unique (hs : s.Valid) {indentWidth : Nat} {name : String} {isPointer : Bool}
    {text text' : List Char} (h : s.Shows indentWidth name isPointer text)
    (h' : s.Shows indentWidth name isPointer text') : text = text' := by
  obtain ⟨root, p, members, inner, after, hresolves, hstruct, hinner, rfl⟩ := h
  obtain ⟨root', p', members', inner', after', hresolves', hstruct', hinner', rfl⟩ := h'
  obtain ⟨rfl, rfl⟩ := hs.resolves_unique hresolves hresolves'
  obtain rfl := hs.struct_unique hstruct hstruct'
  obtain ⟨rfl, -⟩ := hinner.unique hs hinner'
  rfl

end Schema

end StructUnfold
