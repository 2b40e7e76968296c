import StructUnfold.Proofs.Expansion.Layout
import StructUnfold.Proofs.Scan.Named

/-!
# Blocks of texts that have changed

The text of a file may be another one when a struct is expanded than it was when the struct was
scanned. Before a body is used, the name is read back from the header in front of it. That tells
whether a scan of the present text would register the struct there, but for two cases: the brace may
stand in a comment by now, and the name may have become a qualified one.

## Main definitions

* `Shows`: a block lists the body that stands at the place of a struct in a text that was read.
* `Entered.HasBlock`: the blocks of an expansion, the outermost one and those in it.

## Main results

* `shows_of_hasBlock`: every block shows the body of its struct in a text that the reader gave.
* `shown_registers_iff`: when a scan of that text registers the struct.
-/

namespace StructUnfold.Expansion

variable {ctx : Context}

/-- The name is read back where a body is found. -/
theorem nameAt?_of_bodyIn {maxScan : Nat} {root : String} {offset : Nat} {text body : List Char}
    (h : bodyIn maxScan root offset text = .ok body) :
    Header.nameAt? text offset = some root.toList := by
  rw [bodyIn] at h
  split at h
  · cases h
  · split at h
    · assumption
    · cases h

/-- The items of a block are what the declarations have become that stand at the place of a struct
in a text which was read for its file. -/
structure Shows (ctx : Context) (query : List Char) (root : String) (items : List Item)
    (definition : StructDefinition) (text : List Char) : Prop where
  /-- The catalog gives the place of the struct. -/
  defined : ctx.catalog.structs.get? root = some definition
  /-- The text is an answer of the reader, under some spelling of the path. -/
  answered : ∃ path reads, path.same definition.path = true ∧ ctx.reader reads path = .ok text
  /-- The name of the struct is read back from the header there. -/
  named : Header.nameAt? text definition.offset = some root.toList
  /-- There is one item for each declaration of the body there, in order. -/
  listed : ∃ body, bodyIn ctx.options.maxScan root definition.offset text = .ok body ∧
    List.Forall₂
      (fun d item => ∃ depth run run', ArisesIn ctx query (.words depth [] d) run ∧
        Performs ctx (.words depth [] d) run (.item item) run')
      (Declaration.all body) items

/-- A block that comes of entering a struct shows its body. -/
theorem Arises.exists_shows {query symbol label : List Char} {depth : Nat} {before after : Run}
    {b : Block} (h : ArisesIn ctx query (.enter symbol label depth) before)
    (hperforms : Performs ctx (.enter symbol label depth) before (.entered (.block b)) after) :
    ∃ definition text, Shows ctx query b.root b.items definition text := by
  have hstart : Run.start.Answered ctx.reader := by simp [Run.Answered, Run.start]
  have hbefore := Arises.invariant h (Run.invariant_answered ctx.reader) hstart
  cases hperforms with
  | @block _ _ _ _ resolved found _ _ _ hopening hitems =>
    have hlist := Arises.forall₂_items (Arises.body h hopening) hitems
    have hopens := opens_of_opening_eq hopening
    have hread := hopens.invariant (Run.invariant_answered ctx.reader) hbefore
    cases hopens with
    | @body _ definition _ _ _ _ hget hbody =>
      -- The body stands in a text that the state keeps, and so in an answer of the reader.
      have hsource := source?_body ctx resolved.root definition (before.visit resolved.root)
      rw [hbody] at hsource
      obtain ⟨error, herror, -⟩ | ⟨text, htext, hin⟩ := hsource
      · cases herror
      · cases hbodyIn : bodyIn ctx.options.maxScan resolved.root definition.offset text with
        | error e =>
          rw [hbodyIn] at hin
          cases hin
        | ok inside =>
          rw [hbodyIn] at hin
          obtain rfl : found = inside := Except.ok.inj hin
          obtain ⟨path, hsame, reads, hreader⟩ := hread.exists_of_source? htext
          exact ⟨definition, text, hget, ⟨path, reads, hsame, hreader⟩, nameAt?_of_bodyIn hbodyIn,
            found, hbodyIn, hlist⟩

/-- A block of a struct with certain items is one of the blocks of an expansion: the outermost one
or one in it. -/
def Entered.HasBlock (entered : Entered) (root : String) (items : List Item) : Prop :=
  (∃ label, entered = .block ⟨root, label, items⟩) ∨
    ∃ lead label, .nested lead root label items ∈ entered.members

/-- The struct whose block has come of entering one. -/
def Entered.root? : Entered → Option String
  | .block b => some b.root
  | .leaf _ _ => none

theorem Entered.exists_hasBlock {entered : Entered} {root : String}
    (h : entered.root? = some root) : ∃ items, entered.HasBlock root items := by
  cases entered with
  | leaf => cases h
  | block b =>
    obtain rfl : b.root = root := Option.some.inj h
    exact ⟨b.items, .inl ⟨b.label, rfl⟩⟩

/-- Each block of an expansion shows the body of its struct in a text that the reader gave. -/
theorem shows_of_hasBlock {query : List Char} {e : Expansion} (hexpand : expand ctx query = .ok e)
    {root : String} {items : List Item} (h : e.entered.HasBlock root items) :
    ∃ definition text, Shows ctx query root items definition text := by
  rcases h with ⟨label, hentered⟩ | ⟨lead, label, hitem⟩
  · obtain ⟨-, hperforms⟩ := performs_of_expand hexpand
    rw [hentered] at hperforms
    exact Arises.exists_shows .self hperforms
  · obtain ⟨depth, d, run, run', harises, hperforms⟩ :=
      exists_arisesIn_of_mem_members hexpand hitem
    cases Arises.ends harises hperforms with
    | nest h hverdict henter => exact Arises.exists_shows (h.enter hverdict) henter

/-- **What reading the name back tells.** For a name that a struct can have, every scan of a text
registers the struct at an offset exactly if its name is read back there, no comment covers the brace
and the name is not qualified. Each block of an expansion shows the body of its struct in a text that
the reader gave, where the name is read back; so a scan of that text registers the struct there
exactly if it has a name that a struct can have, no comment covers the brace and the name is not
qualified. -/
theorem shown_registers_iff (ctx : Context) (query : List Char) :
    (∀ text offset name, Text.isIdentifier name.toList = true → name ≠ "struct" →
      (Scan.RegistersAt text name offset ↔ Header.nameAt? text offset = some name.toList ∧
        Comment.inSpans (Comment.spans text) offset = false ∧ ¬Scan.QualifiedAt text offset)) ∧
    ∀ e, expand ctx query = .ok e → ∀ root items, e.entered.HasBlock root items →
      ∃ definition text, Shows ctx query root items definition text ∧
        (Scan.RegistersAt text root definition.offset ↔
          (Text.isIdentifier root.toList = true ∧ root ≠ "struct") ∧
          Comment.inSpans (Comment.spans text) definition.offset = false ∧
          ¬Scan.QualifiedAt text definition.offset) := by
  refine ⟨fun text offset name hident hkeyword => ?_, fun e hexpand root items h => ?_⟩
  · rw [Scan.registersAt_iff, and_iff_right ⟨hident, hkeyword⟩]
  · obtain ⟨definition, text, hshows⟩ := shows_of_hasBlock hexpand h
    refine ⟨definition, text, hshows, ?_⟩
    rw [Scan.registersAt_iff, and_iff_right hshows.named]

/-! ### A struct whose file is edited -/

/-- A file with one struct. -/
def relayText : String :=
  "  \nstruct relay \x7b\n  int coil;\n\x7d;\n"

/-- The same with the struct in a comment. -/
def relayInComment : String :=
  "/*\nstruct relay \x7b\n  int coil;\n\x7d;\n*/\n"

/-- The same with a qualified name. -/
def relayQualified : String :=
  "struct relay::a \x7b\n  int coil;\n\x7d;\n"

/-- The catalog of `relayText`, with a reader of another text. -/
def relayContext (text : String) : Context :=
  ⟨(Scan.workspace 4096 [(.ofString "relay.h", relayText.toList)]).1,
    (Sources.ofList [(.ofString "relay.h", text.toList)]).reader, ⟨4, 8, 4096⟩⟩

/-- `shown_registers_iff` at `relayText` as it was scanned. -/
theorem shown_registers_iff_relay :
    Scan.RegistersAt relayText.toList "relay" 16 ∧
    ∃ e items definition text, expand (relayContext relayText) "relay".toList = .ok e ∧
      e.entered.HasBlock "relay" items ∧
      Shows (relayContext relayText) "relay".toList "relay" items definition text ∧
      (Scan.RegistersAt text "relay" definition.offset ↔
        (Text.isIdentifier "relay".toList = true ∧ "relay" ≠ "struct") ∧
        Comment.inSpans (Comment.spans text) definition.offset = false ∧
        ¬Scan.QualifiedAt text definition.offset) := by
  obtain ⟨hregisters, hshows⟩ :=
    shown_registers_iff (relayContext relayText) "relay".toList
  constructor
  · refine (hregisters _ 16 _ (by decide +kernel) (by decide)).2
      ⟨by decide +kernel, by decide +kernel, ?_⟩
    -- The only header of the text has no colon.
    rintro ⟨header, hstands, rest, hbase⟩
    have hall : Header.all relayText.toList = [(16, ⟨false, "relay".toList, none⟩)] := by
      decide +kernel
    have hmem := Header.mem_all_iff.2 hstands
    rw [hall, List.mem_singleton, Prod.mk.injEq] at hmem
    rw [hmem.2] at hbase
    cases hbase
  · have hroot : (expand (relayContext relayText) "relay".toList).map (fun e => e.entered.root?) =
        .ok (some "relay") := by
      decide +kernel
    cases hexpand : expand (relayContext relayText) "relay".toList with
    | error p =>
      rw [hexpand] at hroot
      cases hroot
    | ok e =>
      rw [hexpand] at hroot
      obtain ⟨items, hblock⟩ := Entered.exists_hasBlock (Except.ok.inj hroot)
      obtain ⟨definition, text, hshown, hiff⟩ := hshows e hexpand _ _ hblock
      exact ⟨e, items, definition, text, rfl, hblock, hshown, hiff⟩

/-- A struct that has been put in a comment, or whose name has become a qualified one, is read back
under its name at its place and expanded there, although no scan of the text registers it. -/
theorem relay_shown_unregistered :
    (Header.nameAt? relayInComment.toList 16 = some "relay".toList ∧
      ¬Scan.RegistersAt relayInComment.toList "relay" 16 ∧
      (expand (relayContext relayInComment) "relay".toList).map (fun e => (e.text 4, e.issues)) =
        .ok ("|\n    int coil;\n|\n| relay", [])) ∧
    Header.nameAt? relayQualified.toList 16 = some "relay".toList ∧
      ¬Scan.RegistersAt relayQualified.toList "relay" 16 ∧
      (expand (relayContext relayQualified) "relay".toList).map (fun e => (e.text 4, e.issues)) =
        .ok ("|\n    int coil;\n|\n| relay", []) := by
  have hcommented : Comment.inSpans (Comment.spans relayInComment.toList) 16 = true := by
    decide +kernel
  have hqualified : Scan.QualifiedAt relayQualified.toList 16 := by
    refine ⟨⟨false, "relay".toList, some ":a".toList⟩, Header.mem_all_iff.1 ?_, "a".toList, ?_⟩
    · decide +kernel
    · decide +kernel
  refine ⟨⟨by decide +kernel, fun h => ?_, by decide +kernel⟩, by decide +kernel, fun h => ?_,
    by decide +kernel⟩
  · have hcode := (Scan.registersAt_iff.1 h).2.2.1
    rw [hcommented] at hcode
    cases hcode
  · exact (Scan.registersAt_iff.1 h).2.2.2 hqualified

end StructUnfold.Expansion
