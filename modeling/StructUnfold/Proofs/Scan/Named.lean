import StructUnfold.Proofs.Scan.Registration

/-!
# Which braces a scan registers

A scan registers a struct at a brace under three conditions: a header stands before the brace that
has the name of the struct, the name is one that a struct can have, and the brace is code. A header
whose name is qualified names no struct, although what stands before the first colon may be a name.

## Main definitions

* `Header.IsQualified`: a second colon stands behind the one that follows the name.
* `RegistersAt`: what every scan of a text registers at an offset.

## Main results

* `struct_mem_findings_iff`: when a struct is found.
* `registersAt_iff`: a struct is registered at an offset exactly if the name is read there, no
  comment covers the brace and the name is not qualified.
-/

namespace StructUnfold

namespace Header

/-- The name in a header is qualified: what stands behind the colon begins with another colon. -/
def IsQualified (header : Header) : Prop :=
  ∃ rest, header.base.map Text.trim = some (':' :: rest)

/-- What is wrong with a name that is not empty, not the keyword and an identifier: nothing. -/
theorem nameFault?_eq_none_iff {name : List Char} :
    nameFault? name = none ↔ Text.isIdentifier name = true ∧ name ≠ "struct".toList := by
  rw [nameFault?]
  split
  · rename_i hempty
    obtain rfl := List.isEmpty_iff.1 hempty
    exact iff_of_false (Option.some_ne_none _) fun h => Bool.false_ne_true h.1
  · split
    · rename_i hkeyword
      exact iff_of_false (Option.some_ne_none _) fun h => h.2 (beq_iff_eq.1 hkeyword)
    · rename_i hkeyword
      split
      · rename_i hident
        exact iff_of_false (Option.some_ne_none _) fun h => by simp [h.1] at hident
      · rename_i hident
        exact iff_of_true rfl ⟨by simpa using hident, fun h => hkeyword (beq_iff_eq.2 h)⟩

/-- A header declares a struct of a name if that name stands in it, is not qualified and has no
fault. -/
theorem exists_declared_eq_iff {header : Header} {name : String} :
    (∃ base, header.declared = ⟨name, base, none⟩) ↔ header.name = name.toList ∧
      ¬header.IsQualified ∧ Text.isIdentifier name.toList = true ∧ name ≠ "struct" := by
  have hkeyword : name.toList ≠ "struct".toList ↔ name ≠ "struct" := by
    rw [ne_eq, String.toList_inj]
  rw [← hkeyword, ← nameFault?_eq_none_iff, declared]
  split
  · rename_i rest hbase
    refine iff_of_false ?_ fun h => h.2.1 ⟨rest, hbase⟩
    rintro ⟨base, h⟩
    cases (Declared.mk.inj h).2.2
  · rename_i hbase
    have hplain : ¬header.IsQualified := by
      rintro ⟨rest, h⟩
      exact hbase rest h
    constructor
    · rintro ⟨base, h⟩
      obtain ⟨rfl, -, hfault⟩ := Declared.mk.inj h
      rw [String.toList_ofList]
      exact ⟨rfl, hplain, hfault⟩
    · rintro ⟨hname, -, hfault⟩
      exact ⟨_, by rw [hname, hfault, String.ofList_toList]⟩

/-- At most one header ends at an offset. -/
theorem StandsAt.unique {text : List Char} {brace : Nat} {header header' : Header}
    (h : StandsAt text brace header) (h' : StandsAt text brace header') : header = header' := by
  obtain ⟨before, head, hhead, hbrace, hparse⟩ := h
  obtain ⟨before', head', hhead', hbrace', hparse'⟩ := h'
  obtain ⟨back, hback, rfl, -⟩ := headAt_iff_takeBytesOnto?.1 ⟨before, hhead, hbrace⟩
  obtain ⟨back', hback', rfl, -⟩ := headAt_iff_takeBytesOnto?.1 ⟨before', hhead', hbrace'⟩
  obtain rfl := (List.cons_eq_cons.1 (Option.some.inj (hback.symm.trans hback'))).2
  exact Option.some.inj (hparse.symm.trans hparse')

end Header

namespace Scan

/-- A header declares one struct at most, at its brace. -/
theorem struct_mem_headerFindings_iff {maxScan : Nat} {path : Path} {text : List Char}
    {brace : Nat} {header : Header} {name : String} {d : StructDefinition} :
    .struct name d ∈ headerFindings maxScan path text brace header ↔
      d.path = path ∧ d.offset = brace ∧ header.declared = ⟨name, d.base, none⟩ := by
  constructor
  · intro h
    cases declaredBy_of_mem_headerFindings h with
    | struct hfault => exact ⟨rfl, rfl, by rw [← hfault]⟩
  · obtain ⟨path', offset, base⟩ := d
    rintro ⟨rfl, rfl, hdeclared⟩
    refine List.mem_append_left _ ?_
    rw [ownFindings, hdeclared]
    exact List.mem_singleton_self _

/-- A struct is found at the brace of a header that declares it, if the brace is code. -/
theorem struct_mem_findings_iff {maxScan : Nat} {path : Path} {text : List Char} {name : String}
    {d : StructDefinition} :
    .struct name d ∈ findings maxScan path text ↔ d.path = path ∧
      Comment.inSpans (Comment.spans text) d.offset = false ∧
      ∃ header, Header.StandsAt text d.offset header ∧
        header.declared = ⟨name, d.base, none⟩ := by
  rw [findings, List.mem_append, List.mem_flatMap, List.mem_flatMap]
  constructor
  · rintro (⟨⟨brace, header⟩, hmem, h⟩ | ⟨statement, -, h⟩)
    · obtain ⟨hall, hcode⟩ := List.mem_filter.1 hmem
      obtain ⟨hpath, rfl, hdeclared⟩ := struct_mem_headerFindings_iff.1 h
      exact ⟨hpath, by simpa using hcode, header, Header.mem_all_iff.1 hall, hdeclared⟩
    · cases statedBy_of_mem_statementFindings h
  · rintro ⟨hpath, hcode, header, hstands, hdeclared⟩
    refine .inl ⟨(d.offset, header), List.mem_filter.2 ⟨Header.mem_all_iff.2 hstands, ?_⟩, ?_⟩
    · simpa using hcode
    · exact struct_mem_headerFindings_iff.2 ⟨hpath, rfl, hdeclared⟩

/-- Every scan of a text registers a struct under a name, with its brace at an offset. -/
def RegistersAt (text : List Char) (name : String) (offset : Nat) : Prop :=
  ∃ base, ∀ maxScan path, .struct name ⟨path, offset, base⟩ ∈ findings maxScan path text

/-- The header that ends at an offset has a qualified name. -/
def QualifiedAt (text : List Char) (offset : Nat) : Prop :=
  ∃ header, Header.StandsAt text offset header ∧ header.IsQualified

/-- What is read of the name at an offset tells the struct that is registered there, except where
the brace stands in a comment and where the name is qualified. -/
theorem registersAt_iff {text : List Char} {name : String} {offset : Nat} :
    RegistersAt text name offset ↔
      (Text.isIdentifier name.toList = true ∧ name ≠ "struct") ∧
      Header.nameAt? text offset = some name.toList ∧
      Comment.inSpans (Comment.spans text) offset = false ∧ ¬QualifiedAt text offset := by
  simp only [RegistersAt, struct_mem_findings_iff, Header.nameAt?_eq_some_iff]
  constructor
  · rintro ⟨base, h⟩
    obtain ⟨-, hcode, header, hstands, hdeclared⟩ := h 0 (.ofString "")
    obtain ⟨hname, hplain, hvalid⟩ := Header.exists_declared_eq_iff.1 ⟨base, hdeclared⟩
    refine ⟨hvalid, ⟨header, hstands, hname⟩, hcode, ?_⟩
    rintro ⟨other, hother, hqualified⟩
    exact hplain (hstands.unique hother ▸ hqualified)
  · rintro ⟨hvalid, ⟨header, hstands, hname⟩, hcode, hplain⟩
    obtain ⟨base, hdeclared⟩ := Header.exists_declared_eq_iff.2
      ⟨hname, fun hqualified => hplain ⟨header, hstands, hqualified⟩, hvalid⟩
    exact ⟨base, fun maxScan path => ⟨trivial, hcode, header, hstands, hdeclared⟩⟩

end Scan

end StructUnfold
