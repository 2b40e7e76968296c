import StructUnfold.Proofs.Outline.Passing
import StructUnfold.Proofs.Scan.Recording
import StructUnfold.Proofs.Scan.Report

/-!
# Scanning outlines

What is found in the text of an outline is what its parts declare: a struct at each opening, and the
aliases of its lists. If no name is declared twice, the catalog of the text holds just that.

* `Outline.findings`: what an outline declares, as findings.
* `headerFindings_definition`, `headerFindings_nested`: what is found at an opening.
* `Proper.mem_findings_iff`: what is found in an outline.
* `scan_text`: the catalog of an outline.
-/

namespace StructUnfold

namespace Outline

open Text Scan

/-! ### What is found at an opening -/

/-- What an alias is found as. -/
def aliasFinding (declared : String × Alias) : Finding :=
  .aliased declared.1 declared.2

/-- What a struct is found as. -/
def structFinding (declared : String × StructDefinition) : Finding :=
  .struct declared.1 declared.2

theorem structAliases_list (path : Path) (target : String) (aliases : AliasList) :
    structAliases path target (aliases.list.map AliasText.declarator) =
      (aliases.of path target).map aliasFinding := by
  rw [structAliases, AliasList.of, List.map_map]
  rfl

/-- An opening declares its struct. -/
theorem Opening.Proper.ownFindings_header {o : Opening} (h : o.Proper) (path : Path)
    (brace : Nat) :
    ownFindings path brace o.header.declared = [structFinding (o.struct path brace)] := by
  rw [h.declared_header]
  rfl

/-- At an opening without `typedef` nothing but its struct is found. -/
theorem headerFindings_nested {o : Opening} (h : o.Proper) (hnone : o.typedef = none)
    (maxScan : Nat) (path : Path) (text : List Char) (brace : Nat) :
    headerFindings maxScan path text brace o.header = [structFinding (o.struct path brace)] := by
  have htypedef : o.header.isTypedef = false := by
    rw [Opening.header, hnone]
    rfl
  rw [headerFindings, h.ownFindings_header, htypedef]
  rfl

/-- At the opening of a definition its struct and its aliases are found. -/
theorem headerFindings_definition {opening : Opening} {body : Body} {aliases : AliasList}
    (h : (Item.definition opening body aliases).Proper) {maxScan : Nat}
    (hfits : (Item.definition opening body aliases).FitsIn maxScan) (path : Path)
    (before rest : List Char) :
    headerFindings maxScan path
        (before ++ ((Item.definition opening body aliases).text ++ rest))
        (byteSize before + byteSize opening.text) opening.header =
      structFinding (opening.struct path (byteSize before + byteSize opening.text)) ::
        (aliases.of path opening.name).map aliasFinding := by
  cases h with
  | definition hopening hbody haliases hnone =>
    cases htypedef : opening.typedef with
    | none =>
      rw [headerFindings_nested hopening htypedef, AliasList.of, hnone htypedef]
      rfl
    | some gap =>
      -- The names behind the body are read up to the semicolon.
      have htrailer : ∀ c ∈ aliases.text, c ≠ '/' ∧ c ≠ ';' := by
        have hne : ∀ d, isSpace d = false → isIdentChar d = false → d ≠ '*' → d ≠ ',' →
            ∀ c ∈ aliases.text, c ≠ d := fun d hspace hident hstar hcomma c hc heq =>
          haliases.not_mem hspace hident hstar hcomma (heq ▸ hc)
        exact fun c hc => ⟨hne '/' (by decide) (by decide) (by decide) (by decide) c hc,
          hne ';' (by decide) (by decide) (by decide) (by decide) c hc⟩
      have htext : before ++ ((Item.definition opening body aliases).text ++ rest) =
          (before ++ opening.text) ++
            '{' :: (body.text ++ '}' :: (aliases.text ++ ';' :: rest)) := by
        simp [Item.text_definition]
      have hsome : opening.typedef.isSome = true := by rw [htypedef, Option.isSome_some]
      obtain ⟨span, hspan, hlist⟩ := Block.extract_declaration_of_le (before ++ opening.text) rest
        hbody.isBalanced hbody.isCode htrailer (hfits hsome)
      have hdeclared := hopening.declared_header
      rw [htext, ← byteSize_append, headerFindings, hopening.ownFindings_header, hspan]
      simp only [Opening.header, hsome, if_true, hlist, haliases.parseList_text (.inr rfl)]
      rw [Opening.header, hsome] at hdeclared
      rw [hdeclared, declaratorFindings, structAliases_list]
      rfl

/-! ### Where the openings are -/

/-- The openings in a body declare no types. -/
theorem Body.Proper.of_mem_openings {body : Body} (h : body.Proper) {pos : Nat}
    {found : Nat × Opening} (hfound : found ∈ body.openings pos) :
    found.2.Proper ∧ found.2.typedef = none := by
  induction h generalizing pos with
  | done _ => cases hfound
  | plain _ _ ih => exact ih hfound
  | nested _ _ hopening htypedef _ _ _ hinner hrest =>
    rw [openings, List.mem_cons, List.mem_append] at hfound
    rcases hfound with rfl | hfound | hfound
    · exact ⟨hopening, htypedef⟩
    · exact hinner hfound
    · exact hrest hfound

/-- The openings of items that begin at an offset are those of each item where it stands. -/
theorem mem_openingsFrom_iff {items : List (List Char × Item)} {pos : Nat}
    {found : Nat × Opening} :
    found ∈ openingsFrom pos items ↔ ∃ l₁ i l₂, items = l₁ ++ i :: l₂ ∧
      found ∈ i.2.openings (pos + byteSize (itemsText l₁) + byteSize i.1) := by
  induction items generalizing pos with
  | nil => simp [openingsFrom]
  | cons i items ih =>
    rw [openingsFrom, List.mem_append, ih]
    constructor
    · rintro (hfound | ⟨l₁, j, l₂, rfl, hfound⟩)
      · exact ⟨[], i, items, rfl, hfound⟩
      · refine ⟨i :: l₁, j, l₂, rfl, ?_⟩
        rw [itemsText_cons, byteSize_append, byteSize_append]
        simpa only [Nat.add_assoc] using hfound
    · rintro ⟨l₁, j, l₂, hsplit, hfound⟩
      cases l₁ with
      | nil =>
        obtain ⟨rfl, rfl⟩ := List.cons_eq_cons.1 hsplit
        exact .inl hfound
      | cons k l₁ =>
        obtain ⟨rfl, rfl⟩ := List.cons_eq_cons.1 hsplit
        refine .inr ⟨l₁, j, l₂, rfl, ?_⟩
        rw [itemsText_cons, byteSize_append, byteSize_append] at hfound
        simpa only [Nat.add_assoc] using hfound

variable {o : Outline}

/-- An outline around one of its items. -/
theorem text_append_cons {l₁ l₂ : List (List Char × Item)} {i : List Char × Item}
    (h : o.items = l₁ ++ i :: l₂) :
    o.text = (itemsText l₁ ++ i.1) ++ (i.2.text ++ (itemsText l₂ ++ o.behind)) := by
  rw [text, h, itemsText, List.flatMap_append, List.flatMap_cons]
  simp [itemsText]

/-! ### What is found in an outline -/

/-- What an outline declares. -/
def findings (o : Outline) (path : Path) : List Finding :=
  (o.structs path).map structFinding ++ (o.aliases path).map aliasFinding

/-- At the opening of a definition in an outline its struct and its aliases are found. -/
theorem Proper.headerFindings_definition (h : o.Proper) {maxScan : Nat}
    (hfits : ∀ i ∈ o.items, i.2.FitsIn maxScan) (path : Path) {l₁ l₂ : List (List Char × Item)}
    {space : List Char} {opening : Opening} {body : Body} {aliases : AliasList}
    (hsplit : o.items = l₁ ++ (space, .definition opening body aliases) :: l₂) :
    headerFindings maxScan path o.text
        (byteSize (itemsText l₁) + byteSize space + byteSize opening.text) opening.header =
      structFinding (opening.struct path
        (byteSize (itemsText l₁) + byteSize space + byteSize opening.text)) ::
        (aliases.of path opening.name).map aliasFinding := by
  have hmem : (space, Item.definition opening body aliases) ∈ o.items := by simp [hsplit]
  rw [text_append_cons hsplit, ← byteSize_append]
  exact Outline.headerFindings_definition (h.items _ hmem) (hfits _ hmem) path _ _

/-- What is found at the opening of an item: its struct and, where it is not nested, the aliases of
the item. -/
theorem Proper.headerFindings_eq (h : o.Proper) {maxScan : Nat}
    (hfits : ∀ i ∈ o.items, i.2.FitsIn maxScan) (path : Path) {l₁ l₂ : List (List Char × Item)}
    {i : List Char × Item} (hsplit : o.items = l₁ ++ i :: l₂) {found : Nat × Opening}
    (hfound : found ∈ i.2.openings (byteSize (itemsText l₁) + byteSize i.1)) :
    headerFindings maxScan path o.text found.1 found.2.header =
        [structFinding (found.2.struct path found.1)] ∨
      headerFindings maxScan path o.text found.1 found.2.header =
        structFinding (found.2.struct path found.1) :: (i.2.aliases path).map aliasFinding := by
  obtain ⟨space, item⟩ := i
  have hitem := h.items (space, item) (by simp [hsplit])
  cases item with
  | statement _ _ _ _ _ => cases hfound
  | definition opening body aliases =>
    rw [Item.openings, List.mem_cons] at hfound
    rcases hfound with rfl | hfound
    · exact .inr (h.headerFindings_definition hfits path hsplit)
    · cases hitem with
      | definition _ hbody _ _ =>
        obtain ⟨hopening, hnone⟩ := hbody.of_mem_openings hfound
        exact .inl (headerFindings_nested hopening hnone maxScan path _ _)

/-- What is found at the alias statements of an outline. -/
theorem Proper.exists_mem_statementFindings_iff (h : o.Proper) {path : Path} {f : Finding} :
    (∃ st ∈ AliasStatement.all o.text, f ∈ statementFindings path st) ↔
      ∃ i ∈ o.items, i.2.statement?.isSome ∧ f ∈ (i.2.aliases path).map aliasFinding := by
  have hbodies := h.map_body_all_text
  -- What is found at a statement depends on its body alone.
  have hfindings : ∀ {st : AliasStatement} {i}, i ∈ o.items → i.2.statement? = some st.body →
      statementFindings path st = (i.2.aliases path).map aliasFinding := by
    rintro st ⟨space, item⟩ hi hbody
    cases h.items _ hi with
    | definition _ _ _ _ => cases hbody
    | statement _ _ hspace _ htarget haliases hsome hparted _ =>
      rw [statementFindings, ← Option.some.inj hbody,
        parse?_statementText hspace htarget haliases hsome hparted]
      exact structAliases_list path _ _
  constructor
  · rintro ⟨st, hst, hf⟩
    have hbody := List.mem_map_of_mem (f := AliasStatement.body) hst
    rw [hbodies, List.mem_filterMap] at hbody
    obtain ⟨i, hi, hstatement⟩ := hbody
    rw [hfindings hi hstatement] at hf
    exact ⟨i, hi, by rw [hstatement, Option.isSome_some], hf⟩
  · rintro ⟨i, hi, hsome, hf⟩
    obtain ⟨body, hstatement⟩ := Option.isSome_iff_exists.1 hsome
    have hbody : body ∈ (AliasStatement.all o.text).map AliasStatement.body := by
      rw [hbodies, List.mem_filterMap]
      exact ⟨i, hi, hstatement⟩
    obtain ⟨st, hst, rfl⟩ := List.mem_map.1 hbody
    exact ⟨st, hst, by rwa [hfindings hi hstatement]⟩

/-- What is found in an outline is what it declares. -/
theorem Proper.mem_findings_iff (h : o.Proper) {maxScan : Nat}
    (hfits : ∀ i ∈ o.items, i.2.FitsIn maxScan) {path : Path} {f : Finding} :
    f ∈ Scan.findings maxScan path o.text ↔ f ∈ o.findings path := by
  have hparts : f ∈ Scan.findings maxScan path o.text ↔
      (∃ found ∈ openingsFrom 0 o.items,
        f ∈ headerFindings maxScan path o.text found.1 found.2.header) ∨
      ∃ st ∈ AliasStatement.all o.text, f ∈ statementFindings path st := by
    rw [Scan.findings, h.spans_text, h.all_text]
    simp [Comment.inSpans]
  rw [hparts, h.exists_mem_statementFindings_iff, findings, List.mem_append, structs, aliases,
    List.map_map, List.mem_map, List.mem_map]
  constructor
  · rintro (⟨found, hfound, hf⟩ | ⟨i, hi, -, hf⟩)
    · obtain ⟨l₁, i, l₂, hsplit, hmem⟩ := mem_openingsFrom_iff.1 hfound
      rw [Nat.zero_add] at hmem
      -- Each opening is that of a definition or one in its body, and only the first has aliases.
      have hf' : f ∈ structFinding (found.2.struct path found.1) ::
          (i.2.aliases path).map aliasFinding := by
        rcases h.headerFindings_eq hfits path hsplit hmem with heq | heq
        · rw [heq, List.mem_singleton] at hf
          exact hf ▸ List.mem_cons_self
        · rwa [heq] at hf
      rcases List.mem_cons.1 hf' with rfl | hf'
      · exact .inl ⟨found, hfound, rfl⟩
      · obtain ⟨e, he, rfl⟩ := List.mem_map.1 hf'
        exact .inr ⟨e, List.mem_flatMap.2 ⟨i, by simp [hsplit], he⟩, rfl⟩
    · obtain ⟨e, he, rfl⟩ := List.mem_map.1 hf
      exact .inr ⟨e, List.mem_flatMap.2 ⟨i, hi, he⟩, rfl⟩
  · rintro (⟨found, hfound, rfl⟩ | ⟨e, he, rfl⟩)
    · refine .inl ⟨found, hfound, ?_⟩
      obtain ⟨l₁, i, l₂, hsplit, hmem⟩ := mem_openingsFrom_iff.1 hfound
      rw [Nat.zero_add] at hmem
      rcases h.headerFindings_eq hfits path hsplit hmem with heq | heq
      · exact heq ▸ List.mem_cons_self
      · exact heq ▸ List.mem_cons_self
    · obtain ⟨⟨space, item⟩, hi, he⟩ := List.mem_flatMap.1 he
      cases item with
      | statement _ _ _ _ _ => exact .inr ⟨_, hi, rfl, List.mem_map_of_mem he⟩
      | definition opening body aliases =>
        obtain ⟨l₁, l₂, hsplit⟩ := List.append_of_mem hi
        have hfound : (byteSize (itemsText l₁) + byteSize space + byteSize opening.text, opening) ∈
            openingsFrom 0 o.items :=
          mem_openingsFrom_iff.2 ⟨l₁, _, l₂, hsplit, by
            rw [Nat.zero_add, Item.openings]
            exact List.mem_cons_self⟩
        refine .inl ⟨_, hfound, ?_⟩
        rw [h.headerFindings_definition hfits path hsplit]
        exact List.mem_cons_of_mem _ (List.mem_map_of_mem he)

/-! ### The catalog of an outline -/

/-- The names that are declared do not depend on the path. -/
theorem map_name?_findings (o : Outline) (path : Path) :
    (o.findings path).map Finding.name? = o.names.map some := by
  have haliases : ∀ path, (o.aliases path).map Prod.fst = o.items.flatMap fun i =>
      (i.2.aliases ⟨[]⟩).map Prod.fst := by
    intro path
    rw [aliases, List.map_flatMap]
    refine List.flatMap_congr fun i _ => ?_
    cases i.2 with
    | definition _ _ _ => simp [Item.aliases, AliasList.of]
    | statement _ _ _ _ _ => simp [Item.aliases, AliasList.of]
  have hstructs : ∀ path, (o.structs path).map Prod.fst =
      (openingsFrom 0 o.items).map fun found => found.2.name := by
    intro path
    rw [structs, List.map_map]
    rfl
  rw [names, haliases, hstructs, ← haliases path, ← hstructs path, findings]
  simp only [List.map_append, List.map_map]
  rfl

/-- Two things that are declared differ in their names. -/
theorem eq_of_name?_eq (hnodup : o.names.Nodup) {path : Path} {f g : Finding}
    (hf : f ∈ o.findings path) (hg : g ∈ o.findings path) (h : g.name? = f.name?) : g = f := by
  have hmap : ((o.findings path).map Finding.name?).Nodup := by
    rw [map_name?_findings]
    exact hnodup.map fun _ _ heq => Option.some.inj heq
  exact List.inj_on_of_nodup_map hmap hg hf h

/-- Scanning the text of an outline into the empty catalog registers what the outline declares and
nothing else: each struct at the offset of its brace with its base, each alias with its target and
whether a star stands before it. No problem is met. -/
theorem scan_text {o : Outline} {maxScan : Nat} {path : Path} (h : o.Proper)
    (hnodup : o.names.Nodup) (hfits : ∀ i ∈ o.items, i.2.FitsIn maxScan) :
    let scanned := scan maxScan Catalog.empty path o.text
    (∀ n d, scanned.1.structs.get? n = some d ↔ (n, d) ∈ o.structs path) ∧
      (∀ n a, scanned.1.aliases.get? n = some a ↔ (n, a) ∈ o.aliases path) ∧
      (∀ n, scanned.1.unparseable.get? n = none) ∧ scanned.2.problems = [] := by
  intro scanned
  -- The catalog holds a finding if and only if the outline declares it.
  have hholds : ∀ f n, f.name? = some n → (f.HeldBy scanned.1 ↔ f ∈ o.findings path) := by
    intro f n hname
    constructor
    · intro hheld
      exact (h.mem_findings_iff hfits).1
        (@mem_findings_of_heldBy_alone maxScan (path, o.text) f hheld)
    · intro hf
      have honce : ∀ g ∈ Scan.findings maxScan path o.text, g.name? = some n → g = f :=
        fun g hg hgname => eq_of_name?_eq hnodup hf ((h.mem_findings_iff hfits).1 hg)
          (hgname.trans hname.symm)
      exact @heldBy_alone_of_mem maxScan (path, o.text) f n ((h.mem_findings_iff hfits).2 hf) hname
        honce
  refine ⟨fun n d => ?_, fun n a => ?_, fun n => ?_, ?_⟩
  · refine (hholds (.struct n d) n rfl).trans ?_
    simp [findings, structFinding, aliasFinding]
  · refine (hholds (.aliased n a) n rfl).trans ?_
    simp [findings, structFinding, aliasFinding]
  · refine Option.eq_none_iff_forall_ne_some.2 fun u hu => ?_
    have hmem := (hholds (.unparseable n u) n rfl).1 hu
    simp [findings, structFinding, aliasFinding] at hmem
  · refine List.eq_nil_iff_forall_not_mem.2 fun p hp => ?_
    have hmem := (h.mem_findings_iff hfits).1 (mem_problems_ofFindings_iff.1 hp)
    simp [findings, structFinding, aliasFinding] at hmem

/-- The outline of a text with a nested struct, a base, a list of aliases and a statement. -/
def shapes : Outline where
  items := [
    ([], .definition
      ⟨[], some [' '], [("static", [' '])], [' '], "Shape",
        some ⟨[' '], ['\t'], some ("public", [' ']), "Base"⟩, [' ']⟩
      (.plain "\n  int kind".toList
        (.nested ['\n'] ⟨"  ".toList, none, [], [' '], "Point", none, []⟩
          (.plain "\n    int x, y / 2".toList (.done "\n  ".toList)) " origin[2]".toList
          (.done ['\n'])))
      ⟨[' '], [⟨[], [], "Shape", []⟩, ⟨[' '], [(.star, [])], "ShapeRef", []⟩,
        ⟨['\n'], [(.const, []), (.star, [' ']), (.volatile, [' '])], "Handle", [' ']⟩]⟩),
    ("\n\n".toList, .statement ['\t'] ['\t'] [' '] "Point"
      ⟨[' '], [⟨[], [], "Spot", []⟩, ⟨[], [(.star, [])], "SpotRef", []⟩]⟩)]
  behind := ['\n']

theorem scan_text_shapes :
    let path := Path.ofString "shapes.h"
    let scanned := scan 200 Catalog.empty path shapes.text
    shapes.text =
        "typedef static struct Shape :\tpublic Base \x7b\n  int kind;\n".toList ++
          "  struct Point\x7b\n    int x, y / 2;\n  \x7d origin[2];\n".toList ++
            "\x7d Shape, *ShapeRef,\nconst* volatile Handle ;\n\n".toList ++
              "\ttypedef\tstruct Point Spot,*SpotRef;\n".toList ∧
      shapes.structs path = [("Shape", ⟨path, 42, some "Base"⟩), ("Point", ⟨path, 70, none⟩)] ∧
      shapes.aliases path = [("ShapeRef", ⟨"Shape", true, path⟩), ("Handle", ⟨"Shape", true, path⟩),
        ("Spot", ⟨"Point", false, path⟩), ("SpotRef", ⟨"Point", true, path⟩)] ∧
      (∀ n d, scanned.1.structs.get? n = some d ↔ (n, d) ∈ shapes.structs path) ∧
      (∀ n a, scanned.1.aliases.get? n = some a ↔ (n, a) ∈ shapes.aliases path) ∧
      (∀ n, scanned.1.unparseable.get? n = none) ∧ scanned.2.problems = [] :=
  ⟨by decide +kernel, by decide +kernel, by decide +kernel,
    scan_text (by decide +kernel) (by decide +kernel) (by decide +kernel)⟩

end Outline

end StructUnfold
