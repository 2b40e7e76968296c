import StructUnfold.Proofs.Catalog.Resolve
import StructUnfold.Proofs.Scan.Incremental
import StructUnfold.Proofs.Schema.Scan
import StructUnfold.Proofs.Source.Block

/-!
# The catalog of a schema

Scanning the printed files of a schema finds what its entries declare and nothing else, unless a
ceiling stops the scan. No two entries share a name, so the catalog holds all that is found, and it
resolves names as the schema does.

* `Problem.isCeiling`: the problems that ceilings are the reason of.
* `Entry.findings`: what an entry declares.
* `mem_findings_printFile_iff`: what is found in a printed file.
* `Valid.heldBy_workspace_iff`: what the catalog of a schema holds.
* `Valid.exists_resolve`: a name comes down to the same name in the catalog and in the schema.
-/

namespace StructUnfold

/-- Whether a ceiling is the reason of a problem. -/
def Problem.isCeiling : Problem → Bool
  | .malformedBlock _ (.scanLimit _ _) => true
  | .depthLimit _ _ => true
  | _ => false

namespace Schema

open Text Scan

/-! ### What a printed file holds -/

/-- The text between the braces of a struct. -/
def bodyText (members : List Member) : List Char :=
  '\n' :: joinLines (members.map Member.line)

/-- No brace and no comment stands between the braces of a struct. -/
theorem isFlat_bodyText {members : List Member} (hmembers : ∀ m ∈ members, IsMember m) :
    Block.IsFlat (bodyText members) := by
  have hnone : ∀ c, isIdentChar c = false → c ∉ [' ', ',', '*', ';'] → c ≠ '\n' →
      c ∉ bodyText members := by
    intro c hc hc' hfeed hmem
    rw [bodyText, List.mem_cons, joinLines, List.mem_flatMap] at hmem
    rcases hmem with heq | ⟨l, hl, hmem⟩
    · exact hfeed heq
    · obtain ⟨m, hm, rfl⟩ := List.mem_map.1 hl
      rw [List.mem_append, List.mem_singleton] at hmem
      rcases hmem with hmem | heq
      · exact Member.not_mem_line (hmembers m hm) hc hc' hmem
      · exact hfeed heq
  intro c hc
  refine ⟨?_, ?_, ?_⟩
  · rintro rfl
    exact hnone '/' (by decide) (by decide) (by decide) hc
  · rintro rfl
    exact hnone '{' (by decide) (by decide) (by decide) hc
  · rintro rfl
    exact hnone '}' (by decide) (by decide) (by decide) hc

/-- A struct in a printed file: what stands before its braces, between them and behind them. -/
theorem printFile_append_struct (es₁ es₂ : List Entry) (name : String) (members : List Member)
    (aliases : List Declarator) :
    printFile (es₁ ++ .struct name members aliases :: es₂) =
      (printFile es₁ ++ Entry.opening name aliases) ++
        '{' :: (bodyText members ++
          '}' :: (Entry.trailer aliases ++ ';' :: '\n' :: printFile es₂)) := by
  have hlines : Entry.lines (.struct name members aliases) =
      (Entry.opening name aliases ++ ['{']) :: members.map Member.line ++
        ['}' :: (Entry.trailer aliases ++ [';'])] := rfl
  rw [printFile_append, printFile_cons, hlines, bodyText]
  simp

namespace Entry

/-- What an entry declares whose first line begins at an offset of a file. -/
def findings (path : Path) (pos : Nat) : Entry → List Finding
  | .struct name _ aliases =>
    .struct name ⟨path, pos + byteSize (opening name aliases), none⟩ ::
      aliases.map fun d => .aliased d.name ⟨name, d.isPointer, path⟩
  | .alias target aliases => aliases.map fun d => .aliased d.name ⟨target, d.isPointer, path⟩

/-- An entry declares its names, one after the other. -/
theorem map_name?_findings (path : Path) (pos : Nat) (e : Entry) :
    (e.findings path pos).map Finding.name? = e.names.map some := by
  cases e with
  | struct name members aliases => simp [findings, names, Finding.name?]
  | «alias» target aliases => simp [findings, names, Finding.name?]

end Entry

variable {maxScan : Nat} {path : Path}

/-- The aliases that are found for a name are all that are declared, for the name is none of
them. -/
theorem structAliases_eq {target : String} {aliases : List Declarator}
    (hdiffer : ∀ d ∈ aliases, d.name ≠ target) :
    structAliases path target aliases =
      aliases.map fun d => .aliased d.name ⟨target, d.isPointer, path⟩ := by
  rw [structAliases, List.filter_eq_self.2 fun d hd => by simpa using hdiffer d hd]

theorem declared_eq {name : String} (hname : isIdentifier name.toList = true)
    (hkeyword : name ∉ keywords) (isTypedef : Bool) :
    Header.declared ⟨isTypedef, name.toList, none⟩ = ⟨name, none, none⟩ := by
  have hstruct : (name.toList == "struct".toList) = false := by
    refine beq_false_of_ne fun heq => hkeyword ?_
    rw [String.toList_inj.1 heq]
    decide
  have hempty : name.toList.isEmpty = false := by
    simpa using (isIdent_of_isIdentifier hname).ne_nil
  have hfault : Header.nameFault? name.toList = none := by
    rw [Header.nameFault?, hempty, hstruct, hname]
    rfl
  simp [Header.declared, hfault]

/-- What is found at the header of a struct is what the struct declares, unless the ceiling stops
the search for its aliases. -/
theorem headerFindings_struct (maxScan : Nat) (path : Path) {name : String}
    {members : List Member} {aliases : List Declarator}
    (h : (Entry.struct name members aliases).Proper) (before rest : List Char) :
    Finding.problem (.malformedBlock path (.scanLimit (byteSize before) maxScan)) ∈
        headerFindings maxScan path
          (before ++ '{' :: (bodyText members ++ '}' :: (Entry.trailer aliases ++ ';' :: rest)))
          (byteSize before) ⟨!aliases.isEmpty, name.toList, none⟩ ∨
      headerFindings maxScan path
          (before ++ '{' :: (bodyText members ++ '}' :: (Entry.trailer aliases ++ ';' :: rest)))
          (byteSize before) ⟨!aliases.isEmpty, name.toList, none⟩ =
        .struct name ⟨path, byteSize before, none⟩ ::
          aliases.map fun d => .aliased d.name ⟨name, d.isPointer, path⟩ := by
  cases h with
  | struct hname hkeyword hmembers haliases hdiffer =>
    rw [headerFindings, declared_eq hname hkeyword]
    cases aliases with
    | nil => exact .inr rfl
    | cons d ds =>
      -- Only a header that begins with `typedef` has the names behind its body looked for.
      have htrailer : ∀ c ∈ Entry.trailer (d :: ds), c ≠ '/' ∧ c ≠ ';' := by
        intro c hc
        have hplain := Entry.isPlain_trailer haliases
        refine ⟨?_, ?_⟩
        · rintro rfl
          exact hplain.not_mem (by decide) (by decide) hc
        · rintro rfl
          exact hplain.not_mem (by decide) (by decide) hc
      have hlist := parseList_declaratorList haliases [';'] (.inr rfl)
      rcases Block.extract_declaration maxScan before rest
        (isFlat_bodyText hmembers) htrailer with herror | ⟨span, hspan, htext⟩
      · refine .inl ?_
        simp [herror]
      · refine .inr ?_
        have hparse : Declarator.parseList (Entry.trailer (d :: ds) ++ [';']) = d :: ds := hlist
        simp only [List.isEmpty_cons, Bool.not_false, if_true, hspan, htext, hparse]
        rw [declaratorFindings, ownFindings]
        simp only [structAliases_eq hdiffer]
        rfl

/-- What is found at the statements of a printed file. -/
theorem exists_mem_statementFindings_iff {es : List Entry} (hes : ∀ e ∈ es, e.Proper)
    {f : Finding} :
    (∃ st ∈ AliasStatement.all (printFile es), f ∈ statementFindings path st) ↔
      ∃ target aliases, Entry.alias target aliases ∈ es ∧
        f ∈ aliases.map fun d => Finding.aliased d.name ⟨target, d.isPointer, path⟩ := by
  have hbodies := map_body_all_printFile hes
  -- What is found at a statement depends on its body alone.
  have hfindings : ∀ {st : AliasStatement} {target aliases}, Entry.alias target aliases ∈ es →
      st.body = statementBody target aliases → statementFindings path st =
        aliases.map fun d => Finding.aliased d.name ⟨target, d.isPointer, path⟩ := by
    intro st target aliases he hbody
    cases hes _ he with
    | «alias» htarget hne haliases hdiffer =>
      rw [statementFindings, hbody, parse?_statementBody htarget hne haliases]
      exact structAliases_eq hdiffer
  constructor
  · rintro ⟨st, hst, hf⟩
    have hbody := List.mem_map_of_mem (f := AliasStatement.body) hst
    rw [hbodies, List.mem_filterMap] at hbody
    obtain ⟨e, he, hstatement⟩ := hbody
    cases e with
    | struct name members aliases => cases hstatement
    | «alias» target aliases =>
      rw [hfindings he (Option.some.inj hstatement).symm] at hf
      exact ⟨target, aliases, he, hf⟩
  · rintro ⟨target, aliases, he, hf⟩
    have hbody : statementBody target aliases ∈
        (AliasStatement.all (printFile es)).map AliasStatement.body := by
      rw [hbodies, List.mem_filterMap]
      exact ⟨_, he, rfl⟩
    obtain ⟨st, hst, hbody⟩ := List.mem_map.1 hbody
    exact ⟨st, hst, by rwa [hfindings he hbody]⟩

/-- What is found in a printed file is what its entries declare, unless a ceiling stops the scan. -/
theorem mem_findings_printFile_iff {es : List Entry} (hes : ∀ e ∈ es, e.Proper)
    (hceiling : ∀ start, Finding.problem (.malformedBlock path (.scanLimit start maxScan)) ∉
      findings maxScan path (printFile es)) {f : Finding} :
    f ∈ findings maxScan path (printFile es) ↔ ∃ es₁ e es₂, es = es₁ ++ e :: es₂ ∧
      f ∈ e.findings path (byteSize (printFile es₁)) := by
  have hparts : ∀ f, f ∈ findings maxScan path (printFile es) ↔
      (∃ found ∈ headersFrom 0 es,
        f ∈ headerFindings maxScan path (printFile es) found.1 found.2) ∨
      ∃ st ∈ AliasStatement.all (printFile es), f ∈ statementFindings path st := by
    intro f
    rw [findings, Comment.spans_eq_nil (slash_not_mem_printFile hes), all_printFile hes]
    simp [Comment.inSpans]
  -- The header of a struct is found where the struct stands, and the ceiling has not been met.
  have hheader : ∀ es₁ name members aliases es₂,
      es = es₁ ++ .struct name members aliases :: es₂ →
      headerFindings maxScan path (printFile es)
          (byteSize (printFile es₁) + byteSize (Entry.opening name aliases))
          ⟨!aliases.isEmpty, name.toList, none⟩ =
        (Entry.struct name members aliases).findings path (byteSize (printFile es₁)) := by
    intro es₁ name members aliases es₂ hsplit
    have hmem : (byteSize (printFile es₁) + byteSize (Entry.opening name aliases), _) ∈
        headersFrom 0 es :=
      mem_headersFrom_iff.2 ⟨es₁, .struct name members aliases, es₂, hsplit, by
        rw [Nat.zero_add]
        rfl⟩
    have hproper : (Entry.struct name members aliases).Proper := hes _ (by simp [hsplit])
    have hfound := headerFindings_struct maxScan path hproper
      (printFile es₁ ++ Entry.opening name aliases) ('\n' :: printFile es₂)
    rw [← printFile_append_struct, ← hsplit, byteSize_append] at hfound
    exact hfound.resolve_left fun hstops => hceiling _ ((hparts _).2 (.inl ⟨_, hmem, hstops⟩))
  rw [hparts, exists_mem_statementFindings_iff hes]
  constructor
  · rintro (⟨⟨brace, header⟩, hmem, hf⟩ | ⟨target, aliases, he, hf⟩)
    · obtain ⟨es₁, e, es₂, hsplit, hfound⟩ := mem_headersFrom_iff.1 hmem
      refine ⟨es₁, e, es₂, hsplit, ?_⟩
      cases e with
      | struct name members aliases =>
        rw [← hheader es₁ name members aliases es₂ hsplit]
        obtain ⟨rfl, rfl⟩ := Prod.mk.inj (Option.some.inj hfound)
        simpa using hf
      | «alias» target aliases => cases hfound
    · obtain ⟨es₁, es₂, hsplit⟩ := List.append_of_mem he
      exact ⟨es₁, _, es₂, hsplit, hf⟩
  · rintro ⟨es₁, e, es₂, hsplit, hf⟩
    cases e with
    | struct name members aliases =>
      refine .inl ⟨_, mem_headersFrom_iff.2 ⟨es₁, _, es₂, hsplit, rfl⟩, ?_⟩
      rw [← hheader es₁ name members aliases es₂ hsplit] at hf
      simpa using hf
    | «alias» target aliases => exact .inr ⟨target, aliases, by simp [hsplit], hf⟩

/-! ### What the catalog holds -/

/-- Entries that declare a name in common stand at the same place. -/
theorem split_unique {es es₁ es₂ es₁' es₂' : List Entry} {e e' : Entry} {name : String}
    (hnodup : (es.flatMap Entry.names).Nodup) (h : es = es₁ ++ e :: es₂)
    (h' : es = es₁' ++ e' :: es₂') (hname : name ∈ e.names) (hname' : name ∈ e'.names) :
    es₁ = es₁' ∧ e = e' := by
  -- Behind an entry none declares one of its names again.
  have hlater : ∀ {e : Entry} {es : List Entry}, ((e :: es).flatMap Entry.names).Nodup →
      ∀ {e'}, e' ∈ es → name ∈ e.names → name ∉ e'.names := by
    intro e es hnodup e' he' hname hname'
    rw [List.flatMap_cons, List.nodup_append] at hnodup
    exact hnodup.2.2 name hname name (List.mem_flatMap_of_mem he' hname') rfl
  induction es₁ generalizing es es₁' with
  | nil =>
    subst h
    cases es₁' with
    | nil => exact ⟨rfl, (List.cons_eq_cons.1 h').1⟩
    | cons a as =>
      obtain ⟨rfl, rfl⟩ := List.cons_eq_cons.1 h'
      exact absurd hname' (hlater hnodup (by simp) hname)
  | cons a as ih =>
    subst h
    cases es₁' with
    | nil =>
      obtain ⟨rfl, rfl⟩ := List.cons_eq_cons.1 h'
      exact absurd hname (hlater hnodup (by simp) hname')
    | cons b bs =>
      obtain ⟨rfl, htail⟩ := List.cons_eq_cons.1 h'
      rw [List.cons_append, List.flatMap_cons, List.nodup_append] at hnodup
      obtain ⟨rfl, rfl⟩ := ih hnodup.2.1 rfl htail
      exact ⟨rfl, rfl⟩

variable {s : Schema}

/-- No problem that the scan of a schema meets is the fault of a ceiling. -/
def ScansWhole (maxScan : Nat) (s : Schema) : Prop :=
  ∀ p ∈ (workspace maxScan s.print).2.problems, p.isCeiling = false

namespace Valid

theorem proper_of_mem (hs : s.Valid) {file : Path × List Entry} (hfile : file ∈ s) :
    ∀ e ∈ file.2, e.Proper :=
  fun _ he => hs.proper (List.mem_flatMap_of_mem hfile he)

/-- What is found in a file of a schema. -/
theorem mem_findings_iff (hs : s.Valid) (hscan : s.ScansWhole maxScan)
    {file : Path × List Entry} (hfile : file ∈ s) {f : Finding} :
    f ∈ Scan.findings maxScan file.1 (printFile file.2) ↔ ∃ es₁ e es₂, file.2 = es₁ ++ e :: es₂ ∧
      f ∈ e.findings file.1 (byteSize (printFile es₁)) := by
  refine mem_findings_printFile_iff (hs.proper_of_mem hfile) fun start hmem => ?_
  have hprinted : (file.1, printFile file.2) ∈ s.print := List.mem_map_of_mem hfile
  have hceiling := hscan _ (mem_problems_workspace_iff.2 ⟨_, hprinted, hmem⟩)
  cases hceiling

/-- What is found in a file has a name that the file declares. -/
theorem exists_name_of_mem_findings (hs : s.Valid) (hscan : s.ScansWhole maxScan)
    {file : Path × List Entry} (hfile : file ∈ s) {f : Finding}
    (hf : f ∈ Scan.findings maxScan file.1 (printFile file.2)) :
    ∃ name, f.name? = some name ∧ name ∈ file.2.flatMap Entry.names := by
  obtain ⟨es₁, e, es₂, hsplit, hf⟩ := (hs.mem_findings_iff hscan hfile).1 hf
  have hname := List.mem_map_of_mem (f := Finding.name?) hf
  rw [Entry.map_name?_findings, List.mem_map] at hname
  obtain ⟨name, hmem, hname⟩ := hname
  exact ⟨name, hname.symm, List.mem_flatMap_of_mem (by simp [hsplit]) hmem⟩

/-- Nothing else is found in a file under the same name. -/
theorem eq_of_mem_findings (hs : s.Valid) (hscan : s.ScansWhole maxScan)
    {file : Path × List Entry} (hfile : file ∈ s) {f g : Finding}
    (hf : f ∈ Scan.findings maxScan file.1 (printFile file.2))
    (hg : g ∈ Scan.findings maxScan file.1 (printFile file.2)) (hname : g.name? = f.name?) :
    g = f := by
  have hnodup : (file.2.flatMap Entry.names).Nodup := by
    have hall := hs.nodup
    rw [entries, List.flatMap_assoc] at hall
    exact (List.nodup_flatMap.1 hall).1 file hfile
  obtain ⟨es₁, e, es₂, hsplit, hfe⟩ := (hs.mem_findings_iff hscan hfile).1 hf
  obtain ⟨es₁', e', es₂', hsplit', hge⟩ := (hs.mem_findings_iff hscan hfile).1 hg
  have hfname := List.mem_map_of_mem (f := Finding.name?) hfe
  have hgname := List.mem_map_of_mem (f := Finding.name?) hge
  rw [Entry.map_name?_findings, List.mem_map] at hfname hgname
  obtain ⟨n, hn, hfn⟩ := hfname
  obtain ⟨n', hn', hgn⟩ := hgname
  obtain rfl : n = n' := Option.some.inj (hfn.trans (hname.symm.trans hgn.symm))
  obtain ⟨rfl, rfl⟩ := split_unique hnodup hsplit hsplit' hn hn'
  -- The names of one entry are different as well.
  have hdistinct : ((e.findings file.1 (byteSize (printFile es₁))).map Finding.name?).Nodup := by
    rw [Entry.map_name?_findings]
    refine List.Nodup.map (fun _ _ => Option.some.inj) ?_
    exact (List.nodup_flatMap.1 hnodup).1 e (by simp [hsplit])
  exact List.inj_on_of_nodup_map hdistinct hge hfe hname

/-- The catalog of a schema holds what its entries declare. -/
theorem heldBy_workspace_iff (hs : s.Valid) (hscan : s.ScansWhole maxScan) {f : Finding} :
    f.HeldBy (workspace maxScan s.print).1 ↔ ∃ file ∈ s, ∃ es₁ e es₂,
      file.2 = es₁ ++ e :: es₂ ∧ f ∈ e.findings file.1 (byteSize (printFile es₁)) := by
  have hpaths : s.print.Pairwise PathsDiffer := List.pairwise_map.2 hs.paths
  -- The files have no names in common, so the catalog is the union of what they declare.
  have hapart : NamesApart maxScan s.print := by
    have hall := hs.nodup
    rw [entries, List.flatMap_assoc] at hall
    refine List.pairwise_map.2 ((List.nodup_flatMap.1 hall).2.imp_of_mem ?_)
    rintro file file' hfile hfile' hdisjoint name ⟨hname, hname'⟩
    obtain ⟨f, hheld, hf⟩ := exists_heldBy_of_defines hname
    obtain ⟨f', hheld', hf'⟩ := exists_heldBy_of_defines hname'
    obtain ⟨n, hn, hmem⟩ :=
      hs.exists_name_of_mem_findings hscan hfile (mem_findings_of_heldBy_alone hheld)
    obtain ⟨n', hn', hmem'⟩ :=
      hs.exists_name_of_mem_findings hscan hfile' (mem_findings_of_heldBy_alone hheld')
    obtain rfl := Option.some.inj (hf.symm.trans hn)
    obtain rfl := Option.some.inj (hf'.symm.trans hn')
    exact hdisjoint hmem hmem'
  rw [heldBy_iff_of_isUnion (isUnion_workspace hpaths hapart)]
  constructor
  · rintro ⟨_, hprinted, hheld⟩
    obtain ⟨file, hfile, rfl⟩ := List.mem_map.1 hprinted
    exact ⟨file, hfile, (hs.mem_findings_iff hscan hfile).1 (mem_findings_of_heldBy_alone hheld)⟩
  · rintro ⟨file, hfile, hfound⟩
    have hf := (hs.mem_findings_iff hscan hfile).2 hfound
    obtain ⟨name, hname, -⟩ := hs.exists_name_of_mem_findings hscan hfile hf
    refine ⟨_, List.mem_map_of_mem hfile, heldBy_alone_of_mem hf hname fun g hg hgname => ?_⟩
    exact hs.eq_of_mem_findings hscan hfile hf hg (hgname.trans hname.symm)

/-- A struct of the catalog is defined by an entry of its file, with its brace behind the first
line of the entry. -/
theorem exists_of_get?_structs (hs : s.Valid) (hscan : s.ScansWhole maxScan) {name : String}
    {d : StructDefinition} (h : (workspace maxScan s.print).1.structs.get? name = some d) :
    ∃ file ∈ s, ∃ es₁ members aliases es₂,
      file.2 = es₁ ++ .struct name members aliases :: es₂ ∧
      d = ⟨file.1, byteSize (printFile es₁) + byteSize (Entry.opening name aliases), none⟩ := by
  have hheld : (Finding.struct name d).HeldBy (workspace maxScan s.print).1 := h
  obtain ⟨file, hfile, es₁, e, es₂, hsplit, hf⟩ := (hs.heldBy_workspace_iff hscan).1 hheld
  cases e with
  | struct name' members aliases =>
    rw [Entry.findings, List.mem_cons] at hf
    rcases hf with hf | hf
    · obtain ⟨rfl, rfl⟩ := Finding.struct.inj hf
      exact ⟨file, hfile, es₁, members, aliases, es₂, hsplit, rfl⟩
    · simp at hf
  | «alias» target aliases => simp [Entry.findings] at hf

/-- The structs of the catalog are those of the schema. -/
theorem contains_structs_iff (hs : s.Valid) (hscan : s.ScansWhole maxScan) {name : String} :
    (workspace maxScan s.print).1.structs.contains name = true ↔
      ∃ members, s.HasStruct name members := by
  rw [Table.contains_eq_true_iff]
  constructor
  · rintro ⟨d, hd⟩
    obtain ⟨file, hfile, es₁, members, aliases, es₂, hsplit, -⟩ :=
      hs.exists_of_get?_structs hscan hd
    exact ⟨members, aliases, List.mem_flatMap_of_mem hfile (by simp [hsplit])⟩
  · rintro ⟨members, aliases, he⟩
    obtain ⟨file, hfile, he⟩ := List.mem_flatMap.1 he
    obtain ⟨es₁, es₂, hsplit⟩ := List.append_of_mem he
    refine ⟨_, (hs.heldBy_workspace_iff hscan (f := .struct name _)).2
      ⟨file, hfile, es₁, _, es₂, hsplit, List.mem_cons_self⟩⟩

/-- The aliases of the catalog are those of the schema. -/
theorem get?_aliases_iff (hs : s.Valid) (hscan : s.ScansWhole maxScan) {name target : String}
    {isPointer : Bool} :
    (∃ path, (workspace maxScan s.print).1.aliases.get? name = some ⟨target, isPointer, path⟩) ↔
      s.HasAlias name target isPointer := by
  have hheld := fun path =>
    hs.heldBy_workspace_iff hscan (f := .aliased name ⟨target, isPointer, path⟩)
  constructor
  · rintro ⟨path, hget⟩
    obtain ⟨file, hfile, es₁, e, es₂, hsplit, hf⟩ := (hheld path).1 hget
    have he : e ∈ s.entries := List.mem_flatMap_of_mem hfile (by simp [hsplit])
    -- An alias is declared behind a struct, or in a statement of its own.
    cases e with
    | struct name' members aliases =>
      rw [Entry.findings, List.mem_cons, List.mem_map] at hf
      rcases hf with hf | ⟨d, hd, hf⟩
      · cases hf
      · obtain ⟨rfl, heq⟩ := Finding.aliased.inj hf
        obtain ⟨rfl, rfl, -⟩ := Alias.mk.inj heq
        exact .inl ⟨members, aliases, he, hd⟩
    | «alias» target' aliases =>
      obtain ⟨d, hd, hf⟩ := List.mem_map.1 hf
      obtain ⟨rfl, heq⟩ := Finding.aliased.inj hf
      obtain ⟨rfl, rfl, -⟩ := Alias.mk.inj heq
      exact .inr ⟨aliases, he, hd⟩
  · rintro (⟨members, aliases, he, hd⟩ | ⟨aliases, he, hd⟩)
    · obtain ⟨file, hfile, he⟩ := List.mem_flatMap.1 he
      obtain ⟨es₁, es₂, hsplit⟩ := List.append_of_mem he
      refine ⟨file.1, (hheld file.1).2 ⟨file, hfile, es₁, _, es₂, hsplit, ?_⟩⟩
      exact List.mem_cons_of_mem _ (List.mem_map.2 ⟨_, hd, rfl⟩)
    · obtain ⟨file, hfile, he⟩ := List.mem_flatMap.1 he
      obtain ⟨es₁, es₂, hsplit⟩ := List.append_of_mem he
      refine ⟨file.1, (hheld file.1).2 ⟨file, hfile, es₁, _, es₂, hsplit, ?_⟩⟩
      exact List.mem_map.2 ⟨_, hd, rfl⟩

/-- A name that is no alias in the catalog is none in the schema. -/
theorem resolves_of_get?_aliases_eq_none (hs : s.Valid) (hscan : s.ScansWhole maxScan)
    {name : String} (h : (workspace maxScan s.print).1.aliases.get? name = none) :
    s.Resolves name name false := by
  refine .settled fun target hhop => ?_
  obtain ⟨isPointer, halias⟩ := hhop
  obtain ⟨path, hget⟩ := (hs.get?_aliases_iff hscan).2 halias
  rw [h] at hget
  cases hget

/-- A chain of aliases in the catalog is one in the schema. -/
theorem resolves_of_follow? (hs : s.Valid) (hscan : s.ScansWhole maxScan) {hops : Nat}
    {name : String} {isPointer : Bool} {found : Resolved}
    (h : Catalog.follow? (workspace maxScan s.print).1.aliases hops name isPointer = some found) :
    ∃ isPointer', s.Resolves name found.root isPointer' ∧
      found.isPointer = (isPointer || isPointer') := by
  fun_induction Catalog.follow? (workspace maxScan s.print).1.aliases hops name isPointer with
  | case1 hops name isPointer hnone =>
    -- The chain has come to its end.
    obtain rfl := Option.some.inj h
    exact ⟨false, hs.resolves_of_get?_aliases_eq_none hscan hnone, (Bool.or_false _).symm⟩
  | case2 name isPointer a hget => cases h
  | case3 name isPointer a hget hops ih =>
    obtain ⟨p, hresolves, hpointer⟩ := ih h
    have halias := (hs.get?_aliases_iff hscan).1 ⟨a.path, hget⟩
    exact ⟨_, .hop halias hresolves, by rw [hpointer, Bool.or_assoc]⟩

/-- A name comes down to the same name in the catalog and in the schema. Aliases that do not lead
back to themselves are followed to their end. -/
theorem exists_resolve (hs : s.Valid) (hscan : s.ScansWhole maxScan) {symbol : List Char}
    (htrim : trim symbol = symbol) (hstrip : Catalog.stripStars symbol = symbol) :
    ∃ root isPointer,
      (workspace maxScan s.print).1.resolve symbol = .ok ⟨root, isPointer⟩ ∧
      s.Resolves (String.ofList symbol) root isPointer := by
  have hacyclic : ∀ n, ¬Relation.TransGen
      (Catalog.Hop (workspace maxScan s.print).1.aliases) n n := by
    refine fun n hcircle => hs.acyclic n (Relation.TransGen.mono ?_ n n hcircle)
    rintro name target ⟨a, hget, rfl⟩
    exact ⟨a.isPointer, (hs.get?_aliases_iff hscan).1 ⟨a.path, hget⟩⟩
  -- The bound on hops is the number of aliases, since none was set.
  have hbound : (workspace maxScan s.print).1.aliases.size ≤
      (workspace maxScan s.print).1.aliasHopBound := by
    rw [Catalog.aliasHopBound, workspace_fst, maxAliasHops_rescans]
    exact Nat.le_succ _
  obtain ⟨found, hfound⟩ :=
    Catalog.exists_follow?_eq_some hacyclic hbound (String.ofList symbol) false
  obtain ⟨isPointer, hresolves, hpointer⟩ := hs.resolves_of_follow? hscan hfound
  refine ⟨found.root, isPointer, ?_, hresolves⟩
  rw [Catalog.resolve]
  simp only [htrim, hstrip, bne_self_eq_false, hfound]
  rw [Bool.false_or] at hpointer
  rw [← hpointer]

end Valid

end Schema

end StructUnfold
