import StructUnfold.Document.Store
import StructUnfold.Proofs.Uri

/-!
# Open documents and the files they stand for

A document stands for a file if it is open under the URI of the path of the file or under one that
leads to the file. The text of a file is not changed by what happens to a document that does not
stand for it.

* `Uri.standsFor`: the document of a URI stands for a file.
* `DocumentStore.textOf?_congr`: the other documents give the text of a file.
* `DocumentStore.textOf?_put`: a document that is put gives the text of a file, or changes nothing.
* `DocumentStore.textOf?_of_only`: the text of a file for which one document stands.
-/

namespace StructUnfold

/-- Whether the document of a URI stands for the file of a path in normal form. -/
def Uri.standsFor (normalize : Path → Path) (path : Path) (uri : Uri) : Bool :=
  ofFilePath? path == some uri || uri.toFilePath?.any fun p => (normalize p).same path

/-- The document of a plain path stands only for the file that the path leads to. -/
theorem Uri.standsFor_eq_false {normalize : Path → Path} {path : Path} {uri : Uri}
    (hpath : path.IsPlain) (hnormal : normalize path = path)
    (huri : ∀ p, uri.toFilePath? = some p →
      p.IsPlain ∧ (normalize p).same path = false) : uri.standsFor normalize path = false := by
  rw [standsFor, Bool.or_eq_false_iff]
  constructor
  · rw [beq_eq_false_iff_ne]
    intro heq
    obtain ⟨uri', p, huri', hp, hsame⟩ := exists_toFilePath?_eq hpath.isAbsolute
    obtain rfl : uri = uri' := Option.some.inj (heq.symm.trans huri')
    obtain ⟨hplain, hdiffer⟩ := huri p hp
    obtain rfl := hplain.eq_of_same hpath hsame
    rw [hnormal, Path.same_refl] at hdiffer
    cases hdiffer
  · rw [Option.any_eq_false]
    intro p hp
    simp [(huri p hp).2]

namespace DocumentStore

/-- Two stores hold the same documents, but for the one of a URI. -/
def SameBut (uri : Uri) (s t : DocumentStore) : Prop :=
  s.close uri = t.close uri

theorem SameBut.refl (uri : Uri) (s : DocumentStore) : s.SameBut uri s := rfl

theorem sameBut_close (s : DocumentStore) (uri : Uri) : (s.close uri).SameBut uri s := by
  rw [SameBut, close, close, List.filter_filter]
  simp only [Bool.and_self]

/-- A test of URIs says the same of what was in the store, whether it is exchanged or not. -/
theorem comp_exchange (uri : Uri) (document : Document) (q : Uri → Bool) :
    (fun d : Uri × Document => q d.1) ∘
      (fun d => if d.1 == uri then (uri, document) else d) = fun d => q d.1 := by
  funext d
  show q (if d.1 == uri then (uri, document) else d).1 = q d.1
  split
  · rename_i hd
    rw [beq_iff_eq.1 hd]
  · rfl

theorem sameBut_put (s : DocumentStore) (uri : Uri) (document : Document) :
    (s.put uri document).SameBut uri s := by
  rw [SameBut, close, close, put]
  split
  · refine congrArg mk ?_
    rw [List.filter_map, comp_exchange uri document (· != uri)]
    -- What is exchanged is filtered out.
    refine (List.map_congr_left fun d hd => ?_).trans (List.map_id _)
    have hne := (List.mem_filter.1 hd).2
    exact if_neg (by simpa using hne)
  · refine congrArg mk ?_
    rw [List.filter_append, List.filter_cons_of_neg (by simp), List.filter_nil, List.append_nil]

theorem sameBut_change (s : DocumentStore) (uri : Uri) (changes : List Change) (version : Int) :
    (s.change uri changes version).SameBut uri s := by
  rw [change]
  split
  · exact sameBut_put _ _ _
  · exact .refl _ _

/-- The first document for which a test holds, if the test fails for a document that is closed. -/
theorem find?_close (s : DocumentStore) {uri : Uri} {p : Uri × Document → Bool}
    (h : ∀ d, d.1 = uri → p d = false) : (s.close uri).documents.find? p = s.documents.find? p := by
  rw [close, List.find?_filter]
  refine congrArg (fun p => s.documents.find? p) (funext fun d => ?_)
  by_cases hd : d.1 = uri
  · simp [h d hd]
  · simp [hd]

variable {normalize : Path → Path} {path : Path} {uri : Uri}

/-- What happens to a document that does not stand for a file does not change the text of the
file. -/
theorem textOf?_congr {s t : DocumentStore} (h : s.SameBut uri t)
    (huri : uri.standsFor normalize (normalize path) = false) :
    s.textOf? normalize path = t.textOf? normalize path := by
  rw [Uri.standsFor, Bool.or_eq_false_iff, beq_eq_false_iff_ne] at huri
  have hclose : ∀ s : DocumentStore,
      s.textOf? normalize path = (s.close uri).textOf? normalize path := by
    intro s
    rw [textOf?, textOf?]
    cases hfile : Uri.ofFilePath? (normalize path) with
    | none => rfl
    | some uri' =>
      have hne : uri' ≠ uri := fun heq => huri.1 (heq ▸ hfile)
      have hget : (s.close uri).get? uri' = s.get? uri' := by
        rw [get?, get?, find?_close]
        intro d hd
        simp [hd, Ne.symm hne]
      simp only [hget]
      rw [find?_close]
      intro d hd
      rw [hd]
      exact huri.2
  rw [hclose s, hclose t, h]

/-- The first document whose URI passes a test is the one that was put or the one of before. -/
theorem find?_put (s : DocumentStore) (uri : Uri) (document : Document) (q : Uri → Bool) :
    (s.put uri document).documents.find? (fun d => q d.1) =
        s.documents.find? (fun d => q d.1) ∨
      (s.put uri document).documents.find? (fun d => q d.1) = some (uri, document) := by
  rw [put]
  split
  · rw [List.find?_map, comp_exchange]
    cases s.documents.find? (fun d => q d.1) with
    | none => exact .inl rfl
    | some d =>
      rw [Option.map_some]
      split
      · exact .inr rfl
      · exact .inl rfl
  · rw [List.find?_append]
    cases s.documents.find? (fun d => q d.1) with
    | some d => exact .inl rfl
    | none =>
      rw [Option.none_or]
      cases hq : q uri with
      | true => exact .inr (List.find?_cons_of_pos hq)
      | false => exact .inl (List.find?_cons_of_neg (by simp [hq]))

/-- A document that is put leaves the text of a file as it was or becomes it. -/
theorem textOf?_put (s : DocumentStore) (uri : Uri) (document : Document) :
    (s.put uri document).textOf? normalize path = s.textOf? normalize path ∨
      (s.put uri document).textOf? normalize path = some document.text := by
  rw [textOf?, textOf?]
  cases Uri.ofFilePath? (normalize path) with
  | none => exact .inl rfl
  | some uri' =>
    have hleads := s.find?_put uri document fun u =>
      u.toFilePath?.any fun p => (normalize p).same (normalize path)
    simp only [get?]
    rcases s.find?_put uri document (· == uri') with hkey | hkey
    · rw [hkey]
      cases s.documents.find? (fun d => d.1 == uri') with
      | some d => exact .inl rfl
      | none => exact hleads.imp (fun h => by rw [h]) fun h => by rw [h]; rfl
    · rw [hkey]
      exact .inr rfl

/-- Where one document stands for a file, its text is that of the file. -/
theorem textOf?_of_only {s : DocumentStore} {document : Document} (hpath : path.isAbsolute = true)
    (hnormal : normalize path = path) (hopen : s.get? uri = some document)
    (huri : uri.standsFor normalize path = true)
    (honly : ∀ d ∈ s.documents, d.1.standsFor normalize path = true → d.1 = uri) :
    s.textOf? normalize path = some document.text := by
  obtain ⟨uri', hfile⟩ : ∃ uri', Uri.ofFilePath? path = some uri' := ⟨_, if_pos hpath⟩
  simp only [textOf?, hnormal, hfile]
  cases hget : s.get? uri' with
  | some document' =>
    obtain ⟨d, hd, rfl⟩ := Option.map_eq_some_iff.1 hget
    have hkey : d.1 = uri' := by simpa using List.find?_some hd
    have hd' : d.1 = uri := by
      refine honly d (List.mem_of_find?_eq_some hd) ?_
      rw [Uri.standsFor, hfile, hkey]
      simp
    rw [← hd', hkey, hget] at hopen
    obtain rfl := Option.some.inj hopen
    rfl
  | none =>
    have hne : uri' ≠ uri := by
      rintro rfl
      rw [hget] at hopen
      cases hopen
    -- The documents that lead to the file are those of the URI.
    have hfilter : s.documents.filter
          (fun d => d.1.toFilePath?.any fun p => (normalize p).same path) =
        s.documents.filter fun d => d.1 == uri := by
      refine List.filter_congr fun d hd => ?_
      rw [Bool.eq_iff_iff, beq_iff_eq]
      constructor
      · intro hleads
        exact honly d hd (by rw [Uri.standsFor, hleads, Bool.or_true])
      · intro heq
        rw [Uri.standsFor, hfile, Bool.or_eq_true, beq_iff_eq, Option.some.injEq] at huri
        rw [heq]
        exact huri.resolve_left hne
    rw [get?, ← List.head?_filter, ← hfilter, List.head?_filter] at hopen
    obtain ⟨d, hd, rfl⟩ := Option.map_eq_some_iff.1 hopen
    simp only [hd, Option.map_some]

end DocumentStore

end StructUnfold
