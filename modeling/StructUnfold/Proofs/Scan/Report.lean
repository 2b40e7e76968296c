import StructUnfold.Scan.Basic

/-!
# What a report tells

* `scanNext`: one more file of a workspace is scanned.
* `mem_problems_ofFindings_iff`: the report of one file tells exactly the problems found in it.
* `mem_problems_workspace_iff`: the report of a workspace tells exactly those of its files.
* `Report.files`, `files_rescan`: how many files a report is about; the report of a scan is about
  one.
-/

namespace StructUnfold.Scan

/-- What scanning one more file of a workspace adds to the files that are done. -/
def scanNext (maxScan : Nat) (done : Catalog × Report) (file : Path × List Char) :
    Catalog × Report :=
  let next := rescan maxScan done.1 file.1 file.2
  (next.1, done.2.absorb next.2)

theorem workspace_eq_foldl (maxScan : Nat) (files : List (Path × List Char)) :
    workspace maxScan files = files.foldl (scanNext maxScan) (Catalog.empty, Report.empty) := rfl

theorem workspace_concat (maxScan : Nat) (files : List (Path × List Char))
    (file : Path × List Char) :
    workspace maxScan (files ++ [file]) = scanNext maxScan (workspace maxScan files) file := by
  rw [workspace_eq_foldl, List.foldl_append, ← workspace_eq_foldl]
  rfl

/-- The problems of two scans are those of each. -/
theorem problems_absorb (r r' : Report) : (r.absorb r').problems = r.problems ++ r'.problems := rfl

/-- The report of a finding tells the finding if it is a problem. -/
theorem mem_problems_report_iff {f : Finding} {p : Problem} :
    p ∈ f.report.problems ↔ f = .problem p := by
  cases f with
  | problem q =>
    rw [Finding.report, List.mem_singleton, Finding.problem.injEq]
    exact eq_comm
  | _ => simp [Finding.report, Report.empty]

/-- The report of one file tells exactly the problems found in it. -/
theorem mem_problems_ofFindings_iff {fs : List Finding} {p : Problem} :
    p ∈ (Report.ofFindings fs).problems ↔ Finding.problem p ∈ fs := by
  have hfold : ∀ r : Report, p ∈ (fs.foldl (fun r f => r.absorb f.report) r).problems ↔
      p ∈ r.problems ∨ Finding.problem p ∈ fs := by
    induction fs with
    | nil => simp
    | cons f fs ih =>
      intro r
      rw [List.foldl_cons, ih, problems_absorb, List.mem_append, mem_problems_report_iff,
        List.mem_cons, or_assoc]
      exact or_congr_right (or_congr_left eq_comm)
  rw [Report.ofFindings, hfold]
  simp [Report.empty]

/-- The report of a workspace tells exactly the problems found in its files. -/
theorem mem_problems_workspace_iff {maxScan : Nat} {files : List (Path × List Char)}
    {p : Problem} : p ∈ (workspace maxScan files).2.problems ↔
      ∃ file ∈ files, Finding.problem p ∈ findings maxScan file.1 file.2 := by
  have hfold : ∀ done, p ∈ (files.foldl (scanNext maxScan) done).2.problems ↔
      p ∈ done.2.problems ∨
        ∃ file ∈ files, Finding.problem p ∈ findings maxScan file.1 file.2 := by
    induction files with
    | nil => simp
    | cons file files ih =>
      intro done
      -- What is found in a file does not depend on the catalog it is recorded in.
      have hfile : p ∈ (rescan maxScan done.1 file.1 file.2).2.problems ↔
          Finding.problem p ∈ findings maxScan file.1 file.2 := mem_problems_ofFindings_iff
      rw [List.foldl_cons, ih, scanNext, problems_absorb, List.mem_append, hfile, or_assoc]
      simp
  rw [workspace_eq_foldl, hfold]
  simp [Report.empty]

/-! ### The number of files -/

/-- How many files a report is about, be they scanned or passed over. -/
def Report.files (r : Report) : Nat :=
  r.filesScanned + r.filesSkipped

theorem Report.files_absorb (r s : Report) : (r.absorb s).files = r.files + s.files := by
  simp only [files, absorb]
  omega

theorem Report.files_ofSkipped (n : Nat) : (Report.ofSkipped n).files = n :=
  Nat.zero_add n

/-- Files that were passed over are counted before and behind other reports alike. -/
theorem Report.ofSkipped_absorb (n : Nat) (r : Report) :
    (ofSkipped n).absorb r = r.absorb (ofSkipped n) := by
  simp [absorb, ofSkipped, empty, Nat.add_comm]

/-- The report of a finding is about no file. -/
theorem files_report (f : Finding) : f.report.files = 0 := by
  cases f <;> rfl

theorem files_ofFindings (fs : List Finding) : (Report.ofFindings fs).files = 1 := by
  have hfold : ∀ r : Report, (fs.foldl (fun r f => r.absorb f.report) r).files = r.files := by
    induction fs with
    | nil => exact fun r => rfl
    | cons f fs ih =>
      intro r
      rw [List.foldl_cons, ih, Report.files_absorb, files_report, Nat.add_zero]
  rw [Report.ofFindings, hfold]
  rfl

/-- The report of a scan is about one file. -/
theorem files_rescan (maxScan : Nat) (c : Catalog) (path : Path) (text : List Char) :
    (rescan maxScan c path text).2.files = 1 :=
  files_ofFindings _

end StructUnfold.Scan
