import StructUnfold.Proofs.Scan.Report
import StructUnfold.Workspace.Build

/-!
# Scanning in batches is scanning

* `flatten_batches`, `forall_batches`: the batches of a list are the list, cut into pieces of one
  size and a last one that may be smaller.
* `scanBatches_eq_scanInto`: however files are cut into batches, scanning them batch by batch comes
  to scanning them one after the other.
* `scanFoundInBatches_eq`: the same for the files that have been found.
* `files_scanInto`: a scan reports each of its files as scanned or as passed over.
-/

namespace StructUnfold.Workspace

/-- The batches of a list are the list, cut. -/
theorem flatten_batches {α : Type} (size : Nat) (items : List α) :
    (batches size items).flatten = items := by
  induction items using batches.induct size with
  | case1 => simp [batches]
  | case2 a rest ih => rw [batches, List.flatten_cons, ih, List.cons_append, List.take_append_drop]

/-- No batch is empty or larger than it may be, and only the last one may be smaller. -/
theorem forall_batches {α : Type} (size : Nat) (items : List α) :
    (∀ batch ∈ batches size items, batch ≠ [] ∧ batch.length ≤ max 1 size) ∧
      ∀ batch ∈ (batches size items).dropLast, batch.length = max 1 size := by
  induction items using batches.induct size with
  | case1 => simp [batches]
  | case2 a rest ih =>
    have hlength : (a :: rest.take (size - 1)).length = 1 + min (size - 1) rest.length := by
      rw [List.length_cons, List.length_take, Nat.add_comm]
    rw [batches]
    refine ⟨List.forall_mem_cons.2 ⟨⟨List.cons_ne_nil _ _, by omega⟩, ih.1⟩, ?_⟩
    cases hrest : batches size (rest.drop (size - 1)) with
    | nil => simp
    | cons batch others =>
      -- What follows a batch is what its size has left over, so the batch is full.
      have hleft : rest.drop (size - 1) ≠ [] := by
        intro hnil
        rw [hnil, batches] at hrest
        cases hrest
      have hlong : size - 1 < rest.length := by
        apply Nat.lt_of_not_le
        exact fun hshort => hleft (List.drop_eq_nil_of_le hshort)
      rw [List.dropLast_cons_cons, ← hrest]
      exact List.forall_mem_cons.2 ⟨by omega, ih.2⟩

/-- What was reported before a scan stands before the report of the scan. -/
theorem foldl_scanFile_report (maxScan : Nat) (reader : Reader) (c : Catalog) (r : Scan.Report)
    (reads : Nat) (paths : List Path) :
    paths.foldl (scanFile maxScan reader) ⟨c, r, reads⟩ =
      let scanned := scanInto maxScan reader c reads paths
      ⟨scanned.catalog, r.absorb scanned.report, scanned.reads⟩ := by
  induction paths generalizing c r reads with
  | nil => simp [scanInto]
  | cons path paths ih =>
    have hfirst : ∀ r, scanFile maxScan reader ⟨c, r, reads⟩ path =
        ⟨(scanFile maxScan reader ⟨c, .empty, reads⟩ path).catalog,
          r.absorb (scanFile maxScan reader ⟨c, .empty, reads⟩ path).report,
          (scanFile maxScan reader ⟨c, .empty, reads⟩ path).reads⟩ := by
      intro r
      simp only [scanFile]
      split <;> simp
    have hall : scanInto maxScan reader c reads (path :: paths) =
        paths.foldl (scanFile maxScan reader) (scanFile maxScan reader ⟨c, .empty, reads⟩ path) :=
      rfl
    rw [List.foldl_cons, hfirst r, ih, hall, hfirst .empty, ih]
    simp [Scan.Report.absorb_assoc]

/-- Scanning a batch comes to scanning its files. -/
theorem scanBatch_eq (maxScan : Nat) (reader : Reader) (s : Scanned) (batch : List Path) :
    scanBatch maxScan reader s batch = batch.foldl (scanFile maxScan reader) s := by
  obtain ⟨c, r, reads⟩ := s
  rw [foldl_scanFile_report]
  rfl

/-- Scanning files batch by batch comes to scanning them one after the other, however they are
cut into batches. -/
theorem scanBatches_eq_foldl (maxScan : Nat) (reader : Reader) (skipped : Nat)
    (batches : List (List Path)) :
    scanBatches maxScan reader skipped batches =
      batches.flatten.foldl (scanFile maxScan reader) ⟨.empty, .ofSkipped skipped, 0⟩ := by
  have hbatch : scanBatch maxScan reader = List.foldl (scanFile maxScan reader) := by
    ext1 s
    ext1 batch
    exact scanBatch_eq maxScan reader s batch
  rw [scanBatches, hbatch, ← List.foldl_flatten]

/-- Scanning files in batches of one size comes to scanning them one after the other. -/
theorem scanBatches_batches (maxScan : Nat) (reader : Reader) (skipped size : Nat)
    (files : List Path) :
    scanBatches maxScan reader skipped (batches size files) =
      files.foldl (scanFile maxScan reader) ⟨.empty, .ofSkipped skipped, 0⟩ := by
  rw [scanBatches_eq_foldl, flatten_batches]

/-- The catalog of a scan in batches is that of one scan of all files, and so is the report but for
the files that were passed over before. -/
theorem scanBatches_eq_scanInto (maxScan : Nat) (reader : Reader) (skipped : Nat)
    (batches : List (List Path)) :
    scanBatches maxScan reader skipped batches =
      let scanned := scanInto maxScan reader .empty 0 batches.flatten
      ⟨scanned.catalog, scanned.report.absorb (.ofSkipped skipped), scanned.reads⟩ := by
  rw [scanBatches_eq_foldl, foldl_scanFile_report]
  -- It does not matter on which side the files passed over are counted.
  simp only [Scan.Report.ofSkipped_absorb]

/-- Scanning the files found in batches comes to scanning them all at once. -/
theorem scanFoundInBatches_eq (size : Nat) (reader : Reader) (flatten : FlattenSettings)
    (found : Discovered) :
    scanFoundInBatches size reader flatten found = scanFound reader flatten found := by
  rw [scanFoundInBatches, scanBatches_eq_scanInto, flatten_batches, scanFound]

/-! ### Every file is counted -/

/-- One more file is one more that is scanned or passed over. -/
theorem files_scanFile (maxScan : Nat) (reader : Reader) (s : Scanned) (path : Path) :
    (scanFile maxScan reader s path).report.files = s.report.files + 1 := by
  rw [scanFile]
  cases reader s.reads path with
  | ok text =>
    show (s.report.absorb (Scan.rescan maxScan s.catalog path text).2).files = _
    rw [Scan.Report.files_absorb, Scan.files_rescan]
  | error error =>
    show (s.report.absorb (unreadable path error)).files = _
    rw [Scan.Report.files_absorb]
    rfl

/-- A scan reports each of its files as scanned or as passed over. -/
theorem files_scanInto (maxScan : Nat) (reader : Reader) (c : Catalog) (reads : Nat)
    (paths : List Path) : (scanInto maxScan reader c reads paths).report.files = paths.length := by
  have hfold : ∀ s : Scanned, (paths.foldl (scanFile maxScan reader) s).report.files =
      s.report.files + paths.length := by
    induction paths with
    | nil => exact fun s => rfl
    | cons path paths ih =>
      intro s
      rw [List.foldl_cons, ih, files_scanFile, List.length_cons]
      omega
  rw [scanInto, hfold]
  exact Nat.zero_add _

/-- Each file found is scanned or passed over, and so is each that was passed over before. -/
theorem files_scanFound (reader : Reader) (flatten : FlattenSettings) (found : Discovered) :
    (scanFound reader flatten found).2.files = found.files.length + found.skipped := by
  rw [scanFound, Scan.Report.files_absorb, files_scanInto, Scan.Report.files_ofSkipped]

end StructUnfold.Workspace
