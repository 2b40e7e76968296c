import Mathlib.Algebra.Order.Ring.Nat
import Mathlib.Data.List.Basic
import StructUnfold.Proofs.Server.Indexing

/-!
# The progress of a scan in percent

A share in percent is taken of 64-bit words: the count is multiplied by a hundred before it is
divided. The result is the share as long as the product fits into a word. Beyond that the product
wraps around, and what is left of it is too small, so that a share is never told as more than it is.

A scan of the workspace counts the files of the batches it has handled, the last of which may be
small, and reports after each batch how many are done. So its reports tell shares that grow and end
at a hundred, unless there are so many files that a hundred times their number is no word.

## Main definitions

* `Progress.share`: the share in percent, rounded down.
* `Server.reportsIn`: the reports on a scan in what is sent.

## Main results

* `Progress.toNat_percentage_eq_share_iff`: when the percentage is the share.
* `Workspace.doneAfter_eq`: the files that are done after each batch are those of the batches so
  far.
* `Server.Session.reports_index`: what a scan of the workspace reports.
* `Server.Session.percentages_exact_below_overflow`: how percentages are told.
-/

namespace StructUnfold

namespace Progress

/-! ### Shares -/

/-- The share of `done` in `total` in percent, rounded down; of nothing, all is done. -/
def share (done total : Nat) : Nat :=
  if total = 0 then 100 else 100 * min done total / total

/-- More that is done is no smaller share. -/
theorem share_mono {done done' : Nat} (h : done ≤ done') (total : Nat) :
    share done total ≤ share done' total := by
  rw [share, share]
  split
  · exact Nat.le_refl 100
  · exact Nat.div_le_div_right (Nat.mul_le_mul_left 100 (by omega))

/-- The share is a hundred exactly if all is done. -/
theorem share_eq_hundred_iff {done total : Nat} : share done total = 100 ↔ total ≤ done := by
  rw [share]
  split
  · rename_i hzero
    exact iff_of_true rfl (hzero ▸ Nat.zero_le done)
  · rename_i hne
    have hpos := Nat.pos_of_ne_zero hne
    constructor
    · intro h
      have hle : 100 * total ≤ 100 * min done total :=
        (Nat.le_div_iff_mul_le hpos).1 (Nat.le_of_eq h.symm)
      omega
    · intro h
      rw [Nat.min_eq_right h, Nat.mul_div_cancel _ hpos]

theorem share_le (done total : Nat) : share done total ≤ 100 :=
  Nat.le_trans (share_mono (Nat.le_max_left done total) total)
    (Nat.le_of_eq (share_eq_hundred_iff.2 (Nat.le_max_right done total)))

/-! ### Percentages -/

/-- Cutting off the high part of a number changes a quotient of it, unless there is none. -/
theorem mod_div_eq_div_iff {p n total : Nat} (hpos : 0 < total) (hle : total ≤ n) :
    p % n / total = p / total ↔ p < n := by
  constructor
  · intro h
    refine Nat.lt_of_not_le fun hwraps => ?_
    -- What is cut off is at least the divisor, so the quotient loses at least one.
    have hmod : p % n + total ≤ p := by
      have hrest := Nat.mod_le (p - n) n
      rw [← Nat.mod_eq_sub_mod hwraps] at hrest
      omega
    have hquot := Nat.div_le_div_right (c := total) hmod
    rw [Nat.add_div_right _ hpos] at hquot
    omega
  · intro h
    rw [Nat.mod_eq_of_lt h]

variable (done total : UInt64)

/-- What is divided is what a word keeps of the product. -/
theorem toNat_percentage :
    (percentage done total).toNat =
      if total.toNat = 0 then 100
      else 100 * min done.toNat total.toNat % 2 ^ 64 / total.toNat := by
  have hzero : total = 0 ↔ total.toNat = 0 := UInt64.toNat_inj.symm
  rw [percentage]
  simp only [hzero]
  split
  · rfl
  · rename_i hne
    have hshare := share_le done.toNat total.toNat
    rw [share, if_neg hne] at hshare
    have hquot : 100 * min done.toNat total.toNat % 2 ^ 64 / total.toNat ≤ 100 :=
      Nat.le_trans (Nat.div_le_div_right (Nat.mod_le _ _)) hshare
    rw [UInt64.toNat_toUInt32, UInt64.toNat_div, UInt64.toNat_mul, UInt64.toNat_min,
      Nat.mul_comm _ (UInt64.toNat 100)]
    exact Nat.mod_eq_of_lt (Nat.lt_of_le_of_lt hquot (by decide))

/-- No share is told as more than it is. -/
theorem toNat_percentage_le_share :
    (percentage done total).toNat ≤ share done.toNat total.toNat := by
  rw [toNat_percentage, share]
  split
  · exact Nat.le_refl 100
  · exact Nat.div_le_div_right (Nat.mod_le _ _)

/-- A share is told as it is exactly if the product fits into a word. -/
theorem toNat_percentage_eq_share_iff :
    (percentage done total).toNat = share done.toNat total.toNat ↔
      100 * min done.toNat total.toNat < 2 ^ 64 := by
  rw [toNat_percentage, share]
  split
  · rename_i hzero
    exact iff_of_true rfl (by rw [hzero, Nat.min_zero]; decide)
  · rename_i hne
    exact mod_div_eq_div_iff (Nat.pos_of_ne_zero hne) (Nat.le_of_lt total.toNat_lt)

variable {done total}

/-- The percentage is the share if a hundred times the total is a word. -/
theorem toNat_percentage_of_fits (done : UInt64) (hfits : 100 * total.toNat < 2 ^ 64) :
    (percentage done total).toNat = share done.toNat total.toNat :=
  (toNat_percentage_eq_share_iff done total).2 (by omega)

/-- Otherwise it is less than a hundred when all is done. -/
theorem toNat_percentage_lt (hwraps : 2 ^ 64 ≤ 100 * total.toNat)
    (hdone : total.toNat ≤ done.toNat) : (percentage done total).toNat < 100 := by
  have hshare : share done.toNat total.toNat = 100 := share_eq_hundred_iff.2 hdone
  have hle := toNat_percentage_le_share done total
  have hne : (percentage done total).toNat ≠ share done.toNat total.toNat := by
    rw [Ne, toNat_percentage_eq_share_iff]
    omega
  omega

/-- The percentage of two counts that are words. -/
def ofCounts (done total : Nat) : Nat :=
  (percentage (.ofNat done) (.ofNat total)).toNat

/-- It is their share if a hundred times the total is a word. -/
theorem ofCounts_eq_share {done total : Nat} (hle : done ≤ total) (hfits : 100 * total < 2 ^ 64) :
    ofCounts done total = share done total := by
  have htotal : (UInt64.ofNat total).toNat = total :=
    UInt64.toNat_ofNat_of_lt' (show total < 2 ^ 64 by omega)
  have hdone : (UInt64.ofNat done).toNat = done :=
    UInt64.toNat_ofNat_of_lt' (show done < 2 ^ 64 by omega)
  rw [ofCounts, toNat_percentage_of_fits _ (by rwa [htotal]), htotal, hdone]

end Progress

/-! ### Counting files -/

namespace Workspace

/-- Each running total is a sum of the first numbers. -/
theorem runningTotals_eq (start : Nat) (sizes : List Nat) :
    runningTotals start sizes =
      (List.range sizes.length).map fun i => start + (sizes.take (i + 1)).sum := by
  induction sizes generalizing start with
  | nil => rfl
  | cons size sizes ih =>
    rw [runningTotals, ih, List.length_cons, List.range_succ_eq_map, List.map_cons, List.map_map]
    refine congrArg₂ List.cons (by simp) (List.map_congr_left fun i _ => ?_)
    simp [Nat.add_assoc]

/-- The files that are done after each batch are those of the batches so far. -/
theorem doneAfter_eq (batches : List (List Path)) :
    doneAfter batches =
      (List.range batches.length).map fun i => (batches.take (i + 1)).flatten.length := by
  rw [doneAfter, runningTotals_eq, List.length_map]
  refine List.map_congr_left fun i _ => ?_
  rw [Nat.zero_add, List.length_flatten, List.map_take]

/-- The files of more batches are no fewer. -/
theorem length_flatten_le_of_isPrefix {α : Type} {first batches : List (List α)}
    (h : first <+: batches) : first.flatten.length ≤ batches.flatten.length := by
  obtain ⟨later, rfl⟩ := h
  rw [List.flatten_append, List.length_append]
  exact Nat.le_add_right _ _

end Workspace

/-! ### Reports -/

namespace Server

/-- The reports on a scan among messages: those that tell how many files are done. -/
def reportsIn (messages : List Message) : List ScanProgress :=
  messages.filterMap fun
    | .progress _ (.reached done total percentage) => some (.reached done total percentage)
    | _ => none

/-- The percentage that a report tells. -/
def ScanProgress.percentage? : ScanProgress → Option Nat
  | .reached _ _ percentage => some percentage
  | _ => none

namespace Session

/-- Between two sessions messages have been sent, and these are the reports among them. -/
def Reports (s t : Session) (reports : List ScanProgress) : Prop :=
  ∃ sent, t.sent = s.sent ++ sent ∧ reportsIn sent = reports

variable {s t u : Session}

theorem Reports.trans {before after : List ScanProgress} (h : s.Reports t before)
    (h' : t.Reports u after) : s.Reports u (before ++ after) := by
  obtain ⟨sent, hsent, rfl⟩ := h
  obtain ⟨sent', hsent', rfl⟩ := h'
  exact ⟨sent ++ sent', by rw [hsent', hsent, List.append_assoc], List.filterMap_append⟩

theorem Reports.trans_nil {reports : List ScanProgress} (h : s.Reports t reports)
    (h' : t.Reports u []) : s.Reports u reports := by
  have htrans := h.trans h'
  rwa [List.append_nil] at htrans

/-- A message that is no report. -/
theorem reports_send (s : Session) {message : Message} (h : reportsIn [message] = []) :
    s.Reports (s.send message) [] :=
  ⟨[message], rfl, h⟩

/-- Telling the log reports nothing. -/
theorem reports_logInfo (s : Session) (text : String) : s.Reports (s.logInfo text) [] := by
  rw [logInfo]
  split
  · exact s.reports_send rfl
  · exact ⟨[], (List.append_nil _).symm, rfl⟩

/-- What is told when so many files are done. The bound by a hundred changes nothing. -/
theorem reached_eq (total done : Nat) :
    reached total done = .reached done total (Progress.ofCounts done total) := by
  rw [reached, Nat.min_eq_right]
  · rfl
  · exact Nat.le_trans (Progress.toNat_percentage_le_share _ _) (Progress.share_le _ _)

/-- Reports are sent step by step. -/
theorem reports_sendSteps (s : Session) (token : String) (total : Nat) (counts : List Nat) :
    s.Reports (s.sendSteps token (counts.map (reached total))) (counts.map (reached total)) := by
  induction counts generalizing s with
  | nil => exact ⟨[], (List.append_nil _).symm, rfl⟩
  | cons done counts ih =>
    have hfirst : s.Reports (s.send (.progress token (reached total done)))
        [reached total done] := ⟨_, rfl, rfl⟩
    exact hfirst.trans (ih _)

/-- The batches of files that a scan of the workspace handles. -/
def scannedBatches (s : Session) : List (List Path) :=
  if s.state.settings.indexing.enable then Workspace.batches batchSize s.sourceFiles else []

/-- Behind each batch a report tells how many files the batches so far hold, of how many, and
`percentage` of the two. -/
def reportsOn (percentage : Nat → Nat → Nat) (batches : List (List Path)) : List ScanProgress :=
  (List.range batches.length).map fun i =>
    let done := (batches.take (i + 1)).flatten.length
    .reached done batches.flatten.length (percentage done batches.flatten.length)

/-- A scan of the workspace reports behind each batch how many files are done. -/
theorem reports_index (s : Session) :
    s.Reports s.index.1 (reportsOn Progress.ofCounts s.scannedBatches) := by
  have hupdate : ∀ f : State → State, s.Reports (s.update f) [] := fun _ =>
    ⟨[], (List.append_nil _).symm, rfl⟩
  rw [scannedBatches, index]
  by_cases h : s.state.settings.indexing.enable = true
  · simp only [h, if_true]
    have hcounts : reportsOn Progress.ofCounts (Workspace.batches batchSize s.sourceFiles) =
        (Workspace.doneAfter (Workspace.batches batchSize s.sourceFiles)).map
          (reached s.sourceFiles.length) := by
      rw [reportsOn, Workspace.doneAfter_eq, List.map_map]
      refine List.map_congr_left fun i _ => ?_
      rw [Function.comp_apply, reached_eq, Workspace.flatten_batches]
    rw [hcounts]
    -- What is sent before the first batch and behind the last one is no report.
    refine Reports.trans_nil (Reports.trans_nil (@Reports.trans s _ _ [] _ ?_
      (reports_sendSteps _ _ _ _)) (reports_logInfo _ _)) (reports_send _ rfl)
    exact ((hupdate _).trans_nil (reports_send _ rfl)).trans_nil (reports_send _ rfl)
  · simp only [h]
    exact hupdate _

/-! ### The percentages of a scan -/

variable (batches : List (List Path))

/-- The percentages of the reports behind each batch. -/
theorem percentages_reportsOn (percentage : Nat → Nat → Nat) :
    (reportsOn percentage batches).filterMap ScanProgress.percentage? =
      (List.range batches.length).map fun i =>
        percentage (batches.take (i + 1)).flatten.length batches.flatten.length := by
  rw [reportsOn, List.filterMap_map, ← List.filterMap_eq_map]
  rfl

/-- The last of them is that of all files. -/
theorem getLast?_percentages (percentage : Nat → Nat → Nat) :
    ((reportsOn percentage batches).filterMap ScanProgress.percentage?).getLast? =
      if batches = [] then none
      else some (percentage batches.flatten.length batches.flatten.length) := by
  rw [percentages_reportsOn, List.getLast?_map, List.getLast?_range]
  cases batches with
  | nil => rfl
  | cons batch batches =>
    rw [if_neg (by simp), if_neg (by simp), Option.map_some, Nat.sub_add_cancel (by simp),
      List.take_length]

/-- Shares do not fall from one batch to the next. -/
theorem pairwise_percentages_share :
    ((reportsOn Progress.share batches).filterMap ScanProgress.percentage?).Pairwise (· ≤ ·) := by
  rw [percentages_reportsOn, List.pairwise_map]
  refine List.pairwise_lt_range.imp fun hlt => Progress.share_mono ?_ _
  exact Workspace.length_flatten_le_of_isPrefix
    (List.take_prefix_take_left (Nat.succ_le_succ (Nat.le_of_lt hlt)))

/-- Shares are reported if a hundred times the number of files is a word. -/
theorem reportsOn_ofCounts_eq {batches : List (List Path)}
    (hfits : 100 * batches.flatten.length < 2 ^ 64) :
    reportsOn Progress.ofCounts batches = reportsOn Progress.share batches := by
  rw [reportsOn, reportsOn]
  refine List.map_congr_left fun i _ => ?_
  dsimp only
  rw [Progress.ofCounts_eq_share
    (Workspace.length_flatten_le_of_isPrefix (List.take_prefix (i + 1) batches)) hfits]

/-- **Percentages are exact unless the product overflows.** The percentage of two words is never
more than the share of the one in the other, rounded down, and it is that share exactly if a hundred
times the smaller word is a word. Where a hundred times the total is one, percentages do not fall as
more is done, and they are a hundred exactly if all is done; where it is none, they are less than a
hundred when all is done. A scan of the workspace reports behind each of its batches how many files
the batches so far hold, of how many, and the percentage of these; nothing else is reported. If a
hundred times the number of files is a word, the percentages are the shares, they never fall, and
the last one is a hundred; for a larger number of files the last one is less. -/
theorem percentages_exact_below_overflow (total : UInt64) (s : Session) :
    (∀ done : UInt64,
      (Progress.percentage done total).toNat ≤ Progress.share done.toNat total.toNat ∧
      Progress.share done.toNat total.toNat ≤ 100 ∧
      ((Progress.percentage done total).toNat = Progress.share done.toNat total.toNat ↔
        100 * min done.toNat total.toNat < 2 ^ 64)) ∧
    (100 * total.toNat < 2 ^ 64 →
      (∀ done done' : UInt64, done ≤ done' →
        Progress.percentage done total ≤ Progress.percentage done' total) ∧
      ∀ done : UInt64, Progress.percentage done total = 100 ↔ total ≤ done) ∧
    (2 ^ 64 ≤ 100 * total.toNat →
      ∀ done : UInt64, total ≤ done → (Progress.percentage done total).toNat < 100) ∧
    let batches := s.scannedBatches
    let files := batches.flatten.length
    let reports := reportsOn Progress.ofCounts batches
    let percentages := reports.filterMap ScanProgress.percentage?
    s.Reports s.index.1 reports ∧
      (100 * files < 2 ^ 64 →
        reports = reportsOn Progress.share batches ∧
        percentages.Pairwise (· ≤ ·) ∧ ∀ last ∈ percentages.getLast?, last = 100) ∧
      (2 ^ 64 ≤ 100 * files → files < 2 ^ 64 → ∃ last ∈ percentages.getLast?, last < 100) := by
  refine ⟨fun done => ⟨Progress.toNat_percentage_le_share done total,
    Progress.share_le _ _, Progress.toNat_percentage_eq_share_iff done total⟩,
    fun hfits => ⟨fun done done' hle => ?_, fun done => ?_⟩, fun hwraps done hle =>
      Progress.toNat_percentage_lt hwraps (UInt64.le_iff_toNat_le.1 hle),
    s.reports_index, fun hfits => ?_, fun hwraps hword => ?_⟩
  · rw [UInt32.le_iff_toNat_le, Progress.toNat_percentage_of_fits done hfits,
      Progress.toNat_percentage_of_fits done' hfits]
    exact Progress.share_mono (UInt64.le_iff_toNat_le.1 hle) _
  · rw [← UInt32.toNat_inj, Progress.toNat_percentage_of_fits done hfits, UInt64.le_iff_toNat_le]
    exact Progress.share_eq_hundred_iff
  · rw [reportsOn_ofCounts_eq hfits, getLast?_percentages]
    refine ⟨rfl, pairwise_percentages_share _, fun last hlast => ?_⟩
    split at hlast
    · cases hlast
    · obtain rfl := Option.some.inj hlast
      exact Progress.share_eq_hundred_iff.2 (Nat.le_refl _)
  · -- The product can only overflow where there are files, and so batches.
    have hsome : s.scannedBatches ≠ [] := by
      intro hnone
      rw [hnone] at hwraps
      exact absurd hwraps (by decide)
    rw [getLast?_percentages, if_neg hsome]
    refine ⟨_, rfl, Progress.toNat_percentage_lt ?_ (Nat.le_refl _)⟩
    rwa [UInt64.toNat_ofNat_of_lt' hword]

/-- Of the smallest total a hundred times which is no word, all is told as nothing, and one less as
ninety-nine percent. -/
theorem percentage_wraps_around :
    Progress.percentage 184467440737095517 184467440737095517 = 0 ∧
      Progress.percentage 184467440737095516 184467440737095517 = 99 ∧
      Progress.share 184467440737095517 184467440737095517 = 100 := by
  decide +kernel

end Session

end Server

end StructUnfold
