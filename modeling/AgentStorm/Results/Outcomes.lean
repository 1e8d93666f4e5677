import AgentStorm.Results.Accounting
import AgentStorm.Results.Stored
import AgentStorm.Results.Tally

/-!
# `Results.Outcomes` — successes, failures and retries

A run's aggregate counts outcomes from the case rows, so its columns fit together whatever was uploaded
(`aggregate_breakdown`). The counts of a shard's own summary are not computed from its cases:
validation never looks at the outcomes, so every shard that has a case has a summary that is accepted
and disagrees with both the cases and the aggregate (`outcome_counts_iff`).
-/

namespace AgentStorm.Results

open Checks Machine Numeric Relational

variable {P : Platform} {policy : LimitPolicy}

/-! ## Sums over rows -/

variable {rows : List CaseRow}

theorem countRows_eq_sumRows (p : CaseRow → Bool) (rows : List CaseRow) :
    countRows p rows = sumRows (fun r => if p r then 1 else 0) rows := by
  unfold countRows sumRows
  induction rows with
  | nil => rfl
  | cons r rows ih =>
    rw [List.countP_cons, List.map_cons, List.sum_cons, ← ih]
    split <;> push_cast <;> omega

theorem countRows_le {p q : CaseRow → Bool} (h : ∀ r, p r = true → q r = true) :
    countRows p rows ≤ countRows q rows := Int.ofNat_le.mpr (List.countP_mono_left fun r _ => h r)

theorem sumRows_congr {f g : CaseRow → Int} (h : ∀ r ∈ rows, f r = g r) :
    sumRows f rows = sumRows g rows := by
  rw [sumRows, List.map_congr_left h]
  rfl

theorem sumRows_le {f g : CaseRow → Int} (h : ∀ r ∈ rows, f r ≤ g r) :
    sumRows f rows ≤ sumRows g rows := List.sum_le_sum h

theorem sumRows_add (f g : CaseRow → Int) (rows : List CaseRow) :
    sumRows (fun r => f r + g r) rows = sumRows f rows + sumRows g rows := List.sum_map_add

/-- How the outcome and retry columns of an aggregate fit together. -/
structure Breakdown (rows : List CaseRow) (a : Aggregate) : Prop where
  total : a.total = a.succeeded + a.failed
  failed : a.failed = a.qualityFailures + a.infrastructureFailures
  retries : a.retryCount = a.attemptCount - countRows (fun r => decide (0 < r.attempts.length)) rows
  retried_le : a.retriedCases ≤ a.retryCount
  retrySuccesses_le : a.retrySuccesses ≤ a.retriedCases
  retrySuccesses_le_succeeded : a.retrySuccesses ≤ a.succeeded
  circuitRejections_le : a.circuitRejections ≤ a.attemptCount
  injectedFaults_le : a.injectedFaults ≤ a.attemptCount

theorem breakdown_aggregateRows
    (hfailed : ∀ r ∈ rows, r.success = false → validFailureCategory r.failureCategory = true)
    (passed : Bool) : Breakdown rows { aggregateRows rows with thresholdsPassed := passed } := by
  refine ⟨?_, ?_, ?_, ?_, ?_, ?_, ?_, ?_⟩
  · show countRows _ rows = countRows _ rows + countRows _ rows
    rw [countRows_eq_sumRows, countRows_eq_sumRows, countRows_eq_sumRows, ← sumRows_add]
    exact sumRows_congr fun r _ => by cases r.success <;> rfl
  · -- the two kinds do not overlap, and together they are the four categories
    show countRows _ rows = countRows _ rows + countRows _ rows
    rw [countRows_eq_sumRows, countRows_eq_sumRows, countRows_eq_sumRows, ← sumRows_add]
    refine sumRows_congr fun r hr => ?_
    cases hsuccess : r.success with
    | true => rfl
    | false =>
      have hcategory := hfailed r hr hsuccess
      simp only [validFailureCategory, List.mem_cons, List.not_mem_nil, or_false, decide_eq_true_eq] at hcategory
      rcases hcategory with hc | hc | hc | hc <;> rw [hc] <;> decide
  · show sumRows _ rows = sumRows _ rows - countRows _ rows
    rw [countRows_eq_sumRows, eq_sub_iff_add_eq, ← sumRows_add]
    refine sumRows_congr fun r _ => ?_
    cases r.attempts with
    | nil => rfl
    | cons => simp
  · show countRows _ rows ≤ sumRows _ rows
    rw [countRows_eq_sumRows]
    refine sumRows_le fun r _ => ?_
    simp only [decide_eq_true_eq]
    split <;> omega
  · exact countRows_le fun r h => (Bool.and_eq_true_iff.mp h).2
  · exact countRows_le fun r h => (Bool.and_eq_true_iff.mp h).1
  · exact sumRows_le fun r _ => Int.ofNat_le.mpr List.countP_le_length
  · exact sumRows_le fun r _ => Int.ofNat_le.mpr List.countP_le_length

/-! ## Categories of failed rows -/

variable {runID : String}

theorem validCategory_of_validateCase {index : Nat} {seen : List (String × Int)} {item : CaseResult}
    (h : validateCase P runID index seen item = .ok ()) (hne : item.failureCategory ≠ "") :
    validFailureCategory item.failureCategory = true := by
  simp only [validateCase, validateFields, then_ok_iff, invalid_eq_ok] at h
  obtain ⟨-, ⟨-, -, -, hcategory, -⟩, -⟩ := h
  simpa [hne] using hcategory

theorem validCategory_normalizeCase {item : CaseResult}
    (h : item.failureCategory ≠ "" → validFailureCategory item.failureCategory = true)
    (hfailed : (normalizeCase item).success = false) :
    validFailureCategory (normalizeCase item).failureCategory = true := by
  have hne := failureCategory_normalizeCase hfailed
  unfold normalizeCase at hne ⊢
  dsimp only at hne ⊢
  split
  · rename_i hkept
    rw [if_pos hkept] at hne
    exact h hne
  · exact (legacyFailure_valid item.failureKind).1

/-- **A failed case is stored with one of the four categories.** -/
theorem Uploaded.validCategory {row : CaseRow} (h : Uploaded P row) (hfailed : row.success = false) :
    validFailureCategory row.failureCategory = true := by
  obtain ⟨_, _, hvalid, hitem, hstored⟩ := h
  have hsame := hstored.sameColumns
  obtain ⟨raw, hraw, rfl⟩ := List.mem_map.mp hitem
  obtain ⟨_, _, hcase⟩ := validateCase_of_validateShard hvalid raw hraw
  rw [hsame.failureCategory_eq]
  exact validCategory_normalizeCase (validCategory_of_validateCase hcase) (hsame.success_eq.symm.trans hfailed)

/-- **Breakdown of the aggregate**, in every reachable database. -/
theorem aggregate_breakdown (P : Platform) (policy : LimitPolicy) (es : List Txn) (runID : String) (stored : SummaryRow)
    (h : ((machine P policy).run Db.empty es).summary? runID = some stored) :
    Breakdown (caseRowsOf ((machine P policy).run Db.empty es) runID) stored.aggregate := by
  have hrows : ∀ r ∈ caseRowsOf ((machine P policy).run Db.empty es) runID, r.success = false →
      validFailureCategory r.failureCategory = true := by
    intro r hr
    exact (uploaded_run P policy es r (Table.mem_select.mp hr).1).validCategory
  rcases (ledger_run P policy runID es).summary with ⟨-, hnone, -⟩ | ⟨passed, hsome⟩
  · exact absurd (hnone.symm.trans h) (by simp)
  · cases hsome.symm.trans h
    exact breakdown_aggregateRows hrows passed

theorem aggregate_breakdown_retried :
    ∃ stored, ((machine (.reference []) .unlimited).run Db.empty
        (twoUploads (.retried "run" "first") (.single "run" "second"))).summary? "run" = some stored ∧
      Breakdown (caseRowsOf ((machine (.reference []) .unlimited).run Db.empty
        (twoUploads (.retried "run" "first") (.single "run" "second"))) "run") stored.aggregate ∧
      stored.aggregate.retryCount = 1 ∧ stored.aggregate.attemptCount = 2 ∧ stored.aggregate.total = 2 := by
  have hcolumns : (((machine (.reference []) .unlimited).run Db.empty
      (twoUploads (.retried "run" "first") (.single "run" "second"))).summary? "run").map
        (fun s => (s.aggregate.retryCount, s.aggregate.attemptCount, s.aggregate.total)) = some (1, 2, 2) := by
    decide +kernel
  obtain ⟨stored, hstored, heq⟩ := Option.map_eq_some_iff.mp hcolumns
  obtain ⟨hretries, hattempts, htotal⟩ : stored.aggregate.retryCount = 1 ∧ stored.aggregate.attemptCount = 2 ∧
    stored.aggregate.total = 2 := by simpa using heq
  exact ⟨stored, hstored, aggregate_breakdown _ _ _ _ stored hstored, hretries, hattempts, htotal⟩

/-! ## The counts of a shard's summary -/

variable {es : List Txn} {call : UploadCall}

def successes (items : List CaseResult) : Int := (items.countP (·.success) : Nat)

def failures (items : List CaseResult) : Int := (items.countP (!·.success) : Nat)

theorem successes_add_failures (items : List CaseResult) : successes items + failures items = items.length := by
  unfold successes failures
  have hsplit := List.length_eq_countP_add_countP (·.success) (l := items)
  simp only [Bool.not_eq_true, ← Bool.not_eq_true'] at hsplit
  rw [hsplit]
  simp

/-- The summary counts what the cases say. -/
def Truthful (upload : ShardUpload) : Prop :=
  upload.summary.succeeded = successes upload.cases ∧ upload.summary.failed = failures upload.cases

/-- The receipt, the aggregate and the uploaded cases have the same outcome counts. -/
def OutcomesAgree (db : Db) (call : UploadCall) : Prop :=
  ∃ receipt stored, completeReceipts db call.runID = [receipt] ∧ db.summary? call.runID = some stored ∧
    receipt.summary.succeeded = successes call.upload.cases ∧ receipt.summary.failed = failures call.upload.cases ∧
    stored.aggregate.succeeded = successes call.upload.cases ∧ stored.aggregate.failed = failures call.upload.cases

theorem truthful_iff {key : String} {shardIndex : Int} {upload : ShardUpload}
    (h : validateShard P runID shardIndex key upload = .ok ())
    (hsucceeded : upload.summary.succeeded ≤ maxInt64) (hfailed : upload.summary.failed ≤ maxInt64) :
    Truthful upload ↔ upload.summary.succeeded = successes upload.cases := by
  have hsum := (outcomes_of_valid h hsucceeded hfailed).1
  have hcases := successes_add_failures upload.cases
  unfold Truthful
  omega

theorem finalizedUploads_append (runID : String) (past rest : List Txn) :
    finalizedUploads P policy runID past <+: finalizedUploads P policy runID (past ++ rest) := by
  induction rest using List.reverseRecOn with
  | nil => rw [List.append_nil]
  | append_singleton rest t ih =>
    rw [← List.append_assoc, finalizedUploads, finalizedUploads, Transactional.trace_concat]
    exact ih.trans (List.prefix_append _ _)

/-- The only upload of a run brings no stored case. -/
theorem stepsBringNew_of_single (h : finalizedUploads P policy runID es = [call]) :
    StepsBringNew P policy runID es := by
  rintro past t ⟨rest, rfl⟩ call' hfinal item hitem row hrow hsame
  have hprefix := @finalizedUploads_append P policy runID (past ++ [t]) rest
  rw [h, finalizedUploads, Transactional.trace_concat, hfinal, Option.toList_some] at hprefix
  have hnone : finalizedUploads P policy runID past = [] := by
    have hlength := hprefix.length_le
    rw [List.length_append, List.length_singleton, List.length_singleton] at hlength
    exact List.length_eq_zero_iff.mp (by unfold finalizedUploads; omega)
  have hown : row ∈ caseRowsOf ((machine P policy).run Db.empty past) runID :=
    Table.mem_select.mpr ⟨hrow, decide_eq_true hsame.1⟩
  obtain ⟨c, hc, -⟩ := (ledger_run P policy runID past).cases row hown
  rw [hnone] at hc
  cases hc

theorem success_normalizeCase (item : CaseResult) : (normalizeCase item).success = item.success := by
  unfold normalizeCase
  dsimp only
  split <;> rfl

/-- A run with one finalized upload counts the outcomes of its cases. -/
theorem aggregate_of_single (h : finalizedUploads P policy call.runID es = [call]) :
    ∃ stored, ((machine P policy).run Db.empty es).summary? call.runID = some stored ∧
      stored.aggregate.succeeded = successes call.upload.cases ∧ stored.aggregate.failed = failures call.upload.cases := by
  have hledger := ledger_run P policy call.runID es
  have hrows := rows_run P policy call.runID es (stepsBringNew_of_single h)
  rw [h] at hledger hrows
  have hsuccess : (caseRowsOf ((machine P policy).run Db.empty es) call.runID).map (·.success) =
      call.upload.cases.map (·.success) := by
    rw [map_eq_of_forall₂ hrows (f := fun u => u.2.success) fun u row hstored => hstored.sameColumns.success_eq]
    simp [UploadCall.items, UploadCall.document, normalizeShard, Function.comp_def, success_normalizeCase]
  have hcount : ∀ p : Bool → Bool, (caseRowsOf ((machine P policy).run Db.empty es) call.runID).countP (fun r => p r.success) =
      call.upload.cases.countP fun item => p item.success := by
    intro p
    have hmapped := congrArg (List.countP p) hsuccess
    rwa [List.countP_map, List.countP_map] at hmapped
  rcases hledger.summary with ⟨hempty, -⟩ | ⟨_, hsome⟩
  · exact absurd hempty (List.cons_ne_nil _ _)
  · exact ⟨_, hsome, congrArg Nat.cast (hcount id), congrArg Nat.cast (hcount not)⟩

/-- Receipt, aggregate and cases agree about the one upload of a run exactly if its summary is truthful. -/
theorem outcomesAgree_iff (hdocs : DistinctDocuments P (uploadCalls es))
    (hfinal : finalizedUploads P policy call.runID es = [call]) :
    OutcomesAgree ((machine P policy).run Db.empty es) call ↔ Truthful call.upload := by
  obtain ⟨stored, hstored, hs, hf⟩ := aggregate_of_single hfinal
  have hreceipts := (ledger_run P policy call.runID es).receipts_summaries hdocs
  rw [hfinal, List.map_singleton] at hreceipts
  obtain ⟨receipt, hreceipt, heq⟩ := List.map_eq_singleton_iff.mp (List.perm_singleton.mp hreceipts)
  have hsummary : receipt.summary = call.document.summary := by simpa using congrArg (fun key => key.2.2) heq
  have hcounts : receipt.summary.succeeded = call.upload.summary.succeeded ∧
      receipt.summary.failed = call.upload.summary.failed := by
    rw [hsummary]
    exact ⟨rfl, rfl⟩
  constructor
  · rintro ⟨receipt', _, hreceipt', -, hrs, hrf, -⟩
    obtain rfl : receipt = receipt' := by simpa using hreceipt.symm.trans hreceipt'
    exact ⟨hcounts.1.symm.trans hrs, hcounts.2.symm.trans hrf⟩
  · rintro ⟨hrs, hrf⟩
    exact ⟨receipt, stored, hreceipt, hstored, hcounts.1.trans hrs, hcounts.2.trans hrf, hs, hf⟩

section Shard

variable {key : String} {shardIndex : Int} {upload : ShardUpload}

/-- Validation knows only the sum of the two counts: any others with the same sum are accepted as well. -/
theorem validateShard_recounted (h : validateShard P runID shardIndex key upload = .ok ()) {succeeded failed : Int}
    (hs : 0 ≤ succeeded) (hf : 0 ≤ failed) (hsum : succeeded + failed = upload.cases.length) :
    validateShard P runID shardIndex key
      { upload with summary := { upload.summary with succeeded, failed } } = .ok () := by
  simp only [validateShard, validateSummaryCounts, then_ok_iff, invalid_eq_ok, decide_eq_false_iff_not, not_not, not_or,
    not_lt, Bool.or_eq_false_iff, and_assoc] at h ⊢
  obtain ⟨hid, hindex, hkey, hschema, htotal, -, hnonneg, -, -, hmetric, hduration, htokens, hout, htools, hcalls, hmany,
    hcases⟩ := h
  have hadded : addInt64 succeeded failed = upload.summary.total := by
    rw [htotal, ← hsum]
    exact addInt64_eq (by omega) (by unfold maxInt64; omega)
  exact ⟨hid, hindex, hkey, hschema, htotal, hadded, hnonneg, hs, hf, hmetric, hduration, htokens, hout, htools, hcalls,
    hmany, hcases⟩

theorem nonneg_of_valid (h : validateShard P runID shardIndex key upload = .ok ()) :
    0 ≤ upload.summary.succeeded ∧ 0 ≤ upload.summary.failed := by
  simp only [validateShard, validateSummaryCounts, then_ok_iff, invalid_eq_ok, decide_eq_false_iff_not, not_or, not_lt,
    Bool.or_eq_false_iff, and_assoc] at h
  obtain ⟨-, -, -, -, -, -, -, hs, hf, -⟩ := h
  exact ⟨hs, hf⟩

/-- A shard that has a case has a summary that is accepted and wrong. -/
theorem exists_untruthful (h : validateShard P runID shardIndex key upload = .ok ()) (hcases : upload.cases ≠ []) :
    ∃ summary : ShardSummary, summary.succeeded ≤ maxInt64 ∧ summary.failed ≤ maxInt64 ∧
      validateShard P runID shardIndex key { upload with summary } = .ok () ∧ ¬Truthful { upload with summary } := by
  have hlimit : upload.cases.length ≤ 100000 := by
    simp only [validateShard, then_ok_iff, invalid_eq_ok, decide_eq_false_iff_not, not_lt] at h
    exact h.2.2.2.2.2.1
  have hpos : 0 < upload.cases.length := List.length_pos_iff.mpr hcases
  have hcounts := successes_add_failures upload.cases
  have hsuccesses : 0 ≤ successes upload.cases := Int.natCast_nonneg _
  have hfailures : 0 ≤ failures upload.cases := Int.natCast_nonneg _
  -- one success too many where there is none, and one too few where there is one
  obtain ⟨succeeded, hne, hlow, hhigh⟩ : ∃ succeeded : Int, succeeded ≠ successes upload.cases ∧ 0 ≤ succeeded ∧
      succeeded ≤ upload.cases.length := by
    by_cases hnone : successes upload.cases = 0
    · exact ⟨1, by omega, by omega, by omega⟩
    · exact ⟨successes upload.cases - 1, by omega, by omega, by omega⟩
  refine ⟨_, ?_, ?_, validateShard_recounted h hlow (sub_nonneg.mpr hhigh) (add_sub_cancel _ _), fun htruthful => ?_⟩
  · show succeeded ≤ maxInt64
    unfold maxInt64
    omega
  · show (upload.cases.length : Int) - succeeded ≤ maxInt64
    unfold maxInt64
    omega
  · exact hne htruthful.1

/-- The counts are those of the cases, and so are the ones that are stored once this is the one upload finalized. -/
def OutcomesTold (P : Platform) (upload : ShardUpload) : Prop :=
  Truthful upload ∧
  ∀ (policy : LimitPolicy) (es : List Txn) (call : UploadCall), DistinctDocuments P (uploadCalls es) →
    call.upload = upload → finalizedUploads P policy call.runID es = [call] →
    OutcomesAgree ((machine P policy).run Db.empty es) call

/-- **Summary counts need not be truthful.** Whatever summary is accepted with the cases of a shard, it tells their
    outcomes and so do the receipt and the aggregate, exactly if there are no cases. -/
theorem outcome_counts_iff (h : validateShard P runID shardIndex key upload = .ok ()) :
    (∀ summary : ShardSummary, summary.succeeded ≤ maxInt64 → summary.failed ≤ maxInt64 →
      validateShard P runID shardIndex key { upload with summary } = .ok () → OutcomesTold P { upload with summary }) ↔
      upload.cases = [] := by
  constructor
  · intro htold
    by_contra hcases
    obtain ⟨summary, hs, hf, haccepted, hlie⟩ := exists_untruthful h hcases
    exact hlie (htold summary hs hf haccepted).1
  · intro hcases summary hs hf haccepted
    have htruthful : Truthful { upload with summary } := by
      -- two counts that are not negative and add up to nothing
      have hnonneg : 0 ≤ summary.succeeded ∧ 0 ≤ summary.failed := nonneg_of_valid haccepted
      have hsum : summary.succeeded + summary.failed = upload.cases.length := (outcomes_of_valid haccepted hs hf).1
      have hnone : successes upload.cases = 0 := by rw [hcases]; rfl
      refine (truthful_iff haccepted hs hf).mpr (Eq.trans ?_ hnone.symm)
      rw [hcases, List.length_nil] at hsum
      show summary.succeeded = 0
      omega
    refine ⟨htruthful, fun policy es call hdocs hcall hfinal => (outcomesAgree_iff hdocs hfinal).mpr ?_⟩
    rw [hcall]
    exact htruthful

end Shard

/-- A shard of two is uploaded and finalized. -/
def oneUpload (upload : ShardUpload) : List Txn :=
  [registerAt 0 "run" (.reference "suite" "indexed" 2),
    ⟨.reserveShard (.reference "run" 0 "" upload), 1, 1⟩, ⟨.finalizeShard (.reference "run" 0 "" upload) none, 2, 2⟩]

/-- One case that succeeded, under a summary that calls it a failure. -/
def ShardUpload.misreported (runID caseID : String) : ShardUpload where
  schemaVersion := Results.schemaVersion
  summary := ⟨1, 0, 1, .finite 5, 0, 0, some 0, 0, some true⟩
  cases := [.reference runID caseID]

/-- A shard without cases. -/
def ShardUpload.empty : ShardUpload where
  schemaVersion := Results.schemaVersion
  summary := ⟨0, 0, 0, .finite 5, 0, 0, some 0, 0, some true⟩
  cases := []

/-- The counts of an empty shard are told to the end; a shard of one case is accepted with counts that are not. -/
theorem outcome_counts_empty :
    OutcomesAgree ((machine (.reference [.empty]) .unlimited).run Db.empty (oneUpload .empty))
      (.reference "run" 0 "" .empty) ∧
    ¬∀ summary : ShardSummary, summary.succeeded ≤ maxInt64 → summary.failed ≤ maxInt64 →
      validateShard (.reference []) "run" 0 (shardKey "run" 0) { ShardUpload.single "run" "case" with summary } = .ok () →
      OutcomesTold (.reference []) { ShardUpload.single "run" "case" with summary } := by
  have hempty : validateShard (.reference [.empty]) "run" 0 (shardKey "run" 0) .empty = .ok () := by decide +kernel
  have hsingle : validateShard (.reference []) "run" 0 (shardKey "run" 0) (.single "run" "case") = .ok () := by
    decide +kernel
  have hdocs : DistinctDocuments (.reference [.empty]) (uploadCalls (oneUpload .empty)) := by
    unfold DistinctDocuments
    decide +kernel
  have hfinal : finalizedUploads (.reference [.empty]) .unlimited "run" (oneUpload .empty) =
      [.reference "run" 0 "" .empty] := by decide +kernel
  have htold := (outcome_counts_iff hempty).mpr rfl ShardUpload.empty.summary (by decide) (by decide) hempty
  refine ⟨htold.2 .unlimited _ _ hdocs rfl hfinal, fun hall => ?_⟩
  exact absurd ((outcome_counts_iff hsingle).mp hall) (List.cons_ne_nil _ _)

/-- The upload is accepted; its receipt and the aggregate disagree about the one case. -/
theorem outcome_counts_misreported :
    let P := Platform.reference [.misreported "run" "case"]
    let db := (machine P .unlimited).run Db.empty (oneUpload (.misreported "run" "case"))
    validateShard P "run" 0 (shardKey "run" 0) (.misreported "run" "case") = .ok () ∧
      ¬ Truthful (.misreported "run" "case") ∧
      ((completeReceipts db "run").map fun s => (s.summary.succeeded, s.summary.failed)) = [(0, 1)] ∧
      (db.summary? "run").map (fun s => (s.aggregate.succeeded, s.aggregate.failed)) = some (1, 0) := by
  refine ⟨by decide +kernel, ?_, by decide +kernel, by decide +kernel⟩
  unfold Truthful
  decide

end AgentStorm.Results
