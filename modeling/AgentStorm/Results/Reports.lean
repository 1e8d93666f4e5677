import AgentStorm.Results.Shards

/-!
# `Results.Reports` — reading a run and comparing two

The queries of `internal/results/postgres.go` on finished work: `GetRun` joins a run with its receipts and its
summary, `Compare` subtracts the summaries of two complete runs. Both read the database only through the rows of the
runs they name (`Db.view`), which is what `getRun_congr` and `compare_congr` say.
-/

namespace AgentStorm.Results

open Checks Relational

/-! ## `GetRun` -/

def getRun (runID : String) (db : Db) : Except ApiError RunDetail := do
  let run ← orElse (db.run? runID) .notFound
  let received := completedShards db runID
  return {
    id := run.id
    registration := run.registration
    status := run.status
    receivedShards := received
    summary := (db.summary? runID).map fun s => s.aggregate
    createdAt := run.createdAt
    updatedAt := run.updatedAt
    completedAt := run.completedAt
    isPartial := run.status.terminal ||
      decide (run.status = .collecting ∧ 0 < received ∧ received < run.expectedShards)
    terminalReason :=
      match run.terminalReasonCode, run.terminalAt with
      | some reasonCode, some time => some ⟨run.status, reasonCode, time⟩
      | _, _ => none }

/-! ## `Compare` -/

def percentDelta (baseline candidate : ℚ) : Option ℚ :=
  if baseline = 0 then none else some ((candidate - baseline) / baseline * 100)

/-- The difference of two values that may be absent. -/
def optionalDelta {α : Type} [Sub α] (baseline candidate : Option α) : Option α :=
  match baseline, candidate with
  | some b, some c => some (c - b)
  | _, _ => none

/-- Cost and cost percentage, when both runs have a cost. -/
def costDelta (baseline candidate : Option String) : Except ApiError (Option String × Option ℚ) :=
  match baseline, candidate with
  | some b, some c => do
      let cost ← subtractDecimalStrings c b
      let percent ← decimalPercentDelta b c
      return (some cost, percent)
  | _, _ => .ok (none, none)

def compareSummaries (baseline candidate : Aggregate) : Except ApiError ComparisonDelta := do
  let (cost, costPercent) ← costDelta baseline.costUSD candidate.costUSD
  return {
    successRate := candidate.successRate - baseline.successRate
    failureRate := candidate.failureRate - baseline.failureRate
    qualityFailures := candidate.qualityFailures - baseline.qualityFailures
    qualityFailureRate := candidate.qualityFailureRate - baseline.qualityFailureRate
    infrastructureFailures := candidate.infrastructureFailures - baseline.infrastructureFailures
    infrastructureFailureRate := candidate.infrastructureFailureRate - baseline.infrastructureFailureRate
    attemptCount := candidate.attemptCount - baseline.attemptCount
    retryCount := candidate.retryCount - baseline.retryCount
    retriedCases := candidate.retriedCases - baseline.retriedCases
    retrySuccesses := candidate.retrySuccesses - baseline.retrySuccesses
    retrySuccessRate := candidate.retrySuccessRate - baseline.retrySuccessRate
    injectedFaults := candidate.injectedFaults - baseline.injectedFaults
    circuitRejections := candidate.circuitRejections - baseline.circuitRejections
    p50MS := candidate.p50MS - baseline.p50MS
    p50Percent := percentDelta baseline.p50MS candidate.p50MS
    p95MS := candidate.p95MS - baseline.p95MS
    p95Percent := percentDelta baseline.p95MS candidate.p95MS
    p99MS := candidate.p99MS - baseline.p99MS
    p99Percent := percentDelta baseline.p99MS candidate.p99MS
    inputTokens := candidate.inputTokens - baseline.inputTokens
    outputTokens := candidate.outputTokens - baseline.outputTokens
    modelCallCount := optionalDelta baseline.modelCallCount candidate.modelCallCount
    toolCallCount := candidate.toolCallCount - baseline.toolCallCount
    modelCallsPerSuccessfulAgent :=
      optionalDelta baseline.modelCallsPerSuccessfulAgent candidate.modelCallsPerSuccessfulAgent
    toolCallsPerSuccessfulAgent :=
      optionalDelta baseline.toolCallsPerSuccessfulAgent candidate.toolCallsPerSuccessfulAgent
    costUSD := cost
    costPercent := costPercent }

def compare (baselineID candidateID : String) (db : Db) : Except ApiError Comparison := do
  let baseline ← getRun baselineID db
  let candidate ← getRun candidateID db
  match baseline.status, candidate.status, baseline.summary, candidate.summary with
  | .complete, .complete, some baselineSummary, some candidateSummary => do
      let delta ← compareSummaries baselineSummary candidateSummary
      return ⟨baselineID, candidateID, baselineSummary, candidateSummary, delta⟩
  | _, _, _, _ => .error .notReady

/-! ## What a report depends on -/

/-- Every row of a run, table by table. -/
structure RunView where
  runs : List RunRow
  receipts : List ReceiptRow
  cases : List CaseRow
  summaries : List SummaryRow
  queue : List QueueRow
  deriving DecidableEq

def Db.view (db : Db) (runID : String) : RunView where
  runs := db.runs.select fun r => decide (r.id = runID)
  receipts := db.receipts.select fun r => decide (r.runID = runID)
  cases := db.cases.select fun r => decide (r.runID = runID)
  summaries := db.summaries.select fun r => decide (r.runID = runID)
  queue := db.queue.select fun r => decide (r.runID = runID)

theorem Db.run?_eq_view (db : Db) (runID : String) : db.run? runID = (db.view runID).runs.head? :=
  Table.first?_eq_head? _ _

theorem Db.summary?_eq_view (db : Db) (runID : String) : db.summary? runID = (db.view runID).summaries.head? :=
  Table.first?_eq_head? _ _

theorem completedShards_eq_view (db : Db) (runID : String) :
    completedShards db runID = (db.view runID).receipts.countP fun s => decide (s.status = .complete) := by
  have hcount := Table.count_and db.receipts (fun s => decide (s.runID = runID)) fun s => decide (s.status = .complete)
  simp only [← Bool.decide_and] at hcount
  exact hcount

theorem getRun_congr {db db' : Db} {runID : String} (h : db'.view runID = db.view runID) :
    getRun runID db' = getRun runID db := by
  unfold getRun
  rw [Db.run?_eq_view, Db.run?_eq_view, completedShards_eq_view, completedShards_eq_view, Db.summary?_eq_view,
    Db.summary?_eq_view, h]

/-- A comparison reads the two runs it names. -/
theorem compare_congr {db db' : Db} {baselineID candidateID : String} (hb : db'.view baselineID = db.view baselineID)
    (hc : db'.view candidateID = db.view candidateID) :
    compare baselineID candidateID db' = compare baselineID candidateID db := by
  unfold compare
  rw [getRun_congr hb, getRun_congr hc]

end AgentStorm.Results
