import AgentStorm.Results.Aggregate
import AgentStorm.Results.Platform
import AgentStorm.Results.Queue

/-!
# `Results.Shards` — reserving and finalizing shard uploads

The two transactions around the object write of an upload, from `internal/results/postgres.go`. `reserveShard`
stores a pending receipt, or recognizes the one that is there; `finalizeShard` inserts the case rows, completes the
receipt and the queue row, and recomputes the run summary and status. Both check the shard lease, but only of a
queued run that is still collecting.
-/

namespace AgentStorm.Results

open Checks Numeric Relational Text

/-- The lease check both transactions make: the shard's row is leased, unexpired, and under this token. -/
def requireLease (now : Time) (runID : String) (shardIndex : Nat) (leaseHash : String) (db : Db) :
    Except ApiError Unit := do
  let row ← orElse
    (db.queue.first? fun r => decide (r.runID = runID ∧ r.shardIndex = shardIndex) && r.liveAt now) .leaseLost
  let stored ← orElse row.leaseTokenHash (.internal "validate shard lease")
  reject (decide (stored ≠ leaseHash)) .leaseLost

/-- Leases matter to queued runs, and only while they collect. -/
def RunRow.leasing (r : RunRow) : Bool := r.registration.queued && decide (r.status = .collecting)

/-! ## `ReserveShard` -/

def newReceipt (runID : String) (shardIndex : Nat) (key hash objectKey : String) (summary : ShardSummary) :
    ReceiptRow where
  runID := runID
  shardIndex := shardIndex
  idempotencyKey := key
  payloadHash := hash
  objectKey := objectKey
  summary := summary
  status := .pending

/-- The lease check of `ReserveShard`, which also refuses a blank hash. -/
def reserveLease (now : Time) (run : RunRow) (runID : String) (shardIndex : Nat) (leaseHash : String) (db : Db) :
    Except ApiError Unit :=
  if run.leasing then do
    reject (blank leaseHash) .leaseLost
    requireLease now runID shardIndex leaseHash db
  else .ok ()

/-- Insert the pending receipt, or recognize the stored one by key and hash. -/
def storeReceipt (run : RunRow) (receipt : ReceiptRow) : Transaction ShardReservation :=
  fun db =>
    match db.receipts.insert receipt with
    | some receipts => return (⟨false, run.registration.target.pricing⟩, { db with receipts := receipts })
    | none => do
        let existing ← orElse (db.receipt? receipt.runID receipt.shardIndex) .conflict
        reject (decide (existing.idempotencyKey ≠ receipt.idempotencyKey ∨ existing.payloadHash ≠ receipt.payloadHash))
          .conflict
        return (⟨decide (existing.status = .complete), run.registration.target.pricing⟩, db)

def reserveShard (now : Time) (runID : String) (shardIndex : Nat) (key hash objectKey leaseHash : String)
    (summary : ShardSummary) : Transaction ShardReservation :=
  fun db => do
    let run ← orElse (db.run? runID) .notFound
    reject (decide (run.expectedShards ≤ shardIndex)) (.validation ("shard index " ++ toString shardIndex ++
      " is outside expected range [0," ++ toString run.expectedShards ++ ")"))
    reserveLease now run runID shardIndex leaseHash db
    storeReceipt run (newReceipt runID shardIndex key hash objectKey summary) db

/-! ## Case rows -/

/-- `usageComplete`: an absent flag means complete. -/
def usageComplete (value : Option Bool) : Bool := value.getD true

/-- The costs of a case; without complete usage there are none. -/
def caseCosts (pricing : Option RunPricing) (item : CaseResult) : Except ApiError Costs :=
  if usageComplete item.usageComplete then costsForTokens pricing item.inputTokens item.outputTokens
  else .ok Costs.none

/-- The case as the API hashes and stores it. -/
def priceCase (pricing : Option RunPricing) (item : CaseResult) : Except ApiError CaseResult :=
  (caseCosts pricing item).map fun costs =>
    { item with inputCostUSD := costs.input, outputCostUSD := costs.output, costUSD := costs.total }

/-- A decimal text as a `numeric(30, 12)` parameter. -/
def numericColumn (column : String) : Option String → Except ApiError (Option ℚ)
  | none => .ok none
  | some s => do
      let q ← orElse (ratSetString s) (.internal ("invalid numeric " ++ column))
      reject (!fitsNumeric q) (.outOfRange column)
      return some q

/-- The row of a priced case: driver conversions and column checks. -/
def caseRow (runID : String) (shardIndex : Nat) (hash : String) (item : CaseResult) : Except ApiError CaseRow := do
  reject (decide (2 ^ 31 ≤ item.iteration ∨ item.iteration < -2 ^ 31)) (.outOfRange "iteration")
  let latency ← orElse item.latencyMS.finite? (.internal "latency_ms is not finite")
  let inputCost ← numericColumn "input_cost_usd" item.inputCostUSD
  let outputCost ← numericColumn "output_cost_usd" item.outputCostUSD
  let cost ← numericColumn "cost_usd" item.costUSD
  reject (decide (item.iteration < 0 ∨ latency < 0 ∨ item.inputTokens < 0 ∨ item.outputTokens < 0 ∨
    item.toolCallCount < 0) || item.modelCallCount.any fun n => decide (n < 0)) (.internal "case result check")
  return {
    runID := runID, caseID := item.caseID, iteration := item.iteration, shardIndex := shardIndex
    idempotencyKey := item.idempotencyKey, payloadHash := hash, success := item.success, latencyMS := latency
    inputTokens := item.inputTokens, outputTokens := item.outputTokens, failureKind := item.failureKind
    output := item.output, error := item.error, toolPath := item.toolPath, assertions := item.assertions
    inputCostUSD := inputCost, outputCostUSD := outputCost, costUSD := cost
    failureCategory := item.failureCategory, errorCode := item.errorCode, attempts := item.attempts
    usageComplete := usageComplete item.usageComplete
    modelCallCount := item.modelCallCount, toolCallCount := item.toolCallCount }

/-- One turn of the insert loop: the row goes in, or the stored case has the same key and content. -/
def insertCase (P : Platform) (runID : String) (shardIndex : Nat) (pricing : Option RunPricing) (item : CaseResult)
    (cases : Table CaseRow) : Except ApiError (Table CaseRow) := do
  let priced ← priceCase pricing item
  let hash := P.caseHash priced
  let row ← caseRow runID shardIndex hash priced
  match cases.insert row with
  | some cases' => return cases'
  | none =>
    let existing ← orElse (cases.first? fun r => decide (r.runID = runID ∧ r.caseID = item.caseID ∧
      r.iteration = item.iteration)) .conflict
    reject (decide (existing.idempotencyKey ≠ item.idempotencyKey ∨ existing.payloadHash ≠ hash)) .conflict
    return cases

def insertCases (P : Platform) (runID : String) (shardIndex : Nat) (pricing : Option RunPricing) :
    List CaseResult → Table CaseRow → Except ApiError (Table CaseRow)
  | [], cases => .ok cases
  | item :: items, cases => do
      let cases' ← insertCase P runID shardIndex pricing item cases
      insertCases P runID shardIndex pricing items cases'

/-! ## `refreshAggregate` -/

/-- `INSERT … ON CONFLICT (run_id) DO UPDATE` of a run's summary. -/
def upsertSummary (runID : String) (aggregate : Aggregate) (summaries : Table SummaryRow) : Table SummaryRow :=
  match summaries.insert ⟨runID, aggregate⟩ with
  | some summaries' => summaries'
  | none => summaries.update (fun r => decide (r.runID = runID)) (fun r => { r with aggregate := aggregate })
      (fun _ _ h => h)

/-- The status update after a shard was finalized: a terminated run keeps its status, and `completed_at` is
    written once. `wall` is the API's own clock. -/
def RunRow.refresh (now wall : Time) (allComplete : Bool) (r : RunRow) : RunRow :=
  { r with
    status := if r.status.terminal then r.status else if allComplete then .complete else .collecting
    updatedAt := now
    completedAt := if !r.status.terminal && allComplete then some (r.completedAt.getD wall) else r.completedAt }

theorem keepsKeys_runRefresh (now wall : Time) (allComplete : Bool) :
    Table.KeepsKeys (RunRow.refresh now wall allComplete) := fun _ _ h => h

/-- `count(s.shard_index) FILTER (WHERE s.status = 'complete')` of a run. -/
def completedShards (db : Db) (runID : String) : Nat :=
  db.receipts.count fun r => decide (r.runID = runID ∧ r.status = .complete)

def caseRowsOf (db : Db) (runID : String) : List CaseRow := db.cases.select fun r => decide (r.runID = runID)

def refreshAggregate (now wall : Time) (runID : String) (db : Db) : Except ApiError Db := do
  let rows := caseRowsOf db runID
  checkAggregate rows
  let run ← orElse (db.run? runID) (.internal "read run thresholds")
  let aggregate := aggregateRows rows
  let aggregate := { aggregate with thresholdsPassed := thresholdsPassed aggregate run.registration.evaluation }
  let allComplete := decide (completedShards db runID = run.expectedShards)
  return { db with
    summaries := upsertSummary runID aggregate db.summaries
    runs := db.runs.update (fun r => decide (r.id = runID)) (RunRow.refresh now wall allComplete)
      (keepsKeys_runRefresh now wall allComplete) }

/-! ## `FinalizeShard` -/

def ReceiptRow.finish (r : ReceiptRow) : ReceiptRow := { r with status := .complete }

theorem keepsKeys_finish : Table.KeepsKeys ReceiptRow.finish := fun _ _ h => h

/-- Complete the receipt and, for a queued run, the queue row, around case rows already inserted. -/
def completeShard (runID : String) (shardIndex : Nat) (queued : Bool) (cases : Table CaseRow) (db : Db) : Db :=
  { db with
    cases := cases
    receipts := db.receipts.update (fun r => decide (r.runID = runID ∧ r.shardIndex = shardIndex))
      ReceiptRow.finish keepsKeys_finish
    queue := if queued then
        db.queue.update (fun r => decide (r.runID = runID ∧ r.shardIndex = shardIndex))
          (QueueRow.settle .complete) (keepsKeys_settle .complete)
      else db.queue }

/-- The lease check of `FinalizeShard`. -/
def finalizeLease (now : Time) (run : RunRow) (runID : String) (shardIndex : Nat) (leaseHash : String) (db : Db) :
    Except ApiError Unit :=
  if run.leasing then requireLease now runID shardIndex leaseHash db else .ok ()

def finalizeShard (P : Platform) (now wall : Time) (runID : String) (shardIndex : Nat) (hash leaseHash : String)
    (cases : List CaseResult) (pricing : Option RunPricing) : Transaction Bool :=
  fun db => do
    let run ← orElse (db.run? runID) .notFound
    finalizeLease now run runID shardIndex leaseHash db
    let receipt ← orElse (db.receipt? runID shardIndex) .notFound
    reject (decide (receipt.payloadHash ≠ hash)) .conflict
    if receipt.status = .complete then
      return (false, db)
    else do
      let stored ← insertCases P runID shardIndex pricing cases db.cases
      let db' ← refreshAggregate now wall runID
        (completeShard runID shardIndex run.registration.queued stored db)
      return (true, db')

/-! ## What a committed transaction did -/

variable {now wall : Time} {runID hash : String} {shardIndex : Nat} {db db' : Db} {P : Platform}

/-- The shard has an unexpired lease under this token hash. -/
def LeaseOpen (db : Db) (now : Time) (runID : String) (shardIndex : Nat) (leaseHash : String) : Prop :=
  ∃ q ∈ db.queue, q.runID = runID ∧ q.shardIndex = shardIndex ∧ q.openedBy now leaseHash = true

instance (db : Db) (now : Time) (runID : String) (shardIndex : Nat) (leaseHash : String) :
    Decidable (LeaseOpen db now runID shardIndex leaseHash) :=
  inferInstanceAs (Decidable (∃ q ∈ db.queue.rows, _ ∧ _ ∧ _))

/-- The lease check is exactly `LeaseOpen`: a shard has one queue row. -/
theorem requireLease_ok_iff {leaseHash : String} :
    requireLease now runID shardIndex leaseHash db = .ok () ↔ LeaseOpen db now runID shardIndex leaseHash := by
  have hpins : Table.Pins fun r : QueueRow =>
      decide (r.runID = runID ∧ r.shardIndex = shardIndex) && r.liveAt now := by
    intro a b ha hb
    simp only [Bool.and_eq_true, decide_eq_true_eq] at ha hb
    exact ⟨ha.1.1.trans hb.1.1.symm, ha.1.2.trans hb.1.2.symm⟩
  unfold requireLease LeaseOpen QueueRow.openedBy
  simp only [bind_ok_iff, orElse_eq_ok, reject_eq_ok, Table.first?_eq_some_iff hpins, Bool.and_eq_true,
    decide_eq_true_eq, decide_eq_false_iff_not, Decidable.not_not]
  constructor
  · rintro ⟨q, ⟨hq, ⟨hrun, hindex⟩, hlive⟩, _, hstored, rfl⟩
    exact ⟨q, hq, hrun, hindex, hlive, hstored⟩
  · rintro ⟨q, hq, hrun, hindex, hlive, hstored⟩
    exact ⟨q, ⟨hq, ⟨hrun, hindex⟩, hlive⟩, leaseHash, hstored, rfl⟩

theorem reserveLease_ok_iff {run : RunRow} {leaseHash : String} :
    reserveLease now run runID shardIndex leaseHash db = .ok () ↔
      (run.leasing = true → blank leaseHash = false ∧ LeaseOpen db now runID shardIndex leaseHash) := by
  unfold reserveLease
  by_cases hleasing : run.leasing = true
  · simp only [hleasing, if_true, then_ok_iff, reject_eq_ok, requireLease_ok_iff, forall_const]
  · simp [hleasing]

theorem finalizeLease_ok_iff {run : RunRow} {leaseHash : String} :
    finalizeLease now run runID shardIndex leaseHash db = .ok () ↔
      (run.leasing = true → LeaseOpen db now runID shardIndex leaseHash) := by
  unfold finalizeLease
  by_cases hleasing : run.leasing = true
  · simp [hleasing, requireLease_ok_iff]
  · simp [hleasing]

theorem storeReceipt_ok {run : RunRow} {receipt : ReceiptRow} {reservation : ShardReservation}
    (h : storeReceipt run receipt db = .ok (reservation, db')) :
    (∃ receipts, db.receipts.insert receipt = some receipts ∧
      reservation = ⟨false, run.registration.target.pricing⟩ ∧ db' = { db with receipts := receipts }) ∨
    (∃ existing, db.receipt? receipt.runID receipt.shardIndex = some existing ∧
      existing.payloadHash = receipt.payloadHash ∧
      reservation = ⟨decide (existing.status = .complete), run.registration.target.pricing⟩ ∧ db' = db) := by
  unfold storeReceipt at h
  split at h
  · rename_i receipts hins
    cases h
    exact .inl ⟨receipts, hins, rfl, rfl⟩
  · obtain ⟨existing, hexisting, h⟩ := bind_ok_iff.mp h
    simp only [then_ok_iff, reject_eq_ok, decide_eq_false_iff_not, not_or, Decidable.not_not] at h
    obtain ⟨⟨-, hhash⟩, h⟩ := h
    cases h
    exact .inr ⟨existing, orElse_eq_ok.mp hexisting, hhash, rfl, rfl⟩

theorem reserveShard_ok {key objectKey leaseHash : String} {summary : ShardSummary}
    {reservation : ShardReservation}
    (h : reserveShard now runID shardIndex key hash objectKey leaseHash summary db = .ok (reservation, db')) :
    ∃ run, db.run? runID = some run ∧ shardIndex < run.expectedShards ∧
      (run.leasing = true → LeaseOpen db now runID shardIndex leaseHash) ∧
      ((∃ receipts, db.receipts.insert (newReceipt runID shardIndex key hash objectKey summary) = some receipts ∧
          reservation = ⟨false, run.registration.target.pricing⟩ ∧ db' = { db with receipts := receipts }) ∨
       (∃ existing, db.receipt? runID shardIndex = some existing ∧ existing.payloadHash = hash ∧
          reservation = ⟨decide (existing.status = .complete), run.registration.target.pricing⟩ ∧ db' = db)) := by
  unfold reserveShard at h
  obtain ⟨run, hrun, h⟩ := bind_ok_iff.mp h
  simp only [then_ok_iff, reject_eq_ok, decide_eq_false_iff_not, not_le] at h
  obtain ⟨hindex, hlease, hstore⟩ := h
  exact ⟨run, orElse_eq_ok.mp hrun, hindex, fun hleasing => (reserveLease_ok_iff.mp hlease hleasing).2,
    storeReceipt_ok hstore⟩

theorem refreshAggregate_ok (h : refreshAggregate now wall runID db = .ok db') :
    ∃ run aggregate, db.run? runID = some run ∧ db' = { db with
      summaries := upsertSummary runID aggregate db.summaries
      runs := db.runs.update (fun r => decide (r.id = runID))
        (RunRow.refresh now wall (decide (completedShards db runID = run.expectedShards)))
        (keepsKeys_runRefresh now wall (decide (completedShards db runID = run.expectedShards))) } := by
  simp only [refreshAggregate, then_ok_iff] at h
  obtain ⟨-, h⟩ := h
  obtain ⟨run, hrun, h⟩ := bind_ok_iff.mp h
  exact ⟨run, _, orElse_eq_ok.mp hrun, (Except.ok.inj h).symm⟩

theorem mem_upsertSummary (runID : String) (aggregate : Aggregate) (summaries : Table SummaryRow) :
    ⟨runID, aggregate⟩ ∈ upsertSummary runID aggregate summaries := by
  unfold upsertSummary
  split
  · rename_i summaries' hins
    exact (Table.mem_of_insert hins).mpr (Or.inr rfl)
  · rename_i hins
    obtain ⟨row, hrow, hclash⟩ := Table.insert_eq_none_iff.mp hins
    obtain rfl : row.runID = runID := hclash
    exact Table.mem_update.mpr ⟨row, hrow, (if_pos (decide_eq_true rfl)).symm⟩

/-- The summary of the run after the refresh is computed from its case rows, and judged by its registration. -/
theorem refreshAggregate_verdict (h : refreshAggregate now wall runID db = .ok db') :
    ∃ run, db.run? runID = some run ∧ db'.summary? runID =
      some ⟨runID, { aggregateRows (caseRowsOf db runID) with
        thresholdsPassed := thresholdsPassed (aggregateRows (caseRowsOf db runID)) run.registration.evaluation }⟩ := by
  simp only [refreshAggregate, then_ok_iff] at h
  obtain ⟨-, h⟩ := h
  obtain ⟨run, hrun, h⟩ := bind_ok_iff.mp h
  cases h
  exact ⟨run, orElse_eq_ok.mp hrun, Db.summary?_eq_some.mpr ⟨mem_upsertSummary _ _ _, rfl⟩⟩

theorem refreshAggregate_summary (h : refreshAggregate now wall runID db = .ok db') :
    ∃ passed, db'.summary? runID =
      some ⟨runID, { aggregateRows (caseRowsOf db runID) with thresholdsPassed := passed }⟩ := by
  obtain ⟨_, -, hsummary⟩ := refreshAggregate_verdict h
  exact ⟨_, hsummary⟩

/-- The refresh writes the run row and the summary only. -/
theorem refreshAggregate_frame (h : refreshAggregate now wall runID db = .ok db') :
    db'.receipts = db.receipts ∧ db'.cases = db.cases ∧ db'.queue = db.queue ∧ db'.permits = db.permits ∧
      db'.rateEvents = db.rateEvents := by
  obtain ⟨_, _, -, rfl⟩ := refreshAggregate_ok h
  exact ⟨rfl, rfl, rfl, rfl, rfl⟩

theorem finalizeShard_ok {leaseHash : String} {cases : List CaseResult} {pricing : Option RunPricing}
    {created : Bool}
    (h : finalizeShard P now wall runID shardIndex hash leaseHash cases pricing db = .ok (created, db')) :
    ∃ run receipt, db.run? runID = some run ∧ db.receipt? runID shardIndex = some receipt ∧
      (run.leasing = true → LeaseOpen db now runID shardIndex leaseHash) ∧ receipt.payloadHash = hash ∧
      ((receipt.status = .complete ∧ created = false ∧ db' = db) ∨
       (receipt.status = .pending ∧ created = true ∧ ∃ stored,
          insertCases P runID shardIndex pricing cases db.cases = .ok stored ∧
          refreshAggregate now wall runID
            (completeShard runID shardIndex run.registration.queued stored db) = .ok db')) := by
  unfold finalizeShard at h
  obtain ⟨run, hrun, h⟩ := bind_ok_iff.mp h
  obtain ⟨hlease, h⟩ := then_ok_iff.mp h
  obtain ⟨receipt, hreceipt, h⟩ := bind_ok_iff.mp h
  simp only [then_ok_iff, reject_eq_ok, decide_eq_false_iff_not, Decidable.not_not] at h
  obtain ⟨hhash, h⟩ := h
  refine ⟨run, receipt, orElse_eq_ok.mp hrun, orElse_eq_ok.mp hreceipt, finalizeLease_ok_iff.mp hlease, hhash, ?_⟩
  split at h
  · rename_i hcomplete
    cases h
    exact .inl ⟨hcomplete, rfl, rfl⟩
  · rename_i hpending
    obtain ⟨stored, hstored, h⟩ := bind_ok_iff.mp h
    obtain ⟨_, hrefresh, h⟩ := bind_ok_iff.mp h
    cases h
    refine .inr ⟨?_, rfl, stored, hstored, hrefresh⟩
    cases hs : receipt.status with
    | pending => rfl
    | complete => exact absurd hs hpending

/-! ## What the insert loop leaves behind -/

variable {item : CaseResult} {row : CaseRow}

/-- The row carries the identity of the case, under its run and shard. -/
structure RowOf (runID : String) (item : CaseResult) (row : CaseRow) : Prop where
  runID_eq : row.runID = runID
  caseID_eq : row.caseID = item.caseID
  iteration_eq : row.iteration = item.iteration
  key_eq : row.idempotencyKey = item.idempotencyKey

theorem priceCase_ok {pricing : Option RunPricing} {priced : CaseResult}
    (h : priceCase pricing item = .ok priced) :
    ∃ costs : Costs, priced =
      { item with inputCostUSD := costs.input, outputCostUSD := costs.output, costUSD := costs.total } := by
  obtain ⟨costs, -, h⟩ := map_ok_iff.mp h
  exact ⟨costs, h.symm⟩

/-- The columns of a row are those of the case; latency and costs are converted, and the iteration fits. -/
theorem caseRow_eq (h : caseRow runID shardIndex hash item = .ok row) :
    item.iteration < 2 ^ 31 ∧ ∃ latency inputCost outputCost cost, item.latencyMS.finite? = some latency ∧
    numericColumn "input_cost_usd" item.inputCostUSD = .ok inputCost ∧
    numericColumn "output_cost_usd" item.outputCostUSD = .ok outputCost ∧
    numericColumn "cost_usd" item.costUSD = .ok cost ∧ row = {
      runID := runID, caseID := item.caseID, iteration := item.iteration, shardIndex := shardIndex
      idempotencyKey := item.idempotencyKey, payloadHash := hash, success := item.success, latencyMS := latency
      inputTokens := item.inputTokens, outputTokens := item.outputTokens, failureKind := item.failureKind
      output := item.output, error := item.error, toolPath := item.toolPath, assertions := item.assertions
      inputCostUSD := inputCost, outputCostUSD := outputCost, costUSD := cost
      failureCategory := item.failureCategory, errorCode := item.errorCode, attempts := item.attempts
      usageComplete := usageComplete item.usageComplete
      modelCallCount := item.modelCallCount, toolCallCount := item.toolCallCount } := by
  unfold caseRow at h
  obtain ⟨hrange, h⟩ := then_ok_iff.mp h
  obtain ⟨latency, hlatency, h⟩ := bind_ok_iff.mp h
  obtain ⟨inputCost, hinput, h⟩ := bind_ok_iff.mp h
  obtain ⟨outputCost, houtput, h⟩ := bind_ok_iff.mp h
  obtain ⟨cost, hcost, h⟩ := bind_ok_iff.mp h
  obtain ⟨-, h⟩ := then_ok_iff.mp h
  rw [reject_eq_ok, decide_eq_false_iff_not, not_or, not_le] at hrange
  exact ⟨hrange.1, latency, inputCost, outputCost, cost, orElse_eq_ok.mp hlatency, hinput, houtput, hcost,
    (Except.ok.inj h).symm⟩

theorem caseRow_ok (h : caseRow runID shardIndex hash item = .ok row) :
    RowOf runID item row ∧ row.shardIndex = shardIndex := by
  obtain ⟨-, _, _, _, _, -, -, -, -, rfl⟩ := caseRow_eq h
  exact ⟨⟨rfl, rfl, rfl, rfl⟩, rfl⟩

/-- The row that a shard of the run stores for a case. -/
def StoredAs (P : Platform) (runID : String) (shardIndex : Nat) (item : CaseResult) (row : CaseRow) : Prop :=
  ∃ pricing priced, priceCase pricing item = .ok priced ∧ caseRow runID shardIndex (P.caseHash priced) priced = .ok row

/-- The row for a case under given prices. -/
def StoredUnder (P : Platform) (pricing : Option RunPricing) (runID : String) (shardIndex : Nat) (item : CaseResult)
    (row : CaseRow) : Prop :=
  ∃ priced, priceCase pricing item = .ok priced ∧ caseRow runID shardIndex (P.caseHash priced) priced = .ok row

theorem StoredUnder.storedAs {pricing : Option RunPricing}
    (h : StoredUnder P pricing runID shardIndex item row) :
    StoredAs P runID shardIndex item row := ⟨pricing, h⟩

theorem StoredAs.rowOf (h : StoredAs P runID shardIndex item row) :
    RowOf runID item row ∧ row.shardIndex = shardIndex := by
  obtain ⟨_, _, hpriced, hrow⟩ := h
  obtain ⟨_, rfl⟩ := priceCase_ok hpriced
  obtain ⟨hof, hindex⟩ := caseRow_ok hrow
  exact ⟨⟨hof.runID_eq, hof.caseID_eq, hof.iteration_eq, hof.key_eq⟩, hindex⟩

/-- One turn of the loop inserts the row of the case, or finds a row with the case's identity and key. -/
theorem insertCase_under {pricing : Option RunPricing} {cases cases' : Table CaseRow}
    (h : insertCase P runID shardIndex pricing item cases = .ok cases') :
    (∃ row, StoredUnder P pricing runID shardIndex item row ∧ cases.insert row = some cases') ∨
    (cases' = cases ∧ ∃ row ∈ cases, RowOf runID item row) := by
  unfold insertCase at h
  obtain ⟨priced, hpriced, h⟩ := bind_ok_iff.mp h
  obtain ⟨row, hrow, h⟩ := bind_ok_iff.mp h
  split at h
  · rename_i inserted hins
    cases h
    exact .inl ⟨row, ⟨priced, hpriced, hrow⟩, hins⟩
  · obtain ⟨existing, hexisting, h⟩ := bind_ok_iff.mp h
    simp only [then_ok_iff, reject_eq_ok, decide_eq_false_iff_not, not_or, Decidable.not_not] at h
    obtain ⟨⟨hkey, -⟩, h⟩ := h
    cases h
    obtain ⟨hmem, hwhere⟩ := Table.mem_of_first? (orElse_eq_ok.mp hexisting)
    rw [decide_eq_true_eq] at hwhere
    exact .inr ⟨rfl, existing, hmem, hwhere.1, hwhere.2.1, hwhere.2.2, hkey⟩

theorem insertCase_ok {pricing : Option RunPricing} {cases cases' : Table CaseRow}
    (h : insertCase P runID shardIndex pricing item cases = .ok cases') :
    (∃ row, StoredAs P runID shardIndex item row ∧ cases.insert row = some cases') ∨
    (cases' = cases ∧ ∃ row ∈ cases, RowOf runID item row) := by
  rcases insertCase_under h with ⟨row, hstored, hins⟩ | hfound
  · exact .inl ⟨row, hstored.storedAs, hins⟩
  · exact .inr hfound

/-- No stored case has the identity of the item. -/
def Unstored (runID : String) (cases : Table CaseRow) (item : CaseResult) : Prop :=
  ∀ row ∈ cases, ¬ (row.runID = runID ∧ row.caseID = item.caseID ∧ row.iteration = item.iteration)

/-- The loop only adds rows of its own run and shard, drops none, and leaves a row for every case. -/
theorem insertCases_ok {pricing : Option RunPricing} {items : List CaseResult}
    {cases stored : Table CaseRow} (h : insertCases P runID shardIndex pricing items cases = .ok stored) :
    (∀ row ∈ cases, row ∈ stored) ∧
    (∀ row ∈ stored, row ∈ cases ∨ ∃ item ∈ items, RowOf runID item row ∧ row.shardIndex = shardIndex) ∧
    (∀ item ∈ items, ∃ row ∈ stored, RowOf runID item row) ∧
    (∀ other, other ≠ runID →
      (stored.select fun r => decide (r.runID = other)) = cases.select fun r => decide (r.runID = other)) := by
  induction items generalizing cases with
  | nil =>
    cases h
    exact ⟨fun _ hr => hr, fun _ hr => Or.inl hr, by simp, fun _ _ => rfl⟩
  | cons item items ih =>
    obtain ⟨_, hmid, hrest⟩ := bind_ok_iff.mp h
    obtain ⟨hkept, hnew, hcover, hframe⟩ := ih hrest
    rcases insertCase_ok hmid with ⟨row, hstored, hins⟩ | ⟨rfl, row, hrow, hof⟩
    · obtain ⟨hof, hindex⟩ := hstored.rowOf
      refine ⟨?_, ?_, ?_, ?_⟩
      · intro r hr
        exact hkept r ((Table.mem_of_insert hins).mpr (Or.inl hr))
      · intro r hr
        rcases hnew r hr with hr | ⟨other, hother, hrow⟩
        · rcases (Table.mem_of_insert hins).mp hr with hr | rfl
          · exact .inl hr
          · exact .inr ⟨item, List.mem_cons_self, hof, hindex⟩
        · exact .inr ⟨other, List.mem_cons_of_mem _ hother, hrow⟩
      · intro other hother
        rcases List.mem_cons.mp hother with rfl | hother
        · exact ⟨row, hkept row ((Table.mem_of_insert hins).mpr (Or.inr rfl)), hof⟩
        · exact hcover other hother
      · intro other hother
        rw [hframe other hother, Table.select_of_insert hins]
        rw [decide_eq_false_iff_not, hof.runID_eq]
        exact fun heq => hother heq.symm
    · refine ⟨hkept, ?_, ?_, hframe⟩
      · intro r hr
        rcases hnew r hr with hr | ⟨other, hother, hrow⟩
        · exact .inl hr
        · exact .inr ⟨other, List.mem_cons_of_mem _ hother, hrow⟩
      · intro other hother
        rcases List.mem_cons.mp hother with rfl | hother
        · exact ⟨row, hkept row hrow, hof⟩
        · exact hcover other hother

end AgentStorm.Results
