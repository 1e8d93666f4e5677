import AgentStorm.Foundation.Table
import AgentStorm.Results.Types

/-!
# `Results.Schema` — the tables of the result database

The rows and unique constraints of `internal/results/migrations`. A `Table` cannot hold two rows that agree on a
primary key or another `UNIQUE` column, so every state of `Db` satisfies them. Left out are columns that no
statement reads back: `created_at` and `updated_at` of receipts, queue rows and summaries, and `created_at` of
case rows and permits. `jsonb` columns hold the documents they encode.
-/

namespace AgentStorm.Results

open Relational

/-! ## Rows -/

/-- `agentstorm_runs` -/
structure RunRow where
  id : String
  registrationKey : String
  registrationHash : String
  registration : Registration
  expectedShards : Nat
  status : RunStatus
  createdAt : Time
  updatedAt : Time
  completedAt : Option Time
  terminalKey : Option String
  terminalHash : Option String
  terminalReasonCode : Option String
  terminalAt : Option Time
  deriving DecidableEq

inductive ReceiptStatus
  | pending
  | complete
  deriving DecidableEq, Repr

/-- `agentstorm_shard_receipts` -/
structure ReceiptRow where
  runID : String
  shardIndex : Nat
  idempotencyKey : String
  payloadHash : String
  objectKey : String
  summary : ShardSummary
  status : ReceiptStatus
  deriving DecidableEq

/-- `agentstorm_case_results`; costs are `numeric(30, 12)`. -/
structure CaseRow where
  runID : String
  caseID : String
  iteration : Int
  shardIndex : Nat
  idempotencyKey : String
  payloadHash : String
  success : Bool
  latencyMS : ℚ
  inputTokens : Int
  outputTokens : Int
  failureKind : String
  output : Option String
  error : Option String
  toolPath : List String
  assertions : List AssertionResult
  inputCostUSD : Option ℚ
  outputCostUSD : Option ℚ
  costUSD : Option ℚ
  failureCategory : String
  errorCode : String
  attempts : List AttemptResult
  usageComplete : Bool
  modelCallCount : Option Int
  toolCallCount : Int
  deriving DecidableEq

/-- `agentstorm_run_summaries` -/
structure SummaryRow where
  runID : String
  aggregate : Aggregate
  deriving DecidableEq

inductive QueueState
  | queued
  | leased
  | complete
  | cancelled
  deriving DecidableEq, Repr

/-- `agentstorm_shard_queue` -/
structure QueueRow where
  runID : String
  shardIndex : Nat
  state : QueueState
  leaseOwner : Option String
  leaseTokenHash : Option String
  leaseExpiresAt : Option Time
  leaseCount : Nat
  deriving DecidableEq

/-- `agentstorm_execution_permits` -/
structure PermitRow where
  permitID : String
  requestID : String
  runID : String
  workerID : String
  provider : String
  leaseTokenHash : String
  leaseExpiresAt : Time
  releasedAt : Option Time
  updatedAt : Time
  deriving DecidableEq

/-- `agentstorm_rate_events` -/
structure RateEventRow where
  requestID : String
  provider : String
  occurredAt : Time
  deriving DecidableEq

/-! ## Unique constraints -/

instance : Record RunRow where
  Conflict a b := a.id = b.id ∨ a.registrationKey = b.registrationKey
  decidableConflict := fun _ _ => inferInstance
  conflict_refl _ := Or.inl rfl
  conflict_symm := fun h => h.imp Eq.symm Eq.symm

instance : Record ReceiptRow where
  Conflict a b := (a.runID = b.runID ∧ a.shardIndex = b.shardIndex) ∨ a.idempotencyKey = b.idempotencyKey
  decidableConflict := fun _ _ => inferInstance
  conflict_refl _ := Or.inl ⟨rfl, rfl⟩
  conflict_symm := fun h => h.imp (fun h => ⟨h.1.symm, h.2.symm⟩) Eq.symm

instance : Record CaseRow where
  Conflict a b := (a.runID = b.runID ∧ a.caseID = b.caseID ∧ a.iteration = b.iteration) ∨
    a.idempotencyKey = b.idempotencyKey
  decidableConflict := fun _ _ => inferInstance
  conflict_refl _ := Or.inl ⟨rfl, rfl, rfl⟩
  conflict_symm := fun h => h.imp (fun h => ⟨h.1.symm, h.2.1.symm, h.2.2.symm⟩) Eq.symm

instance : Record SummaryRow where
  Conflict a b := a.runID = b.runID
  decidableConflict := fun _ _ => inferInstance
  conflict_refl _ := rfl
  conflict_symm := Eq.symm

instance : Record QueueRow where
  Conflict a b := a.runID = b.runID ∧ a.shardIndex = b.shardIndex
  decidableConflict := fun _ _ => inferInstance
  conflict_refl _ := ⟨rfl, rfl⟩
  conflict_symm := fun h => ⟨h.1.symm, h.2.symm⟩

instance : Record PermitRow where
  Conflict a b := a.permitID = b.permitID ∨ a.requestID = b.requestID
  decidableConflict := fun _ _ => inferInstance
  conflict_refl _ := Or.inl rfl
  conflict_symm := fun h => h.imp Eq.symm Eq.symm

instance : Record RateEventRow where
  Conflict a b := a.requestID = b.requestID
  decidableConflict := fun _ _ => inferInstance
  conflict_refl _ := rfl
  conflict_symm := Eq.symm

/-! ## The database -/

structure Db where
  runs : Table RunRow
  receipts : Table ReceiptRow
  cases : Table CaseRow
  summaries : Table SummaryRow
  queue : Table QueueRow
  permits : Table PermitRow
  rateEvents : Table RateEventRow

/-- The database right after the migrations ran on an empty one. -/
def Db.empty : Db :=
  ⟨Table.empty, Table.empty, Table.empty, Table.empty, Table.empty, Table.empty, Table.empty⟩

/-- What a repository transaction returns: its answer with the committed database, or an error and a rollback. -/
abbrev Transaction (α : Type) := Db → Except ApiError (α × Db)

/-! ## Reading by key -/

namespace Db

/-- `SELECT … FROM agentstorm_runs WHERE id = $1` -/
def run? (db : Db) (runID : String) : Option RunRow := db.runs.first? fun r => decide (r.id = runID)

/-- `SELECT … FROM agentstorm_shard_receipts WHERE run_id = $1 AND shard_index = $2` -/
def receipt? (db : Db) (runID : String) (shardIndex : Nat) : Option ReceiptRow :=
  db.receipts.first? fun r => decide (r.runID = runID ∧ r.shardIndex = shardIndex)

/-- The queue row of a shard. -/
def queue? (db : Db) (runID : String) (shardIndex : Nat) : Option QueueRow :=
  db.queue.first? fun r => decide (r.runID = runID ∧ r.shardIndex = shardIndex)

def summary? (db : Db) (runID : String) : Option SummaryRow :=
  db.summaries.first? fun r => decide (r.runID = runID)

variable {runID : String}

variable {db : Db}

theorem run?_eq_some {r : RunRow} : db.run? runID = some r ↔ r ∈ db.runs ∧ r.id = runID := by
  unfold run?
  rw [Table.first?_eq_some_iff]
  · simp
  · intro a b ha hb
    simp only [decide_eq_true_eq] at ha hb
    exact .inl (ha.trans hb.symm)

theorem receipt?_eq_some {shardIndex : Nat} {r : ReceiptRow} :
    db.receipt? runID shardIndex = some r ↔
      r ∈ db.receipts ∧ r.runID = runID ∧ r.shardIndex = shardIndex := by
  unfold receipt?
  rw [Table.first?_eq_some_iff]
  · simp
  · intro a b ha hb
    simp only [decide_eq_true_eq] at ha hb
    exact .inl ⟨ha.1.trans hb.1.symm, ha.2.trans hb.2.symm⟩

theorem queue?_eq_some {shardIndex : Nat} {r : QueueRow} :
    db.queue? runID shardIndex = some r ↔
      r ∈ db.queue ∧ r.runID = runID ∧ r.shardIndex = shardIndex := by
  unfold queue?
  rw [Table.first?_eq_some_iff]
  · simp
  · intro a b ha hb
    simp only [decide_eq_true_eq] at ha hb
    exact ⟨ha.1.trans hb.1.symm, ha.2.trans hb.2.symm⟩

theorem summary?_eq_some {r : SummaryRow} :
    db.summary? runID = some r ↔ r ∈ db.summaries ∧ r.runID = runID := by
  unfold summary?
  rw [Table.first?_eq_some_iff]
  · simp
  · intro a b ha hb
    simp only [decide_eq_true_eq] at ha hb
    exact ha.trans hb.symm

end Db

end AgentStorm.Results
