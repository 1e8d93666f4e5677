import AgentStorm.Results.Runs

/-!
# `Results.Queue` — claiming and renewing queued shards

The queue transactions of `internal/results/postgres.go`. A claim first looks for an unexpired lease its worker
already has and puts the new token on it; otherwise it takes the claimable shard with the lowest index. SQL
comparisons with NULL are not true, so a row without expiry is neither live nor expired.
-/

namespace AgentStorm.Results

open Checks Relational

/-- `now() + (duration * interval '1 millisecond')` -/
def leaseUntil (now : Time) (durationMS : Int) : Time := now + durationMS * 1000

namespace QueueRow

/-- `state = 'leased' AND lease_expires_at > now()` -/
def liveAt (now : Time) (r : QueueRow) : Bool :=
  decide (r.state = .leased) && r.leaseExpiresAt.any fun e => decide (now < e)

/-- `state = 'queued' OR (state = 'leased' AND lease_expires_at <= now())` -/
def claimableAt (now : Time) (r : QueueRow) : Bool :=
  decide (r.state = .queued) ||
    (decide (r.state = .leased) && r.leaseExpiresAt.any fun e => decide (e ≤ now))

/-- The row carries an unexpired lease under this token hash. -/
def openedBy (now : Time) (leaseHash : String) (r : QueueRow) : Bool :=
  r.liveAt now && decide (r.leaseTokenHash = some leaseHash)

/-- A repeated claim: new token, new expiry, same owner. -/
def relet (leaseHash : String) (expiresAt : Time) (r : QueueRow) : QueueRow :=
  { r with leaseTokenHash := some leaseHash, leaseExpiresAt := some expiresAt }

/-- A first claim of a queued or abandoned shard. -/
def lease (owner leaseHash : String) (expiresAt : Time) (r : QueueRow) : QueueRow :=
  { r with
    state := .leased, leaseOwner := some owner, leaseTokenHash := some leaseHash,
    leaseExpiresAt := some expiresAt, leaseCount := r.leaseCount + 1 }

def extend (expiresAt : Time) (r : QueueRow) : QueueRow := { r with leaseExpiresAt := some expiresAt }

end QueueRow

theorem keepsKeys_relet (leaseHash : String) (expiresAt : Time) :
    Table.KeepsKeys (QueueRow.relet leaseHash expiresAt) := fun _ _ h => h

theorem keepsKeys_lease (owner leaseHash : String) (expiresAt : Time) :
    Table.KeepsKeys (QueueRow.lease owner leaseHash expiresAt) := fun _ _ h => h

theorem keepsKeys_extend (expiresAt : Time) : Table.KeepsKeys (QueueRow.extend expiresAt) := fun _ _ h => h

/-! ## `ClaimShard` -/

/-- The rows a repeated claim updates. -/
def heldBy (now : Time) (runID workerID : String) (r : QueueRow) : Bool :=
  decide (r.runID = runID ∧ r.leaseOwner = some workerID) && r.liveAt now

/-- `SELECT shard_index … ORDER BY shard_index … LIMIT 1` over the claimable rows of a run. -/
def candidate? (now : Time) (runID : String) (queue : Table QueueRow) : Option QueueRow :=
  (queue.select fun r => decide (r.runID = runID) && r.claimableAt now).argmin QueueRow.shardIndex

/-- The update of a repeated claim: every unexpired lease the worker has in the run gets the new token. -/
def reletShards (now : Time) (runID workerID leaseHash : String) (expiresAt : Time) (db : Db) : Db :=
  { db with
    queue := db.queue.update (heldBy now runID workerID) (QueueRow.relet leaseHash expiresAt)
      (keepsKeys_relet leaseHash expiresAt) }

/-- The update of a first claim. -/
def leaseShard (runID : String) (shardIndex : Nat) (workerID leaseHash : String) (expiresAt : Time) (db : Db) : Db :=
  { db with
    queue := db.queue.update (fun r => decide (r.runID = runID ∧ r.shardIndex = shardIndex))
      (QueueRow.lease workerID leaseHash expiresAt) (keepsKeys_lease workerID leaseHash expiresAt) }

def claimShard (now : Time) (runID workerID leaseHash : String) (durationMS : Int) : Transaction (Nat × Time) :=
  fun db => do
    let run ← orElse (db.run? runID) .notFound
    reject (!run.registration.queued) (.validation "run does not use queued scheduling")
    reject (decide (run.status ≠ .collecting)) .queueEmpty
    let expiresAt := leaseUntil now durationMS
    match db.queue.first? (heldBy now runID workerID) with
    | some held => return ((held.shardIndex, expiresAt), reletShards now runID workerID leaseHash expiresAt db)
    | none =>
      let candidate ← orElse (candidate? now runID db.queue) .queueEmpty
      return ((candidate.shardIndex, expiresAt),
        leaseShard runID candidate.shardIndex workerID leaseHash expiresAt db)

/-! ## `RenewShardLease` -/

def renewable (now : Time) (runID : String) (shardIndex : Nat) (leaseHash : String) (r : QueueRow) : Bool :=
  decide (r.runID = runID ∧ r.shardIndex = shardIndex) && r.openedBy now leaseHash

def extendLease (now : Time) (runID : String) (shardIndex : Nat) (leaseHash : String) (expiresAt : Time) (db : Db) :
    Db :=
  { db with
    queue := db.queue.update (renewable now runID shardIndex leaseHash) (QueueRow.extend expiresAt)
      (keepsKeys_extend expiresAt) }

def renewShardLease (now : Time) (runID : String) (shardIndex : Nat) (leaseHash : String) (durationMS : Int) :
    Transaction Time :=
  fun db => do
    let expiresAt := leaseUntil now durationMS
    let _ ← orElse (db.queue.first? (renewable now runID shardIndex leaseHash)) .leaseLost
    return (expiresAt, extendLease now runID shardIndex leaseHash expiresAt db)

/-! ## `QueueStatus` -/

def queueStatus (now : Time) (runID : String) (db : Db) : Except ApiError QueueStatus := do
  let run ← orElse (db.run? runID) .notFound
  let pending := db.queue.count fun r => decide (r.runID = runID) && r.claimableAt now
  return {
    pending := pending
    available := if run.status = .collecting then pending else 0
    leased := db.queue.count fun r => decide (r.runID = runID) && r.liveAt now
    completed := db.queue.count fun r => decide (r.runID = runID) && decide (r.state = .complete)
    expected := run.expectedShards
    runStatus := run.status
    thresholdsPassed := (db.summary? runID).map fun s => s.aggregate.thresholdsPassed }

/-! ## What a committed transaction did -/

theorem claimShard_ok {now : Time} {runID workerID leaseHash : String} {durationMS : Int} {db db' : Db}
    {result : Nat × Time} (h : claimShard now runID workerID leaseHash durationMS db = .ok (result, db')) :
    ∃ run, db.run? runID = some run ∧ run.registration.queued = true ∧ run.status = .collecting ∧
      ((∃ held, db.queue.first? (heldBy now runID workerID) = some held ∧
          result = (held.shardIndex, leaseUntil now durationMS) ∧
          db' = reletShards now runID workerID leaseHash (leaseUntil now durationMS) db) ∨
       (∃ candidate, db.queue.first? (heldBy now runID workerID) = none ∧
          candidate? now runID db.queue = some candidate ∧
          result = (candidate.shardIndex, leaseUntil now durationMS) ∧
          db' = leaseShard runID candidate.shardIndex workerID leaseHash (leaseUntil now durationMS) db)) := by
  unfold claimShard at h
  obtain ⟨run, hrun, h⟩ := bind_ok_iff.mp h
  simp only [then_ok_iff, reject_eq_ok, decide_eq_false_iff_not, Decidable.not_not, Bool.not_eq_false'] at h
  obtain ⟨hqueued, hstatus, h⟩ := h
  refine ⟨run, orElse_eq_ok.mp hrun, hqueued, hstatus, ?_⟩
  split at h
  · rename_i held hheld
    cases h
    exact .inl ⟨held, hheld, rfl, rfl⟩
  · rename_i hnone
    obtain ⟨candidate, hcandidate, h⟩ := bind_ok_iff.mp h
    cases h
    exact .inr ⟨candidate, hnone, orElse_eq_ok.mp hcandidate, rfl, rfl⟩

theorem renewShardLease_ok {now : Time} {runID leaseHash : String} {shardIndex : Nat} {durationMS : Int} {db db' : Db}
    {expiresAt : Time} (h : renewShardLease now runID shardIndex leaseHash durationMS db = .ok (expiresAt, db')) :
    (∃ row ∈ db.queue, renewable now runID shardIndex leaseHash row = true) ∧
      expiresAt = leaseUntil now durationMS ∧
      db' = extendLease now runID shardIndex leaseHash (leaseUntil now durationMS) db := by
  unfold renewShardLease at h
  obtain ⟨row, hrow, h⟩ := bind_ok_iff.mp h
  cases h
  have hmem := Table.mem_of_first? (orElse_eq_ok.mp hrow)
  exact ⟨⟨row, hmem.1, hmem.2⟩, rfl, rfl⟩

end AgentStorm.Results
