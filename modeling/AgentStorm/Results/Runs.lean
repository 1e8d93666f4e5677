import AgentStorm.Results.Schema

/-!
# `Results.Runs` — registering and terminating runs

The transactions of `internal/results/postgres.go` on the run row itself. Registration writes the run
and, for queued scheduling, one queue row per shard; it may be repeated. Termination writes the
terminal columns and cancels what is left of the queue. Every statement of the source is one table
operation below.
-/

namespace AgentStorm.Results

open Checks Relational Reliability

/-! ## `RegisterRun` -/

/-- Every text of a fault rule that is not an enumerated name. -/
def faultRuleTexts (rule : FaultRule) : List String := rule.name :: rule.fault :: rule.toolName :: rule.caseIDs

/-- Every text inside a registration document. -/
def Registration.texts (r : Registration) : List String :=
  [r.schemaVersion, r.source.namespace, r.source.name, r.target.provider, r.target.model,
    r.target.adapterEntrypoint, r.dataset.name, r.dataset.key] ++
  (match r.target.pricing with
    | some p => [p.inputUSDPerMillionTokens, p.outputUSDPerMillionTokens]
    | none => []) ++
  (match r.reliability.bind RunReliability.scenario with
    | some s => [s.source.name, s.source.key, s.digest, s.document.apiVersion, s.document.kind] ++
        (s.document.rules.getD []).flatMap faultRuleTexts
    | none => []) ++
  (match r.scheduling with
    | some s => [s.strategy, s.resourceProfile]
    | none => [])

/-- `jsonb` refuses a document with a NUL character in a string. -/
def Registration.storable (r : Registration) : Bool := r.texts.all fun s => !s.toList.contains (Char.ofNat 0)

/-- The row `RegisterRun` inserts, with the column defaults. -/
def newRun (now : Time) (runID key hash : String) (registration : Registration) : RunRow where
  id := runID
  registrationKey := key
  registrationHash := hash
  registration := registration
  expectedShards := registration.expectedShards.toNat
  status := .collecting
  createdAt := now
  updatedAt := now
  completedAt := none
  terminalKey := none
  terminalHash := none
  terminalReasonCode := none
  terminalAt := none

/-- A queue row with the column defaults. -/
def newQueueRow (runID : String) (shardIndex : Nat) : QueueRow where
  runID := runID
  shardIndex := shardIndex
  state := .queued
  leaseOwner := none
  leaseTokenHash := none
  leaseExpiresAt := none
  leaseCount := 0

/-- `INSERT … SELECT generate_series(0, n - 1) … ON CONFLICT DO NOTHING`, for one queue table. -/
def insertShards (runID : String) (n : Nat) (queue : Table QueueRow) : Table QueueRow :=
  (List.range n).foldl (fun t i => t.insertIgnore (newQueueRow runID i)) queue

def enqueueRunShards (runID : String) (registration : Registration) (db : Db) : Db :=
  if registration.queued then
    { db with queue := insertShards runID registration.expectedShards.toNat db.queue }
  else db

def registerRun (now : Time) (runID key hash : String) (registration : Registration) : Transaction Bool :=
  fun db => do
    -- The check constraint and the column types speak before `ON CONFLICT` does.
    reject (decide (registration.expectedShards ≤ 0)) (.internal "expected_shards must be positive")
    reject (decide (2 ^ 31 ≤ registration.expectedShards)) (.outOfRange "expected_shards")
    reject (!registration.storable) (.internal "registration contains NUL")
    match db.runs.insert (newRun now runID key hash registration) with
    | some runs => return (true, enqueueRunShards runID registration { db with runs := runs })
    | none =>
      let existing ← orElse (db.runs.first? fun r => decide (r.id = runID ∨ r.registrationKey = key))
        (.internal "read conflicting registration")
      reject (decide (existing.id ≠ runID ∨ existing.registrationKey ≠ key ∨ existing.registrationHash ≠ hash))
        .conflict
      return (false, enqueueRunShards runID registration db)

/-! ## `TerminateRun` -/

/-- The assignments of the terminal update. -/
def RunRow.terminate (now : Time) (key hash : String) (terminal : TerminalRequest) (r : RunRow) : RunRow :=
  { r with
    status := terminal.status, terminalKey := some key, terminalHash := some hash,
    terminalReasonCode := some terminal.reasonCode, terminalAt := some now, updatedAt := now }

/-- `SET state = …, lease_owner = NULL, lease_token_hash = NULL, lease_expires_at = NULL` -/
def QueueRow.settle (state : QueueState) (r : QueueRow) : QueueRow :=
  { r with state := state, leaseOwner := none, leaseTokenHash := none, leaseExpiresAt := none }

theorem keepsKeys_terminate (now : Time) (key hash : String) (terminal : TerminalRequest) :
    Table.KeepsKeys (RunRow.terminate now key hash terminal) := fun _ _ h => h

theorem keepsKeys_settle (state : QueueState) : Table.KeepsKeys (QueueRow.settle state) := fun _ _ h => h

/-- The two updates of a first termination. -/
def cancelRun (now : Time) (runID key hash : String) (terminal : TerminalRequest) (db : Db) : Db :=
  { db with
    runs := db.runs.update (fun r => decide (r.id = runID)) (RunRow.terminate now key hash terminal)
      (keepsKeys_terminate now key hash terminal)
    queue := db.queue.update (fun r => decide (r.runID = runID ∧ r.state ≠ .complete))
      (QueueRow.settle .cancelled) (keepsKeys_settle .cancelled) }

def terminateRun (now : Time) (runID key hash : String) (terminal : TerminalRequest) : Transaction Bool :=
  fun db => do
    let run ← orElse (db.run? runID) .notFound
    reject (decide (run.status = .complete)) .conflict
    if run.status.terminal then
      reject (decide (run.terminalKey ≠ some key ∨ run.terminalHash ≠ some hash ∨ run.status ≠ terminal.status))
        .conflict
      return (false, db)
    return (true, cancelRun now runID key hash terminal db)

/-! ## What a committed transaction did -/

theorem registerRun_ok {now : Time} {runID key hash : String} {registration : Registration} {db db' : Db}
    {created : Bool} (h : registerRun now runID key hash registration db = .ok (created, db')) :
    (∃ runs, db.runs.insert (newRun now runID key hash registration) = some runs ∧ created = true ∧
      db' = enqueueRunShards runID registration { db with runs := runs }) ∨
    (∃ existing ∈ db.runs, existing.id = runID ∧ existing.registrationHash = hash ∧ created = false ∧
      db' = enqueueRunShards runID registration db) := by
  simp only [registerRun, then_ok_iff, reject_eq_ok] at h
  obtain ⟨-, -, -, h⟩ := h
  split at h
  · rename_i runs hins
    cases h
    exact .inl ⟨runs, hins, rfl, rfl⟩
  · obtain ⟨existing, hfirst, h⟩ := bind_ok_iff.mp h
    simp only [then_ok_iff, reject_eq_ok, decide_eq_false_iff_not, not_or, Decidable.not_not] at h
    obtain ⟨⟨hid, -, hhash⟩, h⟩ := h
    cases h
    exact .inr ⟨existing, (Table.mem_of_first? (orElse_eq_ok.mp hfirst)).1, hid, hhash, rfl, rfl⟩

theorem terminateRun_ok {now : Time} {runID key hash : String} {terminal : TerminalRequest} {db db' : Db}
    {created : Bool} (h : terminateRun now runID key hash terminal db = .ok (created, db')) :
    ∃ run, db.run? runID = some run ∧
      ((run.status.terminal = true ∧ created = false ∧ db' = db) ∨
       (run.status = .collecting ∧ created = true ∧ db' = cancelRun now runID key hash terminal db)) := by
  unfold terminateRun at h
  obtain ⟨run, hrun, h⟩ := bind_ok_iff.mp h
  simp only [then_ok_iff, reject_eq_ok, decide_eq_false_iff_not] at h
  obtain ⟨hcomplete, h⟩ := h
  refine ⟨run, orElse_eq_ok.mp hrun, ?_⟩
  split at h
  · rename_i hterminal
    simp only [then_ok_iff, reject_eq_ok] at h
    cases Except.ok.inj h.2
    exact .inl ⟨hterminal, rfl, rfl⟩
  · rename_i hopen
    cases h
    refine .inr ⟨?_, rfl, rfl⟩
    cases hs : run.status with
    | collecting => rfl
    | complete => exact absurd hs hcomplete
    | cancelled => simp [hs, RunStatus.terminal] at hopen
    | harnessFailed => simp [hs, RunStatus.terminal] at hopen

end AgentStorm.Results
