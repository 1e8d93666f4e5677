import AgentStorm.Foundation.Machine
import AgentStorm.Results.Permits
import AgentStorm.Results.Validate

/-!
# `Results.Service` — the Result API as a transactional machine

Each service function of `internal/results/service.go` validates its arguments, derives hashes and
keys, and runs one repository transaction. `Op` lists these with the arguments a client sends and the
randomness the service draws. An upload is two of them, with an object write in between that the
database does not see. Every transaction carries the database time it began at; the results that need
times to grow ask for it.
-/

namespace AgentStorm.Results

open Checks Machine Relational Text

/-! ## Uploads -/

/-- The arguments of one `UploadShardWithLease` call. -/
structure UploadCall where
  runID : String
  shardIndex : Int
  idempotencyKey : String
  leaseToken : String
  upload : ShardUpload
  deriving DecidableEq

namespace UploadCall

variable (P : Platform) (c : UploadCall)

/-- The document the call stores. -/
def document : ShardUpload := normalizeShard c.upload

def payload : Bytes := P.marshalUpload c.document

def payloadHash : String := P.payloadHash c.document

def objectKey : String := Results.objectKey c.runID c.shardIndex (c.payloadHash P)

def leaseHash : String := P.tokenHash c.leaseToken

def validate : Except ApiError Unit := validateShard P c.runID c.shardIndex c.idempotencyKey c.upload

/-- `validateShard` and `ReserveShard`. -/
def reserve (now : Time) : Transaction ShardReservation := fun db => do
  c.validate P
  reserveShard now c.runID c.shardIndex.toNat c.idempotencyKey (c.payloadHash P) (c.objectKey P) (c.leaseHash P)
    c.document.summary db

/-- `FinalizeShard` for a validated call. -/
def finalize (now wall : Time) (pricing : Option RunPricing) : Transaction Bool := fun db => do
  c.validate P
  finalizeShard P now wall c.runID c.shardIndex.toNat (c.payloadHash P) (c.leaseHash P) c.document.cases pricing db

end UploadCall

/-! ## Scheduling -/

def shardLeaseDurationMS : Int := 45 * 1000

/-- What `randomDatabaseIdentifier` returns: 16 random bytes in hexadecimal. -/
structure RandomIdentifier where
  text : String
  shape : hexPattern 32 text = true

def serviceClaimShard (P : Platform) (now : Time) (runID workerID : String) (token : SchedulerToken) :
    Transaction QueueClaim := fun db => do
  validateRunID runID
  invalid (blank workerID || invalidText workerID 253) "worker_id is required and must not exceed 253 bytes"
  let ((index, expiresAt), db') ← claimShard now runID workerID (P.tokenHash token.text) shardLeaseDurationMS db
  return (⟨index, token.text, expiresAt, shardLeaseDurationMS / 3⟩, db')

def serviceRenewShardLease (P : Platform) (now : Time) (runID : String) (shardIndex : Int) (leaseToken : String) :
    Transaction QueueLease := fun db => do
  validateRunID runID
  invalid (decide (shardIndex < 0) || blank leaseToken || invalidText leaseToken 512)
    "valid shard index and lease_token are required"
  let (expiresAt, db') ←
    renewShardLease now runID shardIndex.toNat (P.tokenHash leaseToken) shardLeaseDurationMS db
  return (⟨expiresAt, shardLeaseDurationMS / 3⟩, db')

def serviceAcquirePermit (P : Platform) (policy : LimitPolicy) (now : Time) (runID : String)
    (request : PermitRequest) (permitID : RandomIdentifier) (token : SchedulerToken) :
    Transaction PermitGrant := fun db => do
  validateRunID runID
  invalid (!hexPattern 64 request.requestID) "request_id must be a lowercase SHA-256 digest"
  invalid (blank request.workerID || invalidText request.workerID 253 || blank request.provider ||
    invalidText request.provider 128) "worker_id and provider are required"
  let ((id, expiresAt), db') ←
    acquirePermit now runID request permitID.text (P.tokenHash token.text) policy db
  return (⟨id, token.text, expiresAt, policy.leaseDurationMS / 3⟩, db')

def serviceRenewPermit (P : Platform) (policy : LimitPolicy) (now : Time) (runID permitID leaseToken : String) :
    Transaction PermitLease := fun db => do
  validateSchedulerLease runID permitID leaseToken
  let (expiresAt, db') ← renewPermit now runID permitID (P.tokenHash leaseToken) policy.leaseDurationMS db
  return (⟨expiresAt, policy.leaseDurationMS / 3⟩, db')

def serviceReleasePermit (P : Platform) (now : Time) (runID permitID leaseToken : String) : Transaction Unit :=
  fun db => do
    validateSchedulerLease runID permitID leaseToken
    releasePermit now runID permitID (P.tokenHash leaseToken) db

/-! ## Runs -/

def serviceRegisterRun (P : Platform) (now : Time) (runID idempotencyKey : String) (registration : Registration) :
    Transaction Bool := fun db => do
  validateRegistration P runID idempotencyKey registration
  registerRun now runID idempotencyKey (P.registrationHash registration) registration db

def serviceTerminateRun (P : Platform) (now : Time) (runID idempotencyKey : String) (terminal : TerminalRequest) :
    Transaction Bool := fun db => do
  validateTerminal runID idempotencyKey terminal
  terminateRun now runID idempotencyKey (P.terminalHash terminal) terminal db

/-! ## The machine -/

inductive Op
  | registerRun (runID idempotencyKey : String) (registration : Registration)
  | terminateRun (runID idempotencyKey : String) (terminal : TerminalRequest)
  | claimShard (runID workerID : String) (token : SchedulerToken)
  | renewShardLease (runID : String) (shardIndex : Int) (leaseToken : String)
  | reserveShard (call : UploadCall)
  | finalizeShard (call : UploadCall) (pricing : Option RunPricing)
  | acquirePermit (runID : String) (request : PermitRequest) (permitID : RandomIdentifier) (token : SchedulerToken)
  | renewPermit (runID permitID leaseToken : String)
  | releasePermit (runID permitID leaseToken : String)

inductive Answer
  | registered (created : Bool)
  | terminated (created : Bool)
  | claimed (claim : QueueClaim)
  | renewed (lease : QueueLease)
  | reserved (reservation : ShardReservation)
  | finalized (created : Bool)
  | granted (grant : PermitGrant)
  | permitRenewed (lease : PermitLease)
  | released
  deriving DecidableEq

/-- A transaction as it happens: the operation, the database time at its begin and the API's own clock. -/
structure Txn where
  op : Op
  now : Time
  wall : Time

/-- Wrap a transaction's answer. -/
def answering {α : Type} (wrap : α → Answer) (t : Transaction α) : Transaction Answer :=
  fun db => (t db).map fun r => (wrap r.1, r.2)

def machine (P : Platform) (policy : LimitPolicy) : Transactional Db Txn Answer ApiError where
  exec t :=
    match t.op with
    | .registerRun runID key registration =>
      answering .registered (serviceRegisterRun P t.now runID key registration)
    | .terminateRun runID key terminal =>
      answering .terminated (serviceTerminateRun P t.now runID key terminal)
    | .claimShard runID workerID token =>
      answering .claimed (serviceClaimShard P t.now runID workerID token)
    | .renewShardLease runID shardIndex leaseToken =>
      answering .renewed (serviceRenewShardLease P t.now runID shardIndex leaseToken)
    | .reserveShard call => answering .reserved (call.reserve P t.now)
    | .finalizeShard call pricing => answering .finalized (call.finalize P t.now t.wall pricing)
    | .acquirePermit runID request permitID token =>
      answering .granted (serviceAcquirePermit P policy t.now runID request permitID token)
    | .renewPermit runID permitID leaseToken =>
      answering .permitRenewed (serviceRenewPermit P policy t.now runID permitID leaseToken)
    | .releasePermit runID permitID leaseToken =>
      answering (fun _ => .released) (serviceReleasePermit P t.now runID permitID leaseToken)

/-! ## Committed permit transactions -/

section Permits

variable {P : Platform} {policy : LimitPolicy} {runID : String} {now wall : Time} {db db' : Db} {a : Answer}

/-- The checks of `AcquirePermit` before the repository is called. -/
structure PermitRequestValid (runID : String) (request : PermitRequest) : Prop where
  runID : validateRunID runID = .ok ()
  requestID : hexPattern 64 request.requestID = true
  names : (blank request.workerID || invalidText request.workerID 253 || blank request.provider ||
    invalidText request.provider 128) = false

theorem exec_acquirePermit {request : PermitRequest} (hvalid : PermitRequestValid runID request)
    (permitID : RandomIdentifier) (token : SchedulerToken) :
    (machine P policy).exec ⟨.acquirePermit runID request permitID token, now, wall⟩ db =
      (acquirePermit now runID request permitID.text (P.tokenHash token.text) policy db).map fun r =>
        (.granted ⟨r.1.1, token.text, r.1.2, policy.leaseDurationMS / 3⟩, r.2) := by
  have hexec : (machine P policy).exec ⟨.acquirePermit runID request permitID token, now, wall⟩ db =
    answering .granted (serviceAcquirePermit P policy now runID request permitID token) db := rfl
  rw [hexec, answering, serviceAcquirePermit, hvalid.runID, hvalid.requestID, hvalid.names]
  cases acquirePermit now runID request permitID.text (P.tokenHash token.text) policy db <;> rfl

theorem exec_acquirePermit_ok {request : PermitRequest} {permitID : RandomIdentifier} {token : SchedulerToken}
    (h : (machine P policy).exec ⟨.acquirePermit runID request permitID token, now, wall⟩ db = .ok (a, db')) :
    PermitRequestValid runID request ∧ ∃ result,
      acquirePermit now runID request permitID.text (P.tokenHash token.text) policy db = .ok (result, db') ∧
      a = .granted ⟨result.1, token.text, result.2, policy.leaseDurationMS / 3⟩ := by
  obtain ⟨⟨_, _⟩, hexec, heq⟩ := map_ok_iff.mp h
  cases heq
  obtain ⟨hrunID, hexec⟩ := then_ok_iff.mp hexec
  obtain ⟨hrequestID, hexec⟩ := then_ok_iff.mp hexec
  obtain ⟨hnames, hexec⟩ := then_ok_iff.mp hexec
  obtain ⟨⟨result, _⟩, hacquire, hreturn⟩ := bind_ok_iff.mp hexec
  cases hreturn
  refine ⟨⟨hrunID, ?_, reject_eq_ok.mp hnames⟩, result, hacquire, rfl⟩
  simpa using reject_eq_ok.mp hrequestID

theorem exec_renewPermit_ok {permitID leaseToken : String}
    (h : (machine P policy).exec ⟨.renewPermit runID permitID leaseToken, now, wall⟩ db = .ok (a, db')) :
    ∃ expiresAt, renewPermit now runID permitID (P.tokenHash leaseToken) policy.leaseDurationMS db = .ok (expiresAt, db') ∧
      a = .permitRenewed ⟨expiresAt, policy.leaseDurationMS / 3⟩ := by
  obtain ⟨⟨_, _⟩, hexec, heq⟩ := map_ok_iff.mp h
  cases heq
  obtain ⟨-, hexec⟩ := then_ok_iff.mp hexec
  obtain ⟨⟨expiresAt, _⟩, hrenew, hreturn⟩ := bind_ok_iff.mp hexec
  cases hreturn
  exact ⟨expiresAt, hrenew, rfl⟩

theorem exec_releasePermit_ok {permitID leaseToken : String}
    (h : (machine P policy).exec ⟨.releasePermit runID permitID leaseToken, now, wall⟩ db = .ok (a, db')) :
    releasePermit now runID permitID (P.tokenHash leaseToken) db = .ok ((), db') ∧ a = .released := by
  obtain ⟨⟨u, _⟩, hexec, heq⟩ := map_ok_iff.mp h
  cases heq
  exact ⟨(then_ok_iff.mp hexec).2, rfl⟩

end Permits

/-! ## Time -/

/-- The database clock does not go back from one transaction to the next. -/
def Clocked (es : List Txn) : Prop := (es.map Txn.now).Pairwise (· ≤ ·)

theorem Clocked.left {es fs : List Txn} (h : Clocked (es ++ fs)) : Clocked es := by
  unfold Clocked at h
  rw [List.map_append, List.pairwise_append] at h
  exact h.1

theorem Clocked.le {es fs : List Txn} (h : Clocked (es ++ fs)) {t u : Txn} (ht : t ∈ es) (hu : u ∈ fs) :
    t.now ≤ u.now := by
  unfold Clocked at h
  rw [List.map_append, List.pairwise_append] at h
  exact h.2.2 _ (List.mem_map_of_mem ht) _ (List.mem_map_of_mem hu)

end AgentStorm.Results
