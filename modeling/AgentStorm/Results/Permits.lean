import AgentStorm.Results.Queue

/-!
# `Results.Permits` — distributed execution permits

The permit transactions of `internal/results/postgres.go`. `AcquirePermit` runs under an advisory lock: it prunes
old permits, answers a repeated request from the stored permit, and otherwise counts the active permits and the
last minute's requests against the limit policy before it adds one.
-/

namespace AgentStorm.Results

open Checks Relational

def microsPerMinute : Time := 60 * 1000000
def microsPerHour : Time := 60 * microsPerMinute

namespace PermitRow

/-- `released_at IS NULL AND lease_expires_at > now()` -/
def activeAt (now : Time) (r : PermitRow) : Bool := r.releasedAt.isNone && decide (now < r.leaseExpiresAt)

/-- `updated_at < now() - interval '1 hour' AND (released_at IS NOT NULL OR lease_expires_at <= now())` -/
def prunableAt (now : Time) (r : PermitRow) : Bool :=
  decide (r.updatedAt < now - microsPerHour) && (r.releasedAt.isSome || decide (r.leaseExpiresAt ≤ now))

/-- A repeated acquisition: new token and expiry on the stored permit. -/
def refresh (now : Time) (leaseHash : String) (expiresAt : Time) (r : PermitRow) : PermitRow :=
  { r with leaseTokenHash := leaseHash, leaseExpiresAt := expiresAt, updatedAt := now }

def renew (now expiresAt : Time) (r : PermitRow) : PermitRow :=
  { r with leaseExpiresAt := expiresAt, updatedAt := now }

/-- `released_at = COALESCE(released_at, now())` -/
def release (now : Time) (r : PermitRow) : PermitRow :=
  { r with releasedAt := some (r.releasedAt.getD now), updatedAt := now }

end PermitRow

theorem keepsKeys_refresh (now : Time) (leaseHash : String) (expiresAt : Time) :
    Table.KeepsKeys (PermitRow.refresh now leaseHash expiresAt) := fun _ _ h => h

theorem keepsKeys_renew (now expiresAt : Time) : Table.KeepsKeys (PermitRow.renew now expiresAt) :=
  fun _ _ h => h

theorem keepsKeys_release (now : Time) : Table.KeepsKeys (PermitRow.release now) := fun _ _ h => h

/-! ## `AcquirePermit` -/

/-- A limit of zero is no limit. -/
def atLimit (limit used : Nat) : Bool := decide (0 < limit ∧ limit ≤ used)

/-- The new permit's row. -/
def newPermit (now : Time) (permitID runID : String) (request : PermitRequest) (leaseHash : String)
    (expiresAt : Time) : PermitRow where
  permitID := permitID
  requestID := request.requestID
  runID := runID
  workerID := request.workerID
  provider := request.provider
  leaseTokenHash := leaseHash
  leaseExpiresAt := expiresAt
  releasedAt := none
  updatedAt := now

/-- Count against the policy, then insert permit and rate event and prune the rate events. -/
def grantPermit (now : Time) (runID : String) (request : PermitRequest) (permitID leaseHash : String)
    (policy : LimitPolicy) : Transaction (String × Time) :=
  fun db => do
    let providerLimit := policy.providers request.provider
    let globalActive := db.permits.count (PermitRow.activeAt now)
    let providerActive := db.permits.count fun r => decide (r.provider = request.provider) && r.activeAt now
    let recent (r : RateEventRow) : Bool := decide (now - microsPerMinute < r.occurredAt)
    let globalRate := db.rateEvents.count recent
    let providerRate := db.rateEvents.count fun r => decide (r.provider = request.provider) && recent r
    reject (atLimit policy.global.maxConcurrency globalActive || atLimit providerLimit.maxConcurrency providerActive)
      (.capacity 250)
    reject (atLimit policy.global.requestsPerMinute globalRate || atLimit providerLimit.requestsPerMinute providerRate)
      (.capacity 1000)
    let expiresAt := leaseUntil now policy.leaseDurationMS
    let permits ← orElse (db.permits.insert (newPermit now permitID runID request leaseHash expiresAt))
      (.internal "persist execution permit")
    let rateEvents ← orElse (db.rateEvents.insert ⟨request.requestID, request.provider, now⟩)
      (.internal "persist rate event")
    return ((permitID, expiresAt), { db with
      permits := permits
      rateEvents := rateEvents.delete fun r => decide (r.occurredAt < now - microsPerHour) })

/-- The stored permit of a repeated request gets the new token and expiry. -/
def refreshPermit (now : Time) (permitID leaseHash : String) (expiresAt : Time) (db : Db) : Db :=
  { db with
    permits := db.permits.update (fun r => decide (r.permitID = permitID))
      (PermitRow.refresh now leaseHash expiresAt) (keepsKeys_refresh now leaseHash expiresAt) }

def prunePermits (now : Time) (db : Db) : Db :=
  { db with permits := db.permits.delete (PermitRow.prunableAt now) }

/-- Everything after the prune. -/
def acquireFrom (now : Time) (runID : String) (request : PermitRequest) (permitID leaseHash : String)
    (policy : LimitPolicy) : Transaction (String × Time) :=
  fun db => do
    let run ← orElse (db.run? runID) .notFound
    reject (decide (run.status ≠ .collecting)) .leaseLost
    reject (decide (run.registration.target.provider ≠ request.provider))
      (.validation "permit provider does not match registered run")
    match db.permits.first? fun r => decide (r.requestID = request.requestID) with
    | some existing => do
        reject (!existing.activeAt now) .leaseLost
        let expiresAt := leaseUntil now policy.leaseDurationMS
        return ((existing.permitID, expiresAt), refreshPermit now existing.permitID leaseHash expiresAt db)
    | none => grantPermit now runID request permitID leaseHash policy db

def acquirePermit (now : Time) (runID : String) (request : PermitRequest) (permitID leaseHash : String)
    (policy : LimitPolicy) : Transaction (String × Time) :=
  fun db => acquireFrom now runID request permitID leaseHash policy (prunePermits now db)

/-! ## `RenewPermit` and `ReleasePermit` -/

/-- `run_id = $1 AND permit_id = $2 AND lease_token_hash = $3` -/
def permitUnder (runID permitID leaseHash : String) (r : PermitRow) : Bool :=
  decide (r.runID = runID ∧ r.permitID = permitID ∧ r.leaseTokenHash = leaseHash)

/-- The permit can be renewed: the token matches and the lease is active. -/
def permitRenewable (now : Time) (runID permitID leaseHash : String) (r : PermitRow) : Bool :=
  permitUnder runID permitID leaseHash r && r.activeAt now

def renewPermit (now : Time) (runID permitID leaseHash : String) (durationMS : Int) : Transaction Time :=
  fun db => do
    let expiresAt := leaseUntil now durationMS
    let _ ← orElse (db.permits.first? (permitRenewable now runID permitID leaseHash)) .leaseLost
    return (expiresAt, { db with
      permits := db.permits.update (permitRenewable now runID permitID leaseHash) (PermitRow.renew now expiresAt)
        (keepsKeys_renew now expiresAt) })

def releasePermit (now : Time) (runID permitID leaseHash : String) : Transaction Unit :=
  fun db => do
    let _ ← orElse (db.permits.first? (permitUnder runID permitID leaseHash)) .leaseLost
    return ((), { db with
      permits := db.permits.update (permitUnder runID permitID leaseHash) (PermitRow.release now)
        (keepsKeys_release now) })

/-! ## What a committed transaction did -/

variable {now : Time} {permitID runID : String} {request : PermitRequest} {policy : LimitPolicy}
  {db db' : Db} {result : String × Time}

/-- A rate event of the last minute. -/
def RateEventRow.recentAt (now : Time) (r : RateEventRow) : Bool := decide (now - microsPerMinute < r.occurredAt)

/-- What a new permit was counted against, and what it added. -/
structure PermitGranted (now : Time) (runID : String) (request : PermitRequest) (permitID leaseHash : String)
    (policy : LimitPolicy) (db : Db) (result : String × Time) (db' : Db) : Prop where
  globalActive : atLimit policy.global.maxConcurrency (db.permits.count (PermitRow.activeAt now)) = false
  providerActive : atLimit (policy.providers request.provider).maxConcurrency
    (db.permits.count fun r => decide (r.provider = request.provider) && r.activeAt now) = false
  globalRate : atLimit policy.global.requestsPerMinute (db.rateEvents.count (RateEventRow.recentAt now)) = false
  providerRate : atLimit (policy.providers request.provider).requestsPerMinute
    (db.rateEvents.count fun r => decide (r.provider = request.provider) && r.recentAt now) = false
  result_eq : result = (permitID, leaseUntil now policy.leaseDurationMS)
  stored : ∃ permits rateEvents,
    db.permits.insert (newPermit now permitID runID request leaseHash (leaseUntil now policy.leaseDurationMS)) =
      some permits ∧
    db.rateEvents.insert ⟨request.requestID, request.provider, now⟩ = some rateEvents ∧
    db' = { db with
      permits := permits
      rateEvents := rateEvents.delete fun r => decide (r.occurredAt < now - microsPerHour) }

theorem grantPermit_ok {leaseHash : String}
    (h : grantPermit now runID request permitID leaseHash policy db = .ok (result, db')) :
    PermitGranted now runID request permitID leaseHash policy db result db' := by
  simp only [grantPermit, then_ok_iff, reject_eq_ok, Bool.or_eq_false_iff] at h
  obtain ⟨⟨hglobal, hprovider⟩, ⟨hglobalRate, hproviderRate⟩, h⟩ := h
  obtain ⟨permits, hpermits, h⟩ := bind_ok_iff.mp h
  obtain ⟨rateEvents, hevents, h⟩ := bind_ok_iff.mp h
  obtain ⟨hresult, rfl⟩ := Prod.mk.inj (Except.ok.inj h)
  exact ⟨hglobal, hprovider, hglobalRate, hproviderRate, hresult.symm, permits, rateEvents, orElse_eq_ok.mp hpermits,
    orElse_eq_ok.mp hevents, rfl⟩

/-- The stored permit of a request. -/
def Db.permit? (db : Db) (requestID : String) : Option PermitRow :=
  db.permits.first? fun r => decide (r.requestID = requestID)

theorem Db.permit?_eq_some {requestID : String} {r : PermitRow} :
    db.permit? requestID = some r ↔ r ∈ db.permits ∧ r.requestID = requestID := by
  unfold permit?
  rw [Table.first?_eq_some_iff]
  · simp
  · intro a b ha hb
    simp only [decide_eq_true_eq] at ha hb
    exact .inr (ha.trans hb.symm)

/-- An acquisition answers from the stored permit of its request, or grants a new one. -/
theorem acquireFrom_ok {leaseHash : String}
    (h : acquireFrom now runID request permitID leaseHash policy db = .ok (result, db')) :
    ∃ run, db.run? runID = some run ∧ run.status = .collecting ∧ run.registration.target.provider = request.provider ∧
      ((∃ existing, db.permit? request.requestID = some existing ∧ existing.activeAt now = true ∧
        result = (existing.permitID, leaseUntil now policy.leaseDurationMS) ∧
        db' = refreshPermit now existing.permitID leaseHash (leaseUntil now policy.leaseDurationMS) db) ∨
      (db.permit? request.requestID = none ∧
        PermitGranted now runID request permitID leaseHash policy db result db')) := by
  unfold acquireFrom at h
  obtain ⟨run, hrun, h⟩ := bind_ok_iff.mp h
  simp only [then_ok_iff, reject_eq_ok, decide_eq_false_iff_not, Decidable.not_not] at h
  obtain ⟨hstatus, hprovider, h⟩ := h
  refine ⟨run, orElse_eq_ok.mp hrun, hstatus, hprovider, ?_⟩
  split at h
  · rename_i existing hexisting
    simp only [then_ok_iff, reject_eq_ok, Bool.not_eq_false'] at h
    obtain ⟨hactive, h⟩ := h
    obtain ⟨hresult, rfl⟩ := Prod.mk.inj (Except.ok.inj h)
    exact .inl ⟨existing, hexisting, hactive, hresult.symm, rfl⟩
  · rename_i hnone
    exact .inr ⟨hnone, grantPermit_ok h⟩

theorem renewPermit_ok {leaseHash : String} {durationMS : Int} {expiresAt : Time}
    (h : renewPermit now runID permitID leaseHash durationMS db = .ok (expiresAt, db')) :
    db' = { db with
      permits := db.permits.update (permitRenewable now runID permitID leaseHash)
        (PermitRow.renew now (leaseUntil now durationMS)) (keepsKeys_renew now (leaseUntil now durationMS)) } := by
  unfold renewPermit at h
  obtain ⟨_, -, h⟩ := bind_ok_iff.mp h
  exact (Prod.mk.inj (Except.ok.inj h)).2.symm

theorem releasePermit_ok {leaseHash : String} {u : Unit}
    (h : releasePermit now runID permitID leaseHash db = .ok (u, db')) :
    db' = { db with
      permits := db.permits.update (permitUnder runID permitID leaseHash) (PermitRow.release now)
        (keepsKeys_release now) } := by
  unfold releasePermit at h
  obtain ⟨_, -, h⟩ := bind_ok_iff.mp h
  exact (Prod.mk.inj (Except.ok.inj h)).2.symm

/-- Permit transactions write permits and rate events only. -/
theorem acquirePermit_frame {leaseHash : String}
    (h : acquirePermit now runID request permitID leaseHash policy db = .ok (result, db')) :
    ∃ permits rateEvents, db' = { db with permits := permits, rateEvents := rateEvents } := by
  obtain ⟨_, -, -, -, ⟨_, -, -, -, rfl⟩ | ⟨-, hgrant⟩⟩ := acquireFrom_ok h
  · exact ⟨_, _, rfl⟩
  · obtain ⟨permits, _, -, -, rfl⟩ := hgrant.stored
    exact ⟨permits, _, rfl⟩

end AgentStorm.Results
