import AgentStorm.Results.Changes
import AgentStorm.Results.Reference

/-!
# `Results.Caps` — permits never exceed the concurrency limits

The number of active permits falls by itself as time passes and only a transaction can raise it.
`PermitsChange` lists what transactions do to the permit table; `PermitsChange.inUse_le` shows that
what is active after one of them was active before it, except for one new permit that was counted
against the limits.
-/

namespace AgentStorm.Results

open Checks Machine Relational

variable {P : Platform} {policy : LimitPolicy} {t : Txn} {db db' : Db} {a : Answer}

/-! ## Active permits -/

variable {later now : Time} {permits : Table PermitRow}

/-- The active permits of the providers in a class. -/
def inUse (providers : String → Bool) (now : Time) (permits : Table PermitRow) : Nat :=
  permits.count fun r => providers r.provider && r.activeAt now

theorem PermitRow.activeAt_of_le {r : PermitRow} (h : r.activeAt later = true) (hle : now ≤ later) :
    r.activeAt now = true := by
  simp only [PermitRow.activeAt, Bool.and_eq_true, decide_eq_true_eq] at h ⊢
  exact ⟨h.1, lt_of_le_of_lt hle h.2⟩

/-- Permits expire, they do not come back. -/
theorem inUse_of_le (providers : String → Bool) (hle : now ≤ later) :
    inUse providers later permits ≤ inUse providers now permits := by
  refine Table.count_mono fun r _ h => ?_
  rw [Bool.and_eq_true] at h ⊢
  exact ⟨h.1, PermitRow.activeAt_of_le h.2 hle⟩

theorem inUse_delete_le {providers : String → Bool} (p : PermitRow → Bool) :
    inUse providers now (permits.delete p) ≤ inUse providers now permits :=
  Table.count_delete_le permits p _

/-- An update that keeps providers and touches active rows only, or makes rows inactive, adds nothing. -/
theorem inUse_update_le {providers : String → Bool} {p : PermitRow → Bool} {f : PermitRow → PermitRow}
    (hf : Table.KeepsKeys f) (hle : now ≤ later) (hprovider : ∀ r, (f r).provider = r.provider)
    (hactive : ∀ r ∈ permits, p r = true → (f r).activeAt later = true → r.activeAt now = true) :
    inUse providers later (permits.update p f hf) ≤ inUse providers now permits := by
  unfold inUse
  rw [Table.count_update]
  refine Table.count_mono fun r hr h => ?_
  by_cases hp : p r = true
  · simp only [hp, if_true, Bool.and_eq_true, hprovider] at h
    rw [Bool.and_eq_true]
    exact ⟨h.1, hactive r hr hp h.2⟩
  · simp only [hp, Bool.false_eq_true, if_false, Bool.and_eq_true] at h
    rw [Bool.and_eq_true]
    exact ⟨h.1, PermitRow.activeAt_of_le h.2 hle⟩

/-! ## One transaction -/

/-- What a commit does to the permit table. -/
inductive PermitsChange (policy : LimitPolicy) (now : Time) (permits : Table PermitRow) : Table PermitRow → Prop
  | same : PermitsChange policy now permits permits
  | refreshed (existing : PermitRow) (leaseHash : String) (expiresAt : Time)
      (hexisting : existing ∈ permits.delete (PermitRow.prunableAt now)) (hactive : existing.activeAt now = true) :
      PermitsChange policy now permits ((permits.delete (PermitRow.prunableAt now)).update
        (fun r => decide (r.permitID = existing.permitID)) (PermitRow.refresh now leaseHash expiresAt)
        (keepsKeys_refresh now leaseHash expiresAt))
  | granted (row : PermitRow) (permits' : Table PermitRow)
      (hglobal : atLimit policy.global.maxConcurrency
        (inUse (fun _ => true) now (permits.delete (PermitRow.prunableAt now))) = false)
      (hprovider : atLimit (policy.providers row.provider).maxConcurrency
        (inUse (fun p => decide (p = row.provider)) now (permits.delete (PermitRow.prunableAt now))) = false)
      (hins : (permits.delete (PermitRow.prunableAt now)).insert row = some permits') :
      PermitsChange policy now permits permits'
  | renewed (runID permitID leaseHash : String) (expiresAt : Time) :
      PermitsChange policy now permits (permits.update (permitRenewable now runID permitID leaseHash)
        (PermitRow.renew now expiresAt) (keepsKeys_renew now expiresAt))
  | released (runID permitID leaseHash : String) :
      PermitsChange policy now permits (permits.update (permitUnder runID permitID leaseHash) (PermitRow.release now)
        (keepsKeys_release now))

theorem Commit.permits_eq (h : Commit P t db a db') (hop : t.op.permit = false) : db'.permits = db.permits := by
  cases h with
  | registerNew => exact enqueueRunShards_permits _ _ _
  | registerAgain => exact enqueueRunShards_permits _ _ _
  | finalize _ _ _ _ _ _ _ _ _ _ _ _ _ _ hrefresh => exact (refreshAggregate_frame hrefresh).2.2.2.1
  | permit _ _ _ _ hpermit =>
    rw [hop] at hpermit
    cases hpermit
  | terminate | terminateAgain | reclaim | claim | renew | reserveNew | reserveAgain | finalizeAgain => rfl

theorem permitsChange_of_acquire {runID permitID leaseHash : String} {request : PermitRequest}
    {result : String × Time}
    (h : acquirePermit now runID request permitID leaseHash policy db = .ok (result, db')) :
    PermitsChange policy now db.permits db'.permits := by
  obtain ⟨_, -, -, -, ⟨existing, hexisting, hactive, -, rfl⟩ | ⟨-, hgrant⟩⟩ := acquireFrom_ok h
  · exact .refreshed existing leaseHash _ (Db.permit?_eq_some.mp hexisting).1 hactive
  · obtain ⟨permits, _, hins, -, rfl⟩ := hgrant.stored
    refine .granted _ permits ?_ hgrant.providerActive hins
    have hglobal := hgrant.globalActive
    simpa [inUse, prunePermits] using hglobal

theorem permitsChange_of_exec (h : (machine P policy).exec t db = .ok (a, db')) :
    PermitsChange policy t.now db.permits db'.permits := by
  cases hpermit : t.op.permit with
  | false =>
    rw [(commit_of_exec h).permits_eq hpermit]
    exact .same
  | true =>
    obtain ⟨op, _, _⟩ := t
    cases op with
    | acquirePermit =>
      obtain ⟨-, _, hacquire, -⟩ := exec_acquirePermit_ok h
      exact permitsChange_of_acquire hacquire
    | renewPermit runID permitID =>
      obtain ⟨_, hrenew, -⟩ := exec_renewPermit_ok h
      obtain rfl := renewPermit_ok hrenew
      exact .renewed runID permitID _ _
    | releasePermit runID permitID =>
      obtain rfl := releasePermit_ok (exec_releasePermit_ok h).1
      exact .released runID permitID _
    | registerRun | terminateRun | claimShard | renewShardLease | reserveShard | finalizeShard => cases hpermit

/-- **What is active later was active before**, but for one permit that was counted against the limits. -/
theorem PermitsChange.inUse_le {permits' : Table PermitRow}
    (h : PermitsChange policy now permits permits') (hle : now ≤ later) (providers : String → Bool) :
    inUse providers later permits' ≤ inUse providers now permits ∨
    ∃ row : PermitRow, providers row.provider = true ∧
      inUse providers later permits' ≤ inUse providers now (permits.delete (PermitRow.prunableAt now)) + 1 ∧
      atLimit policy.global.maxConcurrency
        (inUse (fun _ => true) now (permits.delete (PermitRow.prunableAt now))) = false ∧
      atLimit (policy.providers row.provider).maxConcurrency
        (inUse (fun p => decide (p = row.provider)) now (permits.delete (PermitRow.prunableAt now))) = false := by
  cases h with
  | same => exact .inl (inUse_of_le providers hle)
  | refreshed _ _ _ hexisting hactive =>
    refine .inl (le_trans (inUse_update_le _ hle (fun _ => rfl) ?_) (inUse_delete_le _))
    -- the refreshed row is the one that was found active
    intro r hr hp _
    simp only [decide_eq_true_eq] at hp
    rw [Table.eq_of_conflict _ hr hexisting (Or.inl hp)]
    exact hactive
  | granted row permits' hglobal hprovider hins =>
    have hcount : inUse providers later permits' ≤ inUse providers now (permits.delete (PermitRow.prunableAt now)) +
        if providers row.provider && row.activeAt later then 1 else 0 := by
      unfold inUse
      rw [Table.count_of_insert hins]
      exact Nat.add_le_add_right (inUse_of_le providers hle) _
    cases hclass : providers row.provider with
    | true =>
      refine .inr ⟨row, hclass, le_trans hcount (Nat.add_le_add_left ?_ _), hglobal, hprovider⟩
      split <;> omega
    | false =>
      refine .inl (le_trans hcount ?_)
      simp only [hclass, Bool.false_and, Bool.false_eq_true, if_false, Nat.add_zero]
      exact inUse_delete_le _
  | renewed =>
    refine .inl (inUse_update_le _ hle (fun _ => rfl) fun r _ hp _ => ?_)
    simp only [permitRenewable, Bool.and_eq_true] at hp
    exact hp.2
  | released =>
    refine .inl (inUse_update_le _ hle (fun _ => rfl) fun r _ _ hactive => ?_)
    cases hactive

/-! ## Whole runs of the machine -/

/-- No limit that is set is exceeded by the permits active at `now`. -/
structure WithinCaps (policy : LimitPolicy) (db : Db) (now : Time) : Prop where
  global : policy.global.maxConcurrency ≠ 0 →
    db.permits.count (PermitRow.activeAt now) ≤ policy.global.maxConcurrency
  provider : ∀ name, (policy.providers name).maxConcurrency ≠ 0 →
    (db.permits.count fun r => decide (r.provider = name) && r.activeAt now) ≤ (policy.providers name).maxConcurrency

theorem inUse_all (now : Time) (permits : Table PermitRow) :
    inUse (fun _ => true) now permits = permits.count (PermitRow.activeAt now) := by
  simp [inUse]

theorem lt_of_atLimit {limit used : Nat} (h : atLimit limit used = false) (hset : limit ≠ 0) : used < limit := by
  simp only [atLimit, decide_eq_false_iff_not, not_and, not_le] at h
  exact h (Nat.pos_of_ne_zero hset)

/-- Time alone keeps the caps. -/
theorem WithinCaps.of_le (h : WithinCaps policy db now) (hle : now ≤ later) :
    WithinCaps policy db later := by
  refine ⟨fun hset => ?_, fun name hset =>
    le_trans (inUse_of_le (fun p => decide (p = name)) hle) (h.provider name hset)⟩
  rw [← inUse_all]
  exact le_trans (inUse_of_le _ hle) (by rw [inUse_all]; exact h.global hset)

theorem WithinCaps.step (h : WithinCaps policy db t.now) : WithinCaps policy ((machine P policy).step db t) t.now := by
  rcases Transactional.step_cases (M := machine P policy) db t with heq | ⟨a, _, hexec, heq⟩
  · rw [heq]; exact h
  · rw [heq]
    have hchange := permitsChange_of_exec hexec
    refine ⟨fun hset => ?_, fun name hset => ?_⟩
    · have hold := h.global hset
      rw [← inUse_all] at hold ⊢
      rcases hchange.inUse_le le_rfl fun _ => true with hle | ⟨row, -, hle, hglobal, -⟩
      · exact le_trans hle hold
      · have hroom := lt_of_atLimit hglobal hset
        omega
    · rcases hchange.inUse_le le_rfl fun p => decide (p = name) with hle | ⟨row, hrow, hle, -, hprovider⟩
      · exact le_trans hle (h.provider name hset)
      · obtain rfl : row.provider = name := by simpa using hrow
        exact le_trans hle (lt_of_atLimit hprovider hset)

/-- **The caps hold.** After any history of transactions under a clock that does not go back, and at any time from its
    last transaction on, no concurrency limit that is set is exceeded. -/
theorem permit_caps (P : Platform) (policy : LimitPolicy) (es : List Txn) (hclock : Clocked es) (now : Time)
    (hnow : ∀ t ∈ es, t.now ≤ now) : WithinCaps policy ((machine P policy).run Db.empty es) now := by
  refine Transactional.run_induction Clocked
    (fun es db => ∀ now, (∀ t ∈ es, t.now ≤ now) → WithinCaps policy db now) (fun _ _ h => h.left) ?_ ?_ es hclock now hnow
  · exact fun _ _ => ⟨fun _ => Nat.zero_le _, fun _ _ => Nat.zero_le _⟩
  · intro es t hclock ih now hnow
    have hbefore : WithinCaps policy ((machine P policy).run Db.empty es) t.now :=
      ih t.now fun u hu => hclock.le hu (List.mem_singleton_self t)
    exact hbefore.step.of_le (hnow t (by simp))

/-- One permit at a time, for one provider. -/
def onePermit : LimitPolicy := ⟨⟨1, 0⟩, fun _ => ⟨1, 0⟩, 60000⟩

/-- A permit is granted, a second one refused, the first refreshed by a repeated request, renewed and released, and
    the next one granted. -/
def permitTraffic : List Txn :=
  let first : PermitRequest := ⟨checksumHex (Text.bytes "first"), "worker", "fake"⟩
  let second : PermitRequest := ⟨checksumHex (Text.bytes "second"), "worker", "fake"⟩
  [registerAt 0 "run" (.reference "suite" "keda" 1),
    ⟨.acquirePermit "run" first .ofA .ofA, 1, 1⟩,
    ⟨.acquirePermit "run" second .ofB .ofB, 2, 2⟩,
    ⟨.acquirePermit "run" first .ofC .ofC, 3, 3⟩,
    ⟨.renewPermit "run" RandomIdentifier.ofA.text SchedulerToken.ofC.text, 4, 4⟩,
    ⟨.releasePermit "run" RandomIdentifier.ofA.text SchedulerToken.ofC.text, 5, 5⟩,
    ⟨.acquirePermit "run" second .ofB .ofB, 6, 6⟩]

theorem permit_caps_traffic :
    WithinCaps onePermit ((machine (.reference []) onePermit).run Db.empty permitTraffic) 7 ∧
    ((machine (.reference []) onePermit).log Db.empty permitTraffic).map (fun entry => entry.2.toOption.isSome) =
      [true, true, false, true, true, true, true] := by
  refine ⟨permit_caps (.reference []) onePermit permitTraffic ?_ 7 (by decide +kernel), by decide +kernel⟩
  unfold Clocked
  decide +kernel

end AgentStorm.Results
