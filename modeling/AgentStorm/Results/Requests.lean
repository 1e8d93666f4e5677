import AgentStorm.Results.Rates
import AgentStorm.Results.Sound

/-!
# `Results.Requests` — request ids as the identity of permits

A repeated acquisition is recognised by its request id alone; renewals and releases ask for the run,
the permit id and the token. The request id keys two tables that are pruned apart: permits at the begin
of an acquisition, rate events only at the end of a grant. `permit_identity_iff` and
`acquire_outcome_iff` say what follows for whom a permit belongs to and for the unique constraint.
-/

namespace AgentStorm.Results

open Checks Machine Machine.Transactional Relational Text

variable {P : Platform} {policy : LimitPolicy} {t : Txn} {db db' : Db} {a : Answer}

/-! ## Where a permit comes from -/

/-- The acquisitions under a request id. -/
def Op.acquiresFor (requestID : String) : Op → Bool
  | .acquirePermit _ request _ _ => decide (request.requestID = requestID)
  | _ => false

/-- The columns of a permit that no statement changes. -/
structure SamePermit (r r' : PermitRow) : Prop where
  permitID_eq : r'.permitID = r.permitID
  requestID_eq : r'.requestID = r.requestID
  runID_eq : r'.runID = r.runID
  workerID_eq : r'.workerID = r.workerID
  provider_eq : r'.provider = r.provider

theorem SamePermit.refl (r : PermitRow) : SamePermit r r := ⟨rfl, rfl, rfl, rfl, rfl⟩

theorem samePermit_refresh (now : Time) (leaseHash : String) (expiresAt : Time) (r : PermitRow) :
    SamePermit r (r.refresh now leaseHash expiresAt) := ⟨rfl, rfl, rfl, rfl, rfl⟩

theorem samePermit_renew (now expiresAt : Time) (r : PermitRow) : SamePermit r (r.renew now expiresAt) :=
  ⟨rfl, rfl, rfl, rfl, rfl⟩

theorem samePermit_release (now : Time) (r : PermitRow) : SamePermit r (r.release now) := ⟨rfl, rfl, rfl, rfl, rfl⟩

/-- An update that keeps these columns keeps them row by row. -/
theorem samePermit_of_update {permits : Table PermitRow} {p : PermitRow → Bool} {f : PermitRow → PermitRow}
    (hf : Table.KeepsKeys f) (hsame : ∀ r, SamePermit r (f r)) {r' : PermitRow} (hr' : r' ∈ permits.update p f hf) :
    ∃ r ∈ permits, SamePermit r r' ∧ (r' = f r ∧ p r = true ∨ r' = r) := by
  obtain ⟨r, hr, rfl⟩ := Table.mem_update.mp hr'
  refine ⟨r, hr, ?_⟩
  cases hp : p r with
  | true => exact ⟨hsame r, Or.inl ⟨rfl, rfl⟩⟩
  | false => exact ⟨SamePermit.refl r, Or.inr rfl⟩

/-- **Where a stored permit comes from.** It was there before, with its token unless this is an acquisition under its
    request id, or it is the new permit of an acquisition for a run of its provider. -/
theorem permit_back (h : (machine P policy).exec t db = .ok (a, db')) {r' : PermitRow} (hr' : r' ∈ db'.permits) :
    (∃ r ∈ db.permits, SamePermit r r' ∧
      (r'.leaseTokenHash = r.leaseTokenHash ∨ t.op.acquiresFor r.requestID = true)) ∨
    (t.op.acquiresFor r'.requestID = true ∧ hexPattern 32 r'.permitID = true ∧
      ∃ run ∈ db.runs, run.id = r'.runID ∧ run.registration.target.provider = r'.provider) := by
  cases hpermit : t.op.permit with
  | false =>
    rw [(commit_of_exec h).permits_eq hpermit] at hr'
    exact .inl ⟨r', hr', SamePermit.refl r', Or.inl rfl⟩
  | true =>
    obtain ⟨op, _, _⟩ := t
    cases op with
    | acquirePermit runID request permitID =>
      obtain ⟨-, _, hacquire, -⟩ := exec_acquirePermit_ok h
      obtain ⟨run, hrun, -, hprovider, ⟨_, hexisting, -, -, rfl⟩ | ⟨-, hgrant⟩⟩ := acquireFrom_ok hacquire
      · obtain ⟨hmem, hrequest⟩ := Db.permit?_eq_some.mp hexisting
        obtain ⟨r, hr, hsame, hchanged⟩ := samePermit_of_update (keepsKeys_refresh _ _ _) (samePermit_refresh _ _ _) hr'
        refine .inl ⟨r, (Table.mem_delete.mp hr).1, hsame, ?_⟩
        rcases hchanged with ⟨-, hp⟩ | rfl
        · rw [Table.eq_of_conflict _ hr hmem (Or.inl (of_decide_eq_true hp))]
          exact .inr (decide_eq_true hrequest.symm)
        · exact .inl rfl
      · obtain ⟨_, _, hins, -, rfl⟩ := hgrant.stored
        rcases (Table.mem_of_insert hins).mp hr' with hold | rfl
        · exact .inl ⟨r', (Table.mem_delete.mp hold).1, SamePermit.refl r', Or.inl rfl⟩
        · obtain ⟨hmem, hid⟩ := Db.run?_eq_some.mp hrun
          exact .inr ⟨decide_eq_true rfl, permitID.shape, run, hmem, hid, hprovider⟩
    | renewPermit =>
      obtain ⟨_, hrenew, -⟩ := exec_renewPermit_ok h
      obtain rfl := renewPermit_ok hrenew
      obtain ⟨r, hr, hsame, ⟨rfl, -⟩ | rfl⟩ := samePermit_of_update (keepsKeys_renew _ _) (samePermit_renew _ _) hr'
      · exact .inl ⟨r, hr, hsame, Or.inl rfl⟩
      · exact .inl ⟨r', hr, hsame, Or.inl rfl⟩
    | releasePermit =>
      obtain rfl := releasePermit_ok (exec_releasePermit_ok h).1
      obtain ⟨r, hr, hsame, ⟨rfl, -⟩ | rfl⟩ := samePermit_of_update (keepsKeys_release _) (samePermit_release _) hr'
      · exact .inl ⟨r, hr, hsame, Or.inl rfl⟩
      · exact .inl ⟨r', hr, hsame, Or.inl rfl⟩
    | registerRun | terminateRun | claimShard | renewShardLease | reserveShard | finalizeShard => cases hpermit

/-- A stored permit has the shape of a random identifier and the provider of its run. -/
structure PermitSound (db : Db) (r : PermitRow) : Prop where
  shape : hexPattern 32 r.permitID = true
  run : ∃ run ∈ db.runs, run.id = r.runID ∧ run.registration.target.provider = r.provider

theorem permitSound_step (h : ∀ r ∈ db.permits, PermitSound db r) :
    ∀ r ∈ ((machine P policy).step db t).permits, PermitSound ((machine P policy).step db t) r := by
  rcases step_cases (M := machine P policy) db t with heq | ⟨a, db', hexec, heq⟩
  · rw [heq]; exact h
  · rw [heq]
    intro r' hr'
    have hcommit := commit_of_exec hexec
    have hrun : ∀ run ∈ db.runs, run.id = r'.runID → run.registration.target.provider = r'.provider →
        ∃ run' ∈ db'.runs, run'.id = r'.runID ∧ run'.registration.target.provider = r'.provider := by
      intro run hmem hid hprovider
      obtain ⟨run', hmem', hsame⟩ := hcommit.run_forth hmem
      exact ⟨run', hmem', hsame.id_eq.trans hid, by rw [hsame.registration_eq, hprovider]⟩
    rcases permit_back hexec hr' with ⟨r, hr, hsame, -⟩ | ⟨-, hshape, run, hmem, hid, hprovider⟩
    · obtain ⟨hshape, run, hmem, hid, hprovider⟩ := h r hr
      exact ⟨hsame.permitID_eq ▸ hshape,
        hrun run hmem (hid.trans hsame.runID_eq.symm) (hprovider.trans hsame.provider_eq.symm)⟩
    · exact ⟨hshape, hrun run hmem hid hprovider⟩

theorem permitSound_run (P : Platform) (policy : LimitPolicy) (es : List Txn) :
    ∀ r ∈ ((machine P policy).run Db.empty es).permits, PermitSound ((machine P policy).run Db.empty es) r := by
  refine run_invariant (fun _ => True) (fun db => ∀ r ∈ db.permits, PermitSound db r)
    (fun _ _ _ h => permitSound_step h) ?_ es fun _ _ => trivial
  exact fun _ h => absurd h Table.not_mem_empty

/-! ## Renewals -/

variable {permitID runID : String}

/-- The transaction commits. -/
def Works (P : Platform) (policy : LimitPolicy) (db : Db) (t : Txn) : Prop :=
  ∃ a, (machine P policy).answer db t = .ok a

variable {now : Time}

theorem works_renewPermit_iff {leaseToken : String} {wall : Time} :
    Works P policy db ⟨.renewPermit runID permitID leaseToken, now, wall⟩ ↔
      validateSchedulerLease runID permitID leaseToken = .ok () ∧
      ∃ r ∈ db.permits, permitRenewable now runID permitID (P.tokenHash leaseToken) r = true := by
  constructor
  · rintro ⟨a, hanswer⟩
    obtain ⟨_, h⟩ := answer_ok_iff.mp hanswer
    obtain ⟨⟨_, _⟩, hexec, -⟩ := map_ok_iff.mp h
    obtain ⟨hvalid, hexec⟩ := then_ok_iff.mp hexec
    obtain ⟨⟨_, _⟩, hrenew, -⟩ := bind_ok_iff.mp hexec
    obtain ⟨r, hfirst, -⟩ := bind_ok_iff.mp hrenew
    exact ⟨hvalid, r, Table.mem_of_first? (orElse_eq_ok.mp hfirst)⟩
  · rintro ⟨hvalid, r, hr, hrenewable⟩
    have hfirst : ∃ row, db.permits.first? (permitRenewable now runID permitID (P.tokenHash leaseToken)) = some row := by
      cases hrow : db.permits.first? (permitRenewable now runID permitID (P.tokenHash leaseToken)) with
      | some row => exact ⟨row, rfl⟩
      | none =>
        rw [Table.first?_eq_none.mp hrow r hr] at hrenewable
        cases hrenewable
    obtain ⟨_, hrow⟩ := hfirst
    have hrenew : ∃ result, renewPermit now runID permitID (P.tokenHash leaseToken) policy.leaseDurationMS db =
        .ok result := by
      rw [renewPermit, hrow]
      exact ⟨_, rfl⟩
    obtain ⟨result, hrenew⟩ := hrenew
    refine ⟨.permitRenewed ⟨result.1, policy.leaseDurationMS / 3⟩, answer_ok_iff.mpr ⟨result.2, ?_⟩⟩
    refine map_ok_iff.mpr ⟨(⟨result.1, policy.leaseDurationMS / 3⟩, result.2), ?_, rfl⟩
    exact then_ok_iff.mpr ⟨hvalid, bind_ok_iff.mpr ⟨result, hrenew, rfl⟩⟩

theorem validateSchedulerLease_ok (hrunID : validateRunID runID = .ok ())
    (hpermitID : hexPattern 32 permitID = true) (token : SchedulerToken) :
    validateSchedulerLease runID permitID token.text = .ok () := by
  rw [validateSchedulerLease, hrunID, hpermitID, token.accepted]
  rfl

/-! ## Permits of their caller -/

/-- What the caller of an acquisition may rely on, and everyone else. -/
structure PermitIdentity (P : Platform) (policy : LimitPolicy) (db : Db) (t : Txn) (runID : String)
    (request : PermitRequest) (grant : PermitGrant) : Prop where
  /-- The returned permit is the caller's, unreleased and good until the expiry returned with it. -/
  owned : ∃ r ∈ ((machine P policy).step db t).permits, r.permitID = grant.permitID ∧ r.runID = runID ∧
    r.workerID = request.workerID ∧ r.provider = request.provider ∧ r.releasedAt = none ∧
    r.leaseExpiresAt = grant.leaseExpiresAt
  /-- Whatever happens next, short of another acquisition under the request id: while the permit is neither released nor
      expired, the returned token renews it. -/
  renews : ∀ es : List Txn, (∀ u ∈ es, u.op.acquiresFor request.requestID = false) →
    ∀ r ∈ ((machine P policy).run ((machine P policy).step db t) es).permits, r.requestID = request.requestID →
      ∀ now wall : Time, r.activeAt now = true →
        Works P policy ((machine P policy).run ((machine P policy).step db t) es)
          ⟨.renewPermit runID grant.permitID grant.leaseToken, now, wall⟩
  /-- The current token of a live permit of another run or worker goes on working. -/
  others : ∀ r ∈ db.permits, r.activeAt t.now = true → (r.runID ≠ runID ∨ r.workerID ≠ request.workerID) →
    ∀ (leaseToken : String) (now wall : Time),
      Works P policy db ⟨.renewPermit r.runID r.permitID leaseToken, now, wall⟩ →
      Works P policy ((machine P policy).step db t) ⟨.renewPermit r.runID r.permitID leaseToken, now, wall⟩

/-- No permit of another run or worker is left under the request id. -/
def OwnRequest (now : Time) (runID : String) (request : PermitRequest) (db : Db) : Prop :=
  ∀ r ∈ db.permits, r.requestID = request.requestID → r.prunableAt now = false →
    r.runID = runID ∧ r.workerID = request.workerID

/-- The row an acquisition answers from. -/
structure HeldBy (P : Platform) (runID : String) (request : PermitRequest) (permitID : String) (token : SchedulerToken)
    (expiresAt : Time) (r : PermitRow) : Prop where
  permitID_eq : r.permitID = permitID
  requestID_eq : r.requestID = request.requestID
  runID_eq : r.runID = runID
  workerID_eq : r.workerID = request.workerID
  provider_eq : r.provider = request.provider
  hash_eq : r.leaseTokenHash = P.tokenHash token.text
  unreleased : r.releasedAt = none
  expires : r.leaseExpiresAt = expiresAt

theorem PermitRow.not_prunableAt_of_activeAt {r : PermitRow} (h : r.activeAt now = true) :
    r.prunableAt now = false := by
  simp only [activeAt, Bool.and_eq_true, Option.isNone_iff_eq_none, decide_eq_true_eq] at h
  simp only [prunableAt, h.1, Option.isSome_none, Bool.false_or, Bool.and_eq_false_iff, decide_eq_false_iff_not]
  exact .inr (not_le.mpr h.2)

theorem mem_prunePermits {r : PermitRow} :
    r ∈ (prunePermits now db).permits ↔ r ∈ db.permits ∧ r.prunableAt now = false := Table.mem_delete

/-- An acquisition under a request id of its own answers from a row of its caller, and every live permit of another run
    or worker stays as it is. -/
theorem heldBy_of_acquire {request : PermitRequest} {token : SchedulerToken} {result : String × Time}
    (hsound : ∀ r ∈ db.permits, PermitSound db r) (hown : OwnRequest now runID request db)
    (h : acquirePermit now runID request permitID (P.tokenHash token.text) policy db = .ok (result, db')) :
    (∃ r ∈ db'.permits, HeldBy P runID request result.1 token result.2 r) ∧
    ∀ r ∈ db.permits, r.activeAt now = true → (r.runID ≠ runID ∨ r.workerID ≠ request.workerID) → r ∈ db'.permits := by
  obtain ⟨run, hrun, -, hprovider, ⟨existing, hexisting, hactive, rfl, rfl⟩ | ⟨-, hgrant⟩⟩ := acquireFrom_ok h
  · obtain ⟨hmem, hrequest⟩ := Db.permit?_eq_some.mp hexisting
    obtain ⟨hstored, hkept⟩ := mem_prunePermits.mp hmem
    obtain ⟨hrunID, hworker⟩ := hown existing hstored hrequest hkept
    refine ⟨⟨existing.refresh now (P.tokenHash token.text) (leaseUntil now policy.leaseDurationMS),
      Table.mem_update_of (keepsKeys_refresh _ _ _) hmem (decide_eq_true rfl), rfl, hrequest, hrunID, hworker, ?_, rfl, ?_, rfl⟩, ?_⟩
    · -- both providers are the registered one of the run
      obtain ⟨run', hmem', hid', hprovider'⟩ := (hsound existing hstored).run
      have hsame : (prunePermits now db).run? runID = some run' :=
        Db.run?_eq_some.mpr ⟨hmem', hid'.trans hrunID⟩
      rw [hrun] at hsame
      show existing.provider = request.provider
      rw [← hprovider', ← hprovider, Option.some.inj hsame]
    · simp only [PermitRow.activeAt, Bool.and_eq_true, Option.isNone_iff_eq_none] at hactive
      exact hactive.1
    · intro r hr hlive hother
      have hpruned : r ∈ (prunePermits now db).permits :=
        mem_prunePermits.mpr ⟨hr, PermitRow.not_prunableAt_of_activeAt hlive⟩
      refine Table.mem_update_of_not (keepsKeys_refresh _ _ _) hpruned (decide_eq_false fun hid => ?_)
      obtain rfl := Table.eq_of_conflict _ hpruned hmem (Or.inl hid)
      exact hother.elim (fun hne => hne hrunID) fun hne => hne hworker
  · obtain ⟨_, _, hins, -, rfl⟩ := hgrant.stored
    rw [hgrant.result_eq]
    refine ⟨⟨_, (Table.mem_of_insert hins).mpr (Or.inr rfl), rfl, rfl, rfl, rfl, rfl, rfl, rfl, rfl⟩, ?_⟩
    intro r hr hlive _
    exact (Table.mem_of_insert hins).mpr (Or.inl (mem_prunePermits.mpr ⟨hr, PermitRow.not_prunableAt_of_activeAt hlive⟩))

/-- Only an acquisition under its request id gives a permit another token. -/
theorem token_kept {requestID leaseHash : String} {es : List Txn}
    (hes : ∀ u ∈ es, u.op.acquiresFor requestID = false)
    (h : ∀ r ∈ db.permits, r.requestID = requestID →
      permitUnder runID permitID leaseHash r = true ∧ hexPattern 32 r.permitID = true) :
    ∀ r ∈ ((machine P policy).run db es).permits, r.requestID = requestID →
      permitUnder runID permitID leaseHash r = true ∧ hexPattern 32 r.permitID = true := by
  refine run_invariant (M := machine P policy) (fun u => u.op.acquiresFor requestID = false)
    (fun db => ∀ r ∈ db.permits, r.requestID = requestID →
      permitUnder runID permitID leaseHash r = true ∧ hexPattern 32 r.permitID = true) ?_ h es hes
  intro db u hu ih r' hr' hrequest
  rcases step_cases (M := machine P policy) db u with heq | ⟨a, _, hexec, heq⟩
  · rw [heq] at hr'
    exact ih r' hr' hrequest
  · rw [heq] at hr'
    rcases permit_back hexec hr' with ⟨r, hr, hsame, htoken⟩ | ⟨hfor, -⟩
    · have hold := hsame.requestID_eq.symm.trans hrequest
      have hkept : r'.leaseTokenHash = r.leaseTokenHash := by
        refine htoken.resolve_right fun hfor => ?_
        rw [hold, hu] at hfor
        cases hfor
      obtain ⟨hunder, hshape⟩ := ih r hr hold
      rw [permitUnder, hsame.runID_eq, hsame.permitID_eq, hkept]
      exact ⟨hunder, hshape⟩
    · rw [hrequest, hu] at hfor
      cases hfor

section Acquisition

variable {runID : String} {request : PermitRequest} {permitID : RandomIdentifier} {token : SchedulerToken}
  {now wall : Time} {grant : PermitGrant}

theorem permitIdentity_of_ownRequest (hsound : ∀ r ∈ db.permits, PermitSound db r) (hown : OwnRequest now runID request db)
    (h : (machine P policy).answer db ⟨.acquirePermit runID request permitID token, now, wall⟩ = .ok (.granted grant)) :
    PermitIdentity P policy db ⟨.acquirePermit runID request permitID token, now, wall⟩ runID request grant := by
  have hstepped := @permitSound_step P policy ⟨.acquirePermit runID request permitID token, now, wall⟩ db hsound
  obtain ⟨db', hexec⟩ := answer_ok_iff.mp h
  obtain ⟨hvalid, result, hacquire, heq⟩ := exec_acquirePermit_ok hexec
  obtain rfl := Answer.granted.inj heq
  obtain ⟨⟨row, hrow, hheld⟩, hothers⟩ := heldBy_of_acquire hsound hown hacquire
  rw [step_ok hexec] at hstepped
  refine ⟨?_, ?_, ?_⟩
  · rw [step_ok hexec]
    exact ⟨row, hrow, hheld.permitID_eq, hheld.runID_eq, hheld.workerID_eq, hheld.provider_eq, hheld.unreleased,
      hheld.expires⟩
  · rw [step_ok hexec]
    intro es hes r hr hrequest later wall' hactive
    have hunder : ∀ r ∈ db'.permits, r.requestID = request.requestID →
        permitUnder runID result.1 (P.tokenHash token.text) r = true ∧ hexPattern 32 r.permitID = true := by
      intro r hr hrequest
      obtain rfl := Table.eq_of_conflict _ hr hrow (Or.inr (hrequest.trans hheld.requestID_eq.symm))
      exact ⟨decide_eq_true ⟨hheld.runID_eq, hheld.permitID_eq, hheld.hash_eq⟩, (hstepped r hr).shape⟩
    obtain ⟨hkept, hshape⟩ := token_kept hes hunder r hr hrequest
    refine works_renewPermit_iff.mpr ⟨validateSchedulerLease_ok hvalid.runID ?_ token, r, hr, ?_⟩
    · rw [← (of_decide_eq_true hkept).2.1]
      exact hshape
    · rw [permitRenewable, hkept, hactive, Bool.and_self]
  · rw [step_ok hexec]
    intro r hr hlive hother leaseToken later wall' hworks
    obtain ⟨hlease, r₁, hr₁, hrenewable⟩ := works_renewPermit_iff.mp hworks
    have hunder : r₁.permitID = r.permitID := by
      simp only [permitRenewable, permitUnder, Bool.and_eq_true, decide_eq_true_eq] at hrenewable
      exact hrenewable.1.2.1
    obtain rfl := Table.eq_of_conflict _ hr₁ hr (Or.inl hunder)
    exact works_renewPermit_iff.mpr ⟨hlease, r₁, hothers r₁ hr hlive hother, hrenewable⟩

/-- An acquisition that finds a permit under its request id answers from that permit, whoever owns it. -/
theorem ownRequest_of_permitIdentity
    (h : (machine P policy).answer db ⟨.acquirePermit runID request permitID token, now, wall⟩ = .ok (.granted grant))
    (hidentity : PermitIdentity P policy db ⟨.acquirePermit runID request permitID token, now, wall⟩ runID request grant) :
    OwnRequest now runID request db := by
  intro r hr hrequest hkept
  obtain ⟨_, hexec⟩ := answer_ok_iff.mp h
  obtain ⟨_, hrow, hpermitID, hrunID, hworker, -⟩ := hidentity.owned
  rw [step_ok hexec] at hrow
  obtain ⟨-, _, hacquire, heq⟩ := exec_acquirePermit_ok hexec
  obtain rfl := Answer.granted.inj heq
  have hstored : (prunePermits now db).permit? request.requestID = some r :=
    Db.permit?_eq_some.mpr ⟨mem_prunePermits.mpr ⟨hr, hkept⟩, hrequest⟩
  obtain ⟨_, -, -, -, ⟨_, hexisting, -, rfl, rfl⟩ | ⟨hnone, -⟩⟩ := acquireFrom_ok hacquire
  · rw [hstored] at hexisting
    cases hexisting
    obtain ⟨r₁, hr₁, hsame, -⟩ := samePermit_of_update (keepsKeys_refresh _ _ _) (samePermit_refresh _ _ _) hrow
    obtain rfl := Table.eq_of_conflict _ (mem_prunePermits.mp hr₁).1 hr (Or.inl (hsame.permitID_eq.symm.trans hpermitID))
    exact ⟨hsame.runID_eq.symm.trans hrunID, hsame.workerID_eq.symm.trans hworker⟩
  · rw [hstored] at hnone
    cases hnone

/-- **Permit identity.** After any history, an acquisition that succeeds returns a permit of its caller, whose token
    renews it, and leaves the tokens of all other runs and workers working, exactly if no permit of another run or worker
    is left under its request id. -/
theorem permit_identity_iff (P : Platform) (policy : LimitPolicy) (es : List Txn)
    (h : (machine P policy).answer ((machine P policy).run Db.empty es)
      ⟨.acquirePermit runID request permitID token, now, wall⟩ = .ok (.granted grant)) :
    PermitIdentity P policy ((machine P policy).run Db.empty es) ⟨.acquirePermit runID request permitID token, now, wall⟩
      runID request grant ↔
    OwnRequest now runID request ((machine P policy).run Db.empty es) :=
  ⟨ownRequest_of_permitIdentity h, fun hown => permitIdentity_of_ownRequest (permitSound_run P policy es) hown h⟩

end Acquisition

/-- The request id both workers send. -/
def sharedRequest (workerID : String) : PermitRequest := ⟨checksumHex (Text.bytes "request"), workerID, "fake"⟩

/-- Two runs; the first acquires a permit. -/
def firstAcquired : List Txn :=
  [registerAt 0 "first" (.reference "suite" "keda" 1), registerAt 1 "second" (.reference "other" "keda" 1),
    ⟨.acquirePermit "first" (sharedRequest "worker-1") .ofA .ofBigA, 2, 2⟩]

/-- The second run acquires under the same request id. -/
def secondAcquires : Txn :=
  ⟨.acquirePermit "second" (sharedRequest "worker-2") .ofB .ofBigB, 3, 3⟩

/-- What the second run is told: the permit of the first run, with a new token. -/
def secondGrant : PermitGrant :=
  ⟨RandomIdentifier.ofA.text, SchedulerToken.ofBigB.text, 60000003, 20000⟩

/-- The second run is granted the permit of the first. Its token does not renew it, and the token of the first run does
    no longer. -/
theorem permit_identity_shared_request :
    (machine (.reference []) .unlimited).answer ((machine (.reference []) .unlimited).run Db.empty firstAcquired)
      secondAcquires = .ok (.granted secondGrant) ∧
    ¬ PermitIdentity (.reference []) .unlimited ((machine (.reference []) .unlimited).run Db.empty firstAcquired)
      secondAcquires "second" (sharedRequest "worker-2") secondGrant ∧
    (machine (.reference []) .unlimited).answer
      ((machine (.reference []) .unlimited).run Db.empty (firstAcquired ++ [secondAcquires]))
      ⟨.renewPermit "second" secondGrant.permitID secondGrant.leaseToken, 4, 4⟩ = .error .leaseLost ∧
    (machine (.reference []) .unlimited).answer
      ((machine (.reference []) .unlimited).run Db.empty (firstAcquired ++ [secondAcquires]))
      ⟨.renewPermit "first" secondGrant.permitID (SchedulerToken.reference 'A' rfl).text, 4, 4⟩ = .error .leaseLost := by
  refine ⟨by decide +kernel, fun hidentity => ?_, by decide +kernel, by decide +kernel⟩
  obtain ⟨row, hrow, -, hrunID, -⟩ := hidentity.owned
  have hrows : ∀ r ∈ ((machine (.reference []) .unlimited).step
    ((machine (.reference []) .unlimited).run Db.empty firstAcquired) secondAcquires).permits.rows, r.runID ≠ "second" := by
    decide +kernel
  exact hrows row hrow hrunID

/-- The first worker repeats its own request. -/
def firstRepeats : Txn :=
  ⟨.acquirePermit "first" (sharedRequest "worker-1") .ofC .ofBigC, 3, 3⟩

theorem permit_identity_repeated :
    PermitIdentity (.reference []) .unlimited ((machine (.reference []) .unlimited).run Db.empty firstAcquired)
      firstRepeats "first" (sharedRequest "worker-1") ⟨(RandomIdentifier.reference 'a' rfl).text,
        (SchedulerToken.reference 'C' rfl).text, 60000003, 20000⟩ := by
  have hrows : ∀ r ∈ ((machine (.reference []) .unlimited).run Db.empty firstAcquired).permits.rows,
      r.runID = "first" ∧ r.workerID = "worker-1" := by decide +kernel
  exact (permit_identity_iff (.reference []) .unlimited firstAcquired (by decide +kernel)).mpr fun r hr _ _ => hrows r hr

/-! ## Request ids that come back -/

/-- A limit of the policy is reached. -/
def limitReached (now : Time) (provider : String) (policy : LimitPolicy) (db : Db) : Bool :=
  (atLimit policy.global.maxConcurrency (db.permits.count (PermitRow.activeAt now)) ||
    atLimit (policy.providers provider).maxConcurrency
      (db.permits.count fun r => decide (r.provider = provider) && r.activeAt now)) ||
  (atLimit policy.global.requestsPerMinute (db.rateEvents.count (RateEventRow.recentAt now)) ||
    atLimit (policy.providers provider).requestsPerMinute
      (db.rateEvents.count fun r => decide (r.provider = provider) && r.recentAt now))

/-- What a caller of `AcquirePermit` is prepared for. -/
def PermitOutcome : Except ApiError Answer → Prop
  | .ok (.granted _) => True
  | .error (.capacity _) => True
  | .error .leaseLost => True
  | _ => False

/-- No rate event outlived its permit under the request id, or a limit is reached before anyone looks. -/
def RequestFree (now : Time) (request : PermitRequest) (policy : LimitPolicy) (db : Db) : Prop :=
  (∃ r ∈ db.permits, r.requestID = request.requestID ∧ r.prunableAt now = false) ∨
  (∀ e ∈ db.rateEvents, e.requestID ≠ request.requestID) ∨
  limitReached now request.provider policy (prunePermits now db) = true

section Reuse

variable {runID : String} {request : PermitRequest} {permitID leaseHash : String} {now wall : Time}

/-- For a collecting run of the provider, an acquisition goes straight to the stored permit of its request. -/
theorem acquireFrom_collecting {run : RunRow} (hrun : db.run? runID = some run) (hcollecting : run.status = .collecting)
    (hprovider : run.registration.target.provider = request.provider) :
    acquireFrom now runID request permitID leaseHash policy db =
      match db.permit? request.requestID with
      | some existing => do
          reject (!existing.activeAt now) .leaseLost
          return ((existing.permitID, leaseUntil now policy.leaseDurationMS),
            refreshPermit now existing.permitID leaseHash (leaseUntil now policy.leaseDurationMS) db)
      | none => grantPermit now runID request permitID leaseHash policy db := by
  have hstatus : decide (run.status ≠ .collecting) = false := decide_eq_false (not_not.mpr hcollecting)
  have hmatches : decide (run.registration.target.provider ≠ request.provider) = false :=
    decide_eq_false (not_not.mpr hprovider)
  simp only [acquireFrom, hrun, orElse, bind, Except.bind, hstatus, hmatches, reject_false]
  rfl

/-- A grant fails on a limit, on the permit's keys, on the rate event's key, or not at all. -/
theorem grantPermit_cases (policy : LimitPolicy) (runID leaseHash : String) (now : Time) (hfresh : ∀ r ∈ db.permits, r.permitID ≠ permitID ∧ r.requestID ≠ request.requestID) :
    (limitReached now request.provider policy db = true ∧
      ∃ ms, grantPermit now runID request permitID leaseHash policy db = .error (.capacity ms)) ∨
    (limitReached now request.provider policy db = false ∧ (∀ e ∈ db.rateEvents, e.requestID ≠ request.requestID) ∧
      ∃ result db', grantPermit now runID request permitID leaseHash policy db = .ok (result, db')) ∨
    (limitReached now request.provider policy db = false ∧ (∃ e ∈ db.rateEvents, e.requestID = request.requestID) ∧
      grantPermit now runID request permitID leaseHash policy db = .error (.internal "persist rate event")) := by
  have hpermits : ∃ permits, db.permits.insert (newPermit now permitID runID request leaseHash
      (leaseUntil now policy.leaseDurationMS)) = some permits :=
    Table.insert_isSome fun r hr hconflict => hconflict.elim (hfresh r hr).1 (hfresh r hr).2
  obtain ⟨_, hpermits⟩ := hpermits
  unfold limitReached
  cases hactive : (atLimit policy.global.maxConcurrency (db.permits.count (PermitRow.activeAt now)) ||
    atLimit (policy.providers request.provider).maxConcurrency
      (db.permits.count fun r => decide (r.provider = request.provider) && r.activeAt now)) with
  | true =>
    refine .inl ⟨Bool.true_or _, 250, ?_⟩
    simp only [grantPermit, hactive]
    rfl
  | false =>
    cases hrate : (atLimit policy.global.requestsPerMinute (db.rateEvents.count (RateEventRow.recentAt now)) ||
      atLimit (policy.providers request.provider).requestsPerMinute
        (db.rateEvents.count fun r => decide (r.provider = request.provider) && r.recentAt now)) with
    | true =>
      unfold RateEventRow.recentAt at hrate
      refine .inl ⟨rfl, 1000, ?_⟩
      simp only [grantPermit, hactive, hrate]
      rfl
    | false =>
      unfold RateEventRow.recentAt at hrate
      refine .inr ?_
      simp only [grantPermit, hactive, hrate, hpermits]
      cases hevents : db.rateEvents.insert ⟨request.requestID, request.provider, now⟩ with
      | some =>
        exact .inl ⟨rfl, fun e he => Table.not_conflict_of_insert hevents he, _, _, rfl⟩
      | none => exact .inr ⟨rfl, Table.insert_eq_none_iff.mp hevents, rfl⟩

end Reuse

/-- **Reused request ids.** A valid acquisition for a collecting run, with a fresh permit id, is granted, refused for
    capacity or told its lease is lost exactly if no rate event outlived its permit under the request id, or a limit
    refuses it first. Otherwise it fails on the key of the rate event. -/
theorem acquire_outcome_iff (P : Platform) (policy : LimitPolicy) (db : Db) {request : PermitRequest}
    (permitID : RandomIdentifier) (token : SchedulerToken) (now wall : Time) {run : RunRow}
    (hvalid : PermitRequestValid runID request) (hrun : db.run? runID = some run)
    (hcollecting : run.status = .collecting)
    (hprovider : run.registration.target.provider = request.provider)
    (hfresh : ∀ r ∈ db.permits, r.permitID ≠ permitID.text) :
    PermitOutcome ((machine P policy).answer db ⟨.acquirePermit runID request permitID token, now, wall⟩) ↔
      RequestFree now request policy db := by
  have hrun' : (prunePermits now db).run? runID = some run := hrun
  have hexec : (machine P policy).exec ⟨.acquirePermit runID request permitID token, now, wall⟩ db = _ :=
    exec_acquirePermit hvalid permitID token
  rw [acquirePermit, acquireFrom_collecting hrun' hcollecting hprovider] at hexec
  -- pruning comes first, so only a permit that survives it can answer for the request
  cases hstored : (prunePermits now db).permit? request.requestID with
  | some existing =>
    obtain ⟨hmem, hrequest⟩ := Db.permit?_eq_some.mp hstored
    obtain ⟨hold, hkept⟩ := mem_prunePermits.mp hmem
    refine iff_of_true ?_ (Or.inl ⟨existing, hold, hrequest, hkept⟩)
    cases hactive : existing.activeAt now with
    | true =>
      simp only [hstored, hactive] at hexec
      rw [answer_ok hexec]
      trivial
    | false =>
      simp only [hstored, hactive] at hexec
      rw [answer_error hexec]
      trivial
  | none =>
    have hnone : ∀ r ∈ (prunePermits now db).permits, r.requestID ≠ request.requestID := fun r hr =>
      of_decide_eq_false (Table.first?_eq_none.mp hstored r hr)
    have hleft : ¬ ∃ r ∈ db.permits, r.requestID = request.requestID ∧ r.prunableAt now = false :=
      fun ⟨r, hr, hrequest, hkept⟩ => hnone r (mem_prunePermits.mpr ⟨hr, hkept⟩) hrequest
    rw [hstored] at hexec
    rcases grantPermit_cases policy runID (P.tokenHash token.text) now
        fun r hr => ⟨hfresh r (mem_prunePermits.mp hr).1, hnone r hr⟩ with
      ⟨hlimit, ms, hgrant⟩ | ⟨-, hfree, result, db', hgrant⟩ | ⟨hlimit, ⟨e, he, hclash⟩, hgrant⟩
    · rw [hgrant] at hexec
      rw [answer_error hexec]
      exact iff_of_true trivial (Or.inr (Or.inr hlimit))
    · rw [hgrant] at hexec
      rw [answer_ok hexec]
      exact iff_of_true trivial (Or.inr (Or.inl hfree))
    · -- the rate event outlives the permit and its primary key is the request id
      rw [hgrant] at hexec
      rw [answer_error hexec]
      refine iff_of_false id ?_
      rintro (hkept | hfree | hreached)
      · exact hleft hkept
      · exact hfree e he hclash
      · rw [hlimit] at hreached
        cases hreached

/-- A permit is granted and released, and its request id comes back more than an hour later. -/
def releasedAnHourAgo : List Txn :=
  [registerAt 0 "run" (.reference "suite" "keda" 1),
    ⟨.acquirePermit "run" (sharedRequest "worker") .ofA .ofBigA, 1, 1⟩,
    ⟨.releasePermit "run" RandomIdentifier.ofA.text SchedulerToken.ofBigA.text, 2, 2⟩]

def acquiresAgain (now : Time) : Txn :=
  ⟨.acquirePermit "run" (sharedRequest "worker") .ofB .ofBigB, now, now⟩

theorem acquire_outcome_reused :
    Clocked (releasedAnHourAgo ++ [acquiresAgain (microsPerHour + 3)]) ∧
    (machine (.reference []) .unlimited).answer ((machine (.reference []) .unlimited).run Db.empty releasedAnHourAgo)
      (acquiresAgain (microsPerHour + 3)) = .error (.internal "persist rate event") := by
  refine ⟨?_, by decide +kernel⟩
  unfold Clocked
  decide +kernel

/-- Within the hour the released permit is still there. -/
theorem acquire_outcome_within_the_hour :
    PermitOutcome ((machine (.reference []) .unlimited).answer
      ((machine (.reference []) .unlimited).run Db.empty releasedAnHourAgo) (acquiresAgain (microsPerHour + 2))) := by
  -- one evaluation of the history for everything that is needed of its end
  have hend :
      let db := (machine (.reference []) .unlimited).run Db.empty releasedAnHourAgo
      (∃ run ∈ db.runs.rows, run.id = "run" ∧ run.status = .collecting ∧
        run.registration.target.provider = (sharedRequest "worker").provider) ∧
      (∀ r ∈ db.permits.rows, r.permitID ≠ (RandomIdentifier.reference 'b' rfl).text) ∧
      ∃ r ∈ db.permits.rows, r.requestID = (sharedRequest "worker").requestID ∧
        r.prunableAt (microsPerHour + 2) = false := by
    decide +kernel
  generalize (machine (.reference []) .unlimited).run Db.empty releasedAnHourAgo = db at hend ⊢
  obtain ⟨⟨_, hmem, hid, hcollecting, hprovider⟩, hfresh, hkept⟩ := hend
  exact (acquire_outcome_iff (.reference []) .unlimited _ _ _ _ _
    ⟨by decide +kernel, by decide +kernel, by decide +kernel⟩ (Db.run?_eq_some.mpr ⟨hmem, hid⟩) hcollecting hprovider
    hfresh).mpr (Or.inl hkept)

end AgentStorm.Results
