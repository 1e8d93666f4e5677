import AgentStorm.Results.Service

/-!
# `Results.Commit` — everything a committed transaction can do

`Commit` lists, once, the ways a transaction of the machine can commit: what it found in the database, what it
answered and what it wrote. `commit_of_exec` shows the list is complete. The invariants of this development are
proved by cases on it, so none of them looks inside a transaction again.
-/

namespace AgentStorm.Results

open Checks Machine Relational

/-- Answers of permit transactions. -/
def Answer.permit : Answer → Bool
  | .granted _ => true
  | .permitRenewed _ => true
  | .released => true
  | _ => false

/-- Permit transactions. -/
def Op.permit : Op → Bool
  | .acquirePermit _ _ _ _ => true
  | .renewPermit _ _ _ => true
  | .releasePermit _ _ _ => true
  | _ => false

variable {P : Platform} {policy : LimitPolicy}

inductive Commit (P : Platform) (t : Txn) (db : Db) : Answer → Db → Prop
  | registerNew (runID : String) (registration : Registration) (runs : Table RunRow)
      (hop : t.op = .registerRun runID (registrationKey runID) registration)
      (hvalid : RegistrationAccepted runID (registrationKey runID) registration)
      (hins : db.runs.insert (newRun t.now runID (registrationKey runID) (P.registrationHash registration)
        registration) = some runs) :
      Commit P t db (.registered true) (enqueueRunShards runID registration { db with runs := runs })
  | registerAgain (runID : String) (registration : Registration) (run : RunRow)
      (hop : t.op = .registerRun runID (registrationKey runID) registration)
      (hvalid : RegistrationAccepted runID (registrationKey runID) registration)
      (hrun : db.run? runID = some run) (hhash : run.registrationHash = P.registrationHash registration) :
      Commit P t db (.registered false) (enqueueRunShards runID registration db)
  | terminate (runID : String) (terminal : TerminalRequest) (run : RunRow)
      (hop : t.op = .terminateRun runID (terminalKey runID terminal.status) terminal)
      (hterminal : terminal.status.terminal = true)
      (hrun : db.run? runID = some run) (hstatus : run.status = .collecting) :
      Commit P t db (.terminated true)
        (cancelRun t.now runID (terminalKey runID terminal.status) (P.terminalHash terminal) terminal db)
  | terminateAgain (runID key : String) (terminal : TerminalRequest) (hop : t.op = .terminateRun runID key terminal) :
      Commit P t db (.terminated false) db
  | reclaim (runID workerID : String) (token : SchedulerToken) (run : RunRow) (held : QueueRow)
      (hop : t.op = .claimShard runID workerID token)
      (hrun : db.run? runID = some run) (hleasing : run.leasing = true)
      (hheld : db.queue.first? (heldBy t.now runID workerID) = some held) :
      Commit P t db
        (.claimed ⟨held.shardIndex, token.text, leaseUntil t.now shardLeaseDurationMS, shardLeaseDurationMS / 3⟩)
        (reletShards t.now runID workerID (P.tokenHash token.text) (leaseUntil t.now shardLeaseDurationMS) db)
  | claim (runID workerID : String) (token : SchedulerToken) (run : RunRow) (candidate : QueueRow)
      (hop : t.op = .claimShard runID workerID token)
      (hrun : db.run? runID = some run) (hleasing : run.leasing = true)
      (hnone : db.queue.first? (heldBy t.now runID workerID) = none)
      (hcandidate : candidate? t.now runID db.queue = some candidate) :
      Commit P t db
        (.claimed ⟨candidate.shardIndex, token.text, leaseUntil t.now shardLeaseDurationMS, shardLeaseDurationMS / 3⟩)
        (leaseShard runID candidate.shardIndex workerID (P.tokenHash token.text)
          (leaseUntil t.now shardLeaseDurationMS) db)
  | renew (runID : String) (shardIndex : Int) (leaseToken : String) (row : QueueRow) (lease : QueueLease)
      (hop : t.op = .renewShardLease runID shardIndex leaseToken) (hindex : 0 ≤ shardIndex)
      (hrow : row ∈ db.queue)
      (hrenewable : renewable t.now runID shardIndex.toNat (P.tokenHash leaseToken) row = true) :
      Commit P t db (.renewed lease)
        (extendLease t.now runID shardIndex.toNat (P.tokenHash leaseToken)
          (leaseUntil t.now shardLeaseDurationMS) db)
  | reserveNew (call : UploadCall) (run : RunRow) (receipts : Table ReceiptRow)
      (hop : t.op = .reserveShard call) (hvalid : call.validate P = .ok ())
      (hrun : db.run? call.runID = some run) (hindex : call.shardIndex.toNat < run.expectedShards)
      (hlease : run.leasing = true → LeaseOpen db t.now call.runID call.shardIndex.toNat (call.leaseHash P))
      (hins : db.receipts.insert (newReceipt call.runID call.shardIndex.toNat call.idempotencyKey
        (call.payloadHash P) (call.objectKey P) call.document.summary) = some receipts) :
      Commit P t db (.reserved ⟨false, run.registration.target.pricing⟩) { db with receipts := receipts }
  | reserveAgain (call : UploadCall) (run : RunRow) (existing : ReceiptRow)
      (hop : t.op = .reserveShard call) (hvalid : call.validate P = .ok ())
      (hrun : db.run? call.runID = some run)
      (hlease : run.leasing = true → LeaseOpen db t.now call.runID call.shardIndex.toNat (call.leaseHash P))
      (hexisting : db.receipt? call.runID call.shardIndex.toNat = some existing)
      (hhash : existing.payloadHash = call.payloadHash P) :
      Commit P t db (.reserved ⟨decide (existing.status = .complete), run.registration.target.pricing⟩) db
  | finalize (call : UploadCall) (pricing : Option RunPricing) (run : RunRow) (receipt : ReceiptRow)
      (stored : Table CaseRow) (db' : Db)
      (hop : t.op = .finalizeShard call pricing) (hvalid : call.validate P = .ok ())
      (hrun : db.run? call.runID = some run)
      (hlease : run.leasing = true → LeaseOpen db t.now call.runID call.shardIndex.toNat (call.leaseHash P))
      (hreceipt : db.receipt? call.runID call.shardIndex.toNat = some receipt)
      (hhash : receipt.payloadHash = call.payloadHash P) (hpending : receipt.status = .pending)
      (hstored : insertCases P call.runID call.shardIndex.toNat pricing call.document.cases db.cases = .ok stored)
      (hrefresh : refreshAggregate t.now t.wall call.runID
        (completeShard call.runID call.shardIndex.toNat run.registration.queued stored db) = .ok db') :
      Commit P t db (.finalized true) db'
  | finalizeAgain (call : UploadCall) (pricing : Option RunPricing) (run : RunRow) (receipt : ReceiptRow)
      (hop : t.op = .finalizeShard call pricing)
      (hrun : db.run? call.runID = some run)
      (hlease : run.leasing = true → LeaseOpen db t.now call.runID call.shardIndex.toNat (call.leaseHash P))
      (hreceipt : db.receipt? call.runID call.shardIndex.toNat = some receipt)
      (hcomplete : receipt.status = .complete) :
      Commit P t db (.finalized false) db
  | permit (permits : Table PermitRow) (rateEvents : Table RateEventRow) (a : Answer) (hanswer : a.permit = true)
      (hop : t.op.permit = true) :
      Commit P t db a { db with permits := permits, rateEvents := rateEvents }

theorem RunRow.leasing_iff {r : RunRow} :
    r.leasing = true ↔ r.registration.queued = true ∧ r.status = .collecting := by
  simp [RunRow.leasing]

/-- **Completeness of the list.** -/
theorem commit_of_exec {t : Txn} {db db' : Db} {a : Answer} (h : (machine P policy).exec t db = .ok (a, db')) :
    Commit P t db a db' := by
  obtain ⟨op, _, _⟩ := t
  cases op with
  | registerRun runID key registration =>
    obtain ⟨⟨created, db₁⟩, hexec, heq⟩ := map_ok_iff.mp h
    cases heq
    obtain ⟨hvalidate, hregister⟩ := then_ok_iff.mp hexec
    have hvalid := validateRegistration_ok hvalidate
    obtain rfl := hvalid.key_eq
    rcases registerRun_ok hregister with ⟨runs, hins, rfl, rfl⟩ | ⟨run, hrun, hid, hhash, rfl, rfl⟩
    · exact .registerNew runID registration runs rfl hvalid hins
    · exact .registerAgain runID registration run rfl hvalid (Db.run?_eq_some.mpr ⟨hrun, hid⟩) hhash
  | terminateRun runID key terminal =>
    obtain ⟨⟨created, db₁⟩, hexec, heq⟩ := map_ok_iff.mp h
    cases heq
    obtain ⟨hvalidate, hterminate⟩ := then_ok_iff.mp hexec
    obtain ⟨-, hterminal, rfl⟩ := validateTerminal_ok hvalidate
    obtain ⟨run, hrun, hcases⟩ := terminateRun_ok hterminate
    rcases hcases with ⟨-, rfl, rfl⟩ | ⟨hstatus, rfl, rfl⟩
    · exact .terminateAgain runID _ terminal rfl
    · exact .terminate runID terminal run rfl hterminal hrun hstatus
  | claimShard runID workerID token =>
    obtain ⟨⟨_, db₁⟩, hexec, heq⟩ := map_ok_iff.mp h
    cases heq
    obtain ⟨-, hexec⟩ := then_ok_iff.mp hexec
    obtain ⟨-, hexec⟩ := then_ok_iff.mp hexec
    obtain ⟨⟨⟨_, expiresAt⟩, db₂⟩, hclaim, hreturn⟩ := bind_ok_iff.mp hexec
    cases hreturn
    obtain ⟨run, hrun, hqueued, hstatus, hcases⟩ := claimShard_ok hclaim
    have hleasing := RunRow.leasing_iff.mpr ⟨hqueued, hstatus⟩
    rcases hcases with ⟨held, hheld, hresult, rfl⟩ | ⟨candidate, hnone, hcandidate, hresult, rfl⟩
    · cases hresult
      exact .reclaim runID workerID token run held rfl hrun hleasing hheld
    · cases hresult
      exact .claim runID workerID token run candidate rfl hrun hleasing hnone hcandidate
  | renewShardLease runID shardIndex leaseToken =>
    obtain ⟨⟨_, db₁⟩, hexec, heq⟩ := map_ok_iff.mp h
    cases heq
    obtain ⟨-, hexec⟩ := then_ok_iff.mp hexec
    obtain ⟨hindex, hexec⟩ := then_ok_iff.mp hexec
    simp only [invalid_eq_ok, Bool.or_eq_false_iff, decide_eq_false_iff_not, not_lt] at hindex
    obtain ⟨⟨expiresAt, _⟩, hrenew, hreturn⟩ := bind_ok_iff.mp hexec
    cases hreturn
    obtain ⟨⟨row, hrow, hrenewable⟩, rfl, rfl⟩ := renewShardLease_ok hrenew
    exact .renew runID shardIndex leaseToken row _ rfl hindex.1.1 hrow hrenewable
  | reserveShard call =>
    obtain ⟨⟨_, db₁⟩, hexec, heq⟩ := map_ok_iff.mp h
    cases heq
    obtain ⟨hvalid, hreserve⟩ := then_ok_iff.mp hexec
    obtain ⟨run, hrun, hindex, hlease, hcases⟩ := reserveShard_ok hreserve
    rcases hcases with ⟨receipts, hins, rfl, rfl⟩ | ⟨existing, hexisting, hhash, rfl, rfl⟩
    · exact .reserveNew call run receipts rfl hvalid hrun hindex hlease hins
    · exact .reserveAgain call run existing rfl hvalid hrun hlease hexisting hhash
  | finalizeShard call pricing =>
    obtain ⟨⟨_, db₁⟩, hexec, heq⟩ := map_ok_iff.mp h
    cases heq
    obtain ⟨hvalid, hfinalize⟩ := then_ok_iff.mp hexec
    obtain ⟨run, receipt, hrun, hreceipt, hlease, hhash, hcases⟩ := finalizeShard_ok hfinalize
    rcases hcases with ⟨hcomplete, rfl, rfl⟩ | ⟨hpending, rfl, stored, hstored, hrefresh⟩
    · exact .finalizeAgain call pricing run receipt rfl hrun hlease hreceipt hcomplete
    · exact .finalize call pricing run receipt stored db₁ rfl hvalid hrun hlease hreceipt hhash hpending hstored
        hrefresh
  | acquirePermit =>
    obtain ⟨-, _, hacquire, rfl⟩ := exec_acquirePermit_ok h
    obtain ⟨permits, rateEvents, rfl⟩ := acquirePermit_frame hacquire
    exact .permit permits rateEvents _ rfl rfl
  | renewPermit =>
    obtain ⟨_, hrenew, rfl⟩ := exec_renewPermit_ok h
    obtain rfl := renewPermit_ok hrenew
    exact .permit _ db.rateEvents _ rfl rfl
  | releasePermit =>
    obtain ⟨hrelease, rfl⟩ := exec_releasePermit_ok h
    obtain rfl := releasePermit_ok hrelease
    exact .permit _ db.rateEvents _ rfl rfl

/-- A step leads to what holds already and what every commit leads to. -/
theorem step_of_commit {Q : Db → Prop} {t : Txn} {db : Db} (hdb : Q db) (h : ∀ {a db'}, Commit P t db a db' → Q db') :
    Q ((machine P policy).step db t) := by
  rcases Transactional.step_cases (M := machine P policy) db t with heq | ⟨a, _, hexec, heq⟩
  · rw [heq]
    exact hdb
  · rw [heq]
    exact h (commit_of_exec hexec)

end AgentStorm.Results
