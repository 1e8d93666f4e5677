import AgentStorm.Results.Lifecycle

/-!
# `Results.Coupling` — queue rows, receipts and run status in step

The queue of a run is written by five transactions, its receipts by two others and its status by a
third group. `QueueStep` lists what a commit can do to one queue row; `Coupled` ties the queue to
receipts and run status. Registering a run again inserts queue rows whenever the hash of its document
matches, so the invariant needs that two registrations of a history with one hash are one registration.
-/

namespace AgentStorm.Results

open Checks Collecting Machine Relational

variable {P : Platform} {policy : LimitPolicy} {t : Txn} {db db' : Db} {a : Answer}

/-! ## The rows a registration inserts -/

variable {runID : String} {queue : Table QueueRow} {q : QueueRow}

theorem insertShards_succ (runID : String) (n : Nat) (queue : Table QueueRow) :
    insertShards runID (n + 1) queue = (insertShards runID n queue).insertIgnore (newQueueRow runID n) := by
  simp [insertShards, List.range_succ, List.foldl_append, List.foldl_cons, List.foldl_nil]

theorem mem_insertShards_of_mem (hq : q ∈ queue) (n : Nat) : q ∈ insertShards runID n queue := by
  induction n with
  | zero => exact hq
  | succ n ih =>
    rw [insertShards_succ]
    exact Table.mem_insertIgnore_of_mem ih

theorem mem_insertShards {n : Nat} (hq : q ∈ insertShards runID n queue) :
    q ∈ queue ∨ ∃ i < n, q = newQueueRow runID i := by
  induction n with
  | zero => exact .inl hq
  | succ n ih =>
    rw [insertShards_succ] at hq
    rcases Table.mem_of_mem_insertIgnore hq with hold | rfl
    · rcases ih hold with hmem | ⟨i, hi, rfl⟩
      · exact .inl hmem
      · exact .inr ⟨i, by omega, rfl⟩
    · exact .inr ⟨n, by omega, rfl⟩

theorem insertShards_covers (runID : String) (n : Nat) (queue : Table QueueRow) :
    ∀ i < n, ∃ q ∈ insertShards runID n queue, q.runID = runID ∧ q.shardIndex = i := by
  induction n with
  | zero => intro i hi; omega
  | succ n ih =>
    intro i hi
    rw [insertShards_succ]
    by_cases hin : i < n
    · obtain ⟨q, hq, hkey⟩ := ih i hin
      exact ⟨q, Table.mem_insertIgnore_of_mem hq, hkey⟩
    · obtain rfl : i = n := by omega
      exact Table.exists_conflict_insertIgnore _ (newQueueRow runID i)

/-- Where every shard already has its row, nothing is inserted. -/
theorem insertShards_of_covered {n : Nat} (h : ∀ i < n, ∃ q ∈ queue, q.runID = runID ∧ q.shardIndex = i) :
    insertShards runID n queue = queue := by
  induction n with
  | zero => rfl
  | succ n ih =>
    have hprev : insertShards runID n queue = queue := ih fun i hi => h i (by omega)
    obtain ⟨q, hq, hrun, hidx⟩ := h n (by omega)
    rw [insertShards_succ, hprev]
    exact Table.insertIgnore_of_conflict hq ⟨hrun, hidx⟩

/-! ## The invariant -/

variable {docs : Set Registration}

structure QueueSound (db : Db) (q : QueueRow) : Prop where
  run : ∃ r ∈ db.runs, r.id = q.runID ∧ r.registration.queued = true ∧ q.shardIndex < r.expectedShards
  complete_iff : q.state = .complete ↔ q.shardIndex ∈ db.doneShards q.runID
  owner_iff : q.leaseOwner.isSome = true ↔ q.state = .leased
  token_iff : q.leaseTokenHash.isSome = true ↔ q.state = .leased
  expiry_iff : q.leaseExpiresAt.isSome = true ↔ q.state = .leased
  collecting : ∀ r ∈ db.runs, r.id = q.runID → r.status = .collecting → q.state ≠ .cancelled
  left : ∀ r ∈ db.runs, r.id = q.runID → r.status ≠ .collecting → q.state ≠ .queued ∧ q.state ≠ .leased

/-- `docs` are the registration documents of the history. -/
structure Coupled (P : Platform) (docs : Set Registration) (db : Db) : Prop where
  standing : Standing P db
  registrations : ∀ r ∈ db.runs, r.registration ∈ docs
  rows : ∀ q ∈ db.queue, QueueSound db q
  covers : ∀ r ∈ db.runs, r.registration.queued = true → ∀ i < r.expectedShards,
    ∃ q ∈ db.queue, q.runID = r.id ∧ q.shardIndex = i

def registration? (t : Txn) : Option Registration :=
  match t.op with
  | .registerRun _ _ registration => some registration
  | _ => none

/-- The documents registered in a history. -/
def registrations (es : List Txn) : Set Registration := { registration | registration ∈ es.filterMap registration? }

/-- A transaction that registers nothing outside `docs`. -/
def RegistersIn (docs : Set Registration) (t : Txn) : Prop :=
  ∀ runID key registration, t.op = .registerRun runID key registration → registration ∈ docs

/-- A repeated registration finds every queue row in place. -/
theorem Coupled.enqueue_again (hc : Coupled P docs db) (hinj : Set.InjOn P.registrationHash docs)
    {registration : Registration} {run : RunRow} (hdoc : registration ∈ docs)
    (hrun : db.run? runID = some run) (hhash : run.registrationHash = P.registrationHash registration) :
    enqueueRunShards runID registration db = db := by
  obtain ⟨hmem, rfl⟩ := Db.run?_eq_some.mp hrun
  have hsound := hc.standing.sound.runs run hmem
  have heq : run.registration = registration :=
    hinj (hc.registrations run hmem) hdoc (hsound.hash.symm.trans hhash)
  unfold enqueueRunShards
  by_cases hqueued : registration.queued = true
  · rw [if_pos hqueued, ← heq, ← hsound.expected,
      insertShards_of_covered (hc.covers run hmem (by rw [heq]; exact hqueued))]
  · rw [if_neg hqueued]

/-! ## One transaction -/

/-- The worker and the token a log entry leases a shard to: it is a claim that got that shard. -/
def grantOf (runID : String) (shardIndex : Nat) (entry : Txn × Except ApiError Answer) : Option (String × String) :=
  match entry.2, entry.1.op with
  | .ok (.claimed claim), .claimShard id workerID token =>
    if id = runID ∧ claim.shardIndex = shardIndex then some (workerID, token.text) else none
  | _, _ => none

theorem grantOf_of_permit {i : Nat} (ha : a.permit = true) : grantOf runID i (t, .ok a) = none := by
  cases a <;> first | rfl | nomatch ha

/-- What a commit does to one queue row. -/
inductive QueueStep (P : Platform) (t : Txn) (db : Db) (a : Answer) (db' : Db) (q : QueueRow) : QueueRow → Prop
  | keep (hquiet : grantOf q.runID q.shardIndex (t, .ok a) = none)
      (hended : terminates q.runID (t, .ok a) = true → q.state = .complete)
      (hdone : q.shardIndex ∈ db'.doneShards q.runID ↔ q.shardIndex ∈ db.doneShards q.runID) :
      QueueStep P t db a db' q q
  | relet (workerID : String) (token : SchedulerToken) (run : RunRow) (held : QueueRow)
      (hop : t.op = .claimShard q.runID workerID token)
      (hrun : db.run? q.runID = some run) (hleasing : run.leasing = true)
      (hfirst : db.queue.first? (heldBy t.now q.runID workerID) = some held)
      (ha : a = .claimed ⟨held.shardIndex, token.text, leaseUntil t.now shardLeaseDurationMS,
        shardLeaseDurationMS / 3⟩)
      (hheld : heldBy t.now q.runID workerID q = true) (hruns : db'.runs = db.runs)
      (hreceipts : db'.receipts = db.receipts) :
      QueueStep P t db a db' q (q.relet (P.tokenHash token.text) (leaseUntil t.now shardLeaseDurationMS))
  | leased (workerID : String) (token : SchedulerToken) (run : RunRow)
      (hop : t.op = .claimShard q.runID workerID token)
      (hrun : db.run? q.runID = some run) (hleasing : run.leasing = true)
      (hnone : db.queue.first? (heldBy t.now q.runID workerID) = none)
      (ha : a = .claimed ⟨q.shardIndex, token.text, leaseUntil t.now shardLeaseDurationMS,
        shardLeaseDurationMS / 3⟩)
      (hclaimable : q.claimableAt t.now = true) (hruns : db'.runs = db.runs)
      (hreceipts : db'.receipts = db.receipts) :
      QueueStep P t db a db' q
        (q.lease workerID (P.tokenHash token.text) (leaseUntil t.now shardLeaseDurationMS))
  | extended (leaseToken : String) (lease : QueueLease)
      (hop : t.op = .renewShardLease q.runID q.shardIndex leaseToken) (ha : a = .renewed lease)
      (hopen : q.openedBy t.now (P.tokenHash leaseToken) = true) (hruns : db'.runs = db.runs)
      (hreceipts : db'.receipts = db.receipts) :
      QueueStep P t db a db' q (q.extend (leaseUntil t.now shardLeaseDurationMS))
  | cancelled (hended : terminates q.runID (t, .ok a) = true) (hstate : q.state ≠ .complete)
      (hreceipts : db'.receipts = db.receipts) : QueueStep P t db a db' q (q.settle .cancelled)
  | completed (call : UploadCall) (pricing : Option RunPricing) (hop : t.op = .finalizeShard call pricing)
      (ha : a = .finalized true) (hrun : call.runID = q.runID) (hindex : call.shardIndex.toNat = q.shardIndex)
      (hdone : q.shardIndex ∈ db'.doneShards q.runID) : QueueStep P t db a db' q (q.settle .complete)

theorem QueueStep.key {q' : QueueRow} (h : QueueStep P t db a db' q q') :
    q'.runID = q.runID ∧ q'.shardIndex = q.shardIndex := by
  cases h <;> exact ⟨rfl, rfl⟩

/-- A claim that got another shard. -/
theorem queueStep_claim_other {workerID : String} {token : SchedulerToken} {claim : QueueClaim}
    {held : QueueRow} (hop : t.op = .claimShard runID workerID token) (ha : a = .claimed claim)
    (hheld : held ∈ db.queue) (hrun : held.runID = runID) (hindex : claim.shardIndex = held.shardIndex)
    (hq : q ∈ db.queue) (hne : q ≠ held) (hreceipts : db'.receipts = db.receipts) :
    QueueStep P t db a db' q q := by
  have hquiet : grantOf q.runID q.shardIndex (t, .ok a) = none := by
    simp only [grantOf, ha, hop, hindex]
    rw [if_neg]
    rintro ⟨hrun', hindex'⟩
    exact hne (db.queue.eq_of_conflict hq hheld ⟨hrun'.symm.trans hrun.symm, hindex'.symm⟩)
  refine .keep hquiet (fun hended => ?_) (by rw [doneShards_congr hreceipts])
  rw [ha] at hended
  cases hended

section Steps

variable {docs : Set Registration} (hc : Coupled P docs db) (hinj : Set.InjOn P.registrationHash docs)
  (hdocs : RegistersIn docs t)

include hc in
/-- The run of a queue row is the run its id names. -/
theorem Coupled.queued_run {q : QueueRow} (hq : q ∈ db.queue) {r : RunRow} (hr : r ∈ db.runs)
    (hid : r.id = q.runID) : r.registration.queued = true ∧ q.shardIndex < r.expectedShards := by
  obtain ⟨r', hr', hid', hrest⟩ := (hc.rows q hq).run
  rw [db.runs.eq_of_conflict hr hr' (Or.inl (hid.trans hid'.symm))]
  exact hrest

include hc hinj hdocs in
/-- **Every commit is one of the six**, for every queue row there is. -/
theorem Commit.queueStep (h : Commit P t db a db') {q : QueueRow} (hq : q ∈ db.queue) :
    ∃ q' ∈ db'.queue, QueueStep P t db a db' q q' := by
  cases h with
  | registerNew runID registration runs =>
    have hdone := doneShards_congr (enqueueRunShards_receipts runID registration { db with runs := runs }) q.runID
    refine ⟨q, ?_, .keep rfl (by intro hended; cases hended) (by rw [hdone]; exact Iff.rfl)⟩
    unfold enqueueRunShards
    split
    · exact mem_insertShards_of_mem hq _
    · exact hq
  | registerAgain _ _ _ hop _ hrun hhash =>
    rw [hc.enqueue_again hinj (hdocs _ _ _ hop) hrun hhash]
    exact ⟨q, hq, .keep rfl (by intro hended; cases hended) Iff.rfl⟩
  | terminate runID _ _ hop =>
    have hended : ∀ id, terminates id (t, .ok (.terminated true)) = true ↔ id = runID := by
      intro id
      rw [terminates_iff, hop]
      constructor
      · rintro ⟨-, _, _, heq⟩
        exact (Op.terminateRun.inj heq).1.symm
      · rintro rfl
        exact ⟨rfl, _, _, rfl⟩
    by_cases hp : q.runID = runID ∧ q.state ≠ .complete
    · exact ⟨_, Table.mem_update_of (keepsKeys_settle _) hq (by simpa using hp),
        .cancelled ((hended _).mpr hp.1) hp.2 rfl⟩
    · refine ⟨q, Table.mem_update_of_not (keepsKeys_settle _) hq (by simpa using hp), .keep rfl ?_ Iff.rfl⟩
      intro hterm
      by_contra hstate
      exact hp ⟨(hended _).mp hterm, hstate⟩
  | reclaim runID workerID token run held hop hrun hleasing hheld =>
    obtain ⟨hmem, hpred⟩ := Table.mem_of_first? hheld
    have hrunID : held.runID = runID := by simp only [heldBy, Bool.and_eq_true, decide_eq_true_eq] at hpred; exact hpred.1.1
    by_cases hp : heldBy t.now runID workerID q = true
    · have hq' : q.runID = runID := by simp only [heldBy, Bool.and_eq_true, decide_eq_true_eq] at hp; exact hp.1.1
      subst hq'
      exact ⟨_, Table.mem_update_of (keepsKeys_relet _ _) hq hp,
        .relet workerID token run held hop hrun hleasing hheld rfl hp rfl rfl⟩
    · refine ⟨q, Table.mem_update_of_not (keepsKeys_relet _ _) hq (by simpa using hp), ?_⟩
      refine queueStep_claim_other hop rfl hmem hrunID rfl hq ?_ rfl
      rintro rfl
      exact hp hpred
  | claim _ workerID token run candidate hop hrun hleasing hnone hcandidate =>
    obtain ⟨hmem, hpred⟩ := Table.mem_select.mp (List.argmin_mem hcandidate)
    simp only [Bool.and_eq_true, decide_eq_true_eq] at hpred
    by_cases hp : q = candidate
    · subst hp
      obtain ⟨rfl, hclaimable⟩ := hpred
      exact ⟨_, Table.mem_update_of (keepsKeys_lease _ _ _) hq (by simp),
        .leased workerID token run hop hrun hleasing hnone rfl hclaimable rfl rfl⟩
    · refine ⟨q, Table.mem_update_of_not (keepsKeys_lease _ _ _) hq ?_,
        queueStep_claim_other hop rfl hmem hpred.1 rfl hq hp rfl⟩
      simp only [decide_eq_false_iff_not]
      rintro ⟨hrun', hidx'⟩
      exact hp (db.queue.eq_of_conflict hq hmem ⟨hrun'.trans hpred.1.symm, hidx'⟩)
  | renew runID shardIndex leaseToken _ lease hop hindex =>
    by_cases hp : renewable t.now runID shardIndex.toNat (P.tokenHash leaseToken) q = true
    · have hp' := hp
      simp only [renewable, Bool.and_eq_true, decide_eq_true_eq] at hp'
      obtain ⟨⟨rfl, hidx⟩, hopen⟩ := hp'
      refine ⟨_, Table.mem_update_of (keepsKeys_extend _) hq hp, .extended leaseToken lease ?_ rfl hopen rfl rfl⟩
      rw [hop, hidx, Int.toNat_of_nonneg hindex]
    · exact ⟨q, Table.mem_update_of_not (keepsKeys_extend _) hq (by simpa using hp),
        .keep rfl (by intro hended; cases hended) Iff.rfl⟩
  | reserveNew _ _ receipts _ _ _ _ _ hins =>
    have hdone : ({ db with receipts := receipts } : Db).doneShards q.runID = db.doneShards q.runID :=
      doneShards_insert hins rfl _
    exact ⟨q, hq, .keep rfl (by intro hended; cases hended) (by rw [hdone])⟩
  | finalize call pricing run _ _ _ hop _ hrun _ hreceipt _ _ _ hrefresh =>
    obtain ⟨hreceipts, -, hqueue, -⟩ := refreshAggregate_frame hrefresh
    obtain ⟨hmem, hid⟩ := Db.run?_eq_some.mp hrun
    by_cases hkey : q.runID = call.runID ∧ q.shardIndex = call.shardIndex.toNat
    · -- the shard's own row: its run is queued, so the statement ran
      have hqueued := (hc.queued_run hq hmem (hid.trans hkey.1.symm)).1
      refine ⟨q.settle .complete, ?_, .completed call pricing hop rfl hkey.1.symm hkey.2.symm ?_⟩
      · rw [hqueue, completeShard, hqueued]
        exact Table.mem_update_of (keepsKeys_settle _) hq (by simp [hkey])
      · rw [hkey.1, doneShards_finish hreceipt hreceipts, hkey.2]
        exact Set.mem_insert _ _
    · refine ⟨q, ?_, .keep rfl (by intro hended; cases hended) ?_⟩
      · rw [hqueue, completeShard]
        split
        · exact Table.mem_update_of_not (keepsKeys_settle _) hq (by simpa using hkey)
        · exact hq
      · by_cases hrunID : q.runID = call.runID
        · rw [hrunID, doneShards_finish hreceipt hreceipts, Set.mem_insert_iff, or_iff_right]
          exact fun hidx => hkey ⟨hrunID, hidx⟩
        · rw [doneShards_finish_of_ne hrunID hreceipts]
  | permit permits rateEvents a hanswer =>
    refine ⟨q, hq, .keep (grantOf_of_permit hanswer) (fun hended => ?_) Iff.rfl⟩
    rw [terminates_of_permit hanswer] at hended
    cases hended
  | terminateAgain | reserveAgain | finalizeAgain =>
    exact ⟨q, hq, .keep rfl (by intro hended; cases hended) Iff.rfl⟩

include hc hinj hdocs in
/-- Where the queue rows after a commit come from. -/
theorem Commit.queueStep_back (h : Commit P t db a db') {q' : QueueRow} (hq' : q' ∈ db'.queue) :
    (∃ q ∈ db.queue, QueueStep P t db a db' q q') ∨
    (∃ runID registration i, t.op = .registerRun runID (registrationKey runID) registration ∧
      RegistrationAccepted runID (registrationKey runID) registration ∧ (∀ r ∈ db.runs, r.id ≠ runID) ∧
      newRun t.now runID (registrationKey runID) (P.registrationHash registration) registration ∈ db'.runs ∧
      registration.queued = true ∧ i < registration.expectedShards.toNat ∧ q' = newQueueRow runID i) := by
  have hold : ∀ q ∈ db.queue, q'.runID = q.runID ∧ q'.shardIndex = q.shardIndex →
      ∃ q ∈ db.queue, QueueStep P t db a db' q q' := by
    intro q hq hkey
    obtain ⟨_, hq'', hstep⟩ := h.queueStep hc hinj hdocs hq
    have heq := db'.queue.eq_of_conflict hq'' hq'
      ⟨hstep.key.1.trans hkey.1.symm, hstep.key.2.trans hkey.2.symm⟩
    exact ⟨q, hq, heq ▸ hstep⟩
  cases h with
  | registerNew runID registration runs hop hvalid hins =>
    have hmem : newRun t.now runID (registrationKey runID) (P.registrationHash registration) registration ∈
        (enqueueRunShards runID registration { db with runs := runs }).runs := by
      rw [enqueueRunShards_runs]
      exact (Table.mem_of_insert hins).mpr (Or.inr rfl)
    have hsplit := hq'
    unfold enqueueRunShards at hsplit
    split at hsplit
    · rename_i hqueued
      rcases mem_insertShards hsplit with hq | ⟨i, hi, rfl⟩
      · exact .inl (hold q' hq ⟨rfl, rfl⟩)
      · exact .inr ⟨runID, registration, i, hop, hvalid,
          fun r hr hid => Table.not_conflict_of_insert hins hr (Or.inl hid), hmem, hqueued, hi, rfl⟩
    · exact .inl (hold q' hsplit ⟨rfl, rfl⟩)
  | registerAgain _ _ _ hop _ hrun hhash =>
    rw [hc.enqueue_again hinj (hdocs _ _ _ hop) hrun hhash] at hq'
    exact .inl (hold q' hq' ⟨rfl, rfl⟩)
  | terminate | reclaim | claim | renew =>
    simp only [cancelRun, reletShards, leaseShard, extendLease, Table.mem_update] at hq'
    obtain ⟨q, hq, heq⟩ := hq'
    refine .inl (hold q hq ?_)
    rw [heq]
    split <;> exact ⟨rfl, rfl⟩
  | finalize _ _ _ _ _ _ _ _ _ _ _ _ _ _ hrefresh =>
    have hqueue := (refreshAggregate_frame hrefresh).2.2.1
    rw [hqueue, completeShard] at hq'
    split at hq'
    · simp only [Table.mem_update] at hq'
      obtain ⟨q, hq, heq⟩ := hq'
      refine .inl (hold q hq ?_)
      rw [heq]
      split <;> exact ⟨rfl, rfl⟩
    · exact .inl (hold q' hq' ⟨rfl, rfl⟩)
  | terminateAgain | reserveNew | reserveAgain | finalizeAgain | permit => exact .inl (hold q' hq' ⟨rfl, rfl⟩)

end Steps

/-! ## Preservation -/

variable {now : Time}

theorem QueueRow.state_of_liveAt (h : q.liveAt now = true) : q.state = .leased := by
  simp only [QueueRow.liveAt, Bool.and_eq_true, decide_eq_true_eq] at h
  exact h.1

theorem QueueRow.state_of_claimableAt (h : q.claimableAt now = true) :
    q.state = .queued ∨ q.state = .leased := by
  simp only [QueueRow.claimableAt, Bool.or_eq_true, Bool.and_eq_true, decide_eq_true_eq] at h
  exact h.imp id And.left

theorem liveAt_of_heldBy {workerID : String} (h : heldBy now runID workerID q = true) :
    q.liveAt now = true := by
  simp only [heldBy, Bool.and_eq_true] at h
  exact h.2

theorem QueueRow.liveAt_of_openedBy {leaseHash : String} (h : q.openedBy now leaseHash = true) :
    q.liveAt now = true := by
  simp only [QueueRow.openedBy, Bool.and_eq_true] at h
  exact h.1

section Preservation

variable {q q' : QueueRow}

/-- A row is complete with its receipt. -/
theorem QueueStep.complete_iff (h : QueueStep P t db a db' q q') (hq : QueueSound db q) :
    q'.state = .complete ↔ q'.shardIndex ∈ db'.doneShards q'.runID := by
  cases h with
  | keep hquiet hended hdone => exact hq.complete_iff.trans hdone.symm
  | relet _ _ _ _ _ _ _ _ _ _ _ hreceipts =>
    show q.state = .complete ↔ q.shardIndex ∈ db'.doneShards q.runID
    rw [doneShards_congr hreceipts]
    exact hq.complete_iff
  | leased _ _ _ _ _ _ _ _ hclaimable _ hreceipts =>
    show QueueState.leased = .complete ↔ q.shardIndex ∈ db'.doneShards q.runID
    rw [doneShards_congr hreceipts, ← hq.complete_iff]
    rcases QueueRow.state_of_claimableAt hclaimable with hs | hs <;> simp [hs]
  | extended _ _ _ _ _ _ hreceipts =>
    show q.state = .complete ↔ q.shardIndex ∈ db'.doneShards q.runID
    rw [doneShards_congr hreceipts]
    exact hq.complete_iff
  | cancelled hended hstate hreceipts =>
    show QueueState.cancelled = .complete ↔ q.shardIndex ∈ db'.doneShards q.runID
    rw [doneShards_congr hreceipts, ← hq.complete_iff]
    simp [hstate]
  | completed _ _ _ _ _ _ hdone => exact ⟨fun _ => hdone, fun _ => rfl⟩

/-- The lease columns are null together. -/
theorem QueueStep.lease_iff (h : QueueStep P t db a db' q q') (hq : QueueSound db q) :
    (q'.leaseOwner.isSome = true ↔ q'.state = .leased) ∧ (q'.leaseTokenHash.isSome = true ↔ q'.state = .leased) ∧
    (q'.leaseExpiresAt.isSome = true ↔ q'.state = .leased) := by
  cases h with
  | keep => exact ⟨hq.owner_iff, hq.token_iff, hq.expiry_iff⟩
  | relet _ _ _ _ _ _ _ _ _ hheld =>
    have hstate := QueueRow.state_of_liveAt (liveAt_of_heldBy hheld)
    exact ⟨hq.owner_iff, by simp [QueueRow.relet, hstate], by simp [QueueRow.relet, hstate]⟩
  | leased => simp [QueueRow.lease]
  | extended _ _ _ _ hopen =>
    have hstate := QueueRow.state_of_liveAt (QueueRow.liveAt_of_openedBy hopen)
    exact ⟨hq.owner_iff, hq.token_iff, by simp [QueueRow.extend, hstate]⟩
  | cancelled => simp [QueueRow.settle]
  | completed => simp [QueueRow.settle]

/-- A row of a collecting run is not cancelled. -/
theorem QueueStep.collecting {r r' : RunRow} (h : QueueStep P t db a db' q q') (hq : QueueSound db q)
    (hlive : RunLive db r) (hr : r ∈ db.runs) (hstep : RunStep P t db a db' r r') (hid : r.id = q.runID)
    (hstatus : r'.status = .collecting) : q'.state ≠ .cancelled := by
  have hbefore : r.status = .collecting := by
    by_contra hleft
    exact hleft ((hstep.sameEnd hlive hleft).status_eq.symm.trans hstatus)
  have hopen := hq.collecting r hr hid hbefore
  cases h with
  | keep => exact hopen
  | relet => exact hopen
  | leased => exact nofun
  | extended => exact hopen
  | cancelled hended =>
    have hterm := hstep.terminal_of_terminates (hid ▸ hended)
    rw [hstatus] at hterm
    cases hterm
  | completed => exact nofun

/-- The commit that terminates a run leaves no row of it open. -/
theorem QueueStep.settled_of_terminates (h : QueueStep P t db a db' q q')
    (hterm : terminates q.runID (t, .ok a) = true) : q'.state = .complete ∨ q'.state = .cancelled := by
  obtain ⟨rfl, -⟩ := terminates_iff.mp hterm
  cases h with
  | keep hquiet hended => exact .inl (hended hterm)
  | cancelled => exact .inr rfl
  | relet _ _ _ _ _ _ _ _ ha => cases ha
  | leased _ _ _ _ _ _ _ ha => cases ha
  | extended _ _ _ ha => cases ha
  | completed _ _ _ ha => cases ha

/-- Only an open row can be leased or renewed, so a settled row stays settled. -/
theorem QueueStep.settled (h : QueueStep P t db a db' q q') (hqueued : q.state ≠ .queued) (hleased : q.state ≠ .leased) :
    q'.state ≠ .queued ∧ q'.state ≠ .leased := by
  cases h with
  | keep => exact ⟨hqueued, hleased⟩
  | relet _ _ _ _ _ _ _ _ _ hheld =>
    exact absurd (QueueRow.state_of_liveAt (liveAt_of_heldBy hheld)) hleased
  | leased _ _ _ _ _ _ _ _ hclaimable =>
    rcases QueueRow.state_of_claimableAt hclaimable with hs | hs
    · exact absurd hs hqueued
    · exact absurd hs hleased
  | extended _ _ _ _ hopen =>
    exact absurd (QueueRow.state_of_liveAt (QueueRow.liveAt_of_openedBy hopen)) hleased
  | cancelled => exact ⟨nofun, nofun⟩
  | completed => exact ⟨nofun, nofun⟩

/-- No row of a run that has left `collecting` is open. -/
theorem QueueStep.left {r r' : RunRow} (h : QueueStep P t db a db' q q') (hq : QueueSound db q)
    (hr : r ∈ db.runs) (hstep : RunStep P t db a db' r r') (hid : r.id = q.runID)
    (hlt : q.shardIndex < r.expectedShards) (hleft : r'.status ≠ .collecting) :
    q'.state ≠ .queued ∧ q'.state ≠ .leased := by
  have hclosed : q'.state = .complete ∨ q'.state = .cancelled → q'.state ≠ .queued ∧ q'.state ≠ .leased := by
    rintro (hs | hs) <;> rw [hs] <;> exact ⟨nofun, nofun⟩
  by_cases hbefore : r.status = .collecting
  · cases hstep with
    | keep => exact absurd hbefore hleft
    | ended terminal hop ha =>
      exact hclosed (h.settled_of_terminates (hid ▸ terminates_iff.mpr ⟨ha, _, _, hop⟩))
    | refreshed _ all _ _ hall =>
      -- the last shard came in: every row is complete with its receipt
      refine hclosed (Or.inl ((h.complete_iff hq).mpr ?_))
      have hfull : all = true := by
        cases all with
        | true => rfl
        | false => exact absurd (by simp [RunRow.refresh, hbefore, RunStatus.terminal]) hleft
      rw [h.key.1, h.key.2, ← hid]
      exact hall.mp hfull q.shardIndex hlt
  · obtain ⟨hqueued, hleased⟩ := hq.left r hr hid hbefore
    exact h.settled hqueued hleased

end Preservation

/-- A run that is just being registered gets all its queue rows. -/
theorem Commit.enqueued (h : Commit P t db a db') {key : String} {registration : Registration}
    {r : RunRow} (hop : t.op = .registerRun runID key registration) (hr : r ∈ db'.runs)
    (hid : r.id = runID) (hnew : ∀ r ∈ db.runs, r.id ≠ runID) (hqueued : registration.queued = true) :
    ∀ i < registration.expectedShards.toNat, ∃ q ∈ db'.queue, q.runID = runID ∧ q.shardIndex = i := by
  cases h with
  | registerNew runID' registration' runs hop' =>
    rw [hop] at hop'
    obtain ⟨rfl, -, rfl⟩ := Op.registerRun.inj hop'
    rw [enqueueRunShards, if_pos hqueued]
    exact insertShards_covers _ _ _
  | registerAgain =>
    rw [enqueueRunShards_runs] at hr
    exact absurd hid (hnew r hr)
  | permit => exact absurd hid (hnew r hr)
  | terminate _ _ _ hop' | terminateAgain _ _ _ hop' | reclaim _ _ _ _ _ hop' | claim _ _ _ _ _ hop' | renew _ _ _ _ _ hop'
  | reserveNew _ _ _ hop' | reserveAgain _ _ _ hop' | finalize _ _ _ _ _ _ hop' | finalizeAgain _ _ _ _ hop' =>
    rw [hop] at hop'
    cases hop'

theorem Coupled.commit (hc : Coupled P docs db) (hinj : Set.InjOn P.registrationHash docs)
    (hdocs : RegistersIn docs t) (h : Commit P t db a db') : Coupled P docs db' := by
  have hst := hc.standing
  have hst' := hst.commit h
  refine ⟨hst', ?_, ?_, ?_⟩
  · intro r' hr'
    rcases h.run_back hr' with ⟨r, hr, hsame⟩ | ⟨runID, registration, hop, -, rfl, -⟩
    · rw [hsame.registration_eq]
      exact hc.registrations r hr
    · exact hdocs _ _ _ hop
  · intro q' hq'
    rcases h.queueStep_back hc hinj hdocs hq' with ⟨q, hq, hstep⟩ |
      ⟨runID, registration, i, hop, hvalid, hnew, hmem, hqueued, hi, rfl⟩
    · have hqs := hc.rows q hq
      obtain ⟨howner, htoken, hexpiry⟩ := hstep.lease_iff hqs
      obtain ⟨r, hr, hid, hrq, hlt⟩ := hqs.run
      obtain ⟨r', hr', hrun⟩ := h.runStep hst.sound hr
      -- the run row this queue row belongs to, after the commit
      have huniq : ∀ x ∈ db'.runs, x.id = q'.runID → x = r' := by
        intro x hx hxid
        refine db'.runs.eq_of_conflict hx hr' (Or.inl ?_)
        rw [hxid, hrun.same.id_eq, hstep.key.1, hid]
      refine ⟨⟨r', hr', ?_, ?_, ?_⟩, hstep.complete_iff hqs, howner, htoken, hexpiry, ?_, ?_⟩
      · rw [hrun.same.id_eq, hstep.key.1, hid]
      · rw [hrun.same.registration_eq]
        exact hrq
      · rw [hrun.same.expected_eq, hstep.key.2]
        exact hlt
      · intro x hx hxid hstatus
        obtain rfl := huniq x hx hxid
        exact hstep.collecting hqs (hst.live r hr) hr hrun hid hstatus
      · intro x hx hxid hstatus
        obtain rfl := huniq x hx hxid
        exact hstep.left hqs hr hrun hid hlt hstatus
    · have hnone : db'.doneShards runID = ∅ :=
        h.doneShards_new hst.sound hnew fun call heq => by rw [hop] at heq; nomatch heq
      have huniq : ∀ x ∈ db'.runs, x.id = runID →
          x = newRun t.now runID (registrationKey runID) (P.registrationHash registration) registration :=
        fun x hx hxid => db'.runs.eq_of_conflict hx hmem (Or.inl hxid)
      refine ⟨⟨_, hmem, rfl, hqueued, hi⟩, ?_, by simp [newQueueRow], by simp [newQueueRow], by simp [newQueueRow], ?_, ?_⟩
      · show QueueState.queued = .complete ↔ i ∈ db'.doneShards runID
        simp [hnone]
      · exact fun _ _ _ _ => nofun
      · intro x hx hxid hstatus
        rw [huniq x hx hxid] at hstatus
        exact absurd rfl hstatus
  · intro r' hr' hqueued i hi
    rcases h.run_back hr' with ⟨r, hr, hsame⟩ | ⟨_, _, hop, -, rfl, hnew⟩
    · rw [hsame.registration_eq] at hqueued
      rw [hsame.expected_eq] at hi
      obtain ⟨q, hq, hrun, hidx⟩ := hc.covers r hr hqueued i hi
      obtain ⟨q', hq', hstep⟩ := h.queueStep hc hinj hdocs hq
      exact ⟨q', hq', by rw [hstep.key.1, hrun, hsame.id_eq], by rw [hstep.key.2, hidx]⟩
    · exact h.enqueued hop hr' rfl hnew hqueued i hi

theorem coupled_empty (docs : Set Registration) : Coupled P docs Db.empty :=
  ⟨standing_empty, fun _ h => absurd h Table.not_mem_empty, fun _ h => absurd h Table.not_mem_empty,
    fun _ h => absurd h Table.not_mem_empty⟩

theorem Coupled.step (hinj : Set.InjOn P.registrationHash docs) (hc : Coupled P docs db)
    (hdocs : RegistersIn docs t) : Coupled P docs ((machine P policy).step db t) :=
  step_of_commit (Q := Coupled P docs) hc (hc.commit hinj hdocs)

theorem registersIn_registrations {es : List Txn} : ∀ t ∈ es, RegistersIn (registrations es) t :=
  fun t ht _ _ _ hop => List.mem_filterMap.mpr ⟨t, ht, by rw [registration?, hop]⟩

/-- **Every reachable database is coupled**, as long as no two registrations of its history collide. -/
theorem coupled_run {es : List Txn} (hinj : Set.InjOn P.registrationHash (registrations es)) :
    Coupled P (registrations es) ((machine P policy).run Db.empty es) :=
  Transactional.run_invariant (RegistersIn (registrations es)) (Coupled P _)
    (fun _ _ hdocs hc => hc.step hinj hdocs) (coupled_empty _) es registersIn_registrations

end AgentStorm.Results
