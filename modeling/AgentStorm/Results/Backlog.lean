import AgentStorm.Results.Coupling
import AgentStorm.Results.Reference

/-!
# `Results.Backlog` — what `QueueStatus` reports

The autoscaler starts workers from the counts of `QueueStatus`, and those workers claim. Over a coupled database the
counts partition the shards of a collecting run, and `Available` is positive exactly when a claim would succeed.
`queue_coupling` collects this with the invariant of `Coupling` for every reachable database.
-/

namespace AgentStorm.Results

open Checks Collecting Machine Relational

variable {P : Platform} {policy : LimitPolicy} {db : Db}

/-! ## Open rows -/

theorem QueueRow.liveAt_eq_not_claimableAt {q : QueueRow} (now : Time) (hleased : q.state = .leased)
    (hexpiry : q.leaseExpiresAt.isSome = true) : q.liveAt now = !q.claimableAt now := by
  obtain ⟨e, he⟩ := Option.isSome_iff_exists.mp hexpiry
  simp only [QueueRow.liveAt, QueueRow.claimableAt, hleased, he, Option.any_some, decide_true, Bool.true_and,
    reduceCtorEq, decide_false, Bool.false_or]
  by_cases hlt : now < e
  · simp [hlt, not_le.mpr hlt]
  · simp [hlt, not_lt.mp hlt]

/-- A row that is neither cancelled nor complete is claimable or leased, and not both. -/
theorem QueueSound.open_row {q : QueueRow} (hq : QueueSound db q) (hstate : q.state ≠ .cancelled) (now : Time) :
    (q.claimableAt now || (q.liveAt now || decide (q.state = .complete))) = true ∧
    (q.claimableAt now = true → (q.liveAt now || decide (q.state = .complete)) = false) ∧
    (q.liveAt now = true → decide (q.state = .complete) = false) := by
  cases hs : q.state with
  | queued => simp [QueueRow.claimableAt, QueueRow.liveAt, hs]
  | leased =>
    rw [QueueRow.liveAt_eq_not_claimableAt now hs (hq.expiry_iff.mpr hs)]
    cases q.claimableAt now <;> simp
  | complete => simp [QueueRow.claimableAt, QueueRow.liveAt, hs]
  | cancelled => exact absurd hs hstate

section Run

variable {docs : Set Registration} {r : RunRow} (hc : Coupled P docs db) (hr : r ∈ db.runs)
  (hqueued : r.registration.queued = true)

include hc hr hqueued in
/-- A queued run has one queue row a shard. -/
theorem Coupled.count_rows : (db.queue.count fun q => decide (q.runID = r.id)) = r.expectedShards := by
  have hkey : ∀ x ∈ db.queue, ∀ y ∈ db.queue, decide (x.runID = r.id) = true → decide (y.runID = r.id) = true →
      x.shardIndex = y.shardIndex → Record.Conflict x y := by
    intro x _ y _ hx hy hidx
    simp only [decide_eq_true_eq] at hx hy
    exact ⟨hx.trans hy.symm, hidx⟩
  have hlt : ∀ x ∈ db.queue, decide (x.runID = r.id) = true → x.shardIndex < r.expectedShards := by
    intro x hx hrun
    simp only [decide_eq_true_eq] at hrun
    exact (hc.queued_run hx hr hrun.symm).2
  rw [Table.count_eq_iff_covers hkey hlt]
  intro i hi
  obtain ⟨q, hq, hrun, hidx⟩ := hc.covers r hr hqueued i hi
  exact ⟨q, hq, by simp [hrun], hidx⟩

include hc hr hqueued in
/-- The three counts of a collecting run add up to its shards. -/
theorem Coupled.counts (hstatus : r.status = .collecting) (now : Time) :
    (db.queue.count fun q => decide (q.runID = r.id) && q.claimableAt now) +
      (db.queue.count fun q => decide (q.runID = r.id) && q.liveAt now) +
      (db.queue.count fun q => decide (q.runID = r.id) && decide (q.state = .complete)) = r.expectedShards := by
  have hrow : ∀ q ∈ db.queue, q.runID = r.id → _ := fun q hq hrun =>
    (hc.rows q hq).open_row ((hc.rows q hq).collecting r hr hrun.symm hstatus) now
  rw [add_assoc, ← Table.count_or, ← Table.count_or, ← hc.count_rows hr hqueued]
  · refine Table.count_congr fun q hq => ?_
    by_cases hrun : q.runID = r.id
    · simp only [hrun, decide_true, Bool.true_and]
      exact (hrow q hq hrun).1
    · simp [hrun]
  · intro q hq hclaim
    simp only [Bool.and_eq_true, decide_eq_true_eq] at hclaim
    simp only [hclaim.1, decide_true, Bool.true_and]
    exact (hrow q hq hclaim.1).2.1 hclaim.2
  · intro q hq hlive
    simp only [Bool.and_eq_true, decide_eq_true_eq] at hlive
    simp only [hlive.1, decide_true, Bool.true_and]
    exact (hrow q hq hlive.1).2.2 hlive.2

end Run

/-! ## Claims -/

theorem candidate?_isSome {now : Time} {runID : String} {queue : Table QueueRow} :
    (candidate? now runID queue).isSome = true ↔
      0 < queue.count fun q => decide (q.runID = runID) && q.claimableAt now := by
  rw [Table.count_pos_iff, candidate?, Option.isSome_iff_ne_none, Ne, List.argmin_eq_none,
    List.eq_nil_iff_forall_not_mem]
  simp [Table.mem_select]

/-- Without a lease of its own, a worker gets a shard exactly when one is claimable. -/
theorem claimShard_isOk_iff {now : Time} {r : RunRow} {workerID leaseHash : String} {durationMS : Int}
    (hr : r ∈ db.runs) (hqueued : r.registration.queued = true)
    (hnone : ∀ q ∈ db.queue, heldBy now r.id workerID q = false) :
    (∃ result db', claimShard now r.id workerID leaseHash durationMS db = .ok (result, db')) ↔
      r.status = .collecting ∧ 0 < db.queue.count fun q => decide (q.runID = r.id) && q.claimableAt now := by
  have hrun : db.run? r.id = some r := Db.run?_eq_some.mpr ⟨hr, rfl⟩
  have hheld : db.queue.first? (heldBy now r.id workerID) = none := Table.first?_eq_none.mpr hnone
  rw [← candidate?_isSome]
  constructor
  · rintro ⟨result, db', h⟩
    obtain ⟨run, hrun', -, hstatus, hcases⟩ := claimShard_ok h
    obtain rfl : r = run := Option.some.inj (hrun.symm.trans hrun')
    rcases hcases with ⟨held, hheld', -⟩ | ⟨candidate, -, hcandidate, -⟩
    · rw [hheld] at hheld'
      cases hheld'
    · exact ⟨hstatus, by rw [hcandidate]; rfl⟩
  · rintro ⟨hstatus, hsome⟩
    obtain ⟨candidate, hcandidate⟩ := Option.isSome_iff_exists.mp hsome
    refine ⟨(candidate.shardIndex, leaseUntil now durationMS),
      leaseShard r.id candidate.shardIndex workerID leaseHash (leaseUntil now durationMS) db, ?_⟩
    unfold claimShard
    refine bind_ok_iff.mpr ⟨r, orElse_eq_ok.mpr hrun, ?_⟩
    refine then_ok_iff.mpr ⟨by simp [hqueued], then_ok_iff.mpr ⟨by simp [hstatus], ?_⟩⟩
    rw [hheld]
    exact bind_ok_iff.mpr ⟨candidate, orElse_eq_ok.mpr hcandidate, rfl⟩

/-! ## The report -/

theorem queueStatus_ok (now : Time) {r : RunRow} (hr : r ∈ db.runs) :
    ∃ s, queueStatus now r.id db = .ok s ∧ s.expected = r.expectedShards ∧
      s.pending = (db.queue.count fun q => decide (q.runID = r.id) && q.claimableAt now) ∧
      s.leased = (db.queue.count fun q => decide (q.runID = r.id) && q.liveAt now) ∧
      s.completed = (db.queue.count fun q => decide (q.runID = r.id) && decide (q.state = .complete)) ∧
      s.available = if r.status = .collecting then s.pending else 0 := by
  have hrun : db.run? r.id = some r := Db.run?_eq_some.mpr ⟨hr, rfl⟩
  unfold queueStatus
  rw [hrun]
  exact ⟨_, rfl, rfl, rfl, rfl, rfl, rfl⟩

/-- The queue of a run against its receipts, its status and its report. -/
structure QueueCoupling (db : Db) (r : RunRow) : Prop where
  one_row : ∀ i < r.expectedShards, ∃! q, q ∈ db.queue ∧ q.runID = r.id ∧ q.shardIndex = i
  in_range : ∀ q ∈ db.queue, q.runID = r.id → q.shardIndex < r.expectedShards
  complete_iff : ∀ q ∈ db.queue, q.runID = r.id → (q.state = .complete ↔
    ∃ s ∈ db.receipts, s.runID = r.id ∧ s.shardIndex = q.shardIndex ∧ s.status = .complete)
  lease_iff : ∀ q ∈ db.queue, q.runID = r.id → (q.leaseOwner.isSome = true ↔ q.state = .leased) ∧
    (q.leaseTokenHash.isSome = true ↔ q.state = .leased) ∧ (q.leaseExpiresAt.isSome = true ↔ q.state = .leased)
  collecting : r.status = .collecting → (∀ q ∈ db.queue, q.runID = r.id → q.state ≠ .cancelled) ∧
    ∀ now, ∃ s, queueStatus now r.id db = .ok s ∧ s.pending + s.leased + s.completed = s.expected
  left : r.status ≠ .collecting → ∀ q ∈ db.queue, q.runID = r.id → q.state ≠ .queued ∧ q.state ≠ .leased
  available_iff : ∀ now workerID leaseHash durationMS, (∀ q ∈ db.queue, heldBy now r.id workerID q = false) →
    ∃ s, queueStatus now r.id db = .ok s ∧
      (0 < s.available ↔ ∃ result db', claimShard now r.id workerID leaseHash durationMS db = .ok (result, db'))

/-- **Queue and receipts in step.** In every reachable database, whatever was registered again, terminated, claimed,
    renewed or uploaded late, the queue of a queued run is the one its receipts and its status call for. -/
theorem queue_coupling (P : Platform) (policy : LimitPolicy) (es : List Txn)
    (hinj : Set.InjOn P.registrationHash (registrations es)) (r : RunRow)
    (hr : r ∈ ((machine P policy).run Db.empty es).runs) (hqueued : r.registration.queued = true) :
    QueueCoupling ((machine P policy).run Db.empty es) r := by
  have hc : Coupled P (registrations es) ((machine P policy).run Db.empty es) := coupled_run hinj
  refine ⟨?_, ?_, ?_, ?_, ?_, ?_, ?_⟩
  · intro i hi
    obtain ⟨q, hq, hrun, hidx⟩ := hc.covers r hr hqueued i hi
    refine ⟨q, ⟨hq, hrun, hidx⟩, ?_⟩
    rintro q' ⟨hq', hrun', hidx'⟩
    exact Table.eq_of_conflict _ hq' hq ⟨hrun'.trans hrun.symm, hidx'.trans hidx.symm⟩
  · intro q hq hrun
    exact (hc.queued_run hq hr hrun.symm).2
  · intro q hq hrun
    have hiff := (hc.rows q hq).complete_iff
    rw [hrun] at hiff
    exact hiff
  · intro q hq _
    have hrow := hc.rows q hq
    exact ⟨hrow.owner_iff, hrow.token_iff, hrow.expiry_iff⟩
  · intro hstatus
    refine ⟨fun q hq hrun => (hc.rows q hq).collecting r hr hrun.symm hstatus, fun now => ?_⟩
    obtain ⟨s, hs, hexpected, hpending, hleased, hcompleted, -⟩ := queueStatus_ok now hr
    refine ⟨s, hs, ?_⟩
    rw [hexpected, hpending, hleased, hcompleted]
    exact hc.counts hr hqueued hstatus now
  · intro hstatus q hq hrun
    exact (hc.rows q hq).left r hr hrun.symm hstatus
  · intro now workerID leaseHash durationMS hnone
    obtain ⟨s, hs, -, hpending, -, -, havailable⟩ := queueStatus_ok now hr
    refine ⟨s, hs, ?_⟩
    rw [claimShard_isOk_iff hr hqueued hnone, havailable, hpending]
    by_cases hstatus : r.status = .collecting
    · simp [hstatus]
    · simp [hstatus]

/-- A queued run of two shards, registered twice, one shard claimed in between. -/
theorem queue_coupling_twice_registered :
    QueueCoupling ((machine (.reference []) .unlimited).run Db.empty
      [registerAt 0 "run" (.reference "suite" "keda" 2), ⟨.claimShard "run" "worker" (.reference 'a' rfl), 1, 1⟩,
        registerAt 2 "run" (.reference "suite" "keda" 2)])
      (newRun 0 "run" (registrationKey "run") (checksumHex (Text.bytes "suite")) (.reference "suite" "keda" 2)) := by
  exact queue_coupling (.reference []) .unlimited _ (injOn_of_forall_mem (by decide +kernel)) _ (by decide +kernel) rfl

end AgentStorm.Results
