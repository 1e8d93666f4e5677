import AgentStorm.Results.Reference
import AgentStorm.Results.Upload

/-!
# `Results.Retry` — uploading a shard that was uploaded before

A worker that lost an answer sends its upload again and meets a receipt. The first section says what
`ReserveShard` makes of the receipt it finds, as an equation. A complete receipt answers a repeated
upload, as long as the call gets to look at it: while a queued run collects, the lease check comes
first, and the completed shard has no lease any more.
-/

namespace AgentStorm.Results

open Checks Machine Machine.Transactional Relational

variable {P : Platform} {policy : LimitPolicy} {db : Db} {call : UploadCall} {run : RunRow}

/-! ## `ReserveShard` on a sound database -/

/-- The receipt a call inserts. -/
def UploadCall.receipt (P : Platform) (c : UploadCall) : ReceiptRow :=
  newReceipt c.runID c.shardIndex.toNat c.idempotencyKey (c.payloadHash P) (c.objectKey P) c.document.summary

theorem reserve_eq (hvalid : call.validate P = .ok ()) (hrun : db.run? call.runID = some run)
    (hindex : call.shardIndex.toNat < run.expectedShards) (now : Time) :
    call.reserve P now db = (reserveLease now run call.runID call.shardIndex.toNat (call.leaseHash P) db).bind
      fun _ => storeReceipt run (call.receipt P) db := by
  unfold UploadCall.reserve reserveShard
  rw [hvalid, hrun]
  show (reject (decide (run.expectedShards ≤ call.shardIndex.toNat)) _).bind _ = _
  rw [decide_eq_false (not_le.mpr hindex)]
  rfl

/-- A stored receipt is recognized by its hash; another document is a conflict. -/
theorem storeReceipt_found (hsound : Sound P db) (hvalid : call.validate P = .ok ()) {s : ReceiptRow}
    (hs : s ∈ db.receipts) (hrun : s.runID = call.runID) (hindex : s.shardIndex = call.shardIndex.toNat) :
    storeReceipt run (call.receipt P) db =
      if s.payloadHash = call.payloadHash P then
        .ok (⟨decide (s.status = .complete), run.registration.target.pricing⟩, db)
      else .error .conflict := by
  have hnone : db.receipts.insert (call.receipt P) = none :=
    Table.insert_eq_none_iff.mpr ⟨s, hs, Or.inl ⟨hrun, hindex⟩⟩
  have hfound : db.receipt? (call.receipt P).runID (call.receipt P).shardIndex = some s :=
    Db.receipt?_eq_some.mpr ⟨hs, hrun, hindex⟩
  have hkey : s.idempotencyKey = call.idempotencyKey := by
    rw [(hsound.receipts s hs).key, call_key hvalid, hrun, hindex]
  unfold storeReceipt
  rw [hnone]
  show (orElse (db.receipt? (call.receipt P).runID (call.receipt P).shardIndex) ApiError.conflict).bind _ = _
  rw [hfound]
  show (reject (decide (s.idempotencyKey ≠ call.idempotencyKey ∨ s.payloadHash ≠ call.payloadHash P)) _).bind _ = _
  by_cases hhash : s.payloadHash = call.payloadHash P
  · rw [if_pos hhash, decide_eq_false (by simp [hkey, hhash])]
    rfl
  · rw [if_neg hhash, decide_eq_true (Or.inr hhash)]
    rfl

/-- Without a receipt of the shard, no unique constraint is in the way of a new one. -/
theorem storeReceipt_new (hsound : Sound P db) (hvalid : call.validate P = .ok ())
    (hnone : db.receipt? call.runID call.shardIndex.toNat = none) :
    ∃ receipts, db.receipts.insert (call.receipt P) = some receipts ∧
      storeReceipt run (call.receipt P) db =
        .ok (⟨false, run.registration.target.pricing⟩, { db with receipts := receipts }) := by
  have hfresh : ∀ s ∈ db.receipts, ¬ (s.runID = call.runID ∧ s.shardIndex = call.shardIndex.toNat) := by
    intro s hs hkey
    have hsome := Db.receipt?_eq_some.mpr ⟨hs, hkey⟩
    rw [hnone] at hsome
    cases hsome
  obtain ⟨receipts, hins⟩ := Table.insert_isSome (t := db.receipts) (a := call.receipt P) (by
    intro s hs hconflict
    rcases hconflict with hkey | hkey
    · exact hfresh s hs hkey
    · -- keys of stored receipts are composed from what they name
      obtain ⟨r, hr, hid, -⟩ := (hsound.receipts s hs).run
      have hpattern := (hsound.runs r hr).pattern
      rw [hid] at hpattern
      have heq : shardKey s.runID s.shardIndex = shardKey call.runID call.shardIndex.toNat :=
        ((hsound.receipts s hs).key.symm.trans hkey).trans (call_key hvalid)
      obtain ⟨hrunID, hindex⟩ := shardKey_inj hpattern (validateShard_ok hvalid).runID_pattern heq
      exact hfresh s hs ⟨hrunID, Int.ofNat.inj hindex⟩)
  refine ⟨receipts, hins, ?_⟩
  unfold storeReceipt
  rw [hins]
  rfl

/-! ## Replays -/

/-- The receipt of the upload that a commit finalized. -/
theorem Commit.finalized_receipt {t : Txn} {db' : Db} (h : Commit P t db (.finalized true) db')
    {pricing : Option RunPricing} (hop : t.op = .finalizeShard call pricing) :
    call.validate P = .ok () ∧ ∃ s ∈ db'.receipts, s.runID = call.runID ∧ s.shardIndex = call.shardIndex.toNat ∧
      s.payloadHash = call.payloadHash P ∧ s.status = .complete := by
  cases h with
  | finalize _ _ _ receipt _ _ hop' hvalid _ _ hreceipt hhash _ _ hrefresh =>
    obtain ⟨rfl, -⟩ := Op.finalizeShard.inj (hop.symm.trans hop')
    obtain ⟨hmem, hid, hindex⟩ := Db.receipt?_eq_some.mp hreceipt
    refine ⟨hvalid, receipt.finish, ?_, hid, hindex, hhash, rfl⟩
    rw [(refreshAggregate_frame hrefresh).1]
    exact Table.mem_update_of keepsKeys_finish hmem (by simp [hid, hindex])
  | permit _ _ _ hanswer => cases hanswer

/-- A call that returned `Created` was finalized. -/
theorem commit_of_created {w : World} {request : Nat} {f : Flight} {now wall : Time} {r : ShardResult}
    (hflight : w.flights request = some f)
    (hreturned : (uploads P policy).answer w (.finalize request now wall) = .ok (.returned (.ok r)))
    (hcreated : r.created = true) :
    Commit P ⟨.finalizeShard f.call f.pricing, now, wall⟩ w.db (.finalized true)
      ((uploads P policy).step w (.finalize request now wall)).db := by
  obtain ⟨w', hexec⟩ := answer_ok_iff.mp hreturned
  rw [step_ok hexec]
  have hprogress := progress_of_exec hexec
  generalize ho : Outcome.returned (.ok r) = o at hprogress
  cases hprogress with
  | failed => cases ho
  | finalized _ _ _ _ created _ hg _ hfinalize =>
    cases hflight.symm.trans hg
    cases created with
    | true => exact commit_of_exec (step_finalize_ok policy hfinalize)
    | false =>
      injection ho with ho
      rw [Except.ok.inj ho] at hcreated
      cases hcreated

/-- What a call finds in a database where its shard is complete with its document. -/
theorem reserve_complete {docs : Set Registration} (hc : Coupled P docs db) (hvalid : call.validate P = .ok ())
    {s : ReceiptRow} (hs : s ∈ db.receipts) (hrunID : s.runID = call.runID)
    (hindex : s.shardIndex = call.shardIndex.toNat) (hhash : s.payloadHash = call.payloadHash P)
    (hcomplete : s.status = .complete) (now : Time) :
    ∃ run, db.run? call.runID = some run ∧
      call.reserve P now db =
        if run.leasing then .error .leaseLost else .ok (⟨true, run.registration.target.pricing⟩, db) := by
  have hsound := hc.standing.sound
  obtain ⟨run, hrun, hid, hlt⟩ := (hsound.receipts s hs).run
  have hrun? : db.run? call.runID = some run := Db.run?_eq_some.mpr ⟨hrun, hid.trans hrunID⟩
  refine ⟨run, hrun?, ?_⟩
  rw [reserve_eq hvalid hrun? (hindex ▸ hlt)]
  by_cases hleasing : run.leasing = true
  · rw [if_pos hleasing]
    -- the queue row of a complete receipt is complete, so it is not leased
    have hfirst : (db.queue.first? fun q =>
        decide (q.runID = call.runID ∧ q.shardIndex = call.shardIndex.toNat) && q.liveAt now) = none := by
      rw [Table.first?_eq_none]
      intro q hq
      rw [Bool.eq_false_iff]
      intro hlive
      simp only [Bool.and_eq_true, decide_eq_true_eq] at hlive
      have hdone : q.shardIndex ∈ db.doneShards q.runID :=
        ⟨s, hs, hrunID.trans hlive.1.1.symm, hindex.trans hlive.1.2.symm, hcomplete⟩
      have hstate := (hc.rows q hq).complete_iff.mpr hdone
      rw [QueueRow.state_of_liveAt hlive.2] at hstate
      cases hstate
    unfold reserveLease requireLease
    rw [if_pos hleasing, hfirst]
    cases Text.blank (call.leaseHash P) <;> rfl
  · have hlease : reserveLease now run call.runID call.shardIndex.toNat (call.leaseHash P) db = .ok () :=
      if_neg hleasing
    rw [if_neg hleasing, hlease]
    show storeReceipt run (call.receipt P) db = _
    rw [storeReceipt_found hsound hvalid hs hrunID hindex, if_pos hhash, hcomplete]
    rfl

/-- **Replays.** Send an upload that returned `Created` again, in whatever state the service is by then. It answers
    success, with nothing created, exactly when its run is not a queued one that still collects; and it changes
    nothing in any case. -/
theorem shard_replay (P : Platform) (policy : LimitPolicy) (past later : List Event) (request retry : Nat)
    (now wall again : Time) (f : Flight) (r : ShardResult)
    (hinj : Set.InjOn P.registrationHash (registered (past ++ .finalize request now wall :: later)))
    (hflight : ((uploads P policy).run World.empty past).flights request = some f)
    (hreturned : (uploads P policy).answer ((uploads P policy).run World.empty past) (.finalize request now wall) =
      .ok (.returned (.ok r)))
    (hcreated : r.created = true)
    (hfree : ((uploads P policy).run World.empty (past ++ .finalize request now wall :: later)).flights retry = none) :
    let w := (uploads P policy).run World.empty (past ++ .finalize request now wall :: later)
    ((uploads P policy).answer w (.reserve retry f.call again) = .ok (.returned (.ok ⟨false, none, none⟩)) ↔
      ∀ run, w.db.run? f.call.runID = some run → ¬ (run.registration.queued = true ∧ run.status = .collecting)) ∧
    ((uploads P policy).step w (.reserve retry f.call again)).db = w.db := by
  intro w
  -- the receipt of the upload is still there, complete
  obtain ⟨hvalid, s, hs, hrunID, hindex, hhash, hcomplete⟩ :=
    (commit_of_created hflight hreturned hcreated).finalized_receipt rfl
  have hkept : ∃ s' ∈ w.db.receipts, SameReceipt s s' := by
    show ∃ s' ∈ ((uploads P policy).run World.empty (past ++ .finalize request now wall :: later)).db.receipts, _
    rw [run_append, run_cons]
    exact uploads_receipt_forth hs later
  obtain ⟨s', hs', hsame⟩ := hkept
  obtain ⟨run, hrun, hreserve⟩ := reserve_complete (coupled_uploads hinj) hvalid hs' (hsame.runID_eq.trans hrunID)
    (hsame.index_eq.trans hindex) (hsame.hash_eq.trans hhash) (hsame.complete hcomplete) again
  have hexec : (uploads P policy).exec (.reserve retry f.call again) w =
      .ok (if run.leasing then (.returned (.error .leaseLost), w) else (.returned (.ok .replayed), w)) := by
    rw [exec_reserve hfree, World.reserve, hreserve]
    cases run.leasing <;> rfl
  have hcond : (∀ run, w.db.run? f.call.runID = some run →
      ¬ (run.registration.queued = true ∧ run.status = .collecting)) ↔ run.leasing = false := by
    rw [← Bool.not_eq_true, RunRow.leasing_iff]
    constructor
    · exact fun h => h run hrun
    · intro h run' hrun'
      rw [← Option.some.inj (hrun.symm.trans hrun')]
      exact h
  rw [hcond, answer_ok_iff, hexec]
  cases hleasing : run.leasing with
  | true =>
    rw [hleasing] at hexec
    exact ⟨⟨fun ⟨_, h⟩ => (nomatch h), fun h => (nomatch h)⟩, by rw [step_ok hexec]⟩
  | false =>
    rw [hleasing] at hexec
    exact ⟨⟨fun _ => rfl, fun _ => ⟨w, rfl⟩⟩, by rw [step_ok hexec]⟩

/-- The lease token of the worker below. -/
def firstToken : SchedulerToken := .ofA

/-- A run of two shards; a worker has claimed one and uploaded it up to `FinalizeShard`. -/
def halfUploaded (strategy : String) : List Event :=
  [.client (registerAt 0 "run" (.reference "suite" strategy 2)),
    .client ⟨.claimShard "run" "worker" firstToken, 1, 1⟩,
    .reserve 0 (.reference "run" 0 firstToken.text (.reference 1)) 2,
    .put 0 .stored]

/-- A worker of a queued run that missed the answer to its upload is told that it lost its lease. -/
theorem shard_replay_lease_lost :
    (uploads (.reference [.reference 1]) .unlimited).answer
        ((uploads (.reference [.reference 1]) .unlimited).run World.empty (halfUploaded "keda")) (.finalize 0 3 3) =
      .ok (.returned (.ok ⟨true, none, none⟩)) ∧
    (uploads (.reference [.reference 1]) .unlimited).answer
        ((uploads (.reference [.reference 1]) .unlimited).run World.empty (halfUploaded "keda" ++ [.finalize 0 3 3]))
        (.reserve 1 (.reference "run" 0 firstToken.text (.reference 1)) 4) =
      .ok (.returned (.error .leaseLost)) := by
  decide +kernel

/-- An indexed run takes the same upload again. -/
theorem shard_replay_indexed :
    (uploads (.reference [.reference 1]) .unlimited).answer
        ((uploads (.reference [.reference 1]) .unlimited).run World.empty
          (halfUploaded "indexed" ++ .finalize 0 3 3 :: []))
        (.reserve 1 (.reference "run" 0 firstToken.text (.reference 1)) 4) =
      .ok (.returned (.ok ⟨false, none, none⟩)) := by
  refine (shard_replay (.reference [.reference 1]) .unlimited (halfUploaded "indexed") [] 0 1 3 3 4
    ⟨.reference "run" 0 firstToken.text (.reference 1), none, true⟩ ⟨true, none, none⟩
    (injOn_of_forall_mem (by decide +kernel)) (by decide +kernel) (by decide +kernel) rfl (by decide +kernel)).1.mpr ?_
  have hindexed : ∀ run ∈ ((uploads (.reference [.reference 1]) .unlimited).run World.empty
      (halfUploaded "indexed" ++ .finalize 0 3 3 :: [])).db.runs.rows, run.registration.queued = false := by
    decide +kernel
  intro run hrun hqueued
  rw [hindexed run (Db.run?_eq_some.mp hrun).1] at hqueued
  exact nomatch hqueued.1

end AgentStorm.Results
