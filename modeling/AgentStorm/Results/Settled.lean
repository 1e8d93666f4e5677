import AgentStorm.Results.Acknowledged
import AgentStorm.Results.Tally

/-!
# `Results.Settled` — the verdict on a run is final

The status of a run and the verdict of its summary are stored in two tables and read together. A run
that has left `collecting` is settled: neither the status nor, for a complete run, the verdict changes
again. A late shard of a terminated run may still move the summary.
-/

namespace AgentStorm.Results

open Checks Collecting Machine Relational

/-- What the summary of a run says about its thresholds. -/
def Db.passed? (db : Db) (runID : String) : Option Bool := (db.summary? runID).map fun s => s.aggregate.thresholdsPassed

/-- A run has ended in this status, a complete one with this verdict. -/
structure Settled (db : Db) (runID : String) (status : RunStatus) (passed : Option Bool) : Prop where
  left : status ≠ .collecting
  run : ∃ r ∈ db.runs, r.id = runID ∧ r.status = status
  verdict : status = .complete → db.passed? runID = passed

/-- The verdict is that of a complete run only. -/
theorem Settled.forget {db : Db} {runID : String} {status : RunStatus} {passed passed' : Option Bool}
    (h : Settled db runID status passed) (hnot : status ≠ .complete) : Settled db runID status passed' :=
  ⟨h.left, h.run, fun hcomplete => absurd hcomplete hnot⟩

section Commits

variable {P : Platform} {policy : LimitPolicy} {t : Txn} {db db' : Db} {a : Answer} {runID : String} {status : RunStatus}
  {passed : Option Bool}

/-- A complete run waits for no shard. -/
theorem Standing.not_pending (hst : Standing P db) {r : RunRow} (hr : r ∈ db.runs) (hcomplete : r.status = .complete)
    {i : Nat} {s : ReceiptRow} (hs : db.receipt? r.id i = some s) : s.status ≠ .pending := by
  obtain ⟨hmem, hrun, -⟩ := Db.receipt?_eq_some.mp hs
  obtain ⟨r', hr', hid, hlt⟩ := (hst.sound.receipts s hmem).run
  obtain rfl := db.runs.eq_of_conflict hr' hr (Or.inl (hid.trans hrun))
  -- its collection is full, so the shard has a complete receipt, which is this one
  obtain ⟨s', hs', hrun', hindex', hdone⟩ := (status_eq_iff.mp (hst.live r' hr).status_eq).1 hcomplete _ hlt
  obtain rfl := db.receipts.eq_of_conflict hs' hmem (Or.inl ⟨hrun'.trans hrun.symm, hindex'⟩)
  rw [hdone]
  exact nofun

theorem Settled.commit (hset : Settled db runID status passed) (hst : Standing P db) (h : Commit P t db a db') :
    Settled db' runID status passed := by
  obtain ⟨hleft, ⟨r, hr, rfl, rfl⟩, hverdict⟩ := hset
  obtain ⟨r', hr', hstep⟩ := h.runStep hst.sound hr
  refine ⟨hleft, ⟨r', hr', hstep.same.id_eq, (hstep.sameEnd (hst.live r hr) hleft).status_eq⟩, fun hcomplete => ?_⟩
  have hother : a = .finalized true → ∀ call pricing, t.op = .finalizeShard call pricing → call.runID ≠ r.id := by
    rintro rfl call pricing hop hrun
    cases h with
    | finalize _ _ _ _ _ _ hop' _ _ _ hreceipt _ hpending =>
      obtain ⟨rfl, -⟩ := Op.finalizeShard.inj (hop.symm.trans hop')
      rw [hrun] at hreceipt
      exact hst.not_pending hr hcomplete hreceipt hpending
    | permit _ _ _ hanswer => cases hanswer
  cases h.tally_same hother with
  | same _ hreceipts hcases hsummary =>
    rw [Db.passed?, hsummary]
    exact hverdict hcomplete

theorem Settled.step (hset : Settled db runID status passed) (hst : Standing P db) :
    Settled ((machine P policy).step db t) runID status passed :=
  step_of_commit (Q := fun db => Settled db runID status passed) hset fun hcommit => hset.commit hst hcommit

/-- The queue tells a run that has left `collecting` as it is settled. -/
theorem settled_of_queueStatus {now : Time} {queue : QueueStatus} (h : serviceQueueStatus now runID db = .ok queue)
    (hleft : queue.runStatus ≠ .collecting) : Settled db runID queue.runStatus queue.thresholdsPassed := by
  obtain ⟨-, h⟩ := then_ok_iff.mp h
  obtain ⟨run, hrun, h⟩ := bind_ok_iff.mp h
  obtain ⟨hmem, hid⟩ := Db.run?_eq_some.mp (orElse_eq_ok.mp hrun)
  cases h
  exact ⟨hleft, ⟨run, hmem, hid, rfl⟩, fun _ => rfl⟩

end Commits

section Server

variable {κ : Type} [LinearOrder κ] {collate : String ↪ κ} {S : Server} {w : World}

/-- **A settled run stays settled**, under every traffic of the server. -/
theorem api_run_settled {runID : String} {status : RunStatus} {passed : Option Bool} (hst : Standing S.platform w.db)
    (h : Settled w.db runID status passed) (es : List HttpEvent) :
    Settled ((api collate S).run w es).db runID status passed :=
  (api_run_db (fun db => Standing S.platform db ∧ Settled db runID status passed)
    (fun _ t h => ⟨h.1.step t, h.2.step h.1⟩) ⟨hst, h⟩ es).2

end Server

end AgentStorm.Results
