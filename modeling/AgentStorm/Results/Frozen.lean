import AgentStorm.Results.Coupling
import AgentStorm.Results.Reference
import AgentStorm.Results.Reports

/-!
# `Results.Frozen` — a complete run never changes again

Every statement that writes rows of a run is guarded by something a complete run does not have: a
pending receipt, an open queue row, a status other than `complete`, a free receipt key
(`Commit.view_complete`). So its rows are kept, and every report and comparison made from them.
-/

namespace AgentStorm.Results

open Checks Collecting Machine Machine.Transactional Relational

variable {P : Platform} {policy : LimitPolicy} {t : Txn} {db db' : Db} {a : Answer}

/-! ## Frames -/

variable {other runID : String}

theorem select_insertShards (hne : other ≠ runID) (n : Nat) (queue : Table QueueRow) :
    ((insertShards other n queue).select fun q => decide (q.runID = runID)) =
      queue.select fun q => decide (q.runID = runID) := by
  induction n with
  | zero => rfl
  | succ n ih =>
    rw [insertShards_succ, Table.select_insertIgnore, ih]
    exact decide_eq_false hne

theorem view_enqueue (hne : other ≠ runID) (registration : Registration) (db : Db) :
    (enqueueRunShards other registration db).view runID = db.view runID := by
  unfold enqueueRunShards
  split
  · simp [Db.view, select_insertShards hne]
  · rfl

theorem select_upsertSummary (hne : other ≠ runID) (aggregate : Aggregate) (summaries : Table SummaryRow) :
    ((upsertSummary other aggregate summaries).select fun s => decide (s.runID = runID)) =
      summaries.select fun s => decide (s.runID = runID) := by
  unfold upsertSummary
  split
  · rename_i summaries' hins
    exact Table.select_of_insert hins (by simpa using hne)
  · refine Table.select_update fun s _ hp => ?_
    simp only [decide_eq_true_eq] at hp
    simp [hp, hne]

/-- Finalizing a shard writes rows of its own run only. -/
theorem view_finalize (hne : other ≠ runID) {i : Nat} {queued : Bool} {pricing : Option RunPricing}
    {items : List CaseResult} {stored : Table CaseRow} {now wall : Time}
    (hstored : insertCases P other i pricing items db.cases = .ok stored)
    (hrefresh : refreshAggregate now wall other (completeShard other i queued stored db) = .ok db') :
    db'.view runID = db.view runID := by
  have hkey : ∀ {x : String} {j : Nat}, decide (x = other ∧ j = i) = true → x ≠ runID := by
    intro x j hp
    simp only [decide_eq_true_eq] at hp
    rw [hp.1]
    exact hne
  obtain ⟨_, _, -, rfl⟩ := refreshAggregate_ok hrefresh
  simp only [Db.view, RunView.mk.injEq]
  refine ⟨?_, ?_, (insertCases_ok hstored).2.2.2 runID (Ne.symm hne), select_upsertSummary hne _ _, ?_⟩
  · refine Table.select_update_of_ne (keepsKeys_runRefresh _ _ _) (fun _ => rfl) fun r _ hp => ?_
    simp only [decide_eq_true_eq] at hp
    rw [hp]
    exact hne
  · exact Table.select_update_of_ne keepsKeys_finish (fun _ => rfl) fun s _ hp => hkey hp
  · unfold completeShard
    split
    · exact Table.select_update_of_ne (keepsKeys_settle _) (fun _ => rfl) fun q _ hp => hkey hp
    · rfl

/-! ## A complete run -/

section Complete

variable {docs : Set Registration} (hc : Coupled P docs db) {r : RunRow} (hr : r ∈ db.runs)
  (hcomplete : r.status = .complete)

include hc hr hcomplete in
/-- Every expected receipt of a complete run is there and complete. -/
theorem Coupled.receipt_complete {i : Nat} (hi : i < r.expectedShards) :
    ∃ s, db.receipt? r.id i = some s ∧ s.status = .complete := by
  have hlive := hc.standing.live r hr
  obtain ⟨s, hs, hrun, hidx, hstatus⟩ := (status_eq_iff.mp hlive.status_eq).1 hcomplete i hi
  exact ⟨s, Db.receipt?_eq_some.mpr ⟨hs, hrun, hidx⟩, hstatus⟩

include hc hr hcomplete in
/-- No receipt of a complete run is pending. -/
theorem Coupled.not_pending {i : Nat} {s : ReceiptRow} (hs : db.receipt? r.id i = some s) : s.status ≠ .pending := by
  obtain ⟨hmem, hrun, hidx⟩ := Db.receipt?_eq_some.mp hs
  obtain ⟨r', hr', hid, hlt⟩ := (hc.standing.sound.receipts s hmem).run
  have heq : r' = r := db.runs.eq_of_conflict hr' hr (Or.inl (hid.trans hrun))
  rw [heq, hidx] at hlt
  obtain ⟨s', hs', hstatus⟩ := hc.receipt_complete hr hcomplete hlt
  rw [Option.some.inj (hs.symm.trans hs'), hstatus]
  exact nofun

include hc hr hcomplete in
/-- No lease of a complete run is left. -/
theorem Coupled.not_live {now : Time} {q : QueueRow} (hq : q ∈ db.queue) (hlive : q.liveAt now = true) :
    q.runID ≠ r.id := by
  intro hrun
  have hleft := (hc.rows q hq).left r hr hrun.symm (by rw [hcomplete]; exact nofun)
  exact hleft.2 (QueueRow.state_of_liveAt hlive)

include hr hcomplete in
theorem run_ne_of_collecting {runID : String} {run : RunRow} (hrun : db.run? runID = some run)
    (hstatus : run.status = .collecting) : runID ≠ r.id := by
  rintro rfl
  have heq := Option.some.inj (hrun.symm.trans (Db.run?_eq_some.mpr ⟨hr, rfl⟩))
  rw [heq, hcomplete] at hstatus
  cases hstatus

include hc hr hcomplete in
/-- **No commit touches a row of a complete run.** -/
theorem Commit.view_complete (hinj : Set.InjOn P.registrationHash docs) (hdocs : RegistersIn docs t)
    (h : Commit P t db a db') : db'.view r.id = db.view r.id := by
  cases h with
  | registerNew runID _ _ _ _ hins =>
    have hne : runID ≠ r.id := fun heq => Table.not_conflict_of_insert hins hr (Or.inl heq.symm)
    rw [view_enqueue hne]
    simp only [Db.view, RunView.mk.injEq, and_true]
    exact Table.select_of_insert hins (decide_eq_false hne)
  | registerAgain _ _ _ hop _ hrun hhash =>
    rw [hc.enqueue_again hinj (hdocs _ _ _ hop) hrun hhash]
  | terminate _ _ _ _ _ hrun hstatus =>
    have hne := run_ne_of_collecting hr hcomplete hrun hstatus
    simp only [cancelRun, Db.view, RunView.mk.injEq, true_and]
    refine ⟨Table.select_update_of_ne (keepsKeys_terminate _ _ _ _) (fun _ => rfl) fun x _ hp => ?_,
      Table.select_update_of_ne (keepsKeys_settle _) (fun _ => rfl) fun q _ hp => ?_⟩
    · simp only [decide_eq_true_eq] at hp
      rw [hp]
      exact hne
    · simp only [decide_eq_true_eq] at hp
      rw [hp.1]
      exact hne
  | reclaim =>
    simp only [reletShards, Db.view, RunView.mk.injEq, true_and]
    exact Table.select_update_of_ne (keepsKeys_relet _ _) (fun _ => rfl) fun q hq hp =>
      hc.not_live hr hcomplete hq (liveAt_of_heldBy hp)
  | claim _ _ _ _ _ _ hrun hleasing =>
    have hne := run_ne_of_collecting hr hcomplete hrun (RunRow.leasing_iff.mp hleasing).2
    simp only [leaseShard, Db.view, RunView.mk.injEq, true_and]
    refine Table.select_update_of_ne (keepsKeys_lease _ _ _) (fun _ => rfl) fun q _ hp => ?_
    simp only [decide_eq_true_eq] at hp
    rw [hp.1]
    exact hne
  | renew =>
    simp only [extendLease, Db.view, RunView.mk.injEq, true_and]
    refine Table.select_update_of_ne (keepsKeys_extend _) (fun _ => rfl) fun q hq hp => ?_
    simp only [renewable, Bool.and_eq_true] at hp
    exact hc.not_live hr hcomplete hq (QueueRow.liveAt_of_openedBy hp.2)
  | reserveNew call run _ _ _ hrun hindex _ hins =>
    -- the receipt key of an expected shard of a complete run is taken
    have hne : call.runID ≠ r.id := by
      intro heq
      obtain ⟨hmem, hid⟩ := Db.run?_eq_some.mp hrun
      have hsame : run = r := db.runs.eq_of_conflict hmem hr (Or.inl (hid.trans heq))
      rw [hsame] at hindex
      obtain ⟨s, hs, -⟩ := hc.receipt_complete hr hcomplete hindex
      obtain ⟨hmem, hrunID, hidx⟩ := Db.receipt?_eq_some.mp hs
      exact Table.not_conflict_of_insert hins hmem (Or.inl ⟨hrunID.trans heq.symm, hidx⟩)
    simp only [Db.view, RunView.mk.injEq, true_and, and_true]
    exact Table.select_of_insert hins (decide_eq_false hne)
  | finalize call _ _ _ _ _ _ _ _ _ hreceipt _ hpending hstored hrefresh =>
    have hne : call.runID ≠ r.id := by
      intro heq
      rw [heq] at hreceipt
      exact hc.not_pending hr hcomplete hreceipt hpending
    exact view_finalize hne hstored hrefresh
  | terminateAgain | reserveAgain | finalizeAgain | permit => rfl

end Complete

/-! ## Whole runs of the machine -/

/-- Complete runs of the first database have the same rows in the second. -/
def KeepsComplete (db db' : Db) : Prop :=
  ∀ r ∈ db.runs, r.status = .complete → r ∈ db'.runs ∧ db'.view r.id = db.view r.id

theorem Coupled.keepsComplete {docs : Set Registration} (hinj : Set.InjOn P.registrationHash docs)
    (hc : Coupled P docs db) (hdocs : RegistersIn docs t) : KeepsComplete db ((machine P policy).step db t) := by
  intro r hr hcomplete
  have hview : ((machine P policy).step db t).view r.id = db.view r.id :=
    step_of_commit (Q := fun db' => db'.view r.id = db.view r.id) rfl fun hcommit =>
      hcommit.view_complete hc hr hcomplete hinj hdocs
  refine ⟨?_, hview⟩
  -- the run row is one of the kept rows
  have hmem : r ∈ (db.view r.id).runs := Table.mem_select.mpr ⟨hr, by simp⟩
  rw [← hview] at hmem
  exact (Table.mem_select.mp hmem).1

theorem keepsComplete_run {docs : Set Registration} (hinj : Set.InjOn P.registrationHash docs)
    (hc : Coupled P docs db) (es : List Txn) (hdocs : ∀ t ∈ es, RegistersIn docs t) :
    KeepsComplete db ((machine P policy).run db es) := by
  refine run_relates (RegistersIn docs) (fun _ _ hr _ => ⟨hr, rfl⟩) ?_
    (fun _ _ hdocs hc => hc.step hinj hdocs) (fun _ _ hdocs hc => hc.keepsComplete hinj hdocs) hc es hdocs
  intro db₁ db₂ db₃ h₁ h₂ r hr hcomplete
  obtain ⟨hr', hview⟩ := h₁ r hr hcomplete
  obtain ⟨hr'', hview'⟩ := h₂ r hr' hcomplete
  exact ⟨hr'', hview'.trans hview⟩

/-- **A complete run is frozen.** Whatever transactions follow, with any arguments and interleaving, its row, its
    receipts, case rows, queue rows and summary stay what they are, and comparing two complete runs gives the same
    result for ever. -/
theorem complete_run_frozen (P : Platform) (policy : LimitPolicy) (past future : List Txn)
    (hinj : Set.InjOn P.registrationHash (registrations (past ++ future))) :
    let db := (machine P policy).run Db.empty past
    let db' := (machine P policy).run Db.empty (past ++ future)
    (∀ r ∈ db.runs, r.status = .complete → r ∈ db'.runs ∧ db'.view r.id = db.view r.id) ∧
    (∀ r₁ ∈ db.runs, ∀ r₂ ∈ db.runs, r₁.status = .complete → r₂.status = .complete →
      compare r₁.id r₂.id db' = compare r₁.id r₂.id db) := by
  intro db db'
  have hdocs : ∀ t ∈ past ++ future, RegistersIn (registrations (past ++ future)) t := registersIn_registrations
  have hc : Coupled P (registrations (past ++ future)) db :=
    run_invariant (RegistersIn (registrations (past ++ future))) (Coupled P _)
      (fun _ _ hdocs hc => hc.step hinj hdocs)
      (coupled_empty _) past fun t ht => hdocs t (List.mem_append_left _ ht)
  have hkeeps : KeepsComplete db db' := by
    show KeepsComplete db ((machine P policy).run Db.empty (past ++ future))
    rw [run_append]
    exact keepsComplete_run hinj hc future fun t ht => hdocs t (List.mem_append_right _ ht)
  refine ⟨hkeeps, fun r₁ h₁ r₂ h₂ hcomplete₁ hcomplete₂ => ?_⟩
  exact compare_congr (hkeeps r₁ h₁ hcomplete₁).2 (hkeeps r₂ h₂ hcomplete₂).2

/-- Two runs, each finished by its only shard. -/
def twoComplete : List Txn :=
  let call (runID : String) := UploadCall.reference runID 0 "" (.reference 1)
  [registerAt 0 "base" (.reference "suite" "indexed" 1), registerAt 1 "next" (.reference "suite" "indexed" 1),
    ⟨.reserveShard (call "base"), 2, 2⟩, ⟨.reserveShard (call "next"), 3, 3⟩,
    ⟨.finalizeShard (call "base") none, 4, 4⟩, ⟨.finalizeShard (call "next") none, 5, 5⟩]

/-- A second registration, a late termination and a second finalization. -/
def lateTraffic : List Txn :=
  [registerAt 6 "base" (.reference "suite" "indexed" 1),
    ⟨.terminateRun "base" (terminalKey "base" .cancelled) ⟨.cancelled, "user_request"⟩, 7, 7⟩,
    ⟨.finalizeShard (UploadCall.reference "base" 0 "" (.reference 1)) none, 8, 8⟩]

/-- Both runs are complete before the late traffic, and compare the same after it. -/
theorem complete_run_frozen_twice :
    ∃ r₁ r₂ : RunRow, r₁.id = "base" ∧ r₂.id = "next" ∧ r₁.status = .complete ∧ r₂.status = .complete ∧
      compare r₁.id r₂.id
          ((machine (.reference [.reference 1]) .unlimited).run Db.empty (twoComplete ++ lateTraffic)) =
        compare r₁.id r₂.id ((machine (.reference [.reference 1]) .unlimited).run Db.empty twoComplete) := by
  have hruns : ∃ r₁ ∈ ((machine (.reference [.reference 1]) .unlimited).run Db.empty twoComplete).runs.rows,
      ∃ r₂ ∈ ((machine (.reference [.reference 1]) .unlimited).run Db.empty twoComplete).runs.rows,
      r₁.id = "base" ∧ r₂.id = "next" ∧ r₁.status = .complete ∧ r₂.status = .complete := by decide +kernel
  obtain ⟨r₁, hr₁, r₂, hr₂, hid₁, hid₂, hs₁, hs₂⟩ := hruns
  have hfrozen := complete_run_frozen (.reference [.reference 1]) .unlimited twoComplete lateTraffic
    (injOn_of_forall_mem (by decide +kernel))
  exact ⟨r₁, r₂, hid₁, hid₂, hs₁, hs₂, hfrozen.2 r₁ hr₁ r₂ hr₂ hs₁ hs₂⟩

end AgentStorm.Results
