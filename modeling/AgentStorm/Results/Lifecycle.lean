import AgentStorm.Foundation.Collecting
import AgentStorm.Results.Sound

/-!
# `Results.Lifecycle` — a run is a collection of shards

A run row with the receipts of its shards is an abstract collection (`Foundation.Collecting`).
`RunLive` states that the stored status is the phase of that collection, although the code keeps the
two in different tables; `Commit.refines` that every transaction is a step of it. The life of a run is
then the life of a collection.
-/

namespace AgentStorm.Results

open Checks Collecting Machine Machine.Transactional Relational

variable {P : Platform} {policy : LimitPolicy} {t : Txn} {db db' : Db} {a : Answer}

/-! ## The abstraction -/

variable {r : RunRow}

/-- The shards of a run whose receipt is complete. -/
def Db.doneShards (db : Db) (runID : String) : Set Nat :=
  { i | ∃ s ∈ db.receipts, s.runID = runID ∧ s.shardIndex = i ∧ s.status = .complete }

/-- What the terminal columns of a run record. -/
structure Ending where
  status : RunStatus
  key : Option String
  hash : Option String
  reasonCode : Option String
  time : Option Time

def RunRow.ending (r : RunRow) : Option Ending :=
  if r.status.terminal then
    some ⟨r.status, r.terminalKey, r.terminalHash, r.terminalReasonCode, r.terminalAt⟩
  else none

def lifecycle (db : Db) (r : RunRow) : State Ending := ⟨r.expectedShards, db.doneShards r.id, r.ending⟩

/-- The status that goes with a phase. -/
def statusOf : Phase Ending → RunStatus
  | .collecting => .collecting
  | .complete => .complete
  | .ended e => e.status

/-- The stored columns agree with the phase of the collection. -/
structure RunLive (db : Db) (r : RunRow) : Prop where
  status_eq : r.status = statusOf (phase (lifecycle db r))
  completedAt_iff : r.completedAt.isSome = true ↔ r.status = .complete
  key_iff : r.terminalKey.isSome = true ↔ r.status.terminal = true
  hash_iff : r.terminalHash.isSome = true ↔ r.status.terminal = true
  reason_iff : r.terminalReasonCode.isSome = true ↔ r.status.terminal = true
  time_iff : r.terminalAt.isSome = true ↔ r.status.terminal = true

theorem RunRow.ending_eq_none : r.ending = none ↔ r.status.terminal = false := by
  unfold RunRow.ending
  cases r.status.terminal <;> simp

/-- Away from the terminal statuses, the status says whether the collection is full. -/
theorem status_eq_iff : r.status = statusOf (phase (lifecycle db r)) ↔
    (r.status = .complete → Full (lifecycle db r)) ∧ (r.status = .collecting → ¬ Full (lifecycle db r)) := by
  cases hs : r.status with
  | cancelled =>
    have hend : (lifecycle db r).ending =
        some ⟨.cancelled, r.terminalKey, r.terminalHash, r.terminalReasonCode, r.terminalAt⟩ := by
      simp [lifecycle, RunRow.ending, hs, RunStatus.terminal]
    simp [phase_eq_ended.mpr hend, statusOf]
  | harnessFailed =>
    have hend : (lifecycle db r).ending =
        some ⟨.harnessFailed, r.terminalKey, r.terminalHash, r.terminalReasonCode, r.terminalAt⟩ := by
      simp [lifecycle, RunRow.ending, hs, RunStatus.terminal]
    simp [phase_eq_ended.mpr hend, statusOf]
  | collecting =>
    have hend : (lifecycle db r).ending = none := by simp [lifecycle, RunRow.ending, hs, RunStatus.terminal]
    by_cases hfull : Full (lifecycle db r)
    · simp [phase_eq_complete.mpr ⟨hend, hfull⟩, statusOf, hfull]
    · simp [phase_eq_collecting.mpr ⟨hend, hfull⟩, statusOf, hfull]
  | complete =>
    have hend : (lifecycle db r).ending = none := by simp [lifecycle, RunRow.ending, hs, RunStatus.terminal]
    by_cases hfull : Full (lifecycle db r)
    · simp [phase_eq_complete.mpr ⟨hend, hfull⟩, statusOf, hfull]
    · simp [phase_eq_collecting.mpr ⟨hend, hfull⟩, statusOf, hfull]

/-- The count that `refreshAggregate` compares decides whether the collection is full. -/
theorem completedShards_eq_iff (hsound : Sound P db) (hr : r ∈ db.runs) :
    completedShards db r.id = r.expectedShards ↔ Full (lifecycle db r) := by
  have hkey : ∀ x ∈ db.receipts, ∀ y ∈ db.receipts, decide (x.runID = r.id ∧ x.status = .complete) = true →
      decide (y.runID = r.id ∧ y.status = .complete) = true → x.shardIndex = y.shardIndex →
      Record.Conflict x y := by
    intro x _ y _ hx hy hidx
    simp only [decide_eq_true_eq] at hx hy
    exact .inl ⟨hx.1.trans hy.1.symm, hidx⟩
  have hlt : ∀ x ∈ db.receipts, decide (x.runID = r.id ∧ x.status = .complete) = true →
      x.shardIndex < r.expectedShards := by
    intro s hs hp
    simp only [decide_eq_true_eq] at hp
    obtain ⟨r', hr', hid, hlt⟩ := (hsound.receipts s hs).run
    rw [db.runs.eq_of_conflict hr hr' (Or.inl (hp.1.symm.trans hid.symm))]
    exact hlt
  refine (Table.count_eq_iff_covers hkey hlt).trans ⟨?_, ?_⟩
  · intro hall i hi
    obtain ⟨s, hs, hp, hidx⟩ := hall i hi
    simp only [decide_eq_true_eq] at hp
    exact ⟨s, hs, hp.1, hidx, hp.2⟩
  · intro hfull i hi
    obtain ⟨s, hs, hrun, hidx, hcomplete⟩ := hfull i hi
    exact ⟨s, hs, by simp [hrun, hcomplete], hidx⟩

/-! ## One transaction -/

variable {runID : String} {r' : RunRow}

/-- A log entry that is a first termination of the run. -/
def terminates (runID : String) (entry : Txn × Except ApiError Answer) : Bool :=
  match entry.2, entry.1.op with
  | .ok (.terminated true), .terminateRun id _ _ => decide (id = runID)
  | _, _ => false

theorem terminates_iff : terminates runID (t, .ok a) = true ↔
    a = .terminated true ∧ ∃ key terminal, t.op = .terminateRun runID key terminal := by
  unfold terminates
  split
  · rename_i id key terminal ha hop
    simp only [Except.ok.injEq] at ha
    have hop : t.op = .terminateRun id key terminal := hop
    simp [ha, hop]
  · rename_i hother
    simp only [Bool.false_eq_true, false_iff, not_and, not_exists]
    rintro rfl key terminal hop
    exact hother _ _ _ rfl hop

theorem terminates_of_permit (ha : a.permit = true) : terminates runID (t, .ok a) = false := by
  cases a <;> first | rfl | nomatch ha

/-- What a commit does to the life of one run. -/
inductive RunStep (P : Platform) (t : Txn) (db : Db) (a : Answer) (db' : Db) (r : RunRow) : RunRow → Prop
  | keep (hquiet : terminates r.id (t, .ok a) = false) (hdone : db'.doneShards r.id = db.doneShards r.id) :
      RunStep P t db a db' r r
  | ended (terminal : TerminalRequest)
      (hop : t.op = .terminateRun r.id (terminalKey r.id terminal.status) terminal) (ha : a = .terminated true)
      (hterminal : terminal.status.terminal = true) (hstatus : r.status = .collecting)
      (hdone : db'.doneShards r.id = db.doneShards r.id) :
      RunStep P t db a db' r
        (r.terminate t.now (terminalKey r.id terminal.status) (P.terminalHash terminal) terminal)
  | refreshed (i : Nat) (all : Bool) (ha : a = .finalized true)
      (hdone : db'.doneShards r.id = insert i (db.doneShards r.id))
      (hall : all = true ↔ ∀ j < r.expectedShards, j ∈ db'.doneShards r.id) :
      RunStep P t db a db' r (r.refresh t.now t.wall all)

theorem RunStep.same (h : RunStep P t db a db' r r') : SameRun r r' := by
  cases h with
  | keep => exact SameRun.refl r
  | ended => exact sameRun_terminate _ _ _ _ r
  | refreshed => exact sameRun_refresh _ _ _ r

theorem doneShards_congr (hreceipts : db'.receipts = db.receipts) (runID : String) :
    db'.doneShards runID = db.doneShards runID := by
  unfold Db.doneShards
  rw [hreceipts]

/-- A reserved shard is not done. -/
theorem doneShards_insert {s : ReceiptRow} (hins : db.receipts.insert s = some db'.receipts)
    (hpending : s.status = .pending) (runID : String) : db'.doneShards runID = db.doneShards runID := by
  ext i
  constructor
  · rintro ⟨s', hs', hrun, hidx, hcomplete⟩
    rcases (Table.mem_of_insert hins).mp hs' with hold | rfl
    · exact ⟨s', hold, hrun, hidx, hcomplete⟩
    · rw [hpending] at hcomplete
      exact ReceiptStatus.noConfusion hcomplete
  · rintro ⟨s', hs', hrest⟩
    exact ⟨s', (Table.mem_of_insert hins).mpr (Or.inl hs'), hrest⟩

section Finish

variable {runID : String} {i : Nat}

/-- Completing the receipt of one shard adds that shard to its run. -/
theorem doneShards_finish {s : ReceiptRow} (hs : db.receipt? runID i = some s)
    (heq : db'.receipts = db.receipts.update (fun r => decide (r.runID = runID ∧ r.shardIndex = i))
      ReceiptRow.finish keepsKeys_finish) :
    db'.doneShards runID = insert i (db.doneShards runID) := by
  ext j
  simp only [Db.doneShards, Set.mem_ofPred_eq, Set.mem_insert_iff, heq, Table.mem_update]
  constructor
  · rintro ⟨_, ⟨x, hx, rfl⟩, hrun, hidx, hcomplete⟩
    split at hidx
    · rename_i hkey
      simp only [decide_eq_true_eq] at hkey
      exact .inl (hidx.symm.trans hkey.2)
    · rename_i hkey
      rw [if_neg hkey] at hrun hcomplete
      exact .inr ⟨x, hx, hrun, hidx, hcomplete⟩
  · rintro (rfl | ⟨x, hx, hrun, hidx, hcomplete⟩)
    · obtain ⟨hmem, hrun, hidx⟩ := Db.receipt?_eq_some.mp hs
      refine ⟨_, ⟨s, hmem, rfl⟩, ?_⟩
      rw [if_pos (by simp [hrun, hidx])]
      exact ⟨hrun, hidx, rfl⟩
    · refine ⟨_, ⟨x, hx, rfl⟩, ?_⟩
      split
      · exact ⟨hrun, hidx, rfl⟩
      · exact ⟨hrun, hidx, hcomplete⟩

theorem doneShards_finish_of_ne {runID' : String} (hne : runID' ≠ runID)
    (heq : db'.receipts = db.receipts.update (fun r => decide (r.runID = runID ∧ r.shardIndex = i))
      ReceiptRow.finish keepsKeys_finish) :
    db'.doneShards runID' = db.doneShards runID' := by
  ext j
  simp only [Db.doneShards, Set.mem_ofPred_eq, heq, Table.mem_update]
  constructor
  · rintro ⟨_, ⟨x, hx, rfl⟩, hrun, hidx, hcomplete⟩
    split at hrun
    · rename_i hkey
      simp only [decide_eq_true_eq] at hkey
      exact absurd (hrun.symm.trans hkey.1) hne
    · rename_i hkey
      rw [if_neg hkey] at hidx hcomplete
      exact ⟨x, hx, hrun, hidx, hcomplete⟩
  · rintro ⟨x, hx, hrun, hidx, hcomplete⟩
    refine ⟨_, ⟨x, hx, rfl⟩, ?_⟩
    rw [if_neg (by simp [hrun, hne])]
    exact ⟨hrun, hidx, hcomplete⟩

end Finish

/-- **Every commit is one of the three**, for every run there is. -/
theorem Commit.runStep (hsound : Sound P db) (h : Commit P t db a db') (hr : r ∈ db.runs) :
    ∃ r' ∈ db'.runs, RunStep P t db a db' r r' := by
  have hsound' := hsound.commit h
  cases h with
  | registerNew _ _ _ _ _ hins =>
    refine ⟨r, ?_, .keep rfl (doneShards_congr (enqueueRunShards_receipts _ _ _) _)⟩
    rw [enqueueRunShards_runs]
    exact (Table.mem_of_insert hins).mpr (Or.inl hr)
  | registerAgain =>
    refine ⟨r, ?_, .keep rfl (doneShards_congr (enqueueRunShards_receipts _ _ _) _)⟩
    rw [enqueueRunShards_runs]
    exact hr
  | terminate runID terminal _ hop hterminal hrun hstatus =>
    by_cases hid : r.id = runID
    · obtain ⟨hrun, hrid⟩ := Db.run?_eq_some.mp hrun
      obtain rfl := db.runs.eq_of_conflict hr hrun (Or.inl (hid.trans hrid.symm))
      subst hid
      exact ⟨_, Table.mem_update_of (keepsKeys_terminate _ _ _ _) hr (by simp),
        .ended terminal hop rfl hterminal hstatus rfl⟩
    · exact ⟨r, Table.mem_update_of_not (keepsKeys_terminate _ _ _ _) hr (by simp [hid]),
        .keep (by simp [terminates, hop, Ne.symm hid]) rfl⟩
  | reserveNew _ _ _ _ _ _ _ _ hins =>
    exact ⟨r, hr, .keep rfl (doneShards_insert hins rfl _)⟩
  | finalize call _ run _ stored _ _ _ _ _ hreceipt _ _ _ hrefresh =>
    obtain ⟨_, _, hrun', rfl⟩ := refreshAggregate_ok hrefresh
    by_cases hid : r.id = call.runID
    · obtain ⟨hrun', hrid⟩ := Db.run?_eq_some.mp hrun'
      obtain rfl := db.runs.eq_of_conflict hr hrun' (Or.inl (hid.trans hrid.symm))
      have hmem := Table.mem_update_of (keepsKeys_runRefresh t.now t.wall (decide (completedShards
        (completeShard call.runID call.shardIndex.toNat run.registration.queued stored db) call.runID =
          r.expectedShards))) hr (p := fun r => decide (r.id = call.runID)) (by simp [hid])
      refine ⟨_, hmem, .refreshed call.shardIndex.toNat _ rfl ?_ ?_⟩
      · rw [hid]
        exact doneShards_finish hreceipt rfl
      · -- the count was taken over the receipts this commit leaves behind
        have hiff := completedShards_eq_iff hsound' hmem
        rw [decide_eq_true_eq]
        refine Iff.trans ?_ hiff
        show _ ↔ completedShards _ r.id = r.expectedShards
        rw [hid]
        exact Iff.rfl
    · exact ⟨r, Table.mem_update_of_not (keepsKeys_runRefresh _ _ _) hr (by simp [hid]),
        .keep rfl (doneShards_finish_of_ne hid rfl)⟩
  | permit permits rateEvents a hanswer => exact ⟨r, hr, .keep (terminates_of_permit hanswer) rfl⟩
  | terminateAgain | reclaim | claim | renew | reserveAgain | finalizeAgain => exact ⟨r, hr, .keep rfl rfl⟩

/-! ## Preservation and refinement -/

theorem RunRow.terminate_status (now : Time) (key hash : String) (terminal : TerminalRequest) (r : RunRow) :
    (r.terminate now key hash terminal).status = terminal.status := rfl

/-- A late shard changes neither the status nor a terminal column of a terminated run. -/
theorem RunRow.ending_refresh (now wall : Time) (all : Bool) (r : RunRow) :
    (r.refresh now wall all).ending = r.ending := by
  unfold RunRow.ending RunRow.refresh
  cases hterm : r.status.terminal with
  | true => simp [hterm]
  | false => cases all <;> simp [RunStatus.terminal]

theorem RunRow.terminal_refresh (now wall : Time) (all : Bool) (r : RunRow) :
    (r.refresh now wall all).status.terminal = r.status.terminal := by
  unfold RunRow.refresh
  cases hterm : r.status.terminal with
  | true => simp [hterm]
  | false => cases all <;> simp [RunStatus.terminal]

theorem runLive_newRun {now : Time} {registration : Registration}
    (hvalid : RegistrationAccepted runID (registrationKey runID) registration)
    (hnone : db.doneShards runID = ∅) :
    RunLive db (newRun now runID (registrationKey runID) (P.registrationHash registration) registration) := by
  have hpos : 0 < (newRun now runID (registrationKey runID) (P.registrationHash registration)
    registration).expectedShards := (runSound_newRun hvalid).positive
  refine ⟨status_eq_iff.mpr ⟨(nomatch ·), fun _ hfull => ?_⟩, ?_, ?_, ?_, ?_, ?_⟩
  · have hmem := hfull 0 hpos
    change 0 ∈ db.doneShards runID at hmem
    rw [hnone] at hmem
    exact hmem
  all_goals exact ⟨(nomatch ·), (nomatch ·)⟩

/-- **The columns stay in agreement.** -/
theorem RunStep.live (h : RunStep P t db a db' r r') (hlive : RunLive db r) : RunLive db' r' := by
  cases h with
  | keep hquiet hdone =>
    have heq : lifecycle db' r = lifecycle db r := by simp [lifecycle, hdone]
    exact ⟨heq ▸ hlive.status_eq, hlive.completedAt_iff, hlive.key_iff, hlive.hash_iff, hlive.reason_iff,
      hlive.time_iff⟩
  | ended terminal _ _ hterminal hstatus =>
    have hset : ∀ x : String, (some x).isSome = true ↔ terminal.status.terminal = true := by simp [hterminal]
    refine ⟨status_eq_iff.mpr ⟨?_, ?_⟩, ?_, hset _, hset _, hset _, by simpa [RunRow.terminate] using hterminal⟩
    · intro hcomplete
      rw [RunRow.terminate_status] at hcomplete
      rw [hcomplete] at hterminal
      cases hterminal
    · intro hcollecting
      rw [RunRow.terminate_status] at hcollecting
      rw [hcollecting] at hterminal
      cases hterminal
    · -- `completed_at` was null, and a terminal status is not `complete`
      have hnone : ¬ r.completedAt.isSome = true := by simp [hlive.completedAt_iff, hstatus]
      refine ⟨fun h => absurd h hnone, fun h => ?_⟩
      rw [RunRow.terminate_status] at h
      rw [h] at hterminal
      cases hterminal
  | refreshed i all _ hdone hall =>
    have hfull : Full (lifecycle db' (r.refresh t.now t.wall all)) ↔ all = true := hall.symm
    have hterm := RunRow.terminal_refresh t.now t.wall all r
    refine ⟨status_eq_iff.mpr ?_, ?_, hterm ▸ hlive.key_iff, hterm ▸ hlive.hash_iff, hterm ▸ hlive.reason_iff,
      hterm ▸ hlive.time_iff⟩
    · rw [hfull]
      unfold RunRow.refresh
      cases hs : r.status <;> cases all <;> simp [RunStatus.terminal]
    · -- a terminated run has no completion time, an open one gets it with its status and a complete run stays full
      have hstay : r.status = .complete → all = true := by
        intro hcomplete
        refine hall.mpr fun j hj => ?_
        rw [hdone]
        exact Set.mem_insert_of_mem i ((status_eq_iff.mp hlive.status_eq).1 hcomplete j hj)
      have htime := hlive.completedAt_iff
      unfold RunRow.refresh
      cases hs : r.status with
      | collecting =>
        simp only [hs, reduceCtorEq, iff_false] at htime
        cases all <;> simp [RunStatus.terminal, htime]
      | complete => simp [RunStatus.terminal, hstay hs]
      | cancelled => simpa [RunStatus.terminal, hs] using htime
      | harnessFailed => simpa [RunStatus.terminal, hs] using htime

/-- **Refinement.** What a commit does to a run is a step of its collection. -/
theorem RunStep.refines (h : RunStep P t db a db' r r') (hlive : RunLive db r) :
    Step (lifecycle db r) (lifecycle db' r') := by
  cases h with
  | keep hquiet hdone =>
    have heq : lifecycle db' r = lifecycle db r := by simp [lifecycle, hdone]
    rw [heq]
    exact .stay
  | ended terminal _ _ hterminal hstatus hdone =>
    have hopen : phase (lifecycle db r) = .collecting := by
      rw [phase_eq_collecting]
      exact ⟨RunRow.ending_eq_none.mpr (by rw [hstatus]; rfl), (status_eq_iff.mp hlive.status_eq).2 hstatus⟩
    have heq : lifecycle db' (r.terminate t.now (terminalKey r.id terminal.status) (P.terminalHash terminal) terminal)
        = { lifecycle db r with ending := some ⟨terminal.status, some (terminalKey r.id terminal.status),
              some (P.terminalHash terminal), some terminal.reasonCode, some t.now⟩ } := by
      simp [lifecycle, RunRow.ending, RunRow.terminate, hterminal, hdone]
    rw [heq]
    exact .finishAs _ hopen
  | refreshed i all _ hdone =>
    have heq : lifecycle db' (r.refresh t.now t.wall all)
        = { lifecycle db r with done := insert i (lifecycle db r).done } := by
      simp only [lifecycle, RunRow.ending_refresh, ← hdone]
      rfl
    rw [heq]
    exact .finish i

/-- Where the run rows after a commit come from. -/
theorem Commit.runStep_back (hsound : Sound P db) (h : Commit P t db a db') (hr' : r' ∈ db'.runs) :
    (∃ r ∈ db.runs, RunStep P t db a db' r r') ∨
    (∃ runID registration, t.op = .registerRun runID (registrationKey runID) registration ∧
      RegistrationAccepted runID (registrationKey runID) registration ∧
      r' = newRun t.now runID (registrationKey runID) (P.registrationHash registration) registration ∧
      ∀ r ∈ db.runs, r.id ≠ runID) := by
  rcases h.run_back hr' with ⟨r, hr, hsame⟩ | hnew
  · obtain ⟨_, hr'', hstep⟩ := h.runStep hsound hr
    have heq := db'.runs.eq_of_conflict hr'' hr' (Or.inl (hstep.same.id_eq.trans hsame.id_eq.symm))
    exact .inl ⟨r, hr, heq ▸ hstep⟩
  · exact .inr hnew

/-- A run that is just being registered has no receipts. -/
theorem Commit.doneShards_new (hsound : Sound P db) (h : Commit P t db a db')
    (hnew : ∀ r ∈ db.runs, r.id ≠ runID) (hop : ∀ call, t.op ≠ .reserveShard call) :
    db'.doneShards runID = ∅ := by
  ext i
  simp only [Set.mem_empty_iff_false, iff_false]
  rintro ⟨s', hs', hrun, -, -⟩
  rcases h.receipt_back hs' with ⟨s, hs, hsame⟩ | ⟨call, -, hreserve, -⟩
  · obtain ⟨r, hr, hid, -⟩ := (hsound.receipts s hs).run
    exact hnew r hr (hid.trans (hsame.runID_eq.symm.trans hrun))
  · exact hop call hreserve

/-! ## Whole runs of the machine -/

/-- The invariant of a reachable database, with the columns of every run in agreement. -/
structure Standing (P : Platform) (db : Db) : Prop where
  sound : Sound P db
  live : ∀ r ∈ db.runs, RunLive db r

theorem Standing.commit (hst : Standing P db) (h : Commit P t db a db') : Standing P db' := by
  refine ⟨hst.sound.commit h, fun r' hr' => ?_⟩
  rcases h.runStep_back hst.sound hr' with ⟨r, hr, hstep⟩ | ⟨_, _, hop, hvalid, rfl, hnew⟩
  · exact hstep.live (hst.live r hr)
  · exact runLive_newRun hvalid (h.doneShards_new hst.sound hnew fun call heq => by rw [hop] at heq; nomatch heq)

theorem Standing.step (hst : Standing P db) (t : Txn) : Standing P ((machine P policy).step db t) :=
  step_of_commit (Q := Standing P) hst hst.commit

theorem standing_empty : Standing P Db.empty := ⟨sound_empty, fun _ h => absurd h Table.not_mem_empty⟩

theorem standing_run (es : List Txn) : Standing P ((machine P policy).run Db.empty es) :=
  run_invariant (fun _ => True) (Standing P) (fun _ t _ h => h.step t) standing_empty es fun _ _ => trivial

/-- Every run of the first database is in the second, and its collection got there by steps. -/
def Lives (db db' : Db) : Prop :=
  ∀ r ∈ db.runs, ∃ r' ∈ db'.runs, SameRun r r' ∧ Relation.ReflTransGen Step (lifecycle db r) (lifecycle db' r')

theorem Lives.refl (db : Db) : Lives db db := fun r hr => ⟨r, hr, SameRun.refl r, .refl⟩

theorem Lives.trans {db'' : Db} (h : Lives db db') (h' : Lives db' db'') : Lives db db'' := by
  intro r hr
  obtain ⟨r', hr', hsame, hsteps⟩ := h r hr
  obtain ⟨r'', hr'', hsame', hsteps'⟩ := h' r' hr'
  exact ⟨r'', hr'', hsame.trans hsame', hsteps.trans hsteps'⟩

theorem Standing.lives_step (hst : Standing P db) (t : Txn) : Lives db ((machine P policy).step db t) := by
  refine step_of_commit (Q := Lives db) (Lives.refl db) fun hcommit r hr => ?_
  obtain ⟨r', hr', hstep⟩ := hcommit.runStep hst.sound hr
  exact ⟨r', hr', hstep.same, .single (hstep.refines (hst.live r hr))⟩

theorem Standing.lives_run (hst : Standing P db) (es : List Txn) : Lives db ((machine P policy).run db es) :=
  run_relates (fun _ => True) Lives.refl (fun h h' => h.trans h') (fun _ t _ h => h.step t)
    (fun _ t _ h => h.lives_step t) hst es fun _ _ => trivial

/-- The columns that say how a run ended. -/
structure SameEnd (r r' : RunRow) : Prop where
  status_eq : r'.status = r.status
  key_eq : r'.terminalKey = r.terminalKey
  hash_eq : r'.terminalHash = r.terminalHash
  reason_eq : r'.terminalReasonCode = r.terminalReasonCode
  time_eq : r'.terminalAt = r.terminalAt

theorem RunRow.ending_of_terminal (h : r.status.terminal = true) :
    r.ending = some ⟨r.status, r.terminalKey, r.terminalHash, r.terminalReasonCode, r.terminalAt⟩ := by
  simp [RunRow.ending, h]

/-- A collection that has left `collecting` pins the columns of its run. -/
theorem sameEnd_of_steps (hlive : RunLive db r) (hlive' : RunLive db' r')
    (hsteps : Relation.ReflTransGen Step (lifecycle db r) (lifecycle db' r'))
    (hleft : r.status ≠ .collecting) : SameEnd r r' := by
  have hphase : phase (lifecycle db' r') = phase (lifecycle db r) := by
    refine phase_of_steps hsteps fun hopen => hleft ?_
    rw [hlive.status_eq, hopen]
    rfl
  have hstatus : r'.status = r.status := by rw [hlive'.status_eq, hphase, ← hlive.status_eq]
  cases hterm : r.status.terminal with
  | true =>
    have hend := RunRow.ending_of_terminal hterm
    have hend' := RunRow.ending_of_terminal (hstatus ▸ hterm)
    have heq : r'.ending = r.ending := by
      rw [hend]
      refine phase_eq_ended.mp (hphase.trans ?_)
      exact phase_eq_ended.mpr hend
    rw [hend, hend'] at heq
    simp only [Option.some.injEq, Ending.mk.injEq] at heq
    exact ⟨heq.1, heq.2.1, heq.2.2.1, heq.2.2.2.1, heq.2.2.2.2⟩
  | false =>
    -- a complete run: no terminal column is set, before or after
    have hnone : ∀ {α : Type} {x y : Option α}, (x.isSome = true ↔ r.status.terminal = true) →
        (y.isSome = true ↔ r'.status.terminal = true) → y = x := by
      intro α x y hx hy
      rw [hterm] at hx
      rw [hstatus, hterm] at hy
      cases x <;> cases y <;> simp_all
    exact ⟨hstatus, hnone hlive.key_iff hlive'.key_iff, hnone hlive.hash_iff hlive'.hash_iff,
      hnone hlive.reason_iff hlive'.reason_iff, hnone hlive.time_iff hlive'.time_iff⟩

/-- One commit on a run that has left `collecting`. -/
theorem RunStep.sameEnd (h : RunStep P t db a db' r r') (hlive : RunLive db r)
    (hleft : r.status ≠ .collecting) : SameEnd r r' :=
  sameEnd_of_steps hlive (h.live hlive) (.single (h.refines hlive)) hleft

/-- A run that a commit terminates is terminal after it. -/
theorem RunStep.terminal_of_terminates (h : RunStep P t db a db' r r')
    (hterm : terminates r.id (t, .ok a) = true) : r'.status.terminal = true := by
  cases h with
  | keep hquiet =>
    rw [hquiet] at hterm
    cases hterm
  | ended terminal _ _ hterminal => exact hterminal
  | refreshed i all ha =>
    rw [ha] at hterm
    cases hterm

/-! ## Who ended a run -/

/-- The first terminations of a run, over a whole log. -/
def terminations (runID : String) (log : List (Txn × Except ApiError Answer)) :
    List (Txn × Except ApiError Answer) := log.filter (terminates runID)

/-- The terminal columns are what the call `t` wrote. -/
structure WrittenBy (P : Platform) (t : Txn) (r : RunRow) (terminal : TerminalRequest) : Prop where
  op_eq : t.op = .terminateRun r.id (terminalKey r.id terminal.status) terminal
  terminal_status : terminal.status.terminal = true
  status_eq : r.status = terminal.status
  key_eq : r.terminalKey = some (terminalKey r.id terminal.status)
  hash_eq : r.terminalHash = some (P.terminalHash terminal)
  reason_eq : r.terminalReasonCode = some terminal.reasonCode
  time_eq : r.terminalAt = some t.now

/-- No call terminated the run, or exactly one did and left its columns. -/
inductive EndedBy (P : Platform) (calls : List (Txn × Except ApiError Answer)) (r : RunRow) : Prop
  | none (hopen : r.status.terminal = false) (hcalls : calls = [])
  | one (t : Txn) (terminal : TerminalRequest) (hwritten : WrittenBy P t r terminal)
      (hcalls : calls = [(t, .ok (.terminated true))])

theorem terminations_concat (runID : String) (log : List (Txn × Except ApiError Answer))
    (entry : Txn × Except ApiError Answer) :
    terminations runID (log ++ [entry]) =
      terminations runID log ++ if terminates runID entry then [entry] else [] := by
  cases h : terminates runID entry <;> simp [terminations, h]

theorem EndedBy.step {calls : List (Txn × Except ApiError Answer)} (h : EndedBy P calls r)
    (hstep : RunStep P t db a db' r r') :
    EndedBy P (calls ++ if terminates r.id (t, .ok a) then [(t, .ok a)] else []) r' := by
  cases hstep with
  | keep hquiet =>
    rw [hquiet]
    simpa using h
  | ended terminal hop ha hterminal hstatus =>
    have hfirst : terminates r.id (t, .ok a) = true := by simp [terminates, ha, hop]
    have hnone : calls = [] := by
      cases h with
      | none _ hcalls => exact hcalls
      | one t₀ terminal₀ hwritten =>
        have hterm := hwritten.terminal_status
        rw [← hwritten.status_eq, hstatus] at hterm
        cases hterm
    rw [hfirst, hnone, ha]
    exact .one t terminal ⟨hop, hterminal, rfl, rfl, rfl, rfl, rfl⟩ rfl
  | refreshed _ all ha =>
    have hquiet : terminates r.id (t, .ok a) = false := by rw [ha]; rfl
    have hterm := RunRow.terminal_refresh t.now t.wall all r
    rw [hquiet]
    cases h with
    | none hopen hcalls => exact .none (hterm.trans hopen) (by simpa using hcalls)
    | one t₀ terminal hwritten hcalls =>
      refine .one t₀ terminal ⟨hwritten.op_eq, hwritten.terminal_status, ?_, hwritten.key_eq, hwritten.hash_eq,
        hwritten.reason_eq, hwritten.time_eq⟩ (by simpa using hcalls)
      have hended : r.status.terminal = true := hwritten.status_eq ▸ hwritten.terminal_status
      simp only [RunRow.refresh, hended, if_true]
      exact hwritten.status_eq

theorem Commit.run_of_terminates (h : Commit P t db a db') (hterm : terminates runID (t, .ok a) = true) :
    ∃ r ∈ db.runs, r.id = runID := by
  obtain ⟨rfl, _, _, hop⟩ := terminates_iff.mp hterm
  cases h with
  | terminate _ _ run hop' _ hrun =>
    obtain ⟨hmem, hid⟩ := Db.run?_eq_some.mp hrun
    rw [hop'] at hop
    simp only [Op.terminateRun.injEq] at hop
    exact ⟨run, hmem, hid.trans hop.1⟩
  | permit permits rateEvents a hanswer => cases hanswer

/-- Over a whole history: what ended each run, and that no call ended a run that does not exist. -/
structure Ends (P : Platform) (log : List (Txn × Except ApiError Answer)) (db : Db) : Prop where
  ended : ∀ r ∈ db.runs, EndedBy P (terminations r.id log) r
  absent : ∀ runID, (∀ r ∈ db.runs, r.id ≠ runID) → terminations runID log = []

theorem Ends.commit {log : List (Txn × Except ApiError Answer)} (hends : Ends P log db) (hsound : Sound P db)
    (h : Commit P t db a db') : Ends P (log ++ [(t, .ok a)]) db' := by
  refine ⟨fun r' hr' => ?_, fun runID habsent => ?_⟩
  · rw [terminations_concat]
    rcases h.runStep_back hsound hr' with ⟨r, hr, hstep⟩ | ⟨runID, _, hop, -, rfl, hnew⟩
    · rw [hstep.same.id_eq]
      exact (hends.ended r hr).step hstep
    · refine .none rfl ?_
      have hquiet : ¬ terminates runID (t, .ok a) = true := by simp [terminates_iff, hop]
      show terminations runID log ++ (if terminates runID (t, .ok a) then _ else _) = []
      rw [hends.absent runID hnew, if_neg hquiet]
      rfl
  · have hbefore : ∀ r ∈ db.runs, r.id ≠ runID := by
      intro r hr heq
      obtain ⟨r', hr', hsame⟩ := h.run_forth hr
      exact habsent r' hr' (hsame.id_eq.trans heq)
    have hquiet : ¬ terminates runID (t, .ok a) = true := by
      intro hterm
      obtain ⟨r, hr, hid⟩ := h.run_of_terminates hterm
      exact hbefore r hr hid
    rw [terminations_concat, hends.absent runID hbefore, if_neg hquiet]
    rfl

theorem ends_run (es : List Txn) :
    Ends P ((machine P policy).log Db.empty es) ((machine P policy).run Db.empty es) := by
  refine run_induction (fun _ => True) (fun es db => Ends P ((machine P policy).log Db.empty es) db)
    (fun _ _ h => h) ⟨fun _ h => absurd h Table.not_mem_empty, fun _ _ => rfl⟩ ?_ es trivial
  intro es t _ hends
  rw [log_concat]
  rcases hexec : (machine P policy).exec t ((machine P policy).run Db.empty es) with e | ⟨a, db'⟩
  · rw [step_error hexec, answer_error hexec]
    refine ⟨fun r hr => ?_, fun runID habsent => ?_⟩
    · rw [terminations_concat]
      simpa [terminates] using hends.ended r hr
    · rw [terminations_concat, hends.absent runID habsent]
      rfl
  · rw [step_ok hexec, answer_ok_iff.mpr ⟨db', hexec⟩]
    exact hends.commit (standing_run es).sound (commit_of_exec hexec)

theorem RunLive.complete_iff {calls : List (Txn × Except ApiError Answer)} (hlive : RunLive db r)
    (hended : EndedBy P calls r) : r.status = .complete ↔ calls = [] ∧ Full (lifecycle db r) := by
  have hiff := status_eq_iff.mp hlive.status_eq
  cases hended with
  | none hopen hcalls =>
    refine ⟨fun hcomplete => ⟨hcalls, hiff.1 hcomplete⟩, fun hfull => ?_⟩
    cases hs : r.status with
    | complete => rfl
    | collecting => exact absurd hfull.2 (hiff.2 hs)
    | cancelled => rw [hs] at hopen; exact nomatch hopen
    | harnessFailed => rw [hs] at hopen; exact nomatch hopen
  | one t terminal hwritten hcalls =>
    refine ⟨fun hcomplete => ?_, fun hfull => ?_⟩
    · have hterm := hwritten.terminal_status
      rw [← hwritten.status_eq, hcomplete] at hterm
      cases hterm
    · rw [hcalls] at hfull
      exact nomatch hfull.1

/-- The columns of a run against the history that led to its database. -/
structure RunColumns (P : Platform) (log : List (Txn × Except ApiError Answer)) (db : Db) (r : RunRow) : Prop where
  complete_iff : r.status = .complete ↔ terminations r.id log = [] ∧
    ∀ i < r.expectedShards, ∃ s ∈ db.receipts, s.runID = r.id ∧ s.shardIndex = i ∧ s.status = .complete
  completedAt_iff : r.completedAt.isSome = true ↔ r.status = .complete
  key_iff : r.terminalKey.isSome = true ↔ r.status = .cancelled ∨ r.status = .harnessFailed
  hash_iff : r.terminalHash.isSome = true ↔ r.status = .cancelled ∨ r.status = .harnessFailed
  reason_iff : r.terminalReasonCode.isSome = true ↔ r.status = .cancelled ∨ r.status = .harnessFailed
  time_iff : r.terminalAt.isSome = true ↔ r.status = .cancelled ∨ r.status = .harnessFailed
  one_call : r.status = .cancelled ∨ r.status = .harnessFailed →
    ∃ t terminal, terminations r.id log = [(t, .ok (.terminated true))] ∧ WrittenBy P t r terminal

theorem RunStatus.terminal_iff {status : RunStatus} :
    status.terminal = true ↔ status = .cancelled ∨ status = .harnessFailed := by
  cases status <;> simp [RunStatus.terminal]

/-- **The life of a run.** A run is registered collecting. Whatever transactions follow, it keeps its id, and once
    it has left `collecting` its status and its terminal columns never change again; in between, the columns say
    exactly what happened: complete means never terminated and every expected receipt complete, and the terminal
    columns are those of the one call that ended the run. -/
theorem run_lifecycle (P : Platform) (policy : LimitPolicy) (past future : List Txn) :
    let db := (machine P policy).run Db.empty past
    let db' := (machine P policy).run Db.empty (past ++ future)
    (∀ t, ∀ r ∈ ((machine P policy).step db t).runs, (∀ r₀ ∈ db.runs, r₀.id ≠ r.id) → r.status = .collecting) ∧
    (∀ r ∈ db.runs, ∃ r' ∈ db'.runs, r'.id = r.id ∧ (r.status ≠ .collecting → SameEnd r r')) ∧
    (∀ r ∈ db'.runs, RunColumns P ((machine P policy).log Db.empty (past ++ future)) db' r) := by
  intro db db'
  have hst : Standing P db := standing_run past
  have hst' : Standing P db' := standing_run (past ++ future)
  refine ⟨?_, ?_, ?_⟩
  · intro t r hr hnew
    rcases step_cases (M := machine P policy) db t with heq | ⟨a, _, hexec, heq⟩
    · rw [heq] at hr
      exact absurd rfl (hnew r hr)
    · rw [heq] at hr
      rcases (commit_of_exec hexec).run_back hr with ⟨r₀, hr₀, hsame⟩ | ⟨_, _, -, -, rfl, -⟩
      · exact absurd hsame.id_eq.symm (hnew r₀ hr₀)
      · rfl
  · intro r hr
    have hlives : Lives db db' := by
      show Lives db ((machine P policy).run Db.empty (past ++ future))
      rw [run_append]
      exact hst.lives_run future
    obtain ⟨r', hr', hsame, hsteps⟩ := hlives r hr
    exact ⟨r', hr', hsame.id_eq, sameEnd_of_steps (hst.live r hr) (hst'.live r' hr') hsteps⟩
  · intro r hr
    have hlive := hst'.live r hr
    have hended := (ends_run (past ++ future)).ended r hr
    refine ⟨hlive.complete_iff hended, hlive.completedAt_iff, ?_, ?_, ?_, ?_, ?_⟩
    · exact hlive.key_iff.trans RunStatus.terminal_iff
    · exact hlive.hash_iff.trans RunStatus.terminal_iff
    · exact hlive.reason_iff.trans RunStatus.terminal_iff
    · exact hlive.time_iff.trans RunStatus.terminal_iff
    · intro hterm
      cases hended with
      | none hopen =>
        rw [RunStatus.terminal_iff.mpr hterm] at hopen
        cases hopen
      | one t terminal hwritten hcalls => exact ⟨t, terminal, hcalls, hwritten⟩

end AgentStorm.Results
