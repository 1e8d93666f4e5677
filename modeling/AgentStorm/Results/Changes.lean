import AgentStorm.Results.Commit

/-!
# `Results.Changes` — what a commit does to each table

`Commit` read one table at a time. A run row keeps its registration for ever; a receipt keeps its content and is
never taken back once complete; case rows are only added. Each table has a lemma that says where its rows came
from, and one that says what became of the rows that were there.
-/

namespace AgentStorm.Results

open Checks Machine Relational

variable {P : Platform} {t : Txn} {db db' : Db} {a : Answer}

/-! ## Frames of the updates -/

@[simp] theorem enqueueRunShards_runs (runID : String) (registration : Registration) (db : Db) :
    (enqueueRunShards runID registration db).runs = db.runs := by
  unfold enqueueRunShards; split <;> rfl

@[simp] theorem enqueueRunShards_receipts (runID : String) (registration : Registration) (db : Db) :
    (enqueueRunShards runID registration db).receipts = db.receipts := by
  unfold enqueueRunShards; split <;> rfl

@[simp] theorem enqueueRunShards_cases (runID : String) (registration : Registration) (db : Db) :
    (enqueueRunShards runID registration db).cases = db.cases := by
  unfold enqueueRunShards; split <;> rfl

@[simp] theorem enqueueRunShards_summaries (runID : String) (registration : Registration) (db : Db) :
    (enqueueRunShards runID registration db).summaries = db.summaries := by
  unfold enqueueRunShards; split <;> rfl

@[simp] theorem enqueueRunShards_permits (runID : String) (registration : Registration) (db : Db) :
    (enqueueRunShards runID registration db).permits = db.permits := by
  unfold enqueueRunShards; split <;> rfl

@[simp] theorem enqueueRunShards_rateEvents (runID : String) (registration : Registration) (db : Db) :
    (enqueueRunShards runID registration db).rateEvents = db.rateEvents := by
  unfold enqueueRunShards; split <;> rfl

/-! ## Runs -/

/-- The columns of a run that no statement changes. -/
structure SameRun (r r' : RunRow) : Prop where
  id_eq : r'.id = r.id
  key_eq : r'.registrationKey = r.registrationKey
  hash_eq : r'.registrationHash = r.registrationHash
  registration_eq : r'.registration = r.registration
  expected_eq : r'.expectedShards = r.expectedShards

theorem SameRun.refl (r : RunRow) : SameRun r r := ⟨rfl, rfl, rfl, rfl, rfl⟩

theorem SameRun.trans {r r' r'' : RunRow} (h : SameRun r r') (h' : SameRun r' r'') : SameRun r r'' :=
  ⟨h'.id_eq.trans h.id_eq, h'.key_eq.trans h.key_eq, h'.hash_eq.trans h.hash_eq,
    h'.registration_eq.trans h.registration_eq, h'.expected_eq.trans h.expected_eq⟩

theorem sameRun_terminate (now : Time) (key hash : String) (terminal : TerminalRequest) (r : RunRow) :
    SameRun r (r.terminate now key hash terminal) := ⟨rfl, rfl, rfl, rfl, rfl⟩

theorem sameRun_refresh (now wall : Time) (allComplete : Bool) (r : RunRow) :
    SameRun r (r.refresh now wall allComplete) := ⟨rfl, rfl, rfl, rfl, rfl⟩

/-- The run table after a commit: as it was, with a new row, or with one run's row rewritten. -/
inductive RunsChange (P : Platform) (t : Txn) (db : Db) (runs : Table RunRow) : Prop
  | same (heq : runs = db.runs)
  | inserted (runID : String) (registration : Registration)
      (hop : t.op = .registerRun runID (registrationKey runID) registration)
      (hvalid : RegistrationAccepted runID (registrationKey runID) registration)
      (hins : db.runs.insert (newRun t.now runID (registrationKey runID) (P.registrationHash registration)
        registration) = some runs)
  | updated (runID : String) (f : RunRow → RunRow) (hkeys : Table.KeepsKeys f) (hsame : ∀ r, SameRun r (f r))
      (heq : runs = db.runs.update (fun r => decide (r.id = runID)) f hkeys)

theorem Commit.runsChange (h : Commit P t db a db') : RunsChange P t db db'.runs := by
  cases h with
  | registerNew runID registration _ hop hvalid hins =>
    exact .inserted runID registration hop hvalid (by rw [hins, enqueueRunShards_runs])
  | registerAgain => exact .same (enqueueRunShards_runs _ _ _)
  | terminate runID => exact .updated runID _ (keepsKeys_terminate _ _ _ _) (sameRun_terminate _ _ _ _) rfl
  | finalize call _ _ _ _ _ _ _ _ _ _ _ _ _ hrefresh =>
    obtain ⟨_, _, -, rfl⟩ := refreshAggregate_ok hrefresh
    exact .updated call.runID _ (keepsKeys_runRefresh _ _ _) (sameRun_refresh _ _ _) rfl
  | terminateAgain | reclaim | claim | renew | reserveNew | reserveAgain | finalizeAgain | permit => exact .same rfl

/-- A run that is there after a commit was there before, or was just registered. -/
theorem Commit.run_back (h : Commit P t db a db') {r' : RunRow} (hr' : r' ∈ db'.runs) :
    (∃ r ∈ db.runs, SameRun r r') ∨
    (∃ runID registration, t.op = .registerRun runID (registrationKey runID) registration ∧
      RegistrationAccepted runID (registrationKey runID) registration ∧
      r' = newRun t.now runID (registrationKey runID) (P.registrationHash registration) registration ∧
      ∀ r ∈ db.runs, r.id ≠ runID) := by
  cases h.runsChange with
  | same heq =>
    rw [heq] at hr'
    exact .inl ⟨r', hr', SameRun.refl r'⟩
  | inserted runID registration hop hvalid hins =>
    rcases (Table.mem_of_insert hins).mp hr' with hr | rfl
    · exact .inl ⟨r', hr, SameRun.refl r'⟩
    · exact .inr ⟨runID, registration, hop, hvalid, rfl, fun r hr heq =>
        Table.not_conflict_of_insert hins hr (Or.inl heq)⟩
  | updated _ _ _ hsame heq =>
    rw [heq, Table.mem_update] at hr'
    obtain ⟨r, hr, rfl⟩ := hr'
    refine .inl ⟨r, hr, ?_⟩
    split
    · exact hsame r
    · exact SameRun.refl r

/-- No run disappears. -/
theorem Commit.run_forth (h : Commit P t db a db') {r : RunRow} (hr : r ∈ db.runs) :
    ∃ r' ∈ db'.runs, SameRun r r' := by
  cases h.runsChange with
  | same heq => exact ⟨r, heq ▸ hr, SameRun.refl r⟩
  | inserted _ _ _ _ hins =>
    exact ⟨r, (Table.mem_of_insert hins).mpr (Or.inl hr), SameRun.refl r⟩
  | updated runID f hkeys hsame heq =>
    rw [heq]
    by_cases hid : r.id = runID
    · exact ⟨f r, Table.mem_update_of hkeys hr (by simp [hid]), hsame r⟩
    · exact ⟨r, Table.mem_update_of_not hkeys hr (by simp [hid]), SameRun.refl r⟩

/-! ## Receipts -/

variable {s s' : ReceiptRow}

/-- The columns of a receipt that no statement changes; a complete receipt stays complete. -/
structure SameReceipt (s s' : ReceiptRow) : Prop where
  runID_eq : s'.runID = s.runID
  index_eq : s'.shardIndex = s.shardIndex
  key_eq : s'.idempotencyKey = s.idempotencyKey
  hash_eq : s'.payloadHash = s.payloadHash
  objectKey_eq : s'.objectKey = s.objectKey
  summary_eq : s'.summary = s.summary
  complete : s.status = .complete → s'.status = .complete

theorem SameReceipt.refl (s : ReceiptRow) : SameReceipt s s := ⟨rfl, rfl, rfl, rfl, rfl, rfl, id⟩

theorem SameReceipt.trans {s'' : ReceiptRow} (h : SameReceipt s s') (h' : SameReceipt s' s'') :
    SameReceipt s s'' :=
  ⟨h'.runID_eq.trans h.runID_eq, h'.index_eq.trans h.index_eq, h'.key_eq.trans h.key_eq,
    h'.hash_eq.trans h.hash_eq, h'.objectKey_eq.trans h.objectKey_eq, h'.summary_eq.trans h.summary_eq,
    fun hc => h'.complete (h.complete hc)⟩

theorem sameReceipt_finish (s : ReceiptRow) : SameReceipt s s.finish := ⟨rfl, rfl, rfl, rfl, rfl, rfl, fun _ => rfl⟩

/-- The receipt table after a commit: as it was, with a new pending row, or with one shard's row completed. -/
inductive ReceiptsChange (P : Platform) (t : Txn) (db : Db) (a : Answer) (receipts : Table ReceiptRow) : Prop
  | same (heq : receipts = db.receipts)
  | inserted (call : UploadCall) (run : RunRow) (hop : t.op = .reserveShard call) (hvalid : call.validate P = .ok ())
      (hrun : db.run? call.runID = some run) (hindex : call.shardIndex.toNat < run.expectedShards)
      (hins : db.receipts.insert (newReceipt call.runID call.shardIndex.toNat call.idempotencyKey
        (call.payloadHash P) (call.objectKey P) call.document.summary) = some receipts)
  | finished (call : UploadCall) (pricing : Option RunPricing) (receipt : ReceiptRow)
      (hop : t.op = .finalizeShard call pricing) (hanswer : a = .finalized true)
      (hreceipt : db.receipt? call.runID call.shardIndex.toNat = some receipt) (hpending : receipt.status = .pending)
      (hhash : receipt.payloadHash = call.payloadHash P)
      (heq : receipts = db.receipts.update
        (fun r => decide (r.runID = call.runID ∧ r.shardIndex = call.shardIndex.toNat)) ReceiptRow.finish keepsKeys_finish)

theorem Commit.receiptsChange (h : Commit P t db a db') : ReceiptsChange P t db a db'.receipts := by
  cases h with
  | registerNew => exact .same (enqueueRunShards_receipts _ _ _)
  | registerAgain => exact .same (enqueueRunShards_receipts _ _ _)
  | reserveNew call run _ hop hvalid hrun hindex _ hins =>
    exact .inserted call run hop hvalid hrun hindex hins
  | finalize call pricing _ receipt _ _ hop _ _ _ hreceipt hhash hpending _ hrefresh =>
    obtain ⟨_, _, -, rfl⟩ := refreshAggregate_ok hrefresh
    exact .finished call pricing receipt hop rfl hreceipt hpending hhash rfl
  | terminate | terminateAgain | reclaim | claim | renew | reserveAgain | finalizeAgain | permit => exact .same rfl

/-- A receipt that is there after a commit was there before, or was just reserved and is pending. -/
theorem Commit.receipt_back (h : Commit P t db a db') (hs' : s' ∈ db'.receipts) :
    (∃ s ∈ db.receipts, SameReceipt s s') ∨
    (∃ call run, t.op = .reserveShard call ∧ call.validate P = .ok () ∧ db.run? call.runID = some run ∧
      call.shardIndex.toNat < run.expectedShards ∧
      s' = newReceipt call.runID call.shardIndex.toNat call.idempotencyKey (call.payloadHash P) (call.objectKey P)
        call.document.summary) := by
  cases h.receiptsChange with
  | same heq =>
    rw [heq] at hs'
    exact .inl ⟨s', hs', SameReceipt.refl s'⟩
  | inserted call run hop hvalid hrun hindex hins =>
    rcases (Table.mem_of_insert hins).mp hs' with hs | rfl
    · exact .inl ⟨s', hs, SameReceipt.refl s'⟩
    · exact .inr ⟨call, run, hop, hvalid, hrun, hindex, rfl⟩
  | finished _ _ _ _ _ _ _ _ heq =>
    rw [heq, Table.mem_update] at hs'
    obtain ⟨s, hs, rfl⟩ := hs'
    refine .inl ⟨s, hs, ?_⟩
    split
    · exact sameReceipt_finish s
    · exact SameReceipt.refl s

/-- No receipt disappears or changes its content. -/
theorem Commit.receipt_forth (h : Commit P t db a db') (hs : s ∈ db.receipts) :
    ∃ s' ∈ db'.receipts, SameReceipt s s' := by
  cases h.receiptsChange with
  | same heq => exact ⟨s, heq ▸ hs, SameReceipt.refl s⟩
  | inserted _ _ _ _ _ _ hins =>
    exact ⟨s, (Table.mem_of_insert hins).mpr (Or.inl hs), SameReceipt.refl s⟩
  | finished call _ _ _ _ _ _ _ heq =>
    rw [heq]
    by_cases hkey : s.runID = call.runID ∧ s.shardIndex = call.shardIndex.toNat
    · exact ⟨s.finish, Table.mem_update_of keepsKeys_finish hs (by simp [hkey]), sameReceipt_finish s⟩
    · exact ⟨s, Table.mem_update_of_not keepsKeys_finish hs (by simpa using hkey), SameReceipt.refl s⟩

/-- A receipt that was just completed belongs to the shard of the committed upload. -/
theorem Commit.receipt_finished (h : Commit P t db a db') (hs : s ∈ db.receipts)
    (hs' : s' ∈ db'.receipts) (hsame : SameReceipt s s') (hpending : s.status = .pending)
    (hcomplete : s'.status = .complete) :
    a = .finalized true ∧ ∃ call pricing, t.op = .finalizeShard call pricing ∧ s.runID = call.runID ∧
      s.shardIndex = call.shardIndex.toNat ∧ s.payloadHash = call.payloadHash P := by
  -- a row that kept its key and did not change is the same row, still pending
  have hsame_row : s ∈ db'.receipts → False := by
    intro hmem
    have heq := db'.receipts.eq_of_conflict hmem hs' (Or.inl ⟨hsame.runID_eq.symm, hsame.index_eq.symm⟩)
    rw [heq, hcomplete] at hpending
    exact ReceiptStatus.noConfusion hpending
  cases h.receiptsChange with
  | same heq => exact absurd (heq ▸ hs) hsame_row
  | inserted _ _ _ _ _ _ hins =>
    exact absurd ((Table.mem_of_insert hins).mpr (Or.inl hs)) hsame_row
  | finished call pricing receipt hop hanswer hreceipt _ hhash heq =>
    by_cases hkey : s.runID = call.runID ∧ s.shardIndex = call.shardIndex.toNat
    · have hreceipt' := Db.receipt?_eq_some.mp hreceipt
      have hsr : s = receipt := db.receipts.eq_of_conflict hs hreceipt'.1
        (Or.inl ⟨hkey.1.trans hreceipt'.2.1.symm, hkey.2.trans hreceipt'.2.2.symm⟩)
      exact ⟨hanswer, call, pricing, hop, hkey.1, hkey.2, hsr ▸ hhash⟩
    · refine absurd ?_ hsame_row
      rw [heq]
      exact Table.mem_update_of_not keepsKeys_finish hs (by simpa using hkey)

/-! ## Case rows -/

/-- Case rows come from finalized uploads. -/
theorem Commit.case_back (h : Commit P t db a db') {c : CaseRow} (hc : c ∈ db'.cases) :
    c ∈ db.cases ∨ ∃ call pricing item, t.op = .finalizeShard call pricing ∧ call.validate P = .ok () ∧
      item ∈ call.document.cases ∧ RowOf call.runID item c ∧ c.shardIndex = call.shardIndex.toNat ∧
      ∃ s ∈ db'.receipts, s.runID = call.runID ∧ s.shardIndex = call.shardIndex.toNat ∧ s.status = .complete := by
  cases h with
  | registerNew | registerAgain =>
    rw [enqueueRunShards_cases] at hc
    exact .inl hc
  | finalize call pricing _ receipt _ _ hop hvalid _ _ hreceipt _ _ hstored hrefresh =>
    obtain ⟨_, _, -, rfl⟩ := refreshAggregate_ok hrefresh
    rcases (insertCases_ok hstored).2.1 c hc with hold | ⟨item, hitem, hof, hindex⟩
    · exact .inl hold
    · obtain ⟨hmem, hrunID, hidx⟩ := Db.receipt?_eq_some.mp hreceipt
      exact .inr ⟨call, pricing, item, hop, hvalid, hitem, hof, hindex, receipt.finish,
        Table.mem_update_of keepsKeys_finish hmem (by simp [hrunID, hidx]), hrunID, hidx, rfl⟩
  | terminate | terminateAgain | reclaim | claim | renew | reserveNew | reserveAgain | finalizeAgain | permit =>
    exact .inl hc

/-- No case row disappears or changes. -/
theorem Commit.case_forth (h : Commit P t db a db') {c : CaseRow} (hc : c ∈ db.cases) : c ∈ db'.cases := by
  cases h with
  | registerNew | registerAgain =>
    rw [enqueueRunShards_cases]
    exact hc
  | finalize _ _ _ _ _ _ _ _ _ _ _ _ _ hstored hrefresh =>
    obtain ⟨_, _, -, rfl⟩ := refreshAggregate_ok hrefresh
    exact (insertCases_ok hstored).1 c hc
  | terminate | terminateAgain | reclaim | claim | renew | reserveNew | reserveAgain | finalizeAgain | permit =>
    exact hc

end AgentStorm.Results
