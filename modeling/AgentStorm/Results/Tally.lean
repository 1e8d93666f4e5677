import AgentStorm.Results.Frozen

/-!
# `Results.Tally` — receipts and case rows count the same cases

Completeness is tracked per shard, by receipts; cases are recognised one by one, by key and content.
The two agree as long as no upload brings a case that the run has already stored: such a case, if it is
equal to the stored one, is passed over. `TallyChange` says what a transaction does to the complete
receipts, the case rows and the summary of a run; `Ledger` holds in every history, `Counted` as long as
all cases are new.
-/

namespace AgentStorm.Results

open Checks Machine Machine.Transactional Relational

variable {P : Platform} {policy : LimitPolicy} {t : Txn} {db db' : Db} {a : Answer} {runID : String}

/-! ## The insert loop -/

variable {stored : Table CaseRow}

variable {shardIndex : Nat}

theorem count_insertCases_le {pricing : Option RunPricing} {items : List CaseResult}
    {cases : Table CaseRow} (h : insertCases P runID shardIndex pricing items cases = .ok stored) :
    (stored.count fun r => decide (r.runID = runID)) ≤ (cases.count fun r => decide (r.runID = runID)) + items.length := by
  induction items generalizing cases with
  | nil =>
    cases h
    exact Nat.le_refl _
  | cons item items ih =>
    obtain ⟨_, hmid, hrest⟩ := bind_ok_iff.mp h
    have hle := ih hrest
    rw [List.length_cons]
    rcases insertCase_ok hmid with ⟨_, -, hins⟩ | ⟨rfl, -⟩
    · rw [Table.count_of_insert hins] at hle
      split at hle <;> omega
    · omega

/-- If the loop added a row for every case, no case was stored before. -/
theorem unstored_of_count {pricing : Option RunPricing} {items : List CaseResult} {cases : Table CaseRow}
    (h : insertCases P runID shardIndex pricing items cases = .ok stored)
    (hcount : (cases.count fun r => decide (r.runID = runID)) + items.length ≤
      stored.count fun r => decide (r.runID = runID)) :
    ∀ item ∈ items, Unstored runID cases item := by
  induction items generalizing cases with
  | nil => exact fun _ hitem => absurd hitem List.not_mem_nil
  | cons item items ih =>
    obtain ⟨mid, hmid, hrest⟩ := bind_ok_iff.mp h
    have hle := count_insertCases_le hrest
    rw [List.length_cons] at hcount
    rcases insertCase_ok hmid with ⟨_, hstored, hins⟩ | ⟨rfl, -⟩
    · obtain ⟨hof, -⟩ := hstored.rowOf
      have hmidcount : (mid.count fun r => decide (r.runID = runID)) =
          (cases.count fun r => decide (r.runID = runID)) + 1 := by
        rw [Table.count_of_insert hins, if_pos (decide_eq_true hof.runID_eq)]
      intro other hother
      rcases List.mem_cons.mp hother with rfl | hother
      · intro old hold hsame
        refine Table.not_conflict_of_insert hins hold (Or.inl ?_)
        exact ⟨hsame.1.trans hof.runID_eq.symm, hsame.2.1.trans hof.caseID_eq.symm,
          hsame.2.2.trans hof.iteration_eq.symm⟩
      · intro old hold
        exact ih hrest (by omega) other hother old ((Table.mem_of_insert hins).mpr (Or.inl hold))
    · omega

/-- New cases, each once, are all inserted, in order. -/
theorem rows_of_insertCases {pricing : Option RunPricing} {items : List CaseResult}
    {cases : Table CaseRow} (h : insertCases P runID shardIndex pricing items cases = .ok stored)
    (hnodup : (items.map fun item => (item.caseID, item.iteration)).Nodup)
    (hnew : ∀ item ∈ items, Unstored runID cases item) :
    ∃ rows, List.Forall₂ (StoredUnder P pricing runID shardIndex) items rows ∧ (∀ row ∈ rows, row.runID = runID) ∧
      stored.rows = cases.rows ++ rows := by
  induction items generalizing cases with
  | nil =>
    cases h
    exact ⟨[], List.Forall₂.nil, fun _ hrow => absurd hrow List.not_mem_nil, (List.append_nil _).symm⟩
  | cons item items ih =>
    obtain ⟨mid, hmid, hrest⟩ := bind_ok_iff.mp h
    rw [List.map_cons, List.nodup_cons] at hnodup
    rcases insertCase_under hmid with ⟨row, hstored, hins⟩ | ⟨-, row, hrow, hof⟩
    · obtain ⟨hof, -⟩ := hstored.storedAs.rowOf
      have hmidnew : ∀ other ∈ items, Unstored runID mid other := by
        intro other hother old hold hsame
        rcases (Table.mem_of_insert hins).mp hold with hold | rfl
        · exact hnew other (List.mem_cons_of_mem _ hother) old hold hsame
        · refine hnodup.1 (List.mem_map.mpr ⟨other, hother, ?_⟩)
          rw [← hsame.2.1, ← hsame.2.2, hof.caseID_eq, hof.iteration_eq]
      obtain ⟨rows, hrows, hown, heq⟩ := ih hrest hnodup.2 hmidnew
      refine ⟨row :: rows, List.Forall₂.cons hstored hrows, List.forall_mem_cons.mpr ⟨hof.runID_eq, hown⟩, ?_⟩
      rw [heq, Table.rows_of_insert hins, List.append_assoc, List.singleton_append]
    · exact absurd ⟨hof.runID_eq, hof.caseID_eq, hof.iteration_eq⟩ (hnew item List.mem_cons_self row hrow)

/-! ## One transaction -/

def completeReceipts (db : Db) (runID : String) : List ReceiptRow :=
  db.receipts.select fun s => decide (s.runID = runID) && decide (s.status = .complete)

/-- The upload of the run that a transaction completes, if it does. -/
def finalizedUpload? (P : Platform) (policy : LimitPolicy) (runID : String) (db : Db) (t : Txn) : Option UploadCall :=
  match t.op, (machine P policy).answer db t with
  | .finalizeShard call _, .ok (.finalized true) => if call.runID = runID then some call else none
  | _, _ => none

/-- What a transaction does to the part of a run that is counted. -/
inductive TallyChange (P : Platform) (runID : String) (db : Db) : Option UploadCall → Db → Prop
  | same (db' : Db) (hreceipts : completeReceipts db' runID = completeReceipts db runID)
      (hcases : caseRowsOf db' runID = caseRowsOf db runID) (hsummary : db'.summary? runID = db.summary? runID) :
      TallyChange P runID db none db'
  | finalized (call : UploadCall) (pricing : Option RunPricing) (receipt : ReceiptRow) (passed : Bool) (db' : Db)
      (hvalid : call.validate P = .ok ()) (hrun : call.runID = runID) (hreceipt : receipt ∈ db.receipts)
      (hindex : receipt.shardIndex = call.shardIndex.toNat) (hhash : receipt.payloadHash = call.payloadHash P)
      (hstored : insertCases P runID call.shardIndex.toNat pricing call.document.cases db.cases = .ok db'.cases)
      (hreceipts : (completeReceipts db' runID).Perm (receipt.finish :: completeReceipts db runID))
      (hsummary : db'.summary? runID =
        some ⟨runID, { aggregateRows (caseRowsOf db' runID) with thresholdsPassed := passed }⟩) :
      TallyChange P runID db (some call) db'

theorem completeReceipts_eq_view (db : Db) (runID : String) :
    completeReceipts db runID = (db.view runID).receipts.filter fun s => decide (s.status = .complete) :=
  Table.select_and _ _ _

/-- A commit with another answer, or for another run, changes nothing that is counted. -/
theorem Commit.tally_same (h : Commit P t db a db')
    (hother : a = .finalized true → ∀ call pricing, t.op = .finalizeShard call pricing → call.runID ≠ runID) :
    TallyChange P runID db none db' := by
  cases h with
  | registerNew | registerAgain =>
    refine .same _ ?_ ?_ ?_
    · simp [completeReceipts, enqueueRunShards_receipts]
    · simp [caseRowsOf, enqueueRunShards_cases]
    · simp [Db.summary?, enqueueRunShards_summaries]
  | reserveNew _ _ _ _ _ _ _ _ hins =>
    refine .same _ (Table.select_of_insert hins ?_) rfl rfl
    rw [Bool.and_eq_false_iff]
    exact .inr rfl
  | finalize call pricing _ _ _ _ hop _ _ _ _ _ _ hstored hrefresh =>
    have hview := view_finalize (hother rfl call pricing hop) hstored hrefresh
    refine .same _ ?_ (congrArg RunView.cases hview) ?_
    · rw [completeReceipts_eq_view, completeReceipts_eq_view, hview]
    · rw [Db.summary?_eq_view, Db.summary?_eq_view, hview]
  | terminate | terminateAgain | reclaim | claim | renew | reserveAgain | finalizeAgain | permit => exact .same _ rfl rfl rfl

/-- A commit that finalizes an upload of the run. -/
theorem Commit.tally_finalized (h : Commit P t db (.finalized true) db') {call : UploadCall} {pricing : Option RunPricing}
    (hop : t.op = .finalizeShard call pricing) : TallyChange P call.runID db (some call) db' := by
  cases h with
  | finalize _ _ _ receipt _ _ hop' hvalid _ _ hreceipt hhash hpending hstored hrefresh =>
    obtain ⟨rfl, rfl⟩ := Op.finalizeShard.inj (hop.symm.trans hop')
    obtain ⟨hmem, hid, hindex⟩ := Db.receipt?_eq_some.mp hreceipt
    obtain ⟨hreceipts, hcases, -⟩ := refreshAggregate_frame hrefresh
    obtain ⟨passed, hsummary⟩ := refreshAggregate_summary hrefresh
    refine .finalized call pricing receipt passed db' hvalid rfl hmem hindex hhash (hcases ▸ hstored) ?_ ?_
    · rw [completeReceipts, hreceipts]
      refine Table.select_update_perm keepsKeys_finish hmem ?_ ?_ ?_
      · intro s hs
        rw [decide_eq_true_eq]
        constructor
        · intro hkey
          exact Table.eq_of_conflict _ hs hmem (Or.inl ⟨hkey.1.trans hid.symm, hkey.2.trans hindex.symm⟩)
        · rintro rfl
          exact ⟨hid, hindex⟩
      · rw [hpending]
        exact Bool.and_false _
      · simp [ReceiptRow.finish, hid]
    · rw [hsummary, caseRowsOf, caseRowsOf, hcases]
  | permit _ _ _ hanswer => cases hanswer

theorem tallyChange_of_step (P : Platform) (policy : LimitPolicy) (runID : String) (db : Db) (t : Txn) :
    TallyChange P runID db (finalizedUpload? P policy runID db t) ((machine P policy).step db t) := by
  cases hexec : (machine P policy).exec t db with
  | error =>
    rw [step_error hexec, finalizedUpload?, answer_error hexec]
    split <;> first | exact .same _ rfl rfl rfl | contradiction
  | ok r =>
    obtain ⟨a, _⟩ := r
    have hcommit := commit_of_exec hexec
    rw [step_ok hexec, finalizedUpload?, answer_ok hexec]
    split
    · rename_i call pricing hop hanswer
      cases hanswer
      -- a shard of another run leaves the tally of this one alone
      by_cases hrun : call.runID = runID
      · rw [if_pos hrun]
        exact hrun ▸ hcommit.tally_finalized hop
      · rw [if_neg hrun]
        refine hcommit.tally_same fun _ call' pricing' hop' => ?_
        obtain ⟨rfl, -⟩ := Op.finalizeShard.inj (hop.symm.trans hop')
        exact hrun
    · rename_i hnot
      refine hcommit.tally_same fun hanswer call pricing hop => ?_
      exact (hnot call pricing hop (by rw [hanswer])).elim

/-! ## Every history -/

variable {es : List Txn}

/-- The uploads of the run that were finalized, oldest first. -/
def finalizedUploads (P : Platform) (policy : LimitPolicy) (runID : String) (es : List Txn) : List UploadCall :=
  (machine P policy).trace (finalizedUpload? P policy runID) Db.empty es

/-- The upload that an operation is part of. -/
def Op.call? : Op → Option UploadCall
  | .reserveShard call => some call
  | .finalizeShard call _ => some call
  | _ => none

def uploadCalls (es : List Txn) : List UploadCall := es.filterMap fun t => t.op.call?

/-- No two documents of the uploads share a digest. -/
def DistinctDocuments (P : Platform) (calls : List UploadCall) : Prop :=
  ∀ c ∈ calls, ∀ c' ∈ calls, c.payloadHash P = c'.payloadHash P → c.document = c'.document

theorem call?_of_finalizedUpload? {call : UploadCall} (h : finalizedUpload? P policy runID db t = some call) :
    t.op.call? = some call := by
  unfold finalizedUpload? at h
  split at h
  · rename_i call' pricing hop _
    split at h
    · rw [hop, ← Option.some.inj h]
      rfl
    · cases h
  · cases h

theorem uploadCalls_concat (es : List Txn) (t : Txn) : uploadCalls (es ++ [t]) = uploadCalls es ++ t.op.call?.toList := by
  simp [uploadCalls, List.filterMap_cons]
  cases t.op.call? <;> rfl

theorem mem_uploadCalls_of_past {past : List Txn} (hpast : past <+: es) {c : UploadCall}
    (hc : c ∈ uploadCalls past) : c ∈ uploadCalls es := by
  obtain ⟨_, rfl⟩ := hpast
  rw [uploadCalls, List.filterMap_append]
  exact List.mem_append_left _ hc

theorem DistinctDocuments.of_prefix {past : List Txn} (h : DistinctDocuments P (uploadCalls es))
    (hpast : past <+: es) : DistinctDocuments P (uploadCalls past) :=
  fun c hc c' hc' => h c (mem_uploadCalls_of_past hpast hc) c' (mem_uploadCalls_of_past hpast hc')

/-- The bookkeeping of a run, whatever its uploads bring. -/
structure Ledger (P : Platform) (calls uploads : List UploadCall) (db : Db) (runID : String) : Prop where
  /-- Every receipt was reserved by an upload of the history. -/
  reserved : ∀ s ∈ db.receipts, ∃ c ∈ calls, c.payloadHash P = s.payloadHash ∧ c.document.summary = s.summary
  uploaded : ∀ c ∈ uploads, c ∈ calls ∧ c.validate P = .ok () ∧ c.runID = runID
  /-- The complete receipts are those of the finalized uploads. -/
  receipts : ((completeReceipts db runID).map fun s => (s.shardIndex, s.payloadHash)).Perm
    (uploads.map fun c => (c.shardIndex.toNat, c.payloadHash P))
  /-- Every stored case is in one of them. -/
  cases : ∀ row ∈ caseRowsOf db runID, ∃ c ∈ uploads, ∃ item ∈ c.document.cases, RowOf runID item row
  /-- The summary is computed from the stored rows. -/
  summary : (uploads = [] ∧ db.summary? runID = none ∧ caseRowsOf db runID = []) ∨
    ∃ passed, db.summary? runID =
      some ⟨runID, { aggregateRows (caseRowsOf db runID) with thresholdsPassed := passed }⟩

theorem Ledger.reserved_step {uploads : List UploadCall} (h : Ledger P (uploadCalls es) uploads db runID) :
    ∀ s ∈ ((machine P policy).step db t).receipts, ∃ c ∈ uploadCalls (es ++ [t]),
      c.payloadHash P = s.payloadHash ∧ c.document.summary = s.summary := by
  intro s' hs'
  rw [uploadCalls_concat]
  rcases step_cases (M := machine P policy) db t with heq | ⟨a, _, hexec, heq⟩
  · rw [heq] at hs'
    obtain ⟨c, hc, hsame⟩ := h.reserved s' hs'
    exact ⟨c, List.mem_append_left _ hc, hsame⟩
  · rw [heq] at hs'
    rcases (commit_of_exec hexec).receipt_back hs' with ⟨s, hs, hsame⟩ | ⟨call, _, hop, -, -, -, rfl⟩
    · obtain ⟨c, hc, hhash, hsummary⟩ := h.reserved s hs
      exact ⟨c, List.mem_append_left _ hc, hhash.trans hsame.hash_eq.symm, hsummary.trans hsame.summary_eq.symm⟩
    · refine ⟨call, List.mem_append_right _ ?_, rfl, rfl⟩
      rw [hop]
      exact List.mem_singleton_self call

theorem Ledger.step {uploads : List UploadCall} (h : Ledger P (uploadCalls es) uploads db runID) :
    Ledger P (uploadCalls (es ++ [t])) (uploads ++ (finalizedUpload? P policy runID db t).toList)
      ((machine P policy).step db t) runID := by
  have hreserved := @Ledger.reserved_step P policy t db runID es uploads h
  have hcalls : ∀ c ∈ uploadCalls es, c ∈ uploadCalls (es ++ [t]) :=
    fun c hc => mem_uploadCalls_of_past (List.prefix_append es [t]) hc
  have hcall : ∀ call, finalizedUpload? P policy runID db t = some call → call ∈ uploadCalls (es ++ [t]) := by
    intro call hfinal
    rw [uploadCalls_concat, call?_of_finalizedUpload? hfinal]
    exact List.mem_append_right _ (List.mem_singleton_self call)
  generalize hstep : (machine P policy).step db t = db' at hreserved ⊢
  have hchange := tallyChange_of_step P policy runID db t
  rw [hstep] at hchange
  generalize finalizedUpload? P policy runID db t = final at hcall hchange ⊢
  have huploaded : ∀ c ∈ uploads, c ∈ uploadCalls (es ++ [t]) ∧ c.validate P = .ok () ∧ c.runID = runID :=
    fun c hc => ⟨hcalls c (h.uploaded c hc).1, (h.uploaded c hc).2⟩
  cases hchange with
  | same _ hreceipts hcases hsummary =>
    rw [Option.toList_none, List.append_nil]
    refine ⟨hreserved, huploaded, ?_, ?_, ?_⟩
    · rw [hreceipts]
      exact h.receipts
    · rw [hcases]
      exact h.cases
    · rw [hcases, hsummary]
      exact h.summary
  | finalized call _ receipt passed _ hvalid hrun _ hindex hhash hstored hreceipts hsummary =>
    refine ⟨hreserved, ?_, ?_, ?_, Or.inr ⟨passed, hsummary⟩⟩
    · intro c hc
      rcases List.mem_append.mp hc with hc | hc
      · exact huploaded c hc
      · obtain rfl := List.mem_singleton.mp hc
        exact ⟨hcall c rfl, hvalid, hrun⟩
    · refine (hreceipts.map _).trans ?_
      rw [List.map_cons, List.map_append, Option.toList_some, List.map_singleton]
      refine (List.Perm.cons _ h.receipts).trans ?_
      show ((receipt.shardIndex, receipt.payloadHash) :: _).Perm _
      rw [hindex, hhash]
      exact (List.perm_append_singleton _ _).symm
    · -- a row is from before, or it is one of this document's cases
      intro row hrow
      obtain ⟨hmem, hown⟩ := Table.mem_select.mp hrow
      rcases (insertCases_ok hstored).2.1 row hmem with hold | ⟨item, hitem, hof, -⟩
      · obtain ⟨c, hc, hitem⟩ := h.cases row (Table.mem_select.mpr ⟨hold, hown⟩)
        exact ⟨c, List.mem_append_left _ hc, hitem⟩
      · exact ⟨call, List.mem_append_right _ (List.mem_singleton_self call), item, hitem, hof⟩

theorem ledger_run (P : Platform) (policy : LimitPolicy) (runID : String) (es : List Txn) :
    Ledger P (uploadCalls es) (finalizedUploads P policy runID es) ((machine P policy).run Db.empty es) runID := by
  refine run_induction (fun _ => True)
    (fun es db => Ledger P (uploadCalls es) (finalizedUploads P policy runID es) db runID) (fun _ _ _ => trivial) ?_ ?_ es
    trivial
  · exact ⟨fun _ hs => absurd hs Table.not_mem_empty, fun _ hc => absurd hc List.not_mem_nil, List.Perm.nil,
      fun _ hrow => absurd hrow List.not_mem_nil, Or.inl ⟨rfl, rfl, rfl⟩⟩
  · intro es t _ ih
    rw [finalizedUploads, trace_concat]
    exact ih.step

/-- The summary that was uploaded under a digest. -/
def summaryUnder (P : Platform) (calls : List UploadCall) (hash : String) : Option ShardSummary :=
  (calls.find? fun c => decide (c.payloadHash P = hash)).map fun c => c.document.summary

theorem DistinctDocuments.summaryUnder {calls : List UploadCall} (h : DistinctDocuments P calls) {c : UploadCall}
    (hc : c ∈ calls) : summaryUnder P calls (c.payloadHash P) = some c.document.summary := by
  unfold Results.summaryUnder
  cases hfind : calls.find? fun c' => decide (c'.payloadHash P = c.payloadHash P) with
  | none => exact absurd (List.find?_eq_none.mp hfind c hc) (by simp)
  | some c' =>
    have hhash := List.find?_some hfind
    rw [Option.map_some, h c' (List.mem_of_find?_eq_some hfind) c hc (of_decide_eq_true hhash)]

/-- Without collisions, a receipt was reserved with the summary of the upload that completed it. -/
theorem Ledger.receipts_summaries {calls uploads : List UploadCall} (h : Ledger P calls uploads db runID)
    (hdocs : DistinctDocuments P calls) :
    ((completeReceipts db runID).map fun s => (s.shardIndex, s.payloadHash, some s.summary)).Perm
      (uploads.map fun c => (c.shardIndex.toNat, c.payloadHash P, some c.document.summary)) := by
  have hperm := h.receipts.map fun key => (key.1, key.2, summaryUnder P calls key.2)
  rw [List.map_map, List.map_map] at hperm
  have hleft : ((completeReceipts db runID).map fun s => (s.shardIndex, s.payloadHash, some s.summary)) =
      (completeReceipts db runID).map fun s => (s.shardIndex, s.payloadHash, summaryUnder P calls s.payloadHash) := by
    refine List.map_congr_left fun s hs => ?_
    obtain ⟨c, hc, hhash, hsummary⟩ := h.reserved s (Table.mem_select.mp hs).1
    rw [← hhash, hdocs.summaryUnder hc, hsummary]
  have hright : (uploads.map fun c => (c.shardIndex.toNat, c.payloadHash P, some c.document.summary)) =
      uploads.map fun c => (c.shardIndex.toNat, c.payloadHash P, summaryUnder P calls (c.payloadHash P)) := by
    refine List.map_congr_left fun c hc => ?_
    rw [hdocs.summaryUnder (h.uploaded c hc).1]
  rw [hleft, hright]
  exact hperm

theorem nodup_completeReceipts (db : Db) (runID : String) :
    ((completeReceipts db runID).map fun s => s.shardIndex).Nodup := by
  refine Table.nodup_map_select fun s _ s' _ hs hs' heq => Or.inl ⟨?_, heq⟩
  rw [Bool.and_eq_true, decide_eq_true_eq] at hs hs'
  exact hs.1.trans hs'.1.symm

/-- The shards of the finalized uploads, which are those of the complete receipts. -/
theorem Ledger.perm_shards {calls uploads : List UploadCall} (h : Ledger P calls uploads db runID) :
    ((completeReceipts db runID).map fun s => s.shardIndex).Perm (uploads.map fun c => c.shardIndex.toNat) := by
  have hperm := h.receipts.map fun key => key.1
  rw [List.map_map, List.map_map] at hperm
  exact hperm

/-- A shard is finalized once. -/
theorem Ledger.nodup_shards {calls uploads : List UploadCall} (h : Ledger P calls uploads db runID) :
    (uploads.map fun c => c.shardIndex.toNat).Nodup :=
  h.perm_shards.nodup_iff.mp (nodup_completeReceipts db runID)

/-! ## The verdict -/

/-- Every stored summary has the verdict on the stored rows of its run, under the thresholds of its registration. -/
def Judged (db : Db) : Prop :=
  ∀ runID stored, db.summary? runID = some stored → ∃ run ∈ db.runs, run.id = runID ∧
    stored.aggregate.thresholdsPassed = thresholdsPassed (aggregateRows (caseRowsOf db runID)) run.registration.evaluation

theorem Commit.judged (h : Commit P t db a db') (hjudged : Judged db) : Judged db' := by
  intro runID stored hstored
  by_cases hfinal : ∃ call pricing, a = .finalized true ∧ t.op = .finalizeShard call pricing ∧ call.runID = runID
  · obtain ⟨call, pricing, rfl, hop, rfl⟩ := hfinal
    have hforth := fun {r} (hr : r ∈ db.runs) => h.run_forth hr
    cases h with
    | finalize _ _ run _ cases _ hop' _ _ _ _ _ _ _ hrefresh =>
      obtain ⟨rfl, rfl⟩ := Op.finalizeShard.inj (hop.symm.trans hop')
      obtain ⟨_, hjudge, hsummary⟩ := refreshAggregate_verdict hrefresh
      obtain ⟨hmem, hid⟩ := Db.run?_eq_some.mp hjudge
      obtain ⟨r', hr', hsame⟩ := hforth hmem
      cases hstored.symm.trans hsummary
      have hrows : caseRowsOf db' call.runID =
          caseRowsOf (completeShard call.runID call.shardIndex.toNat run.registration.queued cases db) call.runID := by
        rw [caseRowsOf, (refreshAggregate_frame hrefresh).2.1]
        rfl
      refine ⟨r', hr', hsame.id_eq.trans hid, ?_⟩
      rw [hsame.registration_eq, hrows]
    | permit _ _ _ hanswer => cases hanswer
  · have hsame : TallyChange P runID db none db' :=
      h.tally_same fun ha call pricing hop hrun => hfinal ⟨call, pricing, ha, hop, hrun⟩
    generalize hnone : (none : Option UploadCall) = final at hsame
    cases hsame with
    | same _ hreceipts hcases hsummary =>
      rw [hsummary] at hstored
      obtain ⟨_, hrun, hid, hpassed⟩ := hjudged runID stored hstored
      obtain ⟨r', hr', hsame⟩ := h.run_forth hrun
      exact ⟨r', hr', hsame.id_eq.trans hid, by rw [hpassed, hcases, hsame.registration_eq]⟩
    | finalized => cases hnone

theorem judged_run (P : Platform) (policy : LimitPolicy) (es : List Txn) :
    Judged ((machine P policy).run Db.empty es) := by
  refine run_invariant (fun _ => True) Judged ?_ ?_ es fun _ _ => trivial
  · intro db t _ hjudged
    exact step_of_commit (Q := Judged) hjudged fun hcommit => hcommit.judged hjudged
  · intro runID stored hstored
    cases hstored

/-! ## Uploads of new cases -/

/-- The cases of an upload, each under the index of its shard. -/
def UploadCall.items (c : UploadCall) : List (Nat × CaseResult) :=
  c.document.cases.map fun item => (c.shardIndex.toNat, item)

/-- `Total` of the run's summary, 0 while there is none. -/
def storedTotal (db : Db) (runID : String) : Int := ((db.summary? runID).map fun s => s.aggregate.total).getD 0

/-- Receipts and case rows of a run count the same cases. -/
structure Counted (P : Platform) (uploads : List UploadCall) (db : Db) (runID : String) : Prop where
  /-- The complete receipts are those of the finalized uploads. -/
  receipts : ((completeReceipts db runID).map fun s => (s.shardIndex, s.payloadHash, some s.summary)).Perm
    (uploads.map fun c => (c.shardIndex.toNat, c.payloadHash P, some c.document.summary))
  /-- The case rows are the cases of these uploads, each under the shard of its upload. -/
  rows : List.Forall₂ (fun u row => StoredAs P runID u.1 u.2 row) (uploads.flatMap UploadCall.items) (caseRowsOf db runID)
  /-- No case is in two uploads, or twice in one. -/
  disjoint : ((uploads.flatMap UploadCall.items).map fun u => (u.2.caseID, u.2.iteration)).Nodup
  total : storedTotal db runID = ((completeReceipts db runID).map fun s => s.summary.total).sum

theorem Ledger.storedTotal_eq {calls uploads : List UploadCall} (h : Ledger P calls uploads db runID) :
    storedTotal db runID = (caseRowsOf db runID).length := by
  unfold storedTotal
  rcases h.summary with ⟨-, hnone, hrows⟩ | ⟨_, hsome⟩
  · rw [hnone, hrows]
    rfl
  · rw [hsome]
    simp [aggregateRows, countRows]

/-- The receipts promise as many cases as the uploads hold. -/
theorem Ledger.sum_totals {calls uploads : List UploadCall} (h : Ledger P calls uploads db runID)
    (hdocs : DistinctDocuments P calls) :
    ((completeReceipts db runID).map fun s => s.summary.total).sum = (uploads.flatMap UploadCall.items).length := by
  have hperm := ((h.receipts_summaries hdocs).map fun key => (key.2.2.map (·.total)).getD 0).sum_eq
  rw [List.map_map, List.map_map] at hperm
  refine hperm.trans ?_
  have huploaded := h.uploaded
  clear h hperm
  induction uploads with
  | nil => rfl
  | cons c uploads ih =>
    have hc := (call_document (huploaded c List.mem_cons_self).2.1).total_eq
    have hrest := ih fun c' hc' => huploaded c' (List.mem_cons_of_mem _ hc')
    rw [List.map_cons, List.sum_cons, hrest, List.flatMap_cons, List.length_append, Nat.cast_add, UploadCall.items,
      List.length_map, ← hc]
    rfl

theorem map_eq_of_forall₂ {α β γ : Type} {R : α → β → Prop} {as : List α} {bs : List β} (h : List.Forall₂ R as bs)
    {f : α → γ} {g : β → γ} (hfg : ∀ a b, R a b → g b = f a) : bs.map g = as.map f := by
  induction h with
  | nil => rfl
  | cons hab _ ih => rw [List.map_cons, List.map_cons, hfg _ _ hab, ih]

theorem nodup_caseRowsOf (db : Db) (runID : String) :
    ((caseRowsOf db runID).map fun row => (row.caseID, row.iteration)).Nodup := by
  rw [List.Nodup, List.pairwise_map]
  have hmem := List.Pairwise.and_mem.mp (db.cases.unique.filter fun r => decide (r.runID = runID))
  refine hmem.imp ?_
  rintro row row' ⟨hrow, hrow', hclash⟩ heq
  obtain ⟨hcase, hiteration⟩ := Prod.mk.inj heq
  have hrun := of_decide_eq_true (List.mem_filter.mp hrow).2
  have hrun' := of_decide_eq_true (List.mem_filter.mp hrow').2
  exact hclash (Or.inl ⟨hrun.trans hrun'.symm, hcase, hiteration⟩)

theorem Ledger.counted {calls uploads : List UploadCall} (h : Ledger P calls uploads db runID)
    (hdocs : DistinctDocuments P calls) (hrows : List.Forall₂ (fun u row => StoredAs P runID u.1 u.2 row) (uploads.flatMap UploadCall.items)
      (caseRowsOf db runID)) : Counted P uploads db runID := by
  refine ⟨h.receipts_summaries hdocs, hrows, ?_, ?_⟩
  · have hsame : ((uploads.flatMap UploadCall.items).map fun u => (u.2.caseID, u.2.iteration)) =
        (caseRowsOf db runID).map fun row => (row.caseID, row.iteration) := by
      refine (map_eq_of_forall₂ hrows fun u row hstored => ?_).symm
      obtain ⟨hof, -⟩ := hstored.rowOf
      rw [hof.caseID_eq, hof.iteration_eq]
    rw [hsame]
    exact nodup_caseRowsOf db runID
  · rw [h.storedTotal_eq, h.sum_totals hdocs, hrows.length_eq]

/-- The transaction finalizes no upload of the run that brings a stored case. -/
def BringsNew (P : Platform) (policy : LimitPolicy) (runID : String) (db : Db) (t : Txn) : Prop :=
  ∀ call, finalizedUpload? P policy runID db t = some call → ∀ item ∈ call.document.cases, Unstored runID db.cases item

instance (P : Platform) (policy : LimitPolicy) (runID : String) (db : Db) (t : Txn) :
    Decidable (BringsNew P policy runID db t) :=
  inferInstanceAs (Decidable (∀ call ∈ finalizedUpload? P policy runID db t, ∀ item ∈ call.document.cases,
    ∀ row ∈ db.cases.rows, ¬ (_ ∧ _ ∧ _)))

/-- No transaction of the history does. -/
def StepsBringNew (P : Platform) (policy : LimitPolicy) (runID : String) (es : List Txn) : Prop :=
  ∀ past t, past ++ [t] <+: es → BringsNew P policy runID ((machine P policy).run Db.empty past) t

theorem stepsBringNew_of_get
    (h : ∀ n : Fin es.length, BringsNew P policy runID ((machine P policy).run Db.empty (es.take n)) (es.get n)) :
    StepsBringNew P policy runID es := by
  rintro past t ⟨rest, rfl⟩
  have hlt : past.length < (past ++ [t] ++ rest).length := by simp
  have hstep := h ⟨past.length, hlt⟩
  simpa using hstep

theorem rows_step {uploads : List UploadCall}
    (h : List.Forall₂ (fun u row => StoredAs P runID u.1 u.2 row) (uploads.flatMap UploadCall.items) (caseRowsOf db runID))
    (hnew : BringsNew P policy runID db t) :
    List.Forall₂ (fun u row => StoredAs P runID u.1 u.2 row)
      ((uploads ++ (finalizedUpload? P policy runID db t).toList).flatMap UploadCall.items)
      (caseRowsOf ((machine P policy).step db t) runID) := by
  have hchange := tallyChange_of_step P policy runID db t
  unfold BringsNew at hnew
  generalize (machine P policy).step db t = db' at hchange ⊢
  generalize finalizedUpload? P policy runID db t = final at hnew hchange ⊢
  cases hchange with
  | same _ hreceipts hcases =>
    rw [Option.toList_none, List.append_nil, hcases]
    exact h
  | finalized call _ _ _ _ hvalid _ _ _ _ hstored =>
    obtain ⟨rows, hrows, hown, heq⟩ := rows_of_insertCases hstored (call_document hvalid).cases_nodup (hnew call rfl)
    have hcases : caseRowsOf db' runID = caseRowsOf db runID ++ rows := by
      rw [caseRowsOf, Table.select, heq, List.filter_append,
        List.filter_eq_self.mpr fun row hrow => decide_eq_true (hown row hrow)]
      rfl
    rw [Option.toList_some, List.flatMap_append, List.flatMap_singleton, hcases]
    refine List.rel_append h ?_
    rw [UploadCall.items, List.forall₂_map_left_iff]
    exact hrows.imp fun _ _ hstored => hstored.storedAs

theorem rows_run (P : Platform) (policy : LimitPolicy) (runID : String) (es : List Txn)
    (hnew : StepsBringNew P policy runID es) :
    List.Forall₂ (fun u row => StoredAs P runID u.1 u.2 row)
      ((finalizedUploads P policy runID es).flatMap UploadCall.items)
      (caseRowsOf ((machine P policy).run Db.empty es) runID) := by
  refine run_induction (StepsBringNew P policy runID)
    (fun es db => List.Forall₂ (fun u row => StoredAs P runID u.1 u.2 row)
      ((finalizedUploads P policy runID es).flatMap UploadCall.items) (caseRowsOf db runID)) ?_ ?_ ?_ es hnew
  · exact fun es e h past t hpast => h past t (hpast.trans (List.prefix_append es [e]))
  · exact List.Forall₂.nil
  · intro es t hnew ih
    rw [finalizedUploads, trace_concat]
    exact rows_step ih (hnew es t List.prefix_rfl)

/-- A finalized upload whose cases are all counted afterwards brought no stored case. -/
theorem bringsNew_of_counted {uploads : List UploadCall} (h : Counted P uploads db runID)
    (h' : Counted P (uploads ++ (finalizedUpload? P policy runID db t).toList) ((machine P policy).step db t) runID) :
    BringsNew P policy runID db t := by
  intro call hfinal
  have hchange := tallyChange_of_step P policy runID db t
  rw [hfinal] at hchange h'
  cases hchange with
  | finalized _ _ _ _ _ _ _ _ _ _ hstored =>
    refine unstored_of_count hstored ?_
    have hbefore := h.rows.length_eq
    have hafter := h'.rows.length_eq
    rw [Option.toList_some, List.flatMap_append, List.length_append, List.flatMap_singleton, UploadCall.items,
      List.length_map] at hafter
    rw [Table.count_eq_length_select, Table.count_eq_length_select]
    unfold caseRowsOf at hbefore hafter
    omega

/-- **Every case is counted once**, at every moment of a history, exactly if no upload of the run that is finalized in it
    brings a case that is stored already. -/
theorem counted_iff (P : Platform) (policy : LimitPolicy) (runID : String) (es : List Txn)
    (hdocs : DistinctDocuments P (uploadCalls es)) :
    (∀ past, past <+: es → Counted P (finalizedUploads P policy runID past) ((machine P policy).run Db.empty past) runID) ↔
      StepsBringNew P policy runID es := by
  constructor
  · intro hcounted past t hpast
    have hbefore := hcounted past ((List.prefix_append past [t]).trans hpast)
    have hafter := hcounted (past ++ [t]) hpast
    rw [finalizedUploads, trace_concat, run_concat] at hafter
    exact bringsNew_of_counted hbefore hafter
  · intro hnew past hpast
    refine (ledger_run P policy runID past).counted (hdocs.of_prefix hpast) (rows_run P policy runID past ?_)
    exact fun before t hbefore => hnew before t (hbefore.trans hpast)

/-- Two shards are uploaded and finalized one after the other. -/
def twoUploads (first second : ShardUpload) : List Txn :=
  [registerAt 0 "run" (.reference "suite" "indexed" 2),
    ⟨.reserveShard (.reference "run" 0 "" first), 1, 1⟩, ⟨.finalizeShard (.reference "run" 0 "" first) none, 2, 2⟩,
    ⟨.reserveShard (.reference "run" 1 "" second), 3, 3⟩, ⟨.finalizeShard (.reference "run" 1 "" second) none, 4, 4⟩]

/-- Both shards bring the same case: both are complete, and one case is stored. -/
theorem counted_same_case :
    let P := Platform.reference [.single "run" "case"]
    let es := twoUploads (.single "run" "case") (.single "run" "case")
    let db := (machine P .unlimited).run Db.empty es
    ¬ Counted P (finalizedUploads P .unlimited "run" es) db "run" ∧ storedTotal db "run" = 1 ∧
      ((completeReceipts db "run").map fun s => s.summary.total) = [1, 1] ∧
      (db.run? "run").map (·.status) = some .complete := by
  refine ⟨fun hcounted => absurd hcounted.total ?_, ?_⟩
  · decide +kernel
  · decide +kernel

theorem counted_two_cases :
    let P := Platform.reference [.single "run" "first", .single "run" "second"]
    let es := twoUploads (.single "run" "first") (.single "run" "second")
    Counted P (finalizedUploads P .unlimited "run" es) ((machine P .unlimited).run Db.empty es) "run" ∧
      storedTotal ((machine P .unlimited).run Db.empty es) "run" = 2 := by
  refine ⟨(counted_iff _ _ _ _ ?_).mpr ?_ _ List.prefix_rfl, by decide +kernel⟩
  · unfold DistinctDocuments
    decide +kernel
  · exact stepsBringNew_of_get (by decide +kernel)

end AgentStorm.Results
