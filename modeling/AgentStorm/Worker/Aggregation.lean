import AgentStorm.Results.Tally
import AgentStorm.Worker.Agreement

/-!
# `Worker.Aggregation` — the stored aggregate is the summary of all cases

The worker sums up the results of one shard; the API sums up the case rows of a run each time one of
its shards is finalized. For cases that are spread over the shards in any way, and uploads that are
finalized in any order and among any other traffic, the two come to the same once the last shard is in
(`aggregate_agrees`).
-/

namespace AgentStorm.Worker

open Checks Machine Numeric Relational Results

/-! ## Rows and results -/

variable {P : Platform} {sensitive : Bool} {runID : String}

/-- The columns of a row that the aggregate counts are those of the result. -/
structure Shows (result : CaseResult) (row : CaseRow) : Prop where
  success_eq : row.success = result.success
  inputTokens_eq : row.inputTokens = result.inputTokens
  outputTokens_eq : row.outputTokens = result.outputTokens
  modelCallCount_eq : row.modelCallCount = result.modelCallCount.map fun (n : Nat) => (n : Int)
  toolCallCount_eq : row.toolCallCount = result.toolCallCount
  usageComplete_eq : row.usageComplete = result.usageComplete

/-- Normalization keeps what is counted. -/
theorem normalizeCase_casePayload (sensitive : Bool) (runID : String) (result : CaseResult) :
    ∃ category code, normalizeCase (casePayload sensitive runID result) =
      { casePayload sensitive runID result with
        attempts := (casePayload sensitive runID result).attempts.map normalizeAttempt
        failureCategory := category
        errorCode := code } := by
  unfold normalizeCase
  dsimp only
  split
  · exact ⟨_, _, rfl⟩
  · exact ⟨_, _, rfl⟩

theorem shows_of_storedAs {shardIndex : Nat} {result : CaseResult} {row : CaseRow}
    (h : StoredAs P runID shardIndex (normalizeCase (casePayload sensitive runID result)) row) :
    Shows result row := by
  obtain ⟨_, _, hpriced, hrow⟩ := h
  obtain ⟨_, _, hnormal⟩ := normalizeCase_casePayload sensitive runID result
  rw [hnormal] at hpriced
  obtain ⟨_, rfl⟩ := priceCase_ok hpriced
  obtain ⟨-, _, _, _, _, -, -, -, -, rfl⟩ := caseRow_eq hrow
  exact ⟨rfl, rfl, rfl, rfl, rfl, rfl⟩

/-! ## The two summaries of a list -/

variable {results : List CaseResult}

/-- The aggregate has the counts of the worker's summary. -/
structure Agrees (aggregate : Aggregate) (summary : RunSummary) : Prop where
  total : aggregate.total = summary.total
  succeeded : aggregate.succeeded = summary.succeeded
  failed : aggregate.failed = summary.failed
  inputTokens : aggregate.inputTokens = summary.inputTokens
  outputTokens : aggregate.outputTokens = summary.outputTokens
  modelCallCount : aggregate.modelCallCount = summary.modelCallCount.map fun (n : Nat) => (n : Int)
  toolCallCount : aggregate.toolCallCount = summary.toolCallCount
  usageComplete : aggregate.usageComplete = summary.usageComplete

/-- Known counts add up to the same on both sides; an unknown one adds nothing. -/
theorem foldr_reduceOption (counts : List (Option Nat)) :
    ((counts.map (Option.map fun (n : Nat) => (n : Int))).filterMap id).foldr (· + ·) 0 = ((total counts : Nat) : Int) := by
  induction counts with
  | nil => rfl
  | cons count counts ih =>
    cases count with
    | none => simpa [total] using ih
    | some => simpa [total] using ih

theorem sumIfKnown_eq {rows : List CaseRow} {counts : List (Option Nat)} (hne : rows ≠ [])
    (hcounts : rows.map (·.modelCallCount) = counts.map (Option.map fun (n : Nat) => (n : Int))) :
    sumIfKnown (·.modelCallCount) rows = (totalKnown counts).map fun (n : Nat) => (n : Int) := by
  have hall : (rows.all fun r => r.modelCallCount.isSome) = counts.all (·.isSome) := by
    have heq := congrArg (List.all · (·.isSome)) hcounts
    simpa [List.all_map, Function.comp_def] using heq
  have hsum : (rows.filterMap (·.modelCallCount)).foldr (· + ·) 0 = ((total counts : Nat) : Int) := by
    rw [← foldr_reduceOption, ← hcounts, List.filterMap_map]
    rfl
  rw [sumIfKnown, map_totalKnown, hall, hsum]
  simp [hne]

theorem agrees_of_shows {rows : List CaseRow} (h : List.Forall₂ Shows results rows) (hne : results ≠ [])
    (evaluation : EvaluationConfig) (durationMS : ℚ≥0) (passed : Bool) :
    Agrees { aggregateRows rows with thresholdsPassed := passed } (summarize results evaluation durationMS) := by
  have hlength := h.length_eq
  have hsuccess : rows.map (·.success) = results.map (·.success) := map_eq_of_forall₂ h fun _ _ hs => hs.success_eq
  have hcount : ∀ p : Bool → Bool, (rows.countP fun r => p r.success) = results.countP fun r => p r.success := by
    intro p
    have heq := congrArg (List.countP p) hsuccess
    rwa [List.countP_map, List.countP_map] at heq
  have hsum : ∀ (f : CaseRow → Int) (g : CaseResult → Nat), (∀ result row, Shows result row → f row = g result) →
      sumRows f rows = ((results.map g).sum : Nat) := by
    intro f g hfg
    rw [sumRows, map_eq_of_forall₂ h hfg, Nat.cast_list_sum, List.map_map]
    rfl
  refine ⟨?_, ?_, ?_, ?_, ?_, ?_, ?_, ?_⟩
  · simp [aggregateRows, countRows, summarize, hlength]
  · simp [aggregateRows, countRows, summarize, hcount fun b => b, List.countP_eq_length_filter]
  · have hsplit := List.length_eq_countP_add_countP (fun r : CaseResult => r.success) (l := results)
    simp only [Bool.not_eq_true, Bool.decide_eq_false, List.countP_eq_length_filter] at hsplit
    have hnot := hcount fun b => !b
    rw [List.countP_eq_length_filter (l := results)] at hnot
    simp only [aggregateRows, countRows, hnot]
    exact congrArg Nat.cast (Nat.eq_sub_of_add_eq' hsplit.symm)
  · exact hsum _ _ fun _ _ hs => hs.inputTokens_eq
  · exact hsum _ _ fun _ _ hs => hs.outputTokens_eq
  · refine sumIfKnown_eq ?_ ?_
    · rintro rfl
      exact hne (List.forall₂_nil_right_iff.mp h)
    · rw [List.map_map]
      exact map_eq_of_forall₂ h fun _ _ hs => hs.modelCallCount_eq
  · exact hsum _ _ fun _ _ hs => hs.toolCallCount_eq
  · have husage := congrArg (List.all · id) (map_eq_of_forall₂ h fun _ _ hs => hs.usageComplete_eq)
    simp only [List.all_map, Function.comp_def, id] at husage
    exact husage

/-- The counts of a summary do not depend on the order of the results. -/
theorem Agrees.perm {aggregate : Aggregate} {results' : List CaseResult} {evaluation : EvaluationConfig}
    {durationMS : ℚ≥0} (h : Agrees aggregate (summarize results evaluation durationMS))
    (hperm : results.Perm results') : Agrees aggregate (summarize results' evaluation durationMS) := by
  have hsuccess : (results.filter (·.success)).length = (results'.filter (·.success)).length :=
    (hperm.filter _).length_eq
  have hknown : totalKnown (results.map (·.modelCallCount)) = totalKnown (results'.map (·.modelCallCount)) := by
    have hcounts := hperm.map (·.modelCallCount)
    unfold totalKnown Worker.total
    rw [hcounts.all_eq, (hcounts.map _).sum_eq]
  refine ⟨h.total.trans ?_, h.succeeded.trans ?_, h.failed.trans ?_, h.inputTokens.trans ?_, h.outputTokens.trans ?_,
    h.modelCallCount.trans ?_, h.toolCallCount.trans ?_, h.usageComplete.trans ?_⟩
  · simp [summarize, hperm.length_eq]
  · simp [summarize, hsuccess]
  · simp [summarize, hperm.length_eq, hsuccess]
  · simp [summarize, (hperm.map _).sum_eq]
  · simp [summarize, (hperm.map _).sum_eq]
  · simp [summarize, hknown]
  · simp [summarize, (hperm.map _).sum_eq]
  · simp [summarize, hperm.all_eq]

/-! ## Cases spread over shards -/

variable {parts : List (List CaseResult)}

/-- The call uploads its shard's part of the results, with whatever summary. -/
def Uploads (sensitive : Bool) (parts : List (List CaseResult)) (call : UploadCall) : Prop :=
  ∃ part summary, parts[call.shardIndex.toNat]? = some part ∧
    call.upload = shardPayload sensitive call.runID part summary

theorem Uploads.cases {call : UploadCall} (h : Uploads sensitive parts call) :
    call.document.cases = (parts.getD call.shardIndex.toNat []).map fun result =>
      normalizeCase (casePayload sensitive call.runID result) := by
  obtain ⟨_, _, hpart, hupload⟩ := h
  rw [UploadCall.document, hupload, List.getD_eq_getElem?_getD, hpart, Option.getD_some]
  exact List.map_map

theorem Uploads.lt {call : UploadCall} (h : Uploads sensitive parts call) :
    call.shardIndex.toNat < parts.length := by
  obtain ⟨_, -, hpart, -⟩ := h
  exact (List.getElem?_eq_some_iff.mp hpart).1

/-- Results with one identity are in one part. -/
theorem eq_of_identity (hdistinct : (parts.flatten.map (·.identity)).Nodup) {i j : Nat}
    {result result' : CaseResult} (hi : result ∈ parts.getD i []) (hj : result' ∈ parts.getD j [])
    (heq : result.identity = result'.identity) : i = j := by
  rw [List.map_flatten, List.nodup_flatten, List.pairwise_map] at hdistinct
  have hlt : ∀ {n : Nat} {r : CaseResult}, r ∈ parts.getD n [] → ∃ h : n < parts.length, r ∈ parts[n] := by
    intro n r hr
    by_cases hn : n < parts.length
    · rw [List.getD_eq_getElem _ _ hn] at hr
      exact ⟨hn, hr⟩
    · rw [List.getD_eq_default _ _ (not_lt.mp hn)] at hr
      cases hr
  obtain ⟨hilt, hi⟩ := hlt hi
  obtain ⟨hjlt, hj⟩ := hlt hj
  have hpairs := List.pairwise_iff_getElem.mp hdistinct.2
  rcases lt_trichotomy i j with hlt | rfl | hgt
  · exact (hpairs i j hilt hjlt hlt (List.mem_map_of_mem hi) (heq ▸ List.mem_map_of_mem hj)).elim
  · rfl
  · exact (hpairs j i hjlt hilt hgt (List.mem_map_of_mem hj) (heq ▸ List.mem_map_of_mem hi)).elim

section History

variable {P : Platform} {policy : LimitPolicy} {runID : String} {sensitive : Bool} {es : List Txn}
  {parts : List (List CaseResult)} (hdistinct : (parts.flatten.map (·.identity)).Nodup)
  (huploads : ∀ call ∈ uploadCalls es, call.runID = runID → Uploads sensitive parts call)

include hdistinct huploads in
/-- Distinct cases in different shards never meet. -/
theorem stepsBringNew_of_parts : StepsBringNew P policy runID es := by
  intro past t hpast call hfinal item hitem row hrow hsame
  have hledger := ledger_run P policy runID past
  have hledger' := ledger_run P policy runID (past ++ [t])
  rw [finalizedUploads, Transactional.trace_concat, hfinal] at hledger'
  obtain ⟨c, hc, _, hitem', hof⟩ := hledger.cases row (Table.mem_select.mpr ⟨hrow, decide_eq_true hsame.1⟩)
  have hmem : call ∈ (machine P policy).trace (finalizedUpload? P policy runID) Db.empty past ++ (some call).toList :=
    List.mem_append_right _ (List.mem_singleton_self call)
  obtain ⟨hcall, -, hrun⟩ := hledger'.uploaded call hmem
  obtain ⟨hcall', -, hrun'⟩ := hledger'.uploaded c (List.mem_append_left _ hc)
  have hup := huploads call (mem_uploadCalls_of_past hpast hcall) hrun
  have hup' := huploads c (mem_uploadCalls_of_past hpast hcall') hrun'
  rw [hup.cases] at hitem
  rw [hup'.cases] at hitem'
  obtain ⟨result, hresult, rfl⟩ := List.mem_map.mp hitem
  obtain ⟨result', hresult', rfl⟩ := List.mem_map.mp hitem'
  have hidentity : ∀ (r : CaseResult) (id : String), (normalizeCase (casePayload sensitive id r)).caseID = r.caseID ∧
      (normalizeCase (casePayload sensitive id r)).iteration = r.iteration := by
    intro r id
    obtain ⟨_, _, hnormal⟩ := normalizeCase_casePayload sensitive id r
    rw [hnormal]
    exact ⟨rfl, rfl⟩
  have heq : result.identity = result'.identity := by
    unfold CaseResult.identity
    rw [← (hidentity result call.runID).1, ← (hidentity result call.runID).2, ← hsame.2.1, ← hsame.2.2, hof.caseID_eq,
      hof.iteration_eq, (hidentity result' c.runID).1, (hidentity result' c.runID).2]
  -- both uploads are of one shard, which is finalized once
  have hshard := eq_of_identity hdistinct hresult hresult' heq
  have hnodup := hledger'.nodup_shards
  rw [Option.toList_some, List.map_append, List.nodup_append] at hnodup
  exact hnodup.2.2 c.shardIndex.toNat (List.mem_map_of_mem (f := fun c : UploadCall => c.shardIndex.toNat) hc)
    call.shardIndex.toNat (by simp) hshard.symm

end History

theorem flatMap_range_getD {α : Type} (parts : List (List α)) :
    (List.range parts.length).flatMap (fun i => parts.getD i []) = parts.flatten := by
  rw [List.flatMap_def]
  congr 1
  refine List.ext_getElem (by simp) fun i hi hi' => ?_
  rw [List.getElem_map, List.getElem_range, List.getD_eq_getElem _ _ hi']

/-- Once every shard is complete, the finalized uploads hold every part once. -/
theorem perm_parts {calls uploads : List UploadCall} {db : Db} (h : Ledger P calls uploads db runID)
    (huploads : ∀ call ∈ uploads, Uploads sensitive parts call)
    (hlast : completedShards db runID = parts.length) :
    (uploads.flatMap fun c => parts.getD c.shardIndex.toNat []).Perm parts.flatten := by
  have hlength : (uploads.map fun c => c.shardIndex.toNat).length = parts.length := by
    rw [← h.perm_shards.length_eq, List.length_map, ← hlast, completedShards, Table.count_eq_length_select, completeReceipts]
    simp
  have hsubset : (uploads.map fun c => c.shardIndex.toNat) ⊆ List.range parts.length := by
    intro i hi
    obtain ⟨c, hc, rfl⟩ := List.mem_map.mp hi
    exact List.mem_range.mpr (huploads c hc).lt
  have hperm : (uploads.map fun c => c.shardIndex.toNat).Perm (List.range parts.length) :=
    (List.subperm_of_subset h.nodup_shards hsubset).perm_of_length_le (by rw [List.length_range, hlength])
  have hflat := hperm.flatMap_right fun i => parts.getD i []
  rw [flatMap_range_getD, List.flatMap_map] at hflat
  exact hflat

/-- The rows of a run whose shards are all complete are those of its results, in some order. -/
theorem stored_parts {policy : LimitPolicy} {es : List Txn}
    (hdistinct : (parts.flatten.map (·.identity)).Nodup)
    (huploads : ∀ call ∈ uploadCalls es, call.runID = runID → Uploads sensitive parts call)
    (hlast : completedShards ((machine P policy).run Db.empty es) runID = parts.length) :
    ∃ shown : List CaseResult, shown.Perm parts.flatten ∧
      List.Forall₂ (fun result row => ∃ i, StoredAs P runID i (normalizeCase (casePayload sensitive runID result)) row)
        shown (caseRowsOf ((machine P policy).run Db.empty es) runID) := by
  have hledger := ledger_run P policy runID es
  have hrows := rows_run P policy runID es (stepsBringNew_of_parts hdistinct huploads)
  generalize (machine P policy).run Db.empty es = db at hlast hledger hrows ⊢
  generalize finalizedUploads P policy runID es = uploads at hledger hrows
  have hups : ∀ call ∈ uploads, Uploads sensitive parts call := fun call hcall =>
    huploads call (hledger.uploaded call hcall).1 (hledger.uploaded call hcall).2.2
  -- in the order in which the uploads were finalized
  refine ⟨uploads.flatMap fun c => parts.getD c.shardIndex.toNat [], perm_parts hledger hups hlast, ?_⟩
  have hitems : (uploads.flatMap UploadCall.items).map Prod.snd =
      (uploads.flatMap fun c => parts.getD c.shardIndex.toNat []).map fun result =>
        normalizeCase (casePayload sensitive runID result) := by
    rw [List.map_flatMap, List.map_flatMap]
    refine List.flatMap_congr fun c hc => ?_
    rw [UploadCall.items, List.map_map, (hups c hc).cases, (hledger.uploaded c hc).2.2]
    exact List.map_id _
  have hsnd : List.Forall₂ (fun item row => ∃ i, StoredAs P runID i item row)
      ((uploads.flatMap UploadCall.items).map Prod.snd) (caseRowsOf db runID) :=
    List.forall₂_map_left_iff.mpr (hrows.imp fun u row hstored => ⟨u.1, hstored⟩)
  rwa [hitems, List.forall₂_map_left_iff] at hsnd

/-- A run whose shards are all complete has a summary, over the rows of its results, with the counts of `summarize`. -/
theorem summary_of_parts {policy : LimitPolicy} {es : List Txn} (hne : results ≠ [])
    (hdistinct : (results.map (·.identity)).Nodup) (hparts : parts.flatten.Perm results)
    (huploads : ∀ call ∈ uploadCalls es, call.runID = runID → Uploads sensitive parts call)
    (hlast : completedShards ((machine P policy).run Db.empty es) runID = parts.length)
    (evaluation : EvaluationConfig) (durationMS : ℚ≥0) :
    ∃ (shown : List CaseResult) (aggregate : Aggregate) (passed : Bool), shown.Perm results ∧
      List.Forall₂ (fun result row => ∃ i, StoredAs P runID i (normalizeCase (casePayload sensitive runID result)) row)
        shown (caseRowsOf ((machine P policy).run Db.empty es) runID) ∧
      aggregate = { aggregateRows (caseRowsOf ((machine P policy).run Db.empty es) runID) with thresholdsPassed := passed } ∧
      ((machine P policy).run Db.empty es).summary? runID = some ⟨runID, aggregate⟩ ∧
      Agrees aggregate (summarize results evaluation durationMS) := by
  have hledger := ledger_run P policy runID es
  obtain ⟨shown, hshown, hstored⟩ := stored_parts ((hparts.map _).nodup_iff.mpr hdistinct) huploads hlast
  generalize (machine P policy).run Db.empty es = db at hledger hstored ⊢
  have hperm : shown.Perm results := hshown.trans hparts
  have hshows : List.Forall₂ Shows shown (caseRowsOf db runID) := by
    refine hstored.imp fun result row hrow => ?_
    obtain ⟨i, hrow⟩ := hrow
    exact shows_of_storedAs hrow
  have hnonempty : shown ≠ [] := by
    rintro rfl
    exact hne hperm.nil_eq.symm
  rcases hledger.summary with ⟨-, -, hrows⟩ | ⟨passed, hsummary⟩
  · rw [hrows] at hshows
    exact absurd (List.forall₂_nil_right_iff.mp hshows) hnonempty
  · exact ⟨shown, _, passed, hperm, hstored, rfl, hsummary,
      (agrees_of_shows hshows hnonempty evaluation durationMS passed).perm hperm⟩

/-- **Aggregation agrees with the worker.** The results of a run are spread over its shards in any way. In any history in
    which each upload of the run carries its shard's part, and after which every shard is complete, the stored aggregate
    has the counts that the worker's `summarize` computes on all results together. -/
theorem aggregate_agrees (P : Platform) (policy : LimitPolicy) (runID : String) (sensitive : Bool) (es : List Txn)
    (results : List CaseResult) (parts : List (List CaseResult)) (evaluation : EvaluationConfig) (durationMS : ℚ≥0)
    (hne : results ≠ []) (hdistinct : (results.map (·.identity)).Nodup) (hparts : parts.flatten.Perm results)
    (huploads : ∀ call ∈ uploadCalls es, call.runID = runID → Uploads sensitive parts call)
    (hlast : completedShards ((machine P policy).run Db.empty es) runID = parts.length) :
    ∃ aggregate, ((machine P policy).run Db.empty es).summary? runID = some ⟨runID, aggregate⟩ ∧
      Agrees aggregate (summarize results evaluation durationMS) := by
  obtain ⟨_, aggregate, _, -, -, -, hsummary, hagrees⟩ :=
    summary_of_parts hne hdistinct hparts huploads hlast evaluation durationMS
  exact ⟨aggregate, hsummary, hagrees⟩

/-- A case of which the model calls are not known. -/
def unmeteredRun : CaseRun (fun _ => 0) none :=
  ⟨"case", 2, oneAttempt ⟨[], .ok ⟨"ok", some 3, some 2, none, none, "", none⟩⟩ (some []), _, rfl⟩

/-- The upload of one result as shard `i`. -/
def uploadOf (i : Nat) (result : CaseResult) : UploadCall :=
  .reference "run" i "" (shardPayload false "run" [result] (summarize [result] ⟨none, none, none⟩ fiveMillis))

/-- Three shards, the last of them empty, finalized out of order. -/
def threeShards : List Txn :=
  let empty := UploadCall.reference "run" 2 "" (shardPayload false "run" [] (summarize ([] : List CaseResult) ⟨none, none, none⟩ 1))
  [registerAt 0 "run" (.reference "suite" "indexed" 3),
    ⟨.reserveShard (uploadOf 1 unmeteredRun.result), 1, 1⟩, ⟨.reserveShard (uploadOf 0 answeredRun.result), 2, 2⟩,
    ⟨.finalizeShard (uploadOf 1 unmeteredRun.result) none, 3, 3⟩, ⟨.reserveShard empty, 4, 4⟩,
    ⟨.finalizeShard empty none, 5, 5⟩, ⟨.finalizeShard (uploadOf 0 answeredRun.result) none, 6, 6⟩]

theorem aggregate_agrees_three_shards :
    ∃ aggregate, ((machine (.reference []) .unlimited).run Db.empty threeShards).summary? "run" = some ⟨"run", aggregate⟩ ∧
      Agrees aggregate (summarize [unmeteredRun.result, answeredRun.result] ⟨none, none, none⟩ 9) := by
  refine aggregate_agrees (.reference []) .unlimited "run" false threeShards _
    [[answeredRun.result], [unmeteredRun.result], []] _ _ (List.cons_ne_nil _ _) (by decide +kernel)
    (List.Perm.swap _ _ _) ?_ (by decide +kernel)
  intro call hcall _
  simp only [uploadCalls, threeShards, registerAt, List.filterMap_cons, List.filterMap_nil, Op.call?, List.mem_cons,
    List.not_mem_nil, or_false] at hcall
  rcases hcall with rfl | rfl | rfl | rfl | rfl | rfl
  · exact ⟨_, _, rfl, rfl⟩
  · exact ⟨_, _, rfl, rfl⟩
  · exact ⟨_, _, rfl, rfl⟩
  · exact ⟨_, _, rfl, rfl⟩
  · exact ⟨_, _, rfl, rfl⟩
  · exact ⟨_, _, rfl, rfl⟩

end AgentStorm.Worker
