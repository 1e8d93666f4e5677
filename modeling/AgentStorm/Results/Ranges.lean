import AgentStorm.Results.Costs
import AgentStorm.Results.Reclaim

/-!
# `Results.Ranges` — when accepted uploads fit their columns

Validation knows no upper bounds; the columns of the database have them. `ItemFits` is what the row of
one case needs and `SumsFit` what the summary over a list of cases does; a reserved upload of new cases
is finalized if both hold of it and of what is stored before (`Staged.finalize_isOk_iff`). A batch can
be finalized in whatever order if `ColumnsFit` holds of it (`finalizing_in_range`): a sum that is null
as soon as one value is unknown may still overflow while the uploads with unknown values are missing,
so it is taken over the others only.
-/

namespace AgentStorm.Results

open Checks Machine Machine.Transactional Numeric Relational

variable {P : Platform} {policy : LimitPolicy}

/-! ## One case -/

/-- What a case costs. Neither part is negative, so that a total in range has its parts in range. -/
def caseUSD (p : RunPricing) (item : CaseResult) : ℚ := inputUSD p item.inputTokens + outputUSD p item.outputTokens

/-- The case fits its row. -/
structure ItemFits (pricing : Option RunPricing) (item : CaseResult) : Prop where
  iteration : item.iteration < 2 ^ 31
  cost : ∀ p, pricing = some p → usageComplete item.usageComplete = true → caseUSD p item < 10 ^ 18

theorem numericColumn_isOk_iff {column : String} {q : ℚ} :
    (∃ cost, numericColumn column (some (floatString q)) = .ok cost) ↔ |roundedUSD q| < 10 ^ 18 := by
  simp only [numericColumn, ratSetString_floatString]
  constructor
  · rintro ⟨_, h⟩
    obtain ⟨_, hvalue, h⟩ := bind_ok_iff.mp h
    cases hvalue
    obtain ⟨hfits, -⟩ := then_ok_iff.mp h
    simpa [fitsNumeric] using hfits
  · intro hfits
    refine ⟨some (roundedUSD q), bind_ok_iff.mpr ⟨_, rfl, then_ok_iff.mpr ⟨?_, rfl⟩⟩⟩
    simpa [fitsNumeric] using hfits

/-- The row of an accepted case is made if the iteration and the three costs are in range. -/
theorem caseRow_isOk_iff {runID hash : String} {shardIndex : Nat} {item : CaseResult} (h : CaseAccepted runID item)
    {costs : Costs} :
    (∃ row, caseRow runID shardIndex hash
      { item with inputCostUSD := costs.input, outputCostUSD := costs.output, costUSD := costs.total } = .ok row) ↔
    item.iteration < 2 ^ 31 ∧ (∃ c, numericColumn "input_cost_usd" costs.input = .ok c) ∧
      (∃ c, numericColumn "output_cost_usd" costs.output = .ok c) ∧
      ∃ c, numericColumn "cost_usd" costs.total = .ok c := by
  constructor
  · rintro ⟨row, hrow⟩
    obtain ⟨hrange, _, inputCost, outputCost, cost, -, hinput, houtput, hcost, -⟩ := caseRow_eq hrow
    exact ⟨hrange, ⟨inputCost, hinput⟩, ⟨outputCost, houtput⟩, cost, hcost⟩
  · rintro ⟨hrange, ⟨inputCost, hinput⟩, ⟨outputCost, houtput⟩, cost, hcost⟩
    have hiter := h.iteration_nonneg
    obtain ⟨latency, hlatency, hpos⟩ := h.latency
    unfold caseRow
    refine ⟨_, then_ok_iff.mpr ⟨?_, bind_ok_iff.mpr ⟨latency, ?_, bind_ok_iff.mpr ⟨inputCost, hinput,
      bind_ok_iff.mpr ⟨outputCost, houtput, bind_ok_iff.mpr ⟨cost, hcost, then_ok_iff.mpr ⟨?_, rfl⟩⟩⟩⟩⟩⟩⟩
    · rw [reject_eq_ok, decide_eq_false_iff_not]
      show ¬ (2 ^ 31 ≤ item.iteration ∨ item.iteration < -2 ^ 31)
      omega
    · rw [hlatency]
      rfl
    · -- the `CHECK`s of the table hold of an accepted case
      rw [reject_eq_ok, Bool.or_eq_false_iff, decide_eq_false_iff_not]
      have hin := h.inputTokens_nonneg
      have hout := h.outputTokens_nonneg
      have htool := h.toolCalls_nonneg
      refine ⟨by rintro (hbad | hbad | hbad | hbad | hbad) <;> linarith, ?_⟩
      rw [Option.any_eq_false]
      intro n hn
      rw [decide_eq_false_iff_not, not_lt]
      exact h.modelCalls_nonneg n hn

section Prices

variable {pricing : Option RunPricing} (hpricing : PricingValid pricing)

include hpricing in
theorem caseUSD_parts {runID : String} {item : CaseResult} (h : CaseAccepted runID item) {p : RunPricing}
    (hp : pricing = some p) :
    OnGrid (inputUSD p item.inputTokens) ∧ OnGrid (outputUSD p item.outputTokens) ∧ OnGrid (caseUSD p item) := by
  subst hp
  have hinput := inputUSD_onGrid hpricing h.inputTokens_nonneg
  have houtput := outputUSD_onGrid hpricing h.outputTokens_nonneg
  exact ⟨hinput, houtput, hinput.add houtput⟩

include hpricing in
/-- **One case.** The priced case becomes a row exactly when it fits. -/
theorem storedUnder_iff {runID : String} {shardIndex : Nat} {item : CaseResult} (h : CaseAccepted runID item) :
    (∃ row, StoredUnder P pricing runID shardIndex item row) ↔ ItemFits pricing item := by
  have hpriced : ∀ {costs : Costs}, caseCosts pricing item = .ok costs →
      ((∃ row, StoredUnder P pricing runID shardIndex item row) ↔ ∃ row, caseRow runID shardIndex
        (P.caseHash { item with inputCostUSD := costs.input, outputCostUSD := costs.output, costUSD := costs.total })
        { item with inputCostUSD := costs.input, outputCostUSD := costs.output, costUSD := costs.total } = .ok row) := by
    intro costs hcosts
    simp [StoredUnder, priceCase, hcosts]
  have hfree : ∀ column, ∃ c, numericColumn column none = .ok c := fun column => ⟨none, rfl⟩
  by_cases hknown : usageComplete item.usageComplete = true ∧ ∃ p, pricing = some p
  · obtain ⟨hcomplete, p, hp⟩ := hknown
    obtain ⟨hinput, houtput, htotal⟩ := caseUSD_parts hpricing h hp
    subst hp
    rw [hpriced (by rw [caseCosts, if_pos hcomplete, costsForTokens_eq hpricing]), caseRow_isOk_iff h]
    simp only [numericColumn_isOk_iff]
    change _ ∧ |inputUSD p item.inputTokens| < _ ∧ |outputUSD p item.outputTokens| < _ ∧
      |roundedUSD (caseUSD p item)| < _ ↔ _
    rw [roundedUSD_of_grid htotal, abs_of_nonneg hinput.nonneg, abs_of_nonneg houtput.nonneg, abs_of_nonneg htotal.nonneg]
    constructor
    · rintro ⟨hiter, -, -, hcost⟩
      refine ⟨hiter, fun q hq _ => ?_⟩
      cases hq
      exact hcost
    · rintro ⟨hiter, hcost⟩
      have hsum : inputUSD p item.inputTokens + outputUSD p item.outputTokens < 10 ^ 18 := hcost p rfl hcomplete
      have hin0 := hinput.nonneg
      have hout0 := houtput.nonneg
      exact ⟨hiter, by linarith, by linarith, hcost p rfl hcomplete⟩
  · rw [hpriced (caseCosts_unknown hknown), caseRow_isOk_iff h]
    constructor
    · rintro ⟨hiter, -⟩
      exact ⟨hiter, fun p hp hcomplete => absurd ⟨hcomplete, p, hp⟩ hknown⟩
    · rintro ⟨hiter, -⟩
      exact ⟨hiter, hfree _, hfree _, hfree _⟩

include hpricing in
/-- The insert loop over new cases ends well exactly when all of them fit. -/
theorem insertCases_isOk_iff {runID : String} (hpattern : runIDPattern runID = true) {shardIndex : Nat}
    {items : List CaseResult} {cases : Table CaseRow} (h : NewCases runID cases items) :
    (∃ stored, insertCases P runID shardIndex pricing items cases = .ok stored) ↔
      ∀ item ∈ items, ItemFits pricing item := by
  induction items generalizing cases with
  | nil => exact ⟨fun _ _ hitem => absurd hitem List.not_mem_nil, fun _ => ⟨cases, rfl⟩⟩
  | cons item items ih =>
    have hitem := h.accepted item List.mem_cons_self
    rw [List.forall_mem_cons]
    constructor
    · rintro ⟨stored, hstored⟩
      obtain ⟨mid, hmid, hrest⟩ := bind_ok_iff.mp hstored
      obtain ⟨row, hrow, hins⟩ := (insertCase_new h).mp hmid
      exact ⟨(storedUnder_iff hpricing hitem).mp ⟨row, hrow⟩,
        (ih (h.insert hpattern hrow.storedAs.rowOf.1 hins)).mp ⟨stored, hrest⟩⟩
    · rintro ⟨hfits, hrest⟩
      obtain ⟨row, hrow⟩ : ∃ row, StoredUnder P pricing runID shardIndex item row :=
        (storedUnder_iff hpricing hitem).mpr hfits
      have hof := hrow.storedAs.rowOf.1
      obtain ⟨mid, hins⟩ := insert_unstored hpattern h.keys hitem (h.unstored item List.mem_cons_self) hof
      obtain ⟨stored, hstored⟩ := (ih (h.insert hpattern hof hins)).mpr hrest
      exact ⟨stored, bind_ok_iff.mpr ⟨mid, (insertCase_new h).mpr ⟨row, hrow, hins⟩, hstored⟩⟩

end Prices

/-! ## The sums of a run -/

/-- The cases fit the summary of their run. -/
structure SumsFit (pricing : Option RunPricing) (items : List CaseResult) : Prop where
  inputTokens : (items.map (·.inputTokens)).sum ≤ maxInt64
  outputTokens : (items.map (·.outputTokens)).sum ≤ maxInt64
  toolCalls : (items.map (·.toolCallCount)).sum ≤ maxInt64
  modelCalls : (∀ item ∈ items, item.modelCallCount.isSome = true) →
    (items.map fun item => item.modelCallCount.getD 0).sum ≤ maxInt64
  cost : ∀ p, pricing = some p → (∀ item ∈ items, usageComplete item.usageComplete = true) →
    (items.map (caseUSD p)).sum < 10 ^ 18

/-- A check of a sum that is null when a value is missing. -/
theorem any_sumIfKnown_eq_false {α : Type} [Add α] [Zero α] {f : CaseRow → Option α} {rows : List CaseRow}
    {bad : α → Bool} (hzero : bad 0 = false) :
    (sumIfKnown f rows).any bad = false ↔
      ((∀ v ∈ rows.map f, v.isSome = true) → bad ((rows.map f).map (·.getD 0)).sum = false) := by
  by_cases hknown : ∀ v ∈ rows.map f, v.isSome = true
  · rw [List.map_map, imp_iff_right hknown]
    by_cases hne : rows = []
    · subst hne
      exact iff_of_true rfl hzero
    · have hsome : ∀ r ∈ rows, f r = some ((f r).getD 0) := by
        intro r hr
        obtain ⟨_, hvalue⟩ := Option.isSome_iff_exists.mp (hknown (f r) (List.mem_map_of_mem hr))
        rw [hvalue]
        rfl
      rw [sumIfKnown_eq hne hsome]
      rfl
  · refine iff_of_true ?_ fun hall => absurd hall hknown
    push Not at hknown
    obtain ⟨v, hv, hnone⟩ := hknown
    obtain ⟨r, hr, rfl⟩ := List.mem_map.mp hv
    rw [sumIfKnown_eq_none (Or.inr ⟨r, hr, by simpa using hnone⟩)]
    rfl

section Rows

variable {pricing : Option RunPricing} {runID : String} {items : List CaseResult} {rows : List CaseRow}

/-- The rows of accepted cases of a run, whatever their shards. -/
def RowsOf (P : Platform) (pricing : Option RunPricing) (runID : String) : List CaseResult → List CaseRow → Prop :=
  List.Forall₂ fun item row => CaseAccepted runID item ∧ ∃ shardIndex, StoredUnder P pricing runID shardIndex item row

theorem RowsOf.accepted (h : RowsOf P pricing runID items rows) : ∀ item ∈ items, CaseAccepted runID item :=
  ((List.forall₂_and_left items rows).mp h).1

theorem RowsOf.identities (h : RowsOf P pricing runID items rows) :
    (rows.map fun row => (row.caseID, row.iteration)) = items.map fun item => (item.caseID, item.iteration) := by
  refine map_eq_of_forall₂ h fun item row hrow => ?_
  obtain ⟨-, i, hstored⟩ := hrow
  have hof := hstored.storedAs.rowOf.1
  rw [hof.caseID_eq, hof.iteration_eq]

/-- Columns that are copied. -/
theorem RowsOf.map_eq (h : RowsOf P pricing runID items rows) :
    rows.map (·.inputTokens) = items.map (·.inputTokens) ∧ rows.map (·.outputTokens) = items.map (·.outputTokens) ∧
      rows.map (·.toolCallCount) = items.map (·.toolCallCount) ∧
      rows.map (·.modelCallCount) = items.map (·.modelCallCount) := by
  have hcopied : ∀ {item row}, (CaseAccepted runID item ∧ ∃ i, StoredUnder P pricing runID i item row) →
      row.inputTokens = item.inputTokens ∧ row.outputTokens = item.outputTokens ∧
        row.toolCallCount = item.toolCallCount ∧ row.modelCallCount = item.modelCallCount := by
    rintro item row ⟨-, i, _, hpriced, hrow⟩
    obtain ⟨_, rfl⟩ := priceCase_ok hpriced
    obtain ⟨-, _, _, _, _, -, -, -, -, rfl⟩ := caseRow_eq hrow
    exact ⟨rfl, rfl, rfl, rfl⟩
  exact ⟨map_eq_of_forall₂ h fun _ _ hrow => (hcopied hrow).1, map_eq_of_forall₂ h fun _ _ hrow => (hcopied hrow).2.1,
    map_eq_of_forall₂ h fun _ _ hrow => (hcopied hrow).2.2.1, map_eq_of_forall₂ h fun _ _ hrow => (hcopied hrow).2.2.2⟩

/-- A cost column, absent without prices or complete usage. -/
def costColumn (pricing : Option RunPricing) (usd : RunPricing → CaseResult → ℚ) (item : CaseResult) : Option ℚ :=
  if usageComplete item.usageComplete then pricing.map (usd · item) else none

theorem RowsOf.costs_eq (hpricing : PricingValid pricing) (h : RowsOf P pricing runID items rows) :
    rows.map (·.inputCostUSD) = items.map (costColumn pricing fun p item => inputUSD p item.inputTokens) ∧
      rows.map (·.outputCostUSD) = items.map (costColumn pricing fun p item => outputUSD p item.outputTokens) ∧
      rows.map (·.costUSD) = items.map (costColumn pricing caseUSD) := by
  have hcosts : ∀ {item row}, (CaseAccepted runID item ∧ ∃ i, StoredUnder P pricing runID i item row) →
      row.inputCostUSD = costColumn pricing (fun p item => inputUSD p item.inputTokens) item ∧
        row.outputCostUSD = costColumn pricing (fun p item => outputUSD p item.outputTokens) item ∧
        row.costUSD = costColumn pricing caseUSD item := by
    rintro item row ⟨haccepted, i, hstored⟩
    have hpriced := hstored.priced hpricing haccepted
    obtain ⟨_, hprice, hrow⟩ := hstored
    obtain ⟨_, rfl⟩ := priceCase_ok hprice
    obtain ⟨-, _, _, _, _, -, -, -, -, rfl⟩ := caseRow_eq hrow
    exact ⟨hpriced.input, hpriced.output, hpriced.total⟩
  exact ⟨map_eq_of_forall₂ h fun _ _ hrow => (hcosts hrow).1, map_eq_of_forall₂ h fun _ _ hrow => (hcosts hrow).2.1,
    map_eq_of_forall₂ h fun _ _ hrow => (hcosts hrow).2.2⟩

/-- A cost sum is refused when it is known and too large. -/
theorem any_cost_eq_false {f : CaseRow → Option ℚ} {usd : RunPricing → CaseResult → ℚ}
    (hcolumn : rows.map f = items.map (costColumn pricing usd))
    (hnonneg : ∀ p, pricing = some p → ∀ item ∈ items, 0 ≤ usd p item) :
    ((sumIfKnown f rows).any fun q => !fitsNumeric q) = false ↔
      ∀ p, pricing = some p → (∀ item ∈ items, usageComplete item.usageComplete = true) →
        (items.map (usd p)).sum < 10 ^ 18 := by
  rw [any_sumIfKnown_eq_false (by simp [fitsNumeric]), hcolumn, List.forall_mem_map, List.map_map]
  cases pricing with
  | none =>
    refine iff_of_true (fun hall => ?_) fun p hp => nomatch hp
    -- no value is known, so there are no cases
    cases items with
    | nil => simp [fitsNumeric]
    | cons item =>
      have hsome := hall item List.mem_cons_self
      simp [costColumn] at hsome
  | some p =>
    have hknown : ∀ item, (costColumn (some p) usd item).isSome = true ↔ usageComplete item.usageComplete = true := by
      intro item
      cases husage : usageComplete item.usageComplete <;> simp [costColumn, husage]
    simp only [hknown, Option.some.injEq, forall_eq']
    refine imp_congr_right fun hcomplete => ?_
    have hvalues : items.map ((fun v => Option.getD v 0) ∘ costColumn (some p) usd) = items.map (usd p) := by
      refine List.map_congr_left fun item hitem => ?_
      simp [costColumn, hcomplete item hitem]
    have hsum : 0 ≤ (items.map (usd p)).sum := by
      refine List.sum_nonneg fun q hq => ?_
      obtain ⟨item, hitem, rfl⟩ := List.mem_map.mp hq
      exact hnonneg p rfl item hitem
    rw [hvalues]
    simp [fitsNumeric, abs_of_nonneg hsum]

theorem any_modelCalls_eq_false (hcolumn : rows.map (·.modelCallCount) = items.map (·.modelCallCount)) :
    ((sumIfKnown (·.modelCallCount) rows).any fun n => decide (maxInt64 < n)) = false ↔
      ((∀ item ∈ items, item.modelCallCount.isSome = true) →
        (items.map fun item => item.modelCallCount.getD 0).sum ≤ maxInt64) := by
  rw [any_sumIfKnown_eq_false (by decide), hcolumn, List.forall_mem_map, List.map_map]
  simp only [decide_eq_false_iff_not, not_lt]
  rfl

/-- **One summary.** The sums over the rows are in range exactly when those over the cases are. -/
theorem checkAggregate_ok_iff (hpricing : PricingValid pricing) (h : RowsOf P pricing runID items rows) :
    checkAggregate rows = .ok () ↔ SumsFit pricing items := by
  obtain ⟨hin, hout, htool, hmodel⟩ := h.map_eq
  obtain ⟨hinput, houtput, htotal⟩ := h.costs_eq hpricing
  have hparts : ∀ p, pricing = some p → ∀ item ∈ items, OnGrid (inputUSD p item.inputTokens) ∧
      OnGrid (outputUSD p item.outputTokens) ∧ OnGrid (caseUSD p item) :=
    fun p hp item hitem => caseUSD_parts hpricing (h.accepted item hitem) hp
  unfold checkAggregate
  simp only [then_ok_iff, reject_eq_ok, decide_eq_false_iff_not, not_lt]
  change (rows.map (·.inputTokens)).sum ≤ _ ∧ (rows.map (·.outputTokens)).sum ≤ _ ∧
    ((sumIfKnown (·.modelCallCount) rows).any fun n => decide (maxInt64 < n)) = false ∧
    (rows.map (·.toolCallCount)).sum ≤ _ ∧ _ ↔ _
  rw [hin, hout, htool, any_modelCalls_eq_false hmodel,
    any_cost_eq_false hinput fun p hp item hitem => (hparts p hp item hitem).1.nonneg,
    any_cost_eq_false houtput fun p hp item hitem => (hparts p hp item hitem).2.1.nonneg,
    any_cost_eq_false htotal fun p hp item hitem => (hparts p hp item hitem).2.2.nonneg]
  constructor
  · rintro ⟨hin, hout, hmodel, htool, -, -, hcost⟩
    exact ⟨hin, hout, htool, hmodel, hcost⟩
  · rintro ⟨hin, hout, htool, hmodel, hcost⟩
    refine ⟨hin, hout, hmodel, htool, fun p hp hcomplete => ?_, fun p hp hcomplete => ?_, hcost⟩
    · refine lt_of_le_of_lt (List.sum_le_sum fun item hitem => ?_) (hcost p hp hcomplete)
      exact le_add_of_nonneg_right (hparts p hp item hitem).2.1.nonneg
    · refine lt_of_le_of_lt (List.sum_le_sum fun item hitem => ?_) (hcost p hp hcomplete)
      exact le_add_of_nonneg_left (hparts p hp item hitem).1.nonneg

end Rows

/-! ## One upload of a batch -/

/-- Some uploads of a run are finalized, those in `done`; the ones in `rest` are reserved and wait. All passed
    validation, no shard and no case is in them twice, and the run has no other cases. -/
structure Staged (P : Platform) (now : UploadCall → Time) (run : RunRow) (done rest : List UploadCall) (db : Db) :
    Prop where
  ofRun : ∀ call ∈ done ++ rest, call.runID = run.id
  valid : ∀ call ∈ done ++ rest, call.validate P = .ok ()
  shards : (rest.map fun call => call.shardIndex).Nodup
  disjoint : (((done ++ rest).flatMap (·.document.cases)).map fun item => (item.caseID, item.iteration)).Nodup
  registered : ∃ r ∈ db.runs, SameRun run r ∧ r.status.terminal = run.status.terminal
  reserved : ∀ call ∈ rest, ∃ s ∈ db.receipts, s.runID = run.id ∧ s.shardIndex = call.shardIndex.toNat ∧
    s.payloadHash = call.payloadHash P ∧ s.status = .pending
  /-- Workers of a queued run hold their leases, until somebody terminates the run. -/
  leased : run.registration.queued = true → run.status.terminal = false → ∀ call ∈ rest,
    LeaseOpen db (now call) run.id call.shardIndex.toNat (call.leaseHash P)
  stored : RowsOf P run.registration.target.pricing run.id (done.flatMap (·.document.cases))
    (caseRowsOf db run.id)

/-- The transaction that finalizes an upload with the prices of the run. -/
def finalization (now wall : UploadCall → Time) (run : RunRow) (call : UploadCall) : Txn :=
  ⟨.finalizeShard call run.registration.target.pricing, now call, wall call⟩

section Staged

variable {now wall : UploadCall → Time} {run : RunRow} {done rest : List UploadCall} {call : UploadCall} {db : Db}
  (hsound : Sound P db) (h : Staged P now run done (call :: rest) db)

include hsound h in
theorem Staged.newCases : NewCases call.runID db.cases call.document.cases := by
  have hmem : call ∈ done ++ call :: rest := List.mem_append_right _ List.mem_cons_self
  have haccepted := call_document (h.valid call hmem)
  refine ⟨haccepted.cases_accepted, haccepted.cases_nodup, hsound.caseKeysSound, ?_⟩
  rintro item hitem row hrow ⟨hrunID, hcase, hiter⟩
  -- a stored row has the identity of a case in `done`
  have hold : (row.caseID, row.iteration) ∈
      (done.flatMap (·.document.cases)).map fun item => (item.caseID, item.iteration) := by
    rw [← h.stored.identities]
    exact List.mem_map_of_mem (Table.mem_select.mpr ⟨hrow, decide_eq_true (hrunID.trans (h.ofRun call hmem))⟩)
  have hnew : (row.caseID, row.iteration) ∈
      ((call :: rest).flatMap (·.document.cases)).map fun item => (item.caseID, item.iteration) := by
    rw [hcase, hiter]
    exact List.mem_map.mpr ⟨item, List.mem_flatMap.mpr ⟨call, List.mem_cons_self, hitem⟩, rfl⟩
  have hdisjoint := h.disjoint
  rw [List.flatMap_append, List.map_append, List.nodup_append] at hdisjoint
  exact hdisjoint.2.2 _ hold _ hnew rfl

include hsound h in
/-- What finalizing the next upload meets: everything but the ranges is in order. -/
theorem Staged.next : ∃ r s, db.run? call.runID = some r ∧ SameRun run r ∧ r.status.terminal = run.status.terminal ∧
    (r.leasing = true → LeaseOpen db (now call) call.runID call.shardIndex.toNat (call.leaseHash P)) ∧
    db.receipt? call.runID call.shardIndex.toNat = some s ∧ s.payloadHash = call.payloadHash P ∧ s.status = .pending ∧
    PricingValid run.registration.target.pricing := by
  have hid := h.ofRun call (List.mem_append_right _ List.mem_cons_self)
  obtain ⟨r, hr, hsame, hterminal⟩ := h.registered
  obtain ⟨s, hs, hrunID, hindex, hhash, hpending⟩ := h.reserved call List.mem_cons_self
  refine ⟨r, s, Db.run?_eq_some.mpr ⟨hr, hsame.id_eq.trans hid.symm⟩, hsame, hterminal, ?_,
    Db.receipt?_eq_some.mpr ⟨hs, hrunID.trans hid.symm, hindex⟩, hhash, hpending, ?_⟩
  · intro hleasing
    obtain ⟨hqueued, hstatus⟩ := RunRow.leasing_iff.mp hleasing
    rw [hid]
    refine h.leased (hsame.registration_eq ▸ hqueued) ?_ call List.mem_cons_self
    rw [← hterminal, hstatus]
    rfl
  · exact hsame.registration_eq ▸ (hsound.runs r hr).pricing

include hsound h in
/-- The rows of the run once the cases of the next upload are inserted. -/
theorem Staged.rows_next {stored : Table CaseRow} (hstored : insertCases P call.runID call.shardIndex.toNat
      run.registration.target.pricing call.document.cases db.cases = .ok stored) :
    RowsOf P run.registration.target.pricing run.id ((done ++ [call]).flatMap (·.document.cases))
      (stored.select fun r => decide (r.runID = run.id)) := by
  have hnew := h.newCases hsound
  obtain ⟨rows, hrows, hown, heq⟩ := rows_of_insertCases hstored hnew.nodup hnew.unstored
  rw [h.ofRun call (List.mem_append_right _ List.mem_cons_self)] at hrows hown hnew
  have hselect : (stored.select fun r => decide (r.runID = run.id)) = caseRowsOf db run.id ++ rows := by
    rw [Table.select, heq, List.filter_append, List.filter_eq_self.mpr fun row hrow => decide_eq_true (hown row hrow)]
    rfl
  rw [hselect, List.flatMap_append, List.flatMap_singleton]
  exact List.rel_append h.stored
    ((List.forall₂_and_left _ _).mpr ⟨hnew.accepted, hrows.imp fun item row hrow => ⟨_, hrow⟩⟩)

theorem refreshAggregate_isOk {now wall : Time} {runID : String} {db : Db} {run : RunRow}
    (hcheck : checkAggregate (caseRowsOf db runID) = .ok ()) (hrun : db.run? runID = some run) :
    ∃ db', refreshAggregate now wall runID db = .ok db' :=
  ⟨_, then_ok_iff.mpr ⟨hcheck, bind_ok_iff.mpr ⟨run, orElse_eq_ok.mpr hrun, rfl⟩⟩⟩

include hsound h in
/-- **One upload.** It is finalized if its cases fit their rows, and the cases stored by then the summary. -/
theorem Staged.finalize_isOk_iff :
    (∃ result, call.finalize P (now call) (wall call) run.registration.target.pricing db = .ok result) ↔
      (∀ item ∈ call.document.cases, ItemFits run.registration.target.pricing item) ∧
        SumsFit run.registration.target.pricing ((done ++ [call]).flatMap (·.document.cases)) := by
  have hmem : call ∈ done ++ call :: rest := List.mem_append_right _ List.mem_cons_self
  have hid := h.ofRun call hmem
  have hpattern := (call_document (h.valid call hmem)).runID_pattern
  obtain ⟨r, s, hrun, -, -, hlease, hreceipt, hhash, hpending, hpricing⟩ := h.next hsound
  have hinsert : (∃ stored, insertCases P call.runID call.shardIndex.toNat run.registration.target.pricing
      call.document.cases db.cases = .ok stored) ↔ _ := insertCases_isOk_iff hpricing hpattern (h.newCases hsound)
  rw [← hinsert]
  constructor
  · rintro ⟨⟨_, db'⟩, hok⟩
    obtain ⟨-, hfinalize⟩ := then_ok_iff.mp hok
    obtain ⟨r', s', -, hs', -, -, hcases⟩ := finalizeShard_ok hfinalize
    cases hreceipt.symm.trans hs'
    rcases hcases with ⟨hcomplete, -⟩ | ⟨-, -, stored, hstored, hrefresh⟩
    · rw [hpending] at hcomplete
      cases hcomplete
    · simp only [refreshAggregate, then_ok_iff] at hrefresh
      rw [hid] at hrefresh
      exact ⟨⟨stored, hstored⟩, (checkAggregate_ok_iff hpricing (h.rows_next hsound hstored)).mp hrefresh.1⟩
  · rintro ⟨⟨stored, hstored⟩, hsums⟩
    have hcheck := (checkAggregate_ok_iff hpricing (h.rows_next hsound hstored)).mpr hsums
    rw [← hid] at hcheck
    obtain ⟨db', hrefresh⟩ : ∃ db', refreshAggregate (now call) (wall call) call.runID
        (completeShard call.runID call.shardIndex.toNat r.registration.queued stored db) = .ok db' :=
      refreshAggregate_isOk hcheck hrun
    refine ⟨(true, db'), then_ok_iff.mpr ⟨h.valid call hmem, ?_⟩⟩
    refine bind_ok_iff.mpr ⟨r, orElse_eq_ok.mpr hrun, then_ok_iff.mpr ⟨finalizeLease_ok_iff.mpr hlease, ?_⟩⟩
    refine bind_ok_iff.mpr ⟨s, orElse_eq_ok.mpr hreceipt, then_ok_iff.mpr ⟨?_, ?_⟩⟩
    · rw [reject_eq_ok, decide_eq_false_iff_not, not_not]
      exact hhash
    · rw [if_neg (by rw [hpending]; decide)]
      exact bind_ok_iff.mpr ⟨stored, hstored, bind_ok_iff.mpr ⟨db', hrefresh, rfl⟩⟩

include hsound h in
/-- Once the upload is finalized, the others wait as before. -/
theorem Staged.advance {created : Bool} {db' : Db}
    (hok : call.finalize P (now call) (wall call) run.registration.target.pricing db = .ok (created, db')) :
    created = true ∧ Staged P now run (done ++ [call]) rest db' := by
  have hid := h.ofRun call (List.mem_append_right _ List.mem_cons_self)
  obtain ⟨r, s, hrun, hsame, hterminal, -, hreceipt, -, hpending, -⟩ := h.next hsound
  obtain ⟨-, hfinalize⟩ := then_ok_iff.mp hok
  obtain ⟨r', s', hr', hs', -, -, hcases⟩ := finalizeShard_ok hfinalize
  cases hrun.symm.trans hr'
  cases hreceipt.symm.trans hs'
  rcases hcases with ⟨hcomplete, -⟩ | ⟨-, hcreated, stored, hstored, hrefresh⟩
  · rw [hpending] at hcomplete
    cases hcomplete
  have hrows := h.rows_next hsound hstored
  have hlist : (done ++ [call]) ++ rest = done ++ call :: rest := by rw [List.append_assoc, List.singleton_append]
  -- the shards that wait are other shards
  have hother : ∀ c ∈ rest, c.shardIndex.toNat ≠ call.shardIndex.toNat := by
    intro c hc heq
    have hshards := h.shards
    rw [List.map_cons, List.nodup_cons] at hshards
    refine hshards.1 (List.mem_map.mpr ⟨c, hc, ?_⟩)
    rw [← call_index (h.valid c (List.mem_append_right _ (List.mem_cons_of_mem _ hc))), heq,
      call_index (h.valid call (List.mem_append_right _ List.mem_cons_self))]
  obtain ⟨_, _, -, rfl⟩ := refreshAggregate_ok hrefresh
  refine ⟨hcreated, ?_⟩
  constructor
  case ofRun => exact hlist.symm ▸ h.ofRun
  case valid => exact hlist.symm ▸ h.valid
  case shards => exact (List.nodup_cons.mp h.shards).2
  case disjoint => exact hlist.symm ▸ h.disjoint
  case stored => exact hrows
  case registered =>
    obtain ⟨hr, hrid⟩ := Db.run?_eq_some.mp hrun
    refine ⟨_, Table.mem_update_of (keepsKeys_runRefresh _ _ _) hr (decide_eq_true hrid),
      hsame.trans (sameRun_refresh _ _ _ _), ?_⟩
    rw [RunRow.terminal_refresh, hterminal]
  case reserved =>
    intro c hc
    obtain ⟨t, ht, hrunID, hindex, hhash, hpend⟩ := h.reserved c (List.mem_cons_of_mem _ hc)
    refine ⟨t, Table.mem_update_of_not keepsKeys_finish ht (decide_eq_false fun hkey => ?_), hrunID, hindex, hhash, hpend⟩
    exact hother c hc (hindex.symm.trans hkey.2)
  case leased =>
    intro hqueued hopen c hc
    obtain ⟨q, hq, hqrun, hqindex, hqopen⟩ := h.leased hqueued hopen c (List.mem_cons_of_mem _ hc)
    refine ⟨q, ?_, hqrun, hqindex, hqopen⟩
    show q ∈ if r.registration.queued then _ else _
    split
    · exact Table.mem_update_of_not _ hq (decide_eq_false fun hkey => hother c hc (hqindex.symm.trans hkey.2))
    · exact hq

end Staged

/-! ## A batch in order -/

theorem exec_finalization (policy : LimitPolicy) (now wall : UploadCall → Time) (run : RunRow) (call : UploadCall)
    (db : Db) : (machine P policy).exec (finalization now wall run call) db =
      (call.finalize P (now call) (wall call) run.registration.target.pricing db).map
        fun r => (.finalized r.1, r.2) := rfl

/-- **A batch in one order** runs into no range if every upload fits together with those before it. -/
theorem Staged.inRange_iff {now wall : UploadCall → Time} {run : RunRow} {done rest : List UploadCall} {db : Db}
    (hsound : Sound P db) (h : Staged P now run done rest db) :
    (∀ entry ∈ (machine P policy).log db (rest.map (finalization now wall run)), ∀ column,
      entry.2 ≠ .error (.outOfRange column)) ↔
    ∀ before call after, rest = before ++ call :: after →
      (∀ item ∈ call.document.cases, ItemFits run.registration.target.pricing item) ∧
        SumsFit run.registration.target.pricing
          ((done ++ (before ++ [call])).flatMap (·.document.cases)) := by
  induction rest generalizing done db with
  | nil =>
    refine iff_of_true (fun _ hentry => absurd hentry List.not_mem_nil) fun before call after heq => ?_
    exact absurd heq.symm (List.append_ne_nil_of_right_ne_nil _ (List.cons_ne_nil _ _))
  | cons call rest ih =>
    have hfits : (∃ result, call.finalize P (now call) (wall call) run.registration.target.pricing db = .ok result) ↔ _ :=
      h.finalize_isOk_iff hsound
    rw [List.map_cons, Transactional.log, List.forall_mem_cons]
    cases hfinalize : call.finalize P (now call) (wall call) run.registration.target.pricing db with
    | error err =>
      have hexec : (machine P policy).exec (finalization now wall run call) db = .error err := by
        rw [exec_finalization, hfinalize]
        rfl
      have hno : ¬ ∃ result, call.finalize P (now call) (wall call) run.registration.target.pricing db = .ok result := by
        rw [hfinalize]
        rintro ⟨_, hok⟩
        cases hok
      obtain ⟨r, s, hrun, -, -, hlease, hreceipt, hhash, hpending, hpricing⟩ := h.next hsound
      obtain ⟨column, rfl⟩ := failsOnly_finalize hsound
        (h.valid call (List.mem_append_right _ List.mem_cons_self)) hrun hlease hreceipt hhash hpending hpricing
        (h.newCases hsound).unstored (wall call) err hfinalize
      refine iff_of_false (fun hall => hall.1 column (answer_error hexec)) fun hall => ?_
      exact hno (hfits.mpr (hall [] call rest rfl))
    | ok result =>
      obtain ⟨created, db'⟩ := result
      have hexec : (machine P policy).exec (finalization now wall run call) db = .ok (.finalized created, db') := by
        rw [exec_finalization, hfinalize]
        rfl
      obtain ⟨-, hnext⟩ := h.advance hsound hfinalize
      have hthis := hfits.mp ⟨_, hfinalize⟩
      rw [step_ok hexec, ih (hsound.commit (commit_of_exec hexec)) hnext]
      have hanswer : ∀ column, (machine P policy).answer db (finalization now wall run call) ≠
          .error (.outOfRange column) := by
        intro column hanswer
        rw [answer_ok hexec] at hanswer
        cases hanswer
      rw [and_iff_right hanswer]
      constructor
      · intro hrest before c after heq
        cases before with
        | nil =>
          obtain ⟨rfl, -⟩ := List.cons.inj heq
          exact hthis
        | cons first before =>
          obtain ⟨rfl, htail⟩ := List.cons.inj heq
          have hc := hrest before c after htail
          rwa [List.append_assoc, List.singleton_append] at hc
      · intro hall before c after heq
        have hc := hall (call :: before) c after (by rw [heq, List.cons_append])
        rwa [List.append_assoc, List.singleton_append]

/-! ## A batch in any order -/

theorem Staged.perm {now : UploadCall → Time} {run : RunRow} {calls order : List UploadCall} {db : Db}
    (h : Staged P now run [] calls db) (hperm : order.Perm calls) : Staged P now run [] order db where
  ofRun call hcall := h.ofRun call (hperm.mem_iff.mp hcall)
  valid call hcall := h.valid call (hperm.mem_iff.mp hcall)
  shards := (hperm.map _).nodup_iff.mpr h.shards
  disjoint := ((hperm.flatMap_right _).map _).nodup_iff.mpr h.disjoint
  registered := h.registered
  reserved call hcall := h.reserved call (hperm.mem_iff.mp hcall)
  leased hqueued hopen call hcall := h.leased hqueued hopen call (hperm.mem_iff.mp hcall)
  stored := h.stored

/-- Sums over the beginnings of the orders of a batch, where only beginnings of known cases count: all are in range if
    the sum over the uploads of known cases is. It is itself such a sum, in an order that has these uploads first. -/
theorem sums_in_range_iff {α : Type} [AddCommMonoid α] [PartialOrder α] [IsOrderedAddMonoid α]
    {calls : List UploadCall} {f : CaseResult → α} (hf : ∀ call ∈ calls, ∀ item ∈ call.document.cases, 0 ≤ f item)
    (known : CaseResult → Bool) {InRange : α → Prop} (hmono : ∀ a b, a ≤ b → InRange b → InRange a) (hzero : InRange 0) :
    (∀ order : List UploadCall, order.Perm calls → ∀ before call after, order = before ++ call :: after →
      (∀ item ∈ (before ++ [call]).flatMap fun call => call.document.cases, known item = true) →
      InRange (((before ++ [call]).flatMap (·.document.cases)).map f).sum) ↔
    InRange (((calls.filter fun call => call.document.cases.all known).flatMap (·.document.cases)).map f).sum := by
  constructor
  · intro h
    rcases List.eq_nil_or_concat (calls.filter fun call => call.document.cases.all known) with hnil | ⟨before, call, heq⟩
    · rw [hnil]
      exact hzero
    · rw [List.concat_eq_append] at heq
      have hperm := List.filter_append_perm (fun call => call.document.cases.all known) calls
      rw [heq] at hperm ⊢
      refine h _ hperm before call _ (List.append_assoc _ _ _) fun item hitem => ?_
      obtain ⟨c, hc, hitem⟩ := List.mem_flatMap.mp hitem
      have hcall : c ∈ calls.filter fun call => call.document.cases.all known := heq ▸ hc
      exact List.all_eq_true.mp (List.mem_filter.mp hcall).2 item hitem
  · intro h order hperm before call after heq hknown
    have hbegin : (before ++ [call]).Sublist (order.filter fun call => call.document.cases.all known) := by
      have hall : (before ++ [call]).filter (fun call => call.document.cases.all known) = before ++ [call] := by
        refine List.filter_eq_self.mpr fun c hc => List.all_eq_true.mpr fun item hitem => ?_
        exact hknown item (List.mem_flatMap.mpr ⟨c, hc, hitem⟩)
      have horder : order = (before ++ [call]) ++ after := by rw [heq, List.append_assoc, List.singleton_append]
      rw [← hall, horder]
      exact (List.sublist_append_left _ _).filter _
    have hsame : (((order.filter fun call => call.document.cases.all known).flatMap fun call =>
        call.document.cases).map f).sum = (((calls.filter fun call => call.document.cases.all known).flatMap
          fun call => call.document.cases).map f).sum := (((hperm.filter _).flatMap_right _).map f).sum_eq
    refine hmono _ _ ?_ (hsame ▸ h)
    refine ((hbegin.flatMap _).map f).sum_le_sum fun value hvalue => ?_
    obtain ⟨item, hitem, rfl⟩ := List.mem_map.mp hvalue
    obtain ⟨c, hc, hitem⟩ := List.mem_flatMap.mp hitem
    exact hf c (hperm.mem_iff.mp (List.mem_filter.mp hc).1) item hitem

/-- The uploads fit the columns, whatever order they come in. -/
structure ColumnsFit (pricing : Option RunPricing) (calls : List UploadCall) : Prop where
  items : ∀ call ∈ calls, ∀ item ∈ call.document.cases, ItemFits pricing item
  inputTokens : ((calls.flatMap (·.document.cases)).map (·.inputTokens)).sum ≤ maxInt64
  outputTokens : ((calls.flatMap (·.document.cases)).map (·.outputTokens)).sum ≤ maxInt64
  toolCalls : ((calls.flatMap (·.document.cases)).map (·.toolCallCount)).sum ≤ maxInt64
  modelCalls : (((calls.filter fun call => call.document.cases.all (·.modelCallCount.isSome)).flatMap fun call =>
    call.document.cases).map fun item => item.modelCallCount.getD 0).sum ≤ maxInt64
  cost : ∀ p, pricing = some p →
    (((calls.filter fun call => call.document.cases.all fun item => usageComplete item.usageComplete).flatMap fun call =>
      call.document.cases).map (caseUSD p)).sum < 10 ^ 18

/-- Every beginning of every order fits if and only if the columns do. -/
theorem columnsFit_iff {pricing : Option RunPricing} (hpricing : PricingValid pricing) {runID : String}
    {calls : List UploadCall} (haccepted : ∀ call ∈ calls, ∀ item ∈ call.document.cases, CaseAccepted runID item) :
    (∀ order : List UploadCall, order.Perm calls → ∀ before call after, order = before ++ call :: after →
      (∀ item ∈ call.document.cases, ItemFits pricing item) ∧
        SumsFit pricing ((before ++ [call]).flatMap (·.document.cases))) ↔
    ColumnsFit pricing calls := by
  have hle : ∀ a b : Int, a ≤ b → b ≤ maxInt64 → a ≤ maxInt64 := fun _ _ => le_trans
  have hlt : ∀ a b : ℚ, a ≤ b → b < 10 ^ 18 → a < 10 ^ 18 := fun _ _ => lt_of_le_of_lt
  have hevery : (calls.filter fun call => call.document.cases.all fun _ => true) = calls := by simp
  have hin := sums_in_range_iff (fun call hcall item hitem => (haccepted call hcall item hitem).inputTokens_nonneg)
    (fun _ => true) hle (by decide)
  have hout := sums_in_range_iff (fun call hcall item hitem => (haccepted call hcall item hitem).outputTokens_nonneg)
    (fun _ => true) hle (by decide)
  have htool := sums_in_range_iff (fun call hcall item hitem => (haccepted call hcall item hitem).toolCalls_nonneg)
    (fun _ => true) hle (by decide)
  rw [hevery] at hin hout htool
  have hcounts : ∀ call ∈ calls, ∀ item ∈ call.document.cases, 0 ≤ item.modelCallCount.getD 0 := by
    intro call hcall item hitem
    cases hcount : item.modelCallCount with
    | none => exact le_refl _
    | some n => exact (haccepted call hcall item hitem).modelCalls_nonneg n hcount
  have hmodel := sums_in_range_iff hcounts (·.modelCallCount.isSome) hle (by decide)
  have hcost := fun p (hp : pricing = some p) => sums_in_range_iff
    (fun call hcall item hitem => (caseUSD_parts hpricing (haccepted call hcall item hitem) hp).2.2.nonneg)
    (fun item => usageComplete item.usageComplete) hlt (by norm_num)
  constructor
  · intro h
    constructor
    case items =>
      intro call hcall
      obtain ⟨before, after, heq⟩ := List.append_of_mem hcall
      exact (h calls (List.Perm.refl _) before call after heq).1
    case inputTokens =>
      exact hin.mp fun order hperm before call after heq _ => (h order hperm before call after heq).2.inputTokens
    case outputTokens =>
      exact hout.mp fun order hperm before call after heq _ => (h order hperm before call after heq).2.outputTokens
    case toolCalls =>
      exact htool.mp fun order hperm before call after heq _ => (h order hperm before call after heq).2.toolCalls
    case modelCalls =>
      exact hmodel.mp fun order hperm before call after heq => (h order hperm before call after heq).2.modelCalls
    case cost =>
      exact fun p hp => (hcost p hp).mp fun order hperm before call after heq =>
        (h order hperm before call after heq).2.cost p hp
  · intro h order hperm before call after heq
    refine ⟨h.items call (hperm.mem_iff.mp (heq ▸ List.mem_append_right _ List.mem_cons_self)), ?_⟩
    constructor
    case inputTokens => exact hin.mpr h.inputTokens order hperm before call after heq fun _ _ => rfl
    case outputTokens => exact hout.mpr h.outputTokens order hperm before call after heq fun _ _ => rfl
    case toolCalls => exact htool.mpr h.toolCalls order hperm before call after heq fun _ _ => rfl
    case modelCalls => exact hmodel.mpr h.modelCalls order hperm before call after heq
    case cost => exact fun p hp => (hcost p hp).mpr (h.cost p hp) order hperm before call after heq

/-- **Accepted uploads and their columns.** Uploads of distinct shards and cases are reserved in a reachable database,
    and are now finalized one after the other. No order of them runs into a column range exactly when the columns fit:
    every iteration, every cost of a case, the token and tool call sums over all uploads, and the model call and cost
    sums over those uploads in which they are all known. -/
theorem finalizing_in_range (P : Platform) (policy : LimitPolicy) (es : List Txn) (now wall : UploadCall → Time)
    (run : RunRow) (calls : List UploadCall) (h : Staged P now run [] calls ((machine P policy).run Db.empty es)) :
    (∀ order : List UploadCall, order.Perm calls →
      ∀ entry ∈ (machine P policy).log ((machine P policy).run Db.empty es) (order.map (finalization now wall run)),
        ∀ column, entry.2 ≠ .error (.outOfRange column)) ↔
    ColumnsFit run.registration.target.pricing calls := by
  have hsound : Sound P ((machine P policy).run Db.empty es) := sound_run es
  obtain ⟨r, hr, hsame, -⟩ := h.registered
  have hpricing : PricingValid run.registration.target.pricing := hsame.registration_eq ▸ (hsound.runs r hr).pricing
  have haccepted : ∀ call ∈ calls, ∀ item ∈ call.document.cases, CaseAccepted run.id item := by
    intro call hcall item hitem
    rw [← h.ofRun call hcall]
    exact (call_document (h.valid call hcall)).cases_accepted item hitem
  rw [← columnsFit_iff hpricing haccepted]
  exact forall_congr' fun order => imp_congr_right fun hperm => (h.perm hperm).inRange_iff hsound

/-! ## Every batch can be staged -/

/-- The receipts of a run are those of the calls so far. -/
structure Reserving (P : Platform) (run : RunRow) (calls : List UploadCall) (db : Db) : Prop where
  sound : Sound P db
  registered : run ∈ db.runs
  back : ∀ s ∈ db.receipts, s.runID = run.id → ∃ call ∈ calls, s = call.receipt P
  forth : ∀ call ∈ calls, call.receipt P ∈ db.receipts

section Reserving

variable {run : RunRow} (hqueued : run.registration.queued = false)

include hqueued in
/-- A run without a queue takes an upload for another one of its shards. -/
theorem Reserving.reserve {calls : List UploadCall} {db : Db} (h : Reserving P run calls db) {call : UploadCall}
    (hid : call.runID = run.id) (hvalid : call.validate P = .ok ()) (hindex : call.shardIndex.toNat < run.expectedShards)
    (hnew : ∀ c ∈ calls, c.shardIndex.toNat ≠ call.shardIndex.toNat) (now wall : Time) :
    Reserving P run (calls ++ [call]) ((machine P policy).step db ⟨.reserveShard call, now, wall⟩) := by
  have hrun : db.run? call.runID = some run := Db.run?_eq_some.mpr ⟨h.registered, hid.symm⟩
  have hnone : db.receipt? call.runID call.shardIndex.toNat = none := by
    refine Option.eq_none_iff_forall_not_mem.mpr fun s hs => ?_
    obtain ⟨hmem, hrunID, hshard⟩ := Db.receipt?_eq_some.mp hs
    obtain ⟨c, hc, rfl⟩ := h.back s hmem (hrunID.trans hid)
    exact hnew c hc hshard
  obtain ⟨receipts, hins, hstore⟩ : ∃ receipts, db.receipts.insert (call.receipt P) = some receipts ∧
      storeReceipt run (call.receipt P) db = .ok (_, { db with receipts := receipts }) :=
    storeReceipt_new h.sound hvalid hnone
  have hlease : reserveLease now run call.runID call.shardIndex.toNat (call.leaseHash P) db = .ok () := by
    refine reserveLease_ok_iff.mpr fun hleasing => ?_
    rw [RunRow.leasing_iff, hqueued] at hleasing
    exact absurd hleasing.1 Bool.false_ne_true
  have hexec : (machine P policy).exec ⟨.reserveShard call, now, wall⟩ db =
      .ok (.reserved ⟨false, run.registration.target.pricing⟩, { db with receipts := receipts }) := by
    show (call.reserve P now db).map _ = _
    rw [reserve_eq hvalid hrun hindex, hlease]
    show (storeReceipt run (call.receipt P) db).map _ = _
    rw [hstore]
    rfl
  rw [step_ok hexec]
  refine ⟨h.sound.commit (commit_of_exec hexec), h.registered, fun s hs hrunID => ?_, fun c hc => ?_⟩
  · rcases (Table.mem_of_insert hins).mp hs with hold | rfl
    · obtain ⟨c, hc, heq⟩ := h.back s hold hrunID
      exact ⟨c, List.mem_append_left _ hc, heq⟩
    · exact ⟨call, List.mem_append_right _ (List.mem_singleton_self call), rfl⟩
  · rcases List.mem_append.mp hc with hc | hc
    · exact (Table.mem_of_insert hins).mpr (Or.inl (h.forth c hc))
    · obtain rfl := List.mem_singleton.mp hc
      exact (Table.mem_of_insert hins).mpr (Or.inr rfl)

/-- The transaction that reserves an upload. -/
def reserveAt (now : Time) (call : UploadCall) : Txn := ⟨.reserveShard call, now, now⟩

include hqueued in
/-- All of them are reserved, one after the other. -/
theorem reserving_run {calls : List UploadCall} {db : Db} (hsound : Sound P db) (hrun : run ∈ db.runs)
    (hunused : ∀ s ∈ db.receipts, s.runID ≠ run.id)
    (hcalls : ∀ call ∈ calls, call.runID = run.id ∧ call.validate P = .ok () ∧ call.shardIndex < run.expectedShards)
    (hshards : (calls.map fun call => call.shardIndex).Nodup) (reserved : Time) :
    Reserving P run calls ((machine P policy).run db (calls.map (reserveAt reserved))) := by
  induction calls using List.reverseRecOn with
  | nil =>
    exact ⟨hsound, hrun, fun s hs hid => absurd hid (hunused s hs), fun _ hc => absurd hc List.not_mem_nil⟩
  | append_singleton calls call ih =>
    have hold : ∀ c ∈ calls, c ∈ calls ++ [call] := fun c hc => List.mem_append_left _ hc
    have hcall : call ∈ calls ++ [call] := List.mem_append_right _ (List.mem_singleton_self call)
    rw [List.map_append, List.nodup_append] at hshards
    obtain ⟨hid, hvalid, hindex⟩ := hcalls call hcall
    rw [List.map_append, List.map_singleton, run_concat]
    refine Reserving.reserve hqueued (ih (fun c hc => hcalls c (hold c hc)) hshards.1) hid hvalid ?_ ?_ _ _
    · rw [← call_index hvalid] at hindex
      exact_mod_cast hindex
    · intro c hc heq
      refine hshards.2.2 _ (List.mem_map_of_mem hc) _ (List.mem_map_of_mem (List.mem_singleton_self call)) ?_
      rw [← call_index (hcalls c (hold c hc)).2.1, heq, call_index hvalid]

include hqueued in
/-- **Every batch can be staged**: accepted uploads for distinct shards of a registered run that has no queue, and
    nothing uploaded yet, can all be reserved. -/
theorem staged_reservations {calls : List UploadCall} {db : Db} (hsound : Sound P db) (hrun : run ∈ db.runs)
    (hunused : ∀ s ∈ db.receipts, s.runID ≠ run.id)
    (hcalls : ∀ call ∈ calls, call.runID = run.id ∧ call.validate P = .ok () ∧ call.shardIndex < run.expectedShards)
    (hshards : (calls.map fun call => call.shardIndex).Nodup)
    (hdisjoint : ((calls.flatMap (·.document.cases)).map fun item => (item.caseID, item.iteration)).Nodup)
    (now : UploadCall → Time) (reserved : Time) :
    Staged P now run [] calls ((machine P policy).run db (calls.map (reserveAt reserved))) := by
  have h : Reserving P run calls ((machine P policy).run db (calls.map (reserveAt reserved))) :=
    reserving_run hqueued hsound hrun hunused hcalls hshards reserved
  generalize (machine P policy).run db (calls.map (reserveAt reserved)) = db' at h
  constructor
  case ofRun => exact fun call hcall => (hcalls call hcall).1
  case valid => exact fun call hcall => (hcalls call hcall).2.1
  case shards => exact hshards
  case disjoint => exact hdisjoint
  case registered => exact ⟨run, h.registered, SameRun.refl run, rfl⟩
  case reserved => exact fun call hcall => ⟨call.receipt P, h.forth call hcall, (hcalls call hcall).1, rfl, rfl, rfl⟩
  case leased => exact fun hqueue => absurd (hqueued.symm.trans hqueue) Bool.false_ne_true
  case stored =>
    -- a case would need a complete receipt
    have hnone : caseRowsOf db' run.id = [] := by
      refine List.eq_nil_iff_forall_not_mem.mpr fun row hrow => ?_
      obtain ⟨hmem, hid⟩ := Table.mem_select.mp hrow
      obtain ⟨s, hs, hsrun, -, hcomplete⟩ := (h.sound.cases row hmem).receipt
      obtain ⟨_, -, rfl⟩ := h.back s hs (hsrun.trans (of_decide_eq_true hid))
      cases hcomplete
    rw [hnone]
    exact List.Forall₂.nil

end Reserving

/-- A run of two shards. -/
def twoShards (P : Platform) : RunRow :=
  newRun 0 "run" (registrationKey "run") (P.registrationHash (.reference "suite" "indexed" 2))
    (.reference "suite" "indexed" 2)

/-- It is registered, and the uploads are reserved. -/
def reservations (calls : List UploadCall) : List Txn :=
  registerAt 0 "run" (.reference "suite" "indexed" 2) :: calls.map (reserveAt 1)

/-- Two shards with a case each can be finalized in both orders. -/
theorem finalizing_in_range_two :
    let P := Platform.reference [.single "run" "first", .single "run" "second"]
    let calls : List UploadCall :=
      [.reference "run" 0 "" (.single "run" "first"), .reference "run" 1 "" (.single "run" "second")]
    let db := (machine P .unlimited).run Db.empty (reservations calls)
    ∀ order : List UploadCall, order.Perm calls →
      ∀ entry ∈ (machine P .unlimited).log db (order.map (finalization (fun _ => 2) (fun _ => 2) (twoShards P))),
        ∀ column, entry.2 ≠ .error (.outOfRange column) := by
  intro P calls db
  have hrun : twoShards P ∈ ((machine P .unlimited).step Db.empty
      (registerAt 0 "run" (.reference "suite" "indexed" 2))).runs.rows := by decide +kernel
  have hstaged : Staged P (fun _ => 2) (twoShards P) [] calls db :=
    staged_reservations rfl sound_empty.step hrun (by decide +kernel) (by decide +kernel) (by decide +kernel)
      (by decide +kernel) _ 1
  refine (finalizing_in_range P .unlimited (reservations calls) (fun _ => 2) (fun _ => 2) (twoShards P) calls hstaged).mpr ?_
  refine ⟨?_, by decide +kernel, by decide +kernel, by decide +kernel, by decide +kernel, fun p hp => nomatch hp⟩
  have hiterations : ∀ call ∈ calls, ∀ item ∈ call.document.cases, item.iteration < 2 ^ 31 := by decide +kernel
  exact fun call hcall item hitem => ⟨hiterations call hcall item hitem, fun p hp => nomatch hp⟩

/-- An upload whose only case is the 2³¹-th iteration. -/
def lateIteration : ShardUpload :=
  { ShardUpload.single "run" "case" with
    cases := [{ CaseResult.reference "run" "case" with
      iteration := 2 ^ 31, idempotencyKey := caseKey "run" "case" (2 ^ 31) }] }

/-- It passes validation and is reserved, and can never be finalized: the `integer` column ends one iteration before. -/
theorem finalizing_out_of_range :
    let P := Platform.reference [lateIteration]
    let calls : List UploadCall := [.reference "run" 0 "" lateIteration]
    let db := (machine P .unlimited).run Db.empty (reservations calls)
    Staged P (fun _ => 2) (twoShards P) [] calls db ∧
    ¬ ∀ order : List UploadCall, order.Perm calls →
      ∀ entry ∈ (machine P .unlimited).log db (order.map (finalization (fun _ => 2) (fun _ => 2) (twoShards P))),
        ∀ column, entry.2 ≠ .error (.outOfRange column) := by
  intro P calls db
  have hrun : twoShards P ∈ ((machine P .unlimited).step Db.empty
      (registerAt 0 "run" (.reference "suite" "indexed" 2))).runs.rows := by decide +kernel
  refine ⟨staged_reservations rfl sound_empty.step hrun (by decide +kernel) (by decide +kernel) (by decide +kernel)
    (by decide +kernel) _ 1, fun h => ?_⟩
  have hanswer : (machine P .unlimited).answer db (finalization (fun _ => 2) (fun _ => 2) (twoShards P)
      (.reference "run" 0 "" lateIteration)) = .error (.outOfRange "iteration") := by decide +kernel
  exact h calls (List.Perm.refl _) _ List.mem_cons_self "iteration" hanswer

end AgentStorm.Results
