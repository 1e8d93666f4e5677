import AgentStorm.Worker.Aggregation

/-!
# `Worker.Thresholds` — two verdicts on one run

For a run of one shard the worker and the API see the same cases and the same rates. The 95th
percentile is another matter: the worker takes the latency at rank `⌈0.95 · n⌉`, the database
interpolates at `0.95 · (n - 1)`. `verdicts_agree_iff`: a rate is missed, or the limit does not lie in
the gap between two neighbouring latencies that `Divides` describes. There is no gap for 1, 21, 41, …
results.
-/

namespace AgentStorm.Worker

open Checks Machine Numeric Relational Results

/-- The thresholds of the worker as `buildResultRegistration` registers them, with exact numbers. -/
def registeredEvaluation (evaluation : EvaluationConfig) : Evaluation where
  minSuccessRate := evaluation.minSuccessRate.map .finite
  maxP95MS := evaluation.maxP95LatencyMS.map .finite
  maxFailureRate := evaluation.maxErrorRate.map .finite

/-! ## Percentiles -/

variable {values : List ℚ}

/-- The value at this place when the values are ordered, the smallest at 0. -/
def orderStatistic (values : List ℚ) (i : Nat) : ℚ := (values.insertionSort (· ≤ ·)).getD i 0

theorem orderStatistic_le {i j : Nat} (hij : i ≤ j) (hj : j < values.length) :
    orderStatistic values i ≤ orderStatistic values j := by
  have hlength : (values.insertionSort (· ≤ ·)).length = values.length := List.length_insertionSort _ _
  unfold orderStatistic
  rw [List.getD_eq_getElem _ _ (by omega), List.getD_eq_getElem _ _ (by omega)]
  exact List.sortedLE_insertionSort.getElem_le_getElem_of_le hij

/-- The place of the percentile, `19 · (n - 1) / 20`, lies `r / 20` above a whole one. -/
theorem percentileCont_eq {k r : Nat} (hk : 19 * (values.length - 1) = 20 * k + r) (hr : r < 20)
    (hne : values ≠ []) :
    percentileCont (95 / 100) values =
      orderStatistic values k + r / 20 * (orderStatistic values (k + 1) - orderStatistic values k) := by
  have hpos : 1 ≤ values.length := List.length_pos_iff.mpr hne
  have hposition : (95 / 100 : ℚ) * ((values.length : ℚ) - 1) = k + r / 20 := by
    have hcast : (19 : ℚ) * (values.length - 1) = 20 * k + r := by exact_mod_cast congrArg (Nat.cast : Nat → ℚ) hk
    linarith
  have hfloor : ((k : ℚ) + r / 20).floor = (k : Int) := by
    have hr' : (r : ℚ) < 20 := by exact_mod_cast hr
    refine le_antisymm (Int.lt_add_one_iff.mp (Rat.floor_lt_iff.mpr ?_)) (Rat.le_floor_iff.mpr ?_)
    · push_cast
      linarith
    · push_cast
      have : (0 : ℚ) ≤ r := Nat.cast_nonneg r
      linarith
  unfold percentileCont
  simp only [List.length_insertionSort, hposition, hfloor, Int.toNat_natCast, Int.cast_natCast, add_sub_cancel_left]
  rcases Nat.eq_zero_or_pos r with rfl | hrpos
  · simp [orderStatistic]
  · have hceil : ((k : ℚ) + r / 20).ceil = (k : Int) + 1 := by
      have hr' : (r : ℚ) < 20 := by exact_mod_cast hr
      have hr0 : (0 : ℚ) < r := by exact_mod_cast hrpos
      refine le_antisymm (Rat.ceil_le_iff.mpr ?_) (Int.add_one_le_iff.mpr (Rat.lt_ceil_iff.mpr ?_))
      · push_cast
        linarith
      · push_cast
        linarith
    have hnext : ((k : Int) + 1).toNat = k + 1 := by omega
    rw [hceil, hnext]
    rfl

theorem percentileCont_perm {p : ℚ} {values' : List ℚ} (h : values.Perm values') :
    percentileCont p values = percentileCont p values' := by
  have hsorted : values.insertionSort (· ≤ ·) = values'.insertionSort (· ≤ ·) := by
    refine List.Perm.eq_of_sortedLE (List.sortedLE_insertionSort) (List.sortedLE_insertionSort) ?_
    exact (List.perm_insertionSort _ _).trans (h.trans (List.perm_insertionSort _ _).symm)
  rw [percentileCont, percentileCont, hsorted]

/-- The worker's percentile, in the order in which the database sorts. -/
theorem p95_eq (latencies : List ℚ≥0) :
    (p95 latencies : ℚ) =
      orderStatistic (latencies.map fun l : ℚ≥0 => (l : ℚ)) ((latencies.length * 95 + 99) / 100 - 1) := by
  have hcast : (latencies.map fun l : ℚ≥0 => (l : ℚ)).insertionSort (· ≤ ·) =
      (latencies.insertionSort (· ≤ ·)).map fun l : ℚ≥0 => (l : ℚ) :=
    (List.map_insertionSort (· ≤ ·) (· ≤ ·) (fun l : ℚ≥0 => (l : ℚ)) latencies
      fun a _ b _ => (NNRat.coe_le_coe (p := a) (q := b)).symm).symm
  rw [p95, orderStatistic, List.mergeSort_eq_insertionSort, hcast, List.getD_eq_getElem?_getD, List.getElem?_map]
  cases (latencies.insertionSort (· ≤ ·))[(latencies.length * 95 + 99) / 100 - 1]? with
  | none => rfl
  | some => rfl

/-- The limit lies between the two percentiles of these latencies. With `k = ⌊19 · (n - 1) / 20⌋`, the database is at most
    a twentieth of the way from the `k`-th latency to the next above it for 20, 40, … latencies, where the worker takes
    the `k`-th; it is short of the next, which the worker takes, for all others but 1, 21, 41, …. -/
def Divides (limit : ℚ) (latencies : List ℚ) : Prop :=
  let lower := orderStatistic latencies (19 * (latencies.length - 1) / 20)
  let upper := orderStatistic latencies (19 * (latencies.length - 1) / 20 + 1)
  match latencies.length % 20 with
  | 0 => lower ≤ limit ∧ limit < lower + 1 / 20 * (upper - lower)
  | 1 => False
  | m + 2 => lower + ((19 : ℚ) - m) / 20 * (upper - lower) ≤ limit ∧ limit < upper

theorem le_iff_le_iff {a b limit : ℚ} (h : a ≤ b) : ((a ≤ limit ↔ b ≤ limit) ↔ ¬(a ≤ limit ∧ limit < b)) := by
  rw [not_and, not_lt]
  exact ⟨Iff.mp, fun hb => ⟨hb, h.trans⟩⟩

/-- The two percentiles are on one side of the limit exactly if it does not lie between them. -/
theorem not_divides_iff (hne : values ≠ []) (limit : ℚ) :
    (percentileCont (95 / 100) values ≤ limit ↔
      orderStatistic values ((values.length * 95 + 99) / 100 - 1) ≤ limit) ↔ ¬Divides limit values := by
  have hpos : 0 < values.length := List.length_pos_iff.mpr hne
  unfold Divides
  dsimp only
  generalize hlower : 19 * (values.length - 1) / 20 = k
  split
  · -- 20, 40, … latencies: the worker takes the lower one, the database is a little above it
    have hrank : (values.length * 95 + 99) / 100 - 1 = k := by omega
    have hle : orderStatistic values k ≤ orderStatistic values (k + 1) := orderStatistic_le (by omega) (by omega)
    rw [hrank, @percentileCont_eq values k 1 (by omega) (by omega) hne, Nat.cast_one]
    exact Iff.trans iff_comm (le_iff_le_iff (by linarith))
  · -- 1, 21, 41, …: both take the same
    have hrank : (values.length * 95 + 99) / 100 - 1 = k := by omega
    rw [hrank, @percentileCont_eq values k 0 (by omega) (by omega) hne]
    simp
  · -- otherwise the worker takes the upper one, which the database does not reach
    rename_i m hm
    obtain ⟨b, hb⟩ : ∃ b, values.length = 20 * b + m + 2 := ⟨values.length / 20, by omega⟩
    have hplace : 19 * (values.length - 1) = 20 * (19 * b + m) + (19 - m) := by omega
    have hk : 19 * b + m = k := by
      rw [← hlower, hplace, Nat.mul_add_div (by decide), Nat.div_eq_of_lt (by omega), Nat.add_zero]
    have hrank : (values.length * 95 + 99) / 100 - 1 = k + 1 := by
      have hscaled : values.length * 95 + 99 = 100 * (k + 2) + (89 - 5 * m) := by omega
      rw [hscaled, Nat.mul_add_div (by decide), Nat.div_eq_of_lt (by omega)]
      rfl
    have hle : orderStatistic values k ≤ orderStatistic values (k + 1) := orderStatistic_le (by omega) (by omega)
    have hshare : ((19 - m : Nat) : ℚ) = 19 - m := Nat.cast_sub (by omega)
    rw [hrank, @percentileCont_eq values k (19 - m) (by omega) (by omega) hne, hshare]
    refine le_iff_le_iff ?_
    have hm0 : (0 : ℚ) ≤ m := Nat.cast_nonneg m
    nlinarith

/-! ## The two verdicts -/

variable {evaluation : EvaluationConfig}

theorem latencyMS_of_caseRow {runID hash : String} {shardIndex : Nat} {item : Results.CaseResult} {row : CaseRow}
    (h : caseRow runID shardIndex hash item = .ok row) : item.latencyMS.finite? = some row.latencyMS := by
  obtain ⟨-, _, _, _, _, hlatency, -, -, -, rfl⟩ := caseRow_eq h
  exact hlatency

theorem latencyMS_of_storedAs {P : Platform} {sensitive : Bool} {runID : String} {shardIndex : Nat} {result : CaseResult}
    {row : CaseRow} (h : StoredAs P runID shardIndex (normalizeCase (casePayload sensitive runID result)) row) :
    row.latencyMS = result.latencyMS := by
  obtain ⟨_, _, hpriced, hrow⟩ := h
  obtain ⟨_, _, hnormal⟩ := normalizeCase_casePayload sensitive runID result
  rw [hnormal] at hpriced
  obtain ⟨_, rfl⟩ := priceCase_ok hpriced
  exact (Option.some.inj (latencyMS_of_caseRow hrow)).symm

/-- The rates that the thresholds ask for are met. -/
def RatesMet (evaluation : EvaluationConfig) (successRate errorRate : ℚ) : Prop :=
  (∀ limit ∈ evaluation.minSuccessRate, limit ≤ successRate) ∧ ∀ limit ∈ evaluation.maxErrorRate, errorRate ≤ limit

/-- The share of the results of this kind. -/
def share (p : CaseResult → Bool) (results : List CaseResult) : ℚ := (results.countP p : ℚ) / results.length

variable {results : List CaseResult}

/-- The rates of the worker's summary are shares of its results. -/
theorem summarize_rates (hne : results ≠ []) (evaluation : EvaluationConfig) (durationMS : ℚ≥0) :
    (summarize results evaluation durationMS).successRate = share (·.success) results ∧
    (summarize results evaluation durationMS).errorRate = share (!·.success) results := by
  have htotal : results.length ≠ 0 := fun h => hne (List.length_eq_zero_iff.mp h)
  have hsucceeded : (results.filter (·.success)).length = results.countP (·.success) := List.countP_eq_length_filter.symm
  have hfailed : results.length - results.countP (·.success) = results.countP (!·.success) := by
    rw [List.length_eq_countP_add_countP (·.success), Nat.add_sub_cancel_left]
    exact List.countP_congr fun r _ => by cases r.success <;> simp
  constructor
  · change (if results.length = 0 then (0 : ℚ) else _) = _
    rw [if_neg htotal, hsucceeded]
    rfl
  · change (if results.length = 0 then (0 : ℚ) else _) = _
    rw [if_neg htotal, hsucceeded, hfailed]
    rfl

theorem thresholdsPassed_iff {aggregate : Aggregate} :
    thresholdsPassed aggregate (registeredEvaluation evaluation) = true ↔
      RatesMet evaluation aggregate.successRate aggregate.failureRate ∧
        ∀ limit ∈ evaluation.maxP95LatencyMS, aggregate.p95MS ≤ limit := by
  have hclause : ∀ (limit : Option ℚ) (test : Float64 → Bool),
      (!(limit.map Float64.finite).any test) = true ↔ ∀ l ∈ limit, test (.finite l) = false := by
    intro limit test
    cases limit with
    | none => simp
    | some => simp
  simp [thresholdsPassed, registeredEvaluation, hclause, RatesMet, Float64.gt, Float64.lt]

theorem summarize_passed_iff {durationMS : ℚ≥0} :
    (summarize results evaluation durationMS).thresholdsPassed = true ↔
      RatesMet evaluation (summarize results evaluation durationMS).successRate
          (summarize results evaluation durationMS).errorRate ∧
        ∀ limit ∈ evaluation.maxP95LatencyMS, (p95 (results.map (·.latencyMS)) : ℚ) ≤ limit := by
  rw [RatesMet, and_assoc]
  exact thresholdFailures_isEmpty_iff

/-- Equal counts give equal rates. -/
theorem Agrees.rates {rows : List CaseRow} {passed : Bool} {durationMS : ℚ≥0}
    (h : Agrees { aggregateRows rows with thresholdsPassed := passed } (summarize results evaluation durationMS)) :
    (aggregateRows rows).successRate = (summarize results evaluation durationMS).successRate ∧
      (aggregateRows rows).failureRate = (summarize results evaluation durationMS).errorRate := by
  have hratio : ∀ part total : Nat, ratio part total = if total = 0 then (0 : ℚ) else part / total := by
    intro part total
    by_cases htotal : total = 0
    · rw [if_pos htotal, ratio, if_neg (by omega)]
    · rw [if_neg htotal, ratio, if_pos (by omega), Int.cast_natCast, Int.cast_natCast]
  constructor
  · show ratio (aggregateRows rows).succeeded (aggregateRows rows).total = _
    rw [h.succeeded, h.total, hratio]
    rfl
  · show ratio (aggregateRows rows).failed (aggregateRows rows).total = _
    rw [h.failed, h.total, hratio]
    rfl

/-- **When the verdicts agree.** In any history after which the one shard of a run is complete, with the results that its
    worker uploaded and the thresholds that the worker has, the API has stored a verdict. It is the worker's exactly if a
    rate is missed, so that both say no, or the latency limit does not divide the results. -/
theorem verdicts_agree_iff (P : Platform) (policy : LimitPolicy) (runID : String) (sensitive : Bool) (es : List Txn)
    (results : List CaseResult) (evaluation : EvaluationConfig) (durationMS : ℚ≥0) (hne : results ≠ [])
    (hdistinct : (results.map (·.identity)).Nodup)
    (hregistered : ∀ run ∈ ((machine P policy).run Db.empty es).runs, run.id = runID →
      run.registration.evaluation = registeredEvaluation evaluation)
    (huploads : ∀ call ∈ uploadCalls es, call.runID = runID → Uploads sensitive [results] call)
    (hlast : completedShards ((machine P policy).run Db.empty es) runID = 1) :
    ∃ stored, ((machine P policy).run Db.empty es).summary? runID = some stored ∧
      (stored.aggregate.thresholdsPassed = (summarize results evaluation durationMS).thresholdsPassed ↔
        (RatesMet evaluation (share (·.success) results) (share (!·.success) results) →
          ∀ limit ∈ evaluation.maxP95LatencyMS, ¬Divides limit (results.map fun r => (r.latencyMS : ℚ)))) := by
  have hjudged := judged_run P policy es
  obtain ⟨shown, _, _, hperm, hstored, haggregate, hsummary, hagrees⟩ := summary_of_parts hne hdistinct
    (List.Perm.of_eq List.flatten_singleton) huploads hlast evaluation durationMS
  subst haggregate
  generalize (machine P policy).run Db.empty es = db at hjudged hstored hsummary hagrees hregistered ⊢
  -- what the database orders is what the worker orders
  have hlatencies : ((caseRowsOf db runID).map (·.latencyMS)).Perm (results.map fun r => (r.latencyMS : ℚ)) := by
    have heq : (caseRowsOf db runID).map (·.latencyMS) = shown.map fun r => (r.latencyMS : ℚ) := by
      refine map_eq_of_forall₂ hstored fun result row hrow => ?_
      obtain ⟨i, hrow⟩ := hrow
      exact latencyMS_of_storedAs hrow
    rw [heq]
    exact hperm.map _
  have hp95 : (aggregateRows (caseRowsOf db runID)).p95MS =
      percentileCont (95 / 100) (results.map fun r => (r.latencyMS : ℚ)) := percentileCont_perm hlatencies
  obtain ⟨run, hrun, hid, hpassed⟩ := hjudged runID _ hsummary
  obtain ⟨hsuccess, herror⟩ := hagrees.rates
  obtain ⟨hsuccessShare, herrorShare⟩ := summarize_rates hne evaluation durationMS
  have hworker : (p95 (results.map (·.latencyMS)) : ℚ) =
      orderStatistic (results.map fun r => (r.latencyMS : ℚ)) ((results.length * 95 + 99) / 100 - 1) := by
    rw [p95_eq, List.map_map, List.length_map]
    rfl
  refine ⟨_, hsummary, ?_⟩
  rw [hpassed, hregistered run hrun hid, Bool.eq_iff_iff, thresholdsPassed_iff, summarize_passed_iff, hsuccess, herror,
    hp95, hsuccessShare, herrorShare, hworker, and_congr_right_iff]
  refine imp_congr_right fun _ => ?_
  have hsides (limit : ℚ) := @not_divides_iff (results.map fun r => (r.latencyMS : ℚ)) (by simpa using hne) limit
  rw [List.length_map] at hsides
  cases evaluation.maxP95LatencyMS with
  | none => simp
  | some limit => simpa using hsides limit

/-- A run of one shard with these thresholds and results. -/
def oneShardRun (evaluation : EvaluationConfig) (results : List CaseResult) : List Txn :=
  let call := UploadCall.reference "run" 0 "" (shardPayload false "run" results (summarize results evaluation fiveMillis))
  [registerAt 0 "run" { Registration.reference "suite" "indexed" 1 with evaluation := registeredEvaluation evaluation },
    ⟨.reserveShard call, 1, 1⟩, ⟨.finalizeShard call none, 2, 2⟩]

theorem uploads_oneShardRun (evaluation : EvaluationConfig) (results : List CaseResult) :
    ∀ call ∈ uploadCalls (oneShardRun evaluation results), call.runID = "run" → Uploads false [results] call := by
  intro call hcall _
  simp only [uploadCalls, oneShardRun, registerAt, List.filterMap_cons, List.filterMap_nil, Op.call?, List.mem_cons,
    List.not_mem_nil, or_false, or_self] at hcall
  subst hcall
  exact ⟨_, _, rfl, rfl⟩

/-- A case that takes its time. -/
def slowRun : CaseRun (fun _ => 0) none :=
  ⟨"case", 3, { oneAttempt ⟨[], .ok ⟨"ok", some 3, some 2, some 1, none, "", none⟩⟩ (some []) with latencyMS := 106 }, _, rfl⟩

/-- Two cases, the slower exactly as slow as it may be: both verdicts are that the run passed. -/
theorem verdicts_agree_two :
    let results := [unmeteredRun.result, slowRun.result]
    let evaluation : EvaluationConfig := ⟨some (1 / 2), some 0, some 106⟩
    ∃ stored, ((machine (.reference []) .unlimited).run Db.empty (oneShardRun evaluation results)).summary? "run" =
        some stored ∧
      stored.aggregate.thresholdsPassed = (summarize results evaluation 9).thresholdsPassed := by
  intro results evaluation
  have hregistered : ∀ run ∈ ((machine (.reference []) .unlimited).run Db.empty (oneShardRun evaluation results)).runs.rows,
      run.id = "run" → run.registration.evaluation = registeredEvaluation evaluation := by decide +kernel
  obtain ⟨stored, hstored, hverdict⟩ := verdicts_agree_iff (.reference []) .unlimited "run" false
    (oneShardRun evaluation results) results evaluation 9 (List.cons_ne_nil _ _) (by decide) hregistered
    (uploads_oneShardRun evaluation results) (by decide +kernel)
  refine ⟨stored, hstored, hverdict.mpr fun _ limit hlimit hdivides => ?_⟩
  obtain rfl : (106 : ℚ) = limit := Option.some.inj hlimit
  -- the limit is the upper latency itself
  exact absurd hdivides.2 (by decide +kernel)

/-- **A worker that fails in a run that passed.** Of two cases, one takes 6 ms and one 106 ms. The worker's percentile is
    the latter, the interpolated one is 101 ms, and 103 ms are allowed. -/
theorem verdicts_disagree_two :
    let results := [unmeteredRun.result, slowRun.result]
    let evaluation : EvaluationConfig := ⟨none, none, some 103⟩
    let db := (machine (.reference []) .unlimited).run Db.empty (oneShardRun evaluation results)
    (db.run? "run").map (·.status) = some .complete ∧
      (db.summary? "run").map (·.aggregate.thresholdsPassed) = some true ∧
      (summarize results evaluation 9).thresholdsPassed = false := by
  refine ⟨by decide +kernel, by decide +kernel, ?_⟩
  rw [← Bool.not_eq_true, summarize_passed_iff]
  rintro ⟨-, hlimit⟩
  have hslow := hlimit 103 rfl
  rw [p95_eq] at hslow
  exact absurd hslow (by decide +kernel)

end AgentStorm.Worker
