import AgentStorm.Results.Reference
import AgentStorm.Results.Sound
import AgentStorm.Worker.Payload

/-!
# `Worker.Agreement` — which results the Result API accepts from the worker

`executeCase` and `casePayload` on one side and the case and summary checks of `validateShard` on the
other. `validateCase_iff` decides a result that is `WellFormed`, as every result of `executeCase` is.
What remains open is `CaseResultOf.Deliverable`: rule names and sensitive texts the columns can hold,
and a failed assertion behind each failure of kind `assertion`. An agent that exceeds its turns fails
with that kind and no assertion.
-/

namespace AgentStorm.Worker

open Checks Numeric Results Text

/-! ## Counts -/

/-- The counts an attempt contributes to its case and a case to its summary. -/
structure Counts where
  inputTokens : Nat
  outputTokens : Nat
  modelCallCount : Option Nat
  toolCallCount : Nat
  usageComplete : Bool

def AttemptResult.counts (attempt : AttemptResult) : Counts :=
  ⟨attempt.inputTokens.getD 0, attempt.outputTokens.getD 0, attempt.modelCallCount, attempt.toolCallCount,
    attempt.usageComplete⟩

def CaseResult.counts (result : CaseResult) : Counts :=
  ⟨result.inputTokens, result.outputTokens, result.modelCallCount, result.toolCallCount, result.usageComplete⟩

/-- All four totals are below `2^63`; of the model calls, those that are known count. -/
structure InRange (counts : List Counts) : Prop where
  inputTokens : (counts.map (·.inputTokens)).sum < 2 ^ 63
  outputTokens : (counts.map (·.outputTokens)).sum < 2 ^ 63
  modelCalls : total (counts.map (·.modelCallCount)) < 2 ^ 63
  toolCalls : (counts.map (·.toolCallCount)).sum < 2 ^ 63

/-- What the API's running totals are after `counts`. -/
def sumCounts (counts : List Counts) : Totals where
  inputTokens := ((counts.map (·.inputTokens)).sum : Nat)
  outputTokens := ((counts.map (·.outputTokens)).sum : Nat)
  modelCalls := (total (counts.map (·.modelCallCount)) : Nat)
  toolCalls := ((counts.map (·.toolCallCount)).sum : Nat)
  modelCallsKnown := counts.all (·.modelCallCount.isSome)
  usageComplete := counts.all (·.usageComplete)

theorem total_append (a b : List (Option Nat)) : total (a ++ b) = total a + total b := by
  simp [total]

theorem map_totalKnown (counts : List (Option Nat)) :
    ((totalKnown counts).map fun (n : Nat) => (n : Int)) =
      if counts.all (·.isSome) then some ((total counts : Nat) : Int) else none := by
  unfold totalKnown
  split <;> rfl

theorem InRange.left {a b : List Counts} (h : InRange (a ++ b)) : InRange a := by
  obtain ⟨hin, hout, hmodel, htool⟩ := h
  simp only [List.map_append, List.sum_append, total_append] at hin hout hmodel htool
  exact ⟨by omega, by omega, by omega, by omega⟩

/-- **One addition.** Within the range, the API's totals follow the sums. -/
theorem add_sumCounts {counts : List Counts} {c : Counts} (h : InRange (counts ++ [c])) (kind : String) :
    (sumCounts counts).add kind c.inputTokens c.outputTokens (c.modelCallCount.map fun (n : Nat) => (n : Int))
      c.toolCallCount (some c.usageComplete) = .ok (sumCounts (counts ++ [c])) := by
  obtain ⟨hin, hout, hmodel, htool⟩ := h
  simp only [List.map_append, List.map_cons, List.map_nil, List.sum_append, List.sum_cons, List.sum_nil, total_append,
    Nat.add_zero] at hin hout hmodel htool
  have hcalls : total [c.modelCallCount] = c.modelCallCount.getD 0 := by simp [total]
  rw [hcalls] at hmodel
  unfold Totals.add
  rw [then_ok_iff, then_ok_iff, then_ok_iff]
  refine ⟨?_, ?_, ?_, ?_⟩
  · rw [invalid_eq_ok, decide_eq_false_iff_not]
    simp only [maxInt64, sumCounts]
    omega
  · rw [invalid_eq_ok]
    cases hc : c.modelCallCount with
    | none => rfl
    | some =>
      rw [hc, Option.getD_some] at hmodel
      simp only [Option.map_some, Option.any_some, decide_eq_false_iff_not]
      simp only [maxInt64, sumCounts]
      omega
  · rw [invalid_eq_ok, decide_eq_false_iff_not]
    simp only [maxInt64, sumCounts]
    omega
  · refine congrArg Except.ok ?_
    unfold sumCounts
    cases hc : c.modelCallCount <;> simp [hc, total, Results.usageComplete]

/-! ## Attempts -/

variable {position : Nat} {attempts : List AttemptResult}

theorem outcome_valid (outcome : AttemptOutcome) : validAttemptOutcome outcome.text = true := by
  cases outcome <;> decide

theorem retryDecision_valid (decision : RetryDecision) :
    blank decision.text = false ∧ invalidText decision.text 64 = false := by
  cases decision <;> decide +kernel

theorem failureCategory_valid (category : Option FailureCategory) :
    invalidText ((category.map (·.text)).getD "") 64 = false ∧
    (decide ((category.map (·.text)).getD "" ≠ "") && !validFailureCategory ((category.map (·.text)).getD "")) = false := by
  rcases category with _ | category
  · decide +kernel
  · cases category <;> decide +kernel

theorem errorCode_valid (code : Option ErrorCode) :
    invalidText ((code.map (·.text)).getD "") 128 = false ∧
    (decide ((code.map (·.text)).getD "" ≠ "") && !reasonCodePattern ((code.map (·.text)).getD "")) = false := by
  rcases code with _ | code
  · decide +kernel
  · cases code <;> decide +kernel

theorem injectedFault_valid (fault : Option Fault) :
    (decide ((fault.map (·.text)).getD "" ≠ "") && !validInjectedFault ((fault.map (·.text)).getD "")) = false := by
  rcases fault with _ | fault
  · decide
  · cases fault <;> decide

theorem circuitEvents_valid (events : List CircuitEvent) :
    ((events.map (·.text)).any fun event => !validCircuitEvent event) = false := by
  rw [List.any_eq_false]
  intro text htext
  obtain ⟨event, -, rfl⟩ := List.mem_map.mp htext
  cases event <;> decide

theorem latency_valid (latency : ℚ≥0) :
    validMetric (.finite (latency : ℚ)) = true ∧ (Float64.finite (latency : ℚ)).lt 0 = false := by
  refine ⟨rfl, ?_⟩
  rw [Float64.lt, decide_eq_false_iff_not, not_lt]
  exact latency.coe_nonneg

theorem modelCalls_valid (calls : Option Nat) :
    ((calls.map fun (n : Nat) => (n : Int)).any fun n => decide (n < 0)) = false := by
  cases calls with
  | none => rfl
  | some n => exact decide_eq_false (Int.not_lt.mpr (Int.natCast_nonneg n))

/-- Of one attempt only the name of an injected rule can be wrong. -/
theorem validateAttempt_iff {index : Nat} {attempt : AttemptResult}
    (hnumber : attempt.number = position + 1) :
    validateAttempt index position (attemptPayload attempt) = .ok () ↔ invalidText attempt.injectedRule 128 = false := by
  have hcounts : ¬((attempt.backoffMS : Int) < 0 ∨ ((attempt.inputTokens.getD 0 : Nat) : Int) < 0 ∨
      ((attempt.outputTokens.getD 0 : Nat) : Int) < 0 ∨ (attempt.toolCallCount : Int) < 0) := by
    omega
  have hposition : ((attempt.number : Nat) : Int) = position + 1 := by
    rw [hnumber]
    rfl
  simp only [validateAttempt, attemptInvalid, attemptPayload, then_ok_iff, invalid_eq_ok, latency_valid, outcome_valid,
    retryDecision_valid, failureCategory_valid, errorCode_valid, injectedFault_valid, circuitEvents_valid,
    modelCalls_valid, decide_eq_false hcounts, hposition, ne_eq, not_true_eq_false, decide_false, Bool.not_true,
    Bool.or_false, Bool.false_or, and_true]

/-- **The attempts of a case.** The loop passes exactly when every rule name does, and returns the sums. -/
theorem validateAttempts_iff {index : Nat} {done : List AttemptResult} {totals : Totals}
    (hnumbers : attempts.map (·.number) = List.range' (done.length + 1) attempts.length)
    (hrange : InRange ((done ++ attempts).map (·.counts))) :
    validateAttempts index done.length (sumCounts (done.map (·.counts))) (attempts.map attemptPayload) = .ok totals ↔
      (∀ attempt ∈ attempts, invalidText attempt.injectedRule 128 = false) ∧
      totals = sumCounts ((done ++ attempts).map (·.counts)) := by
  induction attempts generalizing done with
  | nil =>
    rw [List.map_nil, validateAttempts, List.append_nil, Except.ok.injEq]
    constructor
    · rintro rfl
      exact ⟨by simp, rfl⟩
    · rintro ⟨-, rfl⟩
      rfl
  | cons attempt attempts ih =>
    rw [List.map_cons, List.length_cons, List.range'_succ, List.cons.injEq] at hnumbers
    have hcat : done ++ attempt :: attempts = done ++ [attempt] ++ attempts := by simp
    rw [hcat] at hrange ⊢
    have hstep : InRange (done.map (·.counts) ++ [attempt.counts]) := by
      rw [List.map_append, List.map_append] at hrange
      exact hrange.left
    have hadd := add_sumCounts hstep "attempt"
    have hrest := @ih (done ++ [attempt]) (by simpa using hnumbers.2) hrange
    rw [List.length_append, List.map_append] at hrest
    rw [List.map_cons, validateAttempts, then_ok_iff, validateAttempt_iff hnumbers.1, List.forall_mem_cons, and_assoc]
    refine and_congr_right fun _ => ?_
    rw [bind_ok_iff, ← hrest]
    constructor
    · rintro ⟨_, hnext, hloop⟩
      cases hadd.symm.trans hnext
      exact hloop
    · exact fun hloop => ⟨_, hadd, hloop⟩

/-! ## Texts of a case -/

/-- At most `size` bytes and no NUL. -/
def Short (size : Nat) (s : String) : Prop := s.utf8ByteSize ≤ size ∧ Char.ofNat 0 ∉ s.toList

theorem Short.append {m n : Nat} {s t : String} (hs : Short m s) (ht : Short n t) : Short (m + n) (s ++ t) := by
  constructor
  · rw [String.utf8ByteSize_append]
    exact Nat.add_le_add hs.1 ht.1
  · rw [String.toList_append, List.mem_append, not_or]
    exact ⟨hs.2, ht.2⟩

theorem Short.invalidText {n size : Nat} {s : String} (h : Short n s) (hle : n ≤ size) : invalidText s size = false := by
  rw [Results.invalidText, Bool.or_eq_false_iff, decide_eq_false_iff_not, not_lt]
  refine ⟨le_trans h.1 hle, ?_⟩
  rw [Bool.eq_false_iff, ne_eq, List.contains_iff_mem]
  exact h.2

theorem Short.intercalate {n : Nat} {texts : List String} (h : ∀ text ∈ texts, Short n text) :
    Short (texts.length * (n + 2)) (String.intercalate ", " texts) := by
  have hmark : Short 2 ", " := by unfold Short; decide +kernel
  induction texts with
  | nil =>
    rw [String.intercalate_nil, List.length_nil, Nat.zero_mul]
    exact ⟨by decide, by decide⟩
  | cons text texts ih =>
    have hfirst := h text List.mem_cons_self
    cases texts with
    | nil =>
      rw [String.intercalate_singleton]
      exact ⟨le_trans hfirst.1 (by simp), hfirst.2⟩
    | cons =>
      have hrest := ih fun t ht => h t (List.mem_cons_of_mem _ ht)
      obtain ⟨hsize, hnul⟩ := (hfirst.append hmark).append hrest
      rw [String.intercalate_cons_cons]
      refine ⟨le_trans hsize ?_, hnul⟩
      rw [List.length_cons (a := text), Nat.succ_mul]
      omega

theorem short_message (error : ExecutionError) : Short 64 error.message := by
  have hcategory : ∀ category : FailureCategory, Short 10 category.text := by
    intro category
    unfold Short
    cases category <;> decide +kernel
  have hcode : ∀ code : ErrorCode, Short 33 code.text := by
    intro code
    unfold Short
    cases code <;> decide +kernel
  have hmark : Short 1 "/" := by unfold Short; decide +kernel
  obtain ⟨hsize, hnul⟩ := ((hcategory error.category).append hmark).append (hcode error.code)
  exact ⟨le_trans hsize (by decide), hnul⟩

theorem short_failedTypes (types : List AssertionType) :
    Short (19 + types.length * 13) ("failed assertions: " ++ String.intercalate ", " (types.map (·.text))) := by
  have hlead : Short 19 "failed assertions: " := by unfold Short; decide +kernel
  have htypes : ∀ text ∈ types.map (·.text), Short 11 text := by
    intro text htext
    obtain ⟨type, -, rfl⟩ := List.mem_map.mp htext
    unfold Short
    cases type <;> decide +kernel
  have hjoined := Short.intercalate htypes
  rw [List.length_map] at hjoined
  exact hlead.append hjoined

theorem failureKind_valid (kind : Option FailureKind) : invalidText ((kind.map (·.text)).getD "") 128 = false := by
  rcases kind with _ | kind
  · decide +kernel
  · cases kind <;> decide +kernel

theorem blank_failureKind (kind : FailureKind) : blank kind.text = false := by
  cases kind <;> decide

theorem assertion_iff (kind : Option FailureKind) : (kind.map (·.text)).getD "" = "assertion" ↔ kind = some .assertion := by
  rcases kind with _ | kind
  · decide
  · cases kind <;> decide

theorem assertionType_valid (type : AssertionType) : invalidText type.text 64 = false ∧ blank type.text = false := by
  cases type <;> decide +kernel

theorem reasonCode_valid (reason : ReasonCode) : invalidText reason.text 64 = false ∧ blank reason.text = false := by
  cases reason <;> decide +kernel

/-! ## Cases -/

/-- What every result of the runner satisfies. -/
structure CaseResultOf.WellFormed (result : CaseResult) : Prop where
  numbers : result.attempts.map (·.number) = List.range' 1 result.attempts.length
  attempts_le : result.attempts.length ≤ 10
  usage : attemptUsage result.attempts = (result.inputTokens, result.outputTokens, result.usageComplete)
  calls : attemptCalls result.attempts = (result.modelCallCount, result.toolCallCount)
  indices : result.assertions.map (·.index) = List.range result.assertions.length
  success : result.success = result.failureKind.isNone
  passed : result.success = true → ∀ outcome ∈ result.assertions, outcome.passed = true
  error : ∀ text, result.error = some text →
    (∃ error : ExecutionError, text = error.message) ∨
    ∃ types : List AssertionType, types.length ≤ result.assertions.length ∧
      text = "failed assertions: " ++ String.intercalate ", " (types.map (·.text))

/-- The size limits of a case that the worker does not enforce itself. -/
structure CaseResult.Presentable (result : CaseResult) : Prop where
  caseID_blank : blank result.caseID = false
  caseID_text : invalidText result.caseID 1024 = false
  toolPath_le : result.toolPath.length ≤ 1000
  toolNames : ∀ name ∈ result.toolPath, blank name = false ∧ invalidText name 512 = false
  assertions_le : result.assertions.length ≤ 100

/-- The result can be stored as it is reported: injected rules and sensitive texts fit their columns, and a failure of
    kind `assertion` names a failed assertion. -/
structure CaseResultOf.Deliverable (sensitive : Bool) (result : CaseResult) : Prop where
  rules : ∀ attempt ∈ result.attempts, invalidText attempt.injectedRule 128 = false
  asserted : result.failureKind = some .assertion → ∃ outcome ∈ result.assertions, outcome.passed = false
  output : sensitive = true → invalidText result.output maxRequestBytes = false
  messages : sensitive = true → ∀ outcome ∈ result.assertions, ∀ message, outcome.message = some message →
    invalidText message maxRequestBytes = false

theorem invalidText_empty : invalidText "" maxRequestBytes = false := by decide +kernel

variable {sensitive : Bool} {result : CaseResult} {runID : String} {index : Nat} {seen : List (String × Int)}

theorem casePayload_key (sensitive : Bool) (runID : String) (result : CaseResult) :
    (casePayload sensitive runID result).idempotencyKey = caseKey runID result.caseID result.iteration := by
  show _ ++ quotePlus result.caseID ++ _ ++ _ = _
  rw [quotePlus_eq]
  rfl

theorem validateIdentity_casePayload (P : Platform) (h : result.Presentable)
    (hseen : (result.caseID, (result.iteration : Int)) ∉ seen) :
    validateIdentity P runID index seen (casePayload sensitive runID result) = .ok () := by
  simp only [validateIdentity, casePayload_key, then_ok_iff, invalid_eq_ok]
  refine ⟨h.caseID_blank, h.caseID_text, ?_, ?_, ?_⟩
  · exact decide_eq_false (Int.not_lt.mpr (Int.natCast_nonneg _))
  · exact decide_eq_false fun hne => hne rfl
  · exact decide_eq_false hseen

theorem validateFields_iff (hwf : result.WellFormed) (hassertions : result.assertions.length ≤ 100) :
    validateFields index (casePayload sensitive runID result) = .ok () ↔
      (sensitive = true → invalidText result.output maxRequestBytes = false) := by
  have herror : ((casePayload sensitive runID result).error.any fun s => invalidText s maxRequestBytes) = false := by
    rw [Option.any_eq_false]
    intro text htext
    have hsome : result.error = some text := by
      simp only [casePayload] at htext
      split at htext
      · exact (Option.filter_eq_some_iff.mp htext).1
      · cases htext
    rcases hwf.error text hsome with ⟨error, rfl⟩ | ⟨types, hle, rfl⟩
    · exact (short_message error).invalidText (by decide)
    · refine (short_failedTypes types).invalidText ?_
      have hsize : maxRequestBytes = 33554432 := by decide
      omega
  have houtput : ((casePayload sensitive runID result).output.any fun s => invalidText s maxRequestBytes) = false ↔
      (sensitive = true → invalidText result.output maxRequestBytes = false) := by
    simp only [casePayload]
    by_cases hempty : result.output = ""
    · simp [hempty, invalidText_empty]
    · cases sensitive <;> simp [hempty]
  have hcounts : ¬((result.inputTokens : Int) < 0 ∨ (result.outputTokens : Int) < 0 ∨ (result.toolCallCount : Int) < 0) := by
    omega
  rw [← houtput]
  simp only [validateFields, then_ok_iff, invalid_eq_ok, herror, Bool.or_false]
  simp only [casePayload, latency_valid, modelCalls_valid, failureKind_valid, failureCategory_valid, errorCode_valid,
    Bool.not_true, Bool.or_false, Bool.false_or, Option.isSome_none, true_and]
  refine ⟨fun h => h.2.1, fun h => ⟨decide_eq_false hcounts, h, ?_, ?_⟩⟩
  · exact (failureCategory_valid _).2
  · exact (errorCode_valid _).2

theorem validateToolNames_ok {names : List String}
    (h : ∀ name ∈ names, blank name = false ∧ invalidText name 512 = false) :
    validateToolNames index position names = .ok () := by
  induction names generalizing position with
  | nil => rfl
  | cons name names ih =>
    rw [validateToolNames, then_ok_iff, invalid_eq_ok, Bool.or_eq_false_iff]
    exact ⟨h name List.mem_cons_self, ih fun other hother => h other (List.mem_cons_of_mem _ hother)⟩

theorem assertionInvalid_iff {outcome : AssertionOutcome} (hindex : outcome.index = position) :
    assertionInvalid position (assertionPayload sensitive outcome) = false ↔
      (sensitive = true → ∀ message, outcome.message = some message → invalidText message maxRequestBytes = false) := by
  simp only [assertionInvalid, assertionPayload, hindex, assertionType_valid, reasonCode_valid, ne_eq,
    not_true_eq_false, decide_false, Bool.or_false, Bool.false_or]
  cases sensitive with
  | false => simp
  | true =>
    rw [if_pos rfl, Option.any_eq_false]
    simp

theorem validateAssertions_iff {outcomes : List AssertionOutcome}
    (hindices : outcomes.map (·.index) = List.range' position outcomes.length) :
    validateAssertions index position (outcomes.map (assertionPayload sensitive)) = .ok () ↔
      (sensitive = true → ∀ outcome ∈ outcomes, ∀ message, outcome.message = some message →
        invalidText message maxRequestBytes = false) := by
  induction outcomes generalizing position with
  | nil => exact ⟨fun _ _ _ hmem => absurd hmem List.not_mem_nil, fun _ => rfl⟩
  | cons outcome outcomes ih =>
    rw [List.map_cons, List.length_cons, List.range'_succ, List.cons.injEq] at hindices
    rw [List.map_cons, validateAssertions, then_ok_iff, invalid_eq_ok, assertionInvalid_iff hindices.1, ih hindices.2]
    simp only [List.forall_mem_cons]
    exact ⟨fun h hs => ⟨h.1 hs, h.2 hs⟩, fun h => ⟨fun hs => (h hs).1, fun hs => (h hs).2⟩⟩

/-- Only a failure of kind `assertion` can be inconsistent. -/
theorem validateOutcome_iff (hwf : result.WellFormed) :
    validateOutcome index (casePayload sensitive runID result) = .ok () ↔
      (result.failureKind = some .assertion → ∃ outcome ∈ result.assertions, outcome.passed = false) := by
  have hfailed : ((casePayload sensitive runID result).assertions.any fun a => !a.passed) = true ↔
      ∃ outcome ∈ result.assertions, outcome.passed = false := by
    simp [casePayload, assertionPayload]
  have hkind : (!result.success && blank ((result.failureKind.map (·.text)).getD "")) = false := by
    rw [hwf.success]
    cases result.failureKind with
    | none => rfl
    | some kind => exact blank_failureKind kind
  have hpassed : (result.success && (casePayload sensitive runID result).assertions.any fun a => !a.passed) = false := by
    cases hsuccess : result.success with
    | false => rfl
    | true =>
      rw [Bool.true_and, Bool.eq_false_iff, ne_eq, hfailed]
      rintro ⟨outcome, hmem, hfail⟩
      rw [hwf.passed hsuccess outcome hmem] at hfail
      exact Bool.noConfusion hfail
  have htext : (casePayload sensitive runID result).failureKind = "assertion" ↔ result.failureKind = some .assertion :=
    assertion_iff _
  rw [← hfailed]
  simp only [validateOutcome, then_ok_iff, invalid_eq_ok]
  refine ⟨fun h => ?_, fun h => ⟨hkind, hpassed, ?_⟩⟩
  · intro hassertion
    have hlast := h.2.2
    rw [decide_eq_true (htext.mpr hassertion), Bool.true_and] at hlast
    simpa using hlast
  · by_cases hassertion : result.failureKind = some .assertion
    · rw [h hassertion, Bool.not_true, Bool.and_false]
    · rw [decide_eq_false fun h => hassertion (htext.mp h), Bool.false_and]

theorem matchAttempts_ok (hwf : result.WellFormed) :
    matchAttempts index (casePayload sensitive runID result) (sumCounts (result.attempts.map (·.counts))) = .ok () := by
  obtain ⟨hin, hout, hcomplete⟩ : total (result.attempts.map (·.inputTokens)) = result.inputTokens ∧
      total (result.attempts.map (·.outputTokens)) = result.outputTokens ∧
      result.attempts.all (·.usageComplete) = result.usageComplete := by
    have h := hwf.usage
    simpa only [attemptUsage, Prod.mk.injEq] using h
  obtain ⟨hmodel, htool⟩ : totalKnown (result.attempts.map (·.modelCallCount)) = result.modelCallCount ∧
      (result.attempts.map (·.toolCallCount)).sum = result.toolCallCount := by
    have h := hwf.calls
    simpa only [attemptCalls, Prod.mk.injEq] using h
  have hsum : sumCounts (result.attempts.map (·.counts)) =
      ⟨result.inputTokens, result.outputTokens, total (result.attempts.map (·.modelCallCount)), result.toolCallCount,
        result.attempts.all (·.modelCallCount.isSome), result.usageComplete⟩ := by
    rw [← hin, ← hout, ← htool, ← hcomplete]
    simp only [sumCounts, total, List.map_map, List.all_map]
    rfl
  have hcalls : (casePayload sensitive runID result).modelCallCount =
      if result.attempts.all (·.modelCallCount.isSome) then
        some ((total (result.attempts.map (·.modelCallCount)) : Nat) : Int) else none := by
    show result.modelCallCount.map _ = _
    rw [← hmodel, map_totalKnown, List.all_map]
    rfl
  rw [hsum]
  simp only [matchAttempts, then_ok_iff, invalid_eq_ok, hcalls]
  cases result.attempts.all (·.modelCallCount.isSome) <;>
    simp [casePayload, Results.usageComplete]

/-- **One case.** What the API refuses in a result of the runner is exactly what is not deliverable. -/
theorem validateCase_iff (P : Platform) (hwf : result.WellFormed) (hpresentable : result.Presentable)
    (hrange : InRange (result.attempts.map (·.counts))) (hseen : (result.caseID, (result.iteration : Int)) ∉ seen) :
    validateCase P runID index seen (casePayload sensitive runID result) = .ok () ↔ result.Deliverable sensitive := by
  have hattempts : ∀ totals : Totals, validateAttempts index 0 Totals.zero (result.attempts.map attemptPayload) = .ok totals ↔
      (∀ attempt ∈ result.attempts, invalidText attempt.injectedRule 128 = false) ∧
        totals = sumCounts (result.attempts.map (·.counts)) := by
    intro totals
    exact @validateAttempts_iff result.attempts index [] totals hwf.numbers hrange
  have hindices : result.assertions.map (·.index) = List.range' 0 result.assertions.length := by
    rw [hwf.indices, List.range_eq_range']
  have hassertions := @validateAssertions_iff 0 sensitive index result.assertions hindices
  have htools := @validateToolNames_ok 0 index result.toolPath hpresentable.toolNames
  unfold validateCase
  rw [then_ok_iff, then_ok_iff, then_ok_iff, bind_ok_iff, validateFields_iff hwf hpresentable.assertions_le]
  simp only [then_ok_iff, invalid_eq_ok, validateOutcome_iff hwf]
  constructor
  · rintro ⟨-, houtput, -, totals, hloop, -, -, -, -, hmessages, hasserted⟩
    exact ⟨((hattempts totals).mp hloop).1, hasserted, houtput, hassertions.mp hmessages⟩
  · intro h
    refine ⟨validateIdentity_casePayload P hpresentable hseen, h.output, ?_, _, (hattempts _).mpr ⟨h.rules, rfl⟩,
      matchAttempts_ok hwf, ?_, htools, ?_, hassertions.mpr h.messages, h.asserted⟩
    · show decide (10 < (result.attempts.map attemptPayload).length) = false
      rw [List.length_map]
      exact decide_eq_false (Nat.not_lt.mpr hwf.attempts_le)
    · exact decide_eq_false (Nat.not_lt.mpr hpresentable.toolPath_le)
    · show decide (100 < (result.assertions.map (assertionPayload sensitive)).length) = false
      rw [List.length_map]
      exact decide_eq_false (Nat.not_lt.mpr hpresentable.assertions_le)

/-! ## Every result of the runner -/

/-- Attempts as the loop leaves them. -/
structure Numbered (attempts : List AttemptResult) : Prop where
  numbers : attempts.map (·.number) = List.range' 1 attempts.length
  length_le : attempts.length ≤ 10

theorem wellFormed_failedResult (h : Numbered attempts) (caseID : String) (iteration : Nat)
    (error : ExecutionError) (toolPath : List String) (latencyMS : ℚ≥0) :
    (failedResult caseID iteration error attempts toolPath latencyMS).WellFormed where
  numbers := h.numbers
  attempts_le := h.length_le
  usage := rfl
  calls := rfl
  indices := rfl
  success := rfl
  passed := fun hsuccess => nomatch hsuccess
  error := by
    intro text htext
    exact .inl ⟨error, (Option.some.inj htext).symm⟩

theorem evaluate_index (judged : List (AssertionType × Except String Verdict)) :
    (evaluate judged).map (·.index) = List.range (evaluate judged).length := by
  have hindex : ∀ (entry : (AssertionType × Except String Verdict) × Nat),
      (evaluateOne entry.2 entry.1.1 entry.1.2).index = entry.2 := by
    rintro ⟨⟨_, _ | _⟩, _⟩ <;> rfl
  have hsnd : (evaluate judged).map (·.index) = judged.zipIdx.map Prod.snd := by
    rw [evaluate, List.map_map]
    exact List.map_congr_left fun entry _ => hindex entry
  rw [hsnd, List.zipIdx_map_snd, evaluate, List.length_map, List.length_zipIdx, List.range_eq_range']

theorem wellFormed_evaluatedResult (h : Numbered attempts) (caseID : String) (iteration : Nat)
    (response : AdapterResponse) (judged : List (AssertionType × Except String Verdict))
    (toolPath : List String) (latencyMS : ℚ≥0) :
    (evaluatedResult caseID iteration response (evaluate judged) attempts toolPath latencyMS).WellFormed where
  numbers := h.numbers
  attempts_le := h.length_le
  usage := rfl
  calls := rfl
  indices := evaluate_index judged
  success := by
    simp only [evaluatedResult]
    cases (evaluate judged).all (·.passed) <;> rfl
  passed := fun hsuccess outcome hmem => List.all_eq_true.mp hsuccess outcome hmem
  error := by
    intro text htext
    simp only [evaluatedResult] at htext
    split at htext
    · cases htext
    · refine .inr ⟨((evaluate judged).filter (!·.passed)).map (·.type), ?_, ?_⟩
      · rw [List.length_map]
        exact List.length_filter_le _ _
      · rw [← Option.some.inj htext, List.map_map]
        rfl

section Case

variable {draw : String → ℚ} {reliability : Option ReliabilityConfig} {caseID : String} {iteration : Nat}
  {world : CaseWorld}

/-- What the attempts of a case and its end must be for the result to be deliverable. -/
def Attempted.Deliverable (sensitive : Bool) (attempted : Attempted)
    (judged : Option (List (AssertionType × Except String Verdict))) : Prop :=
  (∀ attempt ∈ attempted.attempts, invalidText attempt.injectedRule 128 = false) ∧
  match attempted.ending, judged with
  | .error error, _ => error.failureKind ≠ .assertion
  | .ok _, none => True
  | .ok response, some judged => sensitive = true →
      invalidText response.output maxRequestBytes = false ∧
      ∀ outcome ∈ evaluate judged, ∀ message, outcome.message = some message →
        invalidText message maxRequestBytes = false

/-- **The condition on the outside.** Either the breaker rejects the case; or no attempt records a rule name that the
    API cannot store, the last attempt does not fail with kind `assertion`, and, when sensitive texts are sent, the
    output and the messages of a case that gets evaluated can be stored too. -/
def CaseWorld.Deliverable (draw : String → ℚ) (reliability : Option ReliabilityConfig) (caseID : String)
    (iteration : Nat) (sensitive : Bool) (world : CaseWorld) : Prop :=
  ∀ permit attempted,
    (acquire (reliability.bind (·.circuitBreaker)) world.acquiredAt world.breaker).1 = .ok permit →
    attemptLoop draw reliability (Python.text caseID) iteration permit 1 0 world.script = some (.ok attempted) →
    attempted.Deliverable sensitive world.judged

theorem circuitOpenError_of_acquire {config : Option CircuitBreakerConfig} {now : ℚ} {breaker : CircuitBreaker}
    {error : ExecutionError} (h : (acquire config now breaker).1 = .error error) : error = circuitOpenError := by
  unfold acquire Circuit.acquire at h
  split at h
  · cases h
  · split at h
    · cases h
    · split at h
      · cases h
      · exact (Except.error.inj h).symm

theorem numbered_extendLast {permit : CircuitPermit} {attempted : Attempted} (events : List CircuitEvent)
    (h : attemptLoop draw reliability (Python.text caseID) iteration permit 1 0 world.script = some (.ok attempted)) :
    Numbered (extendLast events attempted.attempts) := by
  have hlength : (extendLast events attempted.attempts).length = attempted.attempts.length := by
    have hmap := congrArg List.length (map_extendLast (f := fun _ => ()) (fun _ _ => rfl) events attempted.attempts)
    simpa only [List.length_map] using hmap
  obtain ⟨hnumbers, hcount⟩ := attemptLoop_numbered (attemptLimit_pos reliability) h
  have hlimit := attemptLimit_le reliability
  constructor
  · rw [map_extendLast (fun _ _ => rfl), hlength]
    exact hnumbers
  · rw [hlength]
    omega

variable {attempts : List AttemptResult}

theorem wellFormed_concludeCase (h : Numbered attempts) (ending : Ending)
    (judged : Option (List (AssertionType × Except String Verdict))) (toolPath : List String)
    (latencyMS : ℚ≥0) :
    (concludeCase caseID iteration ending judged attempts toolPath latencyMS).WellFormed := by
  unfold concludeCase
  split
  · exact wellFormed_failedResult h _ _ _ _ _
  · split
    · exact wellFormed_failedResult h _ _ _ _ _
    · exact wellFormed_evaluatedResult h _ _ _ _ _ _

/-- **Every result is well formed**, whatever the outside does. -/
theorem wellFormed_executeCase (h : executeCase Python.text draw reliability caseID iteration world = some result) :
    result.WellFormed := by
  rcases executeCase_cases h with ⟨error, -, rfl⟩ | ⟨_, _, events, -, hloop, rfl⟩
  · have hone : Numbered [rejectedAttempt error] := ⟨rfl, by simp⟩
    exact wellFormed_failedResult hone _ _ _ _ _
  · exact wellFormed_concludeCase (numbered_extendLast events hloop) _ _ _ _

theorem injectedRules_extendLast (events : List CircuitEvent) (attempts : List AttemptResult) :
    (∀ attempt ∈ extendLast events attempts, invalidText attempt.injectedRule 128 = false) ↔
      ∀ attempt ∈ attempts, invalidText attempt.injectedRule 128 = false := by
  have hmap := map_extendLast (f := fun attempt => invalidText attempt.injectedRule 128) (fun _ _ => rfl) events attempts
  have hall : ∀ list : List AttemptResult, (∀ attempt ∈ list, invalidText attempt.injectedRule 128 = false) ↔
      ∀ bad ∈ list.map (fun attempt => invalidText attempt.injectedRule 128), bad = false := by
    simp
  rw [hall, hmap, ← hall]

theorem deliverable_failedResult {error : ExecutionError} {toolPath : List String} {latencyMS : ℚ≥0} :
    (failedResult caseID iteration error attempts toolPath latencyMS).Deliverable sensitive ↔
      (∀ attempt ∈ attempts, invalidText attempt.injectedRule 128 = false) ∧ error.failureKind ≠ .assertion := by
  constructor
  · intro h
    refine ⟨h.rules, ?_⟩
    intro hkind
    obtain ⟨_, hmem, -⟩ := h.asserted (congrArg some hkind)
    exact List.not_mem_nil hmem
  · rintro ⟨hrules, hkind⟩
    exact ⟨hrules, fun hasserted => absurd (Option.some.inj hasserted) hkind, fun _ => invalidText_empty,
      fun _ _ hmem => absurd hmem List.not_mem_nil⟩

theorem deliverable_evaluatedResult {response : AdapterResponse} {outcomes : List AssertionOutcome}
    {toolPath : List String} {latencyMS : ℚ≥0} :
    (evaluatedResult caseID iteration response outcomes attempts toolPath latencyMS).Deliverable sensitive ↔
      (∀ attempt ∈ attempts, invalidText attempt.injectedRule 128 = false) ∧
      (sensitive = true → invalidText response.output maxRequestBytes = false ∧
        ∀ outcome ∈ outcomes, ∀ message, outcome.message = some message →
          invalidText message maxRequestBytes = false) := by
  constructor
  · exact fun h => ⟨h.rules, fun hs => ⟨h.output hs, h.messages hs⟩⟩
  · rintro ⟨hrules, hsensitive⟩
    refine ⟨hrules, ?_, fun hs => (hsensitive hs).1, fun hs => (hsensitive hs).2⟩
    -- an evaluated case fails only because an assertion failed
    intro hkind
    simp only [evaluatedResult] at hkind
    split at hkind
    · cases hkind
    · rename_i hfailed
      show ∃ outcome ∈ outcomes, outcome.passed = false
      simpa using hfailed

/-- The condition on the outside is the condition on the result. -/
theorem deliverable_executeCase (h : executeCase Python.text draw reliability caseID iteration world = some result) :
    result.Deliverable sensitive ↔ world.Deliverable draw reliability caseID iteration sensitive := by
  rcases executeCase_cases h with ⟨error, herror, rfl⟩ | ⟨permit, attempted, events, hpermit, hloop, rfl⟩
  · obtain rfl := circuitOpenError_of_acquire herror
    rw [deliverable_failedResult]
    constructor
    · intro _ permit attempted hpermit
      rw [herror] at hpermit
      cases hpermit
    · exact fun _ => ⟨by decide +kernel, by decide⟩
  · have hworld : world.Deliverable draw reliability caseID iteration sensitive ↔
        attempted.Deliverable sensitive world.judged := by
      constructor
      · exact fun hall => hall permit attempted hpermit hloop
      · intro hone permit' attempted' hpermit' hloop'
        cases hpermit.symm.trans hpermit'
        cases Option.some.inj (hloop.symm.trans hloop')
        exact hone
    rw [hworld]
    unfold Attempted.Deliverable concludeCase
    rw [← injectedRules_extendLast events]
    cases attempted.ending with
    | error => exact deliverable_failedResult
    | ok =>
      cases world.judged with
      | none =>
        rw [deliverable_failedResult]
        exact and_congr_right fun _ => ⟨fun _ => trivial, fun _ => by decide⟩
      | some => exact deliverable_evaluatedResult

end Case

/-! ## Shards -/

variable {results : List CaseResult}

/-- A case that was run to its result. -/
structure CaseRun (draw : String → ℚ) (reliability : Option ReliabilityConfig) where
  caseID : String
  iteration : Nat
  world : CaseWorld
  result : CaseResult
  built : executeCase Python.text draw reliability caseID iteration world = some result

/-- The additions of the case loop alone. -/
def caseTotals : Totals → List Results.CaseResult → Except ApiError Totals
  | totals, [] => .ok totals
  | totals, item :: items => do
      let totals' ← totals.add "case" item.inputTokens item.outputTokens item.modelCallCount item.toolCallCount
        item.usageComplete
      caseTotals totals' items

theorem caseTotals_casePayload {done : List CaseResult}
    (hrange : InRange ((done ++ results).map (·.counts))) :
    caseTotals (sumCounts (done.map (·.counts))) (results.map (casePayload sensitive runID)) =
      .ok (sumCounts ((done ++ results).map (·.counts))) := by
  induction results generalizing done with
  | nil => rw [List.append_nil]; rfl
  | cons result results ih =>
    have hcat : done ++ result :: results = done ++ [result] ++ results := by simp
    rw [hcat] at hrange ⊢
    have hstep : InRange (done.map (·.counts) ++ [result.counts]) := by
      rw [List.map_append, List.map_append] at hrange
      exact hrange.left
    have hrest := ih hrange
    rw [List.map_append] at hrest
    exact bind_ok_iff.mpr ⟨_, add_sumCounts hstep "case", hrest⟩

/-- A sum over cases is at most the sum over their attempts, if it is so case by case. -/
theorem sum_counts_le {g : Counts → Nat}
    (h : ∀ result ∈ results, g result.counts ≤ ((result.attempts.map (·.counts)).map g).sum) :
    ((results.map (·.counts)).map g).sum ≤ ((results.flatMap fun r => r.attempts.map (·.counts)).map g).sum := by
  induction results with
  | nil => exact le_rfl
  | cons result results ih =>
    have hrest := ih fun r hr => h r (List.mem_cons_of_mem _ hr)
    have hfirst := h result List.mem_cons_self
    rw [List.map_cons, List.map_cons, List.sum_cons, List.flatMap_cons, List.map_append, List.sum_append]
    omega

theorem le_sum_counts {g : Counts → Nat} (hmem : result ∈ results) :
    ((result.attempts.map (·.counts)).map g).sum ≤ ((results.flatMap fun r => r.attempts.map (·.counts)).map g).sum := by
  obtain ⟨_, _, rfl⟩ := List.append_of_mem hmem
  rw [List.flatMap_append, List.flatMap_cons, List.map_append, List.map_append, List.sum_append, List.sum_append]
  omega

theorem total_counts (counts : List Counts) :
    total (counts.map (·.modelCallCount)) = (counts.map fun c => c.modelCallCount.getD 0).sum := by
  rw [total, List.map_map]
  rfl

/-- The attempts of a whole shard, as counts. -/
def shardCounts (results : List CaseResult) : List Counts := results.flatMap fun result => result.attempts.map (·.counts)

theorem InRange.case (h : InRange (shardCounts results)) (hmem : result ∈ results) :
    InRange (result.attempts.map (·.counts)) := by
  obtain ⟨hin, hout, hmodel, htool⟩ := h
  rw [total_counts] at hmodel
  refine ⟨lt_of_le_of_lt (le_sum_counts hmem) hin, lt_of_le_of_lt (le_sum_counts hmem) hout, ?_,
    lt_of_le_of_lt (le_sum_counts hmem) htool⟩
  rw [total_counts]
  exact lt_of_le_of_lt (le_sum_counts hmem) hmodel

theorem InRange.cases (h : InRange (shardCounts results)) (hwf : ∀ result ∈ results, result.WellFormed) :
    InRange (results.map (·.counts)) := by
  obtain ⟨hin, hout, hmodel, htool⟩ := h
  rw [total_counts] at hmodel
  refine ⟨lt_of_le_of_lt (sum_counts_le fun r hr => ?_) hin, lt_of_le_of_lt (sum_counts_le fun r hr => ?_) hout, ?_,
    lt_of_le_of_lt (sum_counts_le fun r hr => ?_) htool⟩
  · have husage := congrArg Prod.fst (hwf r hr).usage
    rw [List.map_map]
    simp only [attemptUsage, total, List.map_map] at husage
    exact husage.ge
  · have husage := congrArg (·.2.1) (hwf r hr).usage
    rw [List.map_map]
    simp only [attemptUsage, total, List.map_map] at husage
    exact husage.ge
  · rw [total_counts]
    refine lt_of_le_of_lt (sum_counts_le fun r hr => ?_) hmodel
    -- an unknown count of a case is below whatever its attempts add up to
    have hcalls := congrArg Prod.fst (hwf r hr).calls
    simp only [attemptCalls] at hcalls
    show r.modelCallCount.getD 0 ≤ _
    rw [← hcalls, totalKnown]
    split
    · rw [Option.getD_some, total, List.map_map, List.map_map]
      exact le_rfl
    · exact Nat.zero_le _
  · have hcalls := congrArg Prod.snd (hwf r hr).calls
    rw [List.map_map]
    exact hcalls.ge

theorem validateSummaryCounts_summarize (hlength : results.length < 2 ^ 63)
    (evaluation : EvaluationConfig) (durationMS : ℚ≥0) :
    validateSummaryCounts (summaryPayload (summarize results evaluation durationMS)) results.length = .ok () := by
  have hle : (results.filter (·.success)).length ≤ results.length := List.length_filter_le _ _
  have hsum : addInt64 ((results.filter (·.success)).length : Int)
      ((results.length - (results.filter (·.success)).length : Nat) : Int) = (results.length : Int) := by
    rw [addInt64_eq (by omega) (by rw [maxInt64]; omega)]
    omega
  simp only [validateSummaryCounts, then_ok_iff, invalid_eq_ok]
  refine ⟨decide_eq_false fun hne => hne rfl, decide_eq_false fun hne => hne hsum, ?_⟩
  simp only [summaryPayload, latency_valid, modelCalls_valid, Bool.not_true, Bool.or_false, Bool.or_eq_false_iff]
  exact ⟨decide_eq_false (by omega), decide_eq_false (by omega)⟩

theorem validateSummaryTotals_summarize (results : List CaseResult) (evaluation : EvaluationConfig) (durationMS : ℚ≥0) :
    validateSummaryTotals (summaryPayload (summarize results evaluation durationMS)) results.length
      (sumCounts (results.map (·.counts))) = .ok () := by
  have hcalls : (summaryPayload (summarize results evaluation durationMS)).modelCallCount =
      if results.all (·.modelCallCount.isSome) then
        some ((total (results.map (·.modelCallCount)) : Nat) : Int) else none := by
    show (totalKnown _).map _ = _
    rw [map_totalKnown, List.all_map]
    rfl
  have hsum : sumCounts (results.map (·.counts)) =
      ⟨((results.map (·.inputTokens)).sum : Nat), ((results.map (·.outputTokens)).sum : Nat),
        (total (results.map (·.modelCallCount)) : Nat), ((results.map (·.toolCallCount)).sum : Nat),
        results.all (·.modelCallCount.isSome), results.all (·.usageComplete)⟩ := by
    simp only [sumCounts, total, List.map_map, List.all_map]
    rfl
  rw [hsum]
  simp only [validateSummaryTotals, then_ok_iff, invalid_eq_ok, hcalls]
  refine ⟨decide_eq_false ?_, ?_, ?_⟩
  · simp [summaryPayload, summarize]
  · simp [summaryPayload, summarize]
  · by_cases hempty : results.length = 0
    · obtain rfl := List.length_eq_zero_iff.mp hempty
      exact then_ok_iff.mpr ⟨rfl, rfl⟩
    · cases results.all (·.modelCallCount.isSome) <;>
        simp [hempty, summaryPayload, summarize]

/-- The identity of a case in the set the loop keeps. -/
def CaseResult.identity (result : CaseResult) : String × Int := (result.caseID, result.iteration)

/-- **Worker and API agree on a case** exactly when its run is deliverable, and always on the summary. -/
theorem worker_case_agreement (P : Platform) (draw : String → ℚ) (reliability : Option ReliabilityConfig)
    (runID : String) (sensitive : Bool) (evaluation : EvaluationConfig) (durationMS : ℚ≥0)
    (runs : List (CaseRun draw reliability)) (hpresentable : ∀ run ∈ runs, run.result.Presentable)
    (hdistinct : (runs.map (·.result.identity)).Nodup) (hrange : InRange (shardCounts (runs.map (·.result))))
    -- `len` of a slice is a machine integer
    (hlength : runs.length < 2 ^ 63) :
    (∀ before run after, runs = before ++ run :: after →
      (validateCase P runID before.length (before.map (·.result.identity)).reverse
          (casePayload sensitive runID run.result) = .ok () ↔
        run.world.Deliverable draw reliability run.caseID run.iteration sensitive)) ∧
    validateSummaryCounts (summaryPayload (summarize (runs.map (·.result)) evaluation durationMS)) runs.length = .ok () ∧
    ∃ totals, caseTotals Totals.zero ((runs.map (·.result)).map (casePayload sensitive runID)) = .ok totals ∧
      validateSummaryTotals (summaryPayload (summarize (runs.map (·.result)) evaluation durationMS)) runs.length totals =
        .ok () := by
  have hwf : ∀ result ∈ runs.map (·.result), result.WellFormed :=
    List.forall_mem_map.mpr fun run _ => wellFormed_executeCase run.built
  have hlengths : (runs.map (·.result)).length = runs.length := List.length_map _
  refine ⟨?_, ?_, ?_⟩
  · rintro before run after rfl
    have hmem : run ∈ before ++ run :: after := by simp
    have hseen : (run.result.caseID, (run.result.iteration : Int)) ∉ (before.map (·.result.identity)).reverse := by
      rw [List.map_append, List.map_cons, List.nodup_append] at hdistinct
      rw [List.mem_reverse]
      exact fun hbefore => hdistinct.2.2 _ hbefore _ List.mem_cons_self rfl
    rw [validateCase_iff P (wellFormed_executeCase run.built) (hpresentable run hmem)
      (hrange.case (List.mem_map_of_mem hmem)) hseen]
    exact deliverable_executeCase run.built
  · rw [← hlengths] at hlength ⊢
    exact validateSummaryCounts_summarize hlength evaluation durationMS
  · refine ⟨_, @caseTotals_casePayload sensitive runID _ [] (hrange.cases hwf), ?_⟩
    rw [← hlengths]
    exact validateSummaryTotals_summarize _ evaluation durationMS

/-- One attempt that ends as `run` does, with nothing injected and no breaker. -/
def oneAttempt (run : AdapterRun) (judged : Option (List (AssertionType × Except String Verdict))) : CaseWorld where
  acquiredAt := 0
  breaker := .closed
  script := [⟨1, .ran run, fiveMillis, 1⟩]
  recordedAt := 1
  breakerEnd := .closed
  judged := judged
  latencyMS := 6

/-- The agents SDK raises `MaxTurnsExceeded`. -/
def turnsExceeded : CaseRun (fun _ => 0) none :=
  ⟨"case", 0, oneAttempt ⟨["search"], .error (.agents .maxTurnsExceeded)⟩ none, _, rfl⟩

/-- The agent answers, and one of two assertions fails. -/
def answeredRun : CaseRun (fun _ => 0) none :=
  ⟨"case", 1, oneAttempt ⟨["search"], .ok ⟨"42", some 11, some 7, some 1, none, "", none⟩⟩
    (some [(.contains, .ok ⟨true, .passed, none⟩), (.python, .error "ValueError: no")]), _, rfl⟩

theorem presentable_turnsExceeded : turnsExceeded.result.Presentable :=
  ⟨by decide, by decide +kernel, by decide, by decide +kernel, by decide⟩

theorem presentable_answeredRun : answeredRun.result.Presentable :=
  ⟨by decide, by decide +kernel, by decide, by decide +kernel, by decide⟩

theorem worker_case_agreement_turns_exceeded :
    turnsExceeded.result.Presentable ∧ InRange (shardCounts [turnsExceeded.result]) ∧
    validateCase (.reference []) "run" 0 [] (casePayload false "run" turnsExceeded.result) =
      .error (.validation "cases[0] assertion failure requires a failed assertion") :=
  ⟨presentable_turnsExceeded, ⟨by decide, by decide, by decide, by decide⟩, by decide +kernel⟩

theorem worker_case_agreement_answered :
    answeredRun.world.Deliverable (fun _ => 0) none "case" 1 true ∧
    ¬turnsExceeded.world.Deliverable (fun _ => 0) none "case" 0 true ∧
    validateSummaryCounts (summaryPayload (summarize [turnsExceeded.result, answeredRun.result] ⟨none, none, none⟩ 12)) 2 =
      .ok () := by
  have h := worker_case_agreement (.reference []) (fun _ => 0) none "run" true ⟨none, none, none⟩ 12
    [turnsExceeded, answeredRun]
    (by
      intro run hrun
      rcases List.mem_pair.mp hrun with rfl | rfl
      · exact presentable_turnsExceeded
      · exact presentable_answeredRun)
    (by decide) ⟨by decide, by decide, by decide, by decide⟩ (by decide)
  refine ⟨(h.1 [turnsExceeded] answeredRun [] rfl).mp (by decide +kernel), ?_, h.2.1⟩
  intro hdeliverable
  exact absurd ((h.1 [] turnsExceeded [answeredRun] rfl).mpr hdeliverable) (by decide +kernel)

/-! ## Keys in the database -/

/-- Stored rows whose key is that of the shard, or of a case, of an upload have its identity too. -/
structure KeysIdentify (db : Db) (call : UploadCall) : Prop where
  shard : ∀ s ∈ db.receipts, s.idempotencyKey = call.idempotencyKey → s.runID = call.runID ∧ (s.shardIndex : Int) = call.shardIndex
  case : ∀ item ∈ call.document.cases, ∀ row ∈ db.cases, row.idempotencyKey = item.idempotencyKey →
    row.runID = call.runID ∧ row.caseID = item.caseID ∧ row.iteration = item.iteration

theorem keysIdentify {P : Platform} {db : Db} (hsound : Sound P db) {call : UploadCall} (hvalid : call.validate P = .ok ()) :
    KeysIdentify db call := by
  have haccepted := call_document hvalid
  -- both keys stand over a receipt, and a receipt over a run that was registered under an id of the pattern
  have hpattern : ∀ s ∈ db.receipts, runIDPattern s.runID = true := by
    intro s hs
    obtain ⟨r, hr, hid, -⟩ := (hsound.receipts s hs).run
    exact hid ▸ (hsound.runs r hr).pattern
  constructor
  · intro s hs hkey
    rw [(hsound.receipts s hs).key, haccepted.key_eq] at hkey
    exact shardKey_inj (hpattern s hs) haccepted.runID_pattern hkey
  · intro item hitem row hrow hkey
    obtain ⟨s, hs, hrunID, -⟩ := (hsound.cases row hrow).receipt
    rw [(hsound.cases row hrow).key, (haccepted.cases_accepted item hitem).key_eq] at hkey
    exact caseKey_inj (hrunID ▸ hpattern s hs) haccepted.runID_pattern hkey

/-- **Idempotency keys identify their object**: the worker and the API compose the same ones, they are injective, and in
    no reachable database does the key of an accepted upload belong to another identity. -/
theorem idempotency_keys :
    (∀ sensitive runID result,
      (casePayload sensitive runID result).idempotencyKey = caseKey runID result.caseID result.iteration) ∧
    Set.InjOn (fun x : String × String × Int => caseKey x.1 x.2.1 x.2.2)
      { x | runIDPattern x.1 = true ∧ x.2.1 ≠ "" ∧ 0 ≤ x.2.2 } ∧
    Set.InjOn (fun x : String × Int => shardKey x.1 x.2) { x | runIDPattern x.1 = true ∧ 0 ≤ x.2 } ∧
    ∀ (P : Platform) (policy : LimitPolicy) (es : List Txn) (call : UploadCall), call.validate P = .ok () →
      KeysIdentify ((machine P policy).run Db.empty es) call := by
  refine ⟨casePayload_key, ?_, ?_, fun P policy es call hvalid => keysIdentify (sound_run es) hvalid⟩
  · rintro ⟨r, c, n⟩ ⟨hr, -⟩ ⟨r', c', n'⟩ ⟨hr', -⟩ hkey
    obtain ⟨rfl, rfl, rfl⟩ := caseKey_inj hr hr' hkey
    rfl
  · rintro ⟨r, i⟩ ⟨hr, -⟩ ⟨r', i'⟩ ⟨hr', -⟩ hkey
    obtain ⟨rfl, rfl⟩ := shardKey_inj hr hr' hkey
    rfl

/-- A run with one finished shard. -/
def finishedRun : List Txn :=
  let call := UploadCall.reference "run" 0 "" (.single "run" "a b/c")
  [registerAt 0 "run" (.reference "suite" "indexed" 1), ⟨.reserveShard call, 1, 1⟩, ⟨.finalizeShard call none, 2, 2⟩]

theorem idempotency_keys_replayed :
    ∃ row ∈ ((machine (.reference []) .unlimited).run Db.empty finishedRun).cases,
      row.idempotencyKey = "run/run/case/a+b%2Fc/iteration/0" ∧ row.runID = "run" ∧ row.caseID = "a b/c" ∧
        row.iteration = 0 := by
  have hrow : ∃ row ∈ ((machine (.reference []) .unlimited).run Db.empty finishedRun).cases.rows,
      row.idempotencyKey = "run/run/case/a+b%2Fc/iteration/0" := by decide +kernel
  obtain ⟨row, hrow, hkey⟩ := hrow
  have hvalid : (UploadCall.reference "run" 0 "" (.single "run" "a b/c")).validate (.reference []) = .ok () := by
    decide +kernel
  have hidentify := idempotency_keys.2.2.2 (.reference []) .unlimited finishedRun _ hvalid
  have hitem : CaseResult.reference "run" "a b/c" ∈
    (UploadCall.reference "run" 0 "" (.single "run" "a b/c")).document.cases := by decide +kernel
  have hitemKey : (CaseResult.reference "run" "a b/c").idempotencyKey = "run/run/case/a+b%2Fc/iteration/0" := by
    decide +kernel
  exact ⟨row, hrow, hkey, hidentify.case _ hitem row hrow (hkey.trans hitemKey.symm)⟩

end AgentStorm.Worker
