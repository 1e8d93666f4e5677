import AgentStorm.Results.Shards

/-!
# `Results.Validate` — what the service checks before it touches a store

The validation functions of `internal/results/service.go`, check by check and in source order, with the messages
they answer. `validateShard` is cut along its loops: identity, fields, attempts, tool path, assertions and outcome
of one case, the totals carried from case to case, and the summary before and after the loop.
-/

namespace AgentStorm.Results

open Checks Numeric Reliability Text

def schemaVersion : String := "v1alpha1"

/-- `validationError(message)` behind a guard. -/
def invalid (bad : Bool) (message : String) : Except ApiError Unit := reject bad (.validation message)

def validateRunID (runID : String) : Except ApiError Unit :=
  invalid (!runIDPattern runID) "run ID must use 1-200 letters, digits, dots, underscores, or hyphens"

/-! ## Registrations -/

/-- `reliability.ParseScenario`: the normalized scenario, its canonical bytes and their digest. -/
def parseScenario (P : Platform) (payload : Bytes) : Except String (FaultScenario × Bytes × String) := do
  reject (decide (maxScenarioBytes < payload.length)) "scenario exceeds 65536 bytes"
  let decoded ← orElse (P.decodeScenario payload) "decode FaultScenario"
  let scenario ← validateScenario P.quote decoded
  let canonical := P.marshalScenario scenario
  return (scenario, canonical, "sha256:" ++ P.sha256Hex canonical)

/-- The stored digest is the digest of the document's own normal form. -/
def scenarioDigestMatches (P : Platform) (scenario : RunFaultScenarioSnapshot) : Bool :=
  match parseScenario P (P.marshalScenario scenario.document) with
  | .ok (_, canonical, digest) => decide (canonical.length ≤ 64 * 1024 ∧ digest = scenario.digest)
  | .error _ => false

def validateReliability (P : Platform) (reliability : RunReliability) : Except ApiError Unit := do
  let retry := reliability.retry
  invalid (reliability.seed.any fun seed => decide (seed < 0)) "reliability seed must not be negative"
  invalid (decide (retry.maxAttempts < 1 ∨ 10 < retry.maxAttempts ∨ retry.initialBackoffMS < 1 ∨
      retry.maxBackoffMS < retry.initialBackoffMS ∨ retry.maxCumulativeBackoffMS < 1) ||
      !validMetric retry.jitterRatio || retry.jitterRatio.lt 0 || retry.jitterRatio.gt 1)
    "reliability retry snapshot is invalid"
  invalid (reliability.circuitBreaker.any fun b => decide (b.failureThreshold < 1 ∨ b.openDurationMS < 1))
    "reliability circuit breaker snapshot is invalid"
  match reliability.scenario with
  | none => return ()
  | some scenario =>
    invalid (reliability.seed.isNone || blank scenario.source.name || blank scenario.source.key ||
      !digestPattern scenario.digest) "reliability scenario snapshot is invalid"
    invalid (!scenarioDigestMatches P scenario)
      "reliability scenario digest does not match its normalized document"

def validateScheduling (scheduling : RunScheduling) : Except ApiError Unit := do
  invalid (decide (scheduling.strategy ≠ "indexed" ∧ scheduling.strategy ≠ "keda"))
    "scheduling strategy must be indexed or keda"
  invalid (decide (scheduling.maxWorkers < 1 ∨ 1000 < scheduling.maxWorkers))
    "scheduling max_workers must be between 1 and 1000"
  invalid (decide (scheduling.resourceProfile ∉ ["small", "medium", "large"])) "scheduling resource_profile is invalid"

/-- A threshold between 0 and 1. -/
def validateRate (name : String) (value : Option Float64) : Except ApiError Unit :=
  invalid (value.any fun v => !validMetric v || v.lt 0 || v.gt 1) (name ++ " must be between 0 and 1")

/-- The source ranges over a map of the two rates, so which one is reported first is not fixed there. -/
def validateEvaluation (evaluation : Evaluation) : Except ApiError Unit := do
  validateRate "min_success_rate" evaluation.minSuccessRate
  validateRate "max_failure_rate" evaluation.maxFailureRate
  invalid (evaluation.maxP95MS.any fun v => !validMetric v || v.lt 0) "max_p95_ms must not be negative"

def validateTarget (target : RunTarget) : Except ApiError Unit := do
  invalid (blank target.provider) "target provider is required"
  invalid (invalidText target.provider 128 || invalidText target.model 512 || invalidText target.adapterEntrypoint 256)
    "target fields exceed their size limit or contain NUL"
  invalid (decide (target.adapterEntrypoint ≠ "") && !entrypointPattern target.adapterEntrypoint)
    "target adapter_entrypoint must be a module:function reference"
  invalid (target.pricing.any fun p =>
      !pricePattern p.inputUSDPerMillionTokens || !pricePattern p.outputUSDPerMillionTokens)
    "target pricing must contain non-negative decimal USD prices"

def validateRegistration (P : Platform) (runID idempotencyKey : String) (registration : Registration) :
    Except ApiError Unit := do
  validateRunID runID
  invalid (decide (idempotencyKey ≠ registrationKey runID)) "invalid registration idempotency key"
  invalid (decide (registration.schemaVersion ≠ schemaVersion)) "schema_version must be \"v1alpha1\""
  invalid (decide (registration.expectedShards < 1 ∨ 10000 < registration.expectedShards))
    "expected_shards must be between 1 and 10000"
  invalid (blank registration.source.namespace || blank registration.source.name)
    "source namespace and name are required"
  invalid (invalidText registration.source.namespace 253 || invalidText registration.source.name 253)
    "source namespace and name must be valid text no longer than 253 bytes"
  validateTarget registration.target
  invalid (blank registration.dataset.name || blank registration.dataset.key) "dataset name and key are required"
  invalid (invalidText registration.dataset.name 253 || invalidText registration.dataset.key 1024)
    "dataset fields exceed their size limit or contain NUL"
  validateEvaluation registration.evaluation
  match registration.reliability with
  | none => pure ()
  | some reliability => validateReliability P reliability
  match registration.scheduling with
  | none => pure ()
  | some scheduling => validateScheduling scheduling

def validateTerminal (runID idempotencyKey : String) (terminal : TerminalRequest) : Except ApiError Unit := do
  validateRunID runID
  invalid (!terminal.status.terminal) "terminal status must be cancelled or harness_failed"
  invalid (decide (idempotencyKey ≠ terminalKey runID terminal.status)) "invalid terminal idempotency key"
  invalid (!reasonCodePattern terminal.reasonCode) "terminal reason_code must be a stable lowercase identifier"

def validateSchedulerLease (runID permitID leaseToken : String) : Except ApiError Unit := do
  validateRunID runID
  invalid (!hexPattern 32 permitID) "permit ID is invalid"
  invalid (blank leaseToken || invalidText leaseToken 512) "lease_token is required"

/-! ### Only validation errors -/

variable {P : Platform} {runID : String}

theorem failsOnly_invalid {bad : Bool} {message : String} :
    FailsOnly (fun err => ∃ m, err = .validation m) (invalid bad message) :=
  failsOnly_reject fun _ => ⟨message, rfl⟩

theorem failsOnly_validateReliability {reliability : RunReliability} :
    FailsOnly (fun err => ∃ m, err = .validation m) (validateReliability P reliability) := by
  refine failsOnly_invalid.bind fun _ _ => failsOnly_invalid.bind fun _ _ => failsOnly_invalid.bind fun _ _ => ?_
  cases reliability.scenario with
  | none => exact failsOnly_ok ()
  | some => exact failsOnly_invalid.bind fun _ _ => failsOnly_invalid

theorem failsOnly_validateTarget {target : RunTarget} :
    FailsOnly (fun err => ∃ m, err = .validation m) (validateTarget target) :=
  failsOnly_invalid.bind fun _ _ => failsOnly_invalid.bind fun _ _ => failsOnly_invalid.bind fun _ _ => failsOnly_invalid

theorem failsOnly_validateScheduling {scheduling : RunScheduling} :
    FailsOnly (fun err => ∃ m, err = .validation m) (validateScheduling scheduling) :=
  failsOnly_invalid.bind fun _ _ => failsOnly_invalid.bind fun _ _ => failsOnly_invalid

theorem failsOnly_validateEvaluation {evaluation : Evaluation} :
    FailsOnly (fun err => ∃ m, err = .validation m) (validateEvaluation evaluation) :=
  failsOnly_invalid.bind fun _ _ => failsOnly_invalid.bind fun _ _ => failsOnly_invalid

/-- The checks of a registration never speak of a conflict. -/
theorem failsOnly_validateRegistration {key : String} {registration : Registration} :
    FailsOnly (fun err => ∃ m, err = .validation m) (validateRegistration P runID key registration) := by
  refine failsOnly_invalid.bind fun _ _ => failsOnly_invalid.bind fun _ _ => failsOnly_invalid.bind fun _ _ => ?_
  refine failsOnly_invalid.bind fun _ _ => failsOnly_invalid.bind fun _ _ => failsOnly_invalid.bind fun _ _ => ?_
  refine failsOnly_validateTarget.bind fun _ _ => failsOnly_invalid.bind fun _ _ => failsOnly_invalid.bind fun _ _ => ?_
  refine failsOnly_validateEvaluation.bind fun _ _ => ?_
  have hscheduling : FailsOnly (fun err => ∃ m, err = .validation m)
      (match registration.scheduling with | none => pure () | some scheduling => validateScheduling scheduling) := by
    cases registration.scheduling with
    | none => exact failsOnly_ok ()
    | some => exact failsOnly_validateScheduling
  cases registration.reliability with
  | none => exact hscheduling
  | some => exact failsOnly_validateReliability.bind fun _ _ => hscheduling

/-! ## Cases of a shard -/

def validFailureCategory (value : String) : Bool := value ∈ ["evaluation", "provider", "tool", "harness"]

def validAttemptOutcome (value : String) : Bool := value ∈ ["succeeded", "failed", "rejected", "cancelled"]

def validInjectedFault (value : String) : Bool :=
  value ∈ ["latency", "timeout", "http_error", "malformed_response", "rate_limit", "tool_error"]

def validCircuitEvent (value : String) : Bool := value ∈ ["open", "reject", "half_open", "close", "reopen"]

/-- The message about field `suffix` of case `index`. -/
def caseMessage (index : Nat) (suffix : String) : String := "cases[" ++ toString index ++ "]" ++ suffix

/-- Sums over attempts or cases that the checks compare; `modelCallsKnown` turns false at the first unknown. -/
structure Totals where
  inputTokens : Int
  outputTokens : Int
  modelCalls : Int
  toolCalls : Int
  modelCallsKnown : Bool
  usageComplete : Bool
  deriving DecidableEq, Repr

def Totals.zero : Totals := ⟨0, 0, 0, 0, true, true⟩

/-- Add one attempt's or case's counts; `kind` is the subject of the overflow messages. -/
def Totals.add (t : Totals) (kind : String) (inputTokens outputTokens : Int) (modelCallCount : Option Int)
    (toolCallCount : Int) (complete : Option Bool) : Except ApiError Totals := do
  invalid (decide (maxInt64 - t.inputTokens < inputTokens ∨ maxInt64 - t.outputTokens < outputTokens))
    (kind ++ " token totals exceed the supported range")
  invalid (modelCallCount.any fun n => decide (maxInt64 - t.modelCalls < n))
    (kind ++ " model call totals exceed the supported range")
  invalid (decide (maxInt64 - t.toolCalls < toolCallCount)) (kind ++ " tool call totals exceed the supported range")
  return {
    inputTokens := t.inputTokens + inputTokens
    outputTokens := t.outputTokens + outputTokens
    modelCalls := t.modelCalls + modelCallCount.getD 0
    toolCalls := t.toolCalls + toolCallCount
    modelCallsKnown := t.modelCallsKnown && modelCallCount.isSome
    usageComplete := t.usageComplete && Results.usageComplete complete }

/-- The fields of one attempt that have a check of their own. -/
def attemptInvalid (position : Nat) (attempt : AttemptResult) : Bool :=
  decide (attempt.number ≠ position + 1) || !validMetric attempt.latencyMS || attempt.latencyMS.lt 0 ||
  decide (attempt.backoffMS < 0 ∨ attempt.inputTokens < 0 ∨ attempt.outputTokens < 0 ∨ attempt.toolCallCount < 0) ||
  (attempt.modelCallCount.any fun n => decide (n < 0)) ||
  !validAttemptOutcome attempt.outcome || blank attempt.retryDecision || invalidText attempt.retryDecision 64 ||
  invalidText attempt.injectedRule 128 || invalidText attempt.errorCode 128 || invalidText attempt.failureCategory 64 ||
  (decide (attempt.failureCategory ≠ "") && !validFailureCategory attempt.failureCategory) ||
  (decide (attempt.errorCode ≠ "") && !reasonCodePattern attempt.errorCode)

def validateAttempt (index position : Nat) (attempt : AttemptResult) : Except ApiError Unit := do
  let path := ".attempts[" ++ toString position ++ "]"
  invalid (attemptInvalid position attempt) (caseMessage index (path ++ " is invalid"))
  invalid (decide (attempt.injectedFault ≠ "") && !validInjectedFault attempt.injectedFault)
    (caseMessage index (path ++ ".injected_fault is invalid"))
  invalid (attempt.circuitEvents.any fun event => !validCircuitEvent event)
    (caseMessage index (path ++ ".circuit_events is invalid"))

/-- The attempts loop, from attempt `position` on. -/
def validateAttempts (index : Nat) : Nat → Totals → List AttemptResult → Except ApiError Totals
  | _, totals, [] => .ok totals
  | position, totals, attempt :: attempts => do
      validateAttempt index position attempt
      let totals' ← totals.add "attempt" attempt.inputTokens attempt.outputTokens attempt.modelCallCount
        attempt.toolCallCount attempt.usageComplete
      validateAttempts index (position + 1) totals' attempts

/-- A case that lists attempts agrees with their sums. -/
def matchAttempts (index : Nat) (item : CaseResult) (totals : Totals) : Except ApiError Unit := do
  let listed := !item.attempts.isEmpty
  invalid (listed && decide (totals.inputTokens ≠ item.inputTokens ∨ totals.outputTokens ≠ item.outputTokens))
    (caseMessage index " token counts do not match attempt totals")
  invalid (listed && decide (usageComplete item.usageComplete ≠ totals.usageComplete))
    (caseMessage index ".usage_complete does not match attempts")
  invalid (listed && totals.modelCallsKnown && decide (item.modelCallCount ≠ some totals.modelCalls))
    (caseMessage index " model call count does not match attempts")
  invalid (listed && !totals.modelCallsKnown && item.modelCallCount.isSome)
    (caseMessage index " model call count must be unknown when any attempt is unknown")
  invalid (listed && decide (item.toolCallCount ≠ totals.toolCalls))
    (caseMessage index " tool call count does not match attempts")

/-- Identity checks; `seen` are the cases before this one. The source keys its set by case id, NUL and iteration,
    and a case id has no NUL here. -/
def validateIdentity (P : Platform) (runID : String) (index : Nat) (seen : List (String × Int)) (item : CaseResult) :
    Except ApiError Unit := do
  invalid (blank item.caseID) (caseMessage index ".case_id is required")
  invalid (invalidText item.caseID 1024) (caseMessage index ".case_id exceeds 1024 bytes or contains NUL")
  invalid (decide (item.iteration < 0)) (caseMessage index ".iteration must not be negative")
  invalid (decide (item.idempotencyKey ≠ caseKey runID item.caseID item.iteration))
    (caseMessage index ".idempotency_key is invalid")
  invalid (decide ((item.caseID, item.iteration) ∈ seen))
    ("duplicate case " ++ P.quote item.caseID ++ " iteration " ++ toString item.iteration)

def validateFields (index : Nat) (item : CaseResult) : Except ApiError Unit := do
  invalid (!validMetric item.latencyMS || item.latencyMS.lt 0 ||
      decide (item.inputTokens < 0 ∨ item.outputTokens < 0 ∨ item.toolCallCount < 0) ||
      item.modelCallCount.any fun n => decide (n < 0))
    (caseMessage index " contains a negative metric")
  invalid (invalidText item.failureKind 128 || invalidText item.failureCategory 64 || invalidText item.errorCode 128 ||
      (item.output.any fun s => invalidText s maxRequestBytes) || item.error.any fun s => invalidText s maxRequestBytes)
    (caseMessage index " contains invalid text")
  invalid (item.inputCostUSD.isSome || item.outputCostUSD.isSome || item.costUSD.isSome)
    (caseMessage index " cost is calculated by the Result API")
  invalid (decide (item.failureCategory ≠ "") && !validFailureCategory item.failureCategory)
    (caseMessage index ".failure_category is invalid")
  invalid (decide (item.errorCode ≠ "") && !reasonCodePattern item.errorCode) (caseMessage index ".error_code is invalid")

def validateToolNames (index : Nat) : Nat → List String → Except ApiError Unit
  | _, [] => .ok ()
  | position, name :: names => do
      invalid (blank name || invalidText name 512)
        (caseMessage index (".tool_path[" ++ toString position ++ "] is invalid"))
      validateToolNames index (position + 1) names

def assertionInvalid (position : Nat) (assertion : AssertionResult) : Bool :=
  decide (assertion.index ≠ position) || invalidText assertion.type 64 || blank assertion.type ||
  invalidText assertion.reasonCode 64 || blank assertion.reasonCode ||
  assertion.message.any fun s => invalidText s maxRequestBytes

def validateAssertions (index : Nat) : Nat → List AssertionResult → Except ApiError Unit
  | _, [] => .ok ()
  | position, assertion :: assertions => do
      invalid (assertionInvalid position assertion)
        (caseMessage index (".assertions[" ++ toString position ++ "] is invalid"))
      validateAssertions index (position + 1) assertions

/-- Success, failure kind and assertions are consistent. -/
def validateOutcome (index : Nat) (item : CaseResult) : Except ApiError Unit := do
  let failedAssertion := item.assertions.any fun a => !a.passed
  invalid (!item.success && blank item.failureKind) (caseMessage index ".failure_kind is required for failed results")
  invalid (item.success && failedAssertion) (caseMessage index " cannot succeed with a failed assertion")
  invalid (decide (item.failureKind = "assertion") && !failedAssertion)
    (caseMessage index " assertion failure requires a failed assertion")

/-- All checks on one case of the loop except the running totals. -/
def validateCase (P : Platform) (runID : String) (index : Nat) (seen : List (String × Int)) (item : CaseResult) :
    Except ApiError Unit := do
  validateIdentity P runID index seen item
  validateFields index item
  invalid (decide (10 < item.attempts.length)) (caseMessage index ".attempts cannot contain more than 10 items")
  let totals ← validateAttempts index 0 Totals.zero item.attempts
  matchAttempts index item totals
  invalid (decide (1000 < item.toolPath.length)) (caseMessage index ".tool_path cannot contain more than 1000 items")
  validateToolNames index 0 item.toolPath
  invalid (decide (100 < item.assertions.length)) (caseMessage index ".assertions cannot contain more than 100 items")
  validateAssertions index 0 item.assertions
  validateOutcome index item

/-- The case loop, from case `index` on. -/
def validateCases (P : Platform) (runID : String) :
    Nat → List (String × Int) → Totals → List CaseResult → Except ApiError Totals
  | _, _, totals, [] => .ok totals
  | index, seen, totals, item :: items => do
      validateCase P runID index seen item
      let totals' ← totals.add "case" item.inputTokens item.outputTokens item.modelCallCount item.toolCallCount
        item.usageComplete
      validateCases P runID (index + 1) ((item.caseID, item.iteration) :: seen) totals' items

/-! ## Shards -/

/-- The summary checks before the case loop. -/
def validateSummaryCounts (summary : ShardSummary) (cases : Nat) : Except ApiError Unit := do
  invalid (decide (summary.total ≠ cases)) "summary total does not match case count"
  invalid (decide (addInt64 summary.succeeded summary.failed ≠ summary.total))
    "summary succeeded and failed counts do not match total"
  invalid (decide (summary.total < 0 ∨ summary.succeeded < 0 ∨ summary.failed < 0) ||
      !validMetric summary.durationMS || summary.durationMS.lt 0 ||
      decide (summary.inputTokens < 0 ∨ summary.outputTokens < 0 ∨ summary.toolCallCount < 0) ||
      summary.modelCallCount.any fun n => decide (n < 0))
    "summary contains a negative or non-finite metric"

/-- The summary checks after the case loop. -/
def validateSummaryTotals (summary : ShardSummary) (cases : Nat) (totals : Totals) : Except ApiError Unit := do
  invalid (decide (totals.inputTokens ≠ summary.inputTokens ∨ totals.outputTokens ≠ summary.outputTokens))
    "summary token counts do not match case totals"
  invalid (summary.usageComplete.any fun complete => decide (complete ≠ totals.usageComplete))
    "summary usage_complete does not match cases"
  if cases = 0 then
    invalid (summary.modelCallCount.any fun n => decide (n ≠ 0)) "empty summary model call count must be zero or unknown"
  else if totals.modelCallsKnown then
    invalid (decide (summary.modelCallCount ≠ some totals.modelCalls)) "summary model call count does not match cases"
  else
    invalid summary.modelCallCount.isSome "summary model call count must be unknown when any case is unknown"
  invalid (decide (summary.toolCallCount ≠ totals.toolCalls)) "summary tool call count does not match cases"

def validateShard (P : Platform) (runID : String) (shardIndex : Int) (idempotencyKey : String) (upload : ShardUpload) :
    Except ApiError Unit := do
  validateRunID runID
  invalid (decide (shardIndex < 0)) "shard index must not be negative"
  invalid (decide (idempotencyKey ≠ shardKey runID shardIndex)) "invalid shard idempotency key"
  invalid (decide (upload.schemaVersion ≠ schemaVersion)) "schema_version must be \"v1alpha1\""
  validateSummaryCounts upload.summary upload.cases.length
  invalid (decide (100000 < upload.cases.length)) "a shard cannot contain more than 100000 cases"
  let totals ← validateCases P runID 0 [] Totals.zero upload.cases
  validateSummaryTotals upload.summary upload.cases.length totals

/-! ## What an accepted request satisfies -/

@[simp] theorem invalid_eq_ok {bad : Bool} {message : String} {u : Unit} :
    invalid bad message = .ok u ↔ bad = false := by
  simp [invalid]

theorem runIDPattern_of_validateRunID (h : validateRunID runID = .ok ()) :
    runIDPattern runID = true := by
  simpa [validateRunID] using h

/-- Prices a cost can be calculated from. -/
def PricingValid (pricing : Option RunPricing) : Prop :=
  ∀ p, pricing = some p →
    pricePattern p.inputUSDPerMillionTokens = true ∧ pricePattern p.outputUSDPerMillionTokens = true

structure RegistrationAccepted (runID idempotencyKey : String) (registration : Registration) : Prop where
  runID_pattern : runIDPattern runID = true
  key_eq : idempotencyKey = registrationKey runID
  shards_pos : 1 ≤ registration.expectedShards
  pricing : PricingValid registration.target.pricing

theorem validateRegistration_ok {key : String} {registration : Registration}
    (h : validateRegistration P runID key registration = .ok ()) :
    RegistrationAccepted runID key registration := by
  simp only [validateRegistration, validateTarget, then_ok_iff, invalid_eq_ok, decide_eq_false_iff_not,
    Decidable.not_not, not_or, not_lt] at h
  obtain ⟨hid, hkey, -, ⟨hshards, -⟩, -, -, ⟨-, -, -, hprice⟩, -⟩ := h
  refine ⟨runIDPattern_of_validateRunID hid, hkey, hshards, ?_⟩
  intro p hp
  simpa [hp] using hprice

theorem validateTerminal_ok {key : String} {terminal : TerminalRequest}
    (h : validateTerminal runID key terminal = .ok ()) :
    runIDPattern runID = true ∧ terminal.status.terminal = true ∧ key = terminalKey runID terminal.status := by
  simp only [validateTerminal, then_ok_iff, invalid_eq_ok, decide_eq_false_iff_not, Decidable.not_not,
    Bool.not_eq_false'] at h
  exact ⟨runIDPattern_of_validateRunID h.1, h.2.1, h.2.2.1⟩

/-- What the repository relies on in a case the service accepted. -/
structure CaseAccepted (runID : String) (item : CaseResult) : Prop where
  key_eq : item.idempotencyKey = caseKey runID item.caseID item.iteration
  iteration_nonneg : 0 ≤ item.iteration
  latency : ∃ q, item.latencyMS = .finite q ∧ 0 ≤ q
  inputTokens_nonneg : 0 ≤ item.inputTokens
  outputTokens_nonneg : 0 ≤ item.outputTokens
  modelCalls_nonneg : ∀ n, item.modelCallCount = some n → 0 ≤ n
  toolCalls_nonneg : 0 ≤ item.toolCallCount

theorem finite_nonneg_of_valid {f : Float64} (hvalid : validMetric f = true) (hlt : f.lt 0 = false) :
    ∃ q, f = .finite q ∧ 0 ≤ q := by
  cases f with
  | finite q => exact ⟨q, rfl, by simpa [Float64.lt] using hlt⟩
  | posInf => exact Bool.noConfusion hvalid
  | negInf => exact Bool.noConfusion hvalid
  | nan => exact Bool.noConfusion hvalid

theorem validateCase_ok {index : Nat} {seen : List (String × Int)} {item : CaseResult}
    (h : validateCase P runID index seen item = .ok ()) :
    CaseAccepted runID item ∧ (item.caseID, item.iteration) ∉ seen := by
  simp only [validateCase, validateIdentity, validateFields, then_ok_iff, invalid_eq_ok, decide_eq_false_iff_not,
    Decidable.not_not, not_lt, Bool.or_eq_false_iff, Bool.not_eq_false', not_or] at h
  obtain ⟨⟨-, -, hiter, hkey, hseen⟩, ⟨⟨⟨⟨hvalid, hlt⟩, hin, hout, htool⟩, hmodel⟩, -⟩, -⟩ := h
  refine ⟨⟨hkey, hiter, finite_nonneg_of_valid hvalid hlt, hin, hout, ?_, htool⟩, hseen⟩
  intro n hn
  simpa [hn] using hmodel

/-- The case loop accepts every case, and no identity twice. -/
theorem validateCases_ok {items : List CaseResult} {index : Nat} {seen : List (String × Int)}
    {totals totals' : Totals} (h : validateCases P runID index seen totals items = .ok totals') :
    (∀ item ∈ items, CaseAccepted runID item ∧ (item.caseID, item.iteration) ∉ seen) ∧
      (items.map fun item => (item.caseID, item.iteration)).Nodup := by
  induction items generalizing index seen totals with
  | nil => exact ⟨by simp, by simp⟩
  | cons item items ih =>
    simp only [validateCases, then_ok_iff] at h
    obtain ⟨hcase, hbind⟩ := h
    obtain ⟨_, -, hrest⟩ := bind_ok_iff.mp hbind
    obtain ⟨hall, hnodup⟩ := ih hrest
    constructor
    · intro other hother
      rcases List.mem_cons.mp hother with rfl | hother
      · exact validateCase_ok hcase
      · exact ⟨(hall other hother).1, fun hmem => (hall other hother).2 (List.mem_cons_of_mem _ hmem)⟩
    · rw [List.map_cons, List.nodup_cons]
      refine ⟨?_, hnodup⟩
      intro hmem
      obtain ⟨other, hother, heq⟩ := List.mem_map.mp hmem
      exact (hall other hother).2 (by rw [heq]; exact List.mem_cons_self)

structure ShardAccepted (runID : String) (shardIndex : Int) (idempotencyKey : String) (upload : ShardUpload) : Prop where
  runID_pattern : runIDPattern runID = true
  index_nonneg : 0 ≤ shardIndex
  key_eq : idempotencyKey = shardKey runID shardIndex
  cases_accepted : ∀ item ∈ upload.cases, CaseAccepted runID item
  cases_nodup : (upload.cases.map fun item => (item.caseID, item.iteration)).Nodup
  total_eq : upload.summary.total = upload.cases.length

theorem validateShard_ok {key : String} {shardIndex : Int} {upload : ShardUpload}
    (h : validateShard P runID shardIndex key upload = .ok ()) :
    ShardAccepted runID shardIndex key upload := by
  simp only [validateShard, then_ok_iff, invalid_eq_ok, decide_eq_false_iff_not, Decidable.not_not, not_lt] at h
  obtain ⟨hid, hindex, hkey, -, hcounts, -, hbind⟩ := h
  obtain ⟨_, hcases, -⟩ := bind_ok_iff.mp hbind
  obtain ⟨hall, hnodup⟩ := validateCases_ok hcases
  simp only [validateSummaryCounts, then_ok_iff, invalid_eq_ok, decide_eq_false_iff_not, Decidable.not_not] at hcounts
  exact ⟨runIDPattern_of_validateRunID hid, hindex, hkey, fun item hitem => (hall item hitem).1, hnodup, hcounts.1⟩

/-! ## Normalization -/

def normalizeAttempt (attempt : AttemptResult) : AttemptResult :=
  { attempt with usageComplete := some (usageComplete attempt.usageComplete) }

/-- The failure category of a failed case that names none, and the error code that goes with it. -/
def legacyFailure (failureKind : String) : String × String :=
  if failureKind = "assertion" then ("evaluation", "legacy_assertion_failure")
  else if failureKind = "tool" then ("tool", "legacy_tool_failure")
  else if failureKind = "harness" then ("harness", "legacy_harness_failure")
  else ("provider", "legacy_provider_failure")

def normalizeCase (item : CaseResult) : CaseResult :=
  let item := { item with
    attempts := item.attempts.map normalizeAttempt
    usageComplete := some (usageComplete item.usageComplete) }
  if item.success || decide (item.failureCategory ≠ "") then item
  else
    let (category, code) := legacyFailure item.failureKind
    { item with
      failureCategory := category
      errorCode := if item.errorCode = "" then code else item.errorCode }

def normalizeShard (upload : ShardUpload) : ShardUpload :=
  { upload with
    summary := { upload.summary with usageComplete := some (usageComplete upload.summary.usageComplete) }
    cases := upload.cases.map normalizeCase }

/-- What is filled in for a failed case without a category is valid. -/
theorem legacyFailure_valid (failureKind : String) :
    validFailureCategory (legacyFailure failureKind).1 = true ∧ invalidText (legacyFailure failureKind).1 64 = false ∧
      reasonCodePattern (legacyFailure failureKind).2 = true ∧ invalidText (legacyFailure failureKind).2 128 = false := by
  unfold legacyFailure
  split
  · decide
  · split
    · decide
    · split <;> decide

theorem legacyFailure_ne (failureKind : String) : (legacyFailure failureKind).1 ≠ "" := by
  intro hempty
  have hvalid := (legacyFailure_valid failureKind).1
  rw [hempty] at hvalid
  exact absurd hvalid (by decide)

/-- Normalization only fills in what a legacy document left out. -/
theorem CaseAccepted.normalizeCase {item : CaseResult} (h : CaseAccepted runID item) :
    CaseAccepted runID (normalizeCase item) := by
  unfold Results.normalizeCase
  dsimp only
  split
  · exact ⟨h.key_eq, h.iteration_nonneg, h.latency, h.inputTokens_nonneg, h.outputTokens_nonneg,
      h.modelCalls_nonneg, h.toolCalls_nonneg⟩
  · exact ⟨h.key_eq, h.iteration_nonneg, h.latency, h.inputTokens_nonneg, h.outputTokens_nonneg,
      h.modelCalls_nonneg, h.toolCalls_nonneg⟩

@[simp] theorem normalizeCase_caseID (item : CaseResult) : (normalizeCase item).caseID = item.caseID := by
  unfold normalizeCase
  dsimp only
  split <;> rfl

@[simp] theorem normalizeCase_iteration (item : CaseResult) : (normalizeCase item).iteration = item.iteration := by
  unfold normalizeCase
  dsimp only
  split <;> rfl

/-- The document a call stores is accepted whenever the upload was. -/
theorem ShardAccepted.normalizeShard {key : String} {shardIndex : Int} {upload : ShardUpload}
    (h : ShardAccepted runID shardIndex key upload) :
    ShardAccepted runID shardIndex key (normalizeShard upload) := by
  refine ⟨h.runID_pattern, h.index_nonneg, h.key_eq, ?_, ?_, ?_⟩
  · intro item hitem
    obtain ⟨raw, hraw, rfl⟩ := List.mem_map.mp hitem
    exact (h.cases_accepted raw hraw).normalizeCase
  · show ((upload.cases.map Results.normalizeCase).map fun item => (item.caseID, item.iteration)).Nodup
    rw [List.map_map]
    simpa [Function.comp_def] using h.cases_nodup
  · show upload.summary.total = (upload.cases.map Results.normalizeCase).length
    rw [List.length_map, h.total_eq]

end AgentStorm.Results
