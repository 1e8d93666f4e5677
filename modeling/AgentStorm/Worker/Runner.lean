import AgentStorm.Foundation.Checks
import AgentStorm.Worker.Recovery

/-!
# `Worker.Runner` — from attempts to a case result

The case part of `runner.py`: one attempt, the retry loop around it, the result of a case and the
summary of a shard. What the outside contributes is a value: `Invocation` for one attempt, `CaseWorld`
for a case. A script that ends while the loop would go on is a case stopped from outside, which has no
result; neither has a case whose backoff cannot be computed. The breaker is shared between cases, so a
case meets one state when it starts and any other when it ends.

Latencies are measured with a monotonic clock, so they are nonnegative. Costs stay out: the worker
never sends them.
-/

namespace AgentStorm.Worker

open Checks Numeric Python

/-! ## Attempts -/

structure ReliabilityConfig where
  seed : Option Nat
  retry : RetryConfig
  circuitBreaker : Option CircuitBreakerConfig
  scenario : Option FaultScenarioConfig

inductive AttemptOutcome
  | succeeded
  | failed
  | rejected
  deriving DecidableEq, Repr

def AttemptOutcome.text : AttemptOutcome → String
  | succeeded => "succeeded"
  | failed => "failed"
  | rejected => "rejected"

structure AttemptResult where
  number : Nat
  latencyMS : ℚ≥0
  outcome : AttemptOutcome
  failureCategory : Option FailureCategory := none
  errorCode : Option ErrorCode := none
  injectedRule : String := ""
  injectedFault : Option Fault := none
  ambiguous : Bool := false
  retryDecision : RetryDecision := .notNeeded
  backoffMS : Nat := 0
  inputTokens : Option Nat := none
  outputTokens : Option Nat := none
  usageComplete : Bool := true
  modelCallCount : Option Nat := none
  toolCallCount : Nat := 0
  circuitEvents : List CircuitEvent := []

/-- What happens to an attempt that has time left. -/
inductive Work
  /-- The permit is refused, or lost while the adapter runs. -/
  | limited (failure : LimiterFailure) (started : List String)
  /-- `asyncio.wait_for` expires. -/
  | overran (started : List String)
  | ran (run : AdapterRun)

/-- One attempt seen from outside: the seconds to the deadline when it starts and when a retry is weighed, and the
    measured latency. -/
structure Invocation where
  remaining : ℚ
  work : Work
  latencyMS : ℚ≥0
  left : ℚ

abbrev Ending := Except ExecutionError AdapterResponse

/-- The error of an attempt, if it failed. -/
def raised : Ending → Option ExecutionError
  | .error error => some error
  | .ok _ => none

/-- The response of an attempt, which an error may carry too. -/
def answered : Ending → Option AdapterResponse
  | .error error => error.response
  | .ok response => some response

section Case

variable (draw : String → ℚ) (reliability : Option ReliabilityConfig) (caseID : Python.Text) (iteration : Nat)

/-- The tools an attempt starts and how it ends. -/
def attemptEnd (number : Nat) (invocation : Invocation) : List String × Ending :=
  if invocation.remaining ≤ 0 then
    ([], .error { category := .provider, code := .timeout, failureKind := .timeout, ambiguous := true })
  else
    match invocation.work with
    | .limited failure started => (started, .error failure.error)
    | .overran started => (started, .error (classifyAdapterException .timeoutError))
    | .ran run =>
      match selectFaultRule draw (reliability.bind (·.scenario)) (reliability.bind (·.seed)) caseID iteration
        number with
      | .error _ => ([], .error (classifyAdapterException .other))
      | .ok rule =>
        let (started, ending) := faultsRun rule run
        (started, ending.mapError classifyAdapterException)

/-- The record `_invoke_attempt` makes of an attempt. -/
def invokeAttempt (number : Nat) (latencyMS : ℚ≥0) (toolPath : List String) (ending : Ending) : AttemptResult :=
  let response := answered ending
  let usageComplete := match ending with
    | .error error => error.usageComplete
    | .ok response => response.usageKnown
  let tokens (count : AdapterResponse → Option Nat) : Option Nat := match response with
    | some response => count response
    | none => if usageComplete then some 0 else none
  let injectedFault := match ending with
    | .error error => error.injectedFault
    | .ok response => response.injectedFault
  { number, latencyMS, usageComplete, injectedFault
    outcome := if (raised ending).isSome then .failed else .succeeded
    failureCategory := (raised ending).map (·.category)
    errorCode := (raised ending).map (·.code)
    injectedRule := match ending with
      | .error error => error.injectedRule
      | .ok response => response.injectedRule
    ambiguous := (raised ending).any (·.ambiguous)
    inputTokens := tokens (·.inputTokens)
    outputTokens := tokens (·.outputTokens)
    modelCallCount := match response with
      | some response => response.modelCallCount
      | none => if injectedFault ∈ [some .timeout, some .rateLimit, some .httpError] then some 0 else none
    toolCallCount := if toolPath.isEmpty then (response.bind (·.toolCallCount)).getD 0 else toolPath.length
    circuitEvents := ((raised ending).map (·.circuitEvents)).getD [] }

/-- The decision after a failed attempt, before the budgets are looked at. -/
def decideRetry (retry : RetryConfig) (permit : CircuitPermit) (number : Nat) (error : ExecutionError) : RetryDecision :=
  let eligible := retryEligibility error retry
  let probed := if eligible.retries && permit.probe then .halfOpenNoRetry else eligible
  if probed.retries && decide (retry.maxAttempts ≤ number) then .attemptLimit else probed

/-- The decision after attempt `number` and the backoff before the next one; `spent` is the backoff so far. The backoff
    is compared with the time left in seconds, so a quotient that no float reaches is an `OverflowError`. -/
def weighRetry (permit : CircuitPermit) (number spent : Nat) (left : ℚ) (ending : Ending) :
    Except Error (RetryDecision × Nat) :=
  match raised ending, reliability with
  | none, _ => .ok (.notNeeded, 0)
  | some _, none => .ok (.notRetryable, 0)
  | some error, some reliability =>
    let retry := reliability.retry
    let decision := decideRetry retry permit number error
    if decision.retries then do
      let backoffMS ← retryBackoffMS draw retry reliability.seed caseID iteration number
      if retry.maxCumulativeBackoffMS < spent + backoffMS then .ok (.backoffBudget, 0)
      else if Float64.bound ≤ (backoffMS : ℚ) / 1000 then .error .overflow
      else if max 0 left ≤ (backoffMS : ℚ) / 1000 then .ok (.timeBudget, 0)
      else .ok (decision, backoffMS)
    else .ok (decision, 0)

/-- The attempts of a case so far, with the tools and the end of the latest one. -/
structure Attempted where
  attempts : List AttemptResult
  toolPath : List String
  ending : Ending

/-- Attempt `number`, with the events of the permit on the first one and the decision about the next. -/
def tryOnce (permit : CircuitPermit) (number spent : Nat) (invocation : Invocation) :
    Except Error (AttemptResult × List String × Ending) :=
  let (toolPath, ending) := attemptEnd draw reliability caseID iteration number invocation
  let attempt := invokeAttempt number invocation.latencyMS toolPath ending
  let circuitEvents := if number = 1 then attempt.circuitEvents ++ permit.events else attempt.circuitEvents
  (weighRetry draw reliability caseID iteration permit number spent invocation.left ending).map
    fun (retryDecision, backoffMS) => ({ attempt with retryDecision, backoffMS, circuitEvents }, toolPath, ending)

/-- The loop of `_execute_permitted_case`, from attempt `number` on. -/
def attemptLoop (permit : CircuitPermit) : Nat → Nat → List Invocation → Option (Except Error Attempted)
  | _, _, [] => none
  | number, spent, invocation :: script =>
    match tryOnce draw reliability caseID iteration permit number spent invocation with
    | .error error => some (.error error)
    | .ok (attempt, toolPath, ending) =>
      if attempt.retryDecision.retries then
        (attemptLoop permit (number + 1) (spent + attempt.backoffMS) script).map fun later =>
          later.map fun later => { later with attempts := attempt :: later.attempts }
      else some (.ok ⟨[attempt], toolPath, ending⟩)

end Case

/-- `attempts[-1].circuit_events.extend(events)` -/
def extendLast (events : List CircuitEvent) : List AttemptResult → List AttemptResult
  | [] => []
  | [attempt] => [{ attempt with circuitEvents := attempt.circuitEvents ++ events }]
  | attempt :: next :: attempts => attempt :: extendLast events (next :: attempts)

/-! ## Assertions -/

inductive AssertionType
  | exact
  | contains
  | regex
  | jsonSchema
  | toolPath
  | latency
  | python
  deriving DecidableEq, Repr

def AssertionType.text : AssertionType → String
  | exact => "exact"
  | contains => "contains"
  | regex => "regex"
  | jsonSchema => "json_schema"
  | toolPath => "tool_path"
  | latency => "latency"
  | python => "python"

inductive ReasonCode
  | passed
  | mismatch
  | invalidJSON
  | schemaViolation
  | pathMismatch
  | latencyExceeded
  | exception
  deriving DecidableEq, Repr

def ReasonCode.text : ReasonCode → String
  | passed => "passed"
  | mismatch => "mismatch"
  | invalidJSON => "invalid_json"
  | schemaViolation => "schema_violation"
  | pathMismatch => "path_mismatch"
  | latencyExceeded => "latency_exceeded"
  | exception => "exception"

/-- What the evaluator of one assertion answers. -/
structure Verdict where
  passed : Bool
  reasonCode : ReasonCode
  message : Option String

structure AssertionOutcome where
  index : Nat
  type : AssertionType
  passed : Bool
  reasonCode : ReasonCode
  message : Option String

/-- `_evaluate_one`; an evaluator that raises fails its assertion with the exception's text. -/
def evaluateOne (index : Nat) (type : AssertionType) : Except String Verdict → AssertionOutcome
  | .ok verdict => ⟨index, type, verdict.passed, verdict.reasonCode, verdict.message⟩
  | .error text => ⟨index, type, false, .exception, some text⟩

def evaluate (judged : List (AssertionType × Except String Verdict)) : List AssertionOutcome :=
  judged.zipIdx.map fun ((type, verdict), index) => evaluateOne index type verdict

/-! ## Results -/

/-- The result of a case under an id of type `ι`: the text of the dataset, or a string that can be uploaded. -/
structure CaseResultOf (ι : Type) where
  caseID : ι
  iteration : Nat
  success : Bool
  latencyMS : ℚ≥0
  failureKind : Option FailureKind
  failureCategory : Option FailureCategory
  errorCode : Option ErrorCode
  attempts : List AttemptResult
  usageComplete : Bool
  output : String
  error : Option String
  inputTokens : Nat
  outputTokens : Nat
  modelCallCount : Option Nat
  toolCallCount : Nat
  toolPath : List String
  assertions : List AssertionOutcome

abbrev CaseResult := CaseResultOf String

variable {ι : Type}

/-- `sum(item or 0)` -/
def total (counts : List (Option Nat)) : Nat := (counts.map (·.getD 0)).sum

/-- The sum when every count is known. -/
def totalKnown (counts : List (Option Nat)) : Option Nat := if counts.all (·.isSome) then some (total counts) else none

def attemptUsage (attempts : List AttemptResult) : Nat × Nat × Bool :=
  (total (attempts.map (·.inputTokens)), total (attempts.map (·.outputTokens)), attempts.all (·.usageComplete))

def attemptCalls (attempts : List AttemptResult) : Option Nat × Nat :=
  (totalKnown (attempts.map (·.modelCallCount)), (attempts.map (·.toolCallCount)).sum)

def failedResult (caseID : ι) (iteration : Nat) (error : ExecutionError) (attempts : List AttemptResult)
    (toolPath : List String) (latencyMS : ℚ≥0) : CaseResultOf ι :=
  let (inputTokens, outputTokens, usageComplete) := attemptUsage attempts
  let (modelCallCount, toolCallCount) := attemptCalls attempts
  { caseID, iteration, attempts, toolPath, latencyMS, inputTokens, outputTokens, usageComplete, modelCallCount,
    toolCallCount
    success := false
    failureKind := some error.failureKind
    failureCategory := some error.category
    errorCode := some error.code
    output := ""
    error := some error.message
    assertions := [] }

/-- The result of a case whose last attempt got a response that was evaluated. -/
def evaluatedResult (caseID : ι) (iteration : Nat) (response : AdapterResponse) (outcomes : List AssertionOutcome)
    (attempts : List AttemptResult) (toolPath : List String) (latencyMS : ℚ≥0) : CaseResultOf ι :=
  let (inputTokens, outputTokens, usageComplete) := attemptUsage attempts
  let (modelCallCount, toolCallCount) := attemptCalls attempts
  let success := outcomes.all (·.passed)
  let failedTypes := (outcomes.filter (!·.passed)).map (·.type.text)
  { caseID, iteration, attempts, toolPath, latencyMS, inputTokens, outputTokens, usageComplete, modelCallCount,
    toolCallCount, success
    failureKind := if success then none else some .assertion
    failureCategory := if success then none else some .evaluation
    errorCode := if success then none else some .assertionFailed
    output := response.output
    error := if success then none else some ("failed assertions: " ++ String.intercalate ", " failedTypes)
    assertions := outcomes }

/-- What the outside contributes to one case: clock and breaker when it starts and when it ends, the attempts, what the
    evaluators answer (`none` if the registry itself raises) and the measured latency. -/
structure CaseWorld where
  acquiredAt : ℚ
  breaker : CircuitBreaker
  script : List Invocation
  recordedAt : ℚ
  breakerEnd : CircuitBreaker
  judged : Option (List (AssertionType × Except String Verdict))
  latencyMS : ℚ≥0

/-- How `_execute_permitted_case` ends once the attempts are made. -/
def concludeCase (caseID : ι) (iteration : Nat) (ending : Ending)
    (judged : Option (List (AssertionType × Except String Verdict))) (attempts : List AttemptResult)
    (toolPath : List String) (latencyMS : ℚ≥0) : CaseResultOf ι :=
  match ending with
  | .error error => failedResult caseID iteration error attempts toolPath latencyMS
  | .ok response =>
    match judged with
    | none =>
      failedResult caseID iteration { category := .harness, code := .evaluatorFailure, failureKind := .harness }
        attempts toolPath latencyMS
    | some judged => evaluatedResult caseID iteration response (evaluate judged) attempts toolPath latencyMS

/-- The only attempt of a case the breaker rejects. -/
def rejectedAttempt (error : ExecutionError) : AttemptResult :=
  { number := 1, latencyMS := 0, outcome := .rejected, failureCategory := some error.category,
    errorCode := some error.code, retryDecision := .notRetryable, inputTokens := some 0, outputTokens := some 0,
    usageComplete := true, modelCallCount := some 0, toolCallCount := 0, circuitEvents := error.circuitEvents }

section Case

variable (text : ι → Python.Text) (draw : String → ℚ) (reliability : Option ReliabilityConfig) (caseID : ι)
  (iteration : Nat)

/-- The result of a case that is neither stopped nor raises. -/
def executePermittedCase (permit : CircuitPermit) (world : CaseWorld) : Option (CaseResultOf ι) :=
  match attemptLoop draw reliability (text caseID) iteration permit 1 0 world.script with
  | some (.ok attempted) =>
    let error := raised attempted.ending
    let (events, _) := recordTerminal (reliability.bind (·.circuitBreaker)) world.recordedAt permit error.isNone
      (error.map (·.category)) world.breakerEnd
    some (concludeCase caseID iteration attempted.ending world.judged (extendLast events attempted.attempts)
      attempted.toolPath world.latencyMS)
  | _ => none

def executeCase (world : CaseWorld) : Option (CaseResultOf ι) :=
  match (acquire (reliability.bind (·.circuitBreaker)) world.acquiredAt world.breaker).1 with
  | .error error => some (failedResult caseID iteration error [rejectedAttempt error] [] world.latencyMS)
  | .ok permit => executePermittedCase text draw reliability caseID iteration permit world

end Case

/-! ## Every run of the loop -/

section Loop

variable {draw : String → ℚ} {reliability : Option ReliabilityConfig} {caseID : Python.Text}
  {iteration : Nat}

/-- The attempts a case may make. -/
def attemptLimit : Option ReliabilityConfig → Nat
  | none => 1
  | some reliability => reliability.retry.maxAttempts

theorem attemptLimit_le (reliability : Option ReliabilityConfig) : attemptLimit reliability ≤ 10 := by
  cases reliability with
  | none => decide
  | some reliability => exact reliability.retry.maxAttempts_le

theorem attemptLimit_pos (reliability : Option ReliabilityConfig) : 1 ≤ attemptLimit reliability := by
  cases reliability with
  | none => decide
  | some reliability => exact reliability.retry.maxAttempts_pos

variable {number : Nat}

theorem lt_maxAttempts_of_decideRetry {retry : RetryConfig} {permit : CircuitPermit}
    {error : ExecutionError} (h : (decideRetry retry permit number error).retries = true) :
    number < retry.maxAttempts := by
  -- the limit replaces every decision to retry, so what is left does not retry
  have hreplaced : ∀ decision : RetryDecision,
      (if decision.retries && true then RetryDecision.attemptLimit else decision).retries = false := by
    intro decision
    cases decision <;> rfl
  by_contra hlimit
  rw [decideRetry, decide_eq_true (not_lt.mp hlimit), hreplaced] at h
  exact Bool.noConfusion h

variable {permit : CircuitPermit} {spent : Nat}

/-- A decision to retry leaves room for one more attempt. -/
theorem lt_attemptLimit_of_retries {left : ℚ} {ending : Ending} {weighed : RetryDecision × Nat}
    (h : weighRetry draw reliability caseID iteration permit number spent left ending = .ok weighed)
    (hretries : weighed.1.retries = true) : number < attemptLimit reliability := by
  unfold weighRetry at h
  split at h
  · cases h
    exact absurd hretries (by decide : ¬RetryDecision.notNeeded.retries = true)
  · cases h
    exact absurd hretries (by decide : ¬RetryDecision.notRetryable.retries = true)
  · dsimp only at h
    split at h
    · rename_i hdecision
      exact lt_maxAttempts_of_decideRetry hdecision
    · cases h
      exact lt_maxAttempts_of_decideRetry hretries

variable {invocation : Invocation}

/-- What `tryOnce` returns: the record of the attempt with the decision that was weighed. -/
theorem tryOnce_ok {attempt : AttemptResult} {toolPath : List String} {ending : Ending}
    (h : tryOnce draw reliability caseID iteration permit number spent invocation = .ok (attempt, toolPath, ending)) :
    (toolPath, ending) = attemptEnd draw reliability caseID iteration number invocation ∧
    weighRetry draw reliability caseID iteration permit number spent invocation.left ending =
      .ok (attempt.retryDecision, attempt.backoffMS) ∧
    ∃ events, attempt = { invokeAttempt number invocation.latencyMS toolPath ending with
      retryDecision := attempt.retryDecision, backoffMS := attempt.backoffMS, circuitEvents := events } := by
  obtain ⟨_, hweighed, heq⟩ := map_ok_iff.mp h
  obtain ⟨rfl, hrest⟩ := Prod.mk.inj heq
  cases hrest
  exact ⟨rfl, hweighed, _, rfl⟩

variable {script : List Invocation}

/-- **One round of the loop** that ends with attempts: the last attempt, or one that is retried before the others. -/
theorem attemptLoop_cons_ok {attempted : Attempted}
    (h : attemptLoop draw reliability caseID iteration permit number spent (invocation :: script) =
      some (.ok attempted)) :
    ∃ attempt toolPath ending,
      tryOnce draw reliability caseID iteration permit number spent invocation = .ok (attempt, toolPath, ending) ∧
      (attempt.retryDecision.retries = false ∧ attempted = ⟨[attempt], toolPath, ending⟩ ∨
        attempt.retryDecision.retries = true ∧ ∃ later,
          attemptLoop draw reliability caseID iteration permit (number + 1) (spent + attempt.backoffMS) script =
            some (.ok later) ∧
          attempted = { later with attempts := attempt :: later.attempts }) := by
  unfold attemptLoop at h
  split at h
  · cases h
  · rename_i attempt toolPath ending htried
    refine ⟨attempt, toolPath, ending, htried, ?_⟩
    split at h
    · rename_i hretries
      obtain ⟨_, houtcome, hmap⟩ := Option.map_eq_some_iff.mp h
      obtain ⟨later, rfl, rfl⟩ := map_ok_iff.mp hmap
      exact .inr ⟨hretries, later, houtcome, rfl⟩
    · rename_i hstop
      exact .inl ⟨Bool.eq_false_iff.mpr hstop, (Except.ok.inj (Option.some.inj h)).symm⟩

/-- **Attempts are numbered** from the first on, and there are no more than the limit. -/
theorem attemptLoop_numbered {attempted : Attempted} (hnumber : number ≤ attemptLimit reliability)
    (h : attemptLoop draw reliability caseID iteration permit number spent script = some (.ok attempted)) :
    attempted.attempts.map (·.number) = List.range' number attempted.attempts.length ∧
    number + attempted.attempts.length ≤ attemptLimit reliability + 1 := by
  induction script generalizing number spent attempted with
  | nil => cases h
  | cons invocation script ih =>
    obtain ⟨attempt, toolPath, ending, htried, hround⟩ := attemptLoop_cons_ok h
    obtain ⟨-, hweighed, events, hattempt⟩ := tryOnce_ok htried
    have hfirst : attempt.number = number := by
      rw [hattempt]
      rfl
    rcases hround with ⟨-, rfl⟩ | ⟨hretries, later, hlater, rfl⟩
    · exact ⟨congrArg (· :: []) hfirst, Nat.add_le_add_right hnumber 1⟩
    · obtain ⟨hnumbers, hcount⟩ := ih (lt_attemptLimit_of_retries hweighed hretries) hlater
      constructor
      · rw [List.map_cons, hnumbers, hfirst, List.length_cons, List.range'_succ]
      · rw [List.length_cons]
        omega

/-- **The loop comes to an end**, with attempts or an exception, on any script with as many attempts as the limit. -/
theorem attemptLoop_isSome (hnumber : number ≤ attemptLimit reliability)
    (hscript : attemptLimit reliability + 1 ≤ number + script.length) :
    (attemptLoop draw reliability caseID iteration permit number spent script).isSome = true := by
  induction script generalizing number spent with
  | nil =>
    rw [List.length_nil] at hscript
    omega
  | cons invocation script ih =>
    unfold attemptLoop
    split
    · rfl
    · rename_i attempt toolPath ending htried
      split
      · rename_i hretries
        rw [Option.isSome_map]
        rw [List.length_cons] at hscript
        exact ih (lt_attemptLimit_of_retries (tryOnce_ok htried).2.1 hretries) (by omega)
      · rfl

theorem weighRetry_of_not_provider {error : ExecutionError} (h : error.category ≠ .provider) (left : ℚ) :
    weighRetry draw reliability caseID iteration permit number spent left (.error error) = .ok (.notRetryable, 0) := by
  cases reliability with
  | none => rfl
  | some config =>
    have hnot : retryEligibility error config.retry = .notRetryable := if_pos (Or.inl h)
    have hstays : RetryDecision.notRetryable.retries = false := by decide
    have hdecision : decideRetry config.retry permit number error = .notRetryable := by
      simp [decideRetry, hnot, hstays]
    unfold weighRetry
    dsimp only [raised]
    rw [hdecision, hstays, if_neg Bool.false_ne_true]

/-- A failure that is not the provider's ends the loop. -/
theorem attemptLoop_of_not_provider {toolPath : List String} {error : ExecutionError}
    (hend : attemptEnd draw reliability caseID iteration number invocation = (toolPath, .error error))
    (h : error.category ≠ .provider) (script : List Invocation) :
    ∃ attempted, attemptLoop draw reliability caseID iteration permit number spent (invocation :: script) =
      some (.ok attempted) := by
  have htried : ∃ tried, tryOnce draw reliability caseID iteration permit number spent invocation = .ok tried ∧
      tried.1.retryDecision.retries = false := by
    unfold tryOnce
    rw [hend]
    dsimp only
    rw [weighRetry_of_not_provider h]
    exact ⟨_, rfl, (by decide : RetryDecision.notRetryable.retries = false)⟩
  obtain ⟨_, htried, hstop⟩ := htried
  unfold attemptLoop
  rw [htried]
  dsimp only
  rw [hstop, if_neg Bool.false_ne_true]
  exact ⟨_, rfl⟩

/-- Later events of the breaker touch nothing else of the attempts. -/
theorem map_extendLast {β : Type} {f : AttemptResult → β}
    (hf : ∀ attempt events, f { attempt with circuitEvents := events } = f attempt) (events : List CircuitEvent)
    (attempts : List AttemptResult) : (extendLast events attempts).map f = attempts.map f := by
  induction attempts using extendLast.induct with
  | case1 => rfl
  | case2 attempt => exact congrArg (· :: []) (hf attempt _)
  | case3 attempt next attempts ih =>
    rw [extendLast, List.map_cons, ih]
    rfl

/-- The two ways a case ends with a result. -/
theorem executeCase_cases {text : ι → Python.Text} {caseID : ι} {world : CaseWorld} {result : CaseResultOf ι}
    (h : executeCase text draw reliability caseID iteration world = some result) :
    (∃ error, (acquire (reliability.bind (·.circuitBreaker)) world.acquiredAt world.breaker).1 = .error error ∧
      result = failedResult caseID iteration error [rejectedAttempt error] [] world.latencyMS) ∨
    ∃ permit attempted events,
      (acquire (reliability.bind (·.circuitBreaker)) world.acquiredAt world.breaker).1 = .ok permit ∧
      attemptLoop draw reliability (text caseID) iteration permit 1 0 world.script = some (.ok attempted) ∧
      result = concludeCase caseID iteration attempted.ending world.judged (extendLast events attempted.attempts)
        attempted.toolPath world.latencyMS := by
  unfold executeCase at h
  split at h
  · rename_i error herror
    exact .inl ⟨error, herror, (Option.some.inj h).symm⟩
  · rename_i permit hpermit
    unfold executePermittedCase at h
    split at h
    · rename_i attempted hattempted
      exact .inr ⟨permit, attempted, _, hpermit, hattempted, (Option.some.inj h).symm⟩
    · cases h

end Loop

/-! ## The summary of a shard -/

structure EvaluationConfig where
  minSuccessRate : Option ℚ
  maxErrorRate : Option ℚ
  maxP95LatencyMS : Option ℚ

/-- A threshold that is not met, with the rate or latency that misses it. -/
inductive ThresholdFailure
  | successRate (rate limit : ℚ)
  | errorRate (rate limit : ℚ)
  | p95LatencyMS (latency limit : ℚ)
  deriving DecidableEq, Repr

structure RunSummary where
  durationMS : ℚ≥0
  total : Nat
  succeeded : Nat
  failed : Nat
  successRate : ℚ
  errorRate : ℚ
  p95LatencyMS : ℚ≥0
  inputTokens : Nat
  outputTokens : Nat
  modelCallCount : Option Nat
  toolCallCount : Nat
  modelCallsPerSuccessfulAgent : Option ℚ
  toolCallsPerSuccessfulAgent : Option ℚ
  usageComplete : Bool
  thresholdsPassed : Bool
  thresholdFailures : List ThresholdFailure

/-- The latency at position `⌈0.95 · n⌉ - 1` in increasing order. -/
def p95 (latencies : List ℚ≥0) : ℚ≥0 :=
  ((latencies.mergeSort fun a b => decide (a ≤ b))[(latencies.length * 95 + 99) / 100 - 1]?).getD 0

def thresholdFailures (evaluation : EvaluationConfig) (successRate errorRate : ℚ) (p95 : ℚ≥0) : List ThresholdFailure :=
  (match evaluation.minSuccessRate with
    | some limit => if successRate < limit then [.successRate successRate limit] else []
    | none => []) ++
  (match evaluation.maxErrorRate with
    | some limit => if limit < errorRate then [.errorRate errorRate limit] else []
    | none => []) ++
  (match evaluation.maxP95LatencyMS with
    | some limit => if limit < p95 then [.p95LatencyMS p95 limit] else []
    | none => [])

theorem thresholdFailures_isEmpty_iff {evaluation : EvaluationConfig} {successRate errorRate : ℚ} {p95 : ℚ≥0} :
    (thresholdFailures evaluation successRate errorRate p95).isEmpty = true ↔
      (∀ limit ∈ evaluation.minSuccessRate, limit ≤ successRate) ∧ (∀ limit ∈ evaluation.maxErrorRate, errorRate ≤ limit) ∧
        ∀ limit ∈ evaluation.maxP95LatencyMS, (p95 : ℚ) ≤ limit := by
  have hclause : ∀ (limit : Option ℚ) (missed : ℚ → Prop) [DecidablePred missed] (failure : ℚ → ThresholdFailure),
      (match limit with
        | some limit => if missed limit then [failure limit] else []
        | none => []) = [] ↔ ∀ l ∈ limit, ¬missed l := by
    intro limit missed _ failure
    cases limit with
    | none => simp
    | some l => by_cases hl : missed l <;> simp [hl]
  rw [thresholdFailures, List.isEmpty_iff, List.append_eq_nil_iff, List.append_eq_nil_iff, hclause _ (successRate < ·),
    hclause _ (· < errorRate), hclause _ (· < (p95 : ℚ)), and_assoc]
  simp

def summarize (results : List (CaseResultOf ι)) (evaluation : EvaluationConfig) (durationMS : ℚ≥0) : RunSummary :=
  let total := results.length
  let successful := results.filter (·.success)
  let succeeded := successful.length
  let failed := total - succeeded
  let successRate : ℚ := if total = 0 then 0 else succeeded / total
  let errorRate : ℚ := if total = 0 then 0 else failed / total
  let p95LatencyMS := p95 (results.map (·.latencyMS))
  let failures := thresholdFailures evaluation successRate errorRate p95LatencyMS
  { durationMS, total, succeeded, failed, successRate, errorRate, p95LatencyMS
    inputTokens := (results.map (·.inputTokens)).sum
    outputTokens := (results.map (·.outputTokens)).sum
    modelCallCount := totalKnown (results.map (·.modelCallCount))
    toolCallCount := (results.map (·.toolCallCount)).sum
    modelCallsPerSuccessfulAgent :=
      if succeeded = 0 then none else (totalKnown (successful.map (·.modelCallCount))).map fun calls => calls / succeeded
    toolCallsPerSuccessfulAgent :=
      if succeeded = 0 then none else some (((successful.map (·.toolCallCount)).sum : ℚ) / succeeded)
    usageComplete := results.all (·.usageComplete)
    thresholdsPassed := failures.isEmpty
    thresholdFailures := failures }

/-- The latency of the cases that later modules run through. -/
def fiveMillis : ℚ≥0 := 5

end AgentStorm.Worker
