import AgentStorm.Foundation.Python

/-!
# `Worker.Errors` — how one attempt of a case ends

What an attempt can end in, from `models.py`, `execution_errors.py`, `faults.py` and `scheduler.py` of
the worker: a response of the adapter, or an `ExecutionError`, which is content-free, so its category,
code and kind are enumerations with the text the worker sends. The draw behind a fault rule is a
parameter: the source takes the first eight bytes of a SHA-256 as a fraction. A case id with a lone
surrogate cannot be hashed (`drawn`).
-/

namespace AgentStorm.Worker

open Numeric Python

/-! ## Enumerations -/

inductive FailureCategory
  | evaluation
  | provider
  | tool
  | harness
  deriving DecidableEq, Repr

def FailureCategory.text : FailureCategory → String
  | evaluation => "evaluation"
  | provider => "provider"
  | tool => "tool"
  | harness => "harness"

inductive FailureKind
  | timeout
  | provider
  | tool
  | harness
  | assertion
  deriving DecidableEq, Repr

def FailureKind.text : FailureKind → String
  | timeout => "timeout"
  | provider => "provider"
  | tool => "tool"
  | harness => "harness"
  | assertion => "assertion"

/-- Every code the worker gives an error: by classification, the OpenAI-compatible adapter, the fault middleware, the
    circuit breaker, the limiter and the runner itself. -/
inductive ErrorCode
  | timeout
  | toolTimeout
  | inputGuardrailTripwire
  | outputGuardrailTripwire
  | maxTurnsExceeded
  | modelBehavior
  | sdkUserError
  | agentsError
  | rateLimited
  | connectionError
  | http5xx
  | http4xx
  | httpRedirect
  | unknownError
  | malformedResponse
  | outputTruncated
  | toolError
  | injectedToolError
  | circuitOpen
  | distributedPermitLost
  | distributedLimitTimeout
  | distributedSchedulerUnavailable
  | evaluatorFailure
  | assertionFailed
  deriving DecidableEq, Repr

def ErrorCode.text : ErrorCode → String
  | timeout => "timeout"
  | toolTimeout => "tool_timeout"
  | inputGuardrailTripwire => "input_guardrail_tripwire"
  | outputGuardrailTripwire => "output_guardrail_tripwire"
  | maxTurnsExceeded => "max_turns_exceeded"
  | modelBehavior => "model_behavior"
  | sdkUserError => "sdk_user_error"
  | agentsError => "agents_error"
  | rateLimited => "rate_limited"
  | connectionError => "connection_error"
  | http5xx => "http_5xx"
  | http4xx => "http_4xx"
  | httpRedirect => "http_redirect"
  | unknownError => "unknown_error"
  | malformedResponse => "malformed_response"
  | outputTruncated => "output_truncated"
  | toolError => "tool_error"
  | injectedToolError => "injected_tool_error"
  | circuitOpen => "circuit_open"
  | distributedPermitLost => "distributed_permit_lost"
  | distributedLimitTimeout => "distributed_limit_timeout"
  | distributedSchedulerUnavailable => "distributed_scheduler_unavailable"
  | evaluatorFailure => "evaluator_failure"
  | assertionFailed => "assertion_failed"

inductive Fault
  | latency
  | timeout
  | httpError
  | malformedResponse
  | rateLimit
  | toolError
  deriving DecidableEq, Repr

def Fault.text : Fault → String
  | latency => "latency"
  | timeout => "timeout"
  | httpError => "http_error"
  | malformedResponse => "malformed_response"
  | rateLimit => "rate_limit"
  | toolError => "tool_error"

inductive CircuitEvent
  | opened
  | reject
  | halfOpen
  | close
  deriving DecidableEq, Repr

def CircuitEvent.text : CircuitEvent → String
  | opened => "open"
  | reject => "reject"
  | halfOpen => "half_open"
  | close => "close"

/-! ## Responses and errors -/

/-- An adapter's answer. Of the metadata only the two injection keys reach a result; `""` and `none` are an absent key. -/
structure AdapterResponse where
  output : String
  inputTokens : Option Nat := none
  outputTokens : Option Nat := none
  modelCallCount : Option Nat := none
  toolCallCount : Option Nat := none
  injectedRule : String := ""
  injectedFault : Option Fault := none
  deriving DecidableEq, Repr

/-- `input_tokens` and `output_tokens` are both known. -/
def AdapterResponse.usageKnown (response : AdapterResponse) : Bool :=
  response.inputTokens.isSome && response.outputTokens.isSome

structure ExecutionError where
  category : FailureCategory
  code : ErrorCode
  failureKind : FailureKind
  ambiguous : Bool := false
  safeToRetry : Bool := false
  response : Option AdapterResponse := none
  injectedRule : String := ""
  injectedFault : Option Fault := none
  usageComplete : Bool := false
  circuitEvents : List CircuitEvent := []
  deriving DecidableEq, Repr

/-- `str(error)` -/
def ExecutionError.message (error : ExecutionError) : String := error.category.text ++ "/" ++ error.code.text

/-! ## Classification -/

/-- The exceptions of the agents SDK that are told apart. -/
inductive AgentsException
  | toolTimeoutError
  | inputGuardrailTripwireTriggered
  | outputGuardrailTripwireTriggered
  | maxTurnsExceeded
  | modelBehaviorError
  | userError
  | agentsException
  deriving DecidableEq, Repr

/-- The exceptions of the OpenAI client that are told apart. -/
inductive OpenAIException
  | rateLimitError
  | apiTimeoutError
  | apiConnectionError
  | apiStatusError (statusCode : Int)
  deriving DecidableEq, Repr

/-- Whatever an adapter can raise. -/
inductive AdapterException
  | execution (error : ExecutionError)
  | timeoutError
  | agents (raised : AgentsException)
  | openai (raised : OpenAIException)
  | other
  deriving DecidableEq, Repr

def classifyAgentsException : AgentsException → ExecutionError
  | .toolTimeoutError => { category := .tool, code := .toolTimeout, failureKind := .tool, ambiguous := true }
  | .inputGuardrailTripwireTriggered =>
    { category := .evaluation, code := .inputGuardrailTripwire, failureKind := .assertion }
  | .outputGuardrailTripwireTriggered =>
    { category := .evaluation, code := .outputGuardrailTripwire, failureKind := .assertion }
  | .maxTurnsExceeded => { category := .evaluation, code := .maxTurnsExceeded, failureKind := .assertion }
  | .modelBehaviorError =>
    { category := .provider, code := .modelBehavior, failureKind := .provider, ambiguous := true }
  | .userError => { category := .harness, code := .sdkUserError, failureKind := .harness }
  | .agentsException => { category := .provider, code := .agentsError, failureKind := .provider, ambiguous := true }

def classifyOpenAIException : OpenAIException → ExecutionError
  | .rateLimitError => { category := .provider, code := .rateLimited, failureKind := .provider, safeToRetry := true }
  | .apiTimeoutError => { category := .provider, code := .timeout, failureKind := .timeout, ambiguous := true }
  | .apiConnectionError =>
    { category := .provider, code := .connectionError, failureKind := .provider, ambiguous := true }
  | .apiStatusError statusCode =>
    if statusCode = 429 then
      { category := .provider, code := .rateLimited, failureKind := .provider, safeToRetry := true }
    else if 500 ≤ statusCode then
      { category := .provider, code := .http5xx, failureKind := .provider, ambiguous := true }
    else { category := .provider, code := .http4xx, failureKind := .provider }

def classifyAdapterException : AdapterException → ExecutionError
  | .execution error => error
  | .timeoutError => { category := .provider, code := .timeout, failureKind := .timeout, ambiguous := true }
  | .agents raised => classifyAgentsException raised
  | .openai raised => classifyOpenAIException raised
  | .other => { category := .provider, code := .unknownError, failureKind := .provider, ambiguous := true }

/-! ## Fault injection -/

structure FaultRuleConfig where
  name : String
  fault : Fault
  probability : ℚ
  caseIDs : List String := []
  iterations : List Nat := []
  attempts : List Nat := [1]
  delayMS : Option Nat := none
  statusCode : Option Nat := none
  toolName : String := ""

structure FaultScenarioConfig where
  sourceName : String
  sourceKey : String
  digest : String
  rules : List FaultRuleConfig

/-- The rule is meant for this case, iteration and attempt. -/
def FaultRuleConfig.selects (rule : FaultRuleConfig) (caseID : Python.Text) (iteration attempt : Nat) : Bool :=
  (rule.caseIDs.isEmpty || (rule.caseIDs.map text).contains caseID) &&
    (rule.iterations.isEmpty || rule.iterations.contains iteration) && rule.attempts.contains attempt

/-- The draw for these fields. They are joined by NUL and hashed as UTF-8; an error is the `UnicodeEncodeError` of a text
    that has no such form. -/
def drawn (draw : String → ℚ) (fields : List Python.Text) : Except Error ℚ :=
  match encodable? ([0].intercalate fields) with
  | some material => .ok (draw material)
  | none => .error .value

/-- The first rule that is meant for the attempt and whose draw is below its probability. -/
def selectFaultRule (draw : String → ℚ) (scenario : Option FaultScenarioConfig) (seed : Option Nat)
    (caseID : Python.Text) (iteration attempt : Nat) : Except Error (Option FaultRuleConfig) :=
  match scenario, seed with
  | some scenario, some seed =>
    scenario.rules.findM? fun rule => do
      if rule.selects caseID iteration attempt then
        let fraction ← drawn draw [text scenario.digest, text (toString seed), caseID, text (toString iteration),
          text (toString attempt), text rule.name]
        return decide (fraction < rule.probability)
      else return false
  | _, _ => .ok none

/-- What the adapter does when nothing is injected: the tools it starts, in order, and how it ends. -/
structure AdapterRun where
  started : List String
  ending : Except AdapterException AdapterResponse

def withInjection (rule : FaultRuleConfig) (response : AdapterResponse) : AdapterResponse :=
  { response with injectedRule := rule.name, injectedFault := some rule.fault }

def injectedError (rule : FaultRuleConfig) (category : FailureCategory) (code : ErrorCode) (failureKind : FailureKind) :
    ExecutionError :=
  { category, code, failureKind, injectedRule := rule.name, injectedFault := some rule.fault }

/-- `rule.status_code or 500`, as an error. -/
def injectedStatusError (rule : FaultRuleConfig) : ExecutionError :=
  let status := match rule.statusCode with
    | none => 500
    | some 0 => 500
    | some status => status
  let code := if status = 429 then .rateLimited else if 500 ≤ status then .http5xx else .http4xx
  { injectedError rule .provider code .provider with
    ambiguous := decide (500 ≤ status), safeToRetry := decide (status = 429), usageComplete := true }

/-- The tools up to the first one the rule fails, if it fails one. -/
def toolFault (rule : FaultRuleConfig) : List String → Option (List String)
  | [] => none
  | name :: names =>
    if rule.toolName = "" ∨ rule.toolName = name then some [name] else (toolFault rule names).map (name :: ·)

/-- `(rule.delay_ms or 0) / 1000` is in the range of floats; otherwise the division raises an `OverflowError`. -/
def FaultRuleConfig.sleeps (rule : FaultRuleConfig) : Bool :=
  decide ((rule.delayMS.getD 0 : ℚ) / 1000 < Float64.bound)

/-- `FaultInjectionMiddleware.run`: the tools started and how the call ends. -/
def faultsRun (rule : Option FaultRuleConfig) (run : AdapterRun) :
    List String × Except AdapterException AdapterResponse :=
  match rule with
  | none => (run.started, run.ending)
  | some rule =>
    match rule.fault with
    | .latency =>
      if rule.sleeps then (run.started, run.ending.map (withInjection rule)) else ([], .error .other)
    | .timeout =>
      if rule.sleeps then
        ([], .error (.execution
          { injectedError rule .provider .timeout .timeout with ambiguous := true, usageComplete := true }))
      else ([], .error .other)
    | .rateLimit =>
      ([], .error (.execution
        { injectedError rule .provider .rateLimited .provider with safeToRetry := true, usageComplete := true }))
    | .httpError => ([], .error (.execution (injectedStatusError rule)))
    | .toolError =>
      match toolFault rule run.started with
      | some started =>
        (started, .error (.execution
          { injectedError rule .tool .injectedToolError .tool with ambiguous := true }))
      | none => (run.started, run.ending)
    | .malformedResponse =>
      (run.started, run.ending.bind fun response => .error (.execution
        { injectedError rule .provider .malformedResponse .provider with
          ambiguous := true, response := some response, usageComplete := response.usageKnown }))

/-! ## The distributed limiter -/

inductive LimiterFailure
  | permitLost
  | limitTimeout
  | schedulerUnavailable
  deriving DecidableEq, Repr

def LimiterFailure.error : LimiterFailure → ExecutionError
  | permitLost => { category := .harness, code := .distributedPermitLost, failureKind := .harness }
  | limitTimeout => { category := .provider, code := .distributedLimitTimeout, failureKind := .provider }
  | schedulerUnavailable =>
    { category := .harness, code := .distributedSchedulerUnavailable, failureKind := .harness }

end AgentStorm.Worker
