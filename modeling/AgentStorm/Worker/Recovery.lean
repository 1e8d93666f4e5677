import AgentStorm.Foundation.Decimal
import AgentStorm.Worker.Errors

/-!
# `Worker.Recovery` — retries and the circuit breaker

When the runner tries again and when it does not try at all: `retry.py` and `circuit.py` of the worker, with the
configuration `config.py` accepts for them. Time is in seconds on a monotonic clock. Ratios, draws and clock readings
are exact rationals where the source computes with floats.
-/

namespace AgentStorm.Worker

open Numeric Python

/-! ## Retries -/

/-- The retry section `_retry` accepts. -/
structure RetryConfig where
  maxAttempts : Nat
  initialBackoffMS : Nat
  maxBackoffMS : Nat
  maxCumulativeBackoffMS : Nat
  jitterRatio : ℚ
  allowAmbiguousRetries : Bool
  maxAttempts_pos : 1 ≤ maxAttempts
  maxAttempts_le : maxAttempts ≤ 10
  backoff_pos : 1 ≤ min (min initialBackoffMS maxBackoffMS) maxCumulativeBackoffMS
  initial_le_max : initialBackoffMS ≤ maxBackoffMS
  jitter_nonneg : 0 ≤ jitterRatio
  jitter_le_one : jitterRatio ≤ 1

/-- `retry_backoff_ms`. A backoff that the jitter scales is a float on the way: an integer or a product that no float
    reaches is an `OverflowError`. -/
def retryBackoffMS (draw : String → ℚ) (config : RetryConfig) (seed : Option Nat) (caseID : Python.Text)
    (iteration failedAttempt : Nat) : Except Error Nat :=
  let exponential := config.initialBackoffMS * 2 ^ (failedAttempt - 1)
  let capped := min exponential config.maxBackoffMS
  if config.jitterRatio = 0 then .ok capped
  else do
    let fraction ← drawn draw [text (toString (seed.getD 0)), caseID, text (toString iteration),
      text (toString failedAttempt), text "retry-jitter"]
    let factor := 1 - config.jitterRatio + 2 * config.jitterRatio * fraction
    if Float64.bound ≤ capped ∨ Float64.bound ≤ capped * factor then .error .overflow
    -- a product below zero is rounded to 0, which is what `max` makes of it
    else .ok (min config.maxBackoffMS (Decimal.nearestEven (capped * factor)))

inductive RetryDecision
  | notNeeded
  | notRetryable
  | retrySafe
  | retryAmbiguous
  | ambiguousBlocked
  | halfOpenNoRetry
  | attemptLimit
  | backoffBudget
  | timeBudget
  deriving DecidableEq, Repr

namespace RetryDecision

def text : RetryDecision → String
  | notNeeded => "not_needed"
  | notRetryable => "not_retryable"
  | retrySafe => "retry_safe"
  | retryAmbiguous => "retry_ambiguous"
  | ambiguousBlocked => "ambiguous_blocked"
  | halfOpenNoRetry => "half_open_no_retry"
  | attemptLimit => "attempt_limit"
  | backoffBudget => "backoff_budget"
  | timeBudget => "time_budget"

/-- `decision.startswith("retry_")` -/
def retries (decision : RetryDecision) : Bool := "retry_".toList.isPrefixOf decision.text.toList

end RetryDecision

def retryEligibility (error : ExecutionError) (config : RetryConfig) : RetryDecision :=
  if error.category ≠ .provider ∨ error.code = .circuitOpen then .notRetryable
  else if error.safeToRetry then .retrySafe
  else if error.ambiguous then
    if config.allowAmbiguousRetries then .retryAmbiguous else .ambiguousBlocked
  else .notRetryable

/-! ## The circuit breaker -/

inductive BreakerState
  | closed
  | opened
  | halfOpen
  deriving DecidableEq, Repr

structure CircuitPermit where
  probe : Bool := false
  events : List CircuitEvent := []
  deriving DecidableEq, Repr

structure CircuitBreaker where
  state : BreakerState
  consecutiveFailures : Nat
  openUntil : ℚ
  probeInFlight : Bool
  deriving DecidableEq, Repr

/-- A new breaker. -/
def CircuitBreaker.closed : CircuitBreaker := ⟨.closed, 0, 0, false⟩

def circuitOpenError : ExecutionError :=
  { category := .provider, code := .circuitOpen, failureKind := .provider, usageComplete := true,
    circuitEvents := [.reject] }

namespace Circuit

/-- `CircuitBreakerConfig` before anything is checked. -/
structure CircuitBreakerConfig where
  failureThreshold : Int
  openDurationMS : Int

/-- `CircuitBreaker.acquire` at `now`; without a configuration every case gets a permit. -/
def acquire (config : Option CircuitBreakerConfig) (now : ℚ) (breaker : CircuitBreaker) :
    Except ExecutionError CircuitPermit × CircuitBreaker :=
  match config with
  | none => (.ok {}, breaker)
  | some _ =>
    if breaker.state = .closed then (.ok {}, breaker)
    else if breaker.state = .opened ∧ breaker.openUntil ≤ now ∧ breaker.probeInFlight = false then
      (.ok { probe := true, events := [.halfOpen] }, { breaker with state := .halfOpen, probeInFlight := true })
    else (.error circuitOpenError, breaker)

/-- `CircuitBreaker.record_terminal` at `now`: the events of the case's end and the breaker after it. -/
def recordTerminal (config : Option CircuitBreakerConfig) (now : ℚ) (permit : CircuitPermit)
    (providerSucceeded : Bool) (failureCategory : Option FailureCategory) (breaker : CircuitBreaker) :
    List CircuitEvent × CircuitBreaker :=
  match config with
  | none => ([], breaker)
  | some config =>
    let reopenAt := now + config.openDurationMS / 1000
    if permit.probe then
      let breaker := { breaker with probeInFlight := false }
      if providerSucceeded then ([.close], { breaker with state := .closed, consecutiveFailures := 0 })
      else if failureCategory = some .provider then
        ([.opened], { breaker with state := .opened, openUntil := reopenAt })
      -- a probe that says nothing about the provider lets the next case probe at once
      else ([], { breaker with state := .opened, openUntil := now })
    else if providerSucceeded then
      let breaker := { breaker with consecutiveFailures := 0 }
      if breaker.state ≠ .closed then ([.close], { breaker with state := .closed, probeInFlight := false })
      else ([], breaker)
    else if failureCategory ≠ some .provider then ([], breaker)
    else
      match breaker.state with
      | .closed =>
        let breaker := { breaker with consecutiveFailures := breaker.consecutiveFailures + 1 }
        if config.failureThreshold ≤ breaker.consecutiveFailures then
          ([.opened], { breaker with state := .opened, openUntil := reopenAt })
        else ([], breaker)
      | .opened => ([], { breaker with openUntil := max breaker.openUntil reopenAt })
      | .halfOpen => ([], breaker)

end Circuit

/-- The breaker section `_circuit_breaker` accepts. -/
structure CircuitBreakerConfig where
  failureThreshold : Nat
  openDurationMS : Nat
  threshold_pos : 1 ≤ failureThreshold
  duration_pos : 1 ≤ openDurationMS

def CircuitBreakerConfig.numbers (config : CircuitBreakerConfig) : Circuit.CircuitBreakerConfig :=
  ⟨config.failureThreshold, config.openDurationMS⟩

@[simp] theorem CircuitBreakerConfig.numbers_threshold_le {config : CircuitBreakerConfig} {n : Nat} :
    config.numbers.failureThreshold ≤ (n : Int) ↔ config.failureThreshold ≤ n := Int.ofNat_le

@[simp] theorem CircuitBreakerConfig.numbers_duration (config : CircuitBreakerConfig) :
    (config.numbers.openDurationMS : ℚ) = config.openDurationMS := Int.cast_natCast _

/-- `acquire` under a section that has been checked. -/
def acquire (config : Option CircuitBreakerConfig) (now : ℚ) (breaker : CircuitBreaker) :
    Except ExecutionError CircuitPermit × CircuitBreaker :=
  Circuit.acquire (config.map (·.numbers)) now breaker

/-- `record_terminal` under a section that has been checked. -/
def recordTerminal (config : Option CircuitBreakerConfig) (now : ℚ) (permit : CircuitPermit)
    (providerSucceeded : Bool) (failureCategory : Option FailureCategory) (breaker : CircuitBreaker) :
    List CircuitEvent × CircuitBreaker :=
  Circuit.recordTerminal (config.map (·.numbers)) now permit providerSucceeded failureCategory breaker

end AgentStorm.Worker
