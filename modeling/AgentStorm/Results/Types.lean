import AgentStorm.Reliability.Scenario

/-!
# `Results.Types` — the documents of the Result API

The request, response and stored documents of the Result API (`internal/results/types.go`), field by field.

Go's `*T` is `Option T`. A nil slice and an empty one are the same list: the API writes `[]` for both before
it stores anything. Instants are microseconds, the resolution of the database clock.
-/

namespace AgentStorm.Results

open Numeric Reliability

/-- Microseconds since the epoch, as `timestamptz` counts them. -/
abbrev Time := Int

abbrev Bytes := List UInt8

/-! ## Errors -/

/-- The errors of the service and the repository. `outOfRange` is the database or its driver refusing a value
    its column cannot hold, `internal` any other error that only gets wrapped. -/
inductive ApiError
  | conflict
  | notFound
  | notReady
  | leaseLost
  | queueEmpty
  | capacity (retryAfterMS : Nat)
  | validation (message : String)
  | outOfRange (column : String)
  | internal (message : String)
  deriving DecidableEq, Repr

/-! ## Registrations -/

structure RunSource where
  «namespace» : String
  name : String
  deriving DecidableEq

structure RunPricing where
  inputUSDPerMillionTokens : String
  outputUSDPerMillionTokens : String
  deriving DecidableEq

structure RunTarget where
  provider : String
  model : String
  adapterEntrypoint : String
  pricing : Option RunPricing
  deriving DecidableEq

structure RunDataset where
  name : String
  key : String
  deriving DecidableEq

structure Evaluation where
  minSuccessRate : Option Float64
  maxP95MS : Option Float64
  maxFailureRate : Option Float64
  deriving DecidableEq

structure RunRetry where
  maxAttempts : Int
  initialBackoffMS : Int
  maxBackoffMS : Int
  maxCumulativeBackoffMS : Int
  jitterRatio : Float64
  allowAmbiguousRetries : Bool
  deriving DecidableEq

structure RunCircuitBreaker where
  failureThreshold : Int
  openDurationMS : Int
  deriving DecidableEq

structure RunScenarioSource where
  name : String
  key : String
  deriving DecidableEq

structure RunFaultScenarioSnapshot where
  source : RunScenarioSource
  digest : String
  document : FaultScenario
  deriving DecidableEq

structure RunReliability where
  seed : Option Int
  retry : RunRetry
  circuitBreaker : Option RunCircuitBreaker
  scenario : Option RunFaultScenarioSnapshot
  deriving DecidableEq

/-- The immutable scheduling snapshot registered by the controller. -/
structure RunScheduling where
  strategy : String
  maxWorkers : Int
  resourceProfile : String
  deriving DecidableEq

structure Registration where
  schemaVersion : String
  expectedShards : Int
  source : RunSource
  target : RunTarget
  dataset : RunDataset
  evaluation : Evaluation
  reliability : Option RunReliability
  scheduling : Option RunScheduling
  deriving DecidableEq

/-- `registration.Scheduling != nil && registration.Scheduling.Strategy == "keda"`: the run's shards are
    queued and leased instead of assigned by index. -/
def Registration.queued (r : Registration) : Bool :=
  match r.scheduling with
  | some s => decide (s.strategy = "keda")
  | none => false

/-! ## Shard uploads -/

structure AssertionResult where
  index : Int
  type : String
  passed : Bool
  reasonCode : String
  message : Option String
  deriving DecidableEq

structure AttemptResult where
  number : Int
  latencyMS : Float64
  outcome : String
  failureCategory : String
  errorCode : String
  injectedRule : String
  injectedFault : String
  ambiguous : Bool
  retryDecision : String
  backoffMS : Int
  inputTokens : Int
  outputTokens : Int
  modelCallCount : Option Int
  toolCallCount : Int
  usageComplete : Option Bool
  circuitEvents : List String
  deriving DecidableEq

structure CaseResult where
  idempotencyKey : String
  caseID : String
  iteration : Int
  success : Bool
  latencyMS : Float64
  inputTokens : Int
  outputTokens : Int
  modelCallCount : Option Int
  toolCallCount : Int
  failureKind : String
  failureCategory : String
  errorCode : String
  attempts : List AttemptResult
  usageComplete : Option Bool
  output : Option String
  error : Option String
  toolPath : List String
  assertions : List AssertionResult
  inputCostUSD : Option String
  outputCostUSD : Option String
  costUSD : Option String
  deriving DecidableEq

structure ShardSummary where
  total : Int
  succeeded : Int
  failed : Int
  durationMS : Float64
  inputTokens : Int
  outputTokens : Int
  modelCallCount : Option Int
  toolCallCount : Int
  usageComplete : Option Bool
  deriving DecidableEq

structure ShardUpload where
  schemaVersion : String
  summary : ShardSummary
  cases : List CaseResult
  deriving DecidableEq

/-! ## Runs and their results -/

inductive RunStatus
  | collecting
  | complete
  | cancelled
  | harnessFailed
  deriving DecidableEq, Repr

namespace RunStatus

/-- The text of a status in documents, keys and columns. -/
def text : RunStatus → String
  | collecting => "collecting"
  | complete => "complete"
  | cancelled => "cancelled"
  | harnessFailed => "harness_failed"

/-- The two statuses a terminal request can ask for. -/
def terminal : RunStatus → Bool
  | cancelled => true
  | harnessFailed => true
  | collecting => false
  | complete => false

end RunStatus

structure TerminalRequest where
  status : RunStatus
  reasonCode : String
  deriving DecidableEq

structure TerminalReason where
  status : RunStatus
  reasonCode : String
  «at» : Time
  deriving DecidableEq

structure Aggregate where
  total : Int
  succeeded : Int
  failed : Int
  successRate : ℚ
  failureRate : ℚ
  qualityFailures : Int
  qualityFailureRate : ℚ
  infrastructureFailures : Int
  infrastructureFailureRate : ℚ
  attemptCount : Int
  retryCount : Int
  retriedCases : Int
  retrySuccesses : Int
  retrySuccessRate : ℚ
  injectedFaults : Int
  circuitRejections : Int
  p50MS : ℚ
  p95MS : ℚ
  p99MS : ℚ
  inputTokens : Int
  outputTokens : Int
  modelCallCount : Option Int
  toolCallCount : Int
  modelCallsPerSuccessfulAgent : Option ℚ
  toolCallsPerSuccessfulAgent : Option ℚ
  inputCostUSD : Option String
  outputCostUSD : Option String
  costUSD : Option String
  thresholdsPassed : Bool
  usageComplete : Bool
  deriving DecidableEq

structure RunDetail where
  id : String
  registration : Registration
  status : RunStatus
  receivedShards : Nat
  summary : Option Aggregate
  createdAt : Time
  updatedAt : Time
  completedAt : Option Time
  isPartial : Bool
  terminalReason : Option TerminalReason

structure ComparisonDelta where
  successRate : ℚ
  failureRate : ℚ
  qualityFailures : Int
  qualityFailureRate : ℚ
  infrastructureFailures : Int
  infrastructureFailureRate : ℚ
  attemptCount : Int
  retryCount : Int
  retriedCases : Int
  retrySuccesses : Int
  retrySuccessRate : ℚ
  injectedFaults : Int
  circuitRejections : Int
  p50MS : ℚ
  p50Percent : Option ℚ
  p95MS : ℚ
  p95Percent : Option ℚ
  p99MS : ℚ
  p99Percent : Option ℚ
  inputTokens : Int
  outputTokens : Int
  modelCallCount : Option Int
  toolCallCount : Int
  modelCallsPerSuccessfulAgent : Option ℚ
  toolCallsPerSuccessfulAgent : Option ℚ
  costUSD : Option String
  costPercent : Option ℚ

structure Comparison where
  baselineID : String
  candidateID : String
  baseline : Aggregate
  candidate : Aggregate
  delta : ComparisonDelta

structure ShardReservation where
  alreadyComplete : Bool
  pricing : Option RunPricing
  deriving DecidableEq

structure ShardResult where
  created : Bool
  inputCostUSD : Option String
  outputCostUSD : Option String
  deriving DecidableEq, Repr

/-! ## Scheduling -/

structure QueueClaim where
  shardIndex : Nat
  leaseToken : String
  leaseExpiresAt : Time
  renewAfterMS : Int
  deriving DecidableEq, Repr

structure QueueLease where
  leaseExpiresAt : Time
  renewAfterMS : Int
  deriving DecidableEq, Repr

structure QueueStatus where
  pending : Nat
  available : Nat
  leased : Nat
  completed : Nat
  expected : Nat
  runStatus : RunStatus
  thresholdsPassed : Option Bool
  deriving DecidableEq, Repr

structure PermitRequest where
  requestID : String
  workerID : String
  provider : String
  deriving DecidableEq, Repr

structure PermitGrant where
  permitID : String
  leaseToken : String
  leaseExpiresAt : Time
  renewAfterMS : Int
  deriving DecidableEq, Repr

structure PermitLease where
  leaseExpiresAt : Time
  renewAfterMS : Int
  deriving DecidableEq, Repr

/-- Zero means unlimited; `loadConfig` accepts no negative limit. -/
structure Limit where
  maxConcurrency : Nat
  requestsPerMinute : Nat
  deriving DecidableEq, Repr

/-- `providers` is the Go map's lookup: a provider without an entry has the zero `Limit`. -/
structure LimitPolicy where
  global : Limit
  providers : String → Limit
  leaseDurationMS : Int

end AgentStorm.Results
