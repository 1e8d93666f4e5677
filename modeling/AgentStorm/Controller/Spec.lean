import AgentStorm.Controller.Environment
import AgentStorm.Controller.Names
import AgentStorm.Foundation.Python
import AgentStorm.Results.Keys

/-!
# `Controller.Spec` — the spec of a run and what the API server checks of it

The types of `api/v1alpha1/agenttestrun_types.go` and their `kubebuilder` markers (`AgentTestRunSpec.schemaValid`). A
number or text that a document leaves out is zero or empty in the decoded spec.

`requestFields` is kept as raw JSON by the controller and read again by the worker. `RawMessage` has what the readers
see of it: the members of the object in the order they are written, each with the size of its text.
-/

namespace AgentStorm.Controller

open Numeric Results

/-! ## Raw JSON -/

/-- A member of an object; `value` keeps the members of nested objects as they are written. -/
structure RawMember where
  key : Python.Text
  value : Python.Value
  /-- The bytes of the value. -/
  size : Nat

inductive RawMessage
  | absent
  /-- A JSON text that is no object. -/
  | other (value : Python.Value)
  | object (members : List RawMember)

/-! ## The spec -/

structure AgentPricingSpec where
  inputUSDPerMillionTokens : String
  outputUSDPerMillionTokens : String

structure AgentTargetSpec where
  provider : String
  model : String
  baseURL : String
  adapterEntrypoint : String
  pricing : Option AgentPricingSpec
  maxTokens : Option Int
  requestFields : RawMessage
  httpRetryAttempts : Option Int
  httpRetryMaxWaitSeconds : Option Int

structure AgentTelemetrySpec where
  contentMode : String
  patterns : List String
  deriving DecidableEq

structure ConfigMapKeySelector where
  name : String
  key : String
  deriving DecidableEq

structure AgentWorkloadSpec where
  datasetRef : ConfigMapKeySelector
  parallelism : Int
  concurrencyPerWorker : Int
  iterations : Int
  timeoutSeconds : Int
  deriving DecidableEq

structure AgentEvaluationSpec where
  minSuccessRate : Option Float64
  maxErrorRate : Option Float64
  maxP95LatencyMs : Option Int

structure AgentRetrySpec where
  maxAttempts : Int
  initialBackoffMs : Int
  maxBackoffMs : Int
  maxCumulativeBackoffMs : Int
  jitterRatio : Option Float64
  allowAmbiguousRetries : Bool
  deriving DecidableEq

structure AgentCircuitBreakerSpec where
  failureThreshold : Int
  openDurationMs : Int
  deriving DecidableEq

structure AgentReliabilitySpec where
  seed : Option Int
  scenarioRef : Option ConfigMapKeySelector
  retry : AgentRetrySpec
  circuitBreaker : Option AgentCircuitBreakerSpec
  deriving DecidableEq

structure Toleration where
  key : String
  operator : String
  value : String
  effect : String
  tolerationSeconds : Option Int
  deriving DecidableEq

structure AgentSchedulingSpec where
  strategy : String
  maxWorkers : Int
  resourceProfile : String
  nodeSelector : List (String × String)
  tolerations : List Toleration
  deriving DecidableEq

structure AgentTestRunSpec where
  target : AgentTargetSpec
  workload : AgentWorkloadSpec
  evaluation : AgentEvaluationSpec
  telemetry : AgentTelemetrySpec
  reliability : Option AgentReliabilitySpec
  image : String
  scheduling : AgentSchedulingSpec

structure ObjectMeta where
  «namespace» : String
  name : String
  uid : String

/-! ## The schema -/

/-- `Minimum` and `Maximum` of a field that is zero when it is left out. -/
def omittedOr (low : Int) (high : Option Int) (n : Int) : Bool :=
  decide (n = 0) || (decide (low ≤ n) && high.all fun h => decide (n ≤ h))

def within (low : Int) (high : Option Int) (n : Option Int) : Bool :=
  n.all fun n => decide (low ≤ n) && high.all fun h => decide (n ≤ h)

/-- A number between 0 and 1. -/
def ratio (value : Option Float64) : Bool := value.all fun v => validMetric v && !v.lt 0 && !v.gt 1

def AgentTargetSpec.schemaValid (target : AgentTargetSpec) : Bool :=
  decide (target.provider ∈ ["fake", "openai-agents", "openai-compatible"]) &&
  (decide (target.adapterEntrypoint = "") ||
    decide (target.adapterEntrypoint.length ≤ 256) && entrypointPattern target.adapterEntrypoint) &&
  (target.pricing.all fun p => pricePattern p.inputUSDPerMillionTokens && pricePattern p.outputUSDPerMillionTokens) &&
  within 1 (some 131072) target.maxTokens &&
  (match target.requestFields with
    | .other _ => false
    | _ => true) &&
  within 1 (some 16) target.httpRetryAttempts && within 1 (some 300) target.httpRetryMaxWaitSeconds

def AgentReliabilitySpec.schemaValid (spec : AgentReliabilitySpec) : Bool :=
  within 0 none spec.seed && (spec.scenarioRef.isNone || spec.seed.isSome) &&
  omittedOr 1 (some 10) spec.retry.maxAttempts && omittedOr 1 none spec.retry.initialBackoffMs &&
  omittedOr 1 none spec.retry.maxBackoffMs && omittedOr 1 none spec.retry.maxCumulativeBackoffMs &&
  ratio spec.retry.jitterRatio &&
  spec.circuitBreaker.all fun b => decide (1 ≤ b.failureThreshold) && decide (1 ≤ b.openDurationMs)

def AgentSchedulingSpec.schemaValid (spec : AgentSchedulingSpec) : Bool :=
  decide (spec.strategy ∈ ["", "indexed", "keda"]) && omittedOr 1 (some 1000) spec.maxWorkers &&
  decide (spec.resourceProfile ∈ ["", "small", "medium", "large"]) &&
  decide (spec.nodeSelector.length ≤ 32) && decide (spec.tolerations.length ≤ 16)

def AgentTestRunSpec.schemaValid (spec : AgentTestRunSpec) : Bool :=
  spec.target.schemaValid &&
  omittedOr 1 (some 10000) spec.workload.parallelism && omittedOr 1 none spec.workload.concurrencyPerWorker &&
  omittedOr 1 none spec.workload.iterations && omittedOr 1 none spec.workload.timeoutSeconds &&
  ratio spec.evaluation.minSuccessRate && ratio spec.evaluation.maxErrorRate &&
  within 1 none spec.evaluation.maxP95LatencyMs &&
  decide (spec.telemetry.contentMode ∈ ["", "omit", "redacted"]) && decide (spec.telemetry.patterns.length ≤ 20) &&
  spec.reliability.all AgentReliabilitySpec.schemaValid && spec.scheduling.schemaValid

end AgentStorm.Controller
