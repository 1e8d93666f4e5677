import AgentStorm.Controller.Spec
import AgentStorm.Foundation.Dict

/-!
# `Controller.Admission` — which runs the controller accepts

`validateAndDefaultWithScheduler` of `agenttestrun_controller.go` with `validateScheduling` of `scheduling.go`, check by
check, with the defaults they fill in. `net/url`, `regexp` and the label checks of Kubernetes are parameters.
-/

namespace AgentStorm.Controller

open Checks Numeric Results Text

/-- What `url.Parse` returns. -/
structure ParsedURL where
  scheme : String
  host : String
  hasUser : Bool
  rawQuery : String
  fragment : String
  escapedPath : String

structure Libraries where
  parseURL : String → Option ParsedURL
  /-- `regexp.Compile` reports no error. -/
  compiles : String → Bool
  isQualifiedName : String → Bool
  /-- Go's `%q`. -/
  quote : String → String

/-! ## The scheduler's configuration -/

structure SchedulerConfig where
  enableKEDA : Bool
  metricsAPIURL : String
  maxWorkersPerRun : Int
  maxInFlightCases : Int
  pollingInterval : Int
  deriving DecidableEq

/-- The value, unless it is zero. -/
def orDefault (value default : Int) : Int := if value = 0 then default else value

def orText (value default : String) : String := if value = "" then default else value

/-- `strings.TrimRight(s, "/")` -/
def trimSlashes (cs : List Char) : List Char := (cs.reverse.dropWhile (· == '/')).reverse

/-- `strings.TrimSpace(s)` -/
def trimSpace (cs : List Char) : List Char := trim isSpace cs

def SchedulerConfig.defaults (c : SchedulerConfig) : SchedulerConfig :=
  { c with
    maxWorkersPerRun := orDefault c.maxWorkersPerRun 100
    maxInFlightCases := orDefault c.maxInFlightCases 1000
    pollingInterval := orDefault c.pollingInterval 2
    metricsAPIURL := String.ofList (trimSlashes (trimSpace c.metricsAPIURL.toList)) }

def validateMetricsAPIURL (L : Libraries) (c : SchedulerConfig) : Except String Unit :=
  if c.enableKEDA then
    match L.parseURL c.metricsAPIURL with
    | none => .error "keda-metrics-api-url must be an HTTP(S) URL"
    | some parsed => do
        reject (decide ((parsed.scheme ≠ "http" ∧ parsed.scheme ≠ "https") ∨ parsed.host = ""))
          "keda-metrics-api-url must be an HTTP(S) URL"
        reject (parsed.hasUser || decide (parsed.rawQuery ≠ "" ∨ parsed.fragment ≠ ""))
          "keda-metrics-api-url must not contain credentials, query, or fragment"
  else reject (decide (c.metricsAPIURL ≠ "")) "keda-metrics-api-url requires enable-keda"

def SchedulerConfig.validateAndDefault (L : Libraries) (c : SchedulerConfig) : Except String SchedulerConfig := do
  let c := c.defaults
  reject (decide (c.maxWorkersPerRun < 1 ∨ 1000 < c.maxWorkersPerRun)) "max-workers-per-run must be between 1 and 1000"
  reject (decide (c.maxInFlightCases < 1 ∨ 100000 < c.maxInFlightCases))
    "max-in-flight-cases must be between 1 and 100000"
  reject (decide (c.pollingInterval < 1 ∨ 300 < c.pollingInterval))
    "keda-polling-interval must be between 1 and 300 seconds"
  validateMetricsAPIURL L c
  return c

/-! ## Targets -/

def validatePinnedModel (model : String) : Except String Unit :=
  reject (blank model || decide (256 < model.utf8ByteSize) ||
    model.toList.any fun c => c == ' ' || c == '\t' || c == '\r' || c == '\n')
    "target.model must be a pinned model id without whitespace"

def chatSuffix : List Char := "/chat/completions".toList

def absoluteURL : String := "target.baseURL must be an absolute http or https URL without credentials"

def validateParsedURL (parsed : ParsedURL) : Except String Unit := do
  reject (decide (parsed.host = "" ∨ (parsed.scheme ≠ "http" ∧ parsed.scheme ≠ "https"))) absoluteURL
  reject parsed.hasUser "target.baseURL must not contain credentials"
  reject (decide (parsed.rawQuery ≠ "" ∨ parsed.fragment ≠ "")) "target.baseURL must not contain a query or fragment"
  reject (chatSuffix.isSuffixOf (trimSlashes parsed.escapedPath.toList))
    "target.baseURL must be the API root, not the chat completions path"

def validateBaseURL (L : Libraries) (raw : String) : Except String Unit :=
  if raw = "" then .ok ()
  else do
    reject (decide (2048 < raw.utf8ByteSize ∨ trimSpace raw.toList ≠ raw.toList) ||
      raw.toList.any fun c => c == '\r' || c == '\n' || c == '\t') absoluteURL
    let parsed ← orElse (L.parseURL raw) absoluteURL
    validateParsedURL parsed

/-! ### Request fields -/

/-- `^[A-Za-z_][A-Za-z0-9_]{0,63}$` -/
def requestFieldKey (key : String) : Bool := identifierPattern key.toList && decide (key.toList.length ≤ 64)

def reservedRequestFields : List String :=
  ["model", "messages", "stream", "tools", "tool_choice", "temperature", "max_tokens"]

/-- A text as `encoding/json` reads it: a lone surrogate becomes the replacement character. -/
def goText (s : Python.Text) : String :=
  String.ofList (s.map fun c => if c.val.isValidChar then Char.ofNat c.val else Char.ofNat 0xFFFD)

/-- The least integer that is too large for a `float64`. -/
def floatRange : Int := 2 ^ 1024 - 2 ^ 970

mutual
/-- `json.Unmarshal` into `any`: every number is read as a `float64`. -/
def decodable : Python.Value → Bool
  | .int n => decide (-floatRange < n ∧ n < floatRange)
  | .float (.finite _) => true
  | .float _ => false
  | .list items => decodableItems items
  | .dict members => decodableMembers members
  | _ => true

def decodableItems : List Python.Value → Bool
  | [] => true
  | item :: items => decodable item && decodableItems items

def decodableMembers : List (Python.Text × Python.Value) → Bool
  | [] => true
  | member :: members => decodable member.2 && decodableMembers members
end

/-- The map that the document decodes into: each value with the size of its text. -/
def rawFields (members : List RawMember) : List (String × Python.Value × Nat) :=
  Dict.ofMembers (members.map fun member => (goText member.key, member.value, member.size))

def validateRequestField (field : String × Python.Value × Nat) : Except String Unit := do
  reject (!requestFieldKey field.1) "target.requestFields keys must be identifiers"
  reject (decide (field.1 ∈ reservedRequestFields)) ("request field " ++ field.1 ++ " is reserved")
  reject (decide (1024 < field.2.2)) "target.requestFields values must be at most 1024 bytes"
  reject (!decodable field.2.1) "target.requestFields values must be JSON values"

/-- The source ranges over a map, so which field is reported first is not fixed there. -/
def validateRequestFields : RawMessage → Except String Unit
  | .absent => .ok ()
  | .other _ => .error "target.requestFields must be an object"
  | .object members => do
      reject (decide (16 < (rawFields members).length)) "target.requestFields must contain at most 16 entries"
      (rawFields members).forM validateRequestField

def validateCompatible (L : Libraries) (target : AgentTargetSpec) : Except String Unit := do
  validatePinnedModel target.model
  reject (blank target.baseURL) "target.baseURL is required for provider openai-compatible"
  validateBaseURL L target.baseURL

/-- The provider's own rules. -/
def validateProvider (L : Libraries) (target : AgentTargetSpec) : Except String Unit :=
  if target.provider = "openai-compatible" then validateCompatible L target
  else reject (decide (target.provider = "openai-agents") && blank target.model)
    "target.model is required for provider openai-agents"

def validateTarget (L : Libraries) (target : AgentTargetSpec) : Except String Unit := do
  reject (decide (target.provider ∉ ["fake", "openai-agents", "openai-compatible"]))
    ("unsupported provider " ++ L.quote target.provider)
  reject (decide (target.adapterEntrypoint ≠ "") &&
      (decide (256 < target.adapterEntrypoint.utf8ByteSize) || !entrypointPattern target.adapterEntrypoint))
    "target.adapterEntrypoint must be a module:function reference no longer than 256 bytes"
  validateProvider L target
  reject (target.pricing.any fun p =>
      !pricePattern p.inputUSDPerMillionTokens || !pricePattern p.outputUSDPerMillionTokens)
    "target.pricing requires non-negative decimal USD prices"
  reject (target.maxTokens.any fun n => decide (n < 1 ∨ 131072 < n)) "target.maxTokens must be between 1 and 131072"
  reject (target.httpRetryAttempts.any fun n => decide (n < 1 ∨ 16 < n))
    "target.httpRetryAttempts must be between 1 and 16"
  reject (target.httpRetryMaxWaitSeconds.any fun n => decide (n < 1 ∨ 300 < n))
    "target.httpRetryMaxWaitSeconds must be between 1 and 300"
  validateRequestFields target.requestFields

/-! ## The other sections -/

def validatePatterns (L : Libraries) : Nat → List String → Except String Unit
  | _, [] => .ok ()
  | index, pattern :: patterns => do
      let path := "telemetry.redaction.patterns[" ++ toString index ++ "]"
      reject (decide (256 < pattern.utf8ByteSize)) (path ++ " must be at most 256 bytes")
      reject (!L.compiles pattern) (path ++ " is invalid")
      validatePatterns L (index + 1) patterns

def validateTelemetry (L : Libraries) (spec : AgentTelemetrySpec) : Except String AgentTelemetrySpec := do
  let spec := { spec with contentMode := orText spec.contentMode "omit" }
  reject (decide (spec.contentMode ≠ "omit" ∧ spec.contentMode ≠ "redacted"))
    "telemetry.contentMode must be omit or redacted"
  reject (decide (20 < spec.patterns.length)) "telemetry.redaction.patterns must contain at most 20 entries"
  validatePatterns L 0 spec.patterns
  return spec

/-- The `float64` next to 0.2. -/
def defaultJitterRatio : Float64 := .finite (3602879701896397 / 18014398509481984)

def AgentRetrySpec.defaults (retry : AgentRetrySpec) : AgentRetrySpec :=
  { retry with
    maxAttempts := orDefault retry.maxAttempts 1
    initialBackoffMs := orDefault retry.initialBackoffMs 100
    maxBackoffMs := orDefault retry.maxBackoffMs 2000
    maxCumulativeBackoffMs := orDefault retry.maxCumulativeBackoffMs 5000
    jitterRatio := some (retry.jitterRatio.getD defaultJitterRatio) }

def validateScenarioRef (seed : Option Int) (ref : ConfigMapKeySelector) : Except String Unit := do
  reject seed.isNone "reliability.seed is required when scenarioRef is configured"
  reject (blank ref.name || !isDNS1123Subdomain ref.name) "reliability.scenarioRef.name must be a valid ConfigMap name"
  reject (blank ref.key || !isConfigMapKey ref.key) "reliability.scenarioRef.key must be a valid ConfigMap key"

def validateRetry (retry : AgentRetrySpec) : Except String Unit := do
  reject (decide (retry.maxAttempts < 1 ∨ 10 < retry.maxAttempts)) "reliability.retry.maxAttempts must be between 1 and 10"
  reject (decide (retry.initialBackoffMs < 1 ∨ retry.maxBackoffMs < 1 ∨ retry.maxCumulativeBackoffMs < 1))
    "reliability retry backoff values must be positive"
  reject (decide (retry.maxBackoffMs < retry.initialBackoffMs))
    "reliability.retry.initialBackoffMs cannot exceed maxBackoffMs"
  reject (retry.jitterRatio.any fun jitter => jitter.lt 0 || jitter.gt 1)
    "reliability.retry.jitterRatio must be between 0 and 1"

def validateReliability (spec : AgentReliabilitySpec) : Except String AgentReliabilitySpec := do
  reject (spec.seed.any fun seed => decide (seed < 0)) "reliability.seed must be non-negative"
  spec.scenarioRef.forM (validateScenarioRef spec.seed)
  let spec := { spec with retry := spec.retry.defaults }
  validateRetry spec.retry
  reject (spec.circuitBreaker.any fun b => decide (b.failureThreshold < 1 ∨ b.openDurationMs < 1))
    "reliability.circuitBreaker values must be positive"
  return spec

def AgentWorkloadSpec.defaults (spec : AgentWorkloadSpec) : AgentWorkloadSpec :=
  { spec with
    parallelism := orDefault spec.parallelism 1
    concurrencyPerWorker := orDefault spec.concurrencyPerWorker 1
    iterations := orDefault spec.iterations 1
    timeoutSeconds := orDefault spec.timeoutSeconds 900 }

def validateWorkload (spec : AgentWorkloadSpec) : Except String AgentWorkloadSpec := do
  reject (blank spec.datasetRef.name || blank spec.datasetRef.key) "workload.datasetRef.name and key are required"
  let spec := spec.defaults
  reject (decide (spec.parallelism < 1 ∨ spec.concurrencyPerWorker < 1 ∨ spec.iterations < 1 ∨ spec.timeoutSeconds < 1))
    "parallelism, concurrencyPerWorker, iterations and timeoutSeconds must be positive"
  reject (decide (10000 < spec.parallelism)) "workload.parallelism must not exceed 10000"
  return spec

/-! ## Scheduling -/

def AgentSchedulingSpec.defaults (spec : AgentSchedulingSpec) : AgentSchedulingSpec :=
  { spec with
    strategy := orText spec.strategy "indexed"
    maxWorkers := orDefault spec.maxWorkers 1
    resourceProfile := orText spec.resourceProfile "small" }

def validateNodeLabel (L : Libraries) (label : String × String) : Except String Unit :=
  reject (!L.isQualifiedName label.1 || !isValidLabelValue label.2) "scheduling.nodeSelector contains an invalid label"

def validateToleration (L : Libraries) (t : Toleration) : Except String Unit := do
  reject (decide (t.key ≠ "") && !L.isQualifiedName t.key) "scheduling.tolerations contains an invalid key"
  reject (decide (t.operator ∉ ["", "Equal", "Exists"])) "scheduling.tolerations contains an invalid operator"
  reject (decide (t.operator = "Exists" ∧ t.value ≠ "")) "Exists tolerations cannot set value"
  reject (decide (t.value ≠ "") && !isValidLabelValue t.value) "scheduling.tolerations contains an invalid value"
  reject (decide (t.effect ∉ ["", "NoSchedule", "PreferNoSchedule", "NoExecute"]))
    "scheduling.tolerations contains an invalid effect"
  reject (t.tolerationSeconds.isSome && decide (t.effect ≠ "NoExecute")) "tolerationSeconds is only valid with NoExecute"
  reject (t.tolerationSeconds.any fun seconds => decide (seconds < 0)) "tolerationSeconds must not be negative"

/-- The workers that can run at the same time. -/
def maxWorkersAtOnce (workload : AgentWorkloadSpec) (spec : AgentSchedulingSpec) : Int :=
  if spec.strategy = "keda" then spec.maxWorkers else workload.parallelism

def validateScheduling (L : Libraries) (config : SchedulerConfig) (workload : AgentWorkloadSpec)
    (spec : AgentSchedulingSpec) : Except String AgentSchedulingSpec := do
  let spec := spec.defaults
  reject (decide (spec.strategy ≠ "indexed" ∧ spec.strategy ≠ "keda")) "scheduling.strategy must be indexed or keda"
  reject (decide (spec.maxWorkers < 1 ∨ config.maxWorkersPerRun < spec.maxWorkers))
    ("scheduling.maxWorkers exceeds the controller limit of " ++ toString config.maxWorkersPerRun)
  reject (decide (spec.resourceProfile ∉ ["small", "medium", "large"]))
    "scheduling.resourceProfile must be small, medium, or large"
  reject (decide (config.maxInFlightCases < maxWorkersAtOnce workload spec * workload.concurrencyPerWorker))
    ("requested Worker concurrency exceeds the controller safety limit of " ++ toString config.maxInFlightCases)
  reject (decide (16 < spec.tolerations.length)) "scheduling.tolerations must contain at most 16 entries"
  reject (decide (32 < spec.nodeSelector.length)) "scheduling.nodeSelector must contain at most 32 entries"
  spec.nodeSelector.forM (validateNodeLabel L)
  spec.tolerations.forM (validateToleration L)
  return spec

/-! ## Runs -/

/-- The spec with its defaults, if the controller accepts it. -/
def validateAndDefaultWithScheduler (L : Libraries) (config : SchedulerConfig) (spec : AgentTestRunSpec) :
    Except String AgentTestRunSpec := do
  let config ← config.validateAndDefault L
  validateTarget L spec.target
  let telemetry ← validateTelemetry L spec.telemetry
  let reliability ← spec.reliability.mapM validateReliability
  reject (blank spec.image) "runner.image is required"
  let workload ← validateWorkload spec.workload
  let scheduling ← validateScheduling L config workload spec.scheduling
  return { spec with telemetry, reliability, workload, scheduling }

/-- What the acceptance of a run says about its sections. -/
structure Admitted (L : Libraries) (config : SchedulerConfig) (spec spec' : AgentTestRunSpec) : Prop where
  target : validateTarget L spec.target = .ok ()
  reliability : spec.reliability.mapM validateReliability = .ok spec'.reliability
  workload : validateWorkload spec.workload = .ok spec'.workload
  scheduling : ∃ config', config.validateAndDefault L = .ok config' ∧
    validateScheduling L config' spec'.workload spec.scheduling = .ok spec'.scheduling
  target_eq : spec'.target = spec.target
  evaluation_eq : spec'.evaluation = spec.evaluation

theorem admitted_of_ok {L : Libraries} {config : SchedulerConfig} {spec spec' : AgentTestRunSpec}
    (h : validateAndDefaultWithScheduler L config spec = .ok spec') : Admitted L config spec spec' := by
  unfold validateAndDefaultWithScheduler at h
  obtain ⟨config', hconfig, h⟩ := bind_ok_iff.mp h
  obtain ⟨htarget, h⟩ := then_ok_iff.mp h
  obtain ⟨_, -, h⟩ := bind_ok_iff.mp h
  obtain ⟨_, hreliability, h⟩ := bind_ok_iff.mp h
  obtain ⟨-, h⟩ := then_ok_iff.mp h
  obtain ⟨_, hworkload, h⟩ := bind_ok_iff.mp h
  obtain ⟨_, hscheduling, h⟩ := bind_ok_iff.mp h
  cases h
  exact ⟨htarget, hreliability, hworkload, ⟨config', hconfig, hscheduling⟩, rfl, rfl⟩

end AgentStorm.Controller
