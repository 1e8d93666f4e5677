import Mathlib.Data.List.Basic

/-!
# `Controller.Environment` — the environment of a worker Pod

`buildJob` lists the variables of the worker container, `buildScaledJob` edits the list for queue
workers, and the worker reads single variables with defaults of its own. The last section follows the
worker id through all three.
-/

namespace AgentStorm.Controller

/-! ## Environment variables -/

/-- The Pod fields the templates refer to. -/
inductive FieldPath
  | uid
  | annotated (key : String)
  deriving DecidableEq

inductive EnvSource
  | value (text : String)
  | fieldRef (path : FieldPath)
  | secretKeyRef (name key : String)
  deriving DecidableEq

structure EnvVar where
  name : String
  source : EnvSource
  deriving DecidableEq

/-! ## Configuration -/

structure ResultSinkConfig where
  url : String
  writeTokenSecretName : String
  writeTokenSecretKey : String
  includeSensitive : Bool
  distributedLimits : Bool
  timeoutSeconds : Int

def ResultSinkConfig.enabled (c : ResultSinkConfig) : Bool := decide (c.url ≠ "")

structure TelemetryConfig where
  otlpEndpoint : String
  allowRedacted : Bool

def TelemetryConfig.enabled (c : TelemetryConfig) : Bool := decide (c.otlpEndpoint ≠ "")

structure SecretKeySelector where
  name : String
  key : String

/-- The fields of an `AgentTestRun` that the worker's job is built from. -/
structure AgentTestRun where
  parallelism : Int
  timeoutSeconds : Int
  datasetKey : String
  provider : String
  apiKeySecretRef : Option SecretKeySelector

/-! ## The worker's job -/

inductive CompletionMode
  | indexed
  deriving DecidableEq

structure JobSpec where
  parallelism : Int
  completions : Int
  completionMode : Option CompletionMode
  backoffLimit : Int
  activeDeadlineSeconds : Int
  env : List EnvVar

/-- `strconv.FormatBool` -/
def formatBool (b : Bool) : String := if b then "true" else "false"

/-- The variables every worker gets. -/
def baseEnvironment (run : AgentTestRun) : List EnvVar :=
  [⟨"AGENTSTORM_RUN_CONFIG", .value "/etc/agentstorm/run/run.json"⟩,
    ⟨"AGENTSTORM_DATASET", .value ("/etc/agentstorm/dataset/" ++ run.datasetKey)⟩,
    ⟨"AGENTSTORM_OUTPUT_DIR", .value "/tmp/agentstorm"⟩,
    ⟨"AGENTSTORM_SHARD_COUNT", .value (toString run.parallelism)⟩,
    ⟨"AGENTSTORM_SHARD_INDEX", .fieldRef (.annotated "batch.kubernetes.io/job-completion-index")⟩]

/-- The provider's key, and the permission to spend on it. -/
def providerEnvironment (run : AgentTestRun) : List EnvVar :=
  (run.apiKeySecretRef.toList.map fun ref => ⟨"OPENAI_API_KEY", .secretKeyRef ref.name ref.key⟩) ++
  if run.provider = "openai-compatible" ∨ run.provider = "openai-agents" then
    [⟨"AGENTSTORM_ALLOW_PROVIDER_SPEND", .value "1"⟩]
  else []

/-- What the Result API needs; the worker's identity is among it only for distributed limits. -/
def resultEnvironment (resultSink : ResultSinkConfig) : List EnvVar :=
  if resultSink.enabled then
    [⟨"AGENTSTORM_RESULT_API_URL", .value resultSink.url⟩,
      ⟨"AGENTSTORM_RESULT_PRE_REGISTERED", .value "true"⟩,
      ⟨"AGENTSTORM_RESULT_WRITE_TOKEN",
        .secretKeyRef resultSink.writeTokenSecretName resultSink.writeTokenSecretKey⟩,
      ⟨"AGENTSTORM_INCLUDE_SENSITIVE_RESULTS", .value (formatBool resultSink.includeSensitive)⟩,
      ⟨"AGENTSTORM_RESULT_TIMEOUT_SECONDS", .value (toString resultSink.timeoutSeconds)⟩] ++
    if resultSink.distributedLimits then
      [⟨"AGENTSTORM_DISTRIBUTED_LIMITS", .value "true"⟩, ⟨"AGENTSTORM_WORKER_ID", .fieldRef .uid⟩]
    else []
  else []

def telemetryEnvironment (telemetry : TelemetryConfig) : List EnvVar :=
  if telemetry.enabled then
    [⟨"AGENTSTORM_OTEL_ENABLED", .value "true"⟩,
      ⟨"OTEL_EXPORTER_OTLP_ENDPOINT", .value telemetry.otlpEndpoint⟩,
      ⟨"OTEL_EXPORTER_OTLP_PROTOCOL", .value "http/protobuf"⟩,
      ⟨"OTEL_SERVICE_NAME", .value "agentstorm-worker"⟩]
  else []

def buildJob (run : AgentTestRun) (resultSink : ResultSinkConfig) (telemetry : TelemetryConfig) : JobSpec where
  parallelism := run.parallelism
  completions := run.parallelism
  completionMode := some .indexed
  backoffLimit := 0
  activeDeadlineSeconds := run.timeoutSeconds
  env := baseEnvironment run ++ providerEnvironment run ++ resultEnvironment resultSink ++
    telemetryEnvironment telemetry

def queueWorkerEnvironment (input : List EnvVar) : List EnvVar :=
  (input.filter fun item => decide (item.name ≠ "AGENTSTORM_SHARD_INDEX" ∧ item.name ≠ "AGENTSTORM_QUEUE_MODE")) ++
  [⟨"AGENTSTORM_QUEUE_MODE", .value "true"⟩]

/-- The job target of `buildScaledJob`. -/
def buildScaledJob (run : AgentTestRun) (resultSink : ResultSinkConfig) (telemetry : TelemetryConfig) : JobSpec :=
  let job := buildJob run resultSink telemetry
  { job with
    parallelism := 1
    completions := 1
    completionMode := none
    env := queueWorkerEnvironment job.env }

/-! ## Inside the Pod -/

structure Pod where
  name : String
  uid : String
  annotations : List (String × String)
  deriving DecidableEq

/-- The value a Pod's container gets for a variable; `secret` are the cluster's secrets. -/
def Pod.resolve (secret : String → String → String) (pod : Pod) : EnvSource → String
  | .value text => text
  | .fieldRef .uid => pod.uid
  | .fieldRef (.annotated key) => (pod.annotations.lookup key).getD ""
  | .secretKeyRef name key => secret name key

def Pod.environment (secret : String → String → String) (pod : Pod) (env : List EnvVar) : List (String × String) :=
  env.map fun item => (item.name, pod.resolve secret item.source)

/-- `os.getenv(name, default)`; a later entry of the container's list wins. -/
def getenv (environment : List (String × String)) (name default : String) : String :=
  ((environment.filter fun entry => decide (entry.1 = name)).getLast?.map Prod.snd).getD default

/-- The identity `execute` claims shards under. -/
def workerID (environment : List (String × String)) : String :=
  getenv environment "AGENTSTORM_WORKER_ID" "local-worker"

/-! ## The identity of a queue worker -/

/-- The worker id of a Pod that runs the template of `buildScaledJob`. -/
def queueWorkerID (secret : String → String → String) (run : AgentTestRun) (resultSink : ResultSinkConfig)
    (telemetry : TelemetryConfig) (pod : Pod) : String :=
  workerID (pod.environment secret (buildScaledJob run resultSink telemetry).env)

/-- The template's entries for one variable. -/
def entriesFor (name : String) (env : List EnvVar) : List EnvVar := env.filter fun item => decide (item.name = name)

theorem entriesFor_append (name : String) (left right : List EnvVar) :
    entriesFor name (left ++ right) = entriesFor name left ++ entriesFor name right := List.filter_append _ _

/-- Variables a template does not name keep their default; the last entry decides about the others. -/
theorem getenv_environment (secret : String → String → String) (pod : Pod) (env : List EnvVar) (name default : String) :
    getenv (pod.environment secret env) name default =
      ((entriesFor name env).getLast?.map fun item => pod.resolve secret item.source).getD default := by
  unfold getenv Pod.environment entriesFor
  rw [List.filter_map, List.getLast?_map, Option.map_map]
  rfl

theorem entriesFor_queueWorkerEnvironment {name : String} (hindex : name ≠ "AGENTSTORM_SHARD_INDEX")
    (hmode : name ≠ "AGENTSTORM_QUEUE_MODE") (env : List EnvVar) :
    entriesFor name (queueWorkerEnvironment env) = entriesFor name env := by
  unfold queueWorkerEnvironment
  rw [entriesFor_append]
  have hlast : entriesFor name [⟨"AGENTSTORM_QUEUE_MODE", .value "true"⟩] = [] := by
    simp [entriesFor, hmode.symm]
  rw [hlast, List.append_nil]
  unfold entriesFor
  rw [List.filter_filter]
  refine List.filter_congr fun item _ => ?_
  by_cases hname : item.name = name
  · simp [hname, hindex, hmode]
  · simp [hname]

/-- Of all the parts of the worker's environment, only the Result API's can name its identity. -/
theorem entriesFor_workerID (run : AgentTestRun) {resultSink : ResultSinkConfig} (hsink : resultSink.enabled = true)
    (telemetry : TelemetryConfig) :
    entriesFor "AGENTSTORM_WORKER_ID" (buildJob run resultSink telemetry).env =
      if resultSink.distributedLimits then [⟨"AGENTSTORM_WORKER_ID", .fieldRef .uid⟩] else [] := by
  have hbase : entriesFor "AGENTSTORM_WORKER_ID" (baseEnvironment run) = [] := by
    simp [entriesFor, baseEnvironment]
  have hprovider : entriesFor "AGENTSTORM_WORKER_ID" (providerEnvironment run) = [] := by
    unfold providerEnvironment
    cases run.apiKeySecretRef <;> split <;> simp [entriesFor]
  have htelemetry : entriesFor "AGENTSTORM_WORKER_ID" (telemetryEnvironment telemetry) = [] := by
    unfold telemetryEnvironment
    split <;> simp [entriesFor]
  have hresult : entriesFor "AGENTSTORM_WORKER_ID" (resultEnvironment resultSink) =
      if resultSink.distributedLimits then [⟨"AGENTSTORM_WORKER_ID", .fieldRef .uid⟩] else [] := by
    unfold resultEnvironment
    rw [if_pos hsink]
    split <;> simp [entriesFor]
  show entriesFor _ (baseEnvironment run ++ providerEnvironment run ++ resultEnvironment resultSink ++ _) = _
  rw [entriesFor_append, entriesFor_append, entriesFor_append, hbase, hprovider, htelemetry, hresult]
  simp

/-- **A queue worker claims under its Pod's uid only with distributed limits**; without them every Pod has the same
    identity. -/
theorem queueWorkerID_eq (secret : String → String → String) (run : AgentTestRun) {resultSink : ResultSinkConfig}
    (hsink : resultSink.enabled = true) (telemetry : TelemetryConfig) (pod : Pod) :
    queueWorkerID secret run resultSink telemetry pod =
      if resultSink.distributedLimits then pod.uid else "local-worker" := by
  unfold queueWorkerID workerID
  rw [getenv_environment]
  show ((entriesFor _ (queueWorkerEnvironment (buildJob run resultSink telemetry).env)).getLast?.map _).getD _ = _
  rw [entriesFor_queueWorkerEnvironment (by decide) (by decide), entriesFor_workerID run hsink telemetry]
  split <;> rfl

end AgentStorm.Controller
