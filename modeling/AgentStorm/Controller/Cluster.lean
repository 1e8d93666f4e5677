import AgentStorm.Controller.Registration

/-!
# `Controller.Cluster` — the objects of a namespace that the controller reads and writes

ConfigMaps, Secrets, quotas, Jobs and ScaledJobs by name, with what the controller looks at, and the
checks that come before a run is started. A check answers with the reason and the message of the
condition it sets (`Readiness`). Times, generations and Pod templates are left out.
-/

namespace AgentStorm.Controller

open Checks Numeric Reliability Results Text

/-! ## Objects -/

structure ConfigMap where
  /-- The UID of the controlling owner. -/
  controller : Option String
  /-- A map without keys is not stored: it is read back as the nil map. -/
  data : List (String × Bytes)
  binaryData : List (String × Bytes)

structure Secret where
  data : String → Option Bytes
  stringData : String → Option String

inductive JobConditionType
  | complete
  | failed
  | other
  deriving DecidableEq

structure JobCondition where
  type : JobConditionType
  /-- The status is `True`. -/
  status : Bool
  message : String

structure Job where
  controller : Option String
  /-- The label `agentstorm.io/run`. -/
  runLabel : String
  conditions : List JobCondition
  active : Int
  succeeded : Int
  failed : Int

structure ScaledJob where
  controller : Option String

/-- Quantities are in billionths, the finest that the API server keeps. -/
structure ResourceQuota where
  name : String
  statusHard : String → Option Int
  specHard : String → Option Int
  used : String → Int

structure Cluster where
  configMaps : String → Option ConfigMap
  secrets : String → Option Secret
  quotas : List ResourceQuota
  jobs : String → Option Job
  scaledJobs : String → Option ScaledJob
  /-- The definition of `ScaledJob` is installed. -/
  hasKEDA : Bool

/-! ## Runs -/

inductive RunPhase
  | unset
  | pending
  | running
  | succeeded
  | failed
  | cancelled
  deriving DecidableEq

def terminalPhase : RunPhase → Bool
  | .succeeded | .failed | .cancelled => true
  | _ => false

inductive ConditionType
  | ready
  | dataset
  | credentials
  | resultSink
  | telemetry
  | scenario
  | scheduling
  deriving DecidableEq

structure Condition where
  status : Bool
  reason : String
  message : String
  deriving DecidableEq

structure AgentTestRunStatus where
  phase : RunPhase
  jobName : String
  scaledJobName : String
  active : Int
  succeeded : Int
  failed : Int
  conditions : List (ConditionType × Condition)
  deriving DecidableEq

structure OptionalSecretKey extends SecretKeySelector where
  optional : Bool

/-- An `AgentTestRun` object. -/
structure TestRun where
  metadata : ObjectMeta
  spec : AgentTestRunSpec
  apiKeySecretRef : Option OptionalSecretKey
  cancel : Bool
  status : AgentTestRunStatus

/-- `meta.SetStatusCondition` -/
def AgentTestRunStatus.mark (type : ConditionType) (condition : Condition) (status : AgentTestRunStatus) :
    AgentTestRunStatus :=
  { status with conditions := Dict.set type condition status.conditions }

@[simp] theorem AgentTestRunStatus.mark_phase (type : ConditionType) (condition : Condition) (status : AgentTestRunStatus) :
    (status.mark type condition).phase = status.phase := rfl

def setTerminalStatus (phase : RunPhase) (reason message : String) (status : AgentTestRunStatus) : AgentTestRunStatus :=
  { status.mark .ready ⟨false, reason, message⟩ with phase }

/-! ## The worker's configuration -/

structure WorkerReliabilityConfig where
  seed : Option Int
  retry : AgentRetrySpec
  circuitBreaker : Option AgentCircuitBreakerSpec
  scenario : Option Snapshot

structure WorkerRunConfig where
  runID : String
  source : RunSource
  dataset : RunDataset
  target : AgentTargetSpec
  concurrency : Int
  iterations : Int
  timeoutSeconds : Int
  evaluation : AgentEvaluationSpec
  telemetry : AgentTelemetrySpec
  reliability : Option WorkerReliabilityConfig

def workerRunConfig (run : ObjectMeta) (spec : AgentTestRunSpec) (scenario : Option Snapshot) : WorkerRunConfig where
  runID := run.uid
  source := ⟨run.namespace, run.name⟩
  dataset := ⟨spec.workload.datasetRef.name, spec.workload.datasetRef.key⟩
  target := spec.target
  concurrency := spec.workload.concurrencyPerWorker
  iterations := spec.workload.iterations
  timeoutSeconds := spec.workload.timeoutSeconds
  evaluation := spec.evaluation
  telemetry := spec.telemetry
  reliability := spec.reliability.map fun r => ⟨r.seed, r.retry, r.circuitBreaker, scenario⟩

/-- The text of `run.json`, and the scenario that is found in such a text. -/
structure ConfigCodec where
  marshal : WorkerRunConfig → Bytes
  scenario? : Bytes → Option Snapshot
  marshal_ne_nil : ∀ config, marshal config ≠ []
  scenario?_marshal : ∀ config, scenario? (marshal config) = config.reliability.bind (·.scenario)

/-- What a controller is configured with and what it is linked against. -/
structure Reconciler where
  libraries : Libraries
  platform : Platform
  codec : ConfigCodec
  /-- The first four bytes of the digest of a name, in hexadecimal. -/
  hash : String → String
  resultSink : ResultSinkConfig
  telemetry : TelemetryConfig
  scheduler : SchedulerConfig
  requireResourceQuota : Bool

def Reconciler.childName (R : Reconciler) (run : ObjectMeta) (suffix : String) : String :=
  Controller.childName R.hash run.name suffix

def workerConfigKey : String := "run.json"

/-! ## Readiness -/

structure Readiness where
  ready : Bool
  reason : String
  message : String

variable (R : Reconciler) (cluster : Cluster) (run : TestRun) (spec : AgentTestRunSpec)

def datasetReady : Bool :=
  (cluster.configMaps spec.workload.datasetRef.name).any fun dataset =>
    (dataset.data.lookup spec.workload.datasetRef.key).isSome ||
      (dataset.binaryData.lookup spec.workload.datasetRef.key).isSome

def datasetReadiness : Readiness :=
  if datasetReady cluster spec then ⟨true, "Available", "dataset ConfigMap is available"⟩
  else ⟨false, "ConfigMapMissing", "referenced dataset ConfigMap or key is not available"⟩

def credentialsReady : Readiness :=
  match run.apiKeySecretRef with
  | none => ⟨true, "NotRequired", "no provider Secret is configured"⟩
  | some ref =>
    match cluster.secrets ref.name with
    | none =>
      if ref.optional then ⟨true, "Optional", "optional provider Secret is not available"⟩
      else ⟨false, "SecretMissing", "referenced provider Secret is not available"⟩
    | some secret =>
      if (secret.data ref.key).isSome || (secret.stringData ref.key).isSome then
        ⟨true, "Available", "provider Secret key is available"⟩
      else if ref.optional then ⟨true, "Optional", "optional provider Secret key is not available"⟩
      else ⟨false, "KeyMissing", "referenced provider Secret key is not available"⟩

/-- The token in a Secret, if there is one. -/
def Secret.token (secret : Secret) (key : String) : Option Bytes :=
  match (secret.data key).filter (!·.isEmpty) with
  | some value => some value
  | none => ((secret.stringData key).filter (!blank ·)).map bytes

def resultSinkReady : Readiness :=
  if R.resultSink.enabled then
    match cluster.secrets R.resultSink.writeTokenSecretName with
    | none => ⟨false, "SecretMissing", "result sink write-token Secret is not available"⟩
    | some secret =>
      if (secret.token R.resultSink.writeTokenSecretKey).isSome then
        ⟨true, "Available", "result sink write-token Secret is available"⟩
      else ⟨false, "KeyMissing", "result sink write-token Secret key is not available"⟩
  else ⟨true, "NotConfigured", "durable result sink is not configured"⟩

def resultWriteToken : Option Bytes :=
  (cluster.secrets R.resultSink.writeTokenSecretName).bind fun secret => secret.token R.resultSink.writeTokenSecretKey

def telemetryReady : Readiness :=
  if spec.telemetry.contentMode ≠ "redacted" then ⟨true, "ContentOmitted", "trace content is omitted"⟩
  else if !R.telemetry.enabled then ⟨false, "EndpointMissing", "redacted telemetry requires an OTLP endpoint"⟩
  else if !R.telemetry.allowRedacted then
    ⟨false, "RedactedTelemetryDisabled", "redacted telemetry is disabled by the controller"⟩
  else ⟨true, "Available", "redacted telemetry is explicitly enabled"⟩

/-! ### The scenario -/

/-- The scenario in the ConfigMap that the controller generated for the run. -/
def generatedScenario : Option Snapshot := do
  let generated ← cluster.configMaps (R.childName run.metadata "config")
  let payload ← (generated.data.lookup workerConfigKey).filter (!·.isEmpty)
  if generated.controller = some run.metadata.uid then R.codec.scenario? payload else none

/-- The scenario in the ConfigMap that the run refers to. -/
def sourceScenario (ref : ConfigMapKeySelector) : Option Snapshot × Readiness :=
  match cluster.configMaps ref.name with
  | none => (none, ⟨false, "ConfigMapMissing", "referenced fault scenario ConfigMap is not available"⟩)
  | some source =>
    match (source.data.lookup ref.key).or (source.binaryData.lookup ref.key) with
    | none => (none, ⟨false, "KeyMissing", "referenced fault scenario ConfigMap key is not available"⟩)
    | some payload =>
      match parseScenario R.platform payload with
      | .error _ =>
        (none, ⟨false, "InvalidScenario", "referenced fault scenario failed strict validation"⟩)
      | .ok (scenario, _, digest) =>
        (some ⟨ref.name, ref.key, digest, scenario⟩,
          ⟨true, "Available", "fault scenario is valid and ready to snapshot"⟩)

def scenarioSnapshot : Option Snapshot × Readiness :=
  match spec.reliability.bind (·.scenarioRef) with
  | none => (none, ⟨true, "NotConfigured", "fault scenario is not configured"⟩)
  | some ref =>
    match generatedScenario R cluster run with
    | some snapshot => (some snapshot, ⟨true, "Snapshotted", "fault scenario snapshot is immutable"⟩)
    | none => sourceScenario R cluster ref

/-! ## A controller without a Result API -/

instance countableFloat64 : Countable Float64 := by
  refine Function.Injective.countable (f := fun x : Float64 => (x.finite?, decide (x = .posInf), decide (x = .nan))) ?_
  intro x y h
  cases x <;> cases y <;> simp_all [Float64.finite?]

instance countableChar : Countable Char :=
  Function.Injective.countable (f := Char.toNat) (Function.LeftInverse.injective Char.ofNat_toNat)

instance countableString : Countable String :=
  Function.Injective.countable (f := String.toList) fun _ _ h => String.toList_inj.mp h

instance countableFaultRule : Countable FaultRule := by
  refine Function.Injective.countable (f := fun r : FaultRule =>
    ((r.name, r.fault, r.probability), (r.caseIDs, r.iterations, r.attempts), r.delayMS, r.statusCode, r.toolName)) ?_
  rintro ⟨⟩ ⟨⟩ h
  simp_all

instance countableSnapshot : Countable Snapshot := by
  refine Function.Injective.countable (f := fun s : Snapshot =>
    ((s.sourceName, s.sourceKey, s.digest), s.scenario.apiVersion, s.scenario.kind, s.scenario.rules)) ?_
  rintro ⟨_, _, _, ⟨⟩⟩ ⟨_, _, _, ⟨⟩⟩ h
  simp_all

/-- A text from which nothing but the scenario can be read back. -/
noncomputable def ConfigCodec.counted : ConfigCodec :=
  let code : Option Snapshot → Nat := (Countable.exists_injective_nat (Option Snapshot)).choose
  { marshal := fun config => List.replicate (code (config.reliability.bind (·.scenario)) + 1) 0
    scenario? := fun payload => (Function.partialInv code (payload.length - 1)).join
    marshal_ne_nil := fun config => List.cons_ne_nil _ _
    scenario?_marshal := fun config => by
      have hcode : Function.Injective code := (Countable.exists_injective_nat (Option Snapshot)).choose_spec
      rw [List.length_replicate, Nat.add_sub_cancel, Function.partialInv_left hcode]
      rfl }

noncomputable def Reconciler.withoutSink : Reconciler where
  libraries := .withoutURLs
  platform := Platform.withJSON integerFormat
  codec := .counted
  hash _ := "00000000"
  resultSink := ⟨"", "", "", false, false, 0⟩
  telemetry := ⟨"", false⟩
  scheduler := .indexedOnly
  requireResourceQuota := false

end AgentStorm.Controller
