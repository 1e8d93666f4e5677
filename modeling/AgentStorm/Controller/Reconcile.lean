import AgentStorm.Controller.Cluster

/-!
# `Controller.Reconcile` — one call of `Reconcile`

A call reads a run and the objects of its namespace and leaves the objects and the status that is
patched. Its checks are in the order of the source; one that fails ends the call with the phase
`Pending` (`gate`). Calls of the API server do not fail here, apart from a `ScaledJob` whose definition
is not installed. What the Result API answers is an argument (`ResultAPI`). A call that returns an
error, or panics, patches nothing.
-/

namespace AgentStorm.Controller

open Results Text

/-! ## Scheduling -/

structure WorkerResources where
  requestsCPU : Int
  requestsMemory : Int
  limitsCPU : Int
  limitsMemory : Int

def milli : Int := 1000000
def unit : Int := 1000000000
def mebi : Int := 1048576 * unit
def gibi : Int := 1024 * mebi

/-- `schedulingResources`; an unknown profile is the zero value. -/
def schedulingResources (profile : String) : WorkerResources :=
  if profile = "small" then ⟨100 * milli, 128 * mebi, 1 * unit, 512 * mebi⟩
  else if profile = "medium" then ⟨500 * milli, 512 * mebi, 2 * unit, 2 * gibi⟩
  else if profile = "large" then ⟨2 * unit, 2 * gibi, 8 * unit, 8 * gibi⟩
  else ⟨0, 0, 0, 0⟩

def scaledJobSuccessfulHistory : Int := 2
def scaledJobFailedHistory : Int := 2

def quotaHasCapacity (quota : ResourceQuota) (name : String) (perWorker workers : Int) : Bool :=
  match (quota.statusHard name).or (quota.specHard name) with
  | none => true
  | some hard => decide (perWorker * workers ≤ hard - quota.used name)

/-- The body of the loop over the quotas: the message of the check that fails. -/
def quotaRefuses (spec : AgentTestRunSpec) (workers : Int) (quota : ResourceQuota) : Option String :=
  let resources := schedulingResources spec.scheduling.resourceProfile
  let keda := spec.scheduling.strategy = "keda"
  let jobs := if keda then workers + scaledJobSuccessfulHistory + scaledJobFailedHistory else 1
  -- The four resources are ranged over as a map; they share one message.
  if !(quotaHasCapacity quota "requests.cpu" resources.requestsCPU workers &&
      quotaHasCapacity quota "requests.memory" resources.requestsMemory workers &&
      quotaHasCapacity quota "limits.cpu" resources.limitsCPU workers &&
      quotaHasCapacity quota "limits.memory" resources.limitsMemory workers) then
    some ("ResourceQuota " ++ quota.name ++ " cannot admit the requested " ++ spec.scheduling.resourceProfile ++
      " Worker profile")
  else if !quotaHasCapacity quota "pods" unit workers then
    some ("ResourceQuota " ++ quota.name ++ " cannot admit " ++ toString workers ++ " Worker Pods")
  else if keda ∧ !quotaHasCapacity quota "count/scaledjobs.keda.sh" unit 1 then
    some ("ResourceQuota " ++ quota.name ++ " cannot admit a ScaledJob")
  else if !quotaHasCapacity quota "count/jobs.batch" unit jobs then
    some ("ResourceQuota " ++ quota.name ++ " cannot admit " ++ toString jobs ++ " Worker Jobs")
  else none

variable (R : Reconciler) (cluster : Cluster) (run : TestRun) (spec : AgentTestRunSpec)

/-- The execution child exists and is controlled by the run. -/
def admitted : Bool :=
  if spec.scheduling.strategy = "keda" then
    cluster.hasKEDA && (cluster.scaledJobs (R.childName run.metadata "worker")).any fun child =>
      decide (child.controller = some run.metadata.uid)
  else
    (cluster.jobs (R.childName run.metadata "worker")).any fun child =>
      decide (child.controller = some run.metadata.uid)

def quotasReady : Readiness :=
  if cluster.quotas.isEmpty then
    if R.requireResourceQuota then
      ⟨false, "ResourceQuotaMissing", "the namespace must define a ResourceQuota before Workers can start"⟩
    else ⟨true, "BoundedProfile", "Worker resources are bounded by the selected profile"⟩
  else
    let workers := if spec.scheduling.strategy = "keda" then spec.scheduling.maxWorkers else spec.workload.parallelism
    match cluster.quotas.findSome? (quotaRefuses spec workers) with
    | some message => ⟨false, "QuotaExceeded", message⟩
    | none => ⟨true, "QuotaAvailable", "namespace ResourceQuota can admit the bounded Worker profile"⟩

def schedulingReady : Readiness :=
  if spec.scheduling.strategy = "keda" ∧ !R.scheduler.enableKEDA then
    ⟨false, "KEDADisabled", "queued scheduling is disabled by the controller"⟩
  else if spec.scheduling.strategy = "keda" ∧ !R.resultSink.enabled then
    ⟨false, "ResultSinkRequired", "queued scheduling requires the durable Result API"⟩
  else if admitted R cluster run spec then
    ⟨true, "Admitted", "immutable scheduling admission was already completed"⟩
  else quotasReady R cluster spec

/-! ## The writes -/

/-- A map with the value at one name replaced. -/
def putAt {α : Type} (objects : String → Option α) (name : String) (object : Option α) : String → Option α :=
  fun other => if other = name then object else objects other

@[simp] theorem putAt_self {α : Type} (objects : String → Option α) (name : String) (object : Option α) :
    putAt objects name object name = object := if_pos rfl

theorem putAt_ne {α : Type} {objects : String → Option α} {name other : String} {object : Option α} (h : other ≠ name) :
    putAt objects name object other = objects other := if_neg h

/-- `none` is the assignment to a nil map, which panics. -/
def ensureWorkerConfig (scenario : Option Snapshot) : Option Cluster :=
  let payload := R.codec.marshal (workerRunConfig run.metadata spec scenario)
  let name := R.childName run.metadata "config"
  match cluster.configMaps name with
  | none =>
    let created : ConfigMap := ⟨some run.metadata.uid, [(workerConfigKey, payload)], []⟩
    some { cluster with configMaps := putAt cluster.configMaps name (some created) }
  | some cm =>
    -- `Data[key]` of a missing key is the empty text, which is no payload.
    if cm.data.lookup workerConfigKey = some payload then some cluster
    else if cm.data.isEmpty then none
    else
      let updated := { cm with data := Dict.set workerConfigKey payload cm.data }
      some { cluster with configMaps := putAt cluster.configMaps name (some updated) }

/-- The Job there is under the run's name, whoever it belongs to, or a new one. -/
def ensureJob : Job × Cluster :=
  let name := R.childName run.metadata "worker"
  match cluster.jobs name with
  | some job => (job, cluster)
  | none =>
    let job : Job := ⟨some run.metadata.uid, run.metadata.name, [], 0, 0, 0⟩
    (job, { cluster with jobs := putAt cluster.jobs name (some job) })

/-- `none` where the definition of `ScaledJob` is not installed. -/
def ensureScaledJob : Option Cluster :=
  let name := R.childName run.metadata "worker"
  if !cluster.hasKEDA then none
  else match cluster.scaledJobs name with
  | some _ => some cluster
  | none => some { cluster with scaledJobs := putAt cluster.scaledJobs name (some ⟨some run.metadata.uid⟩) }

def cancelJob : Cluster :=
  { cluster with jobs := putAt cluster.jobs (R.childName run.metadata "worker") none }

/-- The ScaledJob under the run's name and every Job that carries the run's label. -/
def deleteScaledJob : Cluster :=
  { cluster with
    scaledJobs := putAt cluster.scaledJobs (R.childName run.metadata "worker") none
    jobs := fun name => (cluster.jobs name).filter fun job => decide (job.runLabel ≠ run.metadata.name) }

/-! ### What the writes leave alone -/

variable {R cluster run spec}

variable {scenario : Option Snapshot} {after : Cluster}

/-- The configuration is written under one name; nothing else changes. -/
theorem ensureWorkerConfig_eq (h : ensureWorkerConfig R cluster run spec scenario = some after) :
    after = { cluster with configMaps := after.configMaps } ∧
      ∀ name, name ≠ R.childName run.metadata "config" → after.configMaps name = cluster.configMaps name := by
  unfold ensureWorkerConfig at h
  dsimp only at h
  split at h
  · cases h
    exact ⟨rfl, fun name hne => putAt_ne hne⟩
  · split at h
    · cases h
      exact ⟨rfl, fun name _ => rfl⟩
    · split at h
      · cases h
      · cases h
        exact ⟨rfl, fun name hne => putAt_ne hne⟩

theorem configMaps_ensureJob : (ensureJob R cluster run).2.configMaps = cluster.configMaps := by
  unfold ensureJob
  dsimp only
  split <;> rfl

theorem configMaps_ensureScaledJob (h : ensureScaledJob R cluster run = some after) :
    after.configMaps = cluster.configMaps := by
  unfold ensureScaledJob at h
  dsimp only at h
  split at h
  · cases h
  · split at h <;> cases h <;> rfl

/-- Execution children that exist stay as they are. -/
structure KeepsChildren (before after : Cluster) : Prop where
  jobs : ∀ name job, before.jobs name = some job → after.jobs name = some job
  scaledJobs : ∀ name child, before.scaledJobs name = some child → after.scaledJobs name = some child
  hasKEDA : after.hasKEDA = before.hasKEDA

theorem KeepsChildren.refl (cluster : Cluster) : KeepsChildren cluster cluster :=
  ⟨fun _ _ h => h, fun _ _ h => h, rfl⟩

theorem KeepsChildren.trans {a b c : Cluster} (h : KeepsChildren a b) (h' : KeepsChildren b c) : KeepsChildren a c where
  jobs name job hjob := h'.jobs name job (h.jobs name job hjob)
  scaledJobs name child hchild := h'.scaledJobs name child (h.scaledJobs name child hchild)
  hasKEDA := h'.hasKEDA.trans h.hasKEDA

theorem keepsChildren_ensureWorkerConfig
    (h : ensureWorkerConfig R cluster run spec scenario = some after) : KeepsChildren cluster after := by
  rw [(ensureWorkerConfig_eq h).1]
  exact ⟨fun _ _ h => h, fun _ _ h => h, rfl⟩

theorem keepsChildren_ensureJob : KeepsChildren cluster (ensureJob R cluster run).2 := by
  unfold ensureJob
  dsimp only
  split
  · exact .refl cluster
  · rename_i hnone
    refine ⟨fun name job hjob => ?_, fun _ _ h => h, rfl⟩
    have hne : name ≠ R.childName run.metadata "worker" := by
      rintro rfl
      rw [hnone] at hjob
      cases hjob
    exact (putAt_ne hne).trans hjob

theorem keepsChildren_ensureScaledJob (h : ensureScaledJob R cluster run = some after) :
    KeepsChildren cluster after := by
  unfold ensureScaledJob at h
  dsimp only at h
  split at h
  · cases h
  · split at h
    · cases h
      exact .refl cluster
    · rename_i hnone
      cases h
      refine ⟨fun _ _ h => h, fun name child hchild => ?_, rfl⟩
      have hne : name ≠ R.childName run.metadata "worker" := by
        rintro rfl
        rw [hnone] at hchild
        cases hchild
      exact (putAt_ne hne).trans hchild

variable (R cluster run spec)

/-! ## The status -/

/-- The loop over the conditions of a Job: the last true one that says how the Job ended counts. -/
def jobOutcome (conditions : List JobCondition) : RunPhase × String × String :=
  conditions.foldl
    (fun outcome condition =>
      if !condition.status then outcome
      else match condition.type with
      | .complete => (.succeeded, "WorkersCompleted", "all worker pods completed")
      | .failed => (.failed, "WorkerJobFailed", condition.message)
      | .other => outcome)
    (.running, "WorkersRunning", "worker Job is running")

def applyJobStatus (job : Job) (status : AgentTestRunStatus) : AgentTestRunStatus :=
  let (phase, reason, message) := jobOutcome job.conditions
  { status.mark .ready ⟨decide (phase = .succeeded), reason, message⟩ with
    phase
    active := job.active
    succeeded := job.succeeded
    failed := job.failed }

/-- The conversion `int32(n)`. -/
def toInt32 (n : Nat) : Int := Int.bmod n (2 ^ 32)

def applyQueueStatus (queue : QueueStatus) (status : AgentTestRunStatus) : AgentTestRunStatus :=
  let counted := { status with active := toInt32 queue.leased, succeeded := toInt32 queue.completed, failed := 0 }
  match queue.runStatus with
  | .cancelled => setTerminalStatus .cancelled "Cancelled" "queued run was cancelled" counted
  | .harnessFailed => setTerminalStatus .failed "HarnessFailed" "queued Worker reported a harness failure" counted
  | .complete =>
    if queue.thresholdsPassed = some true then
      (setTerminalStatus .succeeded "Completed" "all queued shards completed" counted).mark .ready
        ⟨true, "Completed", "all queued shards completed"⟩
    else setTerminalStatus .failed "ThresholdsFailed" "queued run did not pass evaluation thresholds" counted
  | _ => { counted with phase := .running }

/-! ## The call -/

/-- What the Result API answers during a call. -/
structure ResultAPI where
  register : Registration → Bool
  queueStatus : Option QueueStatus
  terminal : Bool

/-- The end of a call that has to wait. -/
def waiting (type : ConditionType) (reason message : String) (status : AgentTestRunStatus) : AgentTestRunStatus :=
  { status.mark type ⟨false, reason, message⟩ with phase := .pending }

/-- One check: it ends the call, or sets its condition where the source does (`recorded`). -/
def gate (type : ConditionType) (check : Readiness) (recorded : Bool) (status : AgentTestRunStatus) :
    Except AgentTestRunStatus AgentTestRunStatus :=
  if !check.ready then .error (waiting type check.reason check.message status)
  else if recorded then .ok (status.mark type ⟨true, check.reason, check.message⟩)
  else .ok status

/-- The checks before anything is written. -/
def readiness : Except AgentTestRunStatus AgentTestRunStatus := do
  let status ← gate .dataset (datasetReadiness cluster spec) true run.status
  let status ← gate .credentials (credentialsReady cluster run) run.apiKeySecretRef.isSome status
  let status ← gate .resultSink (resultSinkReady R cluster) R.resultSink.enabled status
  let status ← gate .telemetry (telemetryReady R spec) (decide (spec.telemetry.contentMode = "redacted")) status
  let status ← gate .scenario (scenarioSnapshot R cluster run spec).2 (spec.reliability.bind (·.scenarioRef)).isSome status
  gate .scheduling (schedulingReady R cluster run spec) true status

/-- From the execution child on. -/
def execute (api : ResultAPI) (status : AgentTestRunStatus) : Cluster × AgentTestRunStatus :=
  let name := R.childName run.metadata "worker"
  if spec.scheduling.strategy = "keda" then
    match ensureScaledJob R cluster run with
    | none =>
      (cluster, waiting .scheduling "ScaledJobUnavailable" "KEDA ScaledJob could not be created" status)
    | some cluster =>
      match api.queueStatus with
      | none =>
        (cluster, waiting .scheduling "QueueStatusUnavailable" "durable shard queue status is unavailable" status)
      | some queue => (cluster, { applyQueueStatus queue status with scaledJobName := name, jobName := "" })
  else
    let (job, cluster) := ensureJob R cluster run
    (cluster, { applyJobStatus job status with jobName := name })

/-- From the registration on. -/
def registerAndExecute (api : ResultAPI) (scenario : Option Snapshot) (status : AgentTestRunStatus) :
    Cluster × AgentTestRunStatus :=
  if !R.resultSink.enabled then execute R cluster run spec api status
  else if (resultWriteToken R cluster).isNone then (cluster, run.status)
  else if !api.register (buildResultRegistration run.metadata spec scenario) then
    (cluster, waiting .resultSink "RegistrationFailed" "run registration with the durable result sink failed" status)
  else
    execute R cluster run spec api
      (status.mark .resultSink ⟨true, "Registered", "run is registered with the durable result sink"⟩)

/-- The branch of a run that is to be cancelled. -/
def reconcileCancel (api : ResultAPI) : Cluster × AgentTestRunStatus :=
  let name := R.childName run.metadata "worker"
  let persisted :=
    if !R.resultSink.enabled then run.status
    else if (resultWriteToken R cluster).isSome && api.terminal then
      run.status.mark .resultSink
        ⟨true, "CancelledPersisted", "run cancellation was persisted to the durable result sink"⟩
    else
      run.status.mark .resultSink
        ⟨false, "TerminalWriteFailed", "run cancellation could not be persisted to the durable result sink"⟩
  let finish (status : AgentTestRunStatus) : AgentTestRunStatus :=
    { setTerminalStatus .cancelled "Cancelled" "run cancellation requested" status with active := 0 }
  if spec.scheduling.strategy = "keda" then
    (deleteScaledJob R cluster run, finish { persisted with scaledJobName := name })
  else (cancelJob R cluster run, finish { persisted with jobName := name })

def reconcile (api : ResultAPI) : Cluster × AgentTestRunStatus :=
  if terminalPhase run.status.phase then (cluster, run.status)
  else
    match validateAndDefaultWithScheduler R.libraries R.scheduler run.spec with
    | .error message => (cluster, setTerminalStatus .failed "InvalidSpec" message run.status)
    | .ok spec =>
      if run.cancel then reconcileCancel R cluster run spec api
      else
        match readiness R cluster run spec with
        | .error status => (cluster, status)
        | .ok status =>
          let scenario := (scenarioSnapshot R cluster run spec).1
          match ensureWorkerConfig R cluster run spec scenario with
          | none => (cluster, run.status)
          | some cluster => registerAndExecute R cluster run spec api scenario status

/-! ## What a call can do to the objects -/

variable {R cluster run spec}

theorem execute_cluster_cases {api : ResultAPI} {status : AgentTestRunStatus} :
    (execute R cluster run spec api status).1 = cluster ∨
      (execute R cluster run spec api status).1 = (ensureJob R cluster run).2 ∨
      ensureScaledJob R cluster run = some (execute R cluster run spec api status).1 := by
  unfold execute
  dsimp only
  split
  · cases ensureScaledJob R cluster run with
    | none => exact .inl rfl
    | some =>
      cases api.queueStatus with
      | none => exact .inr (Or.inr rfl)
      | some => exact .inr (Or.inr rfl)
  · exact .inr (Or.inl rfl)

theorem registerAndExecute_cluster {api : ResultAPI} {status : AgentTestRunStatus} :
    (registerAndExecute R cluster run spec api scenario status).1 = cluster ∨
      ∃ status', (registerAndExecute R cluster run spec api scenario status).1 =
        (execute R cluster run spec api status').1 := by
  unfold registerAndExecute
  split
  · exact .inr ⟨_, rfl⟩
  · split
    · exact .inl rfl
    · split
      · exact .inl rfl
      · exact .inr ⟨_, rfl⟩

/-- A call changes nothing, deletes the children of a run that is cancelled, or writes the configuration and then, if it
    gets so far, the child. -/
theorem reconcile_cluster_cases (R : Reconciler) (cluster : Cluster) (run : TestRun) (api : ResultAPI) :
    (reconcile R cluster run api).1 = cluster ∨
    (run.cancel = true ∧ ((reconcile R cluster run api).1 = cancelJob R cluster run ∨
      (reconcile R cluster run api).1 = deleteScaledJob R cluster run)) ∨
    ∃ spec configured, validateAndDefaultWithScheduler R.libraries R.scheduler run.spec = .ok spec ∧
      (∃ status, readiness R cluster run spec = .ok status) ∧
      ensureWorkerConfig R cluster run spec (scenarioSnapshot R cluster run spec).1 = some configured ∧
      ((reconcile R cluster run api).1 = configured ∨
        (reconcile R cluster run api).1 = (ensureJob R configured run).2 ∨
        ensureScaledJob R configured run = some (reconcile R cluster run api).1) := by
  unfold reconcile
  split
  · exact .inl rfl
  · cases hvalid : validateAndDefaultWithScheduler R.libraries R.scheduler run.spec with
    | error => exact .inl rfl
    | ok spec =>
      dsimp only
      split
      · rename_i hcancel
        refine .inr (Or.inl ⟨hcancel, ?_⟩)
        unfold reconcileCancel
        dsimp only
        split
        · exact .inr rfl
        · exact .inl rfl
      · cases hready : readiness R cluster run spec with
        | error => exact .inl rfl
        | ok status =>
          dsimp only
          cases hwrite : ensureWorkerConfig R cluster run spec (scenarioSnapshot R cluster run spec).1 with
          | none => exact .inl rfl
          | some configured =>
            refine .inr (Or.inr ⟨spec, configured, rfl, ⟨status, hready⟩, hwrite, ?_⟩)
            dsimp only
            rcases @registerAndExecute_cluster R configured run spec (scenarioSnapshot R cluster run spec).1 api status
              with hsame | ⟨status', hexecute⟩
            · exact .inl hsame
            · rw [hexecute]
              exact execute_cluster_cases

end AgentStorm.Controller
