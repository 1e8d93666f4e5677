import AgentStorm.Controller.Reconcile

/-!
# `Controller.Progress` — the phase of a run over many calls

A run whose execution child exists is called again and again while its surroundings change. `Reconcile`
goes through all of its checks before it looks at the child, so the phase follows the child exactly in
the calls that pass them (`progress_iff`).
-/

namespace AgentStorm.Controller

open Checks Reliability Results

variable {R : Reconciler} {cluster : Cluster} {run : TestRun} {spec : AgentTestRunSpec} {api : ResultAPI}

/-! ## The checks -/

variable {type : ConditionType} {check : Readiness} {status : AgentTestRunStatus}

/-- The status after a check that passes. -/
def passed (type : ConditionType) (check : Readiness) (recorded : Bool) (status : AgentTestRunStatus) :
    AgentTestRunStatus :=
  if recorded then status.mark type ⟨true, check.reason, check.message⟩ else status

theorem gate_of_ready {recorded : Bool} (h : check.ready = true) :
    gate type check recorded status = .ok (passed type check recorded status) := by
  cases recorded <;> simp [gate, passed, h]

theorem gate_of_not_ready {recorded : Bool} (h : check.ready = false) :
    gate type check recorded status = .error (waiting type check.reason check.message status) := by
  simp [gate, h]

theorem exists_gate_ok {recorded : Bool} :
    (∃ status', gate type check recorded status = .ok status') ↔ check.ready = true := by
  cases h : check.ready with
  | true => simp [gate_of_ready h]
  | false => simp [gate_of_not_ready h]

theorem exists_gate_bind_ok {recorded : Bool}
    {rest : AgentTestRunStatus → Except AgentTestRunStatus AgentTestRunStatus} :
    (∃ status', (gate type check recorded status >>= rest) = .ok status') ↔
      check.ready = true ∧ ∃ status', rest (passed type check recorded status) = .ok status' := by
  cases h : check.ready with
  | true => simp [gate_of_ready h]
  | false => simp [gate_of_not_ready h]

theorem failsOnly_gate {recorded : Bool} :
    FailsOnly (fun status' => status'.phase = .pending) (gate type check recorded status) := by
  intro status' h
  cases hready : check.ready with
  | true =>
    rw [gate_of_ready hready] at h
    cases h
  | false =>
    rw [gate_of_not_ready hready] at h
    cases h
    rfl

/-- A call that the checks end waits. -/
theorem failsOnly_readiness : FailsOnly (fun status => status.phase = .pending) (readiness R cluster run spec) := by
  unfold readiness
  refine failsOnly_gate.bind fun _ _ => failsOnly_gate.bind fun _ _ => failsOnly_gate.bind fun _ _ => ?_
  exact failsOnly_gate.bind fun _ _ => failsOnly_gate.bind fun _ _ => failsOnly_gate

/-- What a call needs from the surroundings of a run whose child exists. -/
structure ChecksPass (R : Reconciler) (cluster : Cluster) (run : TestRun) (spec : AgentTestRunSpec) : Prop where
  dataset : datasetReady cluster spec = true
  credentials : (credentialsReady cluster run).ready = true
  resultSink : (resultSinkReady R cluster).ready = true
  telemetry : (telemetryReady R spec).ready = true
  scenario : (scenarioSnapshot R cluster run spec).2.ready = true
  keda : spec.scheduling.strategy = "keda" → R.scheduler.enableKEDA = true ∧ R.resultSink.enabled = true

theorem datasetReadiness_ready : (datasetReadiness cluster spec).ready = datasetReady cluster spec := by
  cases h : datasetReady cluster spec <;> simp [datasetReadiness, h]

/-- A child that exists is not held against the quotas. -/
theorem schedulingReady_of_admitted (hadm : admitted R cluster run spec = true) :
    (schedulingReady R cluster run spec).ready = true ↔
      (spec.scheduling.strategy = "keda" → R.scheduler.enableKEDA = true ∧ R.resultSink.enabled = true) := by
  by_cases hkeda : spec.scheduling.strategy = "keda"
  · cases hk : R.scheduler.enableKEDA <;> cases hs : R.resultSink.enabled <;> simp [schedulingReady, hadm, hkeda, hk, hs]
  · simp [schedulingReady, hadm, hkeda]

theorem scenario_ready_of_readiness_ok (h : ∃ status, readiness R cluster run spec = .ok status) :
    (scenarioSnapshot R cluster run spec).2.ready = true := by
  simp only [readiness, exists_gate_bind_ok, exists_gate_ok] at h
  exact h.2.2.2.2.1

theorem exists_readiness_ok_iff (hadm : admitted R cluster run spec = true) :
    (∃ status, readiness R cluster run spec = .ok status) ↔ ChecksPass R cluster run spec := by
  simp only [readiness, exists_gate_bind_ok, exists_gate_ok, datasetReadiness_ready, schedulingReady_of_admitted hadm]
  constructor
  · rintro ⟨hdata, hcred, hsink, htel, hscen, hkeda⟩
    exact ⟨hdata, hcred, hsink, htel, hscen, hkeda⟩
  · rintro ⟨hdata, hcred, hsink, htel, hscen, hkeda⟩
    exact ⟨hdata, hcred, hsink, htel, hscen, hkeda⟩

/-! ## The child -/

/-- The Job carries a condition of this type that is true. -/
def Job.Carries (job : Job) (type : JobConditionType) : Prop := ∃ c ∈ job.conditions, c.type = type ∧ c.status = true

/-- How a Job ended; it never carries both conditions. -/
inductive Job.Ended (job : Job) : RunPhase → Prop
  | complete (h : job.Carries .complete) (hno : ¬job.Carries .failed) : Job.Ended job .succeeded
  | failed (h : job.Carries .failed) (hno : ¬job.Carries .complete) : Job.Ended job .failed

/-- What a condition says about the end of the Job. -/
def JobCondition.verdict (c : JobCondition) : Option RunPhase :=
  match c.status, c.type with
  | true, .complete => some .succeeded
  | true, .failed => some .failed
  | _, _ => none

/-- One condition more: the phase stays, or is what the condition says. -/
theorem jobOutcome_concat (conditions : List JobCondition) (c : JobCondition) :
    (jobOutcome (conditions ++ [c])).1 = c.verdict.getD (jobOutcome conditions).1 := by
  rw [jobOutcome, List.foldl_append]
  cases hs : c.status <;> cases ht : c.type <;> simp [hs, ht, jobOutcome, JobCondition.verdict]

/-- The phase is what the conditions say, where they do not contradict each other. -/
theorem jobOutcome_of_verdict {conditions : List JobCondition} {phase : RunPhase} (h : ∃ c ∈ conditions, c.verdict = some phase)
    (hall : ∀ c ∈ conditions, ∀ phase' ∈ c.verdict, phase' = phase) : (jobOutcome conditions).1 = phase := by
  induction conditions using List.reverseRecOn with
  | nil => simp at h
  | append_singleton conditions c ih =>
    rw [jobOutcome_concat]
    cases hlast : c.verdict with
    | some phase' => exact hall c (by simp) phase' hlast
    | none =>
      obtain ⟨c', hmem, hverdict⟩ := h
      rcases List.mem_append.mp hmem with hold | hnew
      · exact ih ⟨c', hold, hverdict⟩ fun c'' hmem'' => hall c'' (List.mem_append_left _ hmem'')
      · cases List.mem_singleton.mp hnew
        rw [hlast] at hverdict
        cases hverdict

theorem jobOutcome_ne_pending (conditions : List JobCondition) : (jobOutcome conditions).1 ≠ .pending := by
  induction conditions using List.reverseRecOn with
  | nil => decide
  | append_singleton conditions c ih =>
    rw [jobOutcome_concat]
    cases hs : c.status <;> cases ht : c.type <;> simp [JobCondition.verdict, hs, ht, ih]

theorem JobCondition.verdict_eq_some {c : JobCondition} {phase : RunPhase} (h : c.verdict = some phase) :
    c.status = true ∧ (c.type = .complete ∧ phase = .succeeded ∨ c.type = .failed ∧ phase = .failed) := by
  cases hs : c.status <;> cases ht : c.type <;> simp_all [JobCondition.verdict]

theorem Job.Ended.outcome {job : Job} {phase : RunPhase} (h : job.Ended phase) : (jobOutcome job.conditions).1 = phase := by
  cases h with
  | complete h hno =>
    obtain ⟨c, hmem, htype, hstatus⟩ := h
    refine jobOutcome_of_verdict ⟨c, hmem, by simp [JobCondition.verdict, htype, hstatus]⟩ fun c' hmem' phase' hverdict => ?_
    obtain ⟨hstatus', ⟨_, hphase⟩ | ⟨htype', _⟩⟩ := JobCondition.verdict_eq_some hverdict
    · exact hphase
    · exact absurd ⟨c', hmem', htype', hstatus'⟩ hno
  | failed h hno =>
    obtain ⟨c, hmem, htype, hstatus⟩ := h
    refine jobOutcome_of_verdict ⟨c, hmem, by simp [JobCondition.verdict, htype, hstatus]⟩ fun c' hmem' phase' hverdict => ?_
    obtain ⟨hstatus', ⟨htype', _⟩ | ⟨_, hphase⟩⟩ := JobCondition.verdict_eq_some hverdict
    · exact absurd ⟨c', hmem', htype', hstatus'⟩ hno
    · exact hphase

theorem Job.Ended.terminal {job : Job} {phase : RunPhase} (h : job.Ended phase) : terminalPhase phase = true := by
  cases h <;> rfl

@[simp] theorem applyJobStatus_phase (job : Job) (status : AgentTestRunStatus) :
    (applyJobStatus job status).phase = (jobOutcome job.conditions).1 := rfl

theorem applyQueueStatus_phase_ne (queue : QueueStatus) (status : AgentTestRunStatus) :
    (applyQueueStatus queue status).phase ≠ .pending := by
  unfold applyQueueStatus
  cases queue.runStatus with
  | complete => dsimp only; split <;> simp [setTerminalStatus]
  | _ => simp [setTerminalStatus]

/-! ## One call -/

theorem reconcile_of_terminal (h : terminalPhase run.status.phase = true) :
    reconcile R cluster run api = (cluster, run.status) := by
  simp [reconcile, h]

/-- Where the sink is ready there is a token; writing the configuration does not touch the Secrets. -/
theorem resultWriteToken_isSome (henabled : R.resultSink.enabled = true) (hready : (resultSinkReady R cluster).ready = true) :
    (resultWriteToken R cluster).isSome = true := by
  unfold resultSinkReady at hready
  rw [if_pos henabled] at hready
  unfold resultWriteToken
  cases hsecret : cluster.secrets R.resultSink.writeTokenSecretName with
  | none => simp [hsecret] at hready
  | some secret =>
    cases htoken : secret.token R.resultSink.writeTokenSecretKey with
    | none => simp [hsecret, htoken] at hready
    | some => simp [htoken]

theorem execute_of_admitted_keda (hadm : admitted R cluster run spec = true)
    (hkeda : spec.scheduling.strategy = "keda") :
    (execute R cluster run spec api status).2.phase ≠ .pending ↔ api.queueStatus.isSome = true := by
  have hchild : ensureScaledJob R cluster run = some cluster := by
    simp only [admitted, if_pos hkeda, Bool.and_eq_true, Option.any_eq_true] at hadm
    obtain ⟨hinstalled, _, hchild, -⟩ := hadm
    simp [ensureScaledJob, hinstalled, hchild]
  simp only [execute, if_pos hkeda, hchild]
  cases hqueue : api.queueStatus with
  | none => simp [waiting]
  | some queue => simpa using applyQueueStatus_phase_ne queue status

theorem execute_of_job {job : Job} (hkeda : spec.scheduling.strategy ≠ "keda")
    (hjob : cluster.jobs (R.childName run.metadata "worker") = some job) :
    (execute R cluster run spec api status).2.phase = (jobOutcome job.conditions).1 := by
  simp [execute, if_neg hkeda, ensureJob, hjob]

/-- What the property asks of a call that finds a run which has not ended. -/
structure Progresses (R : Reconciler) (cluster : Cluster) (run : ObjectMeta) (spec : AgentTestRunSpec)
    (after : AgentTestRunStatus) : Prop where
  notPending : after.phase ≠ .pending
  followsJob : spec.scheduling.strategy ≠ "keda" → ∀ job phase,
    cluster.jobs (R.childName run "worker") = some job → job.Ended phase → after.phase = phase

/-- The Result API takes the registration and, for a queued run, tells the state of the queue. -/
def Served (R : Reconciler) (cluster : Cluster) (run : TestRun) (spec : AgentTestRunSpec) (api : ResultAPI) : Prop :=
  (R.resultSink.enabled = true →
    api.register (buildResultRegistration run.metadata spec (scenarioSnapshot R cluster run spec).1) = true) ∧
  (spec.scheduling.strategy = "keda" → api.queueStatus.isSome = true)

/-- Where the configuration cannot be written the status stays: there must be nothing to report. -/
def NothingNew (R : Reconciler) (cluster : Cluster) (run : TestRun) (spec : AgentTestRunSpec) : Prop :=
  run.status.phase ≠ .pending ∧ (spec.scheduling.strategy ≠ "keda" → ∀ job phase,
    cluster.jobs (R.childName run.metadata "worker") = some job → ¬job.Ended phase)

/-- The checks pass, the configuration can be written and the Result API serves the call. -/
def Unhindered (R : Reconciler) (cluster : Cluster) (run : TestRun) (spec : AgentTestRunSpec) (api : ResultAPI) : Prop :=
  ChecksPass R cluster run spec ∧
    match ensureWorkerConfig R cluster run spec (scenarioSnapshot R cluster run spec).1 with
    | none => NothingNew R cluster run spec
    | some _ => Served R cluster run spec api

/-- After the configuration is written, the phase follows the child if the Result API serves the call. -/
theorem registerAndExecute_progresses {after : Cluster} {scenario : Option Snapshot}
    (hadm : admitted R cluster run spec = true) (hsink : (resultSinkReady R cluster).ready = true)
    (hwrite : ensureWorkerConfig R cluster run spec scenario = some after) :
    Progresses R cluster run.metadata spec (registerAndExecute R after run spec api scenario status).2 ↔
      (R.resultSink.enabled = true → api.register (buildResultRegistration run.metadata spec scenario) = true) ∧
      (spec.scheduling.strategy = "keda" → api.queueStatus.isSome = true) := by
  obtain ⟨hafter, -⟩ := ensureWorkerConfig_eq hwrite
  have hadm' : admitted R after run spec = true := by rw [hafter]; exact hadm
  have hexecute : ∀ status', Progresses R cluster run.metadata spec (execute R after run spec api status').2 ↔
      (spec.scheduling.strategy = "keda" → api.queueStatus.isSome = true) := by
    intro status'
    by_cases hkeda : spec.scheduling.strategy = "keda"
    · have hiff : (execute R after run spec api status').2.phase ≠ .pending ↔ api.queueStatus.isSome = true :=
        execute_of_admitted_keda hadm' hkeda
      exact ⟨fun h _ => hiff.mp h.notPending, fun h => ⟨hiff.mpr (h hkeda), fun hne => absurd hkeda hne⟩⟩
    · refine ⟨fun _ h => absurd h hkeda, fun _ => ?_⟩
      have hfound := hadm'
      simp only [admitted, if_neg hkeda, Option.any_eq_true] at hfound
      obtain ⟨job, hjob, -⟩ := hfound
      have hphase : (execute R after run spec api status').2.phase = (jobOutcome job.conditions).1 :=
        execute_of_job hkeda hjob
      refine ⟨by rw [hphase]; exact jobOutcome_ne_pending _, fun _ job' phase hjob' hended => ?_⟩
      have hsame : after.jobs (R.childName run.metadata "worker") = some job' := by rw [hafter]; exact hjob'
      cases hjob.symm.trans hsame
      rw [hphase, hended.outcome]
  unfold registerAndExecute
  cases henabled : R.resultSink.enabled with
  | false => simpa using hexecute status
  | true =>
    have htoken : (resultWriteToken R after).isSome = true := by
      have := resultWriteToken_isSome henabled hsink
      rw [hafter]
      exact this
    have hnone : (resultWriteToken R after).isNone = false := by simpa using htoken
    cases hregister : api.register (buildResultRegistration run.metadata spec scenario) with
    | false =>
      simp only [hnone, Bool.not_true, Bool.not_false, Bool.false_eq_true, if_false, if_true, forall_const, false_and,
        iff_false]
      exact fun h => h.notPending rfl
    | true => simpa [hnone] using hexecute _

/-- **One call.** A run that has not ended and whose child exists moves on exactly if nothing hinders the call. -/
theorem reconcile_progresses_iff (hactive : terminalPhase run.status.phase = false)
    (hvalid : validateAndDefaultWithScheduler R.libraries R.scheduler run.spec = .ok spec) (hcancel : run.cancel = false)
    (hadm : admitted R cluster run spec = true) :
    Progresses R cluster run.metadata spec (reconcile R cluster run api).2 ↔ Unhindered R cluster run spec api := by
  have hchecks := exists_readiness_ok_iff hadm
  cases hready : readiness R cluster run spec with
  | error status =>
    -- A check that fails ends the call before the child is looked at.
    have hcall : (reconcile R cluster run api).2 = status := by simp [reconcile, hactive, hvalid, hcancel, hready]
    have hfail : ¬ChecksPass R cluster run spec := by
      rw [← hchecks, hready]
      simp
    rw [hcall]
    exact ⟨fun h => absurd (failsOnly_readiness status hready) h.notPending, fun h => absurd h.1 hfail⟩
  | ok status =>
    have hpass : ChecksPass R cluster run spec := hchecks.mp ⟨status, hready⟩
    unfold Unhindered
    cases hwrite : ensureWorkerConfig R cluster run spec (scenarioSnapshot R cluster run spec).1 with
    | none =>
      have hcall : (reconcile R cluster run api).2 = run.status := by
        simp [reconcile, hactive, hvalid, hcancel, hready, hwrite]
      rw [hcall]
      constructor
      · refine fun h => ⟨hpass, h.notPending, fun hkeda job phase hjob hended => ?_⟩
        have hend := hended.terminal
        rw [← h.followsJob hkeda job phase hjob hended, hactive] at hend
        cases hend
      · rintro ⟨-, hphase, hnone⟩
        exact ⟨hphase, fun hkeda job phase hjob hended => absurd hended (hnone hkeda job phase hjob)⟩
    | some after =>
      have hcall : (reconcile R cluster run api).2 =
          (registerAndExecute R after run spec api (scenarioSnapshot R cluster run spec).1 status).2 := by
        simp [reconcile, hactive, hvalid, hcancel, hready, hwrite]
      rw [hcall, registerAndExecute_progresses hadm hpass.resultSink hwrite]
      exact ⟨fun h => ⟨hpass, h⟩, fun h => h.2⟩

/-- A call for a run that is not cancelled deletes no child. -/
theorem keepsChildren_reconcile (hcancel : run.cancel = false) : KeepsChildren cluster (reconcile R cluster run api).1 := by
  rcases reconcile_cluster_cases R cluster run api with hsame | ⟨hyes, -⟩ | ⟨_, configured, -, -, hwrite, hchild⟩
  · rw [hsame]
    exact .refl cluster
  · rw [hcancel] at hyes
    cases hyes
  · refine (keepsChildren_ensureWorkerConfig hwrite).trans ?_
    rcases hchild with hsame | hjob | hscaled
    · rw [hsame]
      exact .refl configured
    · rw [hjob]
      exact keepsChildren_ensureJob
    · exact keepsChildren_ensureScaledJob hscaled

theorem KeepsChildren.admitted {before after : Cluster} (h : KeepsChildren before after)
    (hadm : admitted R before run spec = true) : Controller.admitted R after run spec = true := by
  unfold Controller.admitted at hadm ⊢
  split
  · rename_i hkeda
    rw [if_pos hkeda, Bool.and_eq_true, Option.any_eq_true] at hadm
    obtain ⟨hinstalled, _, hchild, howner⟩ := hadm
    simpa [h.hasKEDA, hinstalled, h.scaledJobs _ _ hchild] using howner
  · rename_i hkeda
    rw [if_neg hkeda, Option.any_eq_true] at hadm
    obtain ⟨_, hjob, howner⟩ := hadm
    simpa [h.jobs _ _ hjob] using howner

/-! ## Many calls -/

variable {s : Cluster × AgentTestRunStatus}

/-- What happens around a run, then a call. -/
structure Tick where
  env : Cluster → Cluster
  api : ResultAPI

/-- Anything may change, but the child stays and stays the run's own. -/
def Tick.KeepsChild (t : Tick) (R : Reconciler) (run : TestRun) (spec : AgentTestRunSpec) : Prop :=
  ∀ cluster, admitted R cluster run spec = true → admitted R (t.env cluster) run spec = true

/-- The calls for one run; its own part of the state is the status. -/
def calls (R : Reconciler) (run : TestRun) : Machine.Transactional (Cluster × AgentTestRunStatus) Tick Unit Empty where
  exec t s := .ok ((), reconcile R (t.env s.1) { run with status := s.2 } t.api)

theorem calls_step (s : Cluster × AgentTestRunStatus) (t : Tick) :
    (calls R run).step s t = reconcile R (t.env s.1) { run with status := s.2 } t.api := rfl

variable {ticks : List Tick}

/-- The child is there in every call. -/
theorem admitted_run (hcancel : run.cancel = false) (hadm : admitted R s.1 run spec = true)
    (henv : ∀ t ∈ ticks, t.KeepsChild R run spec) :
    admitted R ((calls R run).run s ticks).1 run spec = true := by
  refine Machine.Transactional.run_invariant (fun t => t.KeepsChild R run spec)
    (fun s : Cluster × AgentTestRunStatus => admitted R s.1 run spec = true) (fun s t ht hs => ?_) hadm ticks henv
  have hkeeps : KeepsChildren (t.env s.1) ((calls R run).step s t).1 := by
    rw [calls_step]
    exact keepsChildren_reconcile hcancel
  exact hkeeps.admitted (ht s.1 hs)

/-- A run that has ended stays as it is. -/
theorem run_of_terminal (h : terminalPhase s.2.phase = true) : ((calls R run).run s ticks).2 = s.2 := by
  induction ticks generalizing s with
  | nil => rfl
  | cons t ticks ih =>
    have hstep : ((calls R run).step s t).2 = s.2 := by
      rw [calls_step, reconcile_of_terminal h]
    rw [Machine.Transactional.run_cons, ih (by rw [hstep]; exact h), hstep]

/-- **The phase over many calls.** Once the child of a valid run exists, the phase follows it, and is never `Pending`, in
    all calls exactly if nothing hinders any call that finds the run active; and a phase that has ended never changes. -/
theorem progress_iff
    (hvalid : validateAndDefaultWithScheduler R.libraries R.scheduler run.spec = .ok spec)
    (hcancel : run.cancel = false) (hadm : admitted R s.1 run spec = true)
    (henv : ∀ t ∈ ticks, t.KeepsChild R run spec) :
    ((∀ past t rest, ticks = past ++ t :: rest → terminalPhase ((calls R run).run s past).2.phase = false →
        Progresses R (t.env ((calls R run).run s past).1) run.metadata spec
          ((calls R run).run s (past ++ [t])).2) ↔
      ∀ past t rest, ticks = past ++ t :: rest → terminalPhase ((calls R run).run s past).2.phase = false →
        Unhindered R (t.env ((calls R run).run s past).1)
          { run with status := ((calls R run).run s past).2 } spec t.api) ∧
    ∀ past rest, ticks = past ++ rest → terminalPhase ((calls R run).run s past).2.phase = true →
      ((calls R run).run s ticks).2 = ((calls R run).run s past).2 := by
  constructor
  · refine forall_congr' fun past => forall_congr' fun t => forall_congr' fun rest => ?_
    refine forall_congr' fun hticks => forall_congr' fun hactive => ?_
    subst hticks
    rw [List.forall_mem_append, List.forall_mem_cons] at henv
    have hfound := henv.2.1 _ (admitted_run hcancel hadm henv.1)
    rw [Machine.Transactional.run_concat, calls_step]
    exact @reconcile_progresses_iff R _ { run with status := ((calls R run).run s past).2 } spec t.api
      hactive hvalid hcancel hfound
  · rintro past rest rfl hend
    rw [Machine.Transactional.run_append]
    exact run_of_terminal hend

/-! ## A run whose dataset is deleted -/

def demoRun : TestRun where
  metadata := scenarioRunMeta
  spec := scenarioRun ""
  apiKeySecretRef := none
  cancel := false
  status := ⟨.running, "demo-worker", "", 1, 0, 0, []⟩

def demoJob (conditions : List JobCondition) : Job := ⟨some scenarioRunMeta.uid, "demo", conditions, 0, 2, 0⟩

/-- The Job of the run, next to the ConfigMaps there are. -/
def demoCluster (configMaps : List (String × ConfigMap)) (conditions : List JobCondition) : Cluster where
  configMaps name := configMaps.lookup name
  secrets _ := none
  quotas := []
  jobs name := if name = "demo-worker" then some (demoJob conditions) else none
  scaledJobs _ := none
  hasKEDA := false

/-- The dataset and the source of the scenario. -/
def demoSources : List (String × ConfigMap) :=
  [("cases", ⟨none, [("cases.jsonl", [])], []⟩),
    ("faults", ⟨none, [("scenario.json", writeScenario integerFormat false (rateLimited ["a < b"]))], []⟩)]

def jobComplete : JobCondition := ⟨.complete, true, ""⟩

def noResultAPI : ResultAPI := ⟨fun _ => false, none, false⟩

/-- The Job completes; these ConfigMaps are there then. -/
def completesWith (configMaps : List (String × ConfigMap)) : Tick := ⟨fun _ => demoCluster configMaps [jobComplete], noResultAPI⟩

theorem valid_demoRun : validateAndDefaultWithScheduler Reconciler.withoutSink.libraries Reconciler.withoutSink.scheduler
    demoRun.spec = .ok (scenarioRun "") := by
  have htarget : validateTarget .withoutURLs (scenarioRun "").target = .ok () := by decide +kernel
  exact accepted_scenarioRun htarget

theorem childName_demoRun : Reconciler.withoutSink.childName demoRun.metadata "worker" = "demo-worker" := by
  show childName (fun _ => "00000000") "demo" "worker" = "demo-worker"
  decide +kernel

theorem admitted_demoCluster (configMaps : List (String × ConfigMap)) (conditions : List JobCondition) :
    admitted Reconciler.withoutSink (demoCluster configMaps conditions) demoRun (scenarioRun "") = true := by
  have hkeda : (scenarioRun "").scheduling.strategy ≠ "keda" := by decide
  rw [admitted, if_neg hkeda, childName_demoRun]
  rfl

theorem keepsChild_completesWith (configMaps : List (String × ConfigMap)) :
    (completesWith configMaps).KeepsChild Reconciler.withoutSink demoRun (scenarioRun "") :=
  fun _ _ => admitted_demoCluster configMaps [jobComplete]

theorem ended_demoJob : (demoJob [jobComplete]).Ended .succeeded := by
  refine .complete ⟨jobComplete, List.mem_singleton_self _, rfl, rfl⟩ ?_
  rintro ⟨c, hmem, htype, -⟩
  cases List.mem_singleton.mp hmem
  cases htype

theorem job_demoCluster (configMaps : List (String × ConfigMap)) (conditions : List JobCondition) :
    (demoCluster configMaps conditions).jobs (Reconciler.withoutSink.childName demoRun.metadata "worker") =
      some (demoJob conditions) := by
  rw [childName_demoRun]
  rfl

theorem configName_demoRun : Reconciler.withoutSink.childName demoRun.metadata "config" = "demo-config" := by
  show childName (fun _ => "00000000") "demo" "config" = "demo-config"
  decide +kernel

/-- The first snapshot is taken from the source. -/
theorem scenarioSnapshot_demoCluster (conditions : List JobCondition) :
    scenarioSnapshot Reconciler.withoutSink (demoCluster demoSources conditions) demoRun (scenarioRun "") =
      (some scenarioRunSnapshot, ⟨true, "Available", "fault scenario is valid and ready to snapshot"⟩) := by
  have hnormal : Normal integerFormat (rateLimited ["a < b"]) := normal_rateLimited (by decide)
  have hparse := parseScenario_writeScenario (usesJSON_withJSON integerFormat) hnormal false (by decide +kernel)
  have hgenerated : generatedScenario Reconciler.withoutSink (demoCluster demoSources conditions) demoRun = none := by
    have habsent : (demoCluster demoSources conditions).configMaps "demo-config" = none := rfl
    rw [generatedScenario, configName_demoRun, habsent]
    rfl
  have hsource : sourceScenario Reconciler.withoutSink (demoCluster demoSources conditions) ⟨"faults", "scenario.json"⟩ =
      (some scenarioRunSnapshot, ⟨true, "Available", "fault scenario is valid and ready to snapshot"⟩) := by
    have hfound : (demoCluster demoSources conditions).configMaps "faults" =
      some ⟨none, [("scenario.json", writeScenario integerFormat false (rateLimited ["a < b"]))], []⟩ := rfl
    have hplatform : Reconciler.withoutSink.platform = Platform.withJSON integerFormat := rfl
    simp only [sourceScenario, hfound, List.lookup_cons_self, Option.some_or, hplatform, hparse]
    rfl
  have href : (scenarioRun "").reliability.bind (·.scenarioRef) = some ⟨"faults", "scenario.json"⟩ := rfl
  simp [scenarioSnapshot, href, hgenerated, hsource]

/-- With the dataset and the scenario in place nothing hinders a call. -/
theorem unhindered_demoRun :
    Unhindered Reconciler.withoutSink (demoCluster demoSources [jobComplete]) demoRun (scenarioRun "") noResultAPI := by
  have hkeda : (scenarioRun "").scheduling.strategy ≠ "keda" := by decide
  have habsent : (demoCluster demoSources [jobComplete]).configMaps "demo-config" = none := rfl
  refine ⟨⟨rfl, rfl, rfl, rfl, by rw [scenarioSnapshot_demoCluster], fun h => absurd h hkeda⟩, ?_⟩
  rw [ensureWorkerConfig, configName_demoRun, habsent]
  exact ⟨fun h => absurd h Bool.false_ne_true, fun h => absurd h hkeda⟩

/-- The Job completes and the run succeeds. -/
theorem progress_demoRun :
    Progresses Reconciler.withoutSink (demoCluster demoSources [jobComplete]) demoRun.metadata (scenarioRun "")
      ((calls Reconciler.withoutSink demoRun).run (demoCluster demoSources [], demoRun.status)
        [completesWith demoSources]).2 := by
  have hcancel : demoRun.cancel = false := rfl
  have hadm := admitted_demoCluster demoSources []
  have henv : ∀ t ∈ [completesWith demoSources], t.KeepsChild Reconciler.withoutSink demoRun (scenarioRun "") :=
    List.forall_mem_singleton.mpr (keepsChild_completesWith demoSources)
  have hiff := (@progress_iff Reconciler.withoutSink demoRun (scenarioRun "") (demoCluster demoSources [], demoRun.status)
    [completesWith demoSources] valid_demoRun hcancel hadm henv).1
  refine hiff.mpr (fun past t rest hticks _ => ?_) [] (completesWith demoSources) [] rfl rfl
  cases past with
  | nil =>
    cases hticks
    exact unhindered_demoRun
  | cons => simp at hticks

/-- The Job completes when the dataset is gone: the run is `Pending`. -/
theorem progress_withoutDataset :
    validateAndDefaultWithScheduler Reconciler.withoutSink.libraries Reconciler.withoutSink.scheduler demoRun.spec =
        .ok (scenarioRun "") ∧
      demoRun.cancel = false ∧
      admitted Reconciler.withoutSink (demoCluster demoSources []) demoRun (scenarioRun "") = true ∧
      (completesWith []).KeepsChild Reconciler.withoutSink demoRun (scenarioRun "") ∧
      (demoCluster [] [jobComplete]).jobs (Reconciler.withoutSink.childName demoRun.metadata "worker") =
        some (demoJob [jobComplete]) ∧
      (demoJob [jobComplete]).Ended .succeeded ∧
      ((calls Reconciler.withoutSink demoRun).run (demoCluster demoSources [], demoRun.status) [completesWith []]).2.phase =
        .pending := by
  refine ⟨valid_demoRun, rfl, admitted_demoCluster demoSources [], keepsChild_completesWith [],
    job_demoCluster [] [jobComplete], ended_demoJob, ?_⟩
  have hdataset : datasetReady (demoCluster [] [jobComplete]) (scenarioRun "") = false := rfl
  have hwaits : ∃ status, readiness Reconciler.withoutSink (demoCluster [] [jobComplete]) demoRun (scenarioRun "") =
      .error status := by
    cases hready : readiness Reconciler.withoutSink (demoCluster [] [jobComplete]) demoRun (scenarioRun "") with
    | error status => exact ⟨status, rfl⟩
    | ok status =>
      have hpass := (exists_readiness_ok_iff (admitted_demoCluster [] [jobComplete])).mp ⟨status, hready⟩
      exact absurd (hdataset.symm.trans hpass.dataset) Bool.false_ne_true
  obtain ⟨status, hwaits⟩ := hwaits
  have hcall : (reconcile Reconciler.withoutSink (demoCluster [] [jobComplete]) demoRun noResultAPI).2 = status := by
    have hactive : terminalPhase demoRun.status.phase = false := rfl
    have hcancel : demoRun.cancel = false := rfl
    simp [reconcile, hactive, valid_demoRun, hcancel, hwaits]
  show (reconcile Reconciler.withoutSink (demoCluster [] [jobComplete]) demoRun noResultAPI).2.phase = .pending
  rw [hcall]
  exact failsOnly_readiness status hwaits

end AgentStorm.Controller
