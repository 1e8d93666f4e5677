import AgentStorm.Controller.Reconcile

/-!
# `Controller.Isolation` — the runs of one namespace

The objects of a run are found by name only, so the runs are kept apart by `childName` alone. A call
writes nothing but the objects under its run's names and the Jobs with its label (`writes_reconcile`)
and reads nothing but these and what the run refers to (`reconcile_status_congr`); as long as no two
names clash, that leaves every other run alone (`isolation`).
-/

namespace AgentStorm.Controller

open Results

variable {R : Reconciler} {cluster : Cluster} {run : TestRun} {spec : AgentTestRunSpec} {api : ResultAPI}

/-! ## What a call writes -/

/-- Everything that a call for a run does to the objects of the namespace. -/
structure Writes (R : Reconciler) (run : ObjectMeta) (before after : Cluster) : Prop where
  /-- The run's ConfigMap is created or changed; its owner stays. -/
  configMaps : ∀ name, after.configMaps name = before.configMaps name ∨
    name = R.childName run "config" ∧ ∃ cm, after.configMaps name = some cm ∧
      cm.controller = ((before.configMaps name).map (·.controller)).getD (some run.uid)
  /-- The run's Job is created; Jobs under the run's name or with its label are deleted. -/
  jobs : ∀ name, after.jobs name = before.jobs name ∨
    (name = R.childName run "worker" ∧ before.jobs name = none ∧
      ∃ job, after.jobs name = some job ∧ job.controller = some run.uid ∧ job.runLabel = run.name) ∨
    after.jobs name = none ∧ ∃ job, before.jobs name = some job ∧
      (name = R.childName run "worker" ∨ job.runLabel = run.name)
  /-- The run's ScaledJob is created or deleted. -/
  scaledJobs : ∀ name, after.scaledJobs name = before.scaledJobs name ∨
    name = R.childName run "worker" ∧
      (after.scaledJobs name = none ∨ before.scaledJobs name = none ∧ after.scaledJobs name = some ⟨some run.uid⟩)

theorem Writes.refl (R : Reconciler) (run : ObjectMeta) (cluster : Cluster) : Writes R run cluster cluster :=
  ⟨fun _ => Or.inl rfl, fun _ => Or.inl rfl, fun _ => Or.inl rfl⟩

/-- First the ConfigMap, then the child. -/
theorem Writes.trans {run : ObjectMeta} {a b c : Cluster} (h : Writes R run a b) (hchildren : b.jobs = a.jobs)
    (hscaled : b.scaledJobs = a.scaledJobs) (h' : Writes R run b c) (hconfig : c.configMaps = b.configMaps) :
    Writes R run a c where
  configMaps name := by rw [hconfig]; exact h.configMaps name
  jobs name := by rw [← hchildren]; exact h'.jobs name
  scaledJobs name := by rw [← hscaled]; exact h'.scaledJobs name

theorem writes_ensureWorkerConfig {scenario : Option Snapshot} {after : Cluster}
    (h : ensureWorkerConfig R cluster run spec scenario = some after) : Writes R run.metadata cluster after := by
  obtain ⟨heq, hframe⟩ := ensureWorkerConfig_eq h
  refine ⟨fun name => ?_, fun name => Or.inl (by rw [heq]), fun name => Or.inl (by rw [heq])⟩
  by_cases hname : name = R.childName run.metadata "config"
  · subst hname
    unfold ensureWorkerConfig at h
    dsimp only at h
    split at h
    · rename_i hnone
      cases h
      exact .inr ⟨rfl, _, putAt_self _ _ _, by rw [hnone]; rfl⟩
    · rename_i cm hsome
      split at h
      · cases h
        exact .inl rfl
      · split at h
        · cases h
        · cases h
          exact .inr ⟨rfl, _, putAt_self _ _ _, by rw [hsome]; rfl⟩
  · exact .inl (hframe name hname)

theorem writes_ensureJob : Writes R run.metadata cluster (ensureJob R cluster run).2 := by
  unfold ensureJob
  dsimp only
  split
  · exact .refl R run.metadata cluster
  · rename_i hnone
    refine ⟨fun _ => Or.inl rfl, fun name => ?_, fun _ => Or.inl rfl⟩
    by_cases hname : name = R.childName run.metadata "worker"
    · subst hname
      exact .inr (Or.inl ⟨rfl, hnone, _, putAt_self _ _ _, rfl, rfl⟩)
    · exact .inl (putAt_ne hname)

theorem writes_ensureScaledJob {after : Cluster} (h : ensureScaledJob R cluster run = some after) :
    Writes R run.metadata cluster after := by
  unfold ensureScaledJob at h
  dsimp only at h
  split at h
  · cases h
  · split at h
    · cases h
      exact .refl R run.metadata cluster
    · rename_i hnone
      cases h
      refine ⟨fun _ => Or.inl rfl, fun _ => Or.inl rfl, fun name => ?_⟩
      by_cases hname : name = R.childName run.metadata "worker"
      · subst hname
        exact .inr ⟨rfl, Or.inr ⟨hnone, putAt_self _ _ _⟩⟩
      · exact .inl (putAt_ne hname)

theorem writes_cancelJob : Writes R run.metadata cluster (cancelJob R cluster run) := by
  refine ⟨fun _ => Or.inl rfl, fun name => ?_, fun _ => Or.inl rfl⟩
  by_cases hname : name = R.childName run.metadata "worker"
  · subst hname
    cases hjob : cluster.jobs (R.childName run.metadata "worker") with
    | none => exact .inl (putAt_self _ _ _)
    | some job => exact .inr (Or.inr ⟨putAt_self _ _ _, job, rfl, Or.inl rfl⟩)
  · exact .inl (putAt_ne hname)

theorem writes_deleteScaledJob : Writes R run.metadata cluster (deleteScaledJob R cluster run) := by
  refine ⟨fun _ => Or.inl rfl, fun name => ?_, fun name => ?_⟩
  · cases hjob : cluster.jobs name with
    | none => exact .inl (by simp [deleteScaledJob, hjob])
    | some job =>
      by_cases hlabel : job.runLabel = run.metadata.name
      · exact .inr (Or.inr ⟨by simp [deleteScaledJob, hjob, hlabel], job, rfl, Or.inr hlabel⟩)
      · exact .inl (by simp [deleteScaledJob, hjob, hlabel])
  · by_cases hname : name = R.childName run.metadata "worker"
    · subst hname
      exact .inr ⟨rfl, Or.inl (putAt_self _ _ _)⟩
    · exact .inl (putAt_ne hname)

/-- **A call writes under its own names only**, apart from the Jobs with its run's label. -/
theorem writes_reconcile (R : Reconciler) (cluster : Cluster) (run : TestRun) (api : ResultAPI) :
    Writes R run.metadata cluster (reconcile R cluster run api).1 := by
  rcases reconcile_cluster_cases R cluster run api with
    hsame | ⟨-, hcancel | hdelete⟩ | ⟨spec, configured, -, -, hwrite, hchild⟩
  · rw [hsame]
    exact .refl R run.metadata cluster
  · rw [hcancel]
    exact writes_cancelJob
  · rw [hdelete]
    exact writes_deleteScaledJob
  · have hconfig := writes_ensureWorkerConfig hwrite
    have heq := (ensureWorkerConfig_eq hwrite).1
    have hjobs : configured.jobs = cluster.jobs := by rw [heq]
    have hscaledJobs : configured.scaledJobs = cluster.scaledJobs := by rw [heq]
    rcases hchild with hsame | hjob | hscaled
    · rw [hsame]
      exact hconfig
    · rw [hjob]
      exact hconfig.trans hjobs hscaledJobs writes_ensureJob configMaps_ensureJob
    · exact hconfig.trans hjobs hscaledJobs (writes_ensureScaledJob hscaled) (configMaps_ensureScaledJob hscaled)

/-! ## What a call reads -/

/-- Two states of a namespace that look the same from the child of a run. -/
structure SameChild (R : Reconciler) (run : ObjectMeta) (a b : Cluster) : Prop where
  secrets : a.secrets = b.secrets
  hasKEDA : a.hasKEDA = b.hasKEDA
  job : a.jobs (R.childName run "worker") = b.jobs (R.childName run "worker")
  scaledJob : a.scaledJobs (R.childName run "worker") = b.scaledJobs (R.childName run "worker")

/-- The ConfigMaps that a run refers to. -/
def references (spec : AgentTestRunSpec) : List String :=
  spec.workload.datasetRef.name :: ((spec.reliability.bind (·.scenarioRef)).map (·.name)).toList

/-- Two states of a namespace that look the same from a run. -/
structure SameReads (R : Reconciler) (run : ObjectMeta) (spec : AgentTestRunSpec) (a b : Cluster) : Prop
    extends SameChild R run a b where
  quotas : a.quotas = b.quotas
  config : a.configMaps (R.childName run "config") = b.configMaps (R.childName run "config")
  references : ∀ name ∈ references spec, a.configMaps name = b.configMaps name

section Reads

variable {a b : Cluster}

theorem execute_status_congr {status : AgentTestRunStatus} (h : SameChild R run.metadata a b) :
    (execute R a run spec api status).2 = (execute R b run spec api status).2 := by
  unfold execute
  dsimp only
  split
  · have hnone : (ensureScaledJob R a run).isSome = (ensureScaledJob R b run).isSome := by
      simp only [ensureScaledJob, h.hasKEDA, h.scaledJob]
      cases b.hasKEDA <;> cases b.scaledJobs (R.childName run.metadata "worker") <;> rfl
    cases ha : ensureScaledJob R a run <;> cases hb : ensureScaledJob R b run <;> simp [ha, hb] at hnone ⊢
    cases api.queueStatus <;> rfl
  · have hjob : (ensureJob R a run).1 = (ensureJob R b run).1 := by
      simp only [ensureJob, h.job]
      cases b.jobs (R.childName run.metadata "worker") <;> rfl
    rw [hjob]

theorem resultWriteToken_congr (h : a.secrets = b.secrets) : resultWriteToken R a = resultWriteToken R b := by
  rw [resultWriteToken, resultWriteToken, h]

theorem registerAndExecute_status_congr {scenario : Option Snapshot} {status : AgentTestRunStatus}
    (h : SameChild R run.metadata a b) :
    (registerAndExecute R a run spec api scenario status).2 = (registerAndExecute R b run spec api scenario status).2 := by
  unfold registerAndExecute
  rw [resultWriteToken_congr h.secrets]
  split
  · exact execute_status_congr h
  · split
    · rfl
    · split
      · rfl
      · exact execute_status_congr h

theorem scenarioSnapshot_congr (h : SameReads R run.metadata spec a b) :
    scenarioSnapshot R a run spec = scenarioSnapshot R b run spec := by
  unfold scenarioSnapshot
  cases href : spec.reliability.bind (·.scenarioRef) with
  | none => rfl
  | some ref =>
    have hsource : a.configMaps ref.name = b.configMaps ref.name := h.references _ (by simp [references, href])
    have hgenerated : generatedScenario R a run = generatedScenario R b run := by
      rw [generatedScenario, generatedScenario, h.config]
    have hfrom : sourceScenario R a ref = sourceScenario R b ref := by rw [sourceScenario, sourceScenario, hsource]
    simp [hgenerated, hfrom]

theorem readiness_congr (h : SameReads R run.metadata spec a b) : readiness R a run spec = readiness R b run spec := by
  have hdataset : datasetReadiness a spec = datasetReadiness b spec := by
    have hsame : a.configMaps spec.workload.datasetRef.name = b.configMaps spec.workload.datasetRef.name :=
      h.references _ List.mem_cons_self
    rw [datasetReadiness, datasetReadiness, datasetReady, datasetReady, hsame]
  have hcredentials : credentialsReady a run = credentialsReady b run := by
    rw [credentialsReady, credentialsReady, h.secrets]
  have hsink : resultSinkReady R a = resultSinkReady R b := by rw [resultSinkReady, resultSinkReady, h.secrets]
  have hscheduling : schedulingReady R a run spec = schedulingReady R b run spec := by
    have hadmitted : admitted R a run spec = admitted R b run spec := by
      rw [admitted, admitted, h.hasKEDA, h.job, h.scaledJob]
    have hquotas : quotasReady R a spec = quotasReady R b spec := by rw [quotasReady, quotasReady, h.quotas]
    rw [schedulingReady, schedulingReady, hadmitted, hquotas]
  rw [readiness, readiness, hdataset, hcredentials, hsink, scenarioSnapshot_congr h, hscheduling]

/-- Both writes of the configuration fail, or both leave the child of the run as it was. -/
theorem ensureWorkerConfig_congr {scenario : Option Snapshot} (h : SameReads R run.metadata spec a b) :
    (ensureWorkerConfig R a run spec scenario = none ∧ ensureWorkerConfig R b run spec scenario = none) ∨
      ∃ a' b', ensureWorkerConfig R a run spec scenario = some a' ∧ ensureWorkerConfig R b run spec scenario = some b' ∧
        SameChild R run.metadata a' b' := by
  have hsome : (ensureWorkerConfig R a run spec scenario).isSome = (ensureWorkerConfig R b run spec scenario).isSome := by
    simp only [ensureWorkerConfig, h.config]
    cases b.configMaps (R.childName run.metadata "config") with
    | none => rfl
    | some =>
      dsimp only
      split
      · rfl
      · split <;> rfl
  cases ha : ensureWorkerConfig R a run spec scenario with
  | none =>
    rw [ha] at hsome
    exact .inl ⟨rfl, Option.not_isSome_iff_eq_none.mp (by rw [← hsome]; exact Bool.false_ne_true)⟩
  | some a' =>
    rw [ha] at hsome
    obtain ⟨b', hb⟩ := Option.isSome_iff_exists.mp hsome.symm
    refine .inr ⟨a', b', rfl, hb, ?_⟩
    rw [(ensureWorkerConfig_eq ha).1, (ensureWorkerConfig_eq hb).1]
    exact ⟨h.secrets, h.hasKEDA, h.job, h.scaledJob⟩

/-- **The status that a call leaves depends on nothing else.** -/
theorem reconcile_status_congr
    (h : ∀ spec, validateAndDefaultWithScheduler R.libraries R.scheduler run.spec = .ok spec →
      SameReads R run.metadata spec a b)
    (hsecrets : a.secrets = b.secrets) : (reconcile R a run api).2 = (reconcile R b run api).2 := by
  unfold reconcile
  split
  · rfl
  · cases hvalid : validateAndDefaultWithScheduler R.libraries R.scheduler run.spec with
    | error => rfl
    | ok spec =>
      have hreads := h spec hvalid
      dsimp only
      split
      · unfold reconcileCancel
        rw [resultWriteToken_congr hsecrets]
        dsimp only
        split <;> rfl
      · rw [readiness_congr hreads, scenarioSnapshot_congr hreads]
        cases readiness R b run spec with
        | error => rfl
        | ok =>
          dsimp only
          rcases @ensureWorkerConfig_congr R run spec a b (scenarioSnapshot R b run spec).1 hreads with
            ⟨ha, hb⟩ | ⟨a', b', ha, hb, hchild⟩
          · rw [ha, hb]
          · rw [ha, hb]
            exact registerAndExecute_status_congr hchild

end Reads

/-! ## Whose objects are where -/

/-- What belongs to a run has the run's name, and a Job also its label. -/
structure Placed (R : Reconciler) (runs : List ObjectMeta) (cluster : Cluster) : Prop where
  configMaps : ∀ run ∈ runs, ∀ name cm, cluster.configMaps name = some cm → cm.controller = some run.uid →
    name = R.childName run "config"
  jobs : ∀ run ∈ runs, ∀ name job, cluster.jobs name = some job → job.controller = some run.uid →
    name = R.childName run "worker" ∧ job.runLabel = run.name
  scaledJobs : ∀ run ∈ runs, ∀ name child, cluster.scaledJobs name = some child → child.controller = some run.uid →
    name = R.childName run "worker"

/-- What belongs to a run is still there, as it was. -/
structure Untouched (uid : String) (before after : Cluster) : Prop where
  configMaps : ∀ name cm, before.configMaps name = some cm → cm.controller = some uid → after.configMaps name = some cm
  jobs : ∀ name job, before.jobs name = some job → job.controller = some uid → after.jobs name = some job
  scaledJobs : ∀ name child, before.scaledJobs name = some child → child.controller = some uid →
    after.scaledJobs name = some child

/-- The namespace without what belongs to a run; ConfigMaps that are referred to by name stay. -/
def hide (uid : String) (referred : List String) (cluster : Cluster) : Cluster :=
  { cluster with
    configMaps := fun name =>
      if name ∈ referred then cluster.configMaps name
      else (cluster.configMaps name).filter fun cm => decide (cm.controller ≠ some uid)
    jobs := fun name => (cluster.jobs name).filter fun job => decide (job.controller ≠ some uid)
    scaledJobs := fun name => (cluster.scaledJobs name).filter fun child => decide (child.controller ≠ some uid) }

/-- A call neither changes nor deletes what belongs to another run, and leaves the status that it would leave without it. -/
def Isolated (R : Reconciler) (cluster : Cluster) (run : TestRun) (api : ResultAPI) (other : ObjectMeta) : Prop :=
  Untouched other.uid cluster (reconcile R cluster run api).1 ∧
    ∀ spec, validateAndDefaultWithScheduler R.libraries R.scheduler run.spec = .ok spec →
      (reconcile R cluster run api).2 = (reconcile R (hide other.uid (references spec) cluster) run api).2

section Step

variable {runs : List ObjectMeta} {other : ObjectMeta}

/-- Names are as good as UIDs, in one namespace at one time. -/
def SameIdentity (runs : List ObjectMeta) : Prop := ∀ a ∈ runs, ∀ b ∈ runs, a.name = b.name ↔ a.uid = b.uid

/-- The runs' names make different names for their objects. -/
def NamesApart (R : Reconciler) (runs : List ObjectMeta) : Prop :=
  ∀ a ∈ runs, ∀ b ∈ runs, a.name ≠ b.name → ∀ suffix ∈ ["config", "worker"], R.childName a suffix ≠ R.childName b suffix

theorem Placed.reconcile (hplaced : Placed R runs cluster) (hids : SameIdentity runs) (hrun : run.metadata ∈ runs) :
    Placed R runs (Controller.reconcile R cluster run api).1 := by
  have hwrites := writes_reconcile R cluster run api
  -- Whatever is new belongs to the run of the call.
  have hown : ∀ other ∈ runs, other.uid = run.metadata.uid → other.name = run.metadata.name :=
    fun other hother huid => (hids other hother _ hrun).mpr huid
  refine ⟨fun other hother name cm hcm howner => ?_, fun other hother name job hjob howner => ?_,
    fun other hother name child hchild howner => ?_⟩
  · rcases hwrites.configMaps name with hsame | ⟨hname, _, hcm', hcontroller⟩
    · exact hplaced.configMaps other hother name cm (hsame ▸ hcm) howner
    · cases hcm.symm.trans hcm'
      cases hold : cluster.configMaps name with
      | some old =>
        rw [hold] at hcontroller
        exact hplaced.configMaps other hother name old hold (hcontroller.symm.trans howner)
      | none =>
        rw [hold] at hcontroller
        have huid := Option.some.inj (howner.symm.trans hcontroller)
        rw [hname, Reconciler.childName, Reconciler.childName, hown other hother huid]
  · rcases hwrites.jobs name with hsame | ⟨hname, -, _, hjob', hcontroller, hlabel⟩ | ⟨hgone, -⟩
    · exact hplaced.jobs other hother name job (hsame ▸ hjob) howner
    · cases hjob.symm.trans hjob'
      have hothers := hown other hother (Option.some.inj (howner.symm.trans hcontroller))
      exact ⟨by rw [hname, Reconciler.childName, Reconciler.childName, hothers], by rw [hlabel, hothers]⟩
    · rw [hgone] at hjob
      cases hjob
  · rcases hwrites.scaledJobs name with hsame | ⟨hname, hgone | ⟨-, hnew⟩⟩
    · exact hplaced.scaledJobs other hother name child (hsame ▸ hchild) howner
    · rw [hgone] at hchild
      cases hchild
    · cases hchild.symm.trans hnew
      rw [hname, Reconciler.childName, Reconciler.childName, hown other hother (Option.some.inj howner.symm)]

/-- The call for a run does not touch what belongs to another. -/
theorem untouched_reconcile (hplaced : Placed R runs cluster) (hapart : NamesApart R runs) (hrun : run.metadata ∈ runs)
    (hother : other ∈ runs) (hne : other.name ≠ run.metadata.name) :
    Untouched other.uid cluster (reconcile R cluster run api).1 := by
  have hwrites := writes_reconcile R cluster run api
  have hnames := hapart other hother run.metadata hrun hne
  refine ⟨fun name cm hcm howner => ?_, fun name job hjob howner => ?_, fun name child hchild howner => ?_⟩
  · have hname := hplaced.configMaps other hother name cm hcm howner
    rcases hwrites.configMaps name with hsame | ⟨hname', -⟩
    · exact hsame.trans hcm
    · exact absurd (hname.symm.trans hname') (hnames "config" (by simp))
  · obtain ⟨hname, hlabel⟩ := hplaced.jobs other hother name job hjob howner
    rcases hwrites.jobs name with hsame | ⟨hname', -⟩ | ⟨-, _, hjob', hname' | hlabel'⟩
    · exact hsame.trans hjob
    · exact absurd (hname.symm.trans hname') (hnames "worker" (by simp))
    · exact absurd (hname.symm.trans hname') (hnames "worker" (by simp))
    · cases hjob.symm.trans hjob'
      exact absurd (hlabel.symm.trans hlabel') hne
  · have hname := hplaced.scaledJobs other hother name child hchild howner
    rcases hwrites.scaledJobs name with hsame | ⟨hname', -⟩
    · exact hsame.trans hchild
    · exact absurd (hname.symm.trans hname') (hnames "worker" (by simp))

/-- Hiding what belongs to a run leaves an object that does not. -/
theorem filter_controller {α : Type} {controller : α → Option String} {uid : String} {object : Option α}
    (h : ∀ x, object = some x → controller x ≠ some uid) :
    object.filter (fun x => decide (controller x ≠ some uid)) = object := by
  cases object with
  | none => rfl
  | some x => simp [h x rfl]

/-- A run does not see what is hidden: under its names there is nothing that belongs to another. -/
theorem sameReads_hide (hplaced : Placed R runs cluster) (hapart : NamesApart R runs) (hrun : run.metadata ∈ runs)
    (hother : other ∈ runs) (hne : other.name ≠ run.metadata.name) :
    SameReads R run.metadata spec cluster (hide other.uid (references spec) cluster) := by
  have hnames := hapart other hother run.metadata hrun hne
  refine ⟨⟨rfl, rfl, ?_, ?_⟩, rfl, ?_, fun name hname => (if_pos hname).symm⟩
  · refine (filter_controller fun job hjob howner => ?_).symm
    exact hnames "worker" (by simp) (hplaced.jobs other hother _ job hjob howner).1.symm
  · refine (filter_controller fun child hchild howner => ?_).symm
    exact hnames "worker" (by simp) (hplaced.scaledJobs other hother _ child hchild howner).symm
  · dsimp only [hide]
    split
    · rfl
    · refine (filter_controller fun cm hcm howner => ?_).symm
      exact hnames "config" (by simp) (hplaced.configMaps other hother _ cm hcm howner).symm

theorem isolated_of_namesApart (hplaced : Placed R runs cluster) (hapart : NamesApart R runs) (hrun : run.metadata ∈ runs)
    (hother : other ∈ runs) (hne : other.name ≠ run.metadata.name) : Isolated R cluster run api other := by
  refine ⟨untouched_reconcile hplaced hapart hrun hother hne, fun spec hvalid => ?_⟩
  refine reconcile_status_congr (fun spec' hvalid' => ?_) rfl
  cases hvalid.symm.trans hvalid'
  exact sameReads_hide hplaced hapart hrun hother hne

end Step

/-! ## Many calls for several runs -/

/-- What happens in the namespace, then a call for one of the runs, as the run is then. -/
structure Call where
  env : Cluster → Cluster
  run : TestRun
  api : ResultAPI

def fleet (R : Reconciler) : Machine.Transactional Cluster Call Unit Empty where
  exec call cluster := .ok ((), (reconcile R (call.env cluster) call.run call.api).1)

theorem fleet_step (cluster : Cluster) (call : Call) :
    (fleet R).step cluster call = (reconcile R (call.env cluster) call.run call.api).1 := rfl

/-- A call for one of the runs, in surroundings that keep what belongs to the runs in its place. -/
def Call.Fair (call : Call) (R : Reconciler) (runs : List ObjectMeta) : Prop :=
  call.run.metadata ∈ runs ∧ ∀ cluster, Placed R runs cluster → Placed R runs (call.env cluster)

theorem placed_run {runs : List ObjectMeta} {calls : List Call} (hids : SameIdentity runs) (hplaced : Placed R runs cluster)
    (hcalls : ∀ call ∈ calls, call.Fair R runs) : Placed R runs ((fleet R).run cluster calls) := by
  refine Machine.Transactional.run_invariant (fun call => call.Fair R runs) (Placed R runs) (fun c call hcall hc => ?_)
    hplaced calls hcalls
  rw [fleet_step]
  exact (hcall.2 c hc).reconcile hids hcall.1

/-- No name is what another, longer one is cut to. -/
def NoClash (hash : String → String) (runs : List ObjectMeta) : Prop :=
  ∀ a ∈ runs, ∀ b ∈ runs, a.name ≠ b.name → ∀ suffix ∈ ["config", "worker"], ¬Clash hash suffix a.name b.name

/-- **Isolation.** For runs whose names have different digests, `childName` tells the objects apart exactly if no name is
    what another is cut to; and then, over any calls, no run touches another's objects or takes its status from them. -/
theorem isolation {runs : List ObjectMeta} {calls : List Call} (hids : SameIdentity runs)
    (hhash : ∀ name, (R.hash name).length = 8)
    (hdigests : ∀ a ∈ runs, ∀ b ∈ runs, a.name ≠ b.name → R.hash a.name ≠ R.hash b.name)
    (hplaced : Placed R runs cluster) (hcalls : ∀ call ∈ calls, call.Fair R runs) :
    (NamesApart R runs ↔ NoClash R.hash runs) ∧
    (NoClash R.hash runs → ∀ past call rest, calls = past ++ call :: rest →
      ∀ other ∈ runs, other.name ≠ call.run.metadata.name →
        Isolated R (call.env ((fleet R).run cluster past)) call.run call.api other) := by
  have hiff : NamesApart R runs ↔ NoClash R.hash runs := by
    refine forall₂_congr fun a ha => forall₂_congr fun b hb => forall_congr' fun hne => forall₂_congr fun suffix hsuffix => ?_
    have hshort : suffix.length ≤ 53 := by
      rcases List.mem_pair.mp hsuffix with rfl | rfl <;> decide
    exact not_congr (childName_eq_iff hne (hdigests a ha b hb hne) hhash hshort)
  refine ⟨hiff, fun hclash past call rest hsplit other hother hne => ?_⟩
  subst hsplit
  rw [List.forall_mem_append, List.forall_mem_cons] at hcalls
  obtain ⟨hpast, hcall, -⟩ := hcalls
  exact isolated_of_namesApart (hcall.2 _ (placed_run hids hplaced hpast)) (hiff.mpr hclash) hcall.1 hother hne

/-! ## A name that is another, cut -/

def longName : String := String.ofList (List.replicate 57 'a')

/-- What the long name is cut to. -/
def cutName : String := String.ofList (List.replicate 47 'a') ++ "-f13b2d72"

/-- The first four bytes of the SHA-256 digests of these names. -/
def digestOf (name : String) : String :=
  if name = longName then "f13b2d72"
  else if name = cutName then "8baf574e"
  else if name = "demo" then "2a97516c"
  else "d9298a10"

theorem length_digestOf (name : String) : (digestOf name).length = 8 := by
  unfold digestOf
  split
  · rfl
  · split
    · rfl
    · split <;> rfl

noncomputable def Reconciler.withDigests : Reconciler := { Reconciler.withoutSink with hash := digestOf }

def twoRuns : List ObjectMeta := [⟨"default", "demo", "uid-1"⟩, ⟨"default", "other", "uid-2"⟩]

def emptyCluster : Cluster := ⟨fun _ => none, fun _ => none, [], fun _ => none, fun _ => none, true⟩

/-- The dataset of the runs, and nothing else. -/
def datasetCluster : Cluster :=
  { emptyCluster with
    configMaps := fun name => if name = "cases" then some ⟨none, [("cases.jsonl", [])], []⟩ else none }

/-- A run without a scenario that is called for the first time. -/
def firstCall (metadata : ObjectMeta) : Call :=
  ⟨id, ⟨metadata, { scenarioRun "" with reliability := none }, none, false, ⟨.unset, "", "", 0, 0, 0, []⟩⟩,
    ⟨fun _ => true, none, true⟩⟩

theorem noClash_twoRuns : NoClash digestOf twoRuns := by
  have hkept : ∀ a ∈ twoRuns, ∀ suffix ∈ ["config", "worker"], keptWhole a.name suffix := by decide +kernel
  rintro a ha b hb - suffix hsuffix (⟨hlong, -⟩ | ⟨hlong, -⟩)
  · exact hlong (hkept b hb suffix hsuffix)
  · exact hlong (hkept a ha suffix hsuffix)

/-- Two runs with short names leave each other alone: once the first has its ConfigMap and its Job, the second is called. -/
theorem isolation_twoRuns :
    let after := (fleet Reconciler.withDigests).run datasetCluster [firstCall ⟨"default", "demo", "uid-1"⟩]
    (after.configMaps "demo-config").map (·.controller) = some (some "uid-1") ∧
    (after.jobs "demo-worker").map (·.controller) = some (some "uid-1") ∧
    Isolated Reconciler.withDigests after (firstCall ⟨"default", "other", "uid-2"⟩).run
      (firstCall ⟨"default", "other", "uid-2"⟩).api ⟨"default", "demo", "uid-1"⟩ := by
  have hids : SameIdentity twoRuns := by unfold SameIdentity; decide +kernel
  have hdigests : ∀ a ∈ twoRuns, ∀ b ∈ twoRuns, a.name ≠ b.name → digestOf a.name ≠ digestOf b.name := by
    decide +kernel
  have hplaced : Placed Reconciler.withDigests twoRuns datasetCluster := by
    refine ⟨fun _ _ _ configMap h hcontroller => ?_, fun _ _ _ _ h => ?_, fun _ _ _ _ h => ?_⟩
    · -- the dataset is no run's
      change (if _ then _ else _) = some configMap at h
      split at h <;> cases h
      cases hcontroller
    · cases h
    · cases h
  have hcalls : ∀ call ∈ twoRuns.map firstCall, call.Fair Reconciler.withDigests twoRuns := by
    intro call hcall
    obtain ⟨_, hmem, rfl⟩ := List.mem_map.mp hcall
    exact ⟨hmem, fun _ h => h⟩
  have hcore := (@isolation Reconciler.withDigests datasetCluster twoRuns (twoRuns.map firstCall) hids length_digestOf
    hdigests hplaced hcalls).2 noClash_twoRuns
  refine ⟨by decide +kernel, by decide +kernel, ?_⟩
  exact hcore [firstCall ⟨"default", "demo", "uid-1"⟩] (firstCall ⟨"default", "other", "uid-2"⟩) [] rfl
    ⟨"default", "demo", "uid-1"⟩ List.mem_cons_self (by decide +kernel)

/-- Where the long run's Job is, the other run takes it for its own. -/
theorem isolation_cutName :
    isDNS1123Subdomain longName = true ∧ isDNS1123Subdomain cutName = true ∧ longName ≠ cutName ∧
      digestOf longName ≠ digestOf cutName ∧
      (∀ suffix ∈ ["config", "worker"], childName digestOf longName suffix = childName digestOf cutName suffix) ∧
      ∀ job : Job, (ensureJob Reconciler.withDigests
          { emptyCluster with jobs := putAt emptyCluster.jobs (childName digestOf longName "worker") (some job) }
          (firstCall ⟨"default", cutName, "uid-2"⟩).run).1 = job := by
  have hnames : ∀ suffix ∈ ["config", "worker"], childName digestOf longName suffix = childName digestOf cutName suffix := by
    decide +kernel
  refine ⟨by decide +kernel, by decide +kernel, by decide +kernel, by decide +kernel, hnames, fun job => ?_⟩
  have hfound : Reconciler.withDigests.childName (firstCall ⟨"default", cutName, "uid-2"⟩).run.metadata "worker" =
      childName digestOf longName "worker" := (hnames "worker" (by simp)).symm
  simp [ensureJob, hfound, putAt_self]

end AgentStorm.Controller
