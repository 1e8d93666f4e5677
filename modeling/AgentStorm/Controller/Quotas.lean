import AgentStorm.Controller.Progress

/-!
# `Controller.Quotas` — what an admitted run may use of its namespace

`schedulingReady` compares the workers of a run with every `ResourceQuota` of the namespace; `charges`
is what the API server charges once all workers run, under each name by which a quota can limit it. No
check reads `cpu`, `memory` and `count/pods`.
-/

namespace AgentStorm.Controller

/-- An amount of a resource, in billionths. -/
structure Charge where
  resource : String
  amount : Int
  deriving DecidableEq

/-- The limit a quota sets: its status, or its specification while the status does not have the resource. -/
def ResourceQuota.hard (quota : ResourceQuota) (resource : String) : Option Int :=
  (quota.statusHard resource).or (quota.specHard resource)

/-- There is room for the charge. -/
def ResourceQuota.Fits (quota : ResourceQuota) (charge : Charge) : Prop :=
  ∀ hard, quota.hard charge.resource = some hard → quota.used charge.resource + charge.amount ≤ hard

/-! ## The charges of a run -/

section Charges

variable (spec : AgentTestRunSpec)

/-- The Jobs there are at a time; the finished ones that KEDA keeps are among them. -/
def jobsAtOnce : Int :=
  if spec.scheduling.strategy = "keda" then
    maxWorkersAtOnce spec.workload spec.scheduling + scaledJobSuccessfulHistory + scaledJobFailedHistory
  else 1

/-- The charges under the names that the controller reads. -/
def checkedCharges : List Charge :=
  let resources := schedulingResources spec.scheduling.resourceProfile
  let workers := maxWorkersAtOnce spec.workload spec.scheduling
  [⟨"requests.cpu", resources.requestsCPU * workers⟩, ⟨"requests.memory", resources.requestsMemory * workers⟩,
    ⟨"limits.cpu", resources.limitsCPU * workers⟩, ⟨"limits.memory", resources.limitsMemory * workers⟩,
    ⟨"pods", unit * workers⟩, ⟨"count/jobs.batch", unit * jobsAtOnce spec⟩] ++
  if spec.scheduling.strategy = "keda" then [⟨"count/scaledjobs.keda.sh", unit⟩] else []

/-- The charges under the other names of the same resources. -/
def uncheckedCharges : List Charge :=
  let resources := schedulingResources spec.scheduling.resourceProfile
  let workers := maxWorkersAtOnce spec.workload spec.scheduling
  [⟨"cpu", resources.requestsCPU * workers⟩, ⟨"memory", resources.requestsMemory * workers⟩,
    ⟨"count/pods", unit * workers⟩]

def charges : List Charge := checkedCharges spec ++ uncheckedCharges spec

/-- No quota of the namespace is exceeded once all workers of the run are there. -/
def WithinQuotas (quotas : List ResourceQuota) (charged : List Charge) : Prop :=
  ∀ quota ∈ quotas, ∀ charge ∈ charged, quota.Fits charge

end Charges

/-! ## Admission -/

variable {R : Reconciler} {cluster : Cluster} {run : TestRun} {spec : AgentTestRunSpec}

theorem quotaHasCapacity_iff {quota : ResourceQuota} {name : String} {perWorker workers : Int} :
    quotaHasCapacity quota name perWorker workers = true ↔ quota.Fits ⟨name, perWorker * workers⟩ := by
  unfold quotaHasCapacity ResourceQuota.Fits ResourceQuota.hard
  cases h : (quota.statusHard name).or (quota.specHard name) with
  | none => simp
  | some =>
    simp only [decide_eq_true_eq, Option.some.injEq, forall_eq']
    omega

/-- One check of a chain: it passes, and so do those after it. -/
theorem check_eq_none {α : Type} {passes : Bool} {message : α} {rest : Option α} :
    (if !passes then some message else rest) = none ↔ passes = true ∧ rest = none := by
  cases passes <;> simp

/-- A quota lets a run pass exactly if there is room for each charge the controller knows of. -/
theorem quotaRefuses_eq_none {quota : ResourceQuota} :
    quotaRefuses spec (maxWorkersAtOnce spec.workload spec.scheduling) quota = none ↔
      ∀ charge ∈ checkedCharges spec, quota.Fits charge := by
  by_cases hkeda : spec.scheduling.strategy = "keda"
  · simp only [quotaRefuses, checkedCharges, jobsAtOnce, hkeda, if_true, true_and, check_eq_none, Bool.and_eq_true,
      quotaHasCapacity_iff, mul_one, List.cons_append, List.nil_append, List.forall_mem_cons, and_true]
    tauto
  · simp only [quotaRefuses, checkedCharges, jobsAtOnce, hkeda, if_false, false_and, check_eq_none, Bool.and_eq_true,
      quotaHasCapacity_iff, List.append_nil, List.forall_mem_cons, and_true]
    tauto

theorem quotasReady_available_iff :
    (quotasReady R cluster spec).reason = "QuotaAvailable" ↔ cluster.quotas ≠ [] ∧
      cluster.quotas.findSome? (quotaRefuses spec (maxWorkersAtOnce spec.workload spec.scheduling)) = none := by
  have hworkers : maxWorkersAtOnce spec.workload spec.scheduling =
    if spec.scheduling.strategy = "keda" then spec.scheduling.maxWorkers else spec.workload.parallelism := rfl
  rw [quotasReady, ← hworkers]
  by_cases hempty : cluster.quotas = []
  · rw [hempty, List.isEmpty_nil, if_pos rfl]
    cases R.requireResourceQuota <;> simp
  · rw [if_neg (by simpa using hempty)]
    dsimp only
    split <;> rename_i hfound <;> simp [hfound, hempty]

theorem withinQuotas_of_available (h : (schedulingReady R cluster run spec).reason = "QuotaAvailable") :
    WithinQuotas cluster.quotas (checkedCharges spec) := by
  -- of all answers only the one after the loop over the quotas has that reason
  unfold schedulingReady at h
  split at h
  · exact absurd h (by decide)
  split at h
  · exact absurd h (by decide)
  split at h
  · exact absurd h (by decide)
  obtain ⟨-, hnone⟩ := quotasReady_available_iff.mp h
  intro quota hquota
  exact quotaRefuses_eq_none.mp (List.findSome?_eq_none_iff.mp hnone quota hquota)

/-- **Quota admission is sound exactly for the names it reads**: an admitted run keeps within every quota if and only if it
    does so under `cpu`, `memory` and `count/pods`. -/
theorem quota_admission_iff (R : Reconciler) (cluster : Cluster) (run : TestRun) (spec : AgentTestRunSpec)
    (h : (schedulingReady R cluster run spec).reason = "QuotaAvailable") :
    WithinQuotas cluster.quotas (charges spec) ↔ WithinQuotas cluster.quotas (uncheckedCharges spec) := by
  have hchecked := withinQuotas_of_available h
  constructor
  · intro hall quota hquota charge hcharge
    exact hall quota hquota charge (List.mem_append_right _ hcharge)
  · intro hunchecked quota hquota charge hcharge
    rcases List.mem_append.mp hcharge with hcharge | hcharge
    · exact hchecked quota hquota charge hcharge
    · exact hunchecked quota hquota charge hcharge

/-! ### A quota on `cpu` -/

/-- A namespace without children of the run, and with one quota. -/
def limitedCluster (resource : String) (hard : Int) : Cluster where
  configMaps _ := none
  secrets _ := none
  quotas := [⟨"compute", fun name => if name = resource then some hard else none, fun _ => none, fun _ => 0⟩]
  jobs _ := none
  scaledJobs _ := none
  hasKEDA := false

theorem schedulingReady_limitedCluster {resource : String} {hard : Int}
    (h : (limitedCluster resource hard).quotas.findSome? (quotaRefuses (scenarioRun "")
      (maxWorkersAtOnce (scenarioRun "").workload (scenarioRun "").scheduling)) = none) :
    (schedulingReady Reconciler.withoutSink (limitedCluster resource hard) demoRun (scenarioRun "")).reason =
      "QuotaAvailable" := by
  have hkeda : (scenarioRun "").scheduling.strategy ≠ "keda" := by decide
  have hchild : admitted Reconciler.withoutSink (limitedCluster resource hard) demoRun (scenarioRun "") = false := by
    rw [admitted, if_neg hkeda]
    rfl
  have hready : schedulingReady Reconciler.withoutSink (limitedCluster resource hard) demoRun (scenarioRun "") =
      quotasReady Reconciler.withoutSink (limitedCluster resource hard) (scenarioRun "") := by
    simp [schedulingReady, hkeda, hchild]
  rw [hready]
  exact quotasReady_available_iff.mpr ⟨List.cons_ne_nil _ _, h⟩

theorem quota_admission_pods :
    (schedulingReady Reconciler.withoutSink (limitedCluster "pods" (2 * unit)) demoRun (scenarioRun "")).reason =
        "QuotaAvailable" ∧
      WithinQuotas (limitedCluster "pods" (2 * unit)).quotas (charges (scenarioRun "")) := by
  have hready := schedulingReady_limitedCluster (by decide +kernel :
    (limitedCluster "pods" (2 * unit)).quotas.findSome? (quotaRefuses (scenarioRun "")
      (maxWorkersAtOnce (scenarioRun "").workload (scenarioRun "").scheduling)) = none)
  refine ⟨hready, (quota_admission_iff _ _ _ _ hready).mpr ?_⟩
  intro quota hquota charge hcharge hard hhard
  rw [List.mem_singleton.mp hquota] at hhard
  have hname : charge.resource ≠ "pods" := by
    have hnames : ∀ c ∈ uncheckedCharges (scenarioRun ""), c.resource ≠ "pods" := by decide +kernel
    exact hnames charge hcharge
  simp [ResourceQuota.hard, hname] at hhard

/-- One hundredth of a core is all the namespace has, and the run is admitted. -/
theorem quota_admission_cpu :
    validateAndDefaultWithScheduler Reconciler.withoutSink.libraries Reconciler.withoutSink.scheduler demoRun.spec =
        .ok (scenarioRun "") ∧
      (limitedCluster "cpu" (10 * milli)).jobs (Reconciler.withoutSink.childName demoRun.metadata "worker") = none ∧
      (schedulingReady Reconciler.withoutSink (limitedCluster "cpu" (10 * milli)) demoRun (scenarioRun "")).reason =
        "QuotaAvailable" ∧
      ¬WithinQuotas (limitedCluster "cpu" (10 * milli)).quotas (charges (scenarioRun "")) := by
  refine ⟨valid_demoRun, rfl, schedulingReady_limitedCluster (by decide +kernel), fun h => ?_⟩
  have hcharge : ∃ charge ∈ charges (scenarioRun ""), charge.resource = "cpu" ∧ 10 * milli < charge.amount := by
    decide +kernel
  obtain ⟨charge, hmem, hname, hamount⟩ := hcharge
  have hfits := h _ (List.mem_singleton_self _) charge hmem (10 * milli) (by rw [hname]; rfl)
  have hused : 0 + charge.amount ≤ 10 * milli := hfits
  omega

end AgentStorm.Controller
