import AgentStorm.Controller.Progress
import AgentStorm.Results.Sound

/-!
# `Controller.Snapshots` — the scenario of a run does not drift

A call of `Reconcile` takes the snapshot, from the ConfigMap it generated earlier or else from the
source, writes the configuration and registers the run. Here these are three steps, so that anything
may happen between them: the source changes, the controller crashes, the Result API serves others. The
invariant (`Steady`) is that there is one snapshot once the generated ConfigMap exists, and that
everything later comes from it.
-/

namespace AgentStorm.Controller

open Checks Machine Relational Results

/-! ## The steps of a call -/

/-- How far a call has come. -/
inductive Stage
  | idle
  | snapshotted (scenario : Option Snapshot)
  | configured (scenario : Option Snapshot)

structure World where
  cluster : Cluster
  stage : Stage
  /-- The registrations that were sent, with the answers, newest first. -/
  registered : List (Registration × Except ApiError Answer)
  db : Db

inductive Move
  /-- Anything happens in the namespace. -/
  | edit (env : Cluster → Cluster)
  /-- The call takes the snapshot. -/
  | snapshot
  /-- It writes the configuration. -/
  | configure
  /-- It registers the run; `t` gives the times of the transaction. -/
  | register (now wall : Time)
  /-- The call ends, here or by a crash. -/
  | stop
  /-- The Result API serves someone else. -/
  | serve (t : Txn)

/-- What stays the same over all calls: the controller, the run, its spec with the defaults, and the limits of the API. -/
structure Setting where
  R : Reconciler
  policy : LimitPolicy
  run : TestRun
  spec : AgentTestRunSpec

namespace Setting

variable (S : Setting)

def generatedName : String := S.R.childName S.run.metadata "config"

def registration (scenario : Option Snapshot) : Registration := buildResultRegistration S.run.metadata S.spec scenario

def register (now wall : Time) (scenario : Option Snapshot) : Txn :=
  ⟨.registerRun S.run.metadata.uid (registrationKey S.run.metadata.uid) (S.registration scenario), now, wall⟩

def api : Transactional Db Txn Answer ApiError := Results.machine S.R.platform S.policy

def move (w : World) : Move → World
  | .edit env => { w with cluster := env w.cluster }
  | .snapshot =>
    match w.stage, scenarioSnapshot S.R w.cluster S.run S.spec with
    | .idle, (scenario, check) => if check.ready then { w with stage := .snapshotted scenario } else w
    | _, _ => w
  | .configure =>
    match w.stage with
    | .snapshotted scenario =>
      match ensureWorkerConfig S.R w.cluster S.run S.spec scenario with
      | some cluster => { w with cluster, stage := .configured scenario }
      | none => { w with stage := .idle }
    | _ => w
  | .register now wall =>
    match w.stage with
    | .configured scenario =>
      { w with
        registered := (S.registration scenario, S.api.answer w.db (S.register now wall scenario)) :: w.registered
        db := S.api.step w.db (S.register now wall scenario) }
    | _ => w
  | .stop => { w with stage := .idle }
  | .serve t => { w with db := S.api.step w.db t }

def moves : World → List Move → World := List.foldl S.move

/-- Only the controller writes the generated ConfigMap, and only it registers the run. -/
def Allowed : Move → Prop
  | .edit env => ∀ cluster, (env cluster).configMaps S.generatedName = cluster.configMaps S.generatedName
  | .serve t => ∀ key registration, t.op ≠ .registerRun S.run.metadata.uid key registration
  | _ => True

/-- The ConfigMap that the controller generates for a snapshot. -/
def generated (snapshot : Snapshot) : ConfigMap :=
  ⟨some S.run.metadata.uid, [(workerConfigKey, S.R.codec.marshal (workerRunConfig S.run.metadata S.spec (some snapshot)))], []⟩

/-- The run refers to a scenario. -/
def Refers : Prop := ∃ ref, S.spec.reliability.bind (·.scenarioRef) = some ref

end Setting

/-! ## One snapshot -/

variable {S : Setting} {w : World} {snapshot : Snapshot}

theorem Setting.Refers.reliability (h : S.Refers) : ∃ r, S.spec.reliability = some r := by
  obtain ⟨_, href⟩ := h
  obtain ⟨r, hr, -⟩ := Option.bind_eq_some_iff.mp href
  exact ⟨r, hr⟩

/-- The scenario of the registration is the snapshot. -/
theorem Setting.Refers.registered (h : S.Refers) :
    ((S.registration (some snapshot)).reliability.bind (·.scenario)) =
      some ⟨⟨snapshot.sourceName, snapshot.sourceKey⟩, snapshot.digest, snapshot.scenario⟩ := by
  obtain ⟨r, hr⟩ := h.reliability
  simp only [Setting.registration, buildResultRegistration, hr]
  rfl

/-- The snapshot is found again in the ConfigMap that was generated from it. -/
theorem generatedScenario_generated (h : S.Refers)
    (hcm : w.cluster.configMaps S.generatedName = some (S.generated snapshot)) :
    generatedScenario S.R w.cluster S.run = some snapshot := by
  obtain ⟨r, hr⟩ := h.reliability
  have hcm' : w.cluster.configMaps (S.R.childName S.run.metadata "config") = some (S.generated snapshot) := hcm
  have hpayload := S.R.codec.marshal_ne_nil (workerRunConfig S.run.metadata S.spec (some snapshot))
  have hread : S.R.codec.scenario? (S.R.codec.marshal (workerRunConfig S.run.metadata S.spec (some snapshot))) =
      some snapshot := by
    rw [S.R.codec.scenario?_marshal]
    simp [workerRunConfig, hr]
  have hfilter : (some (S.R.codec.marshal (workerRunConfig S.run.metadata S.spec (some snapshot)))).filter
      (fun payload => !payload.isEmpty) = some (S.R.codec.marshal (workerRunConfig S.run.metadata S.spec (some snapshot))) := by
    rw [Option.filter_some, if_pos]
    simpa using hpayload
  simp [generatedScenario, hcm', Setting.generated, hfilter, hread]

theorem scenarioSnapshot_generated (h : S.Refers)
    (hcm : w.cluster.configMaps S.generatedName = some (S.generated snapshot)) :
    (scenarioSnapshot S.R w.cluster S.run S.spec).1 = some snapshot := by
  obtain ⟨ref, href⟩ := h
  simp [scenarioSnapshot, href, generatedScenario_generated ⟨ref, href⟩ hcm]

/-- A run that refers to a scenario never goes on without one. -/
theorem scenarioSnapshot_isSome (h : S.Refers) (hready : (scenarioSnapshot S.R w.cluster S.run S.spec).2.ready = true) :
    ∃ snapshot, (scenarioSnapshot S.R w.cluster S.run S.spec).1 = some snapshot := by
  obtain ⟨ref, href⟩ := h
  simp only [scenarioSnapshot, href] at hready ⊢
  cases hgenerated : generatedScenario S.R w.cluster S.run with
  | some snapshot => exact ⟨snapshot, rfl⟩
  | none =>
    simp only [hgenerated] at hready ⊢
    unfold sourceScenario at hready ⊢
    cases hsource : w.cluster.configMaps ref.name with
    | none => simp [hsource] at hready
    | some source =>
      simp only [hsource] at hready ⊢
      cases hpayload : (source.data.lookup ref.key).or (source.binaryData.lookup ref.key) with
      | none => simp [hpayload] at hready
      | some payload =>
        simp only [hpayload] at hready ⊢
        cases hparse : parseScenario S.R.platform payload with
        | error => simp [hparse] at hready
        | ok => exact ⟨_, rfl⟩

/-- Writing the configuration again changes nothing. -/
theorem ensureWorkerConfig_generated (hcm : w.cluster.configMaps S.generatedName = some (S.generated snapshot)) :
    ensureWorkerConfig S.R w.cluster S.run S.spec (some snapshot) = some w.cluster := by
  have hcm' : w.cluster.configMaps (S.R.childName S.run.metadata "config") = some (S.generated snapshot) := hcm
  simp [ensureWorkerConfig, hcm', Setting.generated]

/-- The first time it creates the ConfigMap. -/
theorem ensureWorkerConfig_first (hnone : w.cluster.configMaps S.generatedName = none) :
    ∃ cluster, ensureWorkerConfig S.R w.cluster S.run S.spec (some snapshot) = some cluster ∧
      cluster.configMaps S.generatedName = some (S.generated snapshot) := by
  have hnone' : w.cluster.configMaps (S.R.childName S.run.metadata "config") = none := hnone
  refine ⟨_, by rw [ensureWorkerConfig, hnone'], ?_⟩
  exact putAt_self _ _ _

/-! ## The Result API -/

/-- After a transaction every run is one that was there, or the one that it registered. -/
theorem run_back_step {t : Txn} {db : Db} {r' : RunRow} (hr' : r' ∈ (S.api.step db t).runs) :
    (∃ r ∈ db.runs, SameRun r r') ∨
      ∃ key registration, t.op = .registerRun r'.id key registration ∧
        r'.registrationHash = S.R.platform.registrationHash registration := by
  rcases Transactional.step_cases (M := S.api) db t with hsame | ⟨a, _, hexec, hstep⟩
  · rw [hsame] at hr'
    exact .inl ⟨r', hr', SameRun.refl r'⟩
  · rw [hstep] at hr'
    rcases (commit_of_exec hexec).run_back hr' with hold | ⟨_, registration, hop, -, rfl, -⟩
    · exact .inl hold
    · exact .inr ⟨_, registration, hop, rfl⟩

/-- A registration is refused as a conflict only because of a run with the same id and another hash. -/
theorem registerRun_ne_conflict {P : Platform} {now : Time} {runID hash : String} {registration : Registration} {db : Db}
    (hsound : Sound P db) (hrun : ∀ r ∈ db.runs, r.id = runID → r.registrationHash = hash) :
    registerRun now runID (registrationKey runID) hash registration db ≠ .error .conflict := by
  intro hconflict
  have hfails : FailsOnly (fun err => err ≠ .conflict)
      (registerRun now runID (registrationKey runID) hash registration db) := by
    refine (failsOnly_reject fun _ => by decide).bind fun _ _ => (failsOnly_reject fun _ => by decide).bind fun _ _ => ?_
    refine (failsOnly_reject fun _ => by decide).bind fun _ _ => ?_
    split
    · exact failsOnly_ok _
    · refine FailsOnly.bind (failsOnly_orElse (by decide)) fun existing hexisting => ?_
      refine (failsOnly_reject fun hbad => ?_).bind fun _ _ => failsOnly_ok _
      -- The row that was found has this id, whichever of the two keys it was found by.
      obtain ⟨hmem, hmatch⟩ := Table.mem_of_first? (orElse_eq_ok.mp hexisting)
      have hkey := (hsound.runs existing hmem).key
      have hid : existing.id = runID := by
        rcases of_decide_eq_true hmatch with hid | hkey'
        · exact hid
        · exact registrationKey_injective (hkey.symm.trans hkey')
      have hhash := hrun existing hmem hid
      rw [decide_eq_true_iff, hkey, hid, hhash] at hbad
      simp at hbad
  exact hfails _ hconflict rfl

theorem answer_register_ne_conflict {now wall : Time} {db : Db} (hsound : Sound S.R.platform db)
    (hrun : ∀ r ∈ db.runs, r.id = S.run.metadata.uid →
      r.registrationHash = S.R.platform.registrationHash (S.registration (some snapshot))) :
    S.api.answer db (S.register now wall (some snapshot)) ≠ .error .conflict := by
  intro hanswer
  have hservice : serviceRegisterRun S.R.platform now S.run.metadata.uid (registrationKey S.run.metadata.uid)
      (S.registration (some snapshot)) db = .error .conflict := by
    have hexec : S.api.answer db (S.register now wall (some snapshot)) =
        (answering .registered (serviceRegisterRun S.R.platform now S.run.metadata.uid
          (registrationKey S.run.metadata.uid) (S.registration (some snapshot))) db).map Prod.fst := rfl
    rw [hexec, answering] at hanswer
    cases hservice : serviceRegisterRun S.R.platform now S.run.metadata.uid (registrationKey S.run.metadata.uid)
        (S.registration (some snapshot)) db with
    | ok r =>
      rw [hservice] at hanswer
      cases hanswer
    | error err =>
      rw [hservice] at hanswer
      cases hanswer
      rfl
  have hfails : FailsOnly (fun err => err ≠ .conflict) (serviceRegisterRun S.R.platform now S.run.metadata.uid
      (registrationKey S.run.metadata.uid) (S.registration (some snapshot)) db) := by
    refine FailsOnly.bind (fun err herr => ?_) fun _ _ => ?_
    · obtain ⟨m, rfl⟩ := failsOnly_validateRegistration err herr
      exact fun h => by cases h
    · intro err herr hconflict
      subst hconflict
      exact registerRun_ne_conflict hsound hrun herr
  exact hfails _ hservice rfl

/-! ## The invariant -/

variable {cm : ConfigMap}

/-- Before the ConfigMap is generated nothing was registered; from then on there is one snapshot. -/
inductive Steady (S : Setting) (w : World) : Prop
  | fresh (hnone : w.cluster.configMaps S.generatedName = none)
      (hconfigured : ∀ scenario, w.stage ≠ .configured scenario)
      (hsnapshotted : ∀ scenario, w.stage = .snapshotted scenario → ∃ snapshot, scenario = some snapshot)
      (hregistered : w.registered = []) (hrun : ∀ r ∈ w.db.runs, r.id ≠ S.run.metadata.uid)
  | fixed (snapshot : Snapshot) (hcm : w.cluster.configMaps S.generatedName = some (S.generated snapshot))
      (hconfigured : ∀ scenario, w.stage = .configured scenario → scenario = some snapshot)
      (hsnapshotted : ∀ scenario, w.stage = .snapshotted scenario → scenario = some snapshot)
      (hregistered : ∀ entry ∈ w.registered,
        entry.1 = S.registration (some snapshot) ∧ entry.2 ≠ .error .conflict)
      (hrun : ∀ r ∈ w.db.runs, r.id = S.run.metadata.uid →
        r.registrationHash = S.R.platform.registrationHash (S.registration (some snapshot)))

theorem Steady.edit {env : Cluster → Cluster} (h : Steady S w) (hallowed : S.Allowed (.edit env)) :
    Steady S (S.move w (.edit env)) := by
  cases h with
  | fresh hnone hconfigured hsnapshotted hregistered hrun =>
    exact .fresh ((hallowed w.cluster).trans hnone) hconfigured hsnapshotted hregistered hrun
  | fixed snapshot hcm hconfigured hsnapshotted hregistered hrun =>
    exact .fixed snapshot ((hallowed w.cluster).trans hcm) hconfigured hsnapshotted hregistered hrun

theorem Steady.stop (h : Steady S w) : Steady S { w with stage := .idle } := by
  cases h with
  | fresh hnone _ _ hregistered hrun =>
    exact .fresh hnone (fun _ h => by cases h) (fun _ h => by cases h) hregistered hrun
  | fixed snapshot hcm _ _ hregistered hrun =>
    exact .fixed snapshot hcm (fun _ h => by cases h) (fun _ h => by cases h) hregistered hrun

theorem Steady.takeSnapshot (h : Steady S w) (hrefers : S.Refers) : Steady S (S.move w .snapshot) := by
  cases hstage : w.stage with
  | snapshotted => simpa only [Setting.move, hstage] using h
  | configured => simpa only [Setting.move, hstage] using h
  | idle =>
    cases hready : (scenarioSnapshot S.R w.cluster S.run S.spec).2.ready with
    | false => simpa only [Setting.move, hstage, hready, Bool.false_eq_true, if_false] using h
    | true =>
      have hmove : S.move w .snapshot =
          { w with stage := .snapshotted (scenarioSnapshot S.R w.cluster S.run S.spec).1 } := by
        simp [Setting.move, hstage, hready]
      rw [hmove]
      cases h with
      | fresh hnone _ _ hregistered hrun =>
        refine .fresh hnone (fun _ h => by cases h) (fun scenario h => ?_) hregistered hrun
        cases h
        exact scenarioSnapshot_isSome hrefers hready
      | fixed snapshot hcm _ _ hregistered hrun =>
        refine .fixed snapshot hcm (fun _ h => by cases h) (fun scenario h => ?_) hregistered hrun
        cases h
        exact scenarioSnapshot_generated hrefers hcm

theorem Steady.configure (h : Steady S w) : Steady S (S.move w .configure) := by
  cases hstage : w.stage with
  | idle => simpa only [Setting.move, hstage] using h
  | configured => simpa only [Setting.move, hstage] using h
  | snapshotted scenario =>
    cases h with
    | fresh hnone _ hsnapshotted hregistered hrun =>
      obtain ⟨snapshot, rfl⟩ := hsnapshotted scenario hstage
      obtain ⟨_, hwrite, hcm⟩ := @ensureWorkerConfig_first S w snapshot hnone
      simp only [Setting.move, hstage, hwrite]
      refine .fixed snapshot hcm (fun _ h => by cases h; rfl) (fun _ h => by cases h) ?_ ?_
      · rw [hregistered]
        exact List.forall_mem_nil _
      · exact fun r hr hid => absurd hid (hrun r hr)
    | fixed snapshot hcm _ hsnapshotted hregistered hrun =>
      cases hsnapshotted scenario hstage
      simp only [Setting.move, hstage, ensureWorkerConfig_generated hcm]
      exact .fixed snapshot hcm (fun _ h => by cases h; rfl) (fun _ h => by cases h) hregistered hrun

theorem Steady.register {now wall : Time} (h : Steady S w) (hsound : Sound S.R.platform w.db) :
    Steady S (S.move w (.register now wall)) := by
  cases hstage : w.stage with
  | idle => simpa only [Setting.move, hstage] using h
  | snapshotted => simpa only [Setting.move, hstage] using h
  | configured scenario =>
    cases h with
    | fresh _ hconfigured => exact absurd hstage (hconfigured scenario)
    | fixed snapshot hcm hconfigured _ hregistered hrun =>
      cases hconfigured scenario hstage
      simp only [Setting.move, hstage]
      refine .fixed snapshot hcm (fun _ h => by cases h; rfl) (fun _ h => by cases h) ?_ fun r' hr' hid => ?_
      · exact List.forall_mem_cons.mpr ⟨⟨rfl, answer_register_ne_conflict hsound hrun⟩, hregistered⟩
      · rcases run_back_step hr' with ⟨r, hr, hsame⟩ | ⟨_, _, hop, hhash⟩
        · rw [hsame.hash_eq]
          exact hrun r hr (hsame.id_eq.symm.trans hid)
        · obtain ⟨-, -, rfl⟩ := Op.registerRun.inj hop
          exact hhash

theorem Steady.serve {t : Txn} (h : Steady S w) (hallowed : S.Allowed (.serve t)) : Steady S (S.move w (.serve t)) := by
  -- A row of this run is one that was there: nobody else registers it.
  have hback : ∀ r' ∈ (S.api.step w.db t).runs, r'.id = S.run.metadata.uid → ∃ r ∈ w.db.runs, SameRun r r' := by
    intro r' hr' hid
    rcases run_back_step hr' with hold | ⟨key, registration, hop, -⟩
    · exact hold
    · rw [hid] at hop
      exact absurd hop (hallowed key registration)
  cases h with
  | fresh hnone hconfigured hsnapshotted hregistered hrun =>
    refine .fresh hnone hconfigured hsnapshotted hregistered fun r' hr' hid => ?_
    obtain ⟨r, hr, hsame⟩ := hback r' hr' hid
    exact hrun r hr (hsame.id_eq.symm.trans hid)
  | fixed snapshot hcm hconfigured hsnapshotted hregistered hrun =>
    refine .fixed snapshot hcm hconfigured hsnapshotted hregistered fun r' hr' hid => ?_
    obtain ⟨r, hr, hsame⟩ := hback r' hr' hid
    rw [hsame.hash_eq]
    exact hrun r hr (hsame.id_eq.symm.trans hid)

/-- **One step** keeps the invariant. -/
theorem Steady.move {m : Move} (h : Steady S w) (hsound : Sound S.R.platform w.db) (hrefers : S.Refers)
    (hallowed : S.Allowed m) : Steady S (S.move w m) := by
  cases m with
  | edit => exact h.edit hallowed
  | snapshot => exact h.takeSnapshot hrefers
  | configure => exact h.configure
  | register => exact h.register hsound
  | stop => exact h.stop
  | serve => exact h.serve hallowed

theorem sound_move {m : Move} (h : Sound S.R.platform w.db) : Sound S.R.platform (S.move w m).db := by
  cases m with
  | edit => exact h
  | stop => exact h
  | serve => exact h.step
  | snapshot =>
    unfold Setting.move
    dsimp only
    split
    · split <;> exact h
    · exact h
  | configure =>
    unfold Setting.move
    dsimp only
    split
    · split <;> exact h
    · exact h
  | register =>
    unfold Setting.move
    dsimp only
    split
    · exact h.step
    · exact h

/-- The generated ConfigMap is never changed. -/
theorem generated_move {m : Move} (h : Steady S w) (hallowed : S.Allowed m)
    (hcm : w.cluster.configMaps S.generatedName = some cm) :
    (S.move w m).cluster.configMaps S.generatedName = some cm := by
  cases m with
  | edit => exact (hallowed w.cluster).trans hcm
  | stop => exact hcm
  | serve => exact hcm
  | snapshot =>
    unfold Setting.move
    dsimp only
    split
    · split <;> exact hcm
    · exact hcm
  | register =>
    unfold Setting.move
    dsimp only
    split <;> exact hcm
  | configure =>
    cases hstage : w.stage with
    | idle => simpa only [Setting.move, hstage] using hcm
    | configured => simpa only [Setting.move, hstage] using hcm
    | snapshotted scenario =>
      cases h with
      | fresh hnone =>
        rw [hnone] at hcm
        cases hcm
      | fixed _ hcm' _ hsnapshotted =>
        cases hsnapshotted scenario hstage
        simpa only [Setting.move, hstage, ensureWorkerConfig_generated hcm'] using hcm

/-! ## A whole call -/

section Calls

variable {cancel : Bool} {status : AgentTestRunStatus} {api : ResultAPI}

/-- A call of `Reconcile` does to the ConfigMaps what none of the steps or the first two of them do. -/
theorem reconcile_configMaps
    (hvalid : validateAndDefaultWithScheduler S.R.libraries S.R.scheduler S.run.spec = .ok S.spec) (hstage : w.stage = .idle) :
    (reconcile S.R w.cluster { S.run with cancel, status } api).1.configMaps = w.cluster.configMaps ∨
      (reconcile S.R w.cluster { S.run with cancel, status } api).1.configMaps =
        (S.moves w [.snapshot, .configure]).cluster.configMaps := by
  rcases reconcile_cluster_cases S.R w.cluster { S.run with cancel, status } api with
    hsame | ⟨-, hcancel | hdelete⟩ | ⟨spec, configured, hspec, hready, hwrite, hchild⟩
  · exact .inl (by rw [hsame])
  · exact .inl (by rw [hcancel]; rfl)
  · exact .inl (by rw [hdelete]; rfl)
  · cases hvalid.symm.trans hspec
    have hmoves : (S.moves w [.snapshot, .configure]).cluster = configured := by
      -- neither of the two steps reads the status or the cancellation
      have hready' : (scenarioSnapshot S.R w.cluster S.run S.spec).2.ready = true :=
        (scenario_ready_of_readiness_ok hready :)
      have hwrite' : ensureWorkerConfig S.R w.cluster S.run S.spec (scenarioSnapshot S.R w.cluster S.run S.spec).1 =
        some configured := hwrite
      simp [Setting.moves, Setting.move, hstage, hready', hwrite']
    rw [hmoves]
    refine .inr ?_
    rcases hchild with hsame | hjob | hscaled
    · rw [hsame]
    · rw [hjob]
      exact configMaps_ensureJob
    · exact configMaps_ensureScaledJob hscaled

/-- So the steps lead to the cluster that the call leaves, the rest of which is no concern of theirs. -/
theorem exists_moves_reconcile
    (hvalid : validateAndDefaultWithScheduler S.R.libraries S.R.scheduler S.run.spec = .ok S.spec) (hstage : w.stage = .idle) :
    ∃ ms, (∀ m ∈ ms, S.Allowed m) ∧ (S.moves w ms).stage = .idle ∧
      (S.moves w ms).cluster = (reconcile S.R w.cluster { S.run with cancel, status } api).1 := by
  set after := (reconcile S.R w.cluster { S.run with cancel, status } api).1 with hafter
  let settle : Move := .edit fun cluster => { after with configMaps := cluster.configMaps }
  have hsettle : S.Allowed settle := fun _ => rfl
  have hsettled (w : World) (h : after.configMaps = w.cluster.configMaps) : (S.move w settle).cluster = after := by
    change { after with configMaps := w.cluster.configMaps } = after
    rw [← h]
  rcases @reconcile_configMaps S w cancel status api hvalid hstage with hsame | hmoved
  · refine ⟨[settle], List.forall_mem_singleton.mpr hsettle, hstage, hsettled w hsame⟩
  · refine ⟨[.snapshot, .configure, settle, .stop], ?_, rfl, hsettled _ hmoved⟩
    simp only [List.forall_mem_cons]
    exact ⟨trivial, trivial, hsettle, trivial, List.forall_mem_nil _⟩

end Calls

/-- A call for the run at some later time, after changes in the namespace. -/
structure Visit where
  env : Cluster → Cluster
  cancel : Bool
  status : AgentTestRunStatus
  api : ResultAPI

def Setting.visits (S : Setting) : Cluster → List Visit → Cluster :=
  List.foldl fun cluster v =>
    (reconcile S.R (v.env cluster) { S.run with cancel := v.cancel, status := v.status } v.api).1

/-- Calls one after the other are steps one after the other. -/
theorem exists_moves_visits
    (hvalid : validateAndDefaultWithScheduler S.R.libraries S.R.scheduler S.run.spec = .ok S.spec) (hstage : w.stage = .idle)
    {vs : List Visit} (hallowed : ∀ v ∈ vs, S.Allowed (.edit v.env)) :
    ∃ ms, (∀ m ∈ ms, S.Allowed m) ∧ (S.moves w ms).stage = .idle ∧
      (S.moves w ms).cluster = S.visits w.cluster vs := by
  induction vs generalizing w with
  | nil => exact ⟨[], List.forall_mem_nil _, hstage, rfl⟩
  | cons v vs ih =>
    rw [List.forall_mem_cons] at hallowed
    obtain ⟨call, hcall, hidle, hcluster⟩ :=
      @exists_moves_reconcile S (S.move w (.edit v.env)) v.cancel v.status v.api hvalid hstage
    obtain ⟨ms, hms, hend, hvisits⟩ := ih hidle hallowed.2
    refine ⟨.edit v.env :: (call ++ ms), ?_, ?_, ?_⟩
    · exact List.forall_mem_cons.mpr ⟨hallowed.1, List.forall_mem_append.mpr ⟨hcall, hms⟩⟩
    · change (List.foldl S.move (S.move w (.edit v.env)) (call ++ ms)).stage = .idle
      rw [List.foldl_append]
      exact hend
    · change (List.foldl S.move (S.move w (.edit v.env)) (call ++ ms)).cluster = _
      rw [List.foldl_append]
      refine hvisits.trans ?_
      rw [hcluster]
      rfl

/-! ## Every run of steps -/

/-- Nothing was done for the run yet. -/
structure World.Untried (w : World) (S : Setting) : Prop where
  generated : w.cluster.configMaps S.generatedName = none
  stage : w.stage = .idle
  registered : w.registered = []
  unknown : ∀ r ∈ w.db.runs, r.id ≠ S.run.metadata.uid
  sound : Sound S.R.platform w.db

theorem World.Untried.steady (h : w.Untried S) : Steady S w :=
  .fresh h.generated (fun scenario hstage => by rw [h.stage] at hstage; cases hstage)
    (fun scenario hstage => by rw [h.stage] at hstage; cases hstage) h.registered h.unknown

theorem steady_moves {ms : List Move} (h : Steady S w) (hsound : Sound S.R.platform w.db) (hrefers : S.Refers)
    (hallowed : ∀ m ∈ ms, S.Allowed m) : Steady S (S.moves w ms) ∧ Sound S.R.platform (S.moves w ms).db := by
  induction ms generalizing w with
  | nil => exact ⟨h, hsound⟩
  | cons m ms ih =>
    rw [List.forall_mem_cons] at hallowed
    exact ih (h.move hsound hrefers hallowed.1) (sound_move hsound) hallowed.2

theorem generated_moves {ms : List Move} (h : Steady S w) (hsound : Sound S.R.platform w.db)
    (hrefers : S.Refers) (hallowed : ∀ m ∈ ms, S.Allowed m)
    (hcm : w.cluster.configMaps S.generatedName = some cm) :
    (S.moves w ms).cluster.configMaps S.generatedName = some cm := by
  induction ms generalizing w with
  | nil => exact hcm
  | cons m ms ih =>
    rw [List.forall_mem_cons] at hallowed
    exact ih (h.move hsound hrefers hallowed.1) (sound_move hsound) hallowed.2 (generated_move h hallowed.1 hcm)

/-- **Snapshots do not drift.** After any steps, the registrations that were sent are one and the same; its scenario is the
    one in the generated configuration; none was answered with a conflict; and whatever steps follow, the generated
    ConfigMap stays as it is. -/
theorem snapshots_steady {past rest : List Move} (huntried : w.Untried S) (hrefers : S.Refers)
    (hallowed : ∀ m ∈ past ++ rest, S.Allowed m) :
    (∀ entry ∈ (S.moves w past).registered, ∃ snapshot,
      generatedScenario S.R (S.moves w past).cluster S.run = some snapshot ∧ entry.1 = S.registration (some snapshot) ∧
        (entry.1.reliability.bind (·.scenario)) =
          some ⟨⟨snapshot.sourceName, snapshot.sourceKey⟩, snapshot.digest, snapshot.scenario⟩) ∧
    (∀ entry ∈ (S.moves w (past ++ rest)).registered, ∀ entry' ∈ (S.moves w (past ++ rest)).registered,
      entry.1 = entry'.1) ∧
    (∀ entry ∈ (S.moves w (past ++ rest)).registered, entry.2 ≠ .error .conflict) ∧
    ∀ cm, (S.moves w past).cluster.configMaps S.generatedName = some cm →
      (S.moves w (past ++ rest)).cluster.configMaps S.generatedName = some cm := by
  obtain ⟨hpast, hrest⟩ := List.forall_mem_append.mp hallowed
  obtain ⟨hsteady, hsound⟩ := steady_moves huntried.steady huntried.sound hrefers hpast
  obtain ⟨hend, -⟩ := steady_moves huntried.steady huntried.sound hrefers hallowed
  refine ⟨fun entry hentry => ?_, fun entry hentry entry' hentry' => ?_, fun entry hentry => ?_, fun cm hcm => ?_⟩
  · cases hsteady with
    | fresh _ _ _ hregistered =>
      rw [hregistered] at hentry
      cases hentry
    | fixed snapshot hcm _ _ hregistered =>
      have hentry := (hregistered entry hentry).1
      exact ⟨snapshot, generatedScenario_generated hrefers hcm, hentry, hentry ▸ hrefers.registered⟩
  · cases hend with
    | fresh _ _ _ hregistered =>
      rw [hregistered] at hentry
      cases hentry
    | fixed _ _ _ _ hregistered => exact (hregistered entry hentry).1.trans (hregistered entry' hentry').1.symm
  · cases hend with
    | fresh _ _ _ hregistered =>
      rw [hregistered] at hentry
      cases hentry
    | fixed _ _ _ _ hregistered => exact (hregistered entry hentry).2
  · have hsplit : S.moves w (past ++ rest) = S.moves (S.moves w past) rest := List.foldl_append
    rw [hsplit]
    exact generated_moves hsteady hsound hrefers hrest hcm

/-- **The configuration of a run is written once.** Whatever calls of `Reconcile` follow, whatever they are answered and
    whatever happens between them, the ConfigMap that the first of them generated stays as it is. -/
theorem generated_visits (huntried : w.Untried S) (hrefers : S.Refers)
    (hvalid : validateAndDefaultWithScheduler S.R.libraries S.R.scheduler S.run.spec = .ok S.spec)
    {past rest : List Visit} (hallowed : ∀ v ∈ past ++ rest, S.Allowed (.edit v.env))
    (hcm : (S.visits w.cluster past).configMaps S.generatedName = some cm) :
    (S.visits w.cluster (past ++ rest)).configMaps S.generatedName = some cm ∧ ∃ snapshot, cm = S.generated snapshot := by
  obtain ⟨hpast, hrest⟩ := List.forall_mem_append.mp hallowed
  obtain ⟨ms, hms, hidle, hcluster⟩ := exists_moves_visits hvalid huntried.stage hpast
  obtain ⟨_, hms', -, hcluster'⟩ := exists_moves_visits hvalid hidle hrest
  obtain ⟨hsteady, hsound⟩ := steady_moves huntried.steady huntried.sound hrefers hms
  rw [← hcluster] at hcm
  have hlater := generated_moves hsteady hsound hrefers hms' hcm
  have hvisits : S.visits w.cluster (past ++ rest) = S.visits (S.visits w.cluster past) rest := List.foldl_append
  rw [hcluster', hcluster, ← hvisits] at hlater
  refine ⟨hlater, ?_⟩
  cases hsteady with
  | fresh hnone => cases hnone.symm.trans hcm
  | fixed snapshot hcm' => exact ⟨snapshot, Option.some.inj (hcm.symm.trans hcm')⟩

/-! ## A source that is deleted -/

/-- The controller that registers its runs. -/
noncomputable def Reconciler.withSink : Reconciler :=
  { Reconciler.withoutSink with resultSink := ⟨"https://results", "results", "token", false, false, 10⟩ }

/-- Where the results go has no part in the snapshot. -/
theorem scenarioSnapshot_resultSink (R : Reconciler) (sink : ResultSinkConfig) (cluster : Cluster) (run : TestRun)
    (spec : AgentTestRunSpec) :
    scenarioSnapshot { R with resultSink := sink } cluster run spec = scenarioSnapshot R cluster run spec :=
  rfl

noncomputable def demoSetting : Setting := ⟨Reconciler.withSink, .unlimited, demoRun, scenarioRun ""⟩

def demoWorld : World := ⟨demoCluster demoSources [], .idle, [], Db.empty⟩

theorem untried_demoWorld : demoWorld.Untried demoSetting where
  generated := by
    have hname : demoSetting.generatedName = "demo-config" := configName_demoRun
    rw [hname]
    rfl
  stage := rfl
  registered := rfl
  unknown _ h := absurd h Table.not_mem_empty
  sound := sound_empty

/-- The first call registers the run, also where the source is gone before the configuration is written. -/
theorem registered_demoWorld (env : Cluster → Cluster) (henv : demoSetting.Allowed (.edit env)) :
    ∃ answer, (demoSetting.moves demoWorld [.snapshot, .edit env, .configure, .register 0 0]).registered =
      [(demoSetting.registration (some scenarioRunSnapshot), answer)] := by
  have hsnapshot : scenarioSnapshot demoSetting.R demoWorld.cluster demoSetting.run demoSetting.spec =
      (some scenarioRunSnapshot, ⟨true, "Available", "fault scenario is valid and ready to snapshot"⟩) :=
    (scenarioSnapshot_resultSink Reconciler.withoutSink _ _ _ _).trans (scenarioSnapshot_demoCluster [])
  have hnone : (env demoWorld.cluster).configMaps demoSetting.generatedName = none :=
    (henv demoWorld.cluster).trans untried_demoWorld.generated
  obtain ⟨cluster, hwrite, -⟩ := @ensureWorkerConfig_first demoSetting { demoWorld with cluster := env demoWorld.cluster }
    scenarioRunSnapshot hnone
  have hidle : demoWorld.stage = .idle := rfl
  have hempty : demoWorld.registered = [] := rfl
  simp only [Setting.moves, List.foldl_cons, List.foldl_nil, Setting.move, hidle, hsnapshot, if_true, hwrite, hempty]
  exact ⟨_, rfl⟩

/-- The source is deleted between the steps of the first call, and the controller crashes before the second. -/
theorem snapshots_demoRun :
    let deletion : Move := .edit fun c => { c with configMaps := putAt c.configMaps "faults" none }
    let after := demoSetting.moves demoWorld [.snapshot, deletion, .configure, .register 0 0]
    ∃ entry ∈ after.registered,
      ∃ snapshot, generatedScenario demoSetting.R after.cluster demoSetting.run = some snapshot ∧
        entry.1 = demoSetting.registration (some snapshot) ∧
        (entry.1.reliability.bind (·.scenario)) =
          some ⟨⟨snapshot.sourceName, snapshot.sourceKey⟩, snapshot.digest, snapshot.scenario⟩ := by
  intro deletion after
  have hname : demoSetting.generatedName = "demo-config" := configName_demoRun
  have hedit : demoSetting.Allowed deletion := by
    intro cluster
    have hother : "demo-config" ≠ "faults" := by decide
    rw [hname]
    show putAt cluster.configMaps "faults" none "demo-config" = cluster.configMaps "demo-config"
    exact putAt_ne hother
  have hrefers : demoSetting.Refers := ⟨⟨"faults", "scenario.json"⟩, rfl⟩
  have hallowed : ∀ m ∈ [.snapshot, deletion, .configure, .register 0 0] ++
      [.stop, .snapshot, .configure, .register 1 1], demoSetting.Allowed m := by
    simp only [List.cons_append, List.nil_append, List.forall_mem_cons]
    exact ⟨trivial, hedit, trivial, trivial, trivial, trivial, trivial, trivial, List.forall_mem_nil _⟩
  obtain ⟨answer, hregistered⟩ := registered_demoWorld _ hedit
  have hmem := hregistered ▸ List.mem_singleton_self (demoSetting.registration (some scenarioRunSnapshot), answer)
  exact ⟨_, hmem, (snapshots_steady untried_demoWorld hrefers hallowed).1 _ hmem⟩

end AgentStorm.Controller
