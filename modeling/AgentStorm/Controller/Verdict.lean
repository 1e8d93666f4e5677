import AgentStorm.Controller.Progress
import AgentStorm.Results.Settled

/-!
# `Controller.Verdict` — the phase of a queued run and the Result API

For a run with a durable queue the controller does not look at Pods: the phase it patches is what the queue of the Result
API answered (`applyQueueStatus`). That answer is read over HTTP (`results_client.go`) at some moment of a call, other
clients are served before and after it, and the phase is patched later. A phase that has ended is never looked at again,
so it has to be right then and stay right: `verdict_agrees`.
-/

namespace AgentStorm.Controller

open Machine Results

/-! ## The client -/

/-- The request of `HTTPResultWriter.QueueStatus`. -/
def queueRequest (runID : String) : HttpRequest := ⟨.get, ["v1", "runs", runID, "queue"], "", "", "", "", "", "", "", "", []⟩

/-- What it makes of the answer. -/
def readQueueStatus : Option Response → Option QueueStatus
  | some ⟨200, _, .queue status⟩ => some status
  | _ => none

section System

variable {κ : Type} [LinearOrder κ] {collate : String ↪ κ} {S : Server} {R : Reconciler} {run : TestRun}
  {spec : AgentTestRunSpec}

variable {runID : String}

theorem serviceQueueStatus_of_answer {w : Results.World} {request : Nat} {o : Occasion}
    {response : Option Response} {status : QueueStatus}
    (hanswer : (api collate S).answer w (.request request (queueRequest runID) o) = .ok response)
    (hread : readQueueStatus response = some status) :
    serviceQueueStatus o.now runID w.db = .ok status := by
  obtain ⟨w', hexec⟩ := Transactional.answer_ok_iff.mp hanswer
  simp only [api] at hexec
  split at hexec
  · have hresponse : response = some (Http.read (serviceQueueStatus o.now runID) .queue w.db) :=
      (congrArg Prod.fst (Except.ok.inj hexec)).symm
    rw [hresponse, Http.read] at hread
    cases hquery : serviceQueueStatus o.now runID w.db with
    | error err =>
      rw [hquery] at hread
      cases err <;> cases hread
    | ok =>
      rw [hquery] at hread
      rw [Option.some.inj hread]
  · cases hexec

/-! ## The controller next to the Result API -/

variable {asked : Bool}

/-- The Result API, the objects of the namespace, the status of the run, and whether its cancellation was ever asked for. -/
structure System where
  world : Results.World
  cluster : Cluster
  status : AgentTestRunStatus
  asked : Bool

/-- A queue status that a call has was answered to it while the traffic `es` flowed. -/
def Heard (collate : String ↪ κ) (S : Server) (w : Results.World) (es : List HttpEvent) (runID : String)
    (answers : ResultAPI) : Prop :=
  ∀ status, answers.queueStatus = some status → ∃ past request o rest response,
    es = past ++ .request request (queueRequest runID) o :: rest ∧
    (api collate S).answer ((api collate S).run w past) (.request request (queueRequest runID) o) = .ok response ∧
    readQueueStatus response = some status

/-- Anyone is served, anything changes around the run, or the controller is called. -/
inductive SystemStep (collate : String ↪ κ) (S : Server) (R : Reconciler) (run : TestRun) : System → System → Prop
  | traffic (s : System) (e : HttpEvent) : SystemStep collate S R run s { s with world := (api collate S).step s.world e }
  | surroundings (s : System) (cluster : Cluster) : SystemStep collate S R run s { s with cluster }
  | call (s : System) (cancel : Bool) (es : List HttpEvent) (answers : ResultAPI)
      (hheard : Heard collate S s.world es run.metadata.uid answers) :
      SystemStep collate S R run s
        ⟨(api collate S).run s.world es, (reconcile R s.cluster { run with cancel, status := s.status } answers).1,
          (reconcile R s.cluster { run with cancel, status := s.status } answers).2, s.asked || cancel⟩

/-- The phase says what is settled in the database. -/
structure Agrees (db : Db) (runID : String) (phase : RunPhase) (asked : Bool) : Prop where
  succeeded : phase = .succeeded → Settled db runID .complete (some true)
  failed : phase = .failed →
    Settled db runID .harnessFailed none ∨ ∃ passed, passed ≠ some true ∧ Settled db runID .complete passed
  cancelled : phase = .cancelled → asked = true ∨ Settled db runID .cancelled none

theorem Agrees.of_active {db : Db} {phase : RunPhase} (h : terminalPhase phase = false) :
    Agrees db runID phase asked := by
  refine ⟨?_, ?_, ?_⟩ <;> (rintro rfl; cases h)

theorem Agrees.mono {db db' : Db} {phase : RunPhase} {asked' : Bool} (h : Agrees db runID phase asked)
    (hsettled : ∀ {status passed}, Settled db runID status passed → Settled db' runID status passed)
    (hasked : asked = true → asked' = true) : Agrees db' runID phase asked' where
  succeeded hphase := hsettled (h.succeeded hphase)
  failed hphase := (h.failed hphase).imp hsettled fun ⟨passed, hnot, hset⟩ => ⟨passed, hnot, hsettled hset⟩
  cancelled hphase := (h.cancelled hphase).imp hasked hsettled

/-- A phase that is read off the queue agrees with what the queue told. -/
theorem agrees_applyQueueStatus {db : Db} {queue : QueueStatus} {status : AgentTestRunStatus}
    (h : queue.runStatus ≠ .collecting → Settled db runID queue.runStatus queue.thresholdsPassed) :
    Agrees db runID (applyQueueStatus queue status).phase asked := by
  unfold applyQueueStatus
  cases hrun : queue.runStatus with
  | collecting => exact .of_active rfl
  | cancelled =>
    rw [hrun] at h
    exact ⟨nofun, nofun, fun _ => Or.inr ((h nofun).forget nofun)⟩
  | harnessFailed =>
    rw [hrun] at h
    exact ⟨nofun, fun _ => Or.inl ((h nofun).forget nofun), nofun⟩
  | complete =>
    rw [hrun] at h
    dsimp only
    split
    · rename_i hpassed
      exact ⟨fun _ => hpassed ▸ h nofun, nofun, nofun⟩
    · rename_i hnot
      exact ⟨nofun, fun _ => Or.inr ⟨_, hnot, h nofun⟩, nofun⟩

/-- Everything that a call can do to the status of a queued run that has not ended. -/
theorem reconcile_keda (hvalid : validateAndDefaultWithScheduler R.libraries R.scheduler run.spec = .ok spec)
    (hkeda : spec.scheduling.strategy = "keda") (hactive : terminalPhase run.status.phase = false) (cluster : Cluster)
    (answers : ResultAPI) :
    (run.cancel = true ∧ (reconcile R cluster run answers).2.phase = .cancelled) ∨
      terminalPhase (reconcile R cluster run answers).2.phase = false ∨
      ∃ queue status, answers.queueStatus = some queue ∧
        (reconcile R cluster run answers).2.phase = (applyQueueStatus queue status).phase := by
  have hwaits : ∀ {type reason message} {status : AgentTestRunStatus},
      terminalPhase (waiting type reason message status).phase = false := rfl
  have hexecute : ∀ after status, terminalPhase (execute R after run spec answers status).2.phase = false ∨
      ∃ queue status', answers.queueStatus = some queue ∧
        (execute R after run spec answers status).2.phase = (applyQueueStatus queue status').phase := by
    intro after status
    simp only [execute, if_pos hkeda]
    cases ensureScaledJob R after run with
    | none => exact .inl hwaits
    | some =>
      cases answers.queueStatus with
      | none => exact .inl hwaits
      | some queue => exact .inr ⟨queue, status, rfl, rfl⟩
  simp only [reconcile, hactive, hvalid, Bool.false_eq_true, if_false]
  cases hcancel : run.cancel with
  | true => exact .inl ⟨rfl, by simp only [if_true, reconcileCancel, if_pos hkeda]; rfl⟩
  | false =>
    simp only [Bool.false_eq_true, if_false]
    refine .inr ?_
    cases hready : readiness R cluster run spec with
    | error status => exact .inl (congrArg terminalPhase (failsOnly_readiness status hready))
    | ok status =>
      dsimp only
      -- an object of someone else, or no token: the status is not patched
      cases ensureWorkerConfig R cluster run spec (scenarioSnapshot R cluster run spec).1 with
      | none => exact .inl hactive
      | some after =>
        simp only [registerAndExecute]
        split
        · exact hexecute after _
        split
        · exact .inl hactive
        split
        · exact .inl hwaits
        · exact hexecute after _

/-! ## Every history -/

theorem SystemStep.agrees (hvalid : validateAndDefaultWithScheduler R.libraries R.scheduler run.spec = .ok spec)
    (hkeda : spec.scheduling.strategy = "keda") {s s' : System} (h : SystemStep collate S R run s s')
    (hst : Standing S.platform s.world.db) (hagrees : Agrees s.world.db run.metadata.uid s.status.phase s.asked) :
    Standing S.platform s'.world.db ∧ Agrees s'.world.db run.metadata.uid s'.status.phase s'.asked := by
  have hstands : ∀ es, Standing S.platform ((api collate S).run s.world es).db :=
    api_run_db (Standing S.platform) (fun _ t hdb => hdb.step t) hst
  cases h with
  | traffic e => exact ⟨hstands [e], hagrees.mono (fun hset => api_run_settled hst hset [e]) id⟩
  | surroundings => exact ⟨hst, hagrees⟩
  | call cancel es answers hheard =>
    refine ⟨hstands es, ?_⟩
    dsimp only
    cases hactive : terminalPhase s.status.phase with
    | true =>
      -- a run that has ended is left as it is
      rw [show reconcile R s.cluster { run with cancel, status := s.status } answers = (s.cluster, s.status) from
        reconcile_of_terminal hactive]
      exact hagrees.mono (fun hset => api_run_settled hst hset es) fun hasked => by rw [hasked, Bool.true_or]
    | false =>
      rcases @reconcile_keda R { run with cancel, status := s.status } spec hvalid hkeda hactive s.cluster answers with
        ⟨hcancel, hphase⟩ | hphase | ⟨queue, status, hqueue, hphase⟩
      · rw [hphase]
        exact ⟨nofun, nofun, fun _ => Or.inl (by rw [show cancel = true from hcancel, Bool.or_true])⟩
      · exact .of_active hphase
      · rw [hphase]
        refine agrees_applyQueueStatus fun hleft => ?_
        obtain ⟨past, _, o, _, _, rfl, hanswer, hread⟩ := hheard queue hqueue
        have hset := settled_of_queueStatus (serviceQueueStatus_of_answer hanswer hread) hleft
        rw [Transactional.run_append]
        exact api_run_settled (hstands past) hset _

/-- **The verdict on a queued run.** Start a run that has not ended next to a Result API in a reachable state, and let
    calls of the controller, requests of anyone and changes around the run come in any order. Whenever the phase is
    `Succeeded`, the run is complete in the database and has passed its thresholds; whenever it is `Failed`, a worker
    reported a harness failure or the complete run has not passed; and it is `Cancelled` only if that was asked for or
    the Result API says so. None of this is ever taken back. -/
theorem verdict_agrees (hvalid : validateAndDefaultWithScheduler R.libraries R.scheduler run.spec = .ok spec)
    (hkeda : spec.scheduling.strategy = "keda") {s s' : System} (hst : Standing S.platform s.world.db)
    (hactive : terminalPhase s.status.phase = false) (h : Relation.ReflTransGen (SystemStep collate S R run) s s') :
    Agrees s'.world.db run.metadata.uid s'.status.phase s'.asked := by
  suffices hboth : Standing S.platform s'.world.db ∧ Agrees s'.world.db run.metadata.uid s'.status.phase s'.asked from
    hboth.2
  induction h with
  | refl => exact ⟨hst, .of_active hactive⟩
  | tail _ hstep ih => exact hstep.agrees hvalid hkeda ih.1 ih.2

end System

/-- A controller that uses the durable queue and the Result API. -/
noncomputable def Reconciler.queueing : Reconciler :=
  { Reconciler.withoutSink with
    libraries := { Libraries.withoutURLs with
      parseURL := fun raw => if raw = "https://results" then some ⟨"https", "results", false, "", "", ""⟩ else none }
    resultSink := ⟨"https://results", "results", "token", false, false, 10⟩
    scheduler := { SchedulerConfig.indexedOnly with enableKEDA := true, metricsAPIURL := "https://results" } }

/-- The dataset and the write token, where KEDA is installed. -/
def queueCluster : Cluster :=
  { demoCluster [("cases", ⟨none, [("cases.jsonl", [])], []⟩)] [] with
    secrets := fun _ => some ⟨fun _ => some (Text.bytes "write"), fun _ => none⟩
    hasKEDA := true }

/-- A run with a durable queue. -/
def queuedRun : TestRun :=
  { demoRun with spec := { scenarioRun "" with scheduling := ⟨"keda", 2, "small", [], []⟩, reliability := none } }

theorem valid_queuedRun : validateAndDefaultWithScheduler Reconciler.queueing.libraries Reconciler.queueing.scheduler
    queuedRun.spec = .ok queuedRun.spec := by
  have hconfig : Reconciler.queueing.scheduler.validateAndDefault Reconciler.queueing.libraries =
      .ok ⟨true, "https://results", 100, 1000, 2⟩ := by decide +kernel
  unfold validateAndDefaultWithScheduler
  rw [hconfig]
  rfl

/-- The run is registered, and a worker claims its shard and uploads it. -/
def queuedTraffic (runID : String) : List HttpEvent :=
  [.request 0 (.putting ["v1", "runs", runID] "write" (registrationKey runID) []) (.reference 0),
    .request 0 { HttpRequest.putting ["v1", "runs", runID, "queue", "claims"] "write" "" [] with method := .post }
      (.reference 1),
    .request 0 { HttpRequest.putting ["v1", "runs", runID, "shards", "0"] "write" (shardKey runID 0) [0] with
      queueLease := SchedulerToken.ofA.text } (.reference 2),
    .put 0 .stored, .finalize 0 (.reference 3)]

/-- A call hears from the queue that the run is complete and has passed; a cancellation that comes too late changes
    nothing. -/
theorem verdict_agrees_queuedRun :
    let runID := queuedRun.metadata.uid
    let S := Server.reference (.reference "suite" "keda" 1) [.single runID "case"]
    let start : System := ⟨Results.World.empty, queueCluster, queuedRun.status, false⟩
    ∃ s', Relation.ReflTransGen (SystemStep (.refl String) S .queueing queuedRun) start s' ∧
      s'.status.phase = .succeeded ∧ Agrees s'.world.db runID s'.status.phase s'.asked := by
  intro runID S start
  let collected := (api (.refl String) S).run Results.World.empty (queuedTraffic runID)
  let queue : QueueStatus := ⟨0, 0, 0, 1, 1, .complete, some true⟩
  have hquery : serviceQueueStatus 4 runID collected.db = .ok queue := by decide +kernel
  have hfree : collected.flights 0 = none := Option.isNone_iff_eq_none.mp (by decide +kernel)
  have hanswer : (api (.refl String) S).answer collected (.request 0 (queueRequest runID) (.reference 4)) =
      .ok (some ⟨200, none, .queue queue⟩) := by
    simp only [Transactional.answer, api, hfree]
    change Except.ok (some (Http.read (serviceQueueStatus 4 runID) .queue collected.db)) = _
    rw [Http.read, hquery]
    rfl
  have hheard : Heard (.refl String) S start.world
      (queuedTraffic runID ++ [.request 0 (queueRequest runID) (.reference 4)]) runID
      ⟨fun _ => true, some queue, true⟩ := by
    intro status hstatus
    cases hstatus
    exact ⟨queuedTraffic runID, 0, .reference 4, [], _, rfl, hanswer, rfl⟩
  have hcall : SystemStep (.refl String) S .queueing queuedRun start _ := .call start false _ _ hheard
  have hrun := (Relation.ReflTransGen.single hcall).tail (.traffic _
    (.request 0 (.putting ["v1", "runs", runID, "terminal"] "write" (terminalKey runID .cancelled) []) (.reference 5)))
  exact ⟨_, hrun, by decide +kernel, verdict_agrees valid_queuedRun rfl standing_empty rfl hrun⟩

end AgentStorm.Controller
