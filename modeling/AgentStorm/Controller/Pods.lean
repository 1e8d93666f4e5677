import AgentStorm.Controller.Environment
import AgentStorm.Results.Backlog
import AgentStorm.Results.Leases

/-!
# `Controller.Pods` — which Pods keep their shards to themselves

Queue workers are Pods of one template. The Result API tells them apart by the worker id they send: a
worker that holds an unexpired lease gets that shard again, under a new token. The id comes from the
Pod's environment (`queueWorkerID_eq`), which makes exclusivity a property of the controller's
configuration (`queue_worker_exclusivity`).
-/

namespace AgentStorm.Controller

open Machine Machine.Transactional Relational Results

variable {P : Platform} {policy : LimitPolicy}

/-! ## Pods at work -/

inductive PodCall
  | claim (token : SchedulerToken)
  | renew (shardIndex : Int) (leaseToken : String)

/-- What happens while the Pods of a run work: their own calls, and any transaction that claims no shard of it. -/
inductive Step
  | act (pod : Pod) (call : PodCall) (now : Time)
  | other (t : Txn)

/-- The transaction of a step, with `ids` the worker ids of the Pods of `runID`. -/
def Step.txn (ids : Pod → String) (runID : String) : Step → Txn
  | .act pod (.claim token) now => ⟨.claimShard runID (ids pod) token, now, now⟩
  | .act _ (.renew shardIndex leaseToken) now => ⟨.renewShardLease runID shardIndex leaseToken, now, now⟩
  | .other t => t

def txns (ids : Pod → String) (runID : String) (steps : List Step) : List Txn := steps.map (Step.txn ids runID)

def Step.pod? : Step → Option Pod
  | .act pod _ _ => some pod
  | .other _ => none

/-- Only Pods claim shards of the run. -/
def Step.ClaimsByPod (runID : String) : Step → Prop
  | .act _ _ _ => True
  | .other t => ∀ workerID token, t.op ≠ .claimShard runID workerID token

/-- The Pod a step leased shard `i` to, given the step's entry in the log. -/
def podGrant (runID : String) (i : Nat) (step : Step) (entry : Txn × Except ApiError Answer) : Option Pod :=
  match step, grantOf runID i entry with
  | .act pod (.claim _) _, some _ => some pod
  | _, _ => none

/-- The Pod that got shard `i` last. -/
def grantedTo (P : Platform) (policy : LimitPolicy) (ids : Pod → String) (runID : String) (i : Nat)
    (steps : List Step) : Option Pod :=
  Fencing.latest ((steps.zip ((machine P policy).log Db.empty (txns ids runID steps))).map fun entry =>
    (entry.2.1.now, podGrant runID i entry.1 entry.2))

/-- **Exclusivity.** A claim of one Pod changes no row whose unexpired lease was granted to another Pod, and does not
    return that shard. -/
def Exclusive (P : Platform) (policy : LimitPolicy) (ids : Pod → String) (runID : String) (steps : List Step) : Prop :=
  ∀ past pod token now future, steps = past ++ .act pod (.claim token) now :: future →
    ∀ row ∈ ((machine P policy).run Db.empty (txns ids runID past)).queue, row.runID = runID →
      row.liveAt now = true → ∀ holder, grantedTo P policy ids runID row.shardIndex past = some holder → holder ≠ pod →
      row ∈ ((machine P policy).run Db.empty (txns ids runID (past ++ [.act pod (.claim token) now]))).queue ∧
      ∀ claim, (machine P policy).answer ((machine P policy).run Db.empty (txns ids runID past))
          ⟨.claimShard runID (ids pod) token, now, now⟩ = .ok (.claimed claim) →
        claim.shardIndex ≠ row.shardIndex

/-- What the cluster and the service provide: Pods with distinct uids, a clock that does not go back, fresh tokens and
    no colliding registrations. -/
structure Admissible (P : Platform) (ids : Pod → String) (runID : String) (steps : List Step) : Prop where
  distinct : ∀ pod ∈ steps.filterMap Step.pod?, ∀ pod' ∈ steps.filterMap Step.pod?, pod.uid = pod'.uid → pod = pod'
  claims : ∀ step ∈ steps, step.ClaimsByPod runID
  clock : Clocked (txns ids runID steps)
  fresh : (claimTokens (txns ids runID steps)).Nodup
  registrations : Set.InjOn P.registrationHash (Results.registrations (txns ids runID steps))

/-! ## Owners -/

variable {ids : Pod → String} {runID : String} {steps : List Step}

/-- A step that leases the shard leases it to its Pod's worker id. -/
theorem grantOf_step {step : Step} (hstep : step.ClaimsByPod runID) (i : Nat)
    (answer : Except ApiError Answer) :
    (grantOf runID i (step.txn ids runID, answer)).map Prod.fst =
      (podGrant runID i step (step.txn ids runID, answer)).map ids := by
  cases step with
  | act pod call now =>
    cases call with
    | claim token =>
      have howner : ∀ grant, grantOf runID i ((Step.act pod (.claim token) now).txn ids runID, answer) = some grant →
          grant.1 = ids pod := by
        intro grant hgrant
        simp only [grantOf, Step.txn] at hgrant
        split at hgrant
        · rename_i hop
          obtain ⟨-, rfl, -⟩ := Op.claimShard.inj hop
          rw [Option.ite_none_right_eq_some] at hgrant
          rw [← Option.some.inj hgrant.2]
        · cases hgrant
      unfold podGrant
      cases hgrant : grantOf runID i ((Step.act pod (.claim token) now).txn ids runID, answer) with
      | none => rfl
      | some grant => exact congrArg some (howner grant hgrant)
    | renew shardIndex leaseToken =>
      have hnone : grantOf runID i ((Step.act pod (.renew shardIndex leaseToken) now).txn ids runID, answer) = none := by
        simp [grantOf, Step.txn]
      rw [hnone]
      rfl
  | other t =>
    have hnone : grantOf runID i (t, answer) = none := by
      unfold grantOf
      split
      · rename_i claim id workerID token _ hop
        rw [if_neg]
        rintro ⟨rfl, -⟩
        exact hstep workerID token hop
      · rfl
    show (grantOf runID i (t, answer)).map _ = none
    rw [hnone]
    rfl

/-- The worker of a shard's latest grant is the Pod it was granted to. -/
theorem latestGrant_grantedTo (P : Platform) (policy : LimitPolicy) (ids : Pod → String)
    (hsteps : ∀ step ∈ steps, step.ClaimsByPod runID) (i : Nat) :
    (latestGrant runID i ((machine P policy).log Db.empty (txns ids runID steps))).map Prod.fst =
      (grantedTo P policy ids runID i steps).map ids := by
  have hentries : ∀ db, ((machine P policy).log db (txns ids runID steps)).map
        (fun entry => (entry.1.now, (grantOf runID i entry).map Prod.fst)) =
      (steps.zip ((machine P policy).log db (txns ids runID steps))).map
        fun entry => (entry.2.1.now, (podGrant runID i entry.1 entry.2).map ids) := by
    induction steps with
    | nil => exact fun _ => rfl
    | cons step steps ih =>
      intro db
      simp only [txns, List.map_cons, Transactional.log, List.zip_cons_cons]
      rw [grantOf_step (hsteps step List.mem_cons_self)]
      exact congrArg _ (ih (fun s hs => hsteps s (List.mem_cons_of_mem _ hs)) _)
  unfold latestGrant grantedTo
  rw [← Fencing.latest_map, ← Fencing.latest_map, List.map_map, List.map_map]
  exact congrArg _ (hentries Db.empty)

/-- The Pod a shard was granted to is one of those at work. -/
theorem mem_of_grantedTo {i : Nat} {holder : Pod}
    (h : grantedTo P policy ids runID i steps = some holder) : holder ∈ steps.filterMap Step.pod? := by
  obtain ⟨_, hmem⟩ := Fencing.mem_of_latest h
  obtain ⟨⟨step, entry⟩, hentry, heq⟩ := List.mem_map.mp hmem
  have hgrant : podGrant runID i step entry = some holder := (Prod.mk.inj heq).2
  refine List.mem_filterMap.mpr ⟨step, (List.of_mem_zip hentry).1, ?_⟩
  unfold podGrant at hgrant
  split at hgrant
  · exact hgrant
  · cases hgrant

/-! ## Claims between different workers -/

/-- A claim leaves an unexpired lease of another worker alone. -/
theorem claim_other_owner {docs : Set Registration} {t : Txn} {db db' : Db} {a : Answer}
    (h : Commit P t db a db') (hc : Coupled P docs db) (hinj : Set.InjOn P.registrationHash docs)
    {workerID owner : String} {token : SchedulerToken} (hop : t.op = .claimShard runID workerID token)
    {row : QueueRow} (hrow : row ∈ db.queue) (hrun : row.runID = runID) (hlive : row.liveAt t.now = true)
    (howner : row.leaseOwner = some owner) (hne : owner ≠ workerID) :
    row ∈ db'.queue ∧ ∀ claim, a = .claimed claim → claim.shardIndex ≠ row.shardIndex := by
  have hdocs : RegistersIn docs t := by
    intro id key registration hregister
    rw [hop] at hregister
    cases hregister
  obtain ⟨_, hrow', hstep⟩ := h.queueStep hc hinj hdocs hrow
  cases hstep with
  | keep hquiet =>
    refine ⟨hrow', fun claim ha hindex => ?_⟩
    simp only [grantOf, ha, hop, hrun, hindex, and_self, if_true] at hquiet
    cases hquiet
  | relet _ _ _ _ hop' _ _ _ _ hheld =>
    obtain ⟨-, rfl, -⟩ := Op.claimShard.inj (hop.symm.trans hop')
    simp only [heldBy, Bool.and_eq_true, decide_eq_true_eq] at hheld
    exact absurd (Option.some.inj (howner.symm.trans hheld.1.2)) hne
  | leased _ _ _ _ _ _ _ _ hclaimable =>
    -- an unexpired lease is not claimable
    have hstate := QueueRow.state_of_liveAt hlive
    rw [QueueRow.liveAt_eq_not_claimableAt t.now hstate ((hc.rows row hrow).expiry_iff.mpr hstate), hclaimable] at hlive
    cases hlive
  | extended _ _ hop' => cases hop.symm.trans hop'
  | cancelled hended =>
    obtain ⟨-, _, _, hop'⟩ := terminates_iff.mp hended
    cases hop.symm.trans hop'
  | completed _ _ hop' => cases hop.symm.trans hop'

/-- The owner column of an unexpired lease names the Pod it was granted to. -/
theorem leaseOwner_of_grantedTo
    (hinj : Set.InjOn P.registrationHash (registrations (txns ids runID steps)))
    (hclock : Clocked (txns ids runID steps)) (hsteps : ∀ step ∈ steps, step.ClaimsByPod runID)
    {row : QueueRow} (hrow : row ∈ ((machine P policy).run Db.empty (txns ids runID steps)).queue)
    (hrun : row.runID = runID) {now : Time} (hlive : row.liveAt now = true) {holder : Pod}
    (hholder : grantedTo P policy ids runID row.shardIndex steps = some holder) :
    row.leaseOwner = some (ids holder) := by
  have hc : Coupled P _ ((machine P policy).run Db.empty (txns ids runID steps)) := coupled_run hinj
  obtain ⟨l, hcell, howner, -⟩ := (hc.rows row hrow).cell (QueueRow.state_of_liveAt hlive)
  have hdbcell : ((machine P policy).run Db.empty (txns ids runID steps)).cell runID row.shardIndex = some l := by
    rw [Db.cell, Db.queue?_eq_some.mpr ⟨hrow, hrun, rfl⟩]
    exact hcell
  obtain ⟨_, hgrant, -⟩ := latestGrant_of_cell hinj hclock registersIn_registrations hdbcell
  have howners := latestGrant_grantedTo P policy ids hsteps row.shardIndex
  rw [hgrant, hholder] at howners
  rw [howner]
  exact congrArg some (Option.some.inj howners)

/-- **Pods with worker ids of their own exclude each other.** -/
theorem exclusive_of_distinct (h : Admissible P ids runID steps)
    (hids : ∀ pod ∈ steps.filterMap Step.pod?, ∀ pod' ∈ steps.filterMap Step.pod?, ids pod = ids pod' → pod = pod') :
    Exclusive P policy ids runID steps := by
  rintro past pod token now future rfl row hrow hrun hlive holder hholder hne
  have htxns : txns ids runID (past ++ .act pod (.claim token) now :: future) =
      txns ids runID past ++ txns ids runID (.act pod (.claim token) now :: future) := List.map_append
  have hinj : Set.InjOn P.registrationHash (registrations (txns ids runID past)) := by
    refine h.registrations.mono fun registration hmem => ?_
    rw [htxns]
    simp only [registrations, Set.mem_ofPred_eq, List.filterMap_append, List.mem_append] at hmem ⊢
    exact .inl hmem
  have howner := leaseOwner_of_grantedTo hinj (htxns ▸ h.clock).left
    (fun step hstep => h.claims step (List.mem_append_left _ hstep)) hrow hrun hlive hholder
  have hdiffer : ids holder ≠ ids pod := by
    intro heq
    refine hne (hids holder ?_ pod ?_ heq)
    · rw [List.filterMap_append]
      exact List.mem_append_left _ (mem_of_grantedTo hholder)
    · simp [Step.pod?]
  have hrun' : (machine P policy).run Db.empty (txns ids runID (past ++ [.act pod (.claim token) now])) =
      (machine P policy).step ((machine P policy).run Db.empty (txns ids runID past))
        ⟨.claimShard runID (ids pod) token, now, now⟩ := by
    rw [txns, List.map_append, List.map_singleton]
    exact run_concat _ _ _
  rw [hrun']
  rcases hexec : (machine P policy).exec ⟨.claimShard runID (ids pod) token, now, now⟩
      ((machine P policy).run Db.empty (txns ids runID past)) with err | ⟨a, db'⟩
  · rw [step_error hexec, answer_error hexec]
    exact ⟨hrow, fun claim hclaim => nomatch hclaim⟩
  · rw [step_ok hexec, answer_ok hexec]
    obtain ⟨hkept, hother⟩ := claim_other_owner (commit_of_exec hexec) (coupled_run hinj) hinj rfl hrow hrun hlive
      howner hdiffer
    exact ⟨hkept, fun claim hclaim => hother claim (Except.ok.inj hclaim)⟩

/-! ## Pods without an identity -/

def firstPod : Pod := ⟨"worker-1", "uid-1", []⟩

def secondPod : Pod := ⟨"worker-2", "uid-2", []⟩

/-- Two Pods claim one after the other; the run has one shard. -/
def twoPods : List Step :=
  [.other (registerAt 0 "run" (.reference "suite" "keda" 1)),
    .act firstPod (.claim .ofA) 1,
    .act secondPod (.claim .ofB) 2]

theorem admissible_twoPods (ids : Pod → String) : Admissible (.reference []) ids "run" twoPods := by
  refine ⟨by decide, ?_, ?_, ?_, ?_⟩
  · intro step hstep
    simp only [twoPods, List.mem_cons, List.not_mem_nil, or_false] at hstep
    rcases hstep with rfl | rfl | rfl
    · exact fun workerID token hop => nomatch hop
    · trivial
    · trivial
  · show [(0 : Time), 1, 2].Pairwise (· ≤ ·)
    decide
  · show [(SchedulerToken.reference 'a' rfl).text, (SchedulerToken.reference 'b' rfl).text].Nodup
    decide +kernel
  · show Set.InjOn _ { registration | registration ∈ [Registration.reference "suite" "keda" 1] }
    exact injOn_of_forall_mem (by decide +kernel)

/-- Under one worker id the second Pod is given the shard the first one works on. -/
theorem not_exclusive_twoPods (hids : ids = fun _ => "local-worker") :
    ¬ Exclusive (.reference []) .unlimited ids "run" twoPods := by
  subst hids
  intro h
  have hrow : ∃ row ∈ ((machine (.reference []) .unlimited).run Db.empty
      (txns (fun _ => "local-worker") "run" (twoPods.take 2))).queue.rows,
      row.runID = "run" ∧ row.liveAt 2 = true ∧ row.shardIndex = 0 := by decide +kernel
  obtain ⟨row, hmem, hrun, hlive, hindex⟩ := hrow
  have hholder : grantedTo (.reference []) .unlimited (fun _ => "local-worker") "run" 0 (twoPods.take 2) =
      some firstPod := by decide +kernel
  have hanswer : (machine (.reference []) .unlimited).answer ((machine (.reference []) .unlimited).run Db.empty
      (txns (fun _ => "local-worker") "run" (twoPods.take 2)))
      ⟨.claimShard "run" "local-worker" (.reference 'b' rfl), 2, 2⟩ =
      .ok (.claimed ⟨0, (SchedulerToken.reference 'b' rfl).text, 45000002, 15000⟩) := by decide +kernel
  exact (h (twoPods.take 2) secondPod (.reference 'b' rfl) 2 [] rfl row hmem hrun hlive firstPod (hindex ▸ hholder)
    (by decide)).2 _ hanswer hindex.symm

/-! ## The configuration decides -/

/-- **Exclusivity of queue workers**, end to end: with the result sink enabled, the Pods of every queued run keep
    their shards to themselves exactly when distributed limits are enabled too. -/
theorem queue_worker_exclusivity (resultSink : ResultSinkConfig) (hsink : resultSink.enabled = true) :
    (∀ (P : Platform) (policy : LimitPolicy) (secret : String → String → String) (run : AgentTestRun)
      (telemetry : TelemetryConfig) (runID : String) (steps : List Step),
      Admissible P (queueWorkerID secret run resultSink telemetry) runID steps →
        Exclusive P policy (queueWorkerID secret run resultSink telemetry) runID steps) ↔
    resultSink.distributedLimits = true := by
  constructor
  · intro h
    by_contra hlimits
    have hids : queueWorkerID (fun _ _ => "") ⟨1, 60, "", "", none⟩ resultSink ⟨"", false⟩ =
        fun _ => "local-worker" := by
      funext pod
      rw [queueWorkerID_eq _ _ hsink, if_neg hlimits]
    exact not_exclusive_twoPods hids (h _ _ _ _ _ "run" twoPods (admissible_twoPods _))
  · intro hlimits P policy secret run telemetry runID steps hadmissible
    have hids : queueWorkerID secret run resultSink telemetry = Pod.uid := by
      funext pod
      rw [queueWorkerID_eq _ _ hsink, if_pos hlimits]
    refine exclusive_of_distinct hadmissible ?_
    rw [hids]
    exact hadmissible.distinct

/-- A result sink with or without distributed limits. -/
def sinkConfig (distributedLimits : Bool) : ResultSinkConfig :=
  ⟨"http://result-api:8080", "result-token", "token", false, distributedLimits, 30⟩

/-- Without distributed limits, the second Pod takes the lease of the first. -/
theorem queue_worker_exclusivity_shared_identity :
    (sinkConfig false).enabled = true ∧
    Admissible (.reference []) (queueWorkerID (fun _ _ => "") ⟨2, 60, "cases.jsonl", "fake", none⟩ (sinkConfig false)
      ⟨"", false⟩) "run" twoPods ∧
    ¬ Exclusive (.reference []) .unlimited (queueWorkerID (fun _ _ => "") ⟨2, 60, "cases.jsonl", "fake", none⟩
      (sinkConfig false) ⟨"", false⟩) "run" twoPods := by
  refine ⟨by decide, admissible_twoPods _, not_exclusive_twoPods ?_⟩
  funext pod
  rw [queueWorkerID_eq _ _ (by decide)]
  rfl

/-- With them, the same two Pods exclude each other. -/
theorem queue_worker_exclusivity_distributed :
    Exclusive (.reference []) .unlimited (queueWorkerID (fun _ _ => "") ⟨2, 60, "cases.jsonl", "fake", none⟩
      (sinkConfig true) ⟨"", false⟩) "run" twoPods :=
  (queue_worker_exclusivity (sinkConfig true) (by decide)).mpr rfl _ _ _ _ _ _ _ (admissible_twoPods _)

end AgentStorm.Controller
