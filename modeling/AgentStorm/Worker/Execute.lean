import AgentStorm.Results.Types
import AgentStorm.Worker.Sink
import AgentStorm.Worker.Workload

/-!
# `Worker.Execute` — one worker process from its claim to its exit code

`execute` of `__main__.py`: registration, the claim of a queued shard and the task that renews its
lease, the cases, the upload, and the handler that writes a terminal record of the run when something
raised. The process looks at what the cases and the renewals left only once the cases are over, so the
outside is what each of them came to (`World`).
-/

namespace AgentStorm.Worker

open Checks Python Results

/-- What a process ends with: its exit code and the documents of its `mark_terminal` calls. -/
structure Exit where
  exitCode : Nat
  terminal : List TerminalRequest
  deriving DecidableEq

/-- What the process is started with, after the configuration and the dataset are loaded. -/
structure Process where
  py : Runtime
  runID : Text
  provider : String
  allowProviderSpend : Option String
  client : Except Raised (Option ResultClient)
  preRegistered : Bool
  /-- `AGENTSTORM_QUEUE_MODE`, which may be no boolean. -/
  queueMode : Except Raised Bool
  distributedLimits : Except Raised Bool
  shardIndex : Int
  shardCount : Int
  evaluation : EvaluationConfig

/-- What the outside contributes. -/
structure World where
  registration : Exchange
  claim : Exchange
  adapter : Except Raised Unit
  /-- The renewals that were answered before the cases were over. -/
  renewals : List Exchange
  signalled : Bool
  permitLost : Bool
  /-- What running the cases returned or raised. -/
  ran : Except Raised (List DatasetResult)
  durationMS : ℚ≥0
  /-- `write_results` -/
  written : Except Error Unit
  upload : Exchange

def providerSpendAllowed (provider : String) (allowProviderSpend : Option String) : Bool :=
  !decide (provider ∈ ["openai-compatible", "openai-agents"]) || decide (allowProviderSpend = some "1")

/-- A renewal that raises, or whose delay cannot be computed, ends the renewals and loses the lease. -/
def leaseLost (py : Runtime) (renewals : List Exchange) : Bool :=
  renewals.any fun exchange =>
    match renewShard py exchange with
    | .ok renewAfterMS => py.overflows renewAfterMS
    | .error _ => true

section Execute

variable (p : Process) (w : World)

/-- The client, after the run is registered if nobody did before. -/
def connect : Except Raised (Option ResultClient) := do
  match ← p.client with
  | none => return none
  | some client =>
    if p.preRegistered then return some client
    else (client.registerRun p.runID w.registration).map fun _ => some client

/-- The shard to work on with its lease; a queue may be empty. -/
def assignment (client : Option ResultClient) (queueMode : Bool) : Except Raised (Option (Int × Option Text)) :=
  if queueMode then
    match client with
    | none => .error (.runtime "queued scheduling requires the Result API")
    | some _ => (claimShard p.py w.claim).map (·.map fun claim => (claim.shardIndex, some claim.leaseToken))
  else .ok (some (p.shardIndex, none))

/-- From the results of a shard to the exit code. -/
def conclude (client : Option ResultClient) (queueMode limited : Bool) (shardIndex : Int) (leaseToken : Option Text)
    (results : List DatasetResult) : Except Raised Exit :=
  let summary := summarize results p.evaluation w.durationMS
  let lost := queueMode && leaseLost p.py w.renewals
  let permitLost := limited && w.permitLost
  if lost || permitLost then
    .ok ⟨3, if !lost && client.isSome then [⟨.harnessFailed, "distributed_permit_lost"⟩] else []⟩
  else if w.signalled then
    .ok ⟨130, if client.isSome then [⟨.cancelled, "cancellation_requested"⟩] else []⟩
  else do
    w.written.mapError .python
    match client with
    | some c => c.uploadShard p.runID shardIndex leaseToken w.upload
    | none => pure ()
    return ⟨if summary.thresholdsPassed then 0 else 2, []⟩

/-- A distributed limiter needs a client to ask. -/
def limits (client : Option ResultClient) : Except Raised Bool := if client.isSome then p.distributedLimits else .ok false

def workOn (client : Option ResultClient) (queueMode : Bool) (shardIndex : Int) (leaseToken : Option Text) :
    Except Raised Exit := do
  w.adapter
  let limited ← limits p client
  reject (decide (p.shardCount < 1 ∨ ¬(0 ≤ shardIndex ∧ shardIndex < p.shardCount))) (.python .value)
  let results ← w.ran
  conclude p w client queueMode limited shardIndex leaseToken results

/-- The body of the `try` once the queue mode is known. -/
def body (client : Option ResultClient) (queueMode : Bool) : Except Raised Exit := do
  match ← assignment p w client queueMode with
  | none => return ⟨0, []⟩
  | some (shardIndex, leaseToken) => workOn p w client queueMode shardIndex leaseToken

/-- The `except` clause: a queued shard whose sink failed is left to its lease. -/
def failed (registered queueMode : Bool) (exc : Raised) : Exit :=
  ⟨3, if registered && !(queueMode && exc.isResultSink) then
      [⟨.harnessFailed, if exc = .adapterPlugin then "adapter_plugin_invalid" else "worker_harness_failure"⟩]
    else []⟩

def execute : Exit :=
  if !providerSpendAllowed p.provider p.allowProviderSpend then ⟨3, []⟩
  else match connect p w with
    | .error exc => failed false false exc
    | .ok client =>
      match p.queueMode with
      | .error exc => failed client.isSome false exc
      | .ok queueMode =>
        match body p w client queueMode with
        | .error exc => failed client.isSome queueMode exc
        | .ok exit => exit

end Execute

/-! ## Exit codes -/

/-- A worker with a shard of the run, for which nothing but the results decides the exit code. -/
structure Works (p : Process) (w : World) (index count : Nat) (evaluation : EvaluationConfig) (results : List DatasetResult) :
    Prop where
  spend : providerSpendAllowed p.provider p.allowProviderSpend = true
  index_lt : index < count
  count_eq : p.shardCount = count
  evaluation_eq : p.evaluation = evaluation
  adapter_eq : w.adapter = .ok ()
  ran_eq : w.ran = .ok results
  signalled_eq : w.signalled = false
  permitLost_eq : w.permitLost = false
  written_eq : w.written = .ok ()
  connected : ∃ client queueMode limited leaseToken,
    connect p w = .ok client ∧ p.queueMode = .ok queueMode ∧ p.distributedLimits = .ok limited ∧
    assignment p w client queueMode = .ok (some ((index : Int), leaseToken)) ∧
    (queueMode && leaseLost p.py w.renewals) = false ∧
    ∀ c ∈ client, c.uploadShard p.runID index leaseToken w.upload = .ok ()

theorem execute_of_works {p : Process} {w : World} {index count : Nat} {evaluation : EvaluationConfig}
    {results : List DatasetResult} (h : Works p w index count evaluation results) :
    execute p w = ⟨if (summarize results evaluation w.durationMS).thresholdsPassed then 0 else 2, []⟩ := by
  obtain ⟨client, queueMode, limited, leaseToken, hconnect, hqueue, hlimits, hassigned, hlost, hupload⟩ := h.connected
  obtain ⟨l, hl⟩ : ∃ l, limits p client = .ok l := by
    unfold limits
    split
    · exact ⟨limited, hlimits⟩
    · exact ⟨false, rfl⟩
  have hrange : ¬(p.shardCount < 1 ∨ ¬(0 ≤ (index : Int) ∧ (index : Int) < p.shardCount)) := by
    have hlt := h.index_lt
    rw [h.count_eq]
    omega
  have hconclude : conclude p w client queueMode l index leaseToken results =
      .ok ⟨if (summarize results evaluation w.durationMS).thresholdsPassed then 0 else 2, []⟩ := by
    unfold conclude
    simp only [hlost, h.permitLost_eq, h.signalled_eq, h.written_eq, h.evaluation_eq, Bool.and_false, Bool.or_self,
      Bool.false_eq_true, if_false]
    cases client with
    | none => rfl
    | some c =>
      show (Except.ok () >>= fun _ => c.uploadShard p.runID index leaseToken w.upload >>= fun _ => _) = _
      rw [hupload c rfl]
      rfl
  have hbody : body p w client queueMode =
      .ok ⟨if (summarize results evaluation w.durationMS).thresholdsPassed then 0 else 2, []⟩ := by
    unfold body
    rw [hassigned]
    show workOn p w client queueMode index leaseToken = _
    unfold workOn
    rw [h.adapter_eq, hl, h.ran_eq, decide_eq_false hrange]
    exact hconclude
  unfold execute
  simp [h.spend, hconnect, hqueue, hbody]

/-- Without failed cases a shard meets its thresholds unless it has no cases and some success is asked for. -/
theorem thresholdsPassed_iff_of_success {results : List DatasetResult} (hsuccess : ∀ result ∈ results, result.success = true)
    {evaluation : EvaluationConfig} (hmin : ∀ rate ∈ evaluation.minSuccessRate, 0 ≤ rate ∧ rate ≤ 1)
    (hmax : ∀ rate ∈ evaluation.maxErrorRate, 0 ≤ rate ∧ rate ≤ 1) (hlatency : evaluation.maxP95LatencyMS = none)
    (durationMS : ℚ≥0) :
    (summarize results evaluation durationMS).thresholdsPassed = true ↔
      results ≠ [] ∨ ∀ rate ∈ evaluation.minSuccessRate, rate = 0 := by
  have hall : results.filter (·.success) = results := List.filter_eq_self.mpr hsuccess
  have herror : ∀ n : Nat, (if n = 0 then 0 else ((n - n : Nat) : ℚ) / n) = 0 := by
    intro n
    rw [Nat.sub_self, Nat.cast_zero, zero_div, ite_self]
  simp only [summarize, hall, thresholdFailures_isEmpty_iff, hlatency, herror]
  have herrors : ∀ limit ∈ evaluation.maxErrorRate, (0 : ℚ) ≤ limit := fun limit hlimit => (hmax limit hlimit).1
  simp only [Option.not_mem_none, false_imp_iff, implies_true, and_true, and_iff_left herrors]
  by_cases hempty : results = []
  · subst hempty
    simp only [List.length_nil, if_true, ne_eq, not_true_eq_false, false_or]
    exact forall₂_congr fun rate hrate => ⟨fun hle => le_antisymm hle (hmin rate hrate).1, fun heq => heq.le⟩
  · have hlength : results.length ≠ 0 := List.length_eq_zero_iff.not.mpr hempty
    have hrate : (results.length : ℚ) / results.length = 1 := div_self (Nat.cast_ne_zero.mpr hlength)
    simp only [hlength, if_false, hrate, hempty, ne_eq, not_false_eq_true, true_or, iff_true]
    exact fun rate hmem => (hmin rate hmem).2

/-- **When sharding keeps an all-passing run passing.** The shards of a run are left alone until they are over and every
    executed case succeeds. Then every shard passes its thresholds and every worker exits with 0 exactly if no success
    rate above zero is asked for, or there are no more shards than cases. -/
theorem sharding_keeps_passing_iff (config : RunConfig) (cases : List DatasetCase) {count : Nat} (hcount : 1 ≤ count) (evaluation : EvaluationConfig)
    (hmin : ∀ rate ∈ evaluation.minSuccessRate, 0 ≤ rate ∧ rate ≤ 1)
    (hmax : ∀ rate ∈ evaluation.maxErrorRate, 0 ≤ rate ∧ rate ≤ 1) (hlatency : evaluation.maxP95LatencyMS = none)
    (es : Nat → List (Pool.Event CaseWorld))
    (hes : ∀ i < count, (∀ e ∈ es i, e.undisturbed = true) ∧
      ∀ t ∈ ((config.shard count i).pool cases (es i)).tasks, t.finished = true)
    (results : Nat → List DatasetResult)
    (hresults : ∀ i < count, returned ((config.shard count i).execute cases (es i)) = some (results i))
    (hsuccess : ∀ i < count, ∀ result ∈ results i, result.success = true) (p : Nat → Process) (w : Nat → World)
    (hworks : ∀ i < count, Works (p i) (w i) i count evaluation (results i)) :
    (∀ i < count, (summarize (results i) evaluation (w i).durationMS).thresholdsPassed = true ∧
      (execute (p i) (w i)).exitCode = 0) ↔
      (∀ rate ∈ evaluation.minSuccessRate, rate = 0) ∨ count ≤ cases.length := by
  -- a shard that was left alone returns nothing only if it has no work
  have hempty : ∀ i < count, results i = [] ↔ cases.length ≤ i := by
    intro i hi
    obtain ⟨_, hreturned, hperm⟩ := returned_of_undisturbed (eq_of_returned (hresults i hi)).1 (hes i hi).1
      (hes i hi).2
    cases (hresults i hi).symm.trans hreturned
    rw [← work_eq_nil_iff config.workload.iterations_pos hi]
    have hlength := hperm.length_eq
    rw [List.length_map, List.length_map] at hlength
    rw [← List.length_eq_zero_iff, hlength, List.length_eq_zero_iff]
    rfl
  have hshard : ∀ i < count, ((summarize (results i) evaluation (w i).durationMS).thresholdsPassed = true ∧
      (execute (p i) (w i)).exitCode = 0) ↔ i < cases.length ∨ ∀ rate ∈ evaluation.minSuccessRate, rate = 0 := by
    intro i hi
    rw [execute_of_works (hworks i hi), ← not_le, ← hempty i hi]
    have hpassed := thresholdsPassed_iff_of_success (hsuccess i hi) hmin hmax hlatency (w i).durationMS
    rw [← ne_eq, ← hpassed]
    exact ⟨And.left, fun h => ⟨h, by rw [h]; rfl⟩⟩
  constructor
  · intro hall
    rcases (hshard (count - 1) (by omega)).mp (hall (count - 1) (by omega)) with hlt | hzero
    · exact .inr (by omega)
    · exact .inl hzero
  · rintro (hzero | hlayout) i hi
    · exact (hshard i hi).mpr (Or.inr hzero)
    · exact (hshard i hi).mpr (Or.inl (by omega))

/-- The worker of a shard that has no result sink. -/
def localProcess (index count : Nat) (evaluation : EvaluationConfig) : Process :=
  ⟨claimRuntime, text "run", "fake", none, .ok none, false, .ok false, .ok false, index, count, evaluation⟩

/-- What is left after the cases came to `results`. -/
def localWorld (results : List DatasetResult) : World :=
  ⟨.unavailable, .unavailable, .ok (), [], false, false, .ok results, fiveMillis, .ok (), .unavailable⟩

theorem works_local {index count : Nat} (h : index < count) (evaluation : EvaluationConfig) (results : List DatasetResult) :
    Works (localProcess index count evaluation) (localWorld results) index count evaluation results where
  spend := show providerSpendAllowed "fake" none = true by decide
  index_lt := h
  count_eq := rfl
  evaluation_eq := rfl
  adapter_eq := rfl
  ran_eq := rfl
  signalled_eq := rfl
  permitLost_eq := rfl
  written_eq := rfl
  connected := ⟨none, false, false, none, rfl, rfl, rfl, rfl, rfl, fun _ h => absurd h (Option.not_mem_none _)⟩

/-- A case that answers and meets its assertions. -/
def passingCase : CaseWorld :=
  ⟨0, .closed, [⟨1, .ran ⟨[], .ok ⟨"ok", some 3, some 2, some 1, none, "", none⟩⟩, fiveMillis, 1⟩], 1, .closed, some [], fiveMillis⟩

/-- One task works off one case. -/
def oneCase : List (Pool.Event CaseWorld) := [.enter 0, .take 0, .finish 0 passingCase, .enter 0, .take 0]

/-- One task, one iteration. -/
def RunConfig.oneByOne : RunConfig := ⟨fun _ => 0, none, ⟨1, 1, le_rfl, le_rfl⟩, .plain⟩

theorem sharding_keeps_passing_two_shards :
    let results := fun i => (returned ((RunConfig.oneByOne.shard 2 i).execute [plainCase "alpha" "a", plainCase "beta" "b"]
      oneCase)).getD []
    ∀ i < 2, (summarize (results i) ⟨some 1, some 0, none⟩ fiveMillis).thresholdsPassed = true ∧
      (execute (localProcess i 2 ⟨some 1, some 0, none⟩) (localWorld (results i))).exitCode = 0 := by
  have hreturned : ∀ i < 2, (returned ((RunConfig.oneByOne.shard 2 i).execute
      [plainCase "alpha" "a", plainCase "beta" "b"] oneCase)).isSome = true := by decide +kernel
  refine (sharding_keeps_passing_iff .oneByOne [plainCase "alpha" "a", plainCase "beta" "b"] (by decide)
    ⟨some 1, some 0, none⟩ (by simp) (by simp) rfl (fun _ => oneCase) (by decide +kernel) _ (fun i hi => ?_)
    (by decide +kernel) (fun i => localProcess i 2 _) (fun i => localWorld _)
    (fun i hi => works_local hi _ _)).mpr (Or.inr le_rfl)
  obtain ⟨_, hresults⟩ := Option.isSome_iff_exists.mp (hreturned i hi)
  rw [hresults, Option.getD_some]

/-- **A shard without cases fails an all-passing run.** One case, two shards: the case succeeds, the second shard has
    nothing to do and misses the success rate. -/
theorem sharding_fails_empty_shard :
    let shard := RunConfig.oneByOne.shard 2
    let evaluation : EvaluationConfig := ⟨some 1, none, none⟩
    ((returned ((shard 0).execute [plainCase "alpha" "a"] oneCase)).map fun results => results.map (·.success)) =
      some [true] ∧
    ((returned ((shard 1).execute [plainCase "alpha" "a"] [])).map fun results => results.map (·.success)) = some [] ∧
    (summarize ([] : List DatasetResult) evaluation fiveMillis).thresholdsPassed = false ∧
    (execute (localProcess 1 2 evaluation) (localWorld [])).exitCode = 2 := by
  decide +kernel

/-! ## Terminal records of a queued worker -/

/-- A queued worker for which everything but the Result API is in order: nobody signals it, its adapter is constructed,
    it has no distributed limiter and its cases raise nothing. -/
structure Queued (p : Process) (w : World) (client : ResultClient) (results : List DatasetResult) : Prop where
  sendable_key : ∀ shardIndex, sendable (shardKey p.runID shardIndex) = true
  spend : providerSpendAllowed p.provider p.allowProviderSpend = true
  client_eq : p.client = .ok (some client)
  queueMode_eq : p.queueMode = .ok true
  limits_eq : p.distributedLimits = .ok false
  adapter_eq : w.adapter = .ok ()
  signalled_eq : w.signalled = false
  ran_eq : w.ran = .ok results

/-- Every failure up to the exit code is one the client translates: of the claim, and then, unless the lease is lost
    before, of the local file and the upload. The claimed shard is one of the run. -/
structure Handled (p : Process) (w : World) : Prop where
  claim : ClaimTranslated p.py w.claim
  shard : ∀ claim, claimShard p.py w.claim = .ok (some claim) → 0 ≤ claim.shardIndex ∧ claim.shardIndex < p.shardCount
  upload : ∀ claim, claimShard p.py w.claim = .ok (some claim) → leaseLost p.py w.renewals = false →
    w.written = .ok () ∧ sendable claim.leaseToken = true ∧ w.upload.breaks = false

/-- The run is known to the Result API, from the controller or from this worker. -/
def Registered (p : Process) (w : World) (client : ResultClient) : Prop :=
  p.preRegistered = true ∨ client.registerRun p.runID w.registration = .ok ()

section Queued

variable {p : Process} {w : World} {client : ResultClient} {results : List DatasetResult}

/-- After this the handler of a queued worker writes no terminal record. -/
def Quiet : Except Raised Exit → Prop
  | .error exc => exc.isResultSink = true
  | .ok exit => exit.terminal = []

theorem failed_terminal {exc : Raised} : (failed true true exc).terminal = [] ↔ exc.isResultSink = true := by
  cases hexc : exc.isResultSink <;> simp [failed, hexc]

theorem connect_eq (hclient : p.client = .ok (some client)) :
    connect p w = if p.preRegistered then .ok (some client)
      else (client.registerRun p.runID w.registration).map fun _ => some client := by
  unfold connect
  rw [hclient]
  rfl

theorem connect_of_registered (hclient : p.client = .ok (some client)) (h : Registered p w client) :
    connect p w = .ok (some client) := by
  rw [connect_eq hclient]
  split
  · rfl
  · rename_i hpre
    rw [h.resolve_left hpre]
    rfl

theorem connect_of_not_registered (hclient : p.client = .ok (some client)) (h : ¬Registered p w client) :
    ∃ exc, connect p w = .error exc := by
  obtain ⟨hpre, hregister⟩ := not_or.mp h
  rw [connect_eq hclient, if_neg hpre]
  cases hanswer : client.registerRun p.runID w.registration with
  | ok => exact absurd hanswer hregister
  | error exc => exact ⟨exc, rfl⟩

/-- The part of a queued worker after a claim. -/
theorem body_of_claim (h : Queued p w client results) {claim : QueueClaim}
    (hclaim : claimShard p.py w.claim = .ok (some claim)) :
    body p w (some client) true =
      if p.shardCount < 1 ∨ ¬(0 ≤ claim.shardIndex ∧ claim.shardIndex < p.shardCount) then .error (.python .value)
      else conclude p w (some client) true false claim.shardIndex (some claim.leaseToken) results := by
  unfold body assignment
  rw [if_pos rfl, hclaim]
  show workOn p w (some client) true claim.shardIndex (some claim.leaseToken) = _
  unfold workOn limits
  rw [h.adapter_eq, h.limits_eq, h.ran_eq]
  by_cases hrange : p.shardCount < 1 ∨ ¬(0 ≤ claim.shardIndex ∧ claim.shardIndex < p.shardCount)
  · rw [if_pos hrange, decide_eq_true hrange]
    rfl
  · rw [if_neg hrange, decide_eq_false hrange]
    rfl

theorem quiet_conclude_iff (h : Queued p w client results) (claim : QueueClaim) :
    Quiet (conclude p w (some client) true false claim.shardIndex (some claim.leaseToken) results) ↔
      (leaseLost p.py w.renewals = false → w.written = .ok () ∧ sendable claim.leaseToken = true ∧ w.upload.breaks = false) := by
  unfold conclude
  cases hlost : leaseLost p.py w.renewals with
  | true => simp [Quiet]
  | false =>
    simp only [Bool.and_false, Bool.false_and, Bool.or_false, h.signalled_eq, Bool.false_eq_true, if_false,
      forall_const, ← @uploadShard_translated_iff client p.runID claim.shardIndex (h.sendable_key _)]
    cases hwritten : w.written with
    | error => simp [Quiet, Except.mapError, Raised.isResultSink, bind, Except.bind]
    | ok =>
      cases hupload : client.uploadShard p.runID claim.shardIndex (some claim.leaseToken) w.upload with
      | error => simp [Quiet, Except.mapError, bind, Except.bind]
      | ok => simp [Quiet, Except.mapError, bind, Except.bind, pure, Except.pure]

theorem quiet_body_iff (h : Queued p w client results) :
    Quiet (body p w (some client) true) ↔ Handled p w := by
  have htranslated := @claimTranslated_iff p.py w.claim
  rcases hclaim : claimShard p.py w.claim with exc | claim | claim
  · rw [hclaim] at htranslated
    have hbody : body p w (some client) true = .error exc := by
      unfold body assignment
      rw [if_pos rfl, hclaim]
      rfl
    rw [hbody]
    refine ⟨fun hexc => ⟨htranslated.mp hexc, fun c hc => ?_, fun c hc => ?_⟩, fun hhandled => htranslated.mpr hhandled.claim⟩
    · rw [hclaim] at hc
      cases hc
    · rw [hclaim] at hc
      cases hc
  · rw [hclaim] at htranslated
    have hbody : body p w (some client) true = .ok ⟨0, []⟩ := by
      unfold body assignment
      rw [if_pos rfl, hclaim]
      rfl
    rw [hbody]
    refine iff_of_true rfl ⟨htranslated.mp rfl, fun c hc => ?_, fun c hc => ?_⟩
    · rw [hclaim] at hc
      cases hc
    · rw [hclaim] at hc
      cases hc
  · rw [hclaim] at htranslated
    rw [body_of_claim h hclaim]
    by_cases hrange : 0 ≤ claim.shardIndex ∧ claim.shardIndex < p.shardCount
    · rw [if_neg (by omega), quiet_conclude_iff h claim]
      constructor
      · intro hupload
        refine ⟨htranslated.mp rfl, fun c hc => ?_, fun c hc => ?_⟩
        · rw [hclaim] at hc
          cases hc
          exact hrange
        · rw [hclaim] at hc
          cases hc
          exact hupload
      · exact fun hhandled => hhandled.upload claim hclaim
    · rw [if_pos (Or.inr hrange)]
      exact iff_of_false Bool.false_ne_true fun hhandled => hrange (hhandled.shard claim hclaim)

/-- **When a queued worker terminates its run.** With everything but the Result API in order, a worker in queue mode calls
    `mark_terminal` exactly if the run is registered and some failure of the claim or of the upload is not translated, or
    the claimed shard is not one of the run, or the results cannot be written. Renewals never make it do so. -/
theorem worker_terminal_iff (h : Queued p w client results) :
    (execute p w).terminal = [] ↔ (Registered p w client → Handled p w) := by
  unfold execute
  rw [h.spend, h.queueMode_eq]
  simp only [Bool.not_true, Bool.false_eq_true, if_false]
  by_cases hregistered : Registered p w client
  · simp only [connect_of_registered h.client_eq hregistered, hregistered, forall_const, Option.isSome_some]
    trans Quiet (body p w (some client) true)
    · cases body p w (some client) true with
      | error => exact failed_terminal
      | ok => rfl
    · exact quiet_body_iff h
  · obtain ⟨_, hconnect⟩ := connect_of_not_registered h.client_eq hregistered
    simp [hconnect, failed, hregistered]

end Queued

theorem sendable_token : sendable (text "Bearer " ++ text "token") = true := by decide +kernel

def queuedClient : ResultClient := ⟨text "token", sendable_token⟩

/-- A queued worker of a run with two shards. -/
def queuedProcess : Process :=
  ⟨claimRuntime, text "run", "fake", none, .ok (some queuedClient), true, .ok true, .ok false, 0, 2, ⟨none, none, none⟩⟩

/-- The lease of the claimed shard is renewed once, and the upload finds the API unavailable. -/
def unavailableUpload : World where
  registration := .unavailable
  claim := .answered 200 (.bytes claimBody)
  adapter := .ok ()
  renewals := [.answered 200 (.bytes claimBody)]
  signalled := false
  permitLost := false
  ran := .ok []
  durationMS := 1
  written := .ok ()
  upload := .unavailable

theorem queued_queuedProcess (w : World) (hadapter : w.adapter = .ok ()) (hsignalled : w.signalled = false)
    (hran : w.ran = .ok []) : Queued queuedProcess w queuedClient [] :=
  ⟨sendable_shardKey (by decide +kernel), by decide, rfl, rfl, rfl, hadapter, hsignalled, hran⟩

theorem terminal_iff_unavailable_upload :
    Queued queuedProcess unavailableUpload queuedClient [] ∧ (execute queuedProcess unavailableUpload).terminal = [] := by
  have hqueued := queued_queuedProcess unavailableUpload rfl rfl rfl
  have hclaimed : claimShard queuedProcess.py unavailableUpload.claim = .ok (some ⟨0, text "lease", 1000⟩) := by
    decide +kernel
  refine ⟨hqueued, (worker_terminal_iff hqueued).mpr fun _ => ⟨?_, fun claim hclaim => ?_, fun claim hclaim _ => ?_⟩⟩
  · rw [← claimTranslated_iff, hclaimed, translated_ok]
  · cases hclaimed.symm.trans hclaim
    decide
  · cases hclaimed.symm.trans hclaim
    decide +kernel

/-- **A response that is cut off terminates the run.** The claim is answered, but the connection closes before the body is
    complete. -/
theorem terminal_of_incomplete_claim :
    let cutOff : World := { unavailableUpload with claim := .answered 200 .httpException }
    Queued queuedProcess cutOff queuedClient [] ∧
      execute queuedProcess cutOff = ⟨3, [⟨.harnessFailed, "worker_harness_failure"⟩]⟩ :=
  ⟨queued_queuedProcess _ rfl rfl rfl, by decide +kernel⟩

end AgentStorm.Worker
