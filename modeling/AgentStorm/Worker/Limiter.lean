import AgentStorm.Foundation.Machine
import AgentStorm.Worker.Errors

/-!
# `Worker.Limiter` — one use of the permit manager

`DistributedLimiter.permit` of `scheduler.py`, as the event loop runs it. The task that uses the
manager, its owner, is suspended at one of five awaits, and what happens between two of its turns is an
event of somebody else. A cancellation is a request until the owner's next turn, where it is raised at
the await instead of the result. A call still queued for a thread is then never made; one that runs
goes on without anybody to hand its result to.
-/

namespace AgentStorm.Worker.Limiter

open Machine

/-! ## Sessions -/

structure PermitGrant where
  permitID : String
  leaseToken : String
  renewAfterMS : Int
  deriving DecidableEq, Repr

/-- What `acquire_permit` raises: `SchedulerBusy`, `ResultSinkError`, or anything else. -/
inductive AcquireFailure
  | busy (retryAfterMS : Int)
  | sink
  | other
  deriving DecidableEq, Repr

/-- A call handed to `asyncio.to_thread`. -/
inductive Threaded (α : Type)
  | queued
  | running
  | done (result : α)
  deriving DecidableEq, Repr

/-- How the body of the manager ends. -/
inductive BodyEnd
  | returned
  | raised
  | cancelled
  deriving DecidableEq, Repr

/-- How the owner leaves the manager. -/
inductive Leaving
  | returned
  | raised
  | cancelled
  | failed (failure : LimiterFailure)
  deriving DecidableEq, Repr

/-- The await at which the owner is suspended. -/
inductive Owner
  /-- `to_thread(acquire_permit)` -/
  | acquiring (call : Threaded (Except AcquireFailure PermitGrant))
  /-- `wait_for(stop_event.wait(), delay)` -/
  | pausing
  /-- `yield` -/
  | body (grant : PermitGrant)
  /-- `gather(renew_task)` -/
  | joining (grant : PermitGrant) (leaving : Leaving)
  /-- `to_thread(release_permit)` -/
  | releasing (grant : PermitGrant) (leaving : Leaving) (call : Threaded Unit)
  | ended (leaving : Leaving)
  deriving DecidableEq

/-- A call of the client, by the grant it returned or was made for. -/
inductive ClientCall
  | acquired (grant : PermitGrant)
  | released (grant : PermitGrant)
  deriving DecidableEq, Repr

structure Session where
  stop : Bool
  leaseLost : Bool
  renewalFailed : Bool
  /-- `owner.cancel()` was called since the owner's last turn. -/
  cancelling : Bool
  owner : Owner
  /-- An acquire call that runs on although its await was cancelled. -/
  stray : Bool
  /-- The calls that returned a grant or were made for one, oldest first. -/
  calls : List ClientCall
  deriving DecidableEq

inductive Event
  | setStop
  | cancel
  | callStarts
  | acquireReturns (result : Except AcquireFailure PermitGrant)
  | releaseReturns
  | renewalFails
  | bodyEnds (how : BodyEnd)
  | resume (now : ℚ)
  deriving DecidableEq

/-! ## Turns -/

/-- The owner goes on to its next await; a cancellation has been delivered. -/
def Session.moveTo (s : Session) (owner : Owner) : Session := { s with owner, cancelling := false }

/-- The head of the loop of `_wait_for_grant`. -/
def Session.ask (deadline now : ℚ) (s : Session) : Session :=
  if s.stop then s.moveTo (.ended .cancelled)
  else if deadline ≤ now then s.moveTo (.ended (.failed .limitTimeout))
  else s.moveTo (.acquiring .queued)

/-- The manager is entered at `now`. -/
def enter (deadline now : ℚ) (stop : Bool) : Session :=
  Session.ask deadline now
    { stop, leaseLost := false, renewalFailed := false, cancelling := false, owner := .pausing, stray := false, calls := [] }

/-- The owner's turn after an acquire call that ended by itself. -/
def Session.acquireTurn (deadline now : ℚ) (s : Session) : Except AcquireFailure PermitGrant → Session
  | .ok grant => if s.stop then s.moveTo (.ended .cancelled) else s.moveTo (.body grant)
  | .error (.busy retryAfterMS) =>
    let remaining := max 0 (deadline - now)
    let delay := min ((retryAfterMS : ℚ) / 1000) remaining
    if delay ≤ 0 then
      if s.stop then s.moveTo (.ended .cancelled) else s.moveTo (.ended (.failed .limitTimeout))
    else s.moveTo .pausing
  | .error .sink => s.moveTo (.ended (.failed .schedulerUnavailable))
  | .error .other => s.moveTo (.ended .raised)

/-- What the `finally` clause is entered with. -/
def leavingOf (renewalFailed : Bool) : BodyEnd → Leaving
  | .returned => if renewalFailed then .failed .permitLost else .returned
  | .raised => .raised
  | .cancelled => if renewalFailed then .failed .permitLost else .cancelled

/-- The owner's turn; without a result to go on with there is none. -/
def Session.resume (deadline now : ℚ) (s : Session) : Option Session :=
  match s.owner with
  | .acquiring call =>
    if s.cancelling then some { s.moveTo (.ended .cancelled) with stray := decide (call = .running) }
    else match call with
      | .done result => some (s.acquireTurn deadline now result)
      | _ => none
  | .pausing => if s.cancelling then some (s.moveTo (.ended .cancelled)) else some (s.ask deadline now)
  | .body _ => none
  | .joining grant leaving =>
    if s.cancelling then some (s.moveTo (.ended .cancelled)) else some (s.moveTo (.releasing grant leaving .queued))
  | .releasing _ leaving call =>
    if s.cancelling then some (s.moveTo (.ended .cancelled))
    else match call with
      | .done () => some (s.moveTo (.ended leaving))
      | _ => none
  | .ended _ => none

/-- The call a grant leaves in the record. -/
def returnedGrant : Except AcquireFailure PermitGrant → List ClientCall
  | .ok grant => [.acquired grant]
  | .error _ => []

/-- An event in a session; one that cannot happen there is none. -/
def Session.take (deadline : ℚ) (s : Session) : Event → Option Session
  | .setStop => some { s with stop := true }
  | .cancel => match s.owner with
      | .ended _ => none
      | _ => some { s with cancelling := true }
  | .callStarts => match s.owner with
      | .acquiring .queued => some { s with owner := .acquiring .running }
      | .releasing grant leaving .queued =>
        some { s with owner := .releasing grant leaving .running, calls := s.calls ++ [.released grant] }
      | _ => none
  | .acquireReturns result => match s.owner with
      | .acquiring .running => some { s with owner := .acquiring (.done result), calls := s.calls ++ returnedGrant result }
      | _ => if s.stray then some { s with stray := false, calls := s.calls ++ returnedGrant result } else none
  | .releaseReturns => match s.owner with
      | .releasing grant leaving .running => some { s with owner := .releasing grant leaving (.done ()) }
      | _ => none
  | .renewalFails => match s.owner with
      | .body _ =>
        if s.renewalFailed then none
        else some { s with renewalFailed := true, leaseLost := true, stop := true, cancelling := true }
      | _ => none
  | .bodyEnds how => match s.owner with
      | .body grant => some (s.moveTo (.joining grant (leavingOf s.renewalFailed how)))
      | _ => none
  | .resume now => s.resume deadline now

def machine (deadline : ℚ) : Transactional Session Event Unit Unit where
  exec e s := match s.take deadline e with
    | some next => .ok ((), next)
    | none => .error ()

/-! ## Grants -/

variable {s : Session} {deadline : ℚ} {lost : Bool}

/-- Every grant that was returned is released later. -/
def Followed : List ClientCall → Prop
  | [] => True
  | .acquired grant :: later => .released grant ∈ later ∧ Followed later
  | .released _ :: later => Followed later

/-- The step leaves a grant behind: the owner is stopped or cancelled before the guarded block, cancelled inside its
    `finally` clause before the release is made, or gone when the grant comes. -/
def Session.loses (s : Session) : Event → Bool
  | .resume _ => match s.owner with
      | .acquiring (.done (.ok _)) => s.cancelling || s.stop
      | .joining _ _ => s.cancelling
      | .releasing _ _ .queued => s.cancelling
      | _ => false
  | .acquireReturns (.ok _) => s.stray
  | _ => false

/-- The steps of a run that leave a grant behind. -/
def losses (deadline : ℚ) (s : Session) (es : List Event) : List Event :=
  (machine deadline).trace (fun s e => if s.loses e then some e else none) s es

/-- The calls on record while the owner is at an await of the manager. -/
def Owner.record : Owner → List ClientCall
  | .acquiring (.done result) => returnedGrant result
  | .acquiring _ | .pausing => []
  | .body grant | .joining grant _ => [.acquired grant]
  | .releasing grant _ .queued => [.acquired grant]
  | .releasing grant _ _ => [.acquired grant, .released grant]
  | .ended _ => []

/-- The calls on record when the owner has left, by whether a step has left a grant behind. -/
inductive Finished : (lost stray : Bool) → List ClientCall → Prop
  | ungranted (stray : Bool) : Finished false stray []
  | released (grant : PermitGrant) : Finished false false [.acquired grant, .released grant]
  | lost (grant : PermitGrant) : Finished true false [.acquired grant]

/-- What every session keeps; `lost` says whether a step so far has left a grant behind. -/
def Kept (lost : Bool) (s : Session) : Prop :=
  match s.owner with
  | .ended _ => Finished lost s.stray s.calls
  | owner => lost = false ∧ s.stray = false ∧ s.calls = owner.record

/-- The owner moves on with nothing on record. -/
theorem kept_moveTo_ungranted {owner : Owner} (hstray : s.stray = false) (hcalls : s.calls = [])
    (howner : owner.record = []) : Kept false (s.moveTo owner) := by
  cases owner with
  | ended =>
    change Finished false s.stray s.calls
    rw [hstray, hcalls]
    exact .ungranted false
  | _ => exact ⟨rfl, hstray, hcalls.trans howner.symm⟩

variable {now : ℚ}

theorem kept_ask (hstray : s.stray = false) (hcalls : s.calls = []) :
    Kept false (s.ask deadline now) := by
  unfold Session.ask
  split
  · exact kept_moveTo_ungranted hstray hcalls rfl
  · split
    · exact kept_moveTo_ungranted hstray hcalls rfl
    · exact kept_moveTo_ungranted hstray hcalls rfl

theorem kept_enter (deadline now : ℚ) (stop : Bool) : Kept false (enter deadline now stop) :=
  kept_ask rfl rfl

/-- The turn after the acquire call; only a stop event that is already set gives the grant away. -/
theorem kept_acquireTurn {result : Except AcquireFailure PermitGrant}
    (howner : s.owner = .acquiring (.done result)) (hcancelling : s.cancelling = false)
    (hstray : s.stray = false) (hcalls : s.calls = returnedGrant result) :
    Kept (s.loses (.resume now)) (s.acquireTurn deadline now result) := by
  cases result with
  | ok grant =>
    have hloses : s.loses (.resume now) = s.stop := by
      simp [Session.loses, howner, hcancelling]
    rw [hloses]
    unfold Session.acquireTurn
    cases hstop : s.stop with
    | true =>
      change Finished true s.stray s.calls
      rw [hstray, hcalls]
      exact .lost grant
    | false => exact ⟨rfl, hstray, hcalls⟩
  | error failure =>
    have hloses : s.loses (.resume now) = false := by
      simp [Session.loses, howner]
    rw [hloses]
    cases failure with
    | busy =>
      unfold Session.acquireTurn
      dsimp only
      split
      · split
        · exact kept_moveTo_ungranted hstray hcalls rfl
        · exact kept_moveTo_ungranted hstray hcalls rfl
      · exact kept_moveTo_ungranted hstray hcalls rfl
    | sink => exact kept_moveTo_ungranted hstray hcalls rfl
    | other => exact kept_moveTo_ungranted hstray hcalls rfl

/-- **The owner's turn** keeps the record, and leaves the grant behind exactly where `loses` says. -/
theorem kept_resume {next : Session} (hkept : Kept lost s) (h : s.resume deadline now = some next) :
    Kept (lost || s.loses (.resume now)) next := by
  obtain ⟨_, _, _, cancelling, owner, stray, calls⟩ := s
  cases owner with
  | ended => cases h
  | body => cases h
  | pausing =>
    obtain ⟨rfl, hstray, hcalls⟩ := hkept
    cases cancelling with
    | true =>
      cases h
      exact kept_moveTo_ungranted hstray hcalls rfl
    | false =>
      cases h
      exact kept_ask hstray hcalls
  | joining grant =>
    obtain ⟨rfl, hstray, hcalls⟩ := hkept
    obtain rfl : stray = false := hstray
    obtain rfl : calls = [.acquired grant] := hcalls
    cases cancelling with
    | true =>
      -- the exception leaves the clause at the `gather`, before the release
      cases h
      exact Finished.lost grant
    | false =>
      cases h
      exact ⟨rfl, rfl, rfl⟩
  | releasing grant leaving call =>
    obtain ⟨rfl, hstray, hcalls⟩ := hkept
    obtain rfl : stray = false := hstray
    cases call with
    | queued =>
      obtain rfl : calls = [.acquired grant] := hcalls
      cases cancelling with
      | true =>
        cases h
        exact Finished.lost grant
      | false => cases h
    | running =>
      obtain rfl : calls = [.acquired grant, .released grant] := hcalls
      cases cancelling with
      | true =>
        cases h
        exact Finished.released grant
      | false => cases h
    | done =>
      obtain rfl : calls = [.acquired grant, .released grant] := hcalls
      cases cancelling with
      | true =>
        cases h
        exact Finished.released grant
      | false =>
        cases h
        exact Finished.released grant
  | acquiring call =>
    obtain ⟨rfl, hstray, hcalls⟩ := hkept
    obtain rfl : stray = false := hstray
    cases call with
    | queued =>
      obtain rfl : calls = [] := hcalls
      cases cancelling with
      | true =>
        cases h
        exact Finished.ungranted _
      | false => cases h
    | running =>
      obtain rfl : calls = [] := hcalls
      cases cancelling with
      | true =>
        cases h
        exact Finished.ungranted _
      | false => cases h
    | done result =>
      obtain rfl : calls = returnedGrant result := hcalls
      cases cancelling with
      | true =>
        cases h
        cases result with
        | ok grant => exact Finished.lost grant
        | error => exact Finished.ungranted _
      | false =>
        cases h
        exact kept_acquireTurn rfl rfl rfl rfl

/-- What is kept is about the owner and the calls only. -/
theorem Kept.congr {t : Session} (hkept : Kept lost s) (howner : t.owner = s.owner)
    (hstray : t.stray = s.stray) (hcalls : t.calls = s.calls) : Kept lost t := by
  unfold Kept
  rw [howner, hstray, hcalls]
  exact hkept

/-- Only an owner that has left can have left a call running. -/
theorem Kept.ended_of_stray (hkept : Kept lost s) (hstray : s.stray = true) :
    lost = false ∧ s.calls = [] ∧ ∃ leaving, s.owner = .ended leaving := by
  obtain ⟨_, _, _, _, owner, stray, calls⟩ := s
  obtain rfl : stray = true := hstray
  cases owner with
  | ended leaving =>
    cases (hkept : Finished lost true calls) with
    | ungranted => exact ⟨rfl, rfl, leaving, rfl⟩
  | _ => exact Bool.noConfusion (hkept.2.1 : true = false)

theorem kept_acquireReturns {next : Session} {result : Except AcquireFailure PermitGrant}
    (hkept : Kept lost s) (h : s.take deadline (.acquireReturns result) = some next) :
    Kept (lost || s.loses (.acquireReturns result)) next := by
  cases hstray : s.stray with
  | true =>
    -- nobody is there to take the grant
    obtain ⟨rfl, hcalls, _, howner⟩ := hkept.ended_of_stray hstray
    simp only [Session.take, howner, hstray, if_true] at h
    cases h
    unfold Kept
    simp only [hcalls, List.nil_append]
    cases result with
    | ok grant =>
      simp only [Session.loses, hstray, Bool.false_or]
      exact .lost grant
    | error => exact .ungranted false
  | false =>
    have hloses : s.loses (.acquireReturns result) = false := by
      cases result with
      | ok => exact hstray
      | error => rfl
    rw [hloses, Bool.or_false]
    simp only [Session.take, hstray] at h
    split at h
    · rename_i howner
      cases h
      simp only [Kept, howner] at hkept
      obtain ⟨rfl, -, hcalls⟩ := hkept
      refine ⟨rfl, rfl, ?_⟩
      change s.calls ++ returnedGrant result = returnedGrant result
      rw [hcalls]
      rfl
    · cases h

/-- **One event** keeps the record. -/
theorem kept_take {next : Session} {e : Event} (hkept : Kept lost s) (h : s.take deadline e = some next) :
    Kept (lost || s.loses e) next := by
  have hkeeps : s.loses e = false → Kept lost next → Kept (lost || s.loses e) next := by
    intro hloses hnext
    rwa [hloses, Bool.or_false]
  cases e with
  | resume => exact kept_resume hkept h
  | acquireReturns => exact kept_acquireReturns hkept h
  | setStop =>
    cases h
    exact hkeeps rfl (hkept.congr rfl rfl rfl)
  | cancel =>
    simp only [Session.take] at h
    split at h
    · cases h
    · cases h
      exact hkeeps rfl (hkept.congr rfl rfl rfl)
  | callStarts =>
    simp only [Session.take] at h
    split at h
    · rename_i howner
      cases h
      simp only [Kept, howner] at hkept
      exact hkeeps rfl hkept
    · rename_i grant leaving howner
      cases h
      simp only [Kept, howner] at hkept
      obtain ⟨rfl, hstray, hcalls⟩ := hkept
      refine hkeeps rfl ⟨rfl, hstray, ?_⟩
      change s.calls ++ [.released grant] = [.acquired grant, .released grant]
      rw [hcalls]
      rfl
    · cases h
  | releaseReturns | bodyEnds =>
    simp only [Session.take] at h
    split at h
    · rename_i howner
      cases h
      simp only [Kept, howner] at hkept
      exact hkeeps rfl hkept
    · cases h
  | renewalFails =>
    simp only [Session.take] at h
    split at h
    · split at h
      · cases h
      · cases h
        exact hkeeps rfl (hkept.congr rfl rfl rfl)
    · cases h

/-- An event that cannot happen leaves nothing behind. -/
theorem loses_eq_false_of_take {e : Event} (hkept : Kept lost s) (h : s.take deadline e = none) :
    s.loses e = false := by
  cases e with
  | resume =>
    obtain ⟨_, _, _, cancelling, owner, _, _⟩ := s
    -- a cancelled owner always has a turn, and so has one whose call has returned
    cases owner with
    | acquiring call =>
      cases call with
      | done => cases cancelling <;> exact nomatch h
      | _ => rfl
    | joining => cases cancelling <;> exact nomatch h
    | releasing grant leaving call =>
      cases call with
      | queued =>
        cases cancelling with
        | true => cases h
        | false => rfl
      | _ => rfl
    | _ => rfl
  | acquireReturns result =>
    cases result with
    | error => rfl
    | ok =>
      by_contra hloses
      have hstray : s.stray = true := by
        simpa only [Session.loses, Bool.not_eq_false] using hloses
      obtain ⟨-, -, _, howner⟩ := hkept.ended_of_stray hstray
      simp only [Session.take, howner, hstray, if_true] at h
      cases h
  | _ => rfl

/-- **Every run** keeps the record. -/
theorem kept_run (deadline now : ℚ) (stop : Bool) (es : List Event) :
    Kept (!(losses deadline (enter deadline now stop) es).isEmpty) ((machine deadline).run (enter deadline now stop) es) := by
  induction es using List.reverseRecOn with
  | nil => exact kept_enter deadline now stop
  | append_singleton es e ih =>
    set s := (machine deadline).run (enter deadline now stop) es with hs
    have hlosses : (!(losses deadline (enter deadline now stop) (es ++ [e])).isEmpty) =
        (!(losses deadline (enter deadline now stop) es).isEmpty || s.loses e) := by
      unfold losses
      rw [Transactional.trace_concat, ← hs]
      cases hloses : s.loses e <;> simp
    rw [hlosses, Transactional.run_concat, ← hs]
    cases htake : s.take deadline e with
    | none =>
      have hstep : (machine deadline).step s e = s := by
        simp [Transactional.step, machine, htake]
      rw [hstep, loses_eq_false_of_take ih htake, Bool.or_false]
      exact ih
    | some next =>
      have hstep : (machine deadline).step s e = next := by
        simp [Transactional.step, machine, htake]
      rw [hstep]
      exact kept_take ih htake

theorem Finished.followed_iff {stray : Bool} {calls : List ClientCall} (h : Finished lost stray calls) :
    Followed calls ↔ lost = false := by
  cases h with
  | ungranted => exact iff_of_true trivial rfl
  | released => exact iff_of_true ⟨List.mem_singleton.mpr rfl, trivial⟩ rfl
  | lost => exact iff_of_false (fun h => List.not_mem_nil h.1) (by decide)

/-- **A grant is released before the owner leaves** exactly in the interleavings without a loss: the owner goes on with
    the grant neither stopped nor cancelled, is not cancelled again in the `finally` clause before the release is made, and
    is not cancelled away from an acquire call that then returns a grant. -/
theorem released_iff {stop : Bool} {es : List Event} {leaving : Leaving}
    (hended : ((machine deadline).run (enter deadline now stop) es).owner = .ended leaving) :
    Followed ((machine deadline).run (enter deadline now stop) es).calls ↔
      losses deadline (enter deadline now stop) es = [] := by
  have hkept := kept_run deadline now stop es
  unfold Kept at hkept
  rw [hended] at hkept
  rw [hkept.followed_iff, Bool.not_eq_false', List.isEmpty_iff]

def PermitGrant.plain : PermitGrant := ⟨"permit", "token", 1000⟩

/-- An undisturbed use of the manager. -/
theorem released_undisturbed :
    Followed ((machine 1).run (enter 1 0 false)
      [.callStarts, .acquireReturns (.ok .plain), .resume 0, .bodyEnds .returned, .resume 0, .callStarts, .releaseReturns,
        .resume 0]).calls := by
  have hended : ((machine 1).run (enter 1 0 false)
      [.callStarts, .acquireReturns (.ok .plain), .resume 0, .bodyEnds .returned, .resume 0, .callStarts, .releaseReturns,
        .resume 0]).owner = .ended .returned := by decide +kernel
  exact (released_iff hended).mpr (by decide +kernel)

/-- The stop event is set while the acquire call runs. -/
theorem released_stopped :
    let s := (machine 1).run (enter 1 0 false) [.callStarts, .setStop, .acquireReturns (.ok .plain), .resume 0]
    s.owner = .ended .cancelled ∧ ¬Followed s.calls := by
  have hcalls : ((machine 1).run (enter 1 0 false)
      [.callStarts, .setStop, .acquireReturns (.ok .plain), .resume 0]).calls = [.acquired .plain] := by decide +kernel
  refine ⟨by decide +kernel, ?_⟩
  rw [hcalls]
  exact fun h => List.not_mem_nil h.1

end AgentStorm.Worker.Limiter
