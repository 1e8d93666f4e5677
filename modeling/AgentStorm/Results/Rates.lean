import AgentStorm.Foundation.Window
import AgentStorm.Results.Caps

/-!
# `Results.Rates` — new permits never exceed the requests per minute

Every new permit leaves a rate event with the begin time of its transaction, and later grants delete
the events that are an hour old. Begin times need not follow the order of the advisory lock. As long as
no acquisition begins 59 minutes or more before one that ran earlier, no grant looks at times that were
pruned, and the events it counts are the permits that were granted then.
-/

namespace AgentStorm.Results

open Checks Machine Machine.Transactional Relational Window

variable {P : Platform} {policy : LimitPolicy} {t : Txn} {db db' : Db} {a : Answer} {es : List Txn}

/-! ## New permits -/

def Op.acquires : Op → Bool
  | .acquirePermit _ _ _ _ => true
  | _ => false

/-- The rate event of a transaction that was granted a new permit. A repeated request, answered from its stored permit,
    has none. -/
def newGrant? (P : Platform) (policy : LimitPolicy) (db : Db) (t : Txn) : Option RateEventRow :=
  match t.op, (machine P policy).answer db t with
  | .acquirePermit _ request _ _, .ok _ =>
    if ((prunePermits t.now db).permit? request.requestID).isNone
    then some ⟨request.requestID, request.provider, t.now⟩
    else none
  | _, _ => none

/-- The new permits of a history, oldest first, whatever became of their rate events. -/
def grants (P : Platform) (policy : LimitPolicy) (es : List Txn) : List RateEventRow :=
  (machine P policy).trace (newGrant? P policy) Db.empty es

theorem newGrant?_of_error {c : ApiError} (h : (machine P policy).exec t db = .error c) :
    newGrant? P policy db t = none := by
  unfold newGrant?
  rw [answer_error h]
  split <;> first | rfl | contradiction

theorem newGrant?_of_not_acquires (h : t.op.acquires = false) : newGrant? P policy db t = none := by
  unfold newGrant?
  split
  · rename_i hop _
    rw [hop] at h
    cases h
  · rfl

/-! ## One transaction -/

/-- What a transaction does to the rate events, with the event of the permit it was granted. -/
inductive RatesChange (policy : LimitPolicy) (t : Txn) (events : Table RateEventRow) :
    Option RateEventRow → Table RateEventRow → Prop
  | same : RatesChange policy t events none events
  | granted (e : RateEventRow) (events' : Table RateEventRow) (hacquires : t.op.acquires = true)
      (htime : e.occurredAt = t.now)
      (hglobal : atLimit policy.global.requestsPerMinute (events.count (RateEventRow.recentAt t.now)) = false)
      (hprovider : atLimit (policy.providers e.provider).requestsPerMinute
        (events.count fun r => decide (r.provider = e.provider) && r.recentAt t.now) = false)
      (hins : events.insert e = some events') :
      RatesChange policy t events (some e) (events'.delete fun r => decide (r.occurredAt < t.now - microsPerHour))

theorem Commit.rateEvents_eq (h : Commit P t db a db') (hop : t.op.permit = false) : db'.rateEvents = db.rateEvents := by
  cases h with
  | registerNew => exact enqueueRunShards_rateEvents _ _ _
  | registerAgain => exact enqueueRunShards_rateEvents _ _ _
  | finalize _ _ _ _ _ _ _ _ _ _ _ _ _ _ hrefresh => exact (refreshAggregate_frame hrefresh).2.2.2.2
  | permit _ _ _ _ hpermit =>
    rw [hop] at hpermit
    cases hpermit
  | terminate | terminateAgain | reclaim | claim | renew | reserveNew | reserveAgain | finalizeAgain => rfl

theorem rateEvents_eq_of_not_acquires (h : (machine P policy).exec t db = .ok (a, db')) (hop : t.op.acquires = false) :
    db'.rateEvents = db.rateEvents := by
  cases hpermit : t.op.permit with
  | false => exact (commit_of_exec h).rateEvents_eq hpermit
  | true =>
    obtain ⟨op, _, _⟩ := t
    cases op with
    | acquirePermit => cases hop
    | renewPermit =>
      obtain ⟨_, hrenew, -⟩ := exec_renewPermit_ok h
      rw [renewPermit_ok hrenew]
    | releasePermit => rw [releasePermit_ok (exec_releasePermit_ok h).1]
    | registerRun | terminateRun | claimShard | renewShardLease | reserveShard | finalizeShard => cases hpermit

theorem ratesChange_of_acquire {runID : String} {request : PermitRequest} {permitID : RandomIdentifier}
    {token : SchedulerToken} (hop : t.op = .acquirePermit runID request permitID token)
    (h : (machine P policy).exec t db = .ok (a, db')) :
    RatesChange policy t db.rateEvents (newGrant? P policy db t) db'.rateEvents := by
  have hanswer := answer_ok h
  obtain ⟨op, _, _⟩ := t
  obtain rfl : op = .acquirePermit runID request permitID token := hop
  obtain ⟨-, _, hacquire, -⟩ := exec_acquirePermit_ok h
  simp only [newGrant?, hanswer]
  obtain ⟨_, -, -, -, ⟨_, hexisting, -, -, rfl⟩ | ⟨hnone, hgrant⟩⟩ := acquireFrom_ok hacquire
  · rw [hexisting]
    exact .same
  · obtain ⟨_, rateEvents, -, hins, rfl⟩ := hgrant.stored
    rw [hnone]
    exact .granted _ rateEvents rfl rfl hgrant.globalRate hgrant.providerRate hins

theorem ratesChange_of_step (P : Platform) (policy : LimitPolicy) (db : Db) (t : Txn) :
    RatesChange policy t db.rateEvents (newGrant? P policy db t) ((machine P policy).step db t).rateEvents := by
  cases hexec : (machine P policy).exec t db with
  | error =>
    rw [newGrant?_of_error hexec, step_error hexec]
    exact .same
  | ok =>
    rw [step_ok hexec]
    cases hop : t.op with
    | acquirePermit => exact ratesChange_of_acquire hop hexec
    | registerRun | terminateRun | claimShard | renewShardLease | reserveShard | finalizeShard | renewPermit
    | releasePermit =>
      have hnot : t.op.acquires = false := by rw [hop]; rfl
      rw [newGrant?_of_not_acquires hnot, rateEvents_eq_of_not_acquires hexec hnot]
      exact .same

/-! ## Whole runs of the machine -/

/-- No acquisition begins 59 minutes or more before one that ran earlier. Other transactions may begin at any time. -/
def WithinSkew (es : List Txn) : Prop :=
  (es.filter (·.op.acquires)).Pairwise fun u t => u.now - 59 * microsPerMinute < t.now

theorem WithinSkew.left {fs : List Txn} (h : WithinSkew (es ++ fs)) : WithinSkew es := by
  unfold WithinSkew at h
  rw [List.filter_append, List.pairwise_append] at h
  exact h.1

theorem WithinSkew.lt (h : WithinSkew (es ++ [t])) (ht : t.op.acquires = true) {u : Txn} (hu : u ∈ es)
    (hacquires : u.op.acquires = true) : u.now - 59 * microsPerMinute < t.now := by
  unfold WithinSkew at h
  rw [List.filter_append, List.pairwise_append] at h
  exact h.2.2 u (List.mem_filter.mpr ⟨hu, hacquires⟩) t (List.mem_filter.mpr ⟨List.mem_singleton_self t, ht⟩)

/-- The permits granted so far, next to the rate events that are left of them. -/
structure RatesKept (policy : LimitPolicy) (es : List Txn) (history : List RateEventRow) (events : Table RateEventRow) :
    Prop where
  agree : ∀ floor, (∀ u ∈ es, u.op.acquires = true → u.now - microsPerHour ≤ floor) →
    AgreeAfter RateEventRow.occurredAt floor events.rows history
  global : policy.global.requestsPerMinute ≠ 0 →
    Bounded RateEventRow.occurredAt microsPerMinute (fun _ => true) policy.global.requestsPerMinute history
  provider : ∀ name, (policy.providers name).requestsPerMinute ≠ 0 →
    Bounded RateEventRow.occurredAt microsPerMinute (fun r => decide (r.provider = name))
      (policy.providers name).requestsPerMinute history

theorem RatesKept.step {history : List RateEventRow} {events events' : Table RateEventRow} {granted : Option RateEventRow}
    (h : RatesKept policy es history events) (hskew : WithinSkew (es ++ [t]))
    (hchange : RatesChange policy t events granted events') :
    RatesKept policy (es ++ [t]) (history ++ granted.toList) events' := by
  cases hchange with
  | same =>
    rw [Option.toList_none, List.append_nil]
    exact ⟨fun floor hfloor => h.agree floor fun u hu => hfloor u (List.mem_append_left _ hu), h.global, h.provider⟩
  | granted e _ hacquires htime hglobal hprovider hins =>
    -- the last minute is out of reach of every earlier prune
    have hagree : AgreeAfter RateEventRow.occurredAt (e.occurredAt - microsPerMinute) events.rows history := by
      refine h.agree _ fun u hu hacq => ?_
      have hlt : u.now - 59 * microsPerMinute < t.now := hskew.lt hacquires hu hacq
      rw [htime]
      unfold microsPerHour
      linarith
    refine ⟨fun floor hfloor => ?_, fun hset => ?_, fun name hset => ?_⟩
    · have hmark : t.now - microsPerHour ≤ floor := hfloor t (by simp) hacquires
      have hbefore := h.agree floor fun u hu => hfloor u (List.mem_append_left _ hu)
      simp only [Table.delete, Table.rows_of_insert hins]
      exact (hbefore.concat e).prune hmark
    · refine (h.global hset).concat hagree fun _ => ?_
      have hroom := lt_of_atLimit hglobal hset
      simp only [Bool.true_and, htime]
      exact hroom
    · refine (h.provider name hset).concat hagree fun hname => ?_
      obtain rfl : e.provider = name := of_decide_eq_true hname
      rw [htime]
      exact lt_of_atLimit hprovider hset

theorem ratesKept_run (P : Platform) (policy : LimitPolicy) (es : List Txn) (hskew : WithinSkew es) :
    RatesKept policy es (grants P policy es) ((machine P policy).run Db.empty es).rateEvents := by
  refine run_induction WithinSkew
    (fun es db => RatesKept policy es (grants P policy es) (Db.rateEvents db)) (fun _ _ h => h.left) ?_ ?_ es hskew
  · exact ⟨fun _ _ => rfl, fun _ => bounded_nil _ _ _, fun _ _ => bounded_nil _ _ _⟩
  · intro es t hskew ih
    rw [grants, trace_concat]
    exact ih.step hskew (ratesChange_of_step P policy _ t)

/-- The minute that begins at `start`. -/
def RateEventRow.withinMinute (start : Time) (r : RateEventRow) : Bool :=
  decide (start ≤ r.occurredAt) && decide (r.occurredAt < start + microsPerMinute)

/-- No minute holds more new permits than the limits that are set. -/
structure WithinRates (policy : LimitPolicy) (history : List RateEventRow) : Prop where
  global : policy.global.requestsPerMinute ≠ 0 →
    ∀ start, history.countP (RateEventRow.withinMinute start) ≤ policy.global.requestsPerMinute
  provider : ∀ name, (policy.providers name).requestsPerMinute ≠ 0 →
    ∀ start, (history.countP fun r => decide (r.provider = name) && r.withinMinute start) ≤
      (policy.providers name).requestsPerMinute

/-- **The rates hold.** In any history of transactions whose acquisitions begin less than 59 minutes behind the latest
    one before them, no minute holds more new permits than a limit that is set. -/
theorem permit_rates (P : Platform) (policy : LimitPolicy) (es : List Txn) (hskew : WithinSkew es) :
    WithinRates policy (grants P policy es) := by
  have hkept := ratesKept_run P policy es hskew
  refine ⟨fun hset start => ?_, fun name hset start => hkept.provider name hset start⟩
  have hbound := hkept.global hset start
  simp only [Bool.true_and] at hbound
  exact hbound

/-- Two requests a minute. -/
def twoAMinute : LimitPolicy := ⟨⟨0, 2⟩, fun _ => ⟨0, 2⟩, 60000⟩

/-- Three acquisitions that begin out of order, the third one refused, and one that begins two minutes later. -/
def rateTraffic : List Txn :=
  let request (text : String) : PermitRequest := ⟨checksumHex (Text.bytes text), "worker", "fake"⟩
  [registerAt 0 "run" (.reference "suite" "keda" 1),
    ⟨.acquirePermit "run" (request "first") .ofA .ofA, 30000000, 0⟩,
    ⟨.acquirePermit "run" (request "second") .ofB .ofB, 10000000, 0⟩,
    ⟨.acquirePermit "run" (request "third") .ofC .ofC, 20000000, 0⟩,
    ⟨.acquirePermit "run" (request "third") .ofD .ofD, 130000000, 0⟩]

theorem permit_rates_traffic :
    WithinRates twoAMinute (grants (.reference []) twoAMinute rateTraffic) ∧
    (grants (.reference []) twoAMinute rateTraffic).map (·.occurredAt) = [30000000, 10000000, 130000000] := by
  refine ⟨permit_rates (.reference []) twoAMinute rateTraffic ?_, by decide +kernel⟩
  unfold WithinSkew
  decide +kernel

end AgentStorm.Results
