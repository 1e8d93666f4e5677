import AgentStorm.Results.Coupling

/-!
# `Results.Upload` — concurrent uploads, the database and the object store

`UploadShardWithLease` is three steps, and other requests run between them: `ReserveShard`, the `Put`
of the compressed document, `FinalizeShard`. A `World` is the database, the object store and the
requests that are between two of their steps; `uploads` is the machine whose events are the single
steps of any number of uploads, next to every other transaction of the service.

A request may die after each of its steps (`crash`). A `Put` that reports an error may have written the
object or not; one that reports success has.
-/

namespace AgentStorm.Results

open Checks Machine Machine.Transactional Relational Text

/-- An upload between two of its steps; `stored` once its object is written. -/
structure Flight where
  call : UploadCall
  pricing : Option RunPricing
  stored : Bool
  deriving DecidableEq

structure World where
  db : Db
  objects : String → Option Bytes
  flights : Nat → Option Flight

def World.empty : World := ⟨Db.empty, fun _ => none, fun _ => none⟩

inductive PutOutcome
  | stored
  | failed (written : Bool)

inductive Event
  | client (t : Txn)
  | reserve (request : Nat) (call : UploadCall) (now : Time)
  | put (request : Nat) (outcome : PutOutcome)
  | finalize (request : Nat) (now wall : Time)
  | crash (request : Nat)

inductive Outcome
  | answered (a : Except ApiError Answer)
  | continues
  | returned (r : Except ApiError ShardResult)
  | crashed
  deriving DecidableEq

/-- An event no execution has: the request is not at that step. -/
structure Stray
  deriving DecidableEq

/-- The two transactions only an upload issues. -/
def Op.upload : Op → Bool
  | .reserveShard _ => true
  | .finalizeShard _ _ => true
  | _ => false

namespace UploadCall

variable (P : Platform) (c : UploadCall)

/-- `gzipJSON(payload)` -/
def body : Bytes := P.gzip (c.payload P)

/-- What the call returns once `FinalizeShard` reported a new shard. -/
def created (pricing : Option RunPricing) : Except ApiError ShardResult :=
  if usageComplete c.document.summary.usageComplete then
    (costsForTokens pricing c.document.summary.inputTokens c.document.summary.outputTokens).map fun costs =>
      ⟨true, costs.input, costs.output⟩
  else .ok ⟨true, none, none⟩

end UploadCall

/-- `ShardResult{}` -/
def ShardResult.replayed : ShardResult := ⟨false, none, none⟩

namespace World

variable (P : Platform) (w : World)

/-- `Put` writes the object of a call. -/
def write (c : UploadCall) : World :=
  { w with objects := Function.update w.objects (c.objectKey P) (some (c.body P)) }

/-- The request is at its next step. -/
def proceed (request : Nat) (f : Flight) : World := { w with flights := Function.update w.flights request (some f) }

/-- The request has ended. -/
def leave (request : Nat) : World := { w with flights := Function.update w.flights request none }

/-- Nobody else is under way after a request ended, or has got further after one proceeded. -/
theorem flights_of_leave {w : World} {request other : Nat} {f : Flight} (h : (w.leave request).flights other = some f) :
    w.flights other = some f := by
  by_cases heq : other = request
  · subst heq
    simp only [leave, Function.update_self] at h
    cases h
  · simp only [leave, Function.update_of_ne heq] at h
    exact h

theorem flights_of_proceed {w : World} {request other : Nat} {f g : Flight}
    (h : (w.proceed request f).flights other = some g) : f = g ∨ w.flights other = some g := by
  by_cases heq : other = request
  · subst heq
    simp only [proceed, Function.update_self, Option.some.injEq] at h
    exact .inl h
  · simp only [proceed, Function.update_of_ne heq] at h
    exact .inr h

/-- From the start of `UploadShardWithLease` to the end of `ReserveShard`. -/
def reserve (request : Nat) (call : UploadCall) (now : Time) : Outcome × World :=
  match call.reserve P now w.db with
  | .error err => (.returned (.error err), w)
  | .ok (reservation, db) =>
    if reservation.alreadyComplete then (.returned (.ok .replayed), { w with db := db })
    else (.continues, { w with db := db }.proceed request ⟨call, reservation.pricing, false⟩)

/-- The object write. -/
def put (request : Nat) (f : Flight) : PutOutcome → Outcome × World
  | .stored => (.continues, (w.write P f.call).proceed request { f with stored := true })
  | .failed written =>
    (.returned (.error (.internal "store raw shard")), (if written then w.write P f.call else w).leave request)

/-- `FinalizeShard` and the rest of the call. -/
def finalize (request : Nat) (f : Flight) (now wall : Time) : Outcome × World :=
  match f.call.finalize P now wall f.pricing w.db with
  | .error err => (.returned (.error err), w.leave request)
  | .ok (created, db) =>
    (.returned (if created then f.call.created f.pricing else .ok .replayed), { w with db := db }.leave request)

end World

def uploads (P : Platform) (policy : LimitPolicy) : Transactional World Event Outcome Stray where
  exec e w :=
    match e with
    | .client t =>
      if t.op.upload then .error ⟨⟩
      else .ok (.answered ((machine P policy).answer w.db t), { w with db := (machine P policy).step w.db t })
    | .reserve request call now =>
      match w.flights request with
      | none => .ok (w.reserve P request call now)
      | some _ => .error ⟨⟩
    | .put request outcome =>
      match w.flights request with
      | some f => if f.stored then .error ⟨⟩ else .ok (w.put P request f outcome)
      | none => .error ⟨⟩
    | .finalize request now wall =>
      match w.flights request with
      | some f => if f.stored then .ok (w.finalize P request f now wall) else .error ⟨⟩
      | none => .error ⟨⟩
    | .crash request =>
      match w.flights request with
      | some _ => .ok (.crashed, w.leave request)
      | none => .error ⟨⟩

variable {P : Platform} {policy : LimitPolicy}

/-! ## Events of a request at its step -/

section Equations

variable {w : World} {request : Nat}

theorem exec_reserve (h : w.flights request = none) (call : UploadCall) (now : Time) :
    (uploads P policy).exec (.reserve request call now) w = .ok (w.reserve P request call now) := by
  simp [uploads, h]

theorem step_reserve (h : w.flights request = none) (call : UploadCall) (now : Time) :
    (uploads P policy).step w (.reserve request call now) = (w.reserve P request call now).2 :=
  step_ok (exec_reserve h call now)

theorem exec_put {f : Flight} (h : w.flights request = some f) (hstored : f.stored = false) (outcome : PutOutcome) :
    (uploads P policy).exec (.put request outcome) w = .ok (w.put P request f outcome) := by
  simp [uploads, h, hstored]

theorem exec_finalize {f : Flight} (h : w.flights request = some f) (hstored : f.stored = true) (now wall : Time) :
    (uploads P policy).exec (.finalize request now wall) w = .ok (w.finalize P request f now wall) := by
  simp [uploads, h, hstored]

theorem exec_put_stray (h : w.flights request = none) (outcome : PutOutcome) :
    (uploads P policy).exec (.put request outcome) w = .error ⟨⟩ := by
  simp [uploads, h]

theorem exec_finalize_stray (h : w.flights request = none) (now wall : Time) :
    (uploads P policy).exec (.finalize request now wall) w = .error ⟨⟩ := by
  simp [uploads, h]

end Equations

/-! ## Everything an event can do -/

variable {w : World}

inductive Progress (P : Platform) (policy : LimitPolicy) (w : World) : Event → Outcome → World → Prop
  | client (t : Txn) (hop : t.op.upload = false) :
      Progress P policy w (.client t) (.answered ((machine P policy).answer w.db t))
        { w with db := (machine P policy).step w.db t }
  | refused (request : Nat) (call : UploadCall) (now : Time) (err : ApiError) (hfree : w.flights request = none)
      (hexec : call.reserve P now w.db = .error err) :
      Progress P policy w (.reserve request call now) (.returned (.error err)) w
  | recognized (request : Nat) (call : UploadCall) (now : Time) (reservation : ShardReservation) (db : Db)
      (hfree : w.flights request = none) (hexec : call.reserve P now w.db = .ok (reservation, db))
      (hdone : reservation.alreadyComplete = true) :
      Progress P policy w (.reserve request call now) (.returned (.ok .replayed)) { w with db := db }
  | reserved (request : Nat) (call : UploadCall) (now : Time) (reservation : ShardReservation) (db : Db)
      (hfree : w.flights request = none) (hexec : call.reserve P now w.db = .ok (reservation, db))
      (hopen : reservation.alreadyComplete = false) :
      Progress P policy w (.reserve request call now) .continues
        ({ w with db := db }.proceed request ⟨call, reservation.pricing, false⟩)
  | stored (request : Nat) (f : Flight) (hflight : w.flights request = some f) (hstored : f.stored = false) :
      Progress P policy w (.put request .stored) .continues
        ((w.write P f.call).proceed request { f with stored := true })
  | lost (request : Nat) (f : Flight) (written : Bool) (hflight : w.flights request = some f) :
      Progress P policy w (.put request (.failed written)) (.returned (.error (.internal "store raw shard")))
        ((if written then w.write P f.call else w).leave request)
  | failed (request : Nat) (f : Flight) (now wall : Time) (err : ApiError) (hflight : w.flights request = some f)
      (hstored : f.stored = true) (hexec : f.call.finalize P now wall f.pricing w.db = .error err) :
      Progress P policy w (.finalize request now wall) (.returned (.error err)) (w.leave request)
  | finalized (request : Nat) (f : Flight) (now wall : Time) (created : Bool) (db : Db)
      (hflight : w.flights request = some f) (hstored : f.stored = true)
      (hexec : f.call.finalize P now wall f.pricing w.db = .ok (created, db)) :
      Progress P policy w (.finalize request now wall)
        (.returned (if created then f.call.created f.pricing else .ok .replayed)) ({ w with db := db }.leave request)
  | crashed (request : Nat) (f : Flight) (hflight : w.flights request = some f) :
      Progress P policy w (.crash request) .crashed (w.leave request)

/-- **Completeness of the list.** -/
theorem progress_of_exec {w' : World} {e : Event} {o : Outcome}
    (h : (uploads P policy).exec e w = .ok (o, w')) : Progress P policy w e o w' := by
  cases e with
  | client t =>
    simp only [uploads] at h
    split at h
    · cases h
    · rename_i hop
      cases h
      exact .client t (Bool.eq_false_iff.mpr hop)
  | reserve request call now =>
    simp only [uploads] at h
    split at h
    · rename_i hfree
      have h := Except.ok.inj h
      unfold World.reserve at h
      split at h
      · rename_i err hexec
        cases h
        exact .refused request call now err hfree hexec
      · rename_i reservation db hexec
        split at h
        · rename_i hdone
          cases h
          exact .recognized request call now reservation db hfree hexec hdone
        · rename_i hopen
          cases h
          exact .reserved request call now reservation db hfree hexec (Bool.eq_false_iff.mpr hopen)
    · cases h
  | put request outcome =>
    simp only [uploads] at h
    split at h
    · rename_i f hflight
      split at h
      · cases h
      · rename_i hstored
        cases outcome with
        | stored =>
          cases h
          exact .stored request f hflight (Bool.eq_false_iff.mpr hstored)
        | failed written =>
          cases h
          exact .lost request f written hflight
    · cases h
  | finalize request now wall =>
    simp only [uploads] at h
    split at h
    · rename_i f hflight
      split at h
      · rename_i hstored
        have h := Except.ok.inj h
        unfold World.finalize at h
        split at h
        · rename_i err hexec
          cases h
          exact .failed request f now wall err hflight hstored hexec
        · rename_i created db hexec
          cases h
          exact .finalized request f now wall created db hflight hstored hexec
      · cases h
    · cases h
  | crash request =>
    simp only [uploads] at h
    split at h
    · rename_i f hflight
      cases h
      exact .crashed request f hflight
    · cases h

/-- An event leaves no trace, or does one of the things listed. -/
theorem uploads_step (w : World) (e : Event) :
    (uploads P policy).step w e = w ∨ ∃ o, Progress P policy w e o ((uploads P policy).step w e) := by
  rcases step_cases (M := uploads P policy) w e with heq | ⟨o, w', hexec, heq⟩
  · exact .inl heq
  · rw [heq]
    exact .inr ⟨o, progress_of_exec hexec⟩

/-! ## The database of a world -/

theorem step_reserve_ok (policy : LimitPolicy) {call : UploadCall} {now : Time} {reservation : ShardReservation} {db db' : Db}
    (h : call.reserve P now db = .ok (reservation, db')) :
    (machine P policy).exec ⟨.reserveShard call, now, now⟩ db = .ok (.reserved reservation, db') := by
  show (call.reserve P now db).map _ = _
  rw [h]
  rfl

theorem step_finalize_ok (policy : LimitPolicy) {call : UploadCall} {pricing : Option RunPricing} {now wall : Time} {created : Bool}
    {db db' : Db} (h : call.finalize P now wall pricing db = .ok (created, db')) :
    (machine P policy).exec ⟨.finalizeShard call pricing, now, wall⟩ db = .ok (.finalized created, db') := by
  show (call.finalize P now wall pricing db).map _ = _
  rw [h]
  rfl

/-- **A world's database moves by transactions**: one that an upload issues, or the client's own. -/
theorem uploads_step_db (P : Platform) (policy : LimitPolicy) (w : World) (e : Event) :
    ((uploads P policy).step w e).db = w.db ∨
      ∃ t, (t.op.upload = true ∨ e = .client t) ∧
        ((uploads P policy).step w e).db = (machine P policy).step w.db t := by
  rcases uploads_step w e with heq | ⟨o, hprogress⟩
  · exact .inl (by rw [heq])
  · generalize (uploads P policy).step w e = w' at hprogress
    cases hprogress with
    | client t => exact .inr ⟨t, Or.inr rfl, rfl⟩
    | recognized _ _ _ _ _ _ hexec =>
      exact .inr ⟨_, Or.inl rfl, (step_ok (step_reserve_ok policy hexec)).symm⟩
    | reserved _ _ _ _ _ _ hexec =>
      exact .inr ⟨_, Or.inl rfl, (step_ok (step_reserve_ok policy hexec)).symm⟩
    | finalized _ _ _ _ _ _ _ _ hexec =>
      exact .inr ⟨_, Or.inl rfl, (step_ok (step_finalize_ok policy hexec)).symm⟩
    | lost request f written => exact .inl (by cases written <;> rfl)
    | refused | stored | failed | crashed => exact .inl rfl

/-- What every transaction keeps holds of the database of every reachable world. -/
theorem uploads_invariant (Ok : Txn → Prop) (Inv : Db → Prop) (hupload : ∀ t, t.op.upload = true → Ok t)
    (hstep : ∀ db t, Ok t → Inv db → Inv ((machine P policy).step db t)) (hw : Inv w.db)
    (es : List Event) (hok : ∀ t, Event.client t ∈ es → Ok t) :
    Inv ((uploads P policy).run w es).db := by
  refine run_invariant (M := uploads P policy)
    (fun e => ∀ t, e = .client t → Ok t) (fun w => Inv w.db) ?_ hw es fun e he t heq => hok t (heq ▸ he)
  intro w e he hinv
  rcases uploads_step_db P policy w e with heq | ⟨t, ht, heq⟩
  · rw [heq]
    exact hinv
  · rw [heq]
    exact hstep w.db t (ht.elim (hupload t) (he t)) hinv

def Event.registration? : Event → Option Registration
  | .client t => Results.registration? t
  | _ => none

/-- The documents a history of worlds registers. -/
def registered (es : List Event) : Set Registration :=
  { registration | registration ∈ es.filterMap Event.registration? }

theorem registered_append_left (es fs : List Event) : registered es ⊆ registered (es ++ fs) := by
  intro registration h
  simp only [registered, Set.mem_ofPred_eq, List.filterMap_append, List.mem_append] at h ⊢
  exact .inl h

theorem coupled_uploads {es : List Event} (hinj : Set.InjOn P.registrationHash (registered es)) :
    Coupled P (registered es) ((uploads P policy).run World.empty es).db := by
  refine uploads_invariant (RegistersIn (registered es)) (Coupled P _) ?_
    (fun _ _ hdocs hc => hc.step hinj hdocs) (coupled_empty _) es ?_
  · -- an upload registers nothing
    intro t ht runID key registration hop
    rw [hop] at ht
    cases ht
  · intro t ht runID key registration hop
    exact List.mem_filterMap.mpr ⟨.client t, ht, by rw [Event.registration?, Results.registration?, hop]⟩

/-- Receipts stay, with their content. -/
theorem uploads_receipt_forth {s : ReceiptRow} (hs : s ∈ w.db.receipts) (es : List Event) :
    ∃ s' ∈ ((uploads P policy).run w es).db.receipts, SameReceipt s s' := by
  refine uploads_invariant (fun _ => True) (fun db => ∃ s' ∈ db.receipts, SameReceipt s s')
    (fun _ _ => trivial) ?_ ⟨s, hs, SameReceipt.refl s⟩ es fun _ _ => trivial
  rintro db t - ⟨s', hs', hsame⟩
  refine step_of_commit (Q := fun db => ∃ s' ∈ db.receipts, SameReceipt s s') ⟨s', hs', hsame⟩ fun hcommit => ?_
  obtain ⟨s'', hs'', hsame'⟩ := hcommit.receipt_forth hs'
  exact ⟨s'', hs'', hsame.trans hsame'⟩

/-! ## Requests do not touch each other -/

/-- The upload an event is a step of. -/
def Event.request? : Event → Option Nat
  | .client _ => none
  | .reserve request _ _ => some request
  | .put request _ => some request
  | .finalize request _ _ => some request
  | .crash request => some request

theorem uploads_flights_of_ne {e : Event} {request : Nat} (h : e.request? ≠ some request) :
    ((uploads P policy).step w e).flights request = w.flights request := by
  rcases uploads_step (P := P) w e with heq | ⟨o, hprogress⟩
  · rw [heq]
  · have hupdate : ∀ (other : Nat) (f : Option Flight), some other ≠ some request →
        Function.update w.flights other f request = w.flights request := by
      intro other f hne
      exact Function.update_of_ne (fun heq => hne (congrArg some heq.symm)) _ _
    generalize (uploads P policy).step w e = w' at hprogress
    cases hprogress with
    | client | refused | recognized => rfl
    | reserved other => exact hupdate other _ h
    | stored other => exact hupdate other _ h
    | lost other f written => cases written <;> exact hupdate other _ h
    | failed other => exact hupdate other _ h
    | finalized other => exact hupdate other _ h
    | crashed other => exact hupdate other _ h

theorem uploads_run_flights_of_ne {es : List Event} {request : Nat} (h : ∀ e ∈ es, e.request? ≠ some request)
    (w : World) : ((uploads P policy).run w es).flights request = w.flights request := by
  induction es generalizing w with
  | nil => rfl
  | cons e es ih =>
    rw [run_cons, ih fun f hf => h f (List.mem_cons_of_mem _ hf)]
    exact uploads_flights_of_ne (h e List.mem_cons_self)

end AgentStorm.Results
