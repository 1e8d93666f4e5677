import AgentStorm.Results.Http

/-!
# `Results.Acknowledged` — what a client may conclude from 200 and 201

Three endpoints create something: a run, the end of a run, a shard. They answer 201 for what they
created and 200 for what was there already. Requests overlap, are sent again, lose the acknowledgement
of their commit and die between their steps. A status code tells the truth about the database before
the request (`api_serves`), what was acknowledged stays (`Db.Has.step`), so no resource is created
twice (`acknowledged_once`).
-/

namespace AgentStorm.Results

open Checks Machine Machine.Transactional Relational

/-! ## What can be created -/

inductive Resource
  | run (runID : String)
  | ending (runID : String)
  | shard (runID : String) (index : Nat)
  deriving DecidableEq

/-- The database has it: the row of a run, its terminal status, the complete receipt of a shard. -/
def Db.Has (db : Db) : Resource → Prop
  | .run runID => ∃ r ∈ db.runs, r.id = runID
  | .ending runID => ∃ r ∈ db.runs, r.id = runID ∧ r.status.terminal = true
  | .shard runID i => i ∈ db.doneShards runID

section Stays

variable {P : Platform} {policy : LimitPolicy} {t : Txn} {db db' : Db} {a : Answer} {res : Resource}

theorem Db.Has.commit (hres : db.Has res) (hsound : Sound P db) (h : Commit P t db a db') : db'.Has res := by
  cases res with
  | run =>
    obtain ⟨r, hr, rfl⟩ := hres
    obtain ⟨r', hr', hsame⟩ := h.run_forth hr
    exact ⟨r', hr', hsame.id_eq⟩
  | ending =>
    obtain ⟨r, hr, rfl, hterminal⟩ := hres
    obtain ⟨r', hr', hstep⟩ := h.runStep hsound hr
    refine ⟨r', hr', hstep.same.id_eq, ?_⟩
    cases hstep with
    | keep => exact hterminal
    | ended terminal _ _ hended => exact hended
    | refreshed =>
      rw [RunRow.terminal_refresh]
      exact hterminal
  | shard =>
    obtain ⟨s, hs, hrun, hindex, hcomplete⟩ := hres
    obtain ⟨s', hs', hsame⟩ := h.receipt_forth hs
    exact ⟨s', hs', hsame.runID_eq.trans hrun, hsame.index_eq.trans hindex, hsame.complete hcomplete⟩

theorem Db.Has.step (hres : db.Has res) (hsound : Sound P db) : ((machine P policy).step db t).Has res :=
  step_of_commit (Q := fun db => db.Has res) hres fun hcommit => hres.commit hsound hcommit

end Stays

/-! ## What is acknowledged -/

/-- The resource that an answer confirms, and whether it calls it created. -/
def Payload.acknowledged? : Payload → Option (Resource × Bool)
  | .registered runID created => some (.run runID, created)
  | .terminated runID _ created => some (.ending runID, created)
  | .uploaded runID index created => some (.shard runID index.toNat, created)
  | _ => none

/-- An upload that has not answered yet acknowledges nothing. -/
def confirms (response : Option Response) : Option (Resource × Bool) :=
  response.bind fun response => response.payload.acknowledged?

/-- The resource is there afterwards, and called created exactly if it was not there before. -/
structure Honest (db db' : Db) (res : Resource) (created : Bool) : Prop where
  after : db'.Has res
  before : created = true ↔ ¬db.Has res

theorem Honest.found {db : Db} {res : Resource} (h : db.Has res) : Honest db db res false :=
  ⟨h, iff_of_false Bool.false_ne_true (not_not_intro h)⟩

theorem Honest.new {db db' : Db} {res : Resource} (hafter : db'.Has res) (hbefore : ¬db.Has res) :
    Honest db db' res true :=
  ⟨hafter, iff_of_true rfl hbefore⟩

section Transactions

variable {P : Platform} {now wall : Time} {runID key : String} {db db' : Db} {created : Bool}

theorem registerRun_honest {registration : Registration}
    (h : serviceRegisterRun P now runID key registration db = .ok (created, db')) :
    Honest db db' (.run runID) created := by
  obtain ⟨-, hregister⟩ := then_ok_iff.mp h
  rcases registerRun_ok hregister with ⟨_, hins, rfl, rfl⟩ | ⟨run, hrun, hid, -, rfl, rfl⟩
  · refine .new ⟨newRun now runID key (P.registrationHash registration) registration, ?_, rfl⟩ ?_
    · rw [enqueueRunShards_runs]
      exact (Table.mem_of_insert hins).mpr (Or.inr rfl)
    · rintro ⟨r, hr, rfl⟩
      exact Table.not_conflict_of_insert hins hr (Or.inl rfl)
  · -- the row is there, and enqueueing shards leaves it alone
    have hhas : db.Has (.run runID) := ⟨run, hrun, hid⟩
    refine ⟨⟨run, ?_, hid⟩, iff_of_false Bool.false_ne_true (not_not_intro hhas)⟩
    rw [enqueueRunShards_runs]
    exact hrun

theorem terminateRun_honest {terminal : TerminalRequest}
    (h : serviceTerminateRun P now runID key terminal db = .ok (created, db')) :
    Honest db db' (.ending runID) created := by
  obtain ⟨hvalidate, hterminate⟩ := then_ok_iff.mp h
  obtain ⟨-, hterminal, -⟩ := validateTerminal_ok hvalidate
  obtain ⟨run, hrun, hcases⟩ := terminateRun_ok hterminate
  obtain ⟨hmem, hid⟩ := Db.run?_eq_some.mp hrun
  rcases hcases with ⟨hended, rfl, rfl⟩ | ⟨hstatus, rfl, rfl⟩
  · exact .found ⟨run, hmem, hid, hended⟩
  · refine .new ⟨_, Table.mem_update_of (keepsKeys_terminate _ _ _ _) hmem (by simp [hid]), hid, hterminal⟩ ?_
    -- the one row of the run is still collecting
    rintro ⟨r, hr, hrid, hended⟩
    obtain rfl := db.runs.eq_of_conflict hr hmem (Or.inl (hrid.trans hid.symm))
    rw [hstatus] at hended
    exact Bool.false_ne_true hended

variable {call : UploadCall}

theorem reserve_honest {reservation : ShardReservation} (h : call.reserve P now db = .ok (reservation, db'))
    (hdone : reservation.alreadyComplete = true) :
    Honest db db' (.shard call.runID call.shardIndex.toNat) false := by
  obtain ⟨-, hreserve⟩ := then_ok_iff.mp h
  obtain ⟨_, -, -, -, hcases⟩ := reserveShard_ok hreserve
  rcases hcases with ⟨_, -, rfl, -⟩ | ⟨existing, hexisting, -, rfl, rfl⟩
  · cases hdone
  · obtain ⟨hmem, hid, hindex⟩ := Db.receipt?_eq_some.mp hexisting
    exact .found ⟨existing, hmem, hid, hindex, of_decide_eq_true hdone⟩

theorem finalize_honest {pricing : Option RunPricing}
    (h : call.finalize P now wall pricing db = .ok (created, db')) :
    Honest db db' (.shard call.runID call.shardIndex.toNat) created := by
  obtain ⟨-, hfinalize⟩ := then_ok_iff.mp h
  obtain ⟨_, receipt, -, hreceipt, -, -, hcases⟩ := finalizeShard_ok hfinalize
  obtain ⟨hmem, hid, hindex⟩ := Db.receipt?_eq_some.mp hreceipt
  rcases hcases with ⟨hcomplete, rfl, rfl⟩ | ⟨hpending, rfl, _, -, hrefresh⟩
  · exact .found ⟨receipt, hmem, hid, hindex, hcomplete⟩
  · refine .new ⟨receipt.finish, ?_, hid, hindex, rfl⟩ ?_
    · rw [(refreshAggregate_frame hrefresh).1]
      exact Table.mem_update_of keepsKeys_finish hmem (by simp [hid, hindex])
    · rintro ⟨s, hs, hsid, hsindex, hcomplete⟩
      obtain rfl := db.receipts.eq_of_conflict hs hmem (Or.inl ⟨hsid.trans hid.symm, hsindex.trans hindex.symm⟩)
      rw [hpending] at hcomplete
      exact ReceiptStatus.noConfusion hcomplete

end Transactions

/-! ## Serving -/

theorem acknowledged?_writeServiceError (err : ApiError) : (writeServiceError err).payload.acknowledged? = none := by
  cases err <;> rfl

theorem acknowledged?_read {α : Type} {query : Db → Except ApiError α} {accept : α → Payload} {db : Db}
    (haccept : ∀ a, (accept a).acknowledged? = none) : (Http.read query accept db).payload.acknowledged? = none := by
  unfold Http.read
  split
  · exact acknowledged?_writeServiceError _
  · exact haccept _

/-- Everything that serving can do to a world: it moves by events of `uploads`, and what is acknowledged is true. -/
structure Serves (P : Platform) (policy : LimitPolicy) (w : World) (served : Option Response × World) : Prop where
  moves : ∃ es, (uploads P policy).run w es = served.2
  honest : ∀ {res created}, confirms served.1 = some (res, created) → Honest w.db served.2.db res created

section Handlers

variable {P : Platform} {policy : LimitPolicy} {w : World} {o : Occasion} {request : Nat} {call : UploadCall}

theorem Serves.quiet {response : Response} (h : response.payload.acknowledged? = none) :
    Serves P policy w (some response, w) :=
  ⟨⟨[], rfl⟩, fun hack => nomatch h.symm.trans hack⟩

/-- A handler that decodes its body and runs a transaction of the service. A refusal acknowledges nothing, so what is
    acknowledged has committed and was heard of. -/
theorem serves_write {α β : Type} {d : Decoded α} {t : α → Transaction β} {accept : α → β → Response}
    {refuse : ApiError → Response} (wrap : β → Answer) (op : α → Op) (hop : ∀ a, (op a).upload = false)
    (hexec : ∀ a db, (machine P policy).exec ⟨op a, o.now, o.wall⟩ db = answering wrap (t a) db)
    (hrefuse : ∀ err, (refuse err).payload.acknowledged? = none)
    (haccept : ∀ a {db b db' res created}, t a db = .ok (b, db') →
      (accept a b).payload.acknowledged? = some (res, created) → Honest db db' res created) :
    Serves P policy w (onDb (Http.decoded d fun a => Http.transact o.acknowledged (t a) (accept a) refuse) w) := by
  unfold onDb Http.decoded
  cases decodeJSON d with
  | error => exact .quiet rfl
  | ok a =>
    have hstep : (uploads P policy).run w [.client ⟨op a, o.now, o.wall⟩] =
        { w with db := (machine P policy).step w.db ⟨op a, o.now, o.wall⟩ } := by
      refine step_ok (a := .answered ((machine P policy).answer w.db ⟨op a, o.now, o.wall⟩)) ?_
      simp [uploads, hop]
    dsimp only [Http.transact]
    cases ht : t a w.db with
    | error err => exact .quiet (hrefuse err)
    | ok r =>
      obtain ⟨b, db'⟩ := r
      have hdb : (machine P policy).step w.db ⟨op a, o.now, o.wall⟩ = db' :=
        step_ok ((hexec a w.db).trans (by rw [answering, ht]; rfl))
      rw [hdb] at hstep
      cases o.acknowledged with
      | true => exact ⟨⟨_, hstep⟩, haccept a ht⟩
      | false => exact ⟨⟨_, hstep⟩, fun hack => by cases (hrefuse lostCommit).symm.trans hack⟩

/-! ### Uploads -/

/-- An upload that is acknowledged has returned a result, and its commit was heard of. -/
theorem acknowledged?_uploaded {acknowledged : Bool} {result : Except ApiError ShardResult} {res : Resource}
    {created : Bool} (h : (Http.uploaded call acknowledged result).payload.acknowledged? = some (res, created)) :
    ∃ value, result = .ok value ∧ res = .shard call.runID call.shardIndex.toNat ∧ created = value.created := by
  cases result with
  | error err => cases acknowledged <;> exact nomatch (acknowledged?_writeServiceError err).symm.trans h
  | ok value =>
    cases acknowledged with
    | false => cases h
    | true =>
      cases h
      exact ⟨value, rfl, rfl, rfl⟩

theorem serves_reserveUpload (hfree : w.flights request = none) :
    Serves P policy w (Http.reserveUpload P o request call w) := by
  have hreserve : (uploads P policy).run w [.reserve request call o.now] = (w.reserve P request call o.now).2 :=
    step_reserve hfree call o.now
  unfold Http.reserveUpload
  unfold World.reserve at hreserve ⊢
  cases hexec : call.reserve P o.now w.db with
  | error err =>
    refine .quiet ?_
    cases o.acknowledged <;> exact acknowledged?_writeServiceError err
  | ok r =>
    obtain ⟨reservation, db⟩ := r
    rw [hexec] at hreserve
    dsimp only at hreserve ⊢
    cases hdone : reservation.alreadyComplete with
    | true =>
      rw [hdone] at hreserve
      refine ⟨⟨_, hreserve⟩, fun hack => ?_⟩
      obtain ⟨_, hvalue, rfl, rfl⟩ := acknowledged?_uploaded hack
      cases hvalue
      exact reserve_honest hexec hdone
    | false =>
      rw [hdone] at hreserve
      -- the upload goes on, or ends without having heard
      cases o.acknowledged with
      | true => exact ⟨⟨_, hreserve⟩, fun hack => nomatch hack⟩
      | false =>
        refine ⟨⟨[.reserve request call o.now, .crash request], ?_⟩, fun hack => nomatch hack⟩
        rw [← List.singleton_append, run_append, hreserve]
        refine step_ok (a := .crashed) ?_
        simp [uploads, World.proceed]

/-- What is created returns `Created`. -/
theorem created_of_ok {pricing : Option RunPricing} {value : ShardResult} (h : call.created pricing = .ok value) :
    value.created = true := by
  unfold UploadCall.created at h
  split at h
  · obtain ⟨_, -, rfl⟩ := map_ok_iff.mp h
    rfl
  · cases h
    rfl

theorem serves_finalize {f : Flight} (hflight : w.flights request = some f) (hstored : f.stored = true) :
    Serves P policy w (resumed o.acknowledged f (w.finalize P request f o.now o.wall).1,
      (w.finalize P request f o.now o.wall).2) := by
  refine ⟨⟨[.finalize request o.now o.wall], step_ok (exec_finalize hflight hstored o.now o.wall)⟩, ?_⟩
  intro res created hack
  dsimp only at hack ⊢
  unfold World.finalize at hack ⊢
  cases hexec : f.call.finalize P o.now o.wall f.pricing w.db with
  | error =>
    rw [hexec] at hack
    obtain ⟨value, hvalue, -⟩ := acknowledged?_uploaded hack
    cases hvalue
  | ok r =>
    obtain ⟨new, db⟩ := r
    rw [hexec] at hack
    obtain ⟨value, hvalue, rfl, rfl⟩ := acknowledged?_uploaded hack
    have hnew : value.created = new := by
      cases new with
      | false =>
        cases hvalue
        rfl
      | true => exact created_of_ok hvalue
    rw [hnew]
    exact finalize_honest hexec

end Handlers

/-! ## The server -/

section Server

variable {κ : Type} [LinearOrder κ] {collate : String ↪ κ} {S : Server} {w : World} {e : HttpEvent} {res : Resource}
  {created : Bool}

theorem serves_handle {request : Nat} (hfree : w.flights request = none) (r : HttpRequest) (o : Occasion)
    (endpoint : Route) : Serves S.platform S.policy w (S.handle collate request r o endpoint w) := by
  cases endpoint with
  | health | metrics => exact .quiet rfl
  | ready =>
    refine .quiet ?_
    unfold Http.ready
    split <;> rfl
  | queueStatus => exact .quiet (acknowledged?_read fun _ => rfl)
  | getRun => exact .quiet (acknowledged?_read fun _ => rfl)
  | compare => exact .quiet (acknowledged?_read fun _ => rfl)
  | listCases =>
    refine .quiet ?_
    unfold Http.listCases
    split
    · rfl
    · split
      · rfl
      · exact acknowledged?_read fun _ => rfl
  | registerRun runID =>
    refine serves_write .registered (.registerRun runID r.idempotencyKey) (fun _ => rfl) (fun _ _ => rfl)
      acknowledged?_writeServiceError ?_
    intro registration db created db' res flag hexec hack
    cases hack
    exact registerRun_honest hexec
  | terminateRun runID =>
    refine serves_write .terminated (.terminateRun runID r.idempotencyKey) (fun _ => rfl) (fun _ _ => rfl)
      acknowledged?_writeServiceError ?_
    intro terminal db created db' res flag hexec hack
    cases hack
    exact terminateRun_honest hexec
  -- leases and permits are no resources of this kind
  | claimShard runID =>
    refine serves_write .claimed (.claimShard runID · o.token) (fun _ => rfl) (fun _ _ => rfl) ?_
      fun _ _ _ _ _ _ _ hack => nomatch hack
    intro err
    cases err <;> rfl
  | renewShardLease runID index =>
    show Serves _ _ w (onDb (Http.renewShardLease S.platform S.decoders r o runID index) w)
    unfold Http.renewShardLease
    cases atoi index with
    | none => exact .quiet rfl
    | some i =>
      exact serves_write .renewed (.renewShardLease runID i) (fun _ => rfl) (fun _ _ => rfl)
        acknowledged?_writeServiceError fun _ _ _ _ _ _ _ hack => nomatch hack
  | acquirePermit runID =>
    refine serves_write .granted (.acquirePermit runID · o.permitID o.token) (fun _ => rfl) (fun _ _ => rfl) ?_
      fun _ _ _ _ _ _ _ hack => nomatch hack
    intro err
    cases err <;> rfl
  | renewPermit runID permitID =>
    exact serves_write .permitRenewed (.renewPermit runID permitID) (fun _ => rfl) (fun _ _ => rfl)
      acknowledged?_writeServiceError fun _ _ _ _ _ _ _ hack => nomatch hack
  | releasePermit runID permitID =>
    exact serves_write (fun _ => .released) (.releasePermit runID permitID) (fun _ => rfl) (fun _ _ => rfl)
      acknowledged?_writeServiceError fun _ _ _ _ _ _ _ hack => nomatch hack
  | uploadShard runID index =>
    show Serves _ _ w (Http.uploadShard S.platform S.decoders r o request runID index w)
    unfold Http.uploadShard
    split
    · exact .quiet rfl
    · split
      · exact .quiet rfl
      · exact serves_reserveUpload hfree

/-- **One event.** -/
theorem api_serves {response : Option Response} {w' : World} (h : (api collate S).exec e w = .ok (response, w')) :
    Serves S.platform S.policy w (response, w') := by
  cases e with
  | request request r o =>
    simp only [api] at h
    split at h
    · rename_i hfree
      rw [← Except.ok.inj h]
      unfold Server.serveHTTP
      split
      · exact .quiet rfl
      · split
        · exact serves_handle hfree r o _
        · exact .quiet rfl
    · cases h
  | put request outcome =>
    simp only [api] at h
    split at h
    · rename_i f hflight
      split at h
      · cases h
      · rename_i hstored
        rw [← Except.ok.inj h]
        refine ⟨⟨[.put request outcome], step_ok (exec_put hflight (by simpa using hstored) outcome)⟩, ?_⟩
        intro res created hack
        cases outcome <;> cases hack
    · cases h
  | finalize =>
    simp only [api] at h
    split at h
    · rename_i f hflight
      split at h
      · rename_i hstored
        rw [← Except.ok.inj h]
        exact serves_finalize hflight hstored
      · cases h
    · cases h
  | crash request =>
    simp only [api] at h
    split at h
    · rename_i f hflight
      rw [← Except.ok.inj h]
      refine ⟨⟨[.crash request], step_ok (a := .crashed) ?_⟩, fun hack => by cases hack⟩
      simp [uploads, hflight]
    · cases h

variable (collate S) in
/-- What an event acknowledges to its client. -/
def acknowledged? (w : World) (e : HttpEvent) : Option (Resource × Bool) :=
  match (api collate S).answer w e with
  | .ok response => confirms response
  | .error _ => none

variable (collate S) in
/-- A resource that an event answers 201 for. -/
def created? (w : World) (e : HttpEvent) : Option Resource :=
  match acknowledged? collate S w e with
  | some (res, true) => some res
  | _ => none

/-- A status code tells the truth. -/
theorem api_honest (h : acknowledged? collate S w e = some (res, created)) :
    Honest w.db ((api collate S).step w e).db res created := by
  unfold acknowledged? at h
  split at h
  · rename_i response hanswer
    obtain ⟨w', hexec⟩ := answer_ok_iff.mp hanswer
    rw [step_ok hexec]
    exact (api_serves hexec).honest h
  · cases h

/-- An event of the server is a few events of uploads. -/
theorem api_step_uploads (w : World) (e : HttpEvent) :
    ∃ es, (uploads S.platform S.policy).run w es = (api collate S).step w e := by
  rcases step_cases (M := api collate S) w e with heq | ⟨_, w', hexec, heq⟩
  · exact ⟨[], heq.symm⟩
  · rw [heq]
    exact (api_serves hexec).moves

/-! ## Whole histories -/

/-- An HTTP event moves the database by transactions. -/
theorem api_step_db (Inv : Db → Prop) (hstep : ∀ db t, Inv db → Inv ((machine S.platform S.policy).step db t))
    (hw : Inv w.db) : Inv ((api collate S).step w e).db := by
  obtain ⟨es, hes⟩ := @api_step_uploads κ _ collate S w e
  rw [← hes]
  exact uploads_invariant (fun _ => True) Inv (fun _ _ => trivial) (fun db t _ => hstep db t) hw es fun _ _ => trivial

theorem api_run_db (Inv : Db → Prop) (hstep : ∀ db t, Inv db → Inv ((machine S.platform S.policy).step db t))
    (hw : Inv w.db) (es : List HttpEvent) : Inv ((api collate S).run w es).db :=
  run_invariant (fun _ => True) (fun w : World => Inv w.db) (fun _ _ _ h => api_step_db Inv hstep h) hw es
    fun _ _ => trivial

/-- **The server refines the uploads.** Every history of the server leads where uploads and transactions of the service
    lead: no handler, and no way in which a request ends, does anything else to the database or to the objects. -/
theorem api_run_uploads {κ : Type} [LinearOrder κ] (collate : String ↪ κ) (S : Server) (w : World) (es : List HttpEvent) :
    ∃ fs, (uploads S.platform S.policy).run w fs = (api collate S).run w es := by
  induction es generalizing w with
  | nil => exact ⟨[], rfl⟩
  | cons e es ih =>
    obtain ⟨first, hfirst⟩ := @api_step_uploads κ _ collate S w e
    obtain ⟨rest, hrest⟩ := ih ((api collate S).step w e)
    refine ⟨first ++ rest, ?_⟩
    rw [run_append, hfirst, hrest, run_cons]

theorem api_step_sound (h : Sound S.platform w.db) : Sound S.platform ((api collate S).step w e).db :=
  api_step_db (Sound S.platform) (fun _ _ h => h.step) h

theorem api_step_has (hsound : Sound S.platform w.db) (h : w.db.Has res) : ((api collate S).step w e).db.Has res :=
  (api_step_db (fun db => Sound S.platform db ∧ db.Has res)
    (fun _ _ h => ⟨h.1.step, h.2.step h.1⟩) ⟨hsound, h⟩).2

theorem created?_eq_some (h : created? collate S w e = some res) : acknowledged? collate S w e = some (res, true) := by
  unfold created? at h
  split at h
  · rename_i heq
    rw [heq, Option.some.inj h]
  · cases h

/-- **Acknowledged once, and for good.** Along every history of the server, whatever overlaps, is sent again, loses its
    acknowledgement or dies: no resource is answered 201 for twice; a resource that was answered 200 or 201 for is in the
    database at the end; and an answer says 201 exactly if the resource was not there before its request. -/
theorem acknowledged_once {κ : Type} [LinearOrder κ] (collate : String ↪ κ) (S : Server) (es : List HttpEvent) :
    ((api collate S).trace (created? collate S) World.empty es).Nodup ∧
    (∀ entry ∈ (api collate S).trace (acknowledged? collate S) World.empty es,
      ((api collate S).run World.empty es).db.Has entry.1) ∧
    ∀ e res created, acknowledged? collate S ((api collate S).run World.empty es) e = some (res, created) →
      (created = true ↔ ¬((api collate S).run World.empty es).db.Has res) := by
  have hinv : ∀ w e, Sound S.platform w.db → Sound S.platform ((api collate S).step w e).db :=
    fun _ _ h => api_step_sound h
  have hempty : Sound S.platform World.empty.db := sound_empty
  refine ⟨?_, ?_, fun e res created hack => (api_honest hack).before⟩
  · refine (trace_nodup hinv (fun w e res hsound (h : w.db.Has res) => api_step_has hsound h) ?_ hempty es).1
    intro w e res hsound hcreated
    have htrue := api_honest (created?_eq_some hcreated)
    exact ⟨htrue.before.mp rfl, htrue.after⟩
  · exact mem_trace_present hinv
      (fun w e entry hsound (h : w.db.Has entry.1) => api_step_has hsound h)
      (fun w e entry hsound hack => (api_honest hack).after) hempty es

end Server

/-- The first registration is committed and not heard of: the client that sends it again is answered 200, nothing was
    ever answered 201, and the run is there. -/
theorem acknowledged_once_lost :
    let S := Server.reference (.reference "suite" "indexed" 1) []
    let register (acknowledged : Bool) : HttpEvent :=
      .request 0 (.putting ["v1", "runs", "run"] "write" (registrationKey "run") [])
        { Occasion.reference 0 with acknowledged }
    let es := [register false, register true]
    (api (.refl String) S).trace (created? (.refl String) S) World.empty es = [] ∧
      (api (.refl String) S).trace (acknowledged? (.refl String) S) World.empty es = [(.run "run", false)] ∧
      ((api (.refl String) S).run World.empty es).db.Has (.run "run") := by
  intro S register es
  have htrace : (api (.refl String) S).trace (acknowledged? (.refl String) S) World.empty es = [(.run "run", false)] := by
    decide +kernel
  refine ⟨by decide +kernel, htrace, ?_⟩
  exact (acknowledged_once (.refl String) S es).2.1 (.run "run", false) (by rw [htrace]; exact List.mem_singleton_self _)

end AgentStorm.Results
