import AgentStorm.Results.Listing
import AgentStorm.Results.Reference
import AgentStorm.Results.Upload

/-!
# `Results.Http` — the HTTP surface of the Result API

`internal/results/http.go` over the world of concurrent uploads: the routes, the two bearer tokens,
what the handlers decode, call and answer, and how the errors of the service become responses. A
request is one event, apart from the upload of a shard, which goes on with its object write and its
finalization. A commit may take place without its acknowledgement reaching the API
(`Occasion.acknowledged`).

What stays open: `encoding/json` (`Decoders`) and the clean-up of paths by `ServeMux`. The counters
behind `/metrics` are kept by each process and never read by a handler; what they say is part of the
`Occasion`.
-/

namespace AgentStorm.Results

open Checks Machine Relational Text

/-! ## The rest of the service -/

def serviceQueueStatus (now : Time) (runID : String) (db : Db) : Except ApiError QueueStatus := do
  validateRunID runID
  queueStatus now runID db

/-- `validationErrorf("invalid …: %s", err)` -/
def validateSide (side runID : String) : Except ApiError Unit :=
  (validateRunID runID).mapError fun
    | .validation message => .validation ("invalid " ++ side ++ ": " ++ message)
    | err => err

def serviceCompare (baselineID candidateID : String) (db : Db) : Except ApiError Comparison := do
  validateSide "baseline" baselineID
  validateSide "candidate" candidateID
  compare baselineID candidateID db

/-! ## Requests and responses -/

inductive Method
  | get
  | head
  | put
  | post
  | other (name : String)
  deriving DecidableEq

/-- A request, with the headers and query parameters that some handler reads. -/
structure HttpRequest where
  method : Method
  /-- The segments of the cleaned path, unescaped. -/
  path : List String
  authorization : String
  idempotencyKey : String
  queueLease : String
  limit : String
  failed : String
  cursor : String
  baseline : String
  candidate : String
  body : Bytes

/-- The document of a response. -/
inductive Payload
  | status (text : String)
  /-- The counters of requests, registrations, uploads, cases, tokens and costs. -/
  | metrics (text : String)
  | registered (id : String) (created : Bool)
  | terminated (runID : String) (status : RunStatus) (created : Bool)
  | uploaded (runID : String) (shardIndex : Int) (created : Bool)
  | queue (status : QueueStatus)
  | claim (claim : QueueClaim)
  | lease (lease : QueueLease)
  | grant (grant : PermitGrant)
  | permitLease (lease : PermitLease)
  | released
  | run (detail : RunDetail)
  | page (page : CasePage)
  | comparison (comparison : Comparison)
  | error (code message : String)
  | busy (retryAfterMS : Nat)
  /-- No document of the API. -/
  | plain

structure Response where
  status : Nat
  /-- `Retry-After` -/
  retryAfter : Option Nat
  payload : Payload

def writeJSON (status : Nat) (payload : Payload) : Response := ⟨status, none, payload⟩

def writeError (status : Nat) (code message : String) : Response := writeJSON status (.error code message)

def badRequest (message : String) : Response := writeError 400 "invalid_request" message

def writeServiceError : ApiError → Response
  | .notFound => writeError 404 "not_found" "requested result was not found"
  | .conflict => writeError 409 "idempotency_conflict" "idempotency key was reused with different content"
  | .notReady => writeError 409 "run_not_complete" "both runs must be complete"
  | .leaseLost => writeError 409 "lease_lost" "scheduler lease is no longer valid"
  | .validation message => badRequest message
  | _ => writeError 500 "internal_error" "request could not be completed"

/-- 201 for what was created, 200 for what was there. -/
def createdStatus (created : Bool) : Nat := if created then 201 else 200

/-! ## Reading a request -/

/-- What `encoding/json` makes of a body for one destination. -/
inductive Decoded (α : Type)
  | tooLarge
  | failed (err : String)
  /-- A value, and whether the body ends after it. -/
  | value (a : α) (atEnd : Bool)

structure Decoders where
  registration : Bytes → Decoded Registration
  terminal : Bytes → Decoded TerminalRequest
  upload : Bytes → Decoded ShardUpload
  /-- `worker_id` of a claim. -/
  claim : Bytes → Decoded String
  /-- `lease_token` of a renewal of a shard, or of a call about a permit. -/
  leaseToken : Bytes → Decoded String
  permit : Bytes → Decoded PermitRequest

def decodeJSON {α : Type} : Decoded α → Except String α
  | .tooLarge => .error ("request body exceeds " ++ toString maxRequestBytes ++ " bytes")
  | .failed err => .error ("decode JSON: " ++ err)
  | .value a true => .ok a
  | .value _ false => .error "request body must contain one JSON object"

/-- `strconv.Atoi` -/
def atoi (s : String) : Option Int :=
  let value := match s.toList with
    | '-' :: cs => (digitsValue? cs).map fun n => -(n : Int)
    | '+' :: cs => (digitsValue? cs).map fun n => (n : Int)
    | cs => (digitsValue? cs).map fun n => (n : Int)
  value.filter fun n => decide (-2 ^ 63 ≤ n ∧ n < 2 ^ 63)

/-- `strconv.ParseBool` -/
def parseBool (s : String) : Option Bool :=
  if s ∈ ["1", "t", "T", "TRUE", "true", "True"] then some true
  else if s ∈ ["0", "f", "F", "FALSE", "false", "False"] then some false
  else none

def defaultString (value fallback : String) : String := if value = "" then fallback else value

/-- `strings.CutPrefix(…, "Bearer ")` of the header. -/
def bearerToken (authorization : String) : Option String :=
  if "Bearer ".toList.isPrefixOf authorization.toList then
    some (String.ofList (authorization.toList.drop "Bearer ".toList.length))
  else none

/-! ## Routes -/

inductive Route
  | health
  | ready
  | metrics
  | registerRun (runID : String)
  | terminateRun (runID : String)
  | uploadShard (runID index : String)
  | queueStatus (runID : String)
  | claimShard (runID : String)
  | renewShardLease (runID index : String)
  | acquirePermit (runID : String)
  | renewPermit (runID permitID : String)
  | releasePermit (runID permitID : String)
  | getRun (runID : String)
  | listCases (runID : String)
  | compare

/-- The patterns of `routes` for `GET`, which also serve `HEAD`. -/
def routeGet : List String → Option Route
  | ["healthz"] => some .health
  | ["readyz"] => some .ready
  | ["metrics"] => some .metrics
  | ["v1", "runs", runID, "queue"] => some (.queueStatus runID)
  | ["v1", "runs", runID] => some (.getRun runID)
  | ["v1", "runs", runID, "cases"] => some (.listCases runID)
  | ["v1", "comparisons"] => some .compare
  | _ => none

def routePut : List String → Option Route
  | ["v1", "runs", runID] => some (.registerRun runID)
  | ["v1", "runs", runID, "terminal"] => some (.terminateRun runID)
  | ["v1", "runs", runID, "shards", index] => some (.uploadShard runID index)
  | _ => none

def routePost : List String → Option Route
  | ["v1", "runs", runID, "queue", "claims"] => some (.claimShard runID)
  | ["v1", "runs", runID, "queue", "shards", index, "renew"] => some (.renewShardLease runID index)
  | ["v1", "runs", runID, "permits"] => some (.acquirePermit runID)
  | ["v1", "runs", runID, "permits", permitID, "renew"] => some (.renewPermit runID permitID)
  | ["v1", "runs", runID, "permits", permitID, "release"] => some (.releasePermit runID permitID)
  | _ => none

def route : Method → List String → Option Route
  | .get, path => routeGet path
  | .head, path => routeGet path
  | .put, path => routePut path
  | .post, path => routePost path
  | .other _, _ => none

/-- `ServeMux` answers itself where no pattern matches: 405 if one of another method would. -/
def unmatched (path : List String) : Response :=
  ⟨if (routeGet path).isSome || (routePut path).isSome || (routePost path).isSome then 405 else 404, none, .plain⟩

/-- The token an endpoint asks for. -/
inductive Access
  | everyone
  | write
  | read
  deriving DecidableEq

def Route.access : Route → Access
  | .health | .ready | .metrics | .queueStatus _ => .everyone
  | .getRun _ | .listCases _ | .compare => .read
  | _ => .write

/-! ## Handlers -/

/-- The surroundings of a request: the clocks, the randomness that is drawn, whether the acknowledgement of its commit
    arrives, whether the database and the object store report that they are ready, and the counters of the process. -/
structure Occasion where
  now : Time
  wall : Time
  token : SchedulerToken
  permitID : RandomIdentifier
  acknowledged : Bool
  ready : Bool
  metrics : String

/-- What a transaction returns whose commit is not acknowledged. -/
def lostCommit : ApiError := .internal "commit"

namespace Http

/-- Decode the body, or answer 400. -/
def decoded {α : Type} (d : Decoded α) (next : α → Db → Response × Db) (db : Db) : Response × Db :=
  match decodeJSON d with
  | .error message => (badRequest message, db)
  | .ok a => next a db

/-- Run a transaction of the service and answer. -/
def transact {α : Type} (acknowledged : Bool) (t : Transaction α) (accept : α → Response) (refuse : ApiError → Response)
    (db : Db) : Response × Db :=
  match t db with
  | .error err => (refuse err, db)
  | .ok (a, db') => if acknowledged then (accept a, db') else (refuse lostCommit, db')

/-- Answer with what a query reads. -/
def read {α : Type} (query : Db → Except ApiError α) (accept : α → Payload) (db : Db) : Response :=
  match query db with
  | .error err => writeServiceError err
  | .ok a => writeJSON 200 (accept a)

section Handlers

variable (P : Platform) (policy : LimitPolicy) (D : Decoders) (r : HttpRequest) (o : Occasion)

def registerRun (runID : String) : Db → Response × Db :=
  decoded (D.registration r.body) fun registration =>
    transact o.acknowledged (serviceRegisterRun P o.now runID r.idempotencyKey registration)
      (fun created => writeJSON (createdStatus created) (.registered runID created)) writeServiceError

def terminateRun (runID : String) : Db → Response × Db :=
  decoded (D.terminal r.body) fun terminal =>
    transact o.acknowledged (serviceTerminateRun P o.now runID r.idempotencyKey terminal)
      (fun created => writeJSON (createdStatus created) (.terminated runID terminal.status created)) writeServiceError

/-- An empty queue is no error to a client. -/
def claimShard (runID : String) : Db → Response × Db :=
  decoded (D.claim r.body) fun workerID =>
    transact o.acknowledged (serviceClaimShard P o.now runID workerID o.token) (fun claim => writeJSON 201 (.claim claim))
      fun | .queueEmpty => ⟨204, none, .plain⟩
          | err => writeServiceError err

def renewShardLease (runID index : String) (db : Db) : Response × Db :=
  match atoi index with
  | none => (badRequest "shard index must be an integer", db)
  | some i =>
    decoded (D.leaseToken r.body) (fun leaseToken =>
      transact o.acknowledged (serviceRenewShardLease P o.now runID i leaseToken)
        (fun lease => writeJSON 200 (.lease lease)) writeServiceError) db

/-- Retry after whole seconds, at least one. -/
def acquirePermit (runID : String) : Db → Response × Db :=
  decoded (D.permit r.body) fun request =>
    transact o.acknowledged (serviceAcquirePermit P policy o.now runID request o.permitID o.token)
      (fun grant => writeJSON 201 (.grant grant))
      fun | .capacity retryAfterMS => ⟨429, some (max 1 (retryAfterMS / 1000)), .busy retryAfterMS⟩
          | err => writeServiceError err

def renewPermit (runID permitID : String) : Db → Response × Db :=
  decoded (D.leaseToken r.body) fun leaseToken =>
    transact o.acknowledged (serviceRenewPermit P policy o.now runID permitID leaseToken)
      (fun lease => writeJSON 200 (.permitLease lease)) writeServiceError

def releasePermit (runID permitID : String) : Db → Response × Db :=
  decoded (D.leaseToken r.body) fun leaseToken =>
    transact o.acknowledged (serviceReleasePermit P o.now runID permitID leaseToken)
      (fun _ => writeJSON 200 .released) writeServiceError

def ready : Response :=
  if o.ready then writeJSON 200 (.status "ready") else writeError 503 "not_ready" "dependencies are not ready"

def queueStatus (runID : String) : Db → Response := read (serviceQueueStatus o.now runID) .queue

def getRun (runID : String) : Db → Response := read (serviceGetRun runID) .run

def compare : Db → Response := read (serviceCompare r.baseline r.candidate) .comparison

section Listing

variable {κ : Type} [LinearOrder κ] (collate : String ↪ κ) (codec : CursorCodec)

/-- An absent limit is zero. -/
def listCases (runID : String) (db : Db) : Response :=
  match if r.limit = "" then some 0 else atoi r.limit with
  | none => badRequest "limit must be an integer"
  | some limit =>
    match parseBool (defaultString r.failed "false") with
    | none => badRequest "failed must be true or false"
    | some failedOnly => read (serviceListCases collate codec runID r.cursor limit failedOnly) .page db

end Listing

/-! ### Uploads -/

/-- The answer to an upload that returned; without the acknowledgement a commit is an error. -/
def uploaded (call : UploadCall) (acknowledged : Bool) (result : Except ApiError ShardResult) : Response :=
  match if acknowledged then result else result.bind fun _ => .error lostCommit with
  | .error err => writeServiceError err
  | .ok result => writeJSON (createdStatus result.created) (.uploaded call.runID call.shardIndex result.created)

/-- Until the end of `ReserveShard`; an upload between two of its steps has not answered yet. -/
def reserveUpload (request : Nat) (call : UploadCall) (w : World) : Option Response × World :=
  match w.reserve P request call o.now with
  | (.returned result, w') => (some (uploaded call o.acknowledged result), w')
  | (_, w') =>
    if o.acknowledged then (none, w') else (some (writeServiceError lostCommit), w'.leave request)

def uploadShard (request : Nat) (runID index : String) (w : World) : Option Response × World :=
  match atoi index with
  | none => (some (badRequest "shard index must be an integer"), w)
  | some i =>
    match decodeJSON (D.upload r.body) with
    | .error message => (some (badRequest message), w)
    | .ok upload => reserveUpload P o request ⟨runID, i, r.idempotencyKey, r.queueLease, upload⟩ w

end Handlers

end Http

/-! ## The server -/

/-- What a Result API process is made of. `NewHTTPHandler` takes no empty token. -/
structure Server where
  platform : Platform
  policy : LimitPolicy
  decoders : Decoders
  codec : CursorCodec
  writeToken : String
  readToken : String
  writes : writeToken ≠ ""
  reads : readToken ≠ ""

section Serve

variable {κ : Type} [LinearOrder κ] (collate : String ↪ κ) (S : Server)

/-- `authorize` -/
def Server.authorized (expected : String) (r : HttpRequest) : Bool :=
  (bearerToken r.authorization).any fun token =>
    decide (token ≠ "" ∧ S.platform.sha256Hex (bytes token) = S.platform.sha256Hex (bytes expected))

def Server.admits (endpoint : Route) (r : HttpRequest) : Bool :=
  match endpoint.access with
  | .everyone => true
  | .write => S.authorized S.writeToken r
  | .read => S.authorized S.readToken r

/-- A handler that works on the database alone. -/
def onDb (f : Db → Response × Db) (w : World) : Option Response × World :=
  let (response, db) := f w.db
  (some response, { w with db })

def reading (f : Db → Response) (w : World) : Option Response × World := (some (f w.db), w)

def Server.handle (request : Nat) (r : HttpRequest) (o : Occasion) : Route → World → Option Response × World
  | .health => reading fun _ => writeJSON 200 (.status "ok")
  | .ready => reading fun _ => Http.ready o
  | .metrics => reading fun _ => ⟨200, none, .metrics o.metrics⟩
  | .registerRun runID => onDb (Http.registerRun S.platform S.decoders r o runID)
  | .terminateRun runID => onDb (Http.terminateRun S.platform S.decoders r o runID)
  | .uploadShard runID index => Http.uploadShard S.platform S.decoders r o request runID index
  | .queueStatus runID => reading (Http.queueStatus o runID)
  | .claimShard runID => onDb (Http.claimShard S.platform S.decoders r o runID)
  | .renewShardLease runID index => onDb (Http.renewShardLease S.platform S.decoders r o runID index)
  | .acquirePermit runID => onDb (Http.acquirePermit S.platform S.policy S.decoders r o runID)
  | .renewPermit runID permitID => onDb (Http.renewPermit S.platform S.policy S.decoders r o runID permitID)
  | .releasePermit runID permitID => onDb (Http.releasePermit S.platform S.decoders r o runID permitID)
  | .getRun runID => reading (Http.getRun runID)
  | .listCases runID => reading (Http.listCases r collate S.codec runID)
  | .compare => reading (Http.compare r)

def Server.serveHTTP (request : Nat) (r : HttpRequest) (o : Occasion) (w : World) : Option Response × World :=
  match route r.method r.path with
  | none => (some (unmatched r.path), w)
  | some endpoint =>
    if S.admits endpoint r then S.handle collate request r o endpoint w
    else (some (writeError 401 "unauthorized" "valid bearer token required"), w)

inductive HttpEvent
  | request (request : Nat) (r : HttpRequest) (o : Occasion)
  | put (request : Nat) (outcome : PutOutcome)
  | finalize (request : Nat) (o : Occasion)
  | crash (request : Nat)

/-- The answer of an upload that goes on or returns. -/
def resumed (acknowledged : Bool) (f : Flight) : Outcome → Option Response
  | .returned result => some (Http.uploaded f.call acknowledged result)
  | _ => none

/-- Every request a process serves, step by step. -/
def api : Transactional World HttpEvent (Option Response) Stray where
  exec e w :=
    match e with
    | .request request r o =>
      match w.flights request with
      | none => .ok (S.serveHTTP collate request r o w)
      | some _ => .error ⟨⟩
    | .put request outcome =>
      match w.flights request with
      | some f =>
        if f.stored then .error ⟨⟩
        else .ok (resumed true f (w.put S.platform request f outcome).1, (w.put S.platform request f outcome).2)
      | none => .error ⟨⟩
    | .finalize request o =>
      match w.flights request with
      | some f =>
        if f.stored then
          .ok (resumed o.acknowledged f (w.finalize S.platform request f o.now o.wall).1,
            (w.finalize S.platform request f o.now o.wall).2)
        else .error ⟨⟩
      | none => .error ⟨⟩
    | .crash request =>
      match w.flights request with
      | some _ => .ok (none, w.leave request)
      | none => .error ⟨⟩

end Serve

section Serve

variable {κ : Type} [LinearOrder κ] {collate : String ↪ κ} {S : Server} {w : World}

/-! ## Confinement -/

/-- The queue counts, which everyone may ask for. -/
def SameCounts (db db' : Db) : Prop :=
  ∀ now runID, serviceQueueStatus now runID db' = serviceQueueStatus now runID db

/-- Without the write token a request changes nothing. -/
theorem serveHTTP_unchanged {request : Nat} {r : HttpRequest} {o : Occasion}
    (hwrite : S.authorized S.writeToken r = false) : (S.serveHTTP collate request r o w).2 = w := by
  unfold Server.serveHTTP
  split
  · rfl
  · rename_i endpoint _
    cases endpoint with
    | health | ready | metrics | queueStatus => rfl
    | getRun | listCases | compare => split <;> rfl
    | _ => simp only [Server.admits, Route.access, hwrite, Bool.false_eq_true, if_false]

/-- Without a token the answers depend on the queue counts only, unless the counters are asked for. -/
theorem serveHTTP_reply_congr {w' : World} {request : Nat} {r : HttpRequest} {o : Occasion} {metrics : String}
    (hroute : route r.method r.path ≠ some .metrics) (hwrite : S.authorized S.writeToken r = false)
    (hread : S.authorized S.readToken r = false) (hcounts : SameCounts w.db w'.db) :
    (S.serveHTTP collate request r { o with metrics } w').1 = (S.serveHTTP collate request r o w).1 := by
  unfold Server.serveHTTP
  split
  · rfl
  · rename_i endpoint hendpoint
    cases endpoint with
    | metrics => exact absurd hendpoint hroute
    | health | ready => rfl
    | queueStatus runID =>
      show some (Http.read (serviceQueueStatus o.now runID) .queue w'.db) =
        some (Http.read (serviceQueueStatus o.now runID) .queue w.db)
      unfold Http.read
      rw [hcounts]
    | getRun | listCases | compare => simp only [Server.admits, Route.access, hread, Bool.false_eq_true, if_false]
    | _ => simp only [Server.admits, Route.access, hwrite, Bool.false_eq_true, if_false]

/-- A request without the write token is no event that may write. -/
def HttpEvent.mayWrite (S : Server) : HttpEvent → Bool
  | .request _ r _ => S.authorized S.writeToken r
  | _ => true

theorem step_of_not_mayWrite {e : HttpEvent} (h : e.mayWrite S = false) : (api collate S).step w e = w := by
  cases e with
  | request request r o =>
    cases hflight : w.flights request with
    | some => simp [Transactional.step, api, hflight]
    | none =>
      have hstep : (api collate S).step w (.request request r o) = (S.serveHTTP collate request r o w).2 := by
        simp [Transactional.step, api, hflight]
      rw [hstep, serveHTTP_unchanged h]
  | put | finalize | crash => cases h

/-- **Confinement.** Take the requests without the write token out of any history, and it leads to the same world. A
    request for anything but the counters that bears neither token gets the same answer from two databases with the same
    queue counts, whatever the counters are. -/
theorem confined {κ : Type} [LinearOrder κ] (collate : String ↪ κ) (S : Server) :
    (∀ w es, (api collate S).run w es = (api collate S).run w (es.filter (·.mayWrite S))) ∧
    ∀ w w' request r o metrics, route r.method r.path ≠ some .metrics →
      S.authorized S.writeToken r = false → S.authorized S.readToken r = false →
      w.flights request = none → w'.flights request = none → SameCounts w.db w'.db →
      (api collate S).answer w' (.request request r { o with metrics }) =
        (api collate S).answer w (.request request r o) := by
  constructor
  · intro w es
    induction es generalizing w with
    | nil => rfl
    | cons e es ih =>
      rw [Transactional.run_cons]
      -- an event that is taken out was a step that stays
      cases he : e.mayWrite S with
      | true => rw [List.filter_cons_of_pos he, Transactional.run_cons, ih]
      | false => rw [List.filter_cons_of_neg (by simp [he]), step_of_not_mayWrite he, ih]
  · intro w w' request r o metrics hroute hwrite hread hfree hfree' hcounts
    simp only [Transactional.answer, api, hfree, hfree', Except.map]
    rw [serveHTTP_reply_congr hroute hwrite hread hcounts]

end Serve

/-! ## A server one can run -/

/-- The number of the iteration, a dot and the case. -/
def CaseCursor.render (cursor : CaseCursor) : String :=
  String.ofList ((Encodable.encode cursor.iteration).repr.toList ++ '.' :: cursor.caseID.toList)

theorem CaseCursor.render_injective : Function.Injective CaseCursor.render := by
  intro c c' h
  have hdot : ∀ n : Nat, '.' ∉ n.repr.toList := fun n => not_mem_repr (by decide)
  obtain ⟨hnumber, hcase⟩ := append_mark_inj (hdot _) (hdot _) (String.ofList_injective h)
  have hiteration := Encodable.encode_injective (Nat.repr_injective (String.toList_inj.mp hnumber))
  cases c
  cases c'
  exact congrArg₂ CaseCursor.mk (String.toList_inj.mp hcase) hiteration

noncomputable def CursorCodec.rendered : CursorCodec where
  encode := CaseCursor.render
  decode := Function.partialInv CaseCursor.render
  decode_encode := Function.partialInv_left CaseCursor.render_injective
  encode_ne cursor h := by
    have hchars := congrArg String.toList h
    rw [CaseCursor.render, String.toList_ofList] at hchars
    exact List.cons_ne_nil _ _ (List.append_eq_nil_iff.mp hchars).2

/-- A body is the number of the document it stands for. -/
def Decoders.reference (registration : Registration) (documents : List ShardUpload) : Decoders where
  registration _ := .value registration true
  terminal _ := .value ⟨.cancelled, "cancellation_requested"⟩ true
  upload body :=
    match body.head?.bind fun b => documents[b.toNat]? with
    | some upload => .value upload true
    | none => .failed "EOF"
  claim _ := .value "worker" true
  leaseToken _ := .value SchedulerToken.ofA.text true
  permit _ := .failed "EOF"

noncomputable def Server.reference (registration : Registration) (documents : List ShardUpload) : Server where
  platform := .reference documents
  policy := .unlimited
  decoders := .reference registration documents
  codec := .rendered
  writeToken := "write"
  readToken := "read"
  writes := by decide
  reads := by decide

/-- A `PUT` with a bearer token. -/
def HttpRequest.putting (path : List String) (token key : String) (body : Bytes) : HttpRequest :=
  ⟨.put, path, "Bearer " ++ token, key, "", "", "", "", "", "", body⟩

def Occasion.reference (now : Time) : Occasion := ⟨now, now, .ofA, .ofA, true, true, ""⟩

/-- The read token does not register a run, and an outsider who asks for the queue of a run learns nothing of the
    objects in the store or of the counters. -/
theorem confined_reader :
    let S := Server.reference (.reference "suite" "indexed" 1) []
    let register (token : String) : HttpEvent :=
      .request 0 (.putting ["v1", "runs", "run"] token (registrationKey "run") []) (.reference 0)
    let outsider (metrics : String) : HttpEvent :=
      .request 0 { HttpRequest.putting ["v1", "runs", "run", "queue"] "" "" [] with method := .get }
        { Occasion.reference 1 with metrics }
    let registered := (api (.refl String) S).run World.empty [register "write"]
    let stocked : World := { registered with objects := fun _ => some [] }
    (api (.refl String) S).run World.empty [register "read", register "write"] = registered ∧
      registered.db.runs.rows.length = 1 ∧
      (api (.refl String) S).answer stocked (outsider "cases 2") =
        (api (.refl String) S).answer registered (outsider "cases 1") := by
  intro S register outsider registered stocked
  obtain ⟨hpurge, hsame⟩ := confined (.refl String) S
  refine ⟨?_, by decide +kernel, ?_⟩
  · have hread : (register "read").mayWrite S = false := by decide +kernel
    have hwrite : (register "write").mayWrite S = true := by decide +kernel
    rw [hpurge, List.filter_cons_of_neg (by simp [hread]), List.filter_cons_of_pos hwrite, List.filter_nil]
  · have hfree : registered.flights 0 = none := Option.isNone_iff_eq_none.mp (by decide +kernel)
    have hroute : route .get ["v1", "runs", "run", "queue"] ≠ some .metrics := by simp [route, routeGet]
    exact hsame registered stocked 0 _ { Occasion.reference 1 with metrics := "cases 1" } "cases 2" hroute
      (by decide +kernel) (by decide +kernel) hfree hfree fun _ _ => rfl

end AgentStorm.Results
