import AgentStorm.Foundation.Checks
import AgentStorm.Foundation.Python
import AgentStorm.Foundation.Text

/-!
# `Worker.Sink` — how the client of the Result API takes an answer

`_put` and `_post` of `ResultClient` in `results.py` and the three calls a queued worker makes with
them. An exchange is an answer, an HTTP error, no connection, or a response that breaks HTTP. The
client translates some of this into `ResultSinkError`; what it does not translate reaches its caller as
it is.
-/

namespace AgentStorm.Worker

open Checks Python

/-! ## Exchanges -/

/-- Reading a response to its end. An `OSError` is also a timeout. -/
inductive Body
  | bytes (content : List UInt8)
  | osError
  | httpException

/-- What becomes of a request: the opener returns a response, raises an `HTTPError` whose body can still be read, raises
    a `URLError`, `TimeoutError` or `OSError`, or raises an `http.client.HTTPException`. -/
inductive Exchange
  | answered (status : Nat) (body : Body)
  | httpError (code : Nat) (body : Body)
  | unavailable
  | httpException

/-- What a call of the worker raises. -/
inductive Raised
  | resultSink (message : String)
  | schedulerBusy (retryAfterMS : Int)
  | adapterPlugin
  | httpException
  | runtime (message : String)
  | python (error : Error)
  deriving DecidableEq

/-- `isinstance(exc, ResultSinkError)` -/
def Raised.isResultSink : Raised → Bool
  | resultSink _ => true
  | schedulerBusy _ => true
  | _ => false

/-- The call returns, or raises a `ResultSinkError`. -/
def translated {α : Type} : Except Raised α → Bool
  | .ok _ => true
  | .error exc => exc.isResultSink

@[simp] theorem translated_ok {α : Type} (a : α) : translated (.ok a : Except Raised α) = true := rfl

@[simp] theorem translated_error {α : Type} (exc : Raised) : translated (.error exc : Except Raised α) = exc.isResultSink :=
  rfl

def unavailable : Raised := .resultSink "result API is unavailable"

def httpStatus (code : Nat) : Raised := .resultSink ("result API returned HTTP " ++ toString code)

/-! ## Requests -/

/-- The values `http.client` accepts in a header: Latin-1, and a line break only before a blank. -/
def sendable : Text → Bool
  | [] => true
  | c :: rest =>
    decide (c.val < 256) &&
    !(c.val == 10 && !(rest.head?.any fun d => d.val == 32 || d.val == 9)) &&
    !(c.val == 13 && !(rest.head?.any fun d => d.val == 32 || d.val == 9 || d.val == 10)) &&
    sendable rest

/-- `_put`: a header that cannot be sent raises before anything is. -/
def put (headers : List Text) (exchange : Exchange) : Except Raised Unit :=
  if headers.all sendable then
    match exchange with
    | .answered _ (.bytes _) => .ok ()
    | .answered _ .osError => .error unavailable
    | .answered _ .httpException => .error .httpException
    | .httpError code _ => .error (httpStatus code)
    | .unavailable => .error unavailable
    | .httpException => .error .httpException
  else .error (.python .value)

section Post

variable (py : Runtime)

/-- `body or b"{}"` -/
def orEmpty (content : List UInt8) : List UInt8 := if content.isEmpty then "\x7b\x7d".toUTF8.toList else content

/-- The answer to HTTP 429. Reading the body is not guarded, and neither is a document that is no object. -/
def busy : Body → Raised
  | .osError => .python .os
  | .httpException => .httpException
  | .bytes content =>
    match py.loads (orEmpty content) with
    | .error .value => .schedulerBusy 1000
    | .error err => .python err
    | .ok (.dict members) =>
      match py.int ((get? members "retry_after_ms").getD (.int 1000)) with
      | .ok ms => .schedulerBusy (max 1 ms)
      | .error .value => .schedulerBusy 1000
      | .error .type => .schedulerBusy 1000
      | .error err => .python err
    | .ok _ => .python .attribute

/-- `_post` -/
def post : Exchange → Except Raised (Option (List (Text × Value)))
  | .answered status (.bytes content) =>
    if status = 204 then .ok none
    else match py.loads (orEmpty content) with
      | .ok (.dict members) => .ok (some members)
      | .ok _ => .error (.resultSink "result API returned an invalid JSON response")
      | .error err => .error (.python err)
  | .answered _ .osError => .error unavailable
  | .answered _ .httpException => .error .httpException
  | .httpError code body => .error (if code = 429 then busy py body else httpStatus code)
  | .unavailable => .error unavailable
  | .httpException => .error .httpException

/-- `payload[key]` -/
def field (payload : List (Text × Value)) (key : String) : Except Raised Value :=
  orElse (get? payload key) (.python .key)

/-- `int(payload[key])` -/
def intField (payload : List (Text × Value)) (key : String) : Except Raised Int := do
  let value ← field payload key
  (py.int value).mapError .python

structure QueueClaim where
  shardIndex : Int
  leaseToken : Text
  renewAfterMS : Int
  deriving DecidableEq

def queueClaim (payload : List (Text × Value)) : Except Raised QueueClaim := do
  let shardIndex ← intField py payload "shard_index"
  let leaseToken ← field payload "lease_token"
  let renewAfterMS ← intField py payload "renew_after_ms"
  return ⟨shardIndex, py.str leaseToken, renewAfterMS⟩

def claimShard (exchange : Exchange) : Except Raised (Option QueueClaim) := do
  match ← post py exchange with
  | none => return none
  | some payload => return some (← queueClaim py payload)

def renewShard (exchange : Exchange) : Except Raised Int := do
  match ← post py exchange with
  | none => .error (.resultSink "result API returned an empty lease response")
  | some payload => intField py payload "renew_after_ms"

/-! ## What is translated -/

/-- The exception of a busy scheduler is raised as such if the body is read and is an object whose delay does not
    overflow, or is no JSON at all. -/
def BusyTranslated : Body → Prop
  | .bytes content =>
    match py.loads (orEmpty content) with
    | .ok (.dict members) => py.int ((get? members "retry_after_ms").getD (.int 1000)) ≠ .error .overflow
    | .ok _ => False
    | .error err => err = .value
  | _ => False

def IntField (payload : List (Text × Value)) (key : String) : Prop :=
  ∃ value n, get? payload key = some value ∧ py.int value = .ok n

/-- The document names a shard, a lease and a delay. -/
structure ClaimDocument (payload : List (Text × Value)) : Prop where
  shardIndex : IntField py payload "shard_index"
  leaseToken : (get? payload "lease_token").isSome = true
  renewAfterMS : IntField py payload "renew_after_ms"

/-- The exchanges of a claim of which the client translates every failure. -/
def ClaimTranslated : Exchange → Prop
  | .answered status (.bytes content) =>
    status = 204 ∨
    match py.loads (orEmpty content) with
    | .ok (.dict members) => ClaimDocument py members
    | .ok _ => True
    | .error _ => False
  | .answered _ .httpException => False
  | .httpError 429 body => BusyTranslated py body
  | .httpException => False
  | _ => True

variable {py}

theorem int_error {value : Value} {err : Error} (h : py.int value = .error err) :
    err = .value ∨ err = .type ∨ err = .overflow := by
  unfold Runtime.int at h
  split at h
  · cases h
  · cases h
  · cases h
  · cases h
    exact .inl rfl
  · cases h
    exact .inr (Or.inr rfl)
  · cases h
  · split at h
    · cases h
    · cases h
      exact .inl rfl
  · cases h
    exact .inr (Or.inl rfl)

theorem busy_isResultSink_iff {body : Body} : (busy py body).isResultSink = true ↔ BusyTranslated py body := by
  cases body with
  | osError => simp [busy, BusyTranslated, Raised.isResultSink]
  | httpException => simp [busy, BusyTranslated, Raised.isResultSink]
  | bytes content =>
    unfold busy BusyTranslated
    dsimp only
    rcases hloads : py.loads (orEmpty content) with err | value
    · rcases py.loads_error hloads with rfl | rfl
      · simp [Raised.isResultSink]
      · simp [Raised.isResultSink]
    · cases value with
      | dict members =>
        dsimp only
        rcases hint : py.int ((get? members "retry_after_ms").getD (.int 1000)) with err | ms
        · rcases int_error hint with rfl | rfl | rfl
          · simp [Raised.isResultSink]
          · simp [Raised.isResultSink]
          · simp [Raised.isResultSink]
        · simp [Raised.isResultSink]
      | _ => simp [Raised.isResultSink]

theorem intField_ok_iff {payload : List (Text × Value)} {key : String} {n : Int} :
    intField py payload key = .ok n ↔ ∃ value, get? payload key = some value ∧ py.int value = .ok n := by
  simp only [intField, field, bind_ok_iff, orElse_eq_ok]
  refine exists_congr fun value => and_congr_right fun _ => ?_
  cases py.int value with
  | error => simp [Except.mapError]
  | ok => simp [Except.mapError]

/-- Reading a claim raises a `KeyError`, or what `int` raises, and no `ResultSinkError`. -/
theorem queueClaim_error {payload : List (Text × Value)} {exc : Raised} (h : queueClaim py payload = .error exc) :
    exc.isResultSink = false := by
  have hfield : ∀ key, FailsOnly (fun exc => exc.isResultSink = false) (field payload key) := by
    intro key exc herr
    unfold field orElse at herr
    split at herr
    · cases herr
    · cases herr
      rfl
  have hint : ∀ key, FailsOnly (fun exc => exc.isResultSink = false) (intField py payload key) := by
    intro key
    refine (hfield key).bind fun value _ exc herr => ?_
    cases hvalue : py.int value with
    | error =>
      rw [hvalue] at herr
      cases herr
      rfl
    | ok =>
      rw [hvalue] at herr
      cases herr
  have hall : FailsOnly (fun exc => exc.isResultSink = false) (queueClaim py payload) :=
    (hint _).bind fun _ _ => (hfield _).bind fun _ _ => (hint _).bind fun _ _ => failsOnly_ok _
  exact hall exc h

theorem queueClaim_isOk_iff {payload : List (Text × Value)} :
    (∃ claim, queueClaim py payload = .ok claim) ↔ ClaimDocument py payload := by
  constructor
  · rintro ⟨_, h⟩
    obtain ⟨_, hshard, h⟩ := bind_ok_iff.mp h
    obtain ⟨_, hlease, h⟩ := bind_ok_iff.mp h
    obtain ⟨_, hrenew, -⟩ := bind_ok_iff.mp h
    obtain ⟨v, hv, hn⟩ := intField_ok_iff.mp hshard
    obtain ⟨w, hw, hm⟩ := intField_ok_iff.mp hrenew
    exact ⟨⟨v, _, hv, hn⟩, by rw [orElse_eq_ok.mp hlease, Option.isSome_some], ⟨w, _, hw, hm⟩⟩
  · rintro ⟨⟨v, n, hv, hn⟩, hlease, w, m, hw, hm⟩
    obtain ⟨token, htoken⟩ := Option.isSome_iff_exists.mp hlease
    refine ⟨⟨n, py.str token, m⟩, ?_⟩
    exact bind_ok_iff.mpr ⟨n, intField_ok_iff.mpr ⟨v, hv, hn⟩, bind_ok_iff.mpr ⟨token, orElse_eq_ok.mpr htoken,
      bind_ok_iff.mpr ⟨m, intField_ok_iff.mpr ⟨w, hw, hm⟩, rfl⟩⟩⟩

theorem claimShard_eq (exchange : Exchange) :
    claimShard py exchange =
      match post py exchange with
      | .error exc => .error exc
      | .ok none => .ok none
      | .ok (some payload) => (queueClaim py payload).map some := by
  unfold claimShard
  rcases post py exchange with exc | payload | payload
  · rfl
  · rfl
  · show (queueClaim py payload >>= fun claim => pure (some claim)) = (queueClaim py payload).map some
    cases queueClaim py payload with
    | error => rfl
    | ok => rfl

/-- **Which claims are translated.** -/
theorem claimTranslated_iff {exchange : Exchange} :
    translated (claimShard py exchange) = true ↔ ClaimTranslated py exchange := by
  rw [claimShard_eq]
  cases exchange with
  | unavailable => simp [post, ClaimTranslated, unavailable, Raised.isResultSink]
  | httpException => simp [post, ClaimTranslated, Raised.isResultSink]
  | httpError code =>
    by_cases hcode : code = 429
    · subst hcode
      simp [post, translated_error, busy_isResultSink_iff, ClaimTranslated]
    · simp [post, hcode, httpStatus, Raised.isResultSink, ClaimTranslated]
  | answered status body =>
    cases body with
    | osError => simp [post, ClaimTranslated, unavailable, Raised.isResultSink]
    | httpException => simp [post, ClaimTranslated, Raised.isResultSink]
    | bytes content =>
      by_cases hstatus : status = 204
      · simp [post, ClaimTranslated, hstatus]
      · simp only [post, ClaimTranslated, hstatus, if_false, false_or]
        rcases py.loads (orEmpty content) with err | value
        · simp [Raised.isResultSink]
        · cases value with
          | dict members =>
            dsimp only
            rw [← queueClaim_isOk_iff]
            cases hclaim : queueClaim py members with
            | ok => simp [Except.map]
            | error => simp [Except.map, queueClaim_error hclaim]
          | _ => simp [Raised.isResultSink]

end Post

/-! ## Uploads -/

/-- A client with its write token; the token can be sent. -/
structure ResultClient where
  writeToken : Text
  sendable_writeToken : sendable (text "Bearer " ++ writeToken) = true

def runKey (runID : Text) : Text := text "run/" ++ runID

def shardKey (runID : Text) (shardIndex : Int) : Text := text "run/" ++ runID ++ text "/shard/" ++ text (toString shardIndex)

namespace ResultClient

variable (client : ResultClient)

def registerRun (runID : Text) (exchange : Exchange) : Except Raised Unit :=
  put [text "Bearer " ++ client.writeToken, runKey runID] exchange

/-- `upload_shard`: a lease that is the empty text is not sent. -/
def uploadShard (runID : Text) (shardIndex : Int) (leaseToken : Option Text) (exchange : Exchange) : Except Raised Unit :=
  put ([text "Bearer " ++ client.writeToken, shardKey runID shardIndex] ++ (leaseToken.filter (· ≠ [])).toList) exchange

end ResultClient

/-- The exchanges of an upload that break HTTP. -/
def Exchange.breaks : Exchange → Bool
  | .answered _ .httpException => true
  | .httpException => true
  | _ => false

theorem put_translated_iff {headers : List Text} {exchange : Exchange} :
    translated (put headers exchange) = true ↔ headers.all sendable = true ∧ exchange.breaks = false := by
  unfold put
  by_cases hheaders : headers.all sendable = true
  · rw [if_pos hheaders]
    simp only [hheaders, true_and]
    cases exchange with
    | unavailable => simp [unavailable, Raised.isResultSink, Exchange.breaks]
    | httpException => simp [Raised.isResultSink, Exchange.breaks]
    | httpError => simp [httpStatus, Raised.isResultSink, Exchange.breaks]
    | answered status body =>
      cases body with
      | osError => simp [unavailable, Raised.isResultSink, Exchange.breaks]
      | httpException => simp [Raised.isResultSink, Exchange.breaks]
      | bytes => simp [Exchange.breaks]
  · rw [if_neg hheaders]
    simp [hheaders, Raised.isResultSink]

theorem uploadShard_translated_iff {client : ResultClient} {runID : Text} {shardIndex : Int}
    (hkey : sendable (shardKey runID shardIndex) = true) {leaseToken : Text} {exchange : Exchange} :
    translated (client.uploadShard runID shardIndex (some leaseToken) exchange) = true ↔
      sendable leaseToken = true ∧ exchange.breaks = false := by
  rw [ResultClient.uploadShard, put_translated_iff]
  by_cases hempty : leaseToken = []
  · subst hempty
    simp [client.sendable_writeToken, hkey, sendable]
  · simp [client.sendable_writeToken, hkey, Option.filter, hempty]

def printable (c : CodePoint) : Bool := decide (32 ≤ c.val) && decide (c.val < 256)

theorem sendable_of_printable {s : Text} (h : s.all printable = true) : sendable s = true := by
  induction s with
  | nil => rfl
  | cons c rest ih =>
    obtain ⟨hc, hrest⟩ := Bool.and_eq_true_iff.mp (List.all_cons ▸ h)
    obtain ⟨hlow, hhigh⟩ := Bool.and_eq_true_iff.mp hc
    have hne : ∀ n : Nat, n < 32 → (c.val == n) = false := by
      intro n hn
      have hle := of_decide_eq_true hlow
      exact beq_eq_false_iff_ne.mpr (by omega)
    rw [sendable, hhigh, hne 10 (by decide), hne 13 (by decide), ih hrest]
    rfl

theorem printable_text_toString (n : Int) : (text (toString n)).all printable = true := by
  have hnat : ∀ m : Nat, (text m.repr).all printable = true := by
    intro m
    refine List.all_eq_true.mpr fun c hc => ?_
    obtain ⟨d, hd, rfl⟩ := List.mem_map.mp hc
    have hdigit := Text.isDigit_of_mem_repr hd
    simp only [Char.isDigit, Bool.and_eq_true, decide_eq_true_eq, UInt32.le_iff_toNat_le, ge_iff_le] at hdigit
    have hlow : 48 ≤ d.toNat := hdigit.1
    have hhigh : d.toNat ≤ 57 := hdigit.2
    rw [printable, Fin.val_ofNat, Nat.mod_eq_of_lt (by omega), decide_eq_true (by omega), decide_eq_true (by omega)]
    rfl
  cases n with
  | ofNat m => exact hnat m
  | negSucc m =>
    have hrepr : text (toString (Int.negSucc m)) = text "-" ++ text (m + 1).repr := by
      show text ("-" ++ (m + 1).repr) = _
      simp [text]
    rw [hrepr, List.all_append, hnat]
    rfl

/-- The keys of a run whose id is printable can be sent. -/
theorem sendable_shardKey {runID : Text} (h : runID.all printable = true) (shardIndex : Int) :
    sendable (shardKey runID shardIndex) = true := by
  refine sendable_of_printable ?_
  rw [shardKey, List.all_append, List.all_append, List.all_append, h, printable_text_toString]
  rfl

/-- A claim of shard 0. -/
def claimBody : List UInt8 :=
  "\x7b\"shard_index\":0,\"lease_token\":\"lease\",\"renew_after_ms\":1000\x7d".toUTF8.toList

/-- Reads that claim and nothing else. -/
def readClaim (content : List UInt8) : Except Error Value :=
  if content = claimBody then
    .ok (.dict [(text "shard_index", .int 0), (text "lease_token", .str (text "lease")), (text "renew_after_ms", .int 1000)])
  else .error .value

theorem readClaim_error {content : List UInt8} {err : Error} (h : readClaim content = .error err) :
    err = .value ∨ err = .recursion := by
  unfold readClaim at h
  split at h
  · cases h
  · cases h
    exact .inl rfl

def claimRuntime : Runtime := ⟨readClaim, fun _ => none, fun _ => [], fun _ => false, readClaim_error⟩

end AgentStorm.Worker
