import AgentStorm.Foundation.PyJson
import AgentStorm.Worker.Errors

/-!
# `Worker.Compatible` — the OpenAI-compatible adapter and its ledger

`OpenAICompatibleAdapter.run` of `adapters/openai_compatible.py`: a loop of chat completions with tool
calls in between, inside it a loop that posts one completion again while the endpoint answers 429, and
a ledger of what the completions cost. What the endpoint answers to the `n`-th request and what the
`n`-th tool call does are functions of `n`. `Tallied` says what the ledger knows at the head of the
loop, `run_accounted` what every ending reports. The messages themselves and the waits between requests
are left out.
-/

namespace AgentStorm.Worker.Compatible

open Numeric Python

/-! ## Responses of the endpoint -/

abbrev Members := List (Python.Text × Value)

/-- How one request ends: with a response, whose body is kept if it is a JSON object, with a failure of the transport, or
    with an exception the adapter does not catch. -/
inductive Reply
  | answered (status : Int) (body : Option Members)
  | timeout
  | connectionError
  | raised

/-- `_token_count` -/
def tokenCount : Value → Option Nat
  | .int n => if 0 ≤ n then some n.toNat else none
  | .float (.finite q) => if q.den = 1 ∧ 0 ≤ q ∧ q ≤ 2 ^ 53 then some q.num.toNat else none
  | .negZero => some 0
  | _ => none

/-- `members.get(key, members.get(other))` -/
def getEither (members : Members) (key other : String) : Value :=
  ((get? members key).or (get? members other)).getD .none

/-- `_usage` -/
def usage : Value → Option (Nat × Nat)
  | .dict members => do
      let inputTokens ← tokenCount (getEither members "prompt_tokens" "input_tokens")
      let outputTokens ← tokenCount (getEither members "completion_tokens" "output_tokens")
      return (inputTokens, outputTokens)
  | _ => none

/-- What `_parse_completion` finds in a body. -/
structure Completion where
  content : Value
  toolCalls : List Value
  usage : Option (Nat × Nat)
  finishReason : Python.Text

/-- `finish_reason or ""`, if it is no string of another kind of value. -/
def finishReason : Value → Option Python.Text
  | .none => some []
  | .str s => some s
  | _ => none

/-- `message.get("tool_calls") or []`, if it is a list or missing. -/
def messageToolCalls : Value → Option (List Value)
  | .none => some []
  | .list calls => some calls
  | _ => none

/-- `_parse_completion`; nothing where it raises a `ValueError`. -/
def parseCompletion (body : Option Members) : Option Completion := do
  let body ← body
  match get? body "choices" with
  | some (.list (.dict choice :: _)) =>
    match get? choice "message" with
    | some (.dict message) => do
        let finishReason ← finishReason ((get? choice "finish_reason").getD .none)
        let toolCalls ← messageToolCalls ((get? message "tool_calls").getD .none)
        return { content := (get? message "content").getD .none, toolCalls, finishReason
                 usage := usage ((get? body "usage").getD .none) }
    | _ => none
  | _ => none

/-- `[A-Za-z0-9_.-]` -/
def providerCodeChar (c : CodePoint) : Bool :=
  let c := Char.ofNat c.val
  c.isAlphanum || c == '_' || c == '.' || c == '-'

/-- `_allowlisted_token` of a string. -/
def allowlistedToken (value : Python.Text) : Python.Text :=
  if 1 ≤ value.length ∧ value.length ≤ 32 ∧ value.all providerCodeChar then value else []

/-- The text of one part of a message. -/
def partText : Value → Option Python.Text
  | .str s => some s
  | .dict members => match get? members "text" with
      | some (.str s) => some s
      | _ => none
  | _ => none

/-- `_message_text` -/
def messageText : Value → Option Python.Text
  | .str s => some s
  | .list values => (values.mapM partText).map List.flatten
  | _ => none

/-! ## Tool calls -/

/-- `json.loads` of the arguments of a call: the value, a `JSONDecodeError` or another exception. -/
inductive Decoded
  | value (value : Value)
  | malformed
  | raised

/-- What a tool does with its call: it returns something `json.dumps` takes, or an exception comes out. -/
inductive ToolOutcome
  | returned
  | execution (error : ExecutionError)
  | typeError
  | failed

/-- The arguments of a call, which are a dictionary or the JSON text of one; the outer failure is an exception. -/
def toolArguments (loads : Python.Text → Decoded) : Value → Except AdapterException (Option Members)
  | .str raw =>
    if raw = [] then .ok (some [])
    else match loads raw with
      | .value (.dict members) => .ok (some members)
      | .value _ => .ok none
      | .malformed => .ok none
      | .raised => .error .other
  | .dict members => .ok (some members)
  | _ => .ok none

/-- `_parse_tool_call`: the name of the tool, if the call has a name, an id and arguments. -/
def parseToolCall (loads : Python.Text → Decoded) : Value → Except AdapterException (Option Python.Text)
  | .dict call =>
    match get? call "function", get? call "id" with
    | some (.dict function), some (.str callID) =>
      match get? function "name" with
      | some (.str name) =>
        if name = [] ∨ callID = [] then .ok none
        else do
          let arguments ← toolArguments loads ((get? function "arguments").getD (.str (text "\x7b\x7d")))
          return arguments.map fun _ => name
      | _ => .ok none
    | _, _ => .ok none
  | _ => .ok none

/-! ## The ledger -/

def unknownCallInputTokens : Nat := 8192

def unknownCallOutputTokens : Nat := 8192

/-- `_output_allowance` -/
def outputAllowance (fields : Members) : Nat :=
  match get? fields "max_tokens" with
  | some (.int value) => if value < 1 then unknownCallOutputTokens else value.toNat
  | _ => unknownCallOutputTokens

/-- What the constructor accepts, as far as the run reads it. -/
structure CompatibleConfig where
  tools : List String
  maxModelCalls : Nat
  maxHttpAttempts : Nat
  unknownInputTokens : Nat := unknownCallInputTokens
  requestFields : Members
  maxModelCalls_pos : 1 ≤ maxModelCalls
  maxModelCalls_le : maxModelCalls ≤ 32
  attempts_pos : 1 ≤ maxHttpAttempts
  attempts_le : maxHttpAttempts ≤ 16
  allowance_pos : 1 ≤ unknownInputTokens
  tools_nodup : tools.Nodup
  tools_named : "" ∉ tools

structure Ledger where
  modelCalls : Nat := 0
  inputTokens : Nat := 0
  outputTokens : Nat := 0
  usageKnown : Bool := true
  unknownCalls : Nat := 0
  deriving DecidableEq, Repr

namespace Ledger

def addUsage (ledger : Ledger) : Option (Nat × Nat) → Ledger
  | none => { ledger with usageKnown := false }
  | some usage =>
    { ledger with inputTokens := ledger.inputTokens + usage.1, outputTokens := ledger.outputTokens + usage.2 }

/-- Prices one call that returned no usage, and says whether the ledger can still be priced. -/
def chargeUnknownCall (ledger : Ledger) (inputTokens outputTokens : Nat) : Bool × Ledger :=
  let ledger := { ledger with unknownCalls := ledger.unknownCalls + 1 }
  if ledger.usageKnown then
    (true, { ledger with
      inputTokens := ledger.inputTokens + inputTokens, outputTokens := ledger.outputTokens + outputTokens })
  else (false, ledger)

def response (ledger : Ledger) (output : String := "") : AdapterResponse :=
  { output
    inputTokens := if ledger.usageKnown then some ledger.inputTokens else none
    outputTokens := if ledger.usageKnown then some ledger.outputTokens else none
    modelCallCount := some ledger.modelCalls }

/-- `_error` -/
def error (ledger : Ledger) (code : ErrorCode) (usageComplete : Bool) (category : FailureCategory := .provider)
    (failureKind : FailureKind := .provider) (ambiguous safeToRetry : Bool := false) : ExecutionError :=
  { category, code, failureKind, ambiguous, safeToRetry, usageComplete, response := some ledger.response }

end Ledger

/-! ## The run -/

/-- An exception that leaves the adapter: an error it built, or one that passes through it. -/
inductive Raised
  | built (error : ExecutionError)
  | passed (exception : AdapterException)

/-- The outside of one run: what is answered to the `n`-th request, what the `n`-th tool call does, what `json.loads` makes
    of a text, and what the lifecycle raises when a tool is started. -/
structure Endpoint where
  reply : Nat → Reply
  behave : Nat → ToolOutcome
  loads : Python.Text → Decoded
  started : String → Option AdapterException

/-- What a run has done so far: the replies it got, oldest first, and the tools it reported and called. -/
structure Exchange where
  seen : List Reply := []
  started : List String := []
  invoked : Nat := 0

/-- How a run ends. -/
structure Ran where
  ending : Except Raised AdapterResponse
  exchange : Exchange

section Run

variable (config : CompatibleConfig) (endpoint : Endpoint)

/-- `_priced_unknown` -/
def pricedUnknown (ledger : Ledger) (code : ErrorCode) (failureKind : FailureKind := .provider) : ExecutionError :=
  let (usageComplete, ledger) := ledger.chargeUnknownCall config.unknownInputTokens (outputAllowance config.requestFields)
  ledger.error code usageComplete .provider failureKind true

/-- `_status_error` -/
def statusError (status : Int) (ledger : Ledger) : ExecutionError :=
  if status = 429 then ledger.error .rateLimited ledger.usageKnown .provider .provider false true
  else if status = 408 then pricedUnknown config ledger .timeout .timeout
  else if 300 ≤ status ∧ status < 400 then pricedUnknown config ledger .httpRedirect
  else if 500 ≤ status ∧ status ≤ 599 then pricedUnknown config ledger .http5xx
  else if 400 ≤ status ∧ status ≤ 499 then ledger.error .http4xx ledger.usageKnown
  else pricedUnknown config ledger .unknownError

/-- `_post`, once the request has ended. -/
def post (ledger : Ledger) : Reply → Except Raised (Int × Option Members)
  | .answered status body => .ok (status, body)
  | .timeout => .error (.built (pricedUnknown config ledger .timeout .timeout))
  | .connectionError => .error (.built (pricedUnknown config ledger .connectionError))
  | .raised => .error (.passed .other)

/-- `_post_with_retry`, with `left` further requests after the next. A 429 without any is returned like the rest. -/
def postWithRetry (ledger : Ledger) : Nat → List Reply → Except Raised (Int × Option Members) × List Reply
  | 0, seen =>
    let reply := endpoint.reply seen.length
    (post config ledger reply, seen ++ [reply])
  | left + 1, seen =>
    let reply := endpoint.reply seen.length
    let seen := seen ++ [reply]
    match post config ledger reply with
    | .error raised => (.error raised, seen)
    | .ok (status, body) => if status = 429 then postWithRetry ledger left seen else (.ok (status, body), seen)

/-- `model_behavior`, at any of the places that raise it. -/
def modelBehavior (ledger : Ledger) : Raised := .built (ledger.error .modelBehavior ledger.usageKnown .provider .provider true)

/-- The tool a call of `_execute_tools` names. -/
def findTool (ledger : Ledger) (call : Value) : Except Raised String :=
  match parseToolCall endpoint.loads call with
  | .error exception => .error (.passed exception)
  | .ok none => .error (modelBehavior ledger)
  | .ok (some name) =>
    match config.tools.find? fun tool => text tool == name with
    | none => .error (modelBehavior ledger)
    | some tool => .ok tool

/-- One call of a tool, reported to the lifecycle before it is made. -/
def callTool (ledger : Ledger) (tool : String) (exchange : Exchange) : Except Raised Unit × Exchange :=
  let exchange := { exchange with started := exchange.started ++ [tool] }
  match endpoint.started tool with
  | some exception => (.error (.passed exception), exchange)
  | none =>
    let outcome := endpoint.behave exchange.invoked
    let exchange := { exchange with invoked := exchange.invoked + 1 }
    match outcome with
    | .returned => (.ok (), exchange)
    | .execution error => (.error (.passed (.execution error)), exchange)
    | .typeError => (.error (modelBehavior ledger), exchange)
    | .failed => (.error (.built (ledger.error .toolError ledger.usageKnown .tool .tool)), exchange)

/-- `_execute_tools`; all calls of a completion see one ledger. -/
def executeTools (ledger : Ledger) : List Value → Exchange → Except Raised Nat × Exchange
  | [], exchange => (.ok 0, exchange)
  | call :: calls, exchange =>
    match findTool config endpoint ledger call with
    | .error raised => (.error raised, exchange)
    | .ok tool =>
      match callTool endpoint ledger tool exchange with
      | (.error raised, exchange) => (.error raised, exchange)
      | (.ok (), exchange) =>
        let (executed, exchange) := executeTools ledger calls exchange
        (executed.map (· + 1), exchange)

/-- The output of a response; a lone surrogate, which has no character, becomes NUL. -/
def outputText (content : Python.Text) : String := String.ofList (content.map fun c => Char.ofNat c.val)

/-- The end of a completion without tool calls. -/
def conclude (ledger : Ledger) (toolCount : Nat) (completion : Completion) : Except Raised AdapterResponse :=
  let finish := allowlistedToken completion.finishReason
  let content := messageText completion.content
  if finish = text "length" ∧ (strip (content.getD [])).isEmpty then
    .error (.built (ledger.error .outputTruncated ledger.usageKnown))
  else match content with
    | none => .error (modelBehavior ledger)
    | some content => .ok { ledger.response (outputText content) with toolCallCount := some toolCount }

/-- The end of a run that used up its model calls. -/
def maxTurnsExceeded (ledger : Ledger) : Except Raised AdapterResponse :=
  .error (.built (ledger.error .maxTurnsExceeded ledger.usageKnown .evaluation .assertion))

/-- The loop of `run`, with `left` model calls to go. -/
def turns : Nat → Ledger → Nat → Exchange → Ran
  | 0, ledger, _, exchange => ⟨maxTurnsExceeded ledger, exchange⟩
  | left + 1, ledger, toolCount, exchange =>
    let (posted, seen) := postWithRetry config endpoint ledger (config.maxHttpAttempts - 1) exchange.seen
    let exchange := { exchange with seen }
    match posted with
    | .error raised => ⟨.error raised, exchange⟩
    | .ok (status, body) =>
      if status ≠ 200 then ⟨.error (.built (statusError config status ledger)), exchange⟩
      else
        let ledger := { ledger with modelCalls := ledger.modelCalls + 1 }
        match parseCompletion body with
        | none =>
          let ledger := { ledger with usageKnown := false }
          ⟨.error (.built (ledger.error .malformedResponse false .provider .provider true)), exchange⟩
        | some completion =>
          let ledger := ledger.addUsage completion.usage
          if completion.toolCalls ≠ [] then
            if config.maxModelCalls ≤ ledger.modelCalls then ⟨maxTurnsExceeded ledger, exchange⟩
            else
              let (executed, exchange) := executeTools config endpoint ledger completion.toolCalls exchange
              match executed with
              | .error raised => ⟨.error raised, exchange⟩
              | .ok executed => turns left ledger (toolCount + executed) exchange
          else ⟨conclude ledger toolCount completion, exchange⟩

/-- `OpenAICompatibleAdapter.run` -/
def compatibleRun : Ran := turns config endpoint config.maxModelCalls {} 0 {}

end Run

/-! ## What the replies amount to -/

namespace Reply

/-- A 200 response. -/
def completed : Reply → Bool
  | answered status _ => decide (status = 200)
  | _ => false

/-- The usage of a well-formed 200 response that has one. -/
def usage? : Reply → Option (Nat × Nat)
  | answered status body => if status = 200 then (parseCompletion body).bind (·.usage) else none
  | _ => none

/-- A reply after which the call may have been executed and has no usage: a timeout, a connection error, a 408 or a status
    outside 200 and 400 to 499. -/
def unknown : Reply → Bool
  | answered status _ => decide (status = 408 ∨ status ≠ 200 ∧ ¬(400 ≤ status ∧ status ≤ 499))
  | timeout => true
  | connectionError => true
  | raised => false

/-- A 200 response that parses. -/
def wellFormed : Reply → Bool
  | answered status body => decide (status = 200) && (parseCompletion body).isSome
  | _ => false

/-- Not a 200 response that is malformed or lacks its usage. -/
def measured (reply : Reply) : Bool := !reply.completed || reply.usage?.isSome

end Reply

/-- The sum of one side of the usages. -/
def usageSum (side : Nat × Nat → Nat) (seen : List Reply) : Nat := ((seen.filterMap Reply.usage?).map side).sum

/-- The allowance of a run whose last reply was `unknown`. -/
def allowance (tokens : Nat) (seen : List Reply) : Nat := if seen.getLast?.any Reply.unknown then tokens else 0

/-- What a response has to report after the replies `seen`. -/
structure Accounted (config : CompatibleConfig) (seen : List Reply) (response : AdapterResponse) : Prop where
  calls : response.modelCallCount = some (seen.countP Reply.completed)
  unmeasured : seen.all Reply.measured = false → response.inputTokens = none ∧ response.outputTokens = none
  measured : seen.all Reply.measured = true →
    response.inputTokens = some (usageSum Prod.fst seen + allowance config.unknownInputTokens seen) ∧
    response.outputTokens = some (usageSum Prod.snd seen + allowance (outputAllowance config.requestFields) seen)

/-- An error that reports what it should, and is marked complete exactly if its tokens are known. -/
structure ErrorAccounted (config : CompatibleConfig) (seen : List Reply) (error : ExecutionError) : Prop where
  reported : ∃ response, error.response = some response ∧ Accounted config seen response ∧
    (error.usageComplete = true ↔ response.inputTokens ≠ none ∧ response.outputTokens ≠ none)

/-- What the ledger knows at the head of the loop: only completions and retried responses have been seen. -/
structure Tallied (ledger : Ledger) (seen : List Reply) : Prop where
  calls : ledger.modelCalls = seen.countP Reply.completed
  known : ledger.usageKnown = seen.all Reply.measured
  input : ledger.usageKnown = true → ledger.inputTokens = usageSum Prod.fst seen
  output : ledger.usageKnown = true → ledger.outputTokens = usageSum Prod.snd seen

theorem tallied_nil : Tallied {} [] := ⟨rfl, rfl, fun _ => rfl, fun _ => rfl⟩

theorem usageSum_append (side : Nat × Nat → Nat) (seen more : List Reply) :
    usageSum side (seen ++ more) = usageSum side seen + usageSum side more := by
  unfold usageSum
  rw [List.filterMap_append, List.map_append, List.sum_append]

theorem Reply.usage?_eq_none {reply : Reply} (h : reply.completed = false) : reply.usage? = none := by
  cases reply with
  | answered => exact if_neg (of_decide_eq_false h)
  | _ => rfl

theorem usageSum_of_not_completed (side : Nat × Nat → Nat) {more : List Reply}
    (h : ∀ reply ∈ more, reply.completed = false) : usageSum side more = 0 := by
  have hnone : more.filterMap Reply.usage? = [] :=
    List.filterMap_eq_nil_iff.mpr fun reply hreply => Reply.usage?_eq_none (h reply hreply)
  rw [usageSum, hnone]
  rfl

variable {seen : List Reply}

variable {ledger : Ledger}

/-- **Nothing but a 200 response** changes what the ledger has to say. -/
theorem Tallied.append {more : List Reply} (h : Tallied ledger seen)
    (hmore : ∀ reply ∈ more, reply.completed = false) : Tallied ledger (seen ++ more) := by
  have hcount : more.countP Reply.completed = 0 := List.countP_eq_zero.mpr fun reply hreply => by
    rw [hmore reply hreply]
    exact Bool.false_ne_true
  have hmeasured : more.all Reply.measured = true := List.all_eq_true.mpr fun reply hreply => by
    rw [Reply.measured, hmore reply hreply]
    rfl
  refine ⟨?_, ?_, fun hknown => ?_, fun hknown => ?_⟩
  · rw [List.countP_append, hcount, Nat.add_zero, h.calls]
  · rw [List.all_append, hmeasured, Bool.and_true, h.known]
  · rw [usageSum_append, usageSum_of_not_completed _ hmore, Nat.add_zero, h.input hknown]
  · rw [usageSum_append, usageSum_of_not_completed _ hmore, Nat.add_zero, h.output hknown]

/-- A well-formed 200 response is entered with the usage it has. -/
theorem Tallied.complete {body : Option Members} {completion : Completion} (h : Tallied ledger seen)
    (hparse : parseCompletion body = some completion) :
    Tallied (Ledger.addUsage { ledger with modelCalls := ledger.modelCalls + 1 } completion.usage)
      (seen ++ [.answered 200 body]) := by
  have husage : (Reply.answered 200 body).usage? = completion.usage := by
    rw [Reply.usage?, if_pos rfl, hparse]
    rfl
  have hcount : (seen ++ [Reply.answered 200 body]).countP Reply.completed = ledger.modelCalls + 1 := by
    rw [List.countP_append, h.calls]
    rfl
  have hmeasured : (seen ++ [Reply.answered 200 body]).all Reply.measured =
      (ledger.usageKnown && completion.usage.isSome) := by
    rw [List.all_append, ← h.known, List.all_cons, List.all_nil, Bool.and_true, Reply.measured, husage]
    rfl
  cases hfound : completion.usage with
  | none =>
    rw [hfound] at hmeasured
    refine ⟨hcount.symm, ?_, nofun, nofun⟩
    rw [hmeasured, Option.isSome_none, Bool.and_false]
    rfl
  | some tokens =>
    rw [hfound] at hmeasured
    have hsum (side : Nat × Nat → Nat) :
        usageSum side (seen ++ [.answered 200 body]) = usageSum side seen + side tokens := by
      rw [usageSum_append]
      refine congrArg (usageSum side seen + ·) ?_
      rw [usageSum, List.filterMap_cons, husage, hfound]
      exact Nat.add_zero _
    refine ⟨hcount.symm, ?_, fun hknown => ?_, fun hknown => ?_⟩
    · rw [hmeasured, Option.isSome_some, Bool.and_true]
      rfl
    · rw [hsum, ← h.input hknown]
      rfl
    · rw [hsum, ← h.output hknown]
      rfl

/-- A malformed one is entered without. -/
theorem Tallied.malformed {body : Option Members} (h : Tallied ledger seen)
    (hparse : parseCompletion body = none) :
    Tallied { ledger with modelCalls := ledger.modelCalls + 1, usageKnown := false }
      (seen ++ [.answered 200 body]) := by
  have hunmeasured : (Reply.answered 200 body).measured = false := by
    rw [Reply.measured, Reply.usage?, if_pos rfl, hparse]
    rfl
  refine ⟨?_, ?_, nofun, nofun⟩
  · rw [List.countP_append, ← h.calls]
    rfl
  · rw [List.all_append, List.all_cons, hunmeasured, Bool.false_and, Bool.and_false]

section Endings

variable {config : CompatibleConfig} {ledger : Ledger} {seen : List Reply}

/-- The ledger's own response is right unless the run ended in the unknown. -/
theorem Tallied.accounted (h : Tallied ledger seen) (hlast : seen.getLast?.any Reply.unknown = false) (output : String) :
    Accounted config seen (ledger.response output) := by
  have hallowance (tokens : Nat) : allowance tokens seen = 0 := by
    rw [allowance, hlast]
    rfl
  refine ⟨congrArg some h.calls, fun hall => ?_, fun hall => ?_⟩
  · have hknown : ledger.usageKnown = false := h.known.trans hall
    simp [Ledger.response, hknown]
  · have hknown : ledger.usageKnown = true := h.known.trans hall
    simp [Ledger.response, hknown, hallowance, h.input hknown, h.output hknown]

/-- The tokens of a response are both known or both unknown, as the ledger is. -/
theorem Ledger.usageKnown_iff (ledger : Ledger) (output : String) :
    ledger.usageKnown = true ↔ (ledger.response output).inputTokens ≠ none ∧ (ledger.response output).outputTokens ≠ none := by
  cases hknown : ledger.usageKnown <;> simp [Ledger.response, hknown]

theorem Tallied.errorAccounted (h : Tallied ledger seen) (hlast : seen.getLast?.any Reply.unknown = false)
    (code : ErrorCode) (category : FailureCategory) (failureKind : FailureKind) (ambiguous safeToRetry : Bool) :
    ErrorAccounted config seen (ledger.error code ledger.usageKnown category failureKind ambiguous safeToRetry) :=
  ⟨ledger.response, rfl, h.accounted hlast "", ledger.usageKnown_iff ""⟩

/-- The ledger after a call without usage. -/
def Ledger.charged (ledger : Ledger) (inputTokens outputTokens : Nat) : Ledger :=
  (ledger.chargeUnknownCall inputTokens outputTokens).2

theorem Ledger.usageKnown_charged (ledger : Ledger) (inputTokens outputTokens : Nat) :
    (ledger.charged inputTokens outputTokens).usageKnown = ledger.usageKnown ∧
    (ledger.chargeUnknownCall inputTokens outputTokens).1 = ledger.usageKnown := by
  unfold Ledger.charged Ledger.chargeUnknownCall
  cases ledger.usageKnown <;> exact ⟨rfl, rfl⟩

theorem Ledger.modelCalls_charged (ledger : Ledger) (inputTokens outputTokens : Nat) :
    (ledger.charged inputTokens outputTokens).modelCalls = ledger.modelCalls := by
  unfold Ledger.charged Ledger.chargeUnknownCall
  cases ledger.usageKnown <;> rfl

theorem Ledger.charged_of_known {ledger : Ledger} (hknown : ledger.usageKnown = true) (inputTokens outputTokens : Nat) :
    (ledger.charged inputTokens outputTokens).inputTokens = ledger.inputTokens + inputTokens ∧
    (ledger.charged inputTokens outputTokens).outputTokens = ledger.outputTokens + outputTokens := by
  unfold Ledger.charged Ledger.chargeUnknownCall
  rw [if_pos hknown]
  exact ⟨rfl, rfl⟩

/-- A call without usage is priced once, at the end of the run. -/
theorem Tallied.pricedUnknown (h : Tallied ledger seen) (hlast : seen.getLast?.any Reply.unknown = true)
    (code : ErrorCode) (failureKind : FailureKind) :
    ErrorAccounted config seen (pricedUnknown config ledger code failureKind) := by
  have hallowance (tokens : Nat) : allowance tokens seen = tokens := if_pos hlast
  set charged := ledger.charged config.unknownInputTokens (outputAllowance config.requestFields) with hcharged
  obtain ⟨hkept, hcomplete⟩ :=
    ledger.usageKnown_charged config.unknownInputTokens (outputAllowance config.requestFields)
  rw [← hcharged] at hkept
  refine ⟨charged.response, rfl, ⟨?_, fun hall => ?_, fun hall => ?_⟩, ?_⟩
  · exact congrArg some ((ledger.modelCalls_charged _ _).trans h.calls)
  · have hunknown : charged.usageKnown = false := hkept.trans (h.known.trans hall)
    simp [Ledger.response, hunknown]
  · have hknown : ledger.usageKnown = true := h.known.trans hall
    obtain ⟨hinput, houtput⟩ :=
      Ledger.charged_of_known hknown config.unknownInputTokens (outputAllowance config.requestFields)
    rw [← hcharged] at hinput houtput
    simp [Ledger.response, hkept.trans hknown, hinput, houtput, hallowance, h.input hknown, h.output hknown]
  · exact (iff_of_eq (congrArg (· = true) (hcomplete.trans hkept.symm))).trans (charged.usageKnown_iff "")

end Endings

/-! ## Every run -/

section Run

variable {config : CompatibleConfig} {endpoint : Endpoint}

/-- The replies of one chat call: retried responses, and then one the call ends with. -/
theorem postWithRetry_spec (ledger : Ledger) (left : Nat) (seen : List Reply) :
    ∃ retried reply, (∀ earlier ∈ retried, ∃ body, earlier = .answered 429 body) ∧ retried.length ≤ left ∧
      postWithRetry config endpoint ledger left seen = (post config ledger reply, seen ++ (retried ++ [reply])) := by
  induction left generalizing seen with
  | zero => exact ⟨[], endpoint.reply seen.length, nofun, le_refl 0, rfl⟩
  | succ left ih =>
    rw [postWithRetry]
    cases hreply : endpoint.reply seen.length with
    | answered status body =>
      by_cases hstatus : status = 429
      · -- a retried response: the rest of the call comes after it
        subst hstatus
        obtain ⟨retried, reply, hretried, hlength, hrest⟩ := ih (seen ++ [.answered 429 body])
        refine ⟨.answered 429 body :: retried, reply, ?_, Nat.succ_le_succ hlength, ?_⟩
        · intro earlier hearlier
          rcases List.mem_cons.mp hearlier with rfl | hearlier
          · exact ⟨body, rfl⟩
          · exact hretried earlier hearlier
        · change postWithRetry config endpoint ledger left (seen ++ [.answered 429 body]) = _
          rw [hrest, List.append_assoc]
          rfl
      · exact ⟨[], .answered status body, nofun, Nat.zero_le _, if_neg hstatus⟩
    | timeout => exact ⟨[], .timeout, nofun, Nat.zero_le _, rfl⟩
    | connectionError => exact ⟨[], .connectionError, nofun, Nat.zero_le _, rfl⟩
    | raised => exact ⟨[], .raised, nofun, Nat.zero_le _, rfl⟩

/-- An error built between tool calls carries the ledger as it is. -/
def CarriesLedger {α : Type} (ledger : Ledger) (result : Except Raised α) : Prop :=
  ∀ error, result = .error (.built error) →
    ∃ code category failureKind ambiguous safeToRetry,
      error = ledger.error code ledger.usageKnown category failureKind ambiguous safeToRetry

variable {α : Type} {ledger : Ledger}

theorem carriesLedger_ok {value : α} : CarriesLedger ledger (.ok value) :=
  fun _ herror => nomatch herror

theorem carriesLedger_passed {exception : AdapterException} :
    CarriesLedger ledger (.error (.passed exception) : Except Raised α) :=
  fun _ herror => nomatch herror

theorem carriesLedger_error {code : ErrorCode} {category : FailureCategory} {failureKind : FailureKind}
    {ambiguous safeToRetry : Bool} :
    CarriesLedger ledger
      (.error (.built (ledger.error code ledger.usageKnown category failureKind ambiguous safeToRetry)) :
        Except Raised α) := by
  intro error herror
  cases herror
  exact ⟨_, _, _, _, _, rfl⟩

theorem CarriesLedger.rethrow (β : Type) {result : Except Raised α} {raised : Raised}
    (h : CarriesLedger ledger result) (hraised : result = .error raised) :
    CarriesLedger ledger (.error raised : Except Raised β) := by
  intro error herror
  refine h error (hraised.trans ?_)
  exact congrArg Except.error (Except.error.inj herror)

theorem CarriesLedger.map {β : Type} {result : Except Raised α} (h : CarriesLedger ledger result)
    (f : α → β) : CarriesLedger ledger (result.map f) := by
  cases result with
  | error => exact fun error herror => h error (congrArg Except.error (Except.error.inj herror))
  | ok => exact carriesLedger_ok

theorem findTool_carriesLedger (ledger : Ledger) (call : Value) :
    CarriesLedger ledger (findTool config endpoint ledger call) := by
  unfold findTool
  split
  · exact carriesLedger_passed
  · exact carriesLedger_error
  · split
    · exact carriesLedger_error
    · exact carriesLedger_ok

/-- A tool posts nothing. -/
theorem callTool_spec (ledger : Ledger) (tool : String) (exchange : Exchange) :
    (callTool endpoint ledger tool exchange).2.seen = exchange.seen ∧
    CarriesLedger ledger (callTool endpoint ledger tool exchange).1 := by
  unfold callTool
  dsimp only
  split
  · exact ⟨rfl, carriesLedger_passed⟩
  · split
    · exact ⟨rfl, carriesLedger_ok⟩
    · exact ⟨rfl, carriesLedger_passed⟩
    · exact ⟨rfl, carriesLedger_error⟩
    · exact ⟨rfl, carriesLedger_error⟩

theorem executeTools_spec (ledger : Ledger) (calls : List Value) (exchange : Exchange) :
    (executeTools config endpoint ledger calls exchange).2.seen = exchange.seen ∧
    CarriesLedger ledger (executeTools config endpoint ledger calls exchange).1 := by
  induction calls generalizing exchange with
  | nil =>
    rw [executeTools]
    exact ⟨rfl, carriesLedger_ok⟩
  | cons call calls ih =>
    rw [executeTools]
    split
    · rename_i raised hfound
      exact ⟨rfl, (findTool_carriesLedger ledger call).rethrow Nat hfound⟩
    · rename_i tool _
      obtain ⟨hseen, hcarries⟩ := @callTool_spec endpoint ledger tool exchange
      split
      · rename_i raised exchange' hcalled
        rw [hcalled] at hseen hcarries
        exact ⟨hseen, hcarries.rethrow Nat rfl⟩
      · rename_i exchange' hcalled
        rw [hcalled] at hseen
        obtain ⟨hlater, hcarries'⟩ := ih exchange'
        exact ⟨hlater.trans hseen, hcarries'.map _⟩

variable {seen : List Reply}

/-- The status of a response that is no completion decides whether the call is priced. -/
theorem statusError_accounted {status : Int} {body : Option Members} (h : Tallied ledger seen)
    (hlast : seen.getLast? = some (.answered status body)) (hstatus : status ≠ 200) :
    ErrorAccounted config seen (statusError config status ledger) := by
  have hunknown : seen.getLast?.any Reply.unknown =
      decide (status = 408 ∨ status ≠ 200 ∧ ¬(400 ≤ status ∧ status ≤ 499)) := by
    rw [hlast]
    rfl
  have hpriced (hprice : status = 408 ∨ ¬(400 ≤ status ∧ status ≤ 499)) (code : ErrorCode) (failureKind : FailureKind) :
      ErrorAccounted config seen (pricedUnknown config ledger code failureKind) := by
    refine h.pricedUnknown (hunknown.trans (decide_eq_true ?_)) code failureKind
    exact hprice.imp_right fun hprice => ⟨hstatus, hprice⟩
  have hkept (hkeep : status ≠ 408 ∧ 400 ≤ status ∧ status ≤ 499) : seen.getLast?.any Reply.unknown = false := by
    refine hunknown.trans (decide_eq_false ?_)
    rintro (h408 | ⟨-, hout⟩)
    · exact hkeep.1 h408
    · exact hout hkeep.2
  unfold statusError
  split
  · exact h.errorAccounted (hkept (by omega)) _ _ _ _ _
  split
  · exact hpriced (Or.inl ‹_›) _ _
  split
  · exact hpriced (Or.inr (by omega)) _ _
  split
  · exact hpriced (Or.inr (by omega)) _ _
  split
  · exact h.errorAccounted (hkept (by omega)) _ _ _ _ _
  · exact hpriced (Or.inr ‹_›) _ _

/-- What a run has to report at its end; an exception that passes through reports nothing. -/
def Reports (config : CompatibleConfig) (ran : Ran) : Prop :=
  match ran.ending with
  | .ok response => Accounted config ran.exchange.seen response
  | .error (.built error) => ErrorAccounted config ran.exchange.seen error
  | .error (.passed _) => True

/-- The bounds on completions and requests. -/
structure Bounded (config : CompatibleConfig) (seen : List Reply) : Prop where
  calls : seen.countP Reply.completed ≤ config.maxModelCalls
  requests : seen.length ≤ config.maxModelCalls * config.maxHttpAttempts

variable {exchange : Exchange}

theorem CarriesLedger.reports {result : Except Raised AdapterResponse}
    (hresult : CarriesLedger ledger result) (h : Tallied ledger exchange.seen)
    (hlast : exchange.seen.getLast?.any Reply.unknown = false)
    (hok : ∀ response, result = .ok response → Accounted config exchange.seen response) :
    Reports config ⟨result, exchange⟩ := by
  cases result with
  | ok response => exact hok response rfl
  | error raised =>
    cases raised with
    | passed => trivial
    | built error =>
      obtain ⟨code, category, failureKind, ambiguous, safeToRetry, rfl⟩ := hresult error rfl
      exact h.errorAccounted hlast code category failureKind ambiguous safeToRetry

/-- The end of a completion reports the ledger. -/
theorem conclude_reports (toolCount : Nat) (completion : Completion) (h : Tallied ledger exchange.seen)
    (hlast : exchange.seen.getLast?.any Reply.unknown = false) :
    Reports config ⟨conclude ledger toolCount completion, exchange⟩ := by
  unfold conclude
  dsimp only
  split
  · exact h.errorAccounted hlast _ _ _ _ _
  · split
    · exact h.errorAccounted hlast _ _ _ _ _
    · rename_i content _
      have haccounted := @Tallied.accounted config ledger _ h hlast (outputText content)
      exact ⟨haccounted.calls, haccounted.unmeasured, haccounted.measured⟩

/-- The state at the head of the loop. -/
structure AtHead (config : CompatibleConfig) (left : Nat) (ledger : Ledger) (seen : List Reply) : Prop where
  tallied : Tallied ledger seen
  settled : ∀ reply ∈ seen, reply.unknown = false
  calls : ledger.modelCalls + left = config.maxModelCalls
  requests : seen.length ≤ ledger.modelCalls * config.maxHttpAttempts

theorem getLast?_any_unknown (h : ∀ reply ∈ seen, reply.unknown = false) :
    seen.getLast?.any Reply.unknown = false := by
  cases hlast : seen.getLast? with
  | none => rfl
  | some reply => exact h reply (List.mem_of_getLast? hlast)

theorem AtHead.bounded {left : Nat} (h : AtHead config left ledger seen) : Bounded config seen := by
  have hle : ledger.modelCalls ≤ config.maxModelCalls := h.calls ▸ Nat.le_add_right _ _
  exact ⟨h.tallied.calls ▸ hle, h.requests.trans (Nat.mul_le_mul_right _ hle)⟩

theorem not_completed_of_429 {retried : List Reply} (h : ∀ earlier ∈ retried, ∃ body, earlier = Reply.answered 429 body) :
    (∀ reply ∈ retried, reply.completed = false) ∧ ∀ reply ∈ retried, reply.unknown = false := by
  constructor
  all_goals
    intro reply hreply
    obtain ⟨_, rfl⟩ := h reply hreply
    rfl

section ChatCall

variable {left : Nat} {ledger : Ledger} {seen retried : List Reply}

/-- The requests of one chat call fit into what one more model call allows. -/
theorem AtHead.length_le (h : AtHead config (left + 1) ledger seen) (reply : Reply)
    (hlength : retried.length ≤ config.maxHttpAttempts - 1) :
    (seen ++ (retried ++ [reply])).length ≤ (ledger.modelCalls + 1) * config.maxHttpAttempts := by
  have hpos := config.attempts_pos
  have hrequests := h.requests
  rw [List.length_append, List.length_append, List.length_singleton, Nat.succ_mul]
  omega

/-- A chat call that ends without a completion ends the run. -/
theorem AtHead.ends (h : AtHead config (left + 1) ledger seen) (reply : Reply)
    (hretried : ∀ earlier ∈ retried, ∃ body, earlier = Reply.answered 429 body)
    (hlength : retried.length ≤ config.maxHttpAttempts - 1) (hreply : reply.completed = false) :
    Tallied ledger (seen ++ (retried ++ [reply])) ∧ Bounded config (seen ++ (retried ++ [reply])) := by
  have htallied : Tallied ledger (seen ++ (retried ++ [reply])) := by
    refine h.tallied.append fun other hother => ?_
    rcases List.mem_append.mp hother with hother | hother
    · exact (not_completed_of_429 hretried).1 other hother
    · rw [List.mem_singleton.mp hother, hreply]
  have hcalls := h.calls
  refine ⟨htallied, ?_, ?_⟩
  · rw [← htallied.calls]
    omega
  · exact (h.length_le _ hlength).trans (Nat.mul_le_mul_right _ (by omega))

/-- A chat call that ends with a completion leads back to the head of the loop. -/
theorem AtHead.completes (h : AtHead config (left + 1) ledger seen)
    (hretried : ∀ earlier ∈ retried, ∃ body, earlier = Reply.answered 429 body)
    (hlength : retried.length ≤ config.maxHttpAttempts - 1) {body : Option Members} {ledger' : Ledger}
    (hcalls : ledger'.modelCalls = ledger.modelCalls + 1)
    (htallied : Tallied ledger' ((seen ++ retried) ++ [.answered 200 body])) :
    AtHead config left ledger' (seen ++ (retried ++ [.answered 200 body])) := by
  have hleft := h.calls
  refine ⟨?_, ?_, by omega, ?_⟩
  · rw [← List.append_assoc]
    exact htallied
  · intro other hother
    rcases List.mem_append.mp hother with hother | hother
    · exact h.settled other hother
    · rcases List.mem_append.mp hother with hother | hother
      · exact (not_completed_of_429 hretried).2 other hother
      · rw [List.mem_singleton.mp hother]
        rfl
  · rw [hcalls]
    exact h.length_le _ hlength

end ChatCall

theorem Ledger.modelCalls_addUsage (ledger : Ledger) (usage : Option (Nat × Nat)) :
    (ledger.addUsage usage).modelCalls = ledger.modelCalls := by
  cases usage <;> rfl

/-- **The loop** reports what it has seen and keeps its bounds, whatever the endpoint and the tools do. -/
theorem turns_spec {left : Nat} {toolCount : Nat} (h : AtHead config left ledger exchange.seen) :
    Reports config (turns config endpoint left ledger toolCount exchange) ∧
    Bounded config (turns config endpoint left ledger toolCount exchange).exchange.seen := by
  induction left generalizing ledger toolCount exchange with
  | zero =>
    rw [turns]
    exact ⟨h.tallied.errorAccounted (getLast?_any_unknown h.settled) _ _ _ _ _, h.bounded⟩
  | succ left ih =>
    obtain ⟨retried, reply, hretried, hlength, hpost⟩ :=
      @postWithRetry_spec config endpoint ledger (config.maxHttpAttempts - 1) exchange.seen
    rw [turns, hpost]
    dsimp only
    have hlast : (exchange.seen ++ (retried ++ [reply])).getLast? = some reply := by
      rw [← List.append_assoc, List.getLast?_concat]
    cases reply with
    | timeout =>
      obtain ⟨htallied, hbounded⟩ := h.ends .timeout hretried hlength rfl
      exact ⟨htallied.pricedUnknown (hlast ▸ rfl) _ _, hbounded⟩
    | connectionError =>
      obtain ⟨htallied, hbounded⟩ := h.ends .connectionError hretried hlength rfl
      exact ⟨htallied.pricedUnknown (hlast ▸ rfl) _ _, hbounded⟩
    | raised => exact ⟨trivial, (h.ends .raised hretried hlength rfl).2⟩
    | answered status body =>
      dsimp only [post]
      by_cases hstatus : status = 200
      · subst hstatus
        rw [if_neg (not_not.mpr rfl)]
        have hbefore := h.tallied.append (not_completed_of_429 hretried).1
        cases hparse : parseCompletion body with
        | none =>
          have hhead := h.completes hretried hlength rfl (hbefore.malformed hparse)
          exact ⟨hhead.tallied.errorAccounted (getLast?_any_unknown hhead.settled) _ _ _ _ _, hhead.bounded⟩
        | some completion =>
          dsimp only
          have hhead := h.completes hretried hlength (Ledger.modelCalls_addUsage _ _) (hbefore.complete hparse)
          have hsettled := getLast?_any_unknown hhead.settled
          split
          · split
            · exact ⟨hhead.tallied.errorAccounted hsettled _ _ _ _ _, hhead.bounded⟩
            · -- the tools post nothing, so what is seen after them is what was seen before
              set exchange' : Exchange := { exchange with seen := exchange.seen ++ (retried ++ [.answered 200 body]) }
              set ledger' := Ledger.addUsage { ledger with modelCalls := ledger.modelCalls + 1 } completion.usage
              obtain ⟨hseen, hcarries⟩ :=
                @executeTools_spec config endpoint ledger' completion.toolCalls exchange'
              have hafter : AtHead config left ledger'
                  (executeTools config endpoint ledger' completion.toolCalls exchange').2.seen := by
                rw [hseen]
                exact hhead
              split
              · rename_i raised hraised
                have hraises := hcarries.rethrow AdapterResponse hraised
                refine ⟨hraises.reports hafter.tallied (getLast?_any_unknown hafter.settled) ?_, hafter.bounded⟩
                exact fun response hok => nomatch hok
              · exact ih hafter
          · exact ⟨conclude_reports _ _ hhead.tallied hsettled, hhead.bounded⟩
      · rw [if_pos hstatus]
        obtain ⟨htallied, hbounded⟩ := h.ends (.answered status body) hretried hlength (decide_eq_false hstatus)
        exact ⟨statusError_accounted htallied hlast hstatus, hbounded⟩

end Run

/-! ## Where an error comes from -/

/-- The run has seen what the endpoint answers, from the first request on. -/
def Replies (endpoint : Endpoint) (seen : List Reply) : Prop := seen = (List.range seen.length).map endpoint.reply

/-- A tool that was called raised this error itself, or the lifecycle did when the tool was reported to it. -/
def Raises (endpoint : Endpoint) (exchange : Exchange) (error : ExecutionError) : Prop :=
  (∃ tool ∈ exchange.started, endpoint.started tool = some (.execution error)) ∨
  ∃ n < exchange.invoked, endpoint.behave n = .execution error

/-- Every 200 response parses. -/
def WellFormed (seen : List Reply) : Prop := ∀ reply ∈ seen, reply.completed = true → reply.wellFormed = true

section Origin

variable {config : CompatibleConfig} {endpoint : Endpoint} {exchange : Exchange} {ledger : Ledger} {seen : List Reply}
  {error : ExecutionError}

theorem Replies.next (h : Replies endpoint seen) : Replies endpoint (seen ++ [endpoint.reply seen.length]) := by
  unfold Replies at h ⊢
  rw [List.length_append, List.length_singleton, List.range_succ, List.map_append, ← h]
  rfl

theorem Replies.postWithRetry (h : Replies endpoint seen) (left : Nat) :
    Replies endpoint (postWithRetry config endpoint ledger left seen).2 := by
  induction left generalizing seen with
  | zero => exact h.next
  | succ left ih =>
    rw [Compatible.postWithRetry]
    split
    · exact h.next
    · split
      · exact ih h.next
      · exact h.next

/-- One more tool call may raise one more error. -/
theorem raises_called_iff (tool : String) (hquiet : ∀ error, ¬Raises endpoint exchange error) :
    Raises endpoint { exchange with started := exchange.started ++ [tool], invoked := exchange.invoked + 1 } error ↔
      endpoint.started tool = some (.execution error) ∨ endpoint.behave exchange.invoked = .execution error := by
  constructor
  · rintro (⟨other, hother, hraised⟩ | ⟨n, hn, hraised⟩)
    · rcases List.mem_append.mp hother with hother | hother
      · exact absurd (Or.inl ⟨other, hother, hraised⟩) (hquiet error)
      · obtain rfl := List.mem_singleton.mp hother
        exact .inl hraised
    · rcases Nat.lt_succ_iff_lt_or_eq.mp hn with hn | rfl
      · exact absurd (Or.inr ⟨n, hn, hraised⟩) (hquiet error)
      · exact .inr hraised
  · rintro (hraised | hraised)
    · exact .inl ⟨tool, List.mem_append_right _ (List.mem_singleton.mpr rfl), hraised⟩
    · exact .inr ⟨exchange.invoked, Nat.lt_succ_self _, hraised⟩

/-- A tool that is only reported may raise through the lifecycle. -/
theorem raises_reported_iff (tool : String) (hquiet : ∀ error, ¬Raises endpoint exchange error) :
    Raises endpoint { exchange with started := exchange.started ++ [tool] } error ↔
      endpoint.started tool = some (.execution error) := by
  constructor
  · rintro (⟨other, hother, hraised⟩ | hraised)
    · rcases List.mem_append.mp hother with hother | hother
      · exact absurd (Or.inl ⟨other, hother, hraised⟩) (hquiet error)
      · obtain rfl := List.mem_singleton.mp hother
        exact hraised
    · exact absurd (Or.inr hraised) (hquiet error)
  · intro hraised
    exact .inl ⟨tool, List.mem_append_right _ (List.mem_singleton.mpr rfl), hraised⟩

theorem passed_inj {α : Type} {exception : AdapterException} :
    (.error (.passed exception) : Except Raised α) = .error (.passed (.execution error)) ↔
      exception = .execution error := by
  constructor
  · intro h
    exact Raised.passed.inj (Except.error.inj h)
  · rintro rfl
    rfl

/-- What is raised in a call is what leaves it. -/
theorem callTool_raises (hquiet : ∀ error, ¬Raises endpoint exchange error) (tool : String) (error : ExecutionError) :
    Raises endpoint (callTool endpoint ledger tool exchange).2 error ↔
      (callTool endpoint ledger tool exchange).1 = .error (.passed (.execution error)) := by
  unfold callTool
  dsimp only
  split
  · rename_i exception hstarted
    rw [raises_reported_iff tool hquiet, hstarted, passed_inj]
    exact Option.some_inj
  · rename_i hstarted
    split <;> rename_i hbehave
    all_goals
      refine (raises_called_iff tool hquiet).trans ?_
      rw [hstarted, hbehave]
      simp [modelBehavior]

theorem toolArguments_error {loads : Python.Text → Decoded} {value : Value} {exception : AdapterException}
    (h : toolArguments loads value = .error exception) : exception = .other := by
  unfold toolArguments at h
  split at h
  · split at h
    · cases h
    · split at h <;> cases h
      rfl
  · cases h
  · cases h

theorem parseToolCall_error {loads : Python.Text → Decoded} {call : Value} {exception : AdapterException}
    (h : parseToolCall loads call = .error exception) : exception = .other := by
  unfold parseToolCall at h
  split at h
  · split at h
    · split at h
      · split at h
        · cases h
        · rcases harguments : toolArguments loads _ with raised | arguments
          · rw [harguments] at h
            obtain rfl : raised = exception := Except.error.inj h
            exact toolArguments_error harguments
          · rw [harguments] at h
            cases h
      · cases h
    · cases h
  · cases h

/-- Only a tool or the lifecycle lets an `ExecutionError` pass. -/
theorem findTool_error {call : Value} {raised : Raised} (h : findTool config endpoint ledger call = .error raised)
    (error : ExecutionError) : raised ≠ .passed (.execution error) := by
  rintro rfl
  unfold findTool at h
  split at h
  · rename_i exception hparse
    obtain rfl := parseToolCall_error hparse
    cases h
  · cases h
  · split at h <;> cases h

/-- The tool calls of one completion end with the first error that is raised in them. -/
theorem executeTools_raises (calls : List Value) (hquiet : ∀ error, ¬Raises endpoint exchange error)
    (error : ExecutionError) :
    Raises endpoint (executeTools config endpoint ledger calls exchange).2 error ↔
      (executeTools config endpoint ledger calls exchange).1 = .error (.passed (.execution error)) := by
  induction calls generalizing exchange with
  | nil =>
    rw [executeTools]
    exact iff_of_false (hquiet error) nofun
  | cons call calls ih =>
    rw [executeTools]
    split
    · rename_i raised hfound
      refine iff_of_false (hquiet error) fun h => ?_
      exact findTool_error hfound error (Except.error.inj h)
    · rename_i tool _
      have hraises := @callTool_raises endpoint exchange ledger hquiet tool
      split
      · rename_i raised exchange' hcalled
        rw [hcalled] at hraises
        refine (hraises error).trans ?_
        rw [Except.error.injEq, Except.error.injEq]
      · rename_i exchange' hcalled
        rw [hcalled] at hraises
        refine (ih fun error hraised => nomatch (hraises error).mp hraised).trans ?_
        rcases executeTools config endpoint ledger calls exchange' with ⟨_ | _, _⟩
        · exact (Except.error.injEq _ _).to_iff.trans (Except.error.injEq _ _).to_iff.symm
        · exact iff_of_false (fun h => nomatch h) fun h => nomatch h

/-- What the outside has done to a run that is still going: every reply was answered in its turn, every 200 response
    parsed, and nothing has raised an error. -/
structure Quiet (endpoint : Endpoint) (exchange : Exchange) : Prop where
  replies : Replies endpoint exchange.seen
  formed : WellFormed exchange.seen
  raises : ∀ error, ¬Raises endpoint exchange error

/-- What it has done to one that has ended: an error was raised if it is the one that left the adapter. -/
structure Blamed (endpoint : Endpoint) (ran : Ran) : Prop where
  replies : Replies endpoint ran.exchange.seen
  formed : ∀ error, ran.ending = .error (.passed (.execution error)) → WellFormed ran.exchange.seen
  raises : ∀ error, Raises endpoint ran.exchange error ↔ ran.ending = .error (.passed (.execution error))

/-- A run that ends in any other way ends after nothing was raised. -/
theorem blamed_of_not_passed {ending : Except Raised AdapterResponse} (hreplies : Replies endpoint exchange.seen)
    (hquiet : ∀ error, ¬Raises endpoint exchange error)
    (hending : ∀ error, ending ≠ .error (.passed (.execution error))) : Blamed endpoint ⟨ending, exchange⟩ :=
  ⟨hreplies, fun error hpassed => absurd hpassed (hending error),
    fun error => iff_of_false (hquiet error) (hending error)⟩

theorem blamed_built {built : ExecutionError} (hreplies : Replies endpoint exchange.seen)
    (hquiet : ∀ error, ¬Raises endpoint exchange error) : Blamed endpoint ⟨.error (.built built), exchange⟩ :=
  blamed_of_not_passed hreplies hquiet fun _ h => nomatch Except.error.inj h

theorem conclude_ne_passed (toolCount : Nat) (completion : Completion) (error : ExecutionError) :
    conclude ledger toolCount completion ≠ .error (.passed (.execution error)) := by
  unfold conclude
  dsimp only
  split
  · exact nofun
  · split <;> exact nofun

theorem post_ne_passed {reply : Reply} {raised : Raised} (h : post config ledger reply = .error raised)
    (error : ExecutionError) : raised ≠ .passed (.execution error) := by
  rintro rfl
  cases reply <;> cases h

/-- A chat call that ends with a completion keeps every 200 response well formed. -/
theorem WellFormed.append {retried : List Reply} {reply : Reply} {status : Int} {body : Option Members}
    {completion : Completion} (h : WellFormed seen)
    (hretried : ∀ earlier ∈ retried, ∃ body, earlier = Reply.answered 429 body)
    (hanswered : post config ledger reply = .ok (status, body)) (hparse : parseCompletion body = some completion) :
    WellFormed (seen ++ (retried ++ [reply])) := by
  intro other hother hcompleted
  rcases List.mem_append.mp hother with hother | hother
  · exact h other hother hcompleted
  rcases List.mem_append.mp hother with hother | hother
  · exact nomatch ((not_completed_of_429 hretried).1 other hother).symm.trans hcompleted
  · rw [List.mem_singleton.mp hother] at hcompleted ⊢
    cases reply with
    | answered =>
      obtain ⟨-, rfl⟩ := Prod.mk.inj (Except.ok.inj hanswered)
      rw [Reply.wellFormed, hparse]
      exact (Bool.and_true _).trans hcompleted
    | _ => cases hanswered

/-- **An error passes through the loop exactly if it was raised outside**, by a tool the run called or by the lifecycle
    it reported one to. -/
theorem turns_blamed {left : Nat} {toolCount : Nat} (h : Quiet endpoint exchange) :
    Blamed endpoint (turns config endpoint left ledger toolCount exchange) := by
  induction left generalizing ledger toolCount exchange with
  | zero =>
    rw [turns]
    exact blamed_built h.replies h.raises
  | succ left ih =>
    obtain ⟨retried, reply, hretried, -, hpost⟩ :=
      @postWithRetry_spec config endpoint ledger (config.maxHttpAttempts - 1) exchange.seen
    have hreplies := @Replies.postWithRetry config endpoint ledger _ h.replies (config.maxHttpAttempts - 1)
    rw [turns]
    rw [hpost] at hreplies ⊢
    dsimp only at hreplies ⊢
    -- posting raises nothing: the tools and the lifecycle are as before
    set exchange' : Exchange := { exchange with seen := exchange.seen ++ (retried ++ [reply]) }
    have hquiet : ∀ error, ¬Raises endpoint exchange' error := h.raises
    split
    · rename_i raised hraised
      exact blamed_of_not_passed hreplies hquiet fun error hpassed =>
        post_ne_passed hraised error (Except.error.inj hpassed)
    rename_i status body hanswered
    split
    · exact blamed_built hreplies hquiet
    rename_i hstatus
    split
    · exact blamed_built hreplies hquiet
    rename_i completion hparse
    have hformed : WellFormed exchange'.seen := h.formed.append hretried hanswered hparse
    split
    · split
      · exact blamed_built hreplies hquiet
      · generalize Ledger.addUsage _ completion.usage = ledger'
        have hraises := @executeTools_raises config endpoint exchange' ledger' completion.toolCalls hquiet
        obtain ⟨hseen, -⟩ := @executeTools_spec config endpoint ledger' completion.toolCalls exchange'
        have hreplies' : Replies endpoint (executeTools config endpoint ledger' completion.toolCalls exchange').2.seen :=
          hseen.symm ▸ hreplies
        have hformed' : WellFormed (executeTools config endpoint ledger' completion.toolCalls exchange').2.seen :=
          hseen.symm ▸ hformed
        split
        · rename_i raised hraised
          refine ⟨hreplies', fun _ _ => hformed', fun error => (hraises error).trans ?_⟩
          rw [hraised]
          exact (Except.error.injEq _ _).to_iff.trans (Except.error.injEq _ _).to_iff.symm
        · rename_i executed hexecuted
          refine ih ⟨hreplies', hformed', fun error hraised => ?_⟩
          exact nomatch hexecuted.symm.trans ((hraises error).mp hraised)
    · exact blamed_of_not_passed hreplies hquiet (conclude_ne_passed _ _)

end Origin

theorem atHead_start (config : CompatibleConfig) : AtHead config config.maxModelCalls {} [] :=
  ⟨tallied_nil, fun _ hreply => absurd hreply List.not_mem_nil, Nat.zero_add _, Nat.zero_le _⟩

/-- **The ledger is right at every exit.** Whatever the endpoint answers and the tools do, a run that returns or raises an
    error of its own reports the completions it received, the tokens they add up to (with one allowance if the last call
    may have been executed without an answer), and nothing if one of them had no usage; and it posts no more requests than
    its bounds allow. -/
theorem run_accounted (config : CompatibleConfig) (endpoint : Endpoint) :
    Reports config (compatibleRun config endpoint) ∧ Bounded config (compatibleRun config endpoint).exchange.seen :=
  turns_spec (atHead_start config)

theorem quiet_start (endpoint : Endpoint) : Quiet endpoint {} := by
  refine ⟨rfl, nofun, fun error => ?_⟩
  rintro (⟨tool, htool, -⟩ | ⟨n, hn, -⟩)
  · cases htool
  · exact absurd hn (Nat.not_lt_zero n)

/-- What a run has seen are the endpoint's replies, from the first on, and an error passes through it exactly if a tool
    or the lifecycle raised it. -/
theorem run_blamed (config : CompatibleConfig) (endpoint : Endpoint) : Blamed endpoint (compatibleRun config endpoint) :=
  turns_blamed (quiet_start endpoint)

/-- One tool, three model calls and four tries for each. -/
def CompatibleConfig.searching : CompatibleConfig where
  tools := ["search"]
  maxModelCalls := 3
  maxHttpAttempts := 4
  requestFields := []
  maxModelCalls_pos := by decide
  maxModelCalls_le := by decide
  attempts_pos := by decide
  attempts_le := by decide
  allowance_pos := by decide
  tools_nodup := by decide
  tools_named := by decide

/-- A completion that calls the tool, with ten tokens read and five written. -/
def Reply.searches : Reply :=
  .answered 200 (some
    [(text "choices", .list [.dict [(text "message", .dict [(text "tool_calls", .list [.dict
        [(text "id", .str (text "call")), (text "function", .dict [(text "name", .str (text "search"))])]])])]]),
      (text "usage", .dict [(text "prompt_tokens", .int 10), (text "completion_tokens", .int 5)])])

/-- An endpoint that always asks for the tool, which fails. -/
def Endpoint.searching : Endpoint where
  reply _ := .searches
  behave _ := .failed
  loads _ := .value (.dict [])
  started _ := none

/-- A completion that answers, with twenty tokens read and two written. -/
def Reply.answers : Reply :=
  .answered 200 (some
    [(text "choices", .list [.dict [(text "message", .dict [(text "content", .str (text "done"))])]]),
      (text "usage", .dict [(text "prompt_tokens", .int 20), (text "completion_tokens", .int 2)])])

/-- An endpoint that is busy, asks for the tool and then answers; the tool returns. -/
def Endpoint.answering : Endpoint :=
  { Endpoint.searching with
    reply := fun n => [.answered 429 none, .searches].getD n .answers
    behave := fun _ => .returned }

example :
    (compatibleRun .searching .answering).exchange =
      { seen := [.answered 429 none, .searches, .answers], started := ["search"], invoked := 1 } ∧
    (compatibleRun .searching .answering).ending = .ok
      { output := "done", inputTokens := some 30, outputTokens := some 7, modelCallCount := some 2, toolCallCount := some 1 } := by
  constructor <;> rfl

end AgentStorm.Worker.Compatible
