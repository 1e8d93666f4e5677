import AgentStorm.Foundation.PyJson
import AgentStorm.Results.Keys

/-!
# `Worker.Config` — the target section of the worker's configuration

`load_run_config` of `config.py` as far as it reads `target`, with the validators of `adapters/openai_compatible.py` it
calls: each with its checks in source order and their messages. The section is read from the object that `json.loads`
built; what the interpreter and `urllib.parse` contribute is a parameter (`Interpreter`).
-/

namespace AgentStorm.Worker.Config

open Checks Numeric Python Results

abbrev Members := List (Text × Value)

/-- The parts of `urlsplit(url)` that are read. -/
structure SplitResult where
  scheme : Text
  hostname : Option Text
  username : Option Text
  password : Option Text
  query : Text
  fragment : Text
  path : Text

structure Interpreter where
  /-- `str(value)` of what is not a text. -/
  describe : Value → Text
  /-- `repr` of a float. -/
  formatFloat : ℚ → String
  /-- How deep `json.loads` follows lists and dictionaries. -/
  depthLimit : Nat
  two_le_depthLimit : 2 ≤ depthLimit
  /-- `urlsplit(url)`, or nothing if it raises. -/
  urlsplit : Text → Option SplitResult

inductive ConfigError
  /-- A function of the standard library raised. -/
  | raised
  /-- `ValueError(message)` -/
  | invalid (message : String)
  deriving DecidableEq

/-! ## Texts -/

/-- `not s` of an optional text. -/
def emptyText (s : Option Text) : Bool := s.all List.isEmpty

/-- `pattern.fullmatch(s)`; no pattern here matches a surrogate. -/
def matches? (pattern : String → Bool) (s : Text) : Bool := (encodable? s).any pattern

def absoluteURL : ConfigError := .invalid "target.baseURL must be an absolute http or https URL without credentials"

def validateSplit (parsed : SplitResult) : Except ConfigError Unit := do
  reject (decide (parsed.scheme ≠ text "http" ∧ parsed.scheme ≠ text "https") || emptyText parsed.hostname) absoluteURL
  reject (!emptyText parsed.username || !emptyText parsed.password) (.invalid "target.baseURL must not contain credentials")
  reject (!parsed.query.isEmpty || !parsed.fragment.isEmpty) (.invalid "target.baseURL must not contain a query or fragment")
  let path := (parsed.path.reverse.dropWhile fun c => c.val == 47).reverse
  reject ((text "/chat/completions").isSuffixOf path)
    (.invalid "target.baseURL must be the API root, not the chat completions path")

def validateBaseUrl (py : Interpreter) (baseURL : Text) : Except ConfigError Unit := do
  reject (baseURL.isEmpty || decide (baseURL ≠ strip baseURL) || decide (2048 < baseURL.length) ||
    baseURL.any fun c => c.val == 13 || c.val == 10 || c.val == 9) absoluteURL
  let parsed ← orElse (py.urlsplit baseURL) .raised
  validateSplit parsed

def pinnedModel : ConfigError := .invalid "target.model must be a pinned model id without whitespace"

def validatePinnedModel (model : Text) : Except ConfigError Unit := do
  reject (model.isEmpty || decide (model ≠ strip model)) pinnedModel
  let encoded ← orElse (encodable? model) .raised
  reject (decide (256 < encoded.utf8ByteSize) || model.any isspace) pinnedModel

/-! ## Numbers -/

/-- An integer between 1 and `max`. -/
def validateInteger (name : String) (max : Int) : Value → Except ConfigError Int
  | .int n => do
      reject (decide (n < 1 ∨ max < n)) (.invalid (name ++ " must be between 1 and " ++ toString max))
      return n
  | _ => .error (.invalid (name ++ " must be an integer"))

def validateMaxOutputTokens : Value → Except ConfigError Int := validateInteger "target.maxTokens" 131072

def validateHTTPRetryAttempts : Value → Except ConfigError Int := validateInteger "target.httpRetryAttempts" 16

def validateHTTPRetryMaxWaitSeconds : Value → Except ConfigError Int := validateInteger "target.httpRetryMaxWaitSeconds" 300

/-- The value under the first of two names, if there is one. -/
def optionalInteger (validate : Value → Except ConfigError Int) (target : Members) (name alias_ : String) :
    Except ConfigError (Option Int) :=
  ((get? target name).or (get? target alias_)).mapM validate

def maxOutputTokens (target : Members) : Except ConfigError (Option Int) :=
  optionalInteger validateMaxOutputTokens target "maxTokens" "max_output_tokens"

def httpRetryAttempts (target : Members) : Except ConfigError (Option Int) :=
  optionalInteger validateHTTPRetryAttempts target "httpRetryAttempts" "http_retry_attempts"

def httpRetryMaxWaitSeconds (target : Members) : Except ConfigError (Option Int) :=
  optionalInteger validateHTTPRetryMaxWaitSeconds target "httpRetryMaxWaitSeconds" "http_retry_max_wait_seconds"

/-! ## Request fields -/

def notJSON : ConfigError := .invalid "target.requestFields values must be JSON values"

mutual
def jsonValue (value : Value) (depth : Nat) : Except ConfigError Unit :=
  if 6 < depth then .error (.invalid "target.requestFields is nested too deeply")
  else
    match value with
    | .float (.finite _) => .ok ()
    | .float _ => .error notJSON
    | .list items => jsonItems items (depth + 1)
    | .dict members => jsonMembers members (depth + 1)
    | _ => .ok ()

def jsonItems : List Value → Nat → Except ConfigError Unit
  | [], _ => .ok ()
  | item :: items, depth => do
      jsonValue item depth
      jsonItems items depth

def jsonMembers : Members → Nat → Except ConfigError Unit
  | [], _ => .ok ()
  | member :: members, depth => do
      jsonValue member.2 depth
      jsonMembers members depth
end

/-- The bytes of a value that is sent. -/
def encodedSize (py : Interpreter) (value : Value) : Option Nat := do
  let encoded ← dumps py.formatFloat value
  let encoded ← encodable? encoded
  return encoded.utf8ByteSize

/-- `^[A-Za-z_][A-Za-z0-9_]{0,63}$` -/
def requestFieldKey (key : String) : Bool := identifierPattern key.toList && decide (key.toList.length ≤ 64)

def reservedRequestFields : List String := ["model", "messages", "stream", "tools", "tool_choice"]

def validateRequestField (py : Interpreter) (blocked : List String) (field : Text × Value) : Except ConfigError Unit := do
  reject (!matches? requestFieldKey field.1) (.invalid "target.requestFields keys must be identifiers")
  reject (matches? (· ∈ blocked) field.1) (.invalid ("request field " ++ ((encodable? field.1).getD "") ++ " is reserved"))
  jsonValue field.2 0
  let size ← orElse (encodedSize py field.2) .raised
  reject (decide (1024 < size)) (.invalid "target.requestFields values must be at most 1024 bytes")

def validateRequestFields (py : Interpreter) (rejectKeys : List String) : Value → Except ConfigError Members
  | .none => .ok []
  | .dict fields => do
      reject (decide (16 < fields.length)) (.invalid "target.requestFields must contain at most 16 entries")
      fields.forM (validateRequestField py (reservedRequestFields ++ rejectKeys))
      return fields
  | _ => .error (.invalid "target.requestFields must be an object")

def requestFields (py : Interpreter) (target : Members) : Except ConfigError Members :=
  validateRequestFields py ["temperature", "max_tokens"]
    ((get? target "requestFields").getD ((get? target "request_fields").getD .none))

/-! ## Pricing -/

structure PricingConfig where
  inputUSDPerMillionTokens : Text
  outputUSDPerMillionTokens : Text

def price (pricing : Members) (name : String) : Except ConfigError Text :=
  let err : ConfigError := .invalid ("target.pricing." ++ name ++ " must be a non-negative decimal")
  match get? pricing name with
  | some (.str s) => do
      reject (!matches? pricePattern s) err
      return s
  | _ => .error err

def pricing : Value → Except ConfigError (Option PricingConfig)
  | .none => .ok none
  | .dict prices => do
      let input ← price prices "inputUSDPerMillionTokens"
      let output ← price prices "outputUSDPerMillionTokens"
      return some ⟨input, output⟩
  | _ => .error (.invalid "target.pricing must be an object")

/-! ## The section -/

structure TargetConfig where
  provider : Text
  model : Text
  baseURL : Text
  adapterEntrypoint : Text
  pricing : Option PricingConfig
  maxOutputTokens : Option Int
  requestFields : Members
  httpRetryAttempts : Option Int
  httpRetryMaxWaitSeconds : Option Int

/-- `str(target.get(name) or …)` over the names in turn. -/
def textEntry (py : Interpreter) (target : Members) (names : List String) (default : String) : Text :=
  match names.findSome? fun name => (get? target name).filter truthy with
  | some (.str s) => s
  | some value => py.describe value
  | none => text default

def readTarget (py : Interpreter) (target : Members) : Except ConfigError TargetConfig := do
  let pricing ← pricing ((get? target "pricing").getD .none)
  let maxOutputTokens ← maxOutputTokens target
  let requestFields ← requestFields py target
  let httpRetryAttempts ← httpRetryAttempts target
  let httpRetryMaxWaitSeconds ← httpRetryMaxWaitSeconds target
  return { provider := textEntry py target ["provider"] "fake"
           model := textEntry py target ["model"] ""
           baseURL := textEntry py target ["baseURL", "base_url"] ""
           adapterEntrypoint := textEntry py target ["adapterEntrypoint", "adapter_entrypoint"] ""
           pricing, maxOutputTokens, requestFields, httpRetryAttempts, httpRetryMaxWaitSeconds }

def validateCompatible (py : Interpreter) (target : TargetConfig) : Except ConfigError Unit :=
  if target.provider = text "openai-compatible" then do
    validatePinnedModel target.model
    reject target.baseURL.isEmpty (.invalid "target.baseURL is required for provider openai-compatible")
    validateBaseUrl py target.baseURL
  else .ok ()

def validateEntrypoint (entrypoint : Text) : Except ConfigError Unit :=
  if entrypoint.isEmpty then .ok ()
  else do
    let encoded ← orElse (encodable? entrypoint) .raised
    reject (decide (256 < encoded.utf8ByteSize) || !entrypointPattern encoded)
      (.invalid "target.adapterEntrypoint must be a module:function reference")

/-- The checks that follow once the whole configuration is read. -/
def validateTarget (py : Interpreter) (target : TargetConfig) : Except ConfigError Unit := do
  validateCompatible py target
  reject (decide (target.provider = text "openai-agents") && (strip target.model).isEmpty)
    (.invalid "target.model is required for provider openai-agents")
  validateEntrypoint target.adapterEntrypoint

/-- `load_run_config` on a configuration whose other sections pass. -/
def loadTarget (py : Interpreter) (document : Value) : Except ConfigError TargetConfig := do
  let section_ ← orElse (loads py.depthLimit document) .raised
  match section_ with
  | .dict target => do
      let config ← readTarget py target
      validateTarget py config
      return config
  | _ => .error .raised

/-! ## What the checks say of a text that was encoded -/

@[simp] theorem matches?_text (pattern : String → Bool) (s : String) : matches? pattern (text s) = pattern s := by
  rw [matches?, encodable?_text, Option.any_some]

theorem validatePinnedModel_text {model : String} : validatePinnedModel (text model) = .ok () ↔
    model ≠ "" ∧ model.utf8ByteSize ≤ 256 ∧ ∀ c ∈ model.toList, Text.isPySpace c = false := by
  rw [validatePinnedModel, then_ok_iff, bind_ok_iff]
  simp only [reject_eq_ok, encodable?_text, orElse_eq_ok, text_isEmpty, any_isspace_text, Bool.or_eq_false_iff,
    decide_eq_false_iff_not, Decidable.not_not, not_lt, List.any_eq_false]
  constructor
  · rintro ⟨⟨hne, -⟩, _, hencoded, hsize, hspace⟩
    cases hencoded
    exact ⟨hne, hsize, fun c hc => Bool.eq_false_iff.mpr (hspace c hc)⟩
  · rintro ⟨hne, hsize, hspace⟩
    exact ⟨⟨hne, (strip_text_of_forall_not hspace).symm⟩, model, rfl, hsize, fun c hc => Bool.eq_false_iff.mp (hspace c hc)⟩

theorem validateEntrypoint_text {entrypoint : String} : validateEntrypoint (text entrypoint) = .ok () ↔
    entrypoint = "" ∨ entrypoint.utf8ByteSize ≤ 256 ∧ entrypointPattern entrypoint = true := by
  by_cases h : entrypoint = ""
  · simp [validateEntrypoint, h]
  · simp [validateEntrypoint, h]

/-! ## Nesting -/

variable {depth : Nat}

theorem jsonItems_iff {items : List Value} :
    jsonItems items depth = .ok () ↔ ∀ item ∈ items, jsonValue item depth = .ok () := by
  induction items with
  | nil => simp [jsonItems]
  | cons item items ih => rw [jsonItems, then_ok_iff, ih, List.forall_mem_cons]

theorem jsonMembers_iff {members : Members} :
    jsonMembers members depth = .ok () ↔ ∀ member ∈ members, jsonValue member.2 depth = .ok () := by
  induction members with
  | nil => simp [jsonMembers]
  | cons member members ih => rw [jsonMembers, then_ok_iff, ih, List.forall_mem_cons]

theorem jsonValue_list {items : List Value} :
    jsonValue (.list items) depth = .ok () ↔ depth ≤ 6 ∧ ∀ item ∈ items, jsonValue item (depth + 1) = .ok () := by
  rw [jsonValue, ite_error_ok_iff, jsonItems_iff, Nat.not_lt]

theorem jsonValue_dict {members : Members} :
    jsonValue (.dict members) depth = .ok () ↔ depth ≤ 6 ∧ ∀ member ∈ members, jsonValue member.2 (depth + 1) = .ok () := by
  rw [jsonValue, ite_error_ok_iff, jsonMembers_iff, Nat.not_lt]

end AgentStorm.Worker.Config
