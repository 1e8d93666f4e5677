import AgentStorm.Results.Validate
import AgentStorm.Worker.Runner

/-!
# `Worker.Payload` — the documents the worker uploads

What `ResultClient` of `results.py` sends for a case and for a shard, as the Result API decodes it: a key the client
leaves out decodes as the empty value of its field. Key texts are built with `quote_plus`, which `quotePlus_eq` shows
to be the escaping the API uses.
-/

namespace AgentStorm.Worker

open Results Text

/-! ## Case keys -/

/-- The bytes `urllib.parse.quote` leaves alone. -/
def quoteSafe (safe : List Char) (b : UInt8) : Option Char :=
  let c := Char.ofNat b.toNat
  if c.isAlphanum || c == '_' || c == '.' || c == '-' || c == '~' || safe.contains c then some c else none

/-- `quote_plus(s, safe="")`: with a blank in the text, blanks are kept and then replaced. -/
def quotePlus (s : String) : String :=
  if ' ' ∈ s.toList then
    String.ofList ((percentEncode (quoteSafe [' ']) (bytes s)).map fun c => if c = ' ' then '+' else c)
  else String.ofList (percentEncode (quoteSafe []) (bytes s))

theorem percentWord_blank (b : UInt8) :
    (percentWord (quoteSafe [' ']) b).map (fun c => if c = ' ' then '+' else c) = percentWord queryPlain b := by
  have hall : ∀ n < 256, (percentWord (quoteSafe [' ']) (UInt8.ofNat n)).map (fun c => if c = ' ' then '+' else c) =
      percentWord queryPlain (UInt8.ofNat n) := by decide +kernel
  have hb := hall b.toNat b.toNat_lt_size
  rwa [UInt8.ofNat_toNat] at hb

theorem percentWord_plain {b : UInt8} (h : b ≠ 32) : percentWord (quoteSafe []) b = percentWord queryPlain b := by
  have hall : ∀ n < 256, UInt8.ofNat n ≠ 32 →
      percentWord (quoteSafe []) (UInt8.ofNat n) = percentWord queryPlain (UInt8.ofNat n) := by decide +kernel
  have hb := hall b.toNat b.toNat_lt_size
  rw [UInt8.ofNat_toNat] at hb
  exact hb h

/-- **Both sides escape alike.** -/
theorem quotePlus_eq (s : String) : quotePlus s = queryEscape s := by
  unfold quotePlus queryEscape percentEncode
  split
  · rw [List.map_flatMap]
    exact congrArg String.ofList (List.flatMap_congr fun b _ => percentWord_blank b)
  · rename_i hblank
    refine congrArg String.ofList (List.flatMap_congr fun b hb => percentWord_plain ?_)
    rintro rfl
    exact hblank (mem_of_mem_bytes (by decide) hb)

/-! ## Cases -/

def attemptPayload (attempt : AttemptResult) : Results.AttemptResult where
  number := attempt.number
  latencyMS := .finite attempt.latencyMS
  outcome := attempt.outcome.text
  failureCategory := (attempt.failureCategory.map (·.text)).getD ""
  errorCode := (attempt.errorCode.map (·.text)).getD ""
  injectedRule := attempt.injectedRule
  injectedFault := (attempt.injectedFault.map (·.text)).getD ""
  ambiguous := attempt.ambiguous
  retryDecision := attempt.retryDecision.text
  backoffMS := attempt.backoffMS
  inputTokens := attempt.inputTokens.getD 0
  outputTokens := attempt.outputTokens.getD 0
  modelCallCount := attempt.modelCallCount.map fun (n : Nat) => (n : Int)
  toolCallCount := attempt.toolCallCount
  usageComplete := some attempt.usageComplete
  circuitEvents := attempt.circuitEvents.map (·.text)

def assertionPayload (sensitive : Bool) (outcome : AssertionOutcome) : AssertionResult where
  index := outcome.index
  type := outcome.type.text
  passed := outcome.passed
  reasonCode := outcome.reasonCode.text
  message := if sensitive then outcome.message else none

/-- `_case_payload`; `sensitive` is the client's `include_sensitive`. -/
def casePayload (sensitive : Bool) (runID : String) (result : CaseResult) : Results.CaseResult where
  idempotencyKey := "run/" ++ runID ++ "/case/" ++ quotePlus result.caseID ++ "/iteration/" ++ toString result.iteration
  caseID := result.caseID
  iteration := result.iteration
  success := result.success
  latencyMS := .finite result.latencyMS
  inputTokens := result.inputTokens
  outputTokens := result.outputTokens
  usageComplete := some result.usageComplete
  modelCallCount := result.modelCallCount.map fun (n : Nat) => (n : Int)
  toolCallCount := result.toolCallCount
  failureKind := (result.failureKind.map (·.text)).getD ""
  failureCategory := (result.failureCategory.map (·.text)).getD ""
  errorCode := (result.errorCode.map (·.text)).getD ""
  attempts := result.attempts.map attemptPayload
  toolPath := result.toolPath
  assertions := result.assertions.map (assertionPayload sensitive)
  output := if sensitive ∧ result.output ≠ "" then some result.output else none
  error := if sensitive then result.error.filter (· ≠ "") else none
  inputCostUSD := none
  outputCostUSD := none
  costUSD := none

/-! ## Shards -/

def summaryPayload (summary : RunSummary) : ShardSummary where
  total := summary.total
  succeeded := summary.succeeded
  failed := summary.failed
  durationMS := .finite summary.durationMS
  inputTokens := summary.inputTokens
  outputTokens := summary.outputTokens
  usageComplete := some summary.usageComplete
  modelCallCount := summary.modelCallCount.map fun (n : Nat) => (n : Int)
  toolCallCount := summary.toolCallCount

/-- The document of `upload_shard`. -/
def shardPayload (sensitive : Bool) (runID : String) (results : List CaseResult) (summary : RunSummary) : ShardUpload where
  schemaVersion := "v1alpha1"
  summary := summaryPayload summary
  cases := results.map (casePayload sensitive runID)

end AgentStorm.Worker
