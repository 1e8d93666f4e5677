import AgentStorm.Results.Service

/-!
# `Results.Reference` — a platform one can compute with

The parameters of `Platform` have a model: digests are a checksum printed as 64 hexadecimal digits,
documents are stored by their number in a catalogue. With it the machine runs inside the kernel, so the
hypotheses of the results are shown to hold together. The documents of those runs are defined here
once.
-/

namespace AgentStorm.Results

open Machine Numeric Text

/-! ## Digests -/

/-- `n` hexadecimal digits of `v`, the low one first. -/
def hexDigits : Nat → Nat → List Char
  | 0, _ => []
  | n + 1, v => Nat.digitChar (v % 16) :: hexDigits n (v / 16)

theorem length_hexDigits (n v : Nat) : (hexDigits n v).length = n := by
  induction n generalizing v with
  | zero => rfl
  | succ n ih => rw [hexDigits, List.length_cons, ih]

theorem lowerHex_digitChar : ∀ d < 16, lowerHex (Nat.digitChar d) = true := by decide

theorem all_hexDigits (n v : Nat) : (hexDigits n v).all lowerHex = true := by
  induction n generalizing v with
  | zero => rfl
  | succ n ih =>
    have hlt : v % 16 < 16 := Nat.mod_lt v (by omega)
    rw [hexDigits, List.all_cons, ih, lowerHex_digitChar _ hlt, Bool.and_self]

/-- The payload read as a number in base 257. -/
def checksum (payload : Bytes) : Nat := payload.foldl (fun acc b => acc * 257 + b.toNat + 1) 0

def checksumHex (payload : Bytes) : String := String.ofList (hexDigits 64 (checksum payload))

theorem hexPattern_checksumHex (payload : Bytes) : hexPattern 64 (checksumHex payload) = true := by
  simp [hexPattern, checksumHex, length_hexDigits, all_hexDigits]

/-! ## The platform -/

/-- Documents travel as their number in `documents`. -/
def Platform.reference (documents : List ShardUpload) : Platform where
  sha256Hex := checksumHex
  sha256Hex_pattern := hexPattern_checksumHex
  marshalRegistration r := bytes r.source.name
  marshalTerminal r := bytes (r.status.text ++ r.reasonCode)
  marshalUpload upload := [UInt8.ofNat (documents.idxOf upload)]
  unmarshalUpload payload := payload.head?.bind fun b => documents[b.toNat]?
  marshalCase item := bytes item.idempotencyKey
  marshalScenario _ := []
  decodeScenario _ := none
  gzip payload := payload
  gunzip payload := some payload
  quote text := text

/-- No limits at all. -/
def LimitPolicy.unlimited : LimitPolicy := ⟨⟨0, 0⟩, fun _ => ⟨0, 0⟩, 60000⟩

/-- No collision among the members of a list. -/
theorem injOn_of_forall_mem {α β : Type} {l : List α} {f : α → β} (h : ∀ x ∈ l, ∀ y ∈ l, f x = f y → x = y) :
    Set.InjOn f { x | x ∈ l } := fun x hx y hy => h x hx y hy

/-! ## Documents -/

/-- A registration of `shards` shards under the given strategy. -/
def Registration.reference (name strategy : String) (shards : Int) : Registration where
  schemaVersion := Results.schemaVersion
  expectedShards := shards
  source := ⟨"default", name⟩
  target := ⟨"fake", "", "", none⟩
  dataset := ⟨"dataset", "cases.jsonl"⟩
  evaluation := ⟨none, none, none⟩
  reliability := none
  scheduling := some ⟨strategy, 2, "small"⟩

/-- The upload of a shard that had no cases to run. -/
def ShardUpload.reference (durationMS : ℚ) : ShardUpload where
  schemaVersion := Results.schemaVersion
  summary := ⟨0, 0, 0, .finite durationMS, 0, 0, some 0, 0, some true⟩
  cases := []

/-- A case that succeeded at once. -/
def CaseResult.reference (runID caseID : String) : CaseResult where
  idempotencyKey := caseKey runID caseID 0
  caseID := caseID
  iteration := 0
  success := true
  latencyMS := .finite 5
  inputTokens := 0
  outputTokens := 0
  modelCallCount := some 0
  toolCallCount := 0
  failureKind := ""
  failureCategory := ""
  errorCode := ""
  attempts := []
  usageComplete := some true
  output := none
  error := none
  toolPath := []
  assertions := []
  inputCostUSD := none
  outputCostUSD := none
  costUSD := none

/-- The upload of a shard with that one case. -/
def ShardUpload.single (runID caseID : String) : ShardUpload where
  schemaVersion := Results.schemaVersion
  summary := ⟨1, 1, 0, .finite 5, 0, 0, some 0, 0, some true⟩
  cases := [.reference runID caseID]

/-- A token of 43 equal characters. -/
def SchedulerToken.reference (c : Char) (hc : base64URLChar c = true) : SchedulerToken where
  text := String.ofList (List.replicate 43 c)
  shape := by simp [hc]

/-- An identifier of 32 equal characters. -/
def RandomIdentifier.reference (c : Char) (hc : lowerHex c = true) : RandomIdentifier where
  text := String.ofList (List.replicate 32 c)
  shape := by simp [hexPattern, hc]

/-! Tokens and identifiers told apart by their letter. -/

def SchedulerToken.ofA : SchedulerToken := .reference 'a' rfl
def SchedulerToken.ofB : SchedulerToken := .reference 'b' rfl
def SchedulerToken.ofC : SchedulerToken := .reference 'c' rfl
def SchedulerToken.ofD : SchedulerToken := .reference 'd' rfl
def SchedulerToken.ofBigA : SchedulerToken := .reference 'A' rfl
def SchedulerToken.ofBigB : SchedulerToken := .reference 'B' rfl
def SchedulerToken.ofBigC : SchedulerToken := .reference 'C' rfl

def RandomIdentifier.ofA : RandomIdentifier := .reference 'a' rfl
def RandomIdentifier.ofB : RandomIdentifier := .reference 'b' rfl
def RandomIdentifier.ofC : RandomIdentifier := .reference 'c' rfl
def RandomIdentifier.ofD : RandomIdentifier := .reference 'd' rfl

/-- Register the run `runID` with the given document, at time `now`. -/
def registerAt (now : Time) (runID : String) (registration : Registration) : Txn :=
  ⟨.registerRun runID (registrationKey runID) registration, now, now⟩

/-- The upload of shard `i` of a run by the holder of `leaseToken`. -/
def UploadCall.reference (runID : String) (i : Nat) (leaseToken : String) (upload : ShardUpload) : UploadCall :=
  ⟨runID, i, shardKey runID i, leaseToken, upload⟩

end AgentStorm.Results
