import AgentStorm.Results.Accounting
import AgentStorm.Results.Upload

/-!
# `Results.Normal` — normalization of an accepted upload

`normalizeShard` fills in what a legacy document leaves out, after validation. On cases and attempts
this changes nothing that validation looks at (`validateCases_normalize`). The flag of the summary is
different: absent, it is not compared with the cases; filled in, it says that all usage is known
(`normalization_iff`).
-/

namespace AgentStorm.Results

open Checks Numeric Text

variable {P : Platform}

/-! ## Idempotence -/

theorem usageComplete_some (value : Option Bool) : usageComplete (some (usageComplete value)) = usageComplete value := rfl

theorem normalizeAttempt_normalizeAttempt (a : AttemptResult) : normalizeAttempt (normalizeAttempt a) = normalizeAttempt a :=
  rfl

theorem normalizeCase_normalizeCase (item : CaseResult) : normalizeCase (normalizeCase item) = normalizeCase item := by
  have hattempts : (item.attempts.map normalizeAttempt).map normalizeAttempt = item.attempts.map normalizeAttempt := by
    rw [List.map_map]
    exact List.map_congr_left fun a _ => normalizeAttempt_normalizeAttempt a
  cases hkept : item.success || decide (item.failureCategory ≠ "") with
  | true => simp only [normalizeCase, hkept, if_true, hattempts, usageComplete_some]
  | false =>
    have hfilled : (item.success || decide ((legacyFailure item.failureKind).1 ≠ "")) = true := by
      rw [decide_eq_true (legacyFailure_ne item.failureKind), Bool.or_true]
    simp only [normalizeCase, hkept, Bool.false_eq_true, if_false, hfilled, if_true, hattempts, usageComplete_some]

theorem normalizeShard_normalizeShard (upload : ShardUpload) :
    normalizeShard (normalizeShard upload) = normalizeShard upload := by
  simp [normalizeShard, normalizeCase_normalizeCase, usageComplete_some]

/-! ## Cases and attempts -/

section Kept

variable (item : CaseResult)

/-- Normalization changes four fields of a case. -/
theorem normalizeCase_eq : ∃ category code, normalizeCase item = { item with
    attempts := item.attempts.map normalizeAttempt, usageComplete := some (usageComplete item.usageComplete)
    failureCategory := category, errorCode := code } := by
  unfold normalizeCase
  dsimp only
  split
  · exact ⟨_, _, rfl⟩
  · exact ⟨_, _, rfl⟩

theorem counts_normalizeCase :
    (normalizeCase item).counts = { item.counts with usageComplete := some (usageComplete item.usageComplete) } := by
  obtain ⟨_, _, heq⟩ := normalizeCase_eq item
  rw [heq]
  rfl

theorem usageComplete_normalizeCase :
    usageComplete (normalizeCase item).usageComplete = usageComplete item.usageComplete :=
  congrArg (fun c => usageComplete c.usageComplete) (counts_normalizeCase item)

end Kept

variable {index : Nat}

theorem validateAttempts_normalize {position : Nat} {attempts : List AttemptResult} {t : Totals} :
    validateAttempts index position t (attempts.map normalizeAttempt) = validateAttempts index position t attempts := by
  induction attempts generalizing position t with
  | nil => rfl
  | cons a attempts ih =>
    rw [List.map_cons, validateAttempts, validateAttempts]
    refine bind_congr_ok fun _ _ => ?_
    exact bind_congr_ok fun t' _ => ih

theorem validateFields_normalize {item : CaseResult} (h : validateFields index item = .ok ()) :
    validateFields index (normalizeCase item) = .ok () := by
  obtain ⟨hcategory, hsize, hcode, hcodeSize⟩ := legacyFailure_valid item.failureKind
  unfold normalizeCase
  dsimp only
  split
  · exact h
  · simp only [validateFields, then_ok_iff, invalid_eq_ok, Bool.or_eq_false_iff, Bool.and_eq_false_iff] at h ⊢
    obtain ⟨hmetrics, ⟨⟨⟨⟨hkind, -⟩, herror⟩, houtput⟩, hmessage⟩, hcosts, -, hpattern⟩ := h
    refine ⟨hmetrics, ⟨⟨⟨⟨hkind, hsize⟩, ?_⟩, houtput⟩, hmessage⟩, hcosts, Or.inr ?_, ?_⟩
    · split
      · exact hcodeSize
      · exact herror
    · rw [hcategory]
      rfl
    · split
      · exact .inr (by rw [hcode]; rfl)
      · exact hpattern

variable {runID : String}

theorem validateCase_normalize {seen : List (String × Int)} {item : CaseResult}
    (h : validateCase P runID index seen item = .ok ()) :
    validateCase P runID index seen (normalizeCase item) = .ok () := by
  unfold validateCase at h ⊢
  obtain ⟨hidentity, h⟩ := then_ok_iff.mp h
  obtain ⟨hfields, h⟩ := then_ok_iff.mp h
  have hfields' := validateFields_normalize hfields
  obtain ⟨_, _, heq⟩ := normalizeCase_eq item
  rw [heq] at hfields' ⊢
  refine then_ok_iff.mpr ⟨hidentity, then_ok_iff.mpr ⟨hfields', ?_⟩⟩
  show (invalid (decide (10 < (item.attempts.map normalizeAttempt).length)) _ >>= fun _ =>
    validateAttempts index 0 Totals.zero (item.attempts.map normalizeAttempt) >>= _) = _
  rw [validateAttempts_normalize, List.length_map]
  refine Eq.trans ?_ h
  refine bind_congr_ok fun _ _ => bind_congr_ok fun t _ => ?_
  simp only [matchAttempts, List.isEmpty_map, usageComplete_some]
  rfl

/-- **Normalized cases pass the case loop** whenever the cases do, with the same totals. -/
theorem validateCases_normalize {items : List CaseResult} {seen : List (String × Int)} {t t' : Totals}
    (h : validateCases P runID index seen t items = .ok t') :
    validateCases P runID index seen t (items.map normalizeCase) = .ok t' := by
  induction items generalizing index seen t with
  | nil => exact h
  | cons item items ih =>
    obtain ⟨hcase, h⟩ := then_ok_iff.mp h
    obtain ⟨mid, hadd, hrest⟩ := bind_ok_iff.mp h
    rw [List.map_cons, validateCases]
    refine then_ok_iff.mpr ⟨validateCase_normalize hcase, bind_ok_iff.mpr ⟨mid, ?_, ?_⟩⟩
    · have hcounts : t.addCounts "case" (normalizeCase item).counts = t.addCounts "case" item.counts := by
        rw [counts_normalizeCase]
        rfl
      exact hcounts.trans hadd
    · rw [normalizeCase_caseID, normalizeCase_iteration]
      exact ih hrest

/-! ## The summary -/

variable {shardIndex : Int}

/-- The usage of every case is known. -/
def allComplete (upload : ShardUpload) : Bool := upload.cases.all fun item => usageComplete item.usageComplete

/-- A summary without a flag stands over cases that are complete. -/
def UsageDeclared (upload : ShardUpload) : Prop := upload.summary.usageComplete = none → allComplete upload = true

instance decidableUsageDeclared (upload : ShardUpload) : Decidable (UsageDeclared upload) :=
  inferInstanceAs (Decidable (_ → _))

/-- An accepted document has passed the case loop, and a flag in its summary is right. -/
theorem usage_of_valid {key : String} {upload : ShardUpload}
    (h : validateShard P runID shardIndex key upload = .ok ()) :
    (∀ flag, upload.summary.usageComplete = some flag → flag = allComplete upload) ∧
      (validateShard P runID shardIndex key (normalizeShard upload) = .ok () ↔
        usageComplete upload.summary.usageComplete = allComplete upload) := by
  simp only [validateShard, then_ok_iff] at h
  obtain ⟨hid, hindex, hkey, hschema, hcounts, hlength, h⟩ := h
  obtain ⟨t, hcases, htotals⟩ := bind_ok_iff.mp h
  have husage : t.usageComplete = allComplete upload := by
    obtain ⟨rfl, -⟩ := validateCases_totals Totals.bounded_of_nil hcases
    rw [List.nil_append, Totals.of_map]
    rfl
  have htotals' := htotals
  simp only [validateSummaryTotals, then_ok_iff] at htotals
  obtain ⟨htokens, hflag, hcalls⟩ := htotals
  constructor
  · intro flag hsome
    rw [hsome, husage] at hflag
    simpa using hflag
  · have hlength' : (normalizeShard upload).cases.length = upload.cases.length := List.length_map _
    have hsummary : validateSummaryTotals (normalizeShard upload).summary upload.cases.length t = .ok () ↔
        usageComplete upload.summary.usageComplete = allComplete upload := by
      -- only the flag has changed, so the other checks pass as they did
      simp only [validateSummaryTotals, then_ok_iff]
      constructor
      · rintro ⟨-, hnew, -⟩
        rw [husage] at hnew
        simpa [normalizeShard] using hnew
      · intro heq
        refine ⟨htokens, ?_, hcalls⟩
        simp [normalizeShard, heq, husage]
    rw [← hsummary]
    constructor
    · intro hnormal
      simp only [validateShard, then_ok_iff] at hnormal
      obtain ⟨-, -, -, -, -, -, hnormal⟩ := hnormal
      obtain ⟨t', hcases', htotals''⟩ := bind_ok_iff.mp hnormal
      cases (validateCases_normalize hcases).symm.trans hcases'
      rwa [hlength'] at htotals''
    · intro htotals''
      simp only [validateShard, then_ok_iff]
      rw [hlength']
      exact ⟨hid, hindex, hkey, hschema, hcounts, hlength, bind_ok_iff.mpr ⟨t, validateCases_normalize hcases, htotals''⟩⟩

theorem usageDeclared_iff {key : String} {upload : ShardUpload}
    (h : validateShard P runID shardIndex key upload = .ok ()) :
    UsageDeclared upload ↔ usageComplete upload.summary.usageComplete = allComplete upload := by
  unfold UsageDeclared
  cases hflag : upload.summary.usageComplete with
  | none => exact ⟨fun hall => (hall rfl).symm, fun heq _ => heq.symm⟩
  | some flag =>
    have heq := (usage_of_valid h).1 flag hflag
    exact ⟨fun _ => heq, fun _ hnone => absurd hnone (Option.some_ne_none flag)⟩

theorem allComplete_normalizeShard (upload : ShardUpload) : allComplete (normalizeShard upload) = allComplete upload := by
  rw [allComplete, normalizeShard, List.all_map]
  exact List.all_congr rfl fun item => usageComplete_normalizeCase item

/-- What normalization should leave of an accepted upload. -/
structure NormalizesWell (P : Platform) (runID : String) (shardIndex : Int) (key : String) (upload : ShardUpload) : Prop where
  accepted : validateShard P runID shardIndex key (normalizeShard upload) = .ok ()
  idempotent : normalizeShard (normalizeShard upload) = normalizeShard upload
  /-- The stored document, decoded and uploaded again, has the hash it is stored under. -/
  hash : (P.unmarshalUpload (P.marshalUpload (normalizeShard upload))).map (fun decoded => P.payloadHash (normalizeShard decoded)) =
    some (P.payloadHash (normalizeShard upload))
  usage : (normalizeShard upload).summary.usageComplete = some (allComplete (normalizeShard upload))
  /-- Costs are returned only if all usage is known. -/
  costs : ∀ (call : UploadCall) (pricing : Option RunPricing) (r : ShardResult), call.upload = upload →
    call.created pricing = .ok r → (r.inputCostUSD.isSome || r.outputCostUSD.isSome) = true → allComplete upload = true

/-- **Normalization preserves validity** of an accepted upload exactly if its summary has a flag or its cases are
    complete. The document survives encoding and decoding. -/
theorem normalization_iff {key : String} {upload : ShardUpload}
    (h : validateShard P runID shardIndex key upload = .ok ())
    (hround : P.unmarshalUpload (P.marshalUpload (normalizeShard upload)) = some (normalizeShard upload)) :
    NormalizesWell P runID shardIndex key upload ↔ UsageDeclared upload := by
  obtain ⟨-, haccepted⟩ := usage_of_valid h
  rw [usageDeclared_iff h]
  constructor
  · exact fun hwell => haccepted.mp hwell.accepted
  · intro hflag
    refine ⟨haccepted.mpr hflag, normalizeShard_normalizeShard upload, ?_, ?_, ?_⟩
    · rw [hround, Option.map_some, normalizeShard_normalizeShard]
    · rw [allComplete_normalizeShard, ← hflag]
      rfl
    · rintro call pricing r rfl hcreated hcosts
      rw [← hflag]
      by_contra hincomplete
      have hincomplete' : usageComplete call.document.summary.usageComplete = false := by
        rw [← Bool.not_eq_true]
        exact hincomplete
      rw [UploadCall.created, hincomplete', if_neg Bool.false_ne_true] at hcreated
      cases hcreated
      cases hcosts

/-- One case of unknown usage under a summary without a flag, as a legacy worker may send it. -/
def ShardUpload.undeclared (runID caseID : String) : ShardUpload where
  schemaVersion := Results.schemaVersion
  summary := ⟨1, 1, 0, .finite 5, 0, 0, some 0, 0, none⟩
  cases := [{ CaseResult.reference runID caseID with usageComplete := some false }]

/-- A case without flags on any level. -/
def ShardUpload.legacy (runID caseID : String) : ShardUpload where
  schemaVersion := Results.schemaVersion
  summary := ⟨1, 0, 1, .finite 5, 0, 0, some 0, 0, none⟩
  cases := [{ CaseResult.reference runID caseID with
    success := false, failureKind := "tool", usageComplete := none }]

theorem normalization_legacy :
    NormalizesWell (.reference [normalizeShard (.legacy "run" "case")]) "run" 0 (shardKey "run" 0) (.legacy "run" "case") := by
  have haccepted : validateShard (.reference [normalizeShard (.legacy "run" "case")]) "run" 0 (shardKey "run" 0)
      (.legacy "run" "case") = .ok () := by decide +kernel
  have hround : (Platform.reference [normalizeShard (.legacy "run" "case")]).unmarshalUpload
      ((Platform.reference [normalizeShard (.legacy "run" "case")]).marshalUpload (normalizeShard (.legacy "run" "case"))) =
        some (normalizeShard (.legacy "run" "case")) := by decide +kernel
  exact (normalization_iff haccepted hround).mpr (by decide)

/-- The upload is accepted; what is stored of it is not, calls its usage complete, and gets a price. -/
theorem normalization_undeclared :
    let upload := ShardUpload.undeclared "run" "case"
    validateShard (.reference []) "run" 0 (shardKey "run" 0) upload = .ok () ∧
      validateShard (.reference []) "run" 0 (shardKey "run" 0) (normalizeShard upload) =
        .error (.validation "summary usage_complete does not match cases") ∧
      (normalizeShard upload).summary.usageComplete = some true ∧ allComplete (normalizeShard upload) = false ∧
      (UploadCall.reference "run" 0 "" upload).created (some ⟨"1", "2"⟩) =
        .ok ⟨true, some "0.000000000000", some "0.000000000000"⟩ := by
  decide +kernel

end AgentStorm.Results
