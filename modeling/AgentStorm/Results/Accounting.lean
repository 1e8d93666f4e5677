import AgentStorm.Results.Reference

/-!
# `Results.Accounting` — the sums behind an accepted upload

`validateShard` adds up the attempts of every case and the cases of the shard, and compares the sums
with what the document says of them. The source adds in 64-bit integers, with a guard in front of every
addition: `validateShard64` gives the same answer on every document (`validateShard64_eq`), and an
accepted upload agrees with exact sums on all three levels (`shard_accounting`).
-/

namespace AgentStorm.Results

open Checks Numeric Text

/-! ## Counts and totals -/

variable {t : Totals} {kind runID : String} {index : Nat} {item : CaseResult}

/-- What an attempt or a case adds to the totals. -/
structure Counts where
  inputTokens : Int
  outputTokens : Int
  modelCallCount : Option Int
  toolCallCount : Int
  usageComplete : Option Bool

def AttemptResult.counts (a : AttemptResult) : Counts :=
  ⟨a.inputTokens, a.outputTokens, a.modelCallCount, a.toolCallCount, a.usageComplete⟩

def CaseResult.counts (item : CaseResult) : Counts :=
  ⟨item.inputTokens, item.outputTokens, item.modelCallCount, item.toolCallCount, item.usageComplete⟩

/-- Counts the checks let through. -/
structure Counts.Nonneg (c : Counts) : Prop where
  inputTokens : 0 ≤ c.inputTokens
  outputTokens : 0 ≤ c.outputTokens
  modelCalls : ∀ n, c.modelCallCount = some n → 0 ≤ n
  toolCalls : 0 ≤ c.toolCallCount

/-- Totals as the guards keep them. -/
structure Totals.Bounded (t : Totals) : Prop where
  inputTokens : 0 ≤ t.inputTokens ∧ t.inputTokens ≤ maxInt64
  outputTokens : 0 ≤ t.outputTokens ∧ t.outputTokens ≤ maxInt64
  modelCalls : 0 ≤ t.modelCalls ∧ t.modelCalls ≤ maxInt64
  toolCalls : 0 ≤ t.toolCalls ∧ t.toolCalls ≤ maxInt64

theorem Totals.bounded_zero : Totals.zero.Bounded := by
  refine ⟨?_, ?_, ?_, ?_⟩ <;> decide

/-- `Totals.add` for a record of counts. -/
def Totals.addCounts (t : Totals) (kind : String) (c : Counts) : Except ApiError Totals :=
  t.add kind c.inputTokens c.outputTokens c.modelCallCount c.toolCallCount c.usageComplete

variable {c : Counts}

theorem Totals.addCounts_ok {t' : Totals} (h : t.addCounts kind c = .ok t') :
    t' = ⟨t.inputTokens + c.inputTokens, t.outputTokens + c.outputTokens, t.modelCalls + c.modelCallCount.getD 0,
      t.toolCalls + c.toolCallCount, t.modelCallsKnown && c.modelCallCount.isSome,
      t.usageComplete && Results.usageComplete c.usageComplete⟩ ∧
    t.inputTokens + c.inputTokens ≤ maxInt64 ∧ t.outputTokens + c.outputTokens ≤ maxInt64 ∧
    (∀ n, c.modelCallCount = some n → t.modelCalls + n ≤ maxInt64) ∧ t.toolCalls + c.toolCallCount ≤ maxInt64 := by
  simp only [addCounts, add, then_ok_iff, invalid_eq_ok, decide_eq_false_iff_not, not_or, not_lt, Option.any_eq_false] at h
  obtain ⟨⟨hin, hout⟩, hmodel, htool, heq⟩ := h
  refine ⟨(Except.ok.inj heq).symm, by omega, by omega, ?_, by omega⟩
  intro n hn
  have hle := hmodel n hn
  omega

theorem Totals.Bounded.addCounts {t' : Totals} (hbounded : t.Bounded) (hc : c.Nonneg)
    (h : t.addCounts kind c = .ok t') : t'.Bounded := by
  obtain ⟨rfl, hin, hout, hmodel, htool⟩ := addCounts_ok h
  have hin' := hc.inputTokens
  have hout' := hc.outputTokens
  have htool' := hc.toolCalls
  refine ⟨⟨?_, hin⟩, ⟨?_, hout⟩, ?_, ⟨?_, htool⟩⟩
  · exact add_nonneg hbounded.inputTokens.1 hin'
  · exact add_nonneg hbounded.outputTokens.1 hout'
  · cases hn : c.modelCallCount with
    | none => simpa using hbounded.modelCalls
    | some n => exact ⟨add_nonneg hbounded.modelCalls.1 (hc.modelCalls n hn), hmodel n hn⟩
  · exact add_nonneg hbounded.toolCalls.1 htool'

variable {position : Nat}

theorem counts_nonneg_of_attempt {a : AttemptResult} (h : validateAttempt index position a = .ok ()) :
    a.counts.Nonneg ∧ a.number = position + 1 := by
  have hfields := invalid_eq_ok.mp (then_ok_iff.mp h).1
  simp only [attemptInvalid, Bool.or_eq_false_iff, decide_eq_false_iff_not, Decidable.not_not, not_or, not_lt,
    Option.any_eq_false, and_assoc] at hfields
  obtain ⟨hnumber, -, -, -, hin, hout, htool, hmodel, -⟩ := hfields
  exact ⟨⟨hin, hout, hmodel, htool⟩, hnumber⟩

theorem CaseAccepted.counts_nonneg (h : CaseAccepted runID item) : item.counts.Nonneg :=
  ⟨h.inputTokens_nonneg, h.outputTokens_nonneg, h.modelCalls_nonneg, h.toolCalls_nonneg⟩

/-! ## The check in 64-bit arithmetic -/

variable {P : Platform} {seen : List (String × Int)} {shardIndex : Int}

/-- `Totals.addCounts` as the source computes it: the differences of the guards and the sums wrap. -/
def Totals.add64 (t : Totals) (kind : String) (c : Counts) : Except ApiError Totals := do
  invalid (decide (subInt64 maxInt64 t.inputTokens < c.inputTokens ∨ subInt64 maxInt64 t.outputTokens < c.outputTokens))
    (kind ++ " token totals exceed the supported range")
  invalid (c.modelCallCount.any fun n => decide (subInt64 maxInt64 t.modelCalls < n))
    (kind ++ " model call totals exceed the supported range")
  invalid (decide (subInt64 maxInt64 t.toolCalls < c.toolCallCount)) (kind ++ " tool call totals exceed the supported range")
  return {
    inputTokens := addInt64 t.inputTokens c.inputTokens
    outputTokens := addInt64 t.outputTokens c.outputTokens
    modelCalls := c.modelCallCount.elim t.modelCalls (addInt64 t.modelCalls)
    toolCalls := addInt64 t.toolCalls c.toolCallCount
    modelCallsKnown := t.modelCallsKnown && c.modelCallCount.isSome
    usageComplete := t.usageComplete && Results.usageComplete c.usageComplete }

def validateAttempts64 (index : Nat) : Nat → Totals → List AttemptResult → Except ApiError Totals
  | _, totals, [] => .ok totals
  | position, totals, attempt :: attempts => do
      validateAttempt index position attempt
      let totals' ← totals.add64 "attempt" attempt.counts
      validateAttempts64 index (position + 1) totals' attempts

def validateCase64 (P : Platform) (runID : String) (index : Nat) (seen : List (String × Int)) (item : CaseResult) :
    Except ApiError Unit := do
  validateIdentity P runID index seen item
  validateFields index item
  invalid (decide (10 < item.attempts.length)) (caseMessage index ".attempts cannot contain more than 10 items")
  let totals ← validateAttempts64 index 0 Totals.zero item.attempts
  matchAttempts index item totals
  invalid (decide (1000 < item.toolPath.length)) (caseMessage index ".tool_path cannot contain more than 1000 items")
  validateToolNames index 0 item.toolPath
  invalid (decide (100 < item.assertions.length)) (caseMessage index ".assertions cannot contain more than 100 items")
  validateAssertions index 0 item.assertions
  validateOutcome index item

def validateCases64 (P : Platform) (runID : String) :
    Nat → List (String × Int) → Totals → List CaseResult → Except ApiError Totals
  | _, _, totals, [] => .ok totals
  | index, seen, totals, item :: items => do
      validateCase64 P runID index seen item
      let totals' ← totals.add64 "case" item.counts
      validateCases64 P runID (index + 1) ((item.caseID, item.iteration) :: seen) totals' items

def validateShard64 (P : Platform) (runID : String) (shardIndex : Int) (idempotencyKey : String) (upload : ShardUpload) :
    Except ApiError Unit := do
  validateRunID runID
  invalid (decide (shardIndex < 0)) "shard index must not be negative"
  invalid (decide (idempotencyKey ≠ shardKey runID shardIndex)) "invalid shard idempotency key"
  invalid (decide (upload.schemaVersion ≠ schemaVersion)) "schema_version must be \"v1alpha1\""
  validateSummaryCounts upload.summary upload.cases.length
  invalid (decide (100000 < upload.cases.length)) "a shard cannot contain more than 100000 cases"
  let totals ← validateCases64 P runID 0 [] Totals.zero upload.cases
  validateSummaryTotals upload.summary upload.cases.length totals

/-- While the totals are in range, neither a guard nor an addition wraps. -/
theorem Totals.Bounded.add64_eq (h : t.Bounded) (hc : c.Nonneg) :
    t.add64 kind c = t.addCounts kind c := by
  unfold add64
  rw [subInt64_maxInt64 h.inputTokens.1 h.inputTokens.2, subInt64_maxInt64 h.outputTokens.1 h.outputTokens.2,
    subInt64_maxInt64 h.modelCalls.1 h.modelCalls.2, subInt64_maxInt64 h.toolCalls.1 h.toolCalls.2]
  refine bind_congr_ok fun _ htokens => bind_congr_ok fun _ hmodel => bind_congr_ok fun _ htool => ?_
  simp only [invalid_eq_ok, decide_eq_false_iff_not, not_or, not_lt, Option.any_eq_false] at htokens hmodel htool
  have hin := addInt64_eq (add_nonneg h.inputTokens.1 hc.inputTokens) (by have := htokens.1; omega)
  have hout := addInt64_eq (add_nonneg h.outputTokens.1 hc.outputTokens) (by have := htokens.2; omega)
  have htools := addInt64_eq (add_nonneg h.toolCalls.1 hc.toolCalls) (by omega)
  have hcalls : c.modelCallCount.elim t.modelCalls (addInt64 t.modelCalls) = t.modelCalls + c.modelCallCount.getD 0 := by
    cases hn : c.modelCallCount with
    | none => exact (add_zero _).symm
    | some n =>
      have hle := hmodel n hn
      exact addInt64_eq (add_nonneg h.modelCalls.1 (hc.modelCalls n hn)) (by omega)
  rw [hin, hout, htools, hcalls]

theorem validateAttempts64_eq {attempts : List AttemptResult} (h : t.Bounded) :
    validateAttempts64 index position t attempts = validateAttempts index position t attempts := by
  induction attempts generalizing position t with
  | nil => rfl
  | cons attempt attempts ih =>
    rw [validateAttempts64, validateAttempts]
    refine bind_congr_ok fun _ hvalid => ?_
    have hc := (counts_nonneg_of_attempt hvalid).1
    have hadd : t.add64 "attempt" attempt.counts = t.add "attempt" attempt.inputTokens attempt.outputTokens
      attempt.modelCallCount attempt.toolCallCount attempt.usageComplete := h.add64_eq hc
    rw [hadd]
    exact bind_congr_ok fun t' ht' => ih (h.addCounts hc ht')

theorem validateCase64_eq :
    validateCase64 P runID index seen item = validateCase P runID index seen item := by
  rw [validateCase64, validateCase, validateAttempts64_eq Totals.bounded_zero]

theorem validateCases64_eq {items : List CaseResult} (h : t.Bounded) :
    validateCases64 P runID index seen t items = validateCases P runID index seen t items := by
  induction items generalizing index seen t with
  | nil => rfl
  | cons item items ih =>
    rw [validateCases64, validateCases, validateCase64_eq]
    refine bind_congr_ok fun _ hvalid => ?_
    have hc := (validateCase_ok hvalid).1.counts_nonneg
    have hadd : t.add64 "case" item.counts = t.add "case" item.inputTokens item.outputTokens item.modelCallCount
      item.toolCallCount item.usageComplete := h.add64_eq hc
    rw [hadd]
    exact bind_congr_ok fun t' ht' => ih (h.addCounts hc ht')

/-- **The guards work.** Whether sums wrap or not makes no difference to the check, on any document. -/
theorem validateShard64_eq {key : String} {upload : ShardUpload} :
    validateShard64 P runID shardIndex key upload = validateShard P runID shardIndex key upload := by
  rw [validateShard64, validateShard, validateCases64_eq Totals.bounded_zero]

/-! ## Exact sums -/

/-- The totals of a list of counts. -/
def Totals.of (cs : List Counts) : Totals where
  inputTokens := (cs.map (·.inputTokens)).sum
  outputTokens := (cs.map (·.outputTokens)).sum
  modelCalls := (cs.filterMap (·.modelCallCount)).sum
  toolCalls := (cs.map (·.toolCallCount)).sum
  modelCallsKnown := cs.all fun c => c.modelCallCount.isSome
  usageComplete := cs.all fun c => Results.usageComplete c.usageComplete

theorem Totals.of_map {α : Type} (f : α → Counts) (xs : List α) : Totals.of (xs.map f) =
    ⟨(xs.map fun x => (f x).inputTokens).sum, (xs.map fun x => (f x).outputTokens).sum,
      (xs.filterMap fun x => (f x).modelCallCount).sum, (xs.map fun x => (f x).toolCallCount).sum,
      xs.all fun x => (f x).modelCallCount.isSome, xs.all fun x => Results.usageComplete (f x).usageComplete⟩ := by
  simp only [Totals.of, List.map_map, List.filterMap_map, List.all_map]
  rfl

theorem Totals.addCounts_of {cs : List Counts} {t' : Totals}
    (h : (Totals.of cs).addCounts kind c = .ok t') : t' = Totals.of (cs ++ [c]) := by
  obtain ⟨rfl, -⟩ := addCounts_ok h
  cases hn : c.modelCallCount <;> simp [Totals.of, hn]

/-- The attempts loop ends with the totals of its list, and has seen the attempts numbered without a gap. -/
theorem validateAttempts_ok {attempts : List AttemptResult} {done : List Counts}
    (hdone : (Totals.of done).Bounded)
    (h : validateAttempts index position (Totals.of done) attempts = .ok t) :
    t = Totals.of (done ++ attempts.map AttemptResult.counts) ∧ t.Bounded ∧
      (∀ a ∈ attempts, a.counts.Nonneg) ∧
      attempts.map AttemptResult.number = (List.range' position attempts.length).map fun n : Nat => (n : Int) + 1 := by
  induction attempts generalizing position done with
  | nil =>
    cases h
    exact ⟨by simp, hdone, by simp, rfl⟩
  | cons attempt attempts ih =>
    obtain ⟨hvalid, hrest⟩ := then_ok_iff.mp h
    obtain ⟨t', hadd, hrest⟩ := bind_ok_iff.mp hrest
    obtain ⟨hc, hnumber⟩ := counts_nonneg_of_attempt hvalid
    have hbounded := hdone.addCounts hc hadd
    obtain rfl : t' = Totals.of (done ++ [attempt.counts]) := Totals.addCounts_of hadd
    obtain ⟨hof, ht, hpos, hnumbers⟩ := ih hbounded hrest
    refine ⟨?_, ht, List.forall_mem_cons.mpr ⟨hc, hpos⟩, ?_⟩
    · rw [hof, List.append_assoc, List.map_cons]
      rfl
    · rw [List.map_cons, List.length_cons, List.range'_succ, List.map_cons, hnumbers, hnumber]

theorem validateCases_totals {items : List CaseResult} {done : List Counts}
    (hdone : (Totals.of done).Bounded)
    (h : validateCases P runID index seen (Totals.of done) items = .ok t) :
    t = Totals.of (done ++ items.map CaseResult.counts) ∧ t.Bounded ∧
      ∀ item ∈ items, ∃ index seen, validateCase P runID index seen item = .ok () := by
  induction items generalizing index seen done with
  | nil =>
    cases h
    exact ⟨by simp, hdone, by simp⟩
  | cons item items ih =>
    obtain ⟨hvalid, hrest⟩ := then_ok_iff.mp h
    obtain ⟨t', hadd, hrest⟩ := bind_ok_iff.mp hrest
    have hc := (validateCase_ok hvalid).1.counts_nonneg
    have hbounded := hdone.addCounts hc hadd
    obtain rfl : t' = Totals.of (done ++ [item.counts]) := Totals.addCounts_of hadd
    obtain ⟨hof, ht, hall⟩ := ih hbounded hrest
    refine ⟨?_, ht, List.forall_mem_cons.mpr ⟨⟨index, seen, hvalid⟩, hall⟩⟩
    rw [hof, List.append_assoc, List.map_cons]
    rfl

theorem Totals.bounded_of_nil : (Totals.of []).Bounded := Totals.bounded_zero

/-- No running sum over the counts wraps; unknown model calls are not added. -/
structure ExactCounts (cs : List Counts) : Prop where
  inputTokens : ExactSums (cs.map (·.inputTokens))
  outputTokens : ExactSums (cs.map (·.outputTokens))
  modelCalls : ExactSums (cs.filterMap (·.modelCallCount))
  toolCalls : ExactSums (cs.map (·.toolCallCount))

theorem exactCounts_of_bounded {cs : List Counts} (hpos : ∀ c ∈ cs, c.Nonneg) (h : (Totals.of cs).Bounded) :
    ExactCounts cs := by
  refine ⟨exactSums_of_le ?_ h.inputTokens.2, exactSums_of_le ?_ h.outputTokens.2, exactSums_of_le ?_ h.modelCalls.2,
    exactSums_of_le ?_ h.toolCalls.2⟩
  · exact List.forall_mem_map.mpr fun c hc => (hpos c hc).inputTokens
  · exact List.forall_mem_map.mpr fun c hc => (hpos c hc).outputTokens
  · intro n hn
    obtain ⟨c, hc, hcount⟩ := List.mem_filterMap.mp hn
    exact (hpos c hc).modelCalls n hcount
  · exact List.forall_mem_map.mpr fun c hc => (hpos c hc).toolCalls

/-! ## What an accepted upload says of itself -/

/-- The sum of the values, absent exactly if one of them is. -/
def sumKnown (values : List (Option Int)) : Option Int :=
  if values.all Option.isSome then some (values.filterMap id).sum else none

theorem sumKnown_map {α : Type} (f : α → Option Int) (xs : List α) :
    sumKnown (xs.map f) = if xs.all fun x => (f x).isSome then some (xs.filterMap f).sum else none := by
  rw [sumKnown, List.all_map, List.filterMap_map]
  rfl

/-- A case agrees with its attempts. -/
structure CaseBalanced (item : CaseResult) : Prop where
  attempts_le : item.attempts.length ≤ 10
  numbered : item.attempts.map (·.number) = (List.range item.attempts.length).map fun n : Nat => (n : Int) + 1
  inputTokens : item.attempts ≠ [] → item.inputTokens = (item.attempts.map (·.inputTokens)).sum
  outputTokens : item.attempts ≠ [] → item.outputTokens = (item.attempts.map (·.outputTokens)).sum
  modelCalls : item.attempts ≠ [] → item.modelCallCount = sumKnown (item.attempts.map (·.modelCallCount))
  toolCalls : item.attempts ≠ [] → item.toolCallCount = (item.attempts.map (·.toolCallCount)).sum
  usage : item.attempts ≠ [] →
    usageComplete item.usageComplete = item.attempts.all fun a => usageComplete a.usageComplete

/-- The three levels of an upload agree. -/
structure ShardBalanced (upload : ShardUpload) : Prop where
  identities : (upload.cases.map fun item => (item.caseID, item.iteration)).Nodup
  cases : ∀ item ∈ upload.cases, CaseBalanced item
  inputTokens : upload.summary.inputTokens = (upload.cases.map (·.inputTokens)).sum
  outputTokens : upload.summary.outputTokens = (upload.cases.map (·.outputTokens)).sum
  modelCalls : upload.cases ≠ [] → upload.summary.modelCallCount = sumKnown (upload.cases.map (·.modelCallCount))
  toolCalls : upload.summary.toolCallCount = (upload.cases.map (·.toolCallCount)).sum

/-- No sum that the check forms wraps. -/
structure ShardExact (upload : ShardUpload) : Prop where
  outcomes : addInt64 upload.summary.succeeded upload.summary.failed = upload.summary.succeeded + upload.summary.failed
  attempts : ∀ item ∈ upload.cases, ExactCounts (item.attempts.map AttemptResult.counts)
  cases : ExactCounts (upload.cases.map CaseResult.counts)

theorem caseBalanced_of_valid (h : validateCase P runID index seen item = .ok ()) :
    CaseBalanced item ∧ ExactCounts (item.attempts.map AttemptResult.counts) := by
  simp only [validateCase, then_ok_iff, invalid_eq_ok, decide_eq_false_iff_not, not_lt] at h
  obtain ⟨-, -, hlength, h⟩ := h
  obtain ⟨t, hattempts, h⟩ := bind_ok_iff.mp h
  obtain ⟨rfl, hbounded, hpos, hnumbers⟩ := validateAttempts_ok Totals.bounded_of_nil hattempts
  rw [List.nil_append] at hbounded h
  refine ⟨?_, exactCounts_of_bounded (List.forall_mem_map.mpr hpos) hbounded⟩
  have hmatch := (then_ok_iff.mp h).1
  rw [Totals.of_map] at hmatch
  simp only [matchAttempts, then_ok_iff, invalid_eq_ok] at hmatch
  have hlisted : item.attempts ≠ [] → (!item.attempts.isEmpty) = true := by
    intro hne
    rw [Bool.not_eq_true', List.isEmpty_eq_false_iff]
    exact hne
  refine ⟨hlength, ?_, ?_, ?_, ?_, ?_, ?_⟩
  · rw [List.range_eq_range']
    exact hnumbers
  all_goals
    intro hne
    simp only [hlisted hne, Bool.true_and, decide_eq_false_iff_not, not_or, not_not] at hmatch
    obtain ⟨⟨hin, hout⟩, husage, hknown, hunknown, htools⟩ := hmatch
  · exact hin.symm
  · exact hout.symm
  · -- The two checks together: with all counts known the sum, otherwise nothing.
    rw [sumKnown_map]
    split
    · rename_i hall
      simp only [AttemptResult.counts, hall, Bool.true_and] at hknown
      exact not_not.mp (of_decide_eq_false hknown)
    · rename_i hall
      simpa [AttemptResult.counts, hall] using hunknown
  · exact htools
  · exact husage

theorem validateCase_of_validateShard {key : String} {upload : ShardUpload}
    (h : validateShard P runID shardIndex key upload = .ok ()) :
    ∀ item ∈ upload.cases, ∃ index seen, validateCase P runID index seen item = .ok () := by
  simp only [validateShard, then_ok_iff] at h
  obtain ⟨-, -, -, -, -, -, h⟩ := h
  obtain ⟨t, hcases, -⟩ := bind_ok_iff.mp h
  exact (validateCases_totals Totals.bounded_of_nil hcases).2.2

theorem shardBalanced_of_valid {key : String} {upload : ShardUpload}
    (h : validateShard P runID shardIndex key upload = .ok ()) :
    ShardBalanced upload ∧ (∀ item ∈ upload.cases, ExactCounts (item.attempts.map AttemptResult.counts)) ∧
      ExactCounts (upload.cases.map CaseResult.counts) := by
  have haccepted := validateShard_ok h
  have hall := validateCase_of_validateShard h
  simp only [validateShard, then_ok_iff] at h
  obtain ⟨-, -, -, -, -, -, h⟩ := h
  obtain ⟨t, hcases, htotals⟩ := bind_ok_iff.mp h
  obtain ⟨rfl, hbounded, -⟩ := validateCases_totals Totals.bounded_of_nil hcases
  rw [List.nil_append] at hbounded htotals
  have hbalanced := fun item hitem => caseBalanced_of_valid (hall item hitem).choose_spec.choose_spec
  have hpos : ∀ c ∈ upload.cases.map CaseResult.counts, c.Nonneg :=
    List.forall_mem_map.mpr fun item hitem => (haccepted.cases_accepted item hitem).counts_nonneg
  refine ⟨?_, fun item hitem => (hbalanced item hitem).2, exactCounts_of_bounded hpos hbounded⟩
  rw [Totals.of_map] at htotals
  simp only [validateSummaryTotals, then_ok_iff, invalid_eq_ok, decide_eq_false_iff_not, not_or, not_not] at htotals
  obtain ⟨⟨hin, hout⟩, -, hcalls⟩ := htotals
  -- the last check follows in each of the three branches
  have hcalls' : upload.summary.toolCallCount = (upload.cases.map (·.toolCallCount)).sum ∧ (upload.cases ≠ [] →
      upload.summary.modelCallCount = sumKnown (upload.cases.map (·.modelCallCount))) := by
    rw [sumKnown_map]
    split at hcalls
    · rename_i hempty
      simp only [then_ok_iff, invalid_eq_ok, decide_eq_false_iff_not, not_not] at hcalls
      exact ⟨hcalls.2, fun hne => absurd (List.length_eq_zero_iff.mp hempty) hne⟩
    · split at hcalls
      · rename_i hknown
        simp only [then_ok_iff, invalid_eq_ok, decide_eq_false_iff_not, not_not] at hcalls
        exact ⟨hcalls.2, fun _ => hcalls.1.trans (if_pos hknown).symm⟩
      · rename_i hunknown
        simp only [then_ok_iff, invalid_eq_ok, decide_eq_false_iff_not, not_not, Option.isSome_eq_false_iff,
          Option.isNone_iff_eq_none] at hcalls
        exact ⟨hcalls.2, fun _ => hcalls.1.trans (if_neg hunknown).symm⟩
  exact ⟨haccepted.cases_nodup, fun item hitem => (hbalanced item hitem).1, hin.symm, hout.symm, hcalls'.2, hcalls'.1⟩

/-- The two outcome counts are not negative and add up to the number of cases, if they are 64-bit numbers. -/
theorem outcomes_of_valid {key : String} {upload : ShardUpload}
    (h : validateShard P runID shardIndex key upload = .ok ())
    (hsucceeded : upload.summary.succeeded ≤ maxInt64) (hfailed : upload.summary.failed ≤ maxInt64) :
    upload.summary.succeeded + upload.summary.failed = upload.cases.length ∧
      addInt64 upload.summary.succeeded upload.summary.failed = upload.summary.succeeded + upload.summary.failed := by
  simp only [validateShard, validateSummaryCounts, then_ok_iff, invalid_eq_ok, decide_eq_false_iff_not, not_not, not_or,
    not_lt, Bool.or_eq_false_iff, and_assoc] at h
  obtain ⟨-, -, -, -, htotal, hsum, -, hs, hf, -⟩ := h
  -- Two such numbers that wrap have a negative sum.
  have hexact : addInt64 upload.summary.succeeded upload.summary.failed =
      upload.summary.succeeded + upload.summary.failed := by
    rw [htotal] at hsum
    unfold addInt64 maxInt64 at *
    rw [Int.bmod_def] at hsum ⊢
    split at hsum
    · rename_i hsmall
      rw [if_pos hsmall]
      omega
    · omega
  exact ⟨by rw [← hexact, hsum, htotal], hexact⟩

/-- **Three-level accounting.** -/
theorem shard_accounting {key : String} {upload : ShardUpload}
    (hsucceeded : upload.summary.succeeded ≤ maxInt64) (hfailed : upload.summary.failed ≤ maxInt64)
    (h : validateShard64 P runID shardIndex key upload = .ok ()) :
    ShardBalanced upload ∧ ShardExact upload := by
  rw [validateShard64_eq] at h
  obtain ⟨hbalanced, hattempts, hcases⟩ := shardBalanced_of_valid h
  exact ⟨hbalanced, (outcomes_of_valid h hsucceeded hfailed).2, hattempts, hcases⟩

/-- An attempt with the given outcome and counts. -/
def AttemptResult.reference (number : Int) (outcome decision : String) (inputTokens outputTokens : Int) : AttemptResult where
  number := number
  latencyMS := .finite 5
  outcome := outcome
  failureCategory := if outcome = "succeeded" then "" else "provider"
  errorCode := if outcome = "succeeded" then "" else "rate_limited"
  injectedRule := ""
  injectedFault := ""
  ambiguous := false
  retryDecision := decision
  backoffMS := 0
  inputTokens := inputTokens
  outputTokens := outputTokens
  modelCallCount := some 1
  toolCallCount := 0
  usageComplete := some true
  circuitEvents := []

/-- A case that succeeded in its second attempt. -/
def CaseResult.retried (runID caseID : String) : CaseResult :=
  { CaseResult.reference runID caseID with
    inputTokens := 8, outputTokens := 10, modelCallCount := some 2
    attempts := [.reference 1 "failed" "retry_safe" 3 4, .reference 2 "succeeded" "success" 5 6] }

def ShardUpload.retried (runID caseID : String) : ShardUpload where
  schemaVersion := Results.schemaVersion
  summary := ⟨1, 1, 0, .finite 5, 8, 10, some 2, 0, some true⟩
  cases := [.retried runID caseID]

theorem shard_accounting_retried :
    ShardBalanced (.retried "run" "case") ∧ ShardExact (.retried "run" "case") := by
  have haccepted : validateShard64 (Platform.reference []) "run" 0 (shardKey "run" 0) (.retried "run" "case") = .ok () := by
    decide +kernel
  exact shard_accounting (by decide) (by decide) haccepted

end AgentStorm.Results
