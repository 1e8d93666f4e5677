import AgentStorm.Worker.Runner
import Mathlib.Tactic.Linarith

/-!
# `Worker.Retries` — how far the retry loop goes

The decision after an attempt is downgraded in turn by the permit, the attempt limit, the backoff
budget and the time left. `weighRetry_ok` reads one decision back; `attemptLoop_governed` carries it
over the loop, with the backoff already spent as the accumulator. The only other way out of the loop is
a backoff that cannot be computed (`retry_loop_bounded`). The jitter draw is any rational up to one.
-/

namespace AgentStorm.Worker

open Checks Numeric Python

/-! ## The backoff -/

variable {draw : String → ℚ} {retry : RetryConfig} {caseID : Python.Text} {iteration : Nat}

/-- Why no backoff can be computed: the jitter cannot hash the id, or a backoff is too large for a float. -/
def Incomputable (retry : RetryConfig) (caseID : Python.Text) (error : Error) : Prop :=
  error = .value ∧ retry.jitterRatio ≠ 0 ∧ encodable? caseID = none ∨
  error = .overflow ∧ Float64.bound ≤ 2 * retry.maxBackoffMS

theorem retryBackoffMS_le {seed : Option Nat} {failedAttempt backoffMS : Nat}
    (h : retryBackoffMS draw retry seed caseID iteration failedAttempt = .ok backoffMS) :
    backoffMS ≤ retry.maxBackoffMS := by
  unfold retryBackoffMS at h
  dsimp only at h
  split at h
  · cases h
    exact Nat.min_le_right _ _
  · obtain ⟨_, -, h⟩ := bind_ok_iff.mp h
    split at h
    · cases h
    · cases h
      exact Nat.min_le_left _ _

/-- The jitter at most doubles a backoff. -/
theorem scaled_le (hdraw : ∀ material, draw material ≤ 1) {fields : List Python.Text} {fraction : ℚ}
    (h : drawn draw fields = .ok fraction) {capped : Nat} (hcapped : capped ≤ retry.maxBackoffMS) :
    (capped : ℚ) * (1 - retry.jitterRatio + 2 * retry.jitterRatio * fraction) ≤ 2 * retry.maxBackoffMS := by
  have hfraction : fraction ≤ 1 := by
    unfold drawn at h
    split at h
    · cases h
      exact hdraw _
    · cases h
  have hfactor : 1 - retry.jitterRatio + 2 * retry.jitterRatio * fraction ≤ 2 := by
    have hscaled := mul_le_mul_of_nonneg_left hfraction (mul_nonneg zero_le_two retry.jitter_nonneg)
    have hratio := retry.jitter_le_one
    linarith
  calc (capped : ℚ) * (1 - retry.jitterRatio + 2 * retry.jitterRatio * fraction)
      ≤ capped * 2 := mul_le_mul_of_nonneg_left hfactor (Nat.cast_nonneg _)
    _ ≤ retry.maxBackoffMS * 2 := mul_le_mul_of_nonneg_right (Nat.cast_le.mpr hcapped) zero_le_two
    _ = 2 * retry.maxBackoffMS := mul_comm _ _

theorem retryBackoffMS_error (hdraw : ∀ material, draw material ≤ 1) {seed : Option Nat} {failedAttempt : Nat}
    {error : Error} (h : retryBackoffMS draw retry seed caseID iteration failedAttempt = .error error) :
    Incomputable retry caseID error := by
  unfold retryBackoffMS at h
  dsimp only at h
  split at h
  · cases h
  rename_i hjitter
  generalize hfields : [text (toString (seed.getD 0)), caseID, text (toString iteration),
    text (toString failedAttempt), text "retry-jitter"] = fields at h
  cases hdrawn : drawn draw fields with
  | error =>
    rw [hdrawn] at h
    obtain rfl := Except.error.inj h
    -- of the hashed fields only the id may have no UTF-8 form
    unfold drawn at hdrawn
    split at hdrawn
    · cases hdrawn
    rename_i hnone
    have hsome := isSome_encodable?_join fields
    rw [hnone, ← hfields] at hsome
    simp only [List.all_cons, List.all_nil, encodable?_text, Option.isSome_some, Option.isSome_none, Bool.true_and,
      Bool.and_true] at hsome
    exact .inl ⟨(Except.error.inj hdrawn).symm, hjitter, Option.not_isSome_iff_eq_none.mp (Bool.eq_false_iff.mp hsome.symm)⟩
  | ok =>
    rw [hdrawn] at h
    have hcapped := Nat.min_le_right (retry.initialBackoffMS * 2 ^ (failedAttempt - 1)) retry.maxBackoffMS
    have hscaled := scaled_le hdraw hdrawn hcapped
    have hdouble : (retry.maxBackoffMS : ℚ) ≤ 2 * retry.maxBackoffMS := le_mul_of_one_le_left (Nat.cast_nonneg _) one_le_two
    change (if _ then Except.error Error.overflow else _) = _ at h
    split at h
    · rename_i hlarge
      refine .inr ⟨(Except.error.inj h).symm, ?_⟩
      rcases hlarge with hlarge | hlarge
      · exact hlarge.trans ((Nat.cast_le.mpr hcapped).trans hdouble)
      · exact hlarge.trans hscaled
    · cases h

/-! ## One decision -/

/-- `error` may be tried again: the provider failed before doing anything, or may be asked twice all the same. -/
structure Retryable (retry : RetryConfig) (error : ExecutionError) : Prop where
  category : error.category = .provider
  code : error.code ≠ .circuitOpen
  marked : error.safeToRetry = true ∨ error.ambiguous = true ∧ retry.allowAmbiguousRetries = true

theorem retryable_of_retries {retry : RetryConfig} {error : ExecutionError}
    (h : (retryEligibility error retry).retries = true) : Retryable retry error := by
  unfold retryEligibility at h
  split at h
  · exact absurd h (by decide)
  rename_i hfailed
  obtain ⟨hcategory, hcode⟩ := not_or.mp hfailed
  refine ⟨not_not.mp hcategory, hcode, ?_⟩
  split at h
  · rename_i hsafe
    exact .inl hsafe
  · split at h
    · rename_i hambiguous
      split at h
      · rename_i hallowed
        exact .inr ⟨hambiguous, hallowed⟩
      · exact absurd h (by decide)
    · exact absurd h (by decide)

/-- A decision that survives the permit and the limit: the error is eligible and the permit is not a probe. -/
theorem retryable_of_decideRetry {permit : CircuitPermit} {number : Nat} {error : ExecutionError}
    (h : (decideRetry retry permit number error).retries = true) :
    Retryable retry error ∧ permit.probe = false := by
  have hreplaced : ∀ (decision instead : RetryDecision) (guard : Bool), instead.retries = false →
      (if decision.retries && guard then instead else decision).retries = true →
      decision.retries = true ∧ guard = false := by
    intro decision instead guard hinstead hkept
    cases hdecision : decision.retries <;> cases guard <;> simp_all
  obtain ⟨hprobed, -⟩ := hreplaced _ _ _ (by decide) h
  obtain ⟨heligible, hprobe⟩ := hreplaced _ _ _ (by decide) hprobed
  exact ⟨retryable_of_retries heligible, hprobe⟩

section Case

variable {reliability : Option ReliabilityConfig} {permit : CircuitPermit} {number spent : Nat} {left : ℚ}
  {ending : Ending} {weighed : RetryDecision × Nat}

/-- A decision to retry, in full: the attempt failed with an error that may be tried again, the permit is no probe, and
    the backoff keeps its bound and both budgets. -/
structure Retried (retry : RetryConfig) (permit : CircuitPermit) (spent backoffMS : Nat) (left : ℚ) (ending : Ending) :
    Prop where
  failed : ∃ error, ending = .error error ∧ Retryable retry error
  unprobed : permit.probe = false
  backoffMS_le : backoffMS ≤ retry.maxBackoffMS
  budget : spent + backoffMS ≤ retry.maxCumulativeBackoffMS
  inTime : (backoffMS : ℚ) / 1000 < max 0 left

/-- **The two decisions**: to stop, which costs no backoff, or to retry. -/
theorem weighRetry_ok (h : weighRetry draw reliability caseID iteration permit number spent left ending = .ok weighed) :
    (weighed.1.retries = false ∧ weighed.2 = 0) ∨
    (weighed.1.retries = true ∧
      ∃ config, reliability = some config ∧ Retried config.retry permit spent weighed.2 left ending) := by
  cases ending with
  | ok =>
    cases h
    exact .inl ⟨(by decide : RetryDecision.notNeeded.retries = false), rfl⟩
  | error error =>
    cases reliability with
    | none =>
      cases h
      exact .inl ⟨(by decide : RetryDecision.notRetryable.retries = false), rfl⟩
    | some config =>
      unfold weighRetry at h
      dsimp only [raised] at h
      split at h
      · rename_i hdecision
        obtain ⟨_, hbackoff, h⟩ := bind_ok_iff.mp h
        -- the two budgets, in the order the source looks at them
        split at h
        · cases h
          exact .inl ⟨rfl, rfl⟩
        rename_i hbudget
        split at h
        · cases h
        split at h
        · cases h
          exact .inl ⟨rfl, rfl⟩
        rename_i htime
        cases h
        obtain ⟨hretryable, hprobe⟩ := retryable_of_decideRetry hdecision
        refine .inr ⟨hdecision, config, rfl, ?_⟩
        exact ⟨⟨error, rfl, hretryable⟩, hprobe, retryBackoffMS_le hbackoff, not_lt.mp hbudget, not_le.mp htime⟩
      · rename_i hdecision
        cases h
        exact .inl ⟨Bool.eq_false_iff.mpr hdecision, rfl⟩

/-- A decision raises only where a retry is due and its backoff cannot be computed. -/
theorem weighRetry_error (hdraw : ∀ material, draw material ≤ 1) {error : Error}
    (h : weighRetry draw reliability caseID iteration permit number spent left ending = .error error) :
    permit.probe = false ∧ ∃ config, reliability = some config ∧ number < config.retry.maxAttempts ∧
      (∃ failure, ending = .error failure ∧ Retryable config.retry failure) ∧
      Incomputable config.retry caseID error := by
  cases ending with
  | ok => cases h
  | error failure =>
    cases reliability with
    | none => cases h
    | some config =>
      unfold weighRetry at h
      dsimp only [raised] at h
      split at h
      · rename_i hdecision
        obtain ⟨hretryable, hprobe⟩ := retryable_of_decideRetry hdecision
        refine ⟨hprobe, config, rfl, lt_maxAttempts_of_decideRetry hdecision, ⟨failure, rfl, hretryable⟩, ?_⟩
        cases hbackoff : retryBackoffMS draw config.retry config.seed caseID iteration number with
        | error =>
          rw [hbackoff] at h
          obtain rfl := Except.error.inj h
          exact retryBackoffMS_error hdraw hbackoff
        | ok backoffMS =>
          rw [hbackoff] at h
          change (if _ then _ else _) = _ at h
          split at h
          · cases h
          split at h
          · -- the backoff is within its bound, so the bound is too large for a float
            rename_i hlarge
            refine .inr ⟨(Except.error.inj h).symm, hlarge.trans ?_⟩
            have hle : (backoffMS : ℚ) ≤ config.retry.maxBackoffMS := Nat.cast_le.mpr (retryBackoffMS_le hbackoff)
            have hnonneg : (0 : ℚ) ≤ backoffMS := Nat.cast_nonneg _
            linarith
          · split at h <;> cases h
      · cases h

/-! ## The whole loop -/

/-- What a retried attempt of the case has to be. -/
structure MayRepeat (draw : String → ℚ) (reliability : Option ReliabilityConfig) (caseID : Python.Text)
    (iteration : Nat) (retry : RetryConfig) (attempt : AttemptResult) (invocation : Invocation) : Prop where
  outcome : attempt.outcome = .failed
  category : attempt.failureCategory = some .provider
  code : attempt.errorCode ≠ some .circuitOpen
  marked : ∃ error, (attemptEnd draw reliability caseID iteration attempt.number invocation).2 = .error error ∧
    (error.safeToRetry = true ∨ error.ambiguous = true ∧ retry.allowAmbiguousRetries = true)
  inTime : (attempt.backoffMS : ℚ) / 1000 < max 0 invocation.left

/-- What the loop keeps to from the attempt on that starts after `spent` milliseconds of backoff. -/
structure Governed (draw : String → ℚ) (reliability : Option ReliabilityConfig) (caseID : Python.Text) (iteration : Nat)
    (permit : CircuitPermit) (spent : Nat) (script : List Invocation) (attempts : List AttemptResult) : Prop where
  decisions : attempts.map (·.retryDecision.retries) = List.replicate (attempts.length - 1) true ++ [false]
  backoffs : ∀ config ∈ reliability, (∀ attempt ∈ attempts, attempt.backoffMS ≤ config.retry.maxBackoffMS) ∧
    spent + (attempts.map (·.backoffMS)).sum ≤ config.retry.maxCumulativeBackoffMS
  repeated : ∀ made ∈ attempts.zip script, made.1.retryDecision.retries = true →
    ∃ config, reliability = some config ∧
      MayRepeat draw reliability caseID iteration config.retry made.1 made.2
  probed : permit.probe = true → attempts.length = 1

theorem tryOnce_mayRepeat {invocation : Invocation} {attempt : AttemptResult} {toolPath : List String}
    (htried : tryOnce draw reliability caseID iteration permit number spent invocation =
      .ok (attempt, toolPath, ending))
    (h : Retried retry permit spent attempt.backoffMS invocation.left ending) :
    MayRepeat draw reliability caseID iteration retry attempt invocation := by
  obtain ⟨hend, -, _, hattempt⟩ := tryOnce_ok htried
  obtain ⟨error, rfl, hretryable⟩ := h.failed
  refine ⟨?_, ?_, ?_, ⟨error, ?_, hretryable.marked⟩, h.inTime⟩
  · rw [hattempt]
    rfl
  · rw [hattempt]
    exact congrArg some hretryable.category
  · rw [hattempt]
    exact fun hcode => hretryable.code (Option.some.inj hcode)
  · rw [hattempt]
    exact (congrArg Prod.snd hend).symm

/-- **The loop is governed**, whatever the attempts end in and whatever the clock says. -/
theorem attemptLoop_governed {script : List Invocation} {attempted : Attempted}
    (hspent : ∀ config ∈ reliability, spent ≤ config.retry.maxCumulativeBackoffMS)
    (h : attemptLoop draw reliability caseID iteration permit number spent script = some (.ok attempted)) :
    Governed draw reliability caseID iteration permit spent script attempted.attempts := by
  induction script generalizing number spent attempted with
  | nil => cases h
  | cons invocation script ih =>
    obtain ⟨attempt, _, _, htried, hround⟩ := attemptLoop_cons_ok h
    have hweighed := weighRetry_ok (tryOnce_ok htried).2.1
    rcases hround with ⟨hlast, rfl⟩ | ⟨hgoes, later, hlater, rfl⟩
    · -- the last attempt
      obtain ⟨-, hbackoff⟩ := hweighed.resolve_right fun hretry => absurd hretry.1 (Bool.eq_false_iff.mp hlast)
      change attempt.backoffMS = 0 at hbackoff
      refine ⟨congrArg (· :: []) hlast, fun config hmem => ⟨?_, ?_⟩, ?_, fun _ => rfl⟩
      · intro other hother
        obtain rfl := List.mem_singleton.mp hother
        rw [hbackoff]
        exact Nat.zero_le _
      · simpa only [List.map_cons, List.map_nil, List.sum_singleton, hbackoff, Nat.add_zero] using hspent config hmem
      · intro made hmade hretries
        obtain rfl := List.mem_singleton.mp hmade
        exact absurd hretries (Bool.eq_false_iff.mp hlast)
    · -- one more: the loop goes on with what this backoff leaves of the budget
      obtain ⟨-, config, hconfig, hretried⟩ := hweighed.resolve_left fun hstop => absurd hgoes (Bool.eq_false_iff.mp hstop.1)
      have hbudget : ∀ other ∈ reliability, spent + attempt.backoffMS ≤ other.retry.maxCumulativeBackoffMS := by
        intro other hother
        obtain rfl : config = other := Option.some.inj (hconfig.symm.trans hother)
        exact hretried.budget
      have hrest := ih hbudget hlater
      refine ⟨?_, fun other hother => ⟨?_, ?_⟩, ?_, ?_⟩
      · have hne : later.attempts ≠ [] := by
          intro hnil
          have := hrest.decisions
          rw [hnil] at this
          cases this
        obtain ⟨_, _, hcons⟩ := List.exists_cons_of_ne_nil hne
        rw [List.map_cons, hgoes, hrest.decisions, hcons]
        simp only [List.length_cons, Nat.add_sub_cancel, List.replicate_succ, List.cons_append]
      · obtain rfl : config = other := Option.some.inj (hconfig.symm.trans hother)
        intro other hother'
        rcases List.mem_cons.mp hother' with rfl | hother'
        · exact hretried.backoffMS_le
        · exact (hrest.backoffs config hother).1 other hother'
      · rw [List.map_cons, List.sum_cons, ← Nat.add_assoc]
        exact (hrest.backoffs other hother).2
      · intro made hmade hretries
        rcases List.mem_cons.mp hmade with rfl | hmade
        · exact ⟨config, hconfig, tryOnce_mayRepeat htried hretried⟩
        · exact hrest.repeated made hmade hretries
      · intro hprobe
        rw [hretried.unprobed] at hprobe
        exact Bool.noConfusion hprobe

/-- The loop raises only where the backoff of a retry cannot be computed. -/
theorem attemptLoop_error (hdraw : ∀ material, draw material ≤ 1) {script : List Invocation} {error : Error}
    (h : attemptLoop draw reliability caseID iteration permit number spent script = some (.error error)) :
    permit.probe = false ∧ ∃ config, reliability = some config ∧ Incomputable config.retry caseID error := by
  induction script generalizing number spent with
  | nil => cases h
  | cons invocation script ih =>
    unfold attemptLoop at h
    split at h
    · rename_i raised htried
      obtain rfl := Except.error.inj (Option.some.inj h)
      cases hweighed : weighRetry draw reliability caseID iteration permit number spent invocation.left
          (attemptEnd draw reliability caseID iteration number invocation).2 with
      | ok weighed =>
        simp only [tryOnce, hweighed] at htried
        cases htried
      | error raised =>
        simp only [tryOnce, hweighed] at htried
        obtain rfl := Except.error.inj htried
        obtain ⟨hprobe, config, hconfig, -, -, hraises⟩ := weighRetry_error hdraw hweighed
        exact ⟨hprobe, config, hconfig, hraises⟩
    · split at h
      · obtain ⟨outcome, houtcome, hmap⟩ := Option.map_eq_some_iff.mp h
        cases outcome with
        | ok => cases hmap
        | error =>
          obtain rfl := Except.error.inj hmap
          exact ih houtcome
      · cases h

/-- **The retry loop is bounded and safe.** A case that nothing stops from outside raises, for want of a backoff that can
    be computed, or ends with attempts numbered from one, no more than the limit, of which all but the last and only they
    are retried; the backoffs keep their bounds, a retried attempt failed in a way that may be repeated with time left
    for its backoff, and a probe is tried once. -/
theorem retry_loop_bounded (hdraw : ∀ material, draw material ≤ 1) {script : List Invocation}
    (hscript : attemptLimit reliability ≤ script.length) :
    ∃ outcome, attemptLoop draw reliability caseID iteration permit 1 0 script = some outcome ∧
      (∀ error, outcome = .error error →
        permit.probe = false ∧ ∃ config, reliability = some config ∧ Incomputable config.retry caseID error) ∧
      ∀ attempted, outcome = .ok attempted →
        1 ≤ attempted.attempts.length ∧ attempted.attempts.length ≤ attemptLimit reliability ∧
        attempted.attempts.map (·.number) = List.range' 1 attempted.attempts.length ∧
        Governed draw reliability caseID iteration permit 0 script attempted.attempts := by
  have hpos := attemptLimit_pos reliability
  obtain ⟨outcome, houtcome⟩ := Option.isSome_iff_exists.mp
    (@attemptLoop_isSome draw reliability caseID iteration 1 permit 0 script hpos (by omega))
  refine ⟨outcome, houtcome, ?_, ?_⟩
  · rintro error rfl
    exact attemptLoop_error hdraw houtcome
  rintro attempted rfl
  obtain ⟨hnumbers, hcount⟩ := attemptLoop_numbered hpos houtcome
  have hgoverned := attemptLoop_governed (fun _ _ => Nat.zero_le _) houtcome
  refine ⟨?_, by omega, hnumbers, hgoverned⟩
  -- the list of decisions ends in one, so it is not empty
  have hdecisions := congrArg List.length hgoverned.decisions
  rw [List.length_map, List.length_append, List.length_singleton] at hdecisions
  omega

end Case

/-- A retry section with one retry after a backoff of this length, without jitter. -/
def RetryConfig.once (backoffMS : Nat) (h : 1 ≤ backoffMS) : RetryConfig where
  maxAttempts := 2
  initialBackoffMS := backoffMS
  maxBackoffMS := backoffMS
  maxCumulativeBackoffMS := backoffMS
  jitterRatio := 0
  allowAmbiguousRetries := true
  maxAttempts_pos := by decide
  maxAttempts_le := by decide
  backoff_pos := by simpa using h
  initial_le_max := le_rfl
  jitter_nonneg := le_refl 0
  jitter_le_one := zero_le_one

/-- A reliability section with one retry and one fault rule. -/
def ReliabilityConfig.single (rule : FaultRuleConfig) : ReliabilityConfig where
  seed := some 7
  retry := .once 10 (by decide)
  circuitBreaker := none
  scenario := some { sourceName := "faults", sourceKey := "scenario.json", digest := "", rules := [rule] }

/-- An attempt in which the adapter raises something it does not classify itself. -/
def Invocation.crashing : Invocation where
  remaining := 1
  work := .ran ⟨[], .error .other⟩
  latencyMS := fiveMillis
  left := 1

/-- A rule that delays the adapter on the first attempt. -/
def FaultRuleConfig.delay : FaultRuleConfig := { name := "slow", fault := .latency, probability := 1, delayMS := some 10 }

theorem retry_loop_bounded_crashing :
    ∃ attempted, attemptLoop (fun _ => 0) (some (.single .delay)) (text "case") 0 {} 1 0 [.crashing, .crashing] =
        some (.ok attempted) ∧
      attempted.attempts.length = 2 ∧
      attempted.attempts.map (·.number) = List.range' 1 attempted.attempts.length ∧
      Governed (fun _ => 0) (some (.single .delay)) (text "case") 0 {} 0 [.crashing, .crashing] attempted.attempts := by
  obtain ⟨outcome, houtcome, -, hends⟩ := @retry_loop_bounded (fun _ => 0) (text "case") 0 (some (.single .delay)) {}
    (fun _ => zero_le_one) [.crashing, .crashing] (le_refl 2)
  have hlength : (attemptLoop (fun _ => 0) (some (.single .delay)) (text "case") 0 {} 1 0 [.crashing, .crashing]).map
      (fun outcome => outcome.toOption.map (·.attempts.length)) = some (some 2) := by decide +kernel
  rw [houtcome] at hlength
  cases outcome with
  | error => cases hlength
  | ok attempted =>
    obtain ⟨-, -, hnumbers, hgoverned⟩ := hends attempted rfl
    exact ⟨attempted, houtcome, Option.some.inj (Option.some.inj hlength), hnumbers, hgoverned⟩

/-- One retry after 10 ^ 312 milliseconds, without jitter or faults. -/
def ReliabilityConfig.huge : ReliabilityConfig := ⟨none, .once (10 ^ 312) (Nat.one_le_pow _ _ (by decide)), none, none⟩

/-- **A backoff can be too large to compute.** The section is accepted, and the seconds of its backoff overflow as soon
    as the first attempt has failed, so the case never comes to an end of its own. -/
theorem retry_loop_overflows :
    attemptLoop (fun _ => 0) (some .huge) (text "case") 0 {} 1 0 [.crashing, .crashing] = some (.error .overflow) := by
  have hraised : (attemptLoop (fun _ => 0) (some .huge) (text "case") 0 {} 1 0 [.crashing, .crashing]).map
      (fun outcome => outcome.toOption.isNone) = some true := by decide +kernel
  obtain ⟨outcome, houtcome, hnone⟩ := Option.map_eq_some_iff.mp hraised
  cases outcome with
  | ok => cases hnone
  | error =>
    obtain ⟨-, _, hconfig, hraises⟩ := attemptLoop_error (fun _ => zero_le_one) houtcome
    cases hconfig
    rcases hraises with ⟨-, hjitter, -⟩ | ⟨rfl, -⟩
    · exact absurd rfl hjitter
    · exact houtcome

end AgentStorm.Worker
