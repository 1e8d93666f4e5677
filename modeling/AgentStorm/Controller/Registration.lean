import AgentStorm.Controller.Admission
import AgentStorm.Results.Canonical

/-!
# `Controller.Registration` — the registration of an accepted run

`buildResultRegistration` of `results_client.go` between two validators: the controller's, which
accepted the run, and the Result API's. What the first has checked is what the second asks for, apart
from three texts (`registrable_iff`).
-/

namespace AgentStorm.Controller

open Checks Numeric Reliability Results Text

/-- `reliability.Snapshot` -/
structure Snapshot where
  sourceName : String
  sourceKey : String
  digest : String
  scenario : FaultScenario

/-- `float64(n)`: rounded to 53 bits, half to even. -/
def float64OfInt (n : Int) : Float64 :=
  let unit := 2 ^ (n.natAbs.log2 - 52)
  .finite (n.sign * (Decimal.roundHalfEven n.natAbs unit * unit : Nat) : Int)

def AgentReliabilitySpec.registration (spec : AgentReliabilitySpec) (scenario : Option Snapshot) : RunReliability where
  seed := spec.seed
  retry :=
    { maxAttempts := spec.retry.maxAttempts
      initialBackoffMS := spec.retry.initialBackoffMs
      maxBackoffMS := spec.retry.maxBackoffMs
      maxCumulativeBackoffMS := spec.retry.maxCumulativeBackoffMs
      -- the default is filled in before the pointer is read
      jitterRatio := spec.retry.jitterRatio.getD defaultJitterRatio
      allowAmbiguousRetries := spec.retry.allowAmbiguousRetries }
  circuitBreaker := spec.circuitBreaker.map fun b => ⟨b.failureThreshold, b.openDurationMs⟩
  scenario := scenario.map fun s => ⟨⟨s.sourceName, s.sourceKey⟩, s.digest, s.scenario⟩

def buildResultRegistration (run : ObjectMeta) (spec : AgentTestRunSpec) (scenario : Option Snapshot) : Registration where
  schemaVersion := Results.schemaVersion
  expectedShards := spec.workload.parallelism
  source := ⟨run.namespace, run.name⟩
  target :=
    { provider := spec.target.provider
      model := spec.target.model
      adapterEntrypoint := spec.target.adapterEntrypoint
      pricing := spec.target.pricing.map fun p => ⟨p.inputUSDPerMillionTokens, p.outputUSDPerMillionTokens⟩ }
  dataset := ⟨spec.workload.datasetRef.name, spec.workload.datasetRef.key⟩
  evaluation :=
    { minSuccessRate := spec.evaluation.minSuccessRate
      maxP95MS := spec.evaluation.maxP95LatencyMs.map float64OfInt
      maxFailureRate := spec.evaluation.maxErrorRate }
  reliability := spec.reliability.map fun r => r.registration scenario
  scheduling := some ⟨spec.scheduling.strategy, spec.scheduling.maxWorkers, spec.scheduling.resourceProfile⟩

/-! ## Section by section -/

variable {L : Libraries} {config : SchedulerConfig} {P : Platform}

theorem no_nul_of_identifierPattern {cs : List Char} (h : identifierPattern cs = true) : Char.ofNat 0 ∉ cs := by
  intro hmem
  unfold identifierPattern at h
  split at h
  · cases hmem
  · rename_i c rest
    rw [Bool.and_eq_true, List.all_eq_true] at h
    rcases List.mem_cons.mp hmem with heq | hrest
    · exact absurd (heq ▸ h.1) (by decide)
    · exact absurd (h.2 _ hrest) (by decide)

theorem no_nul_of_entrypointPattern {s : String} (h : entrypointPattern s = true) :
    s.toList.contains (Char.ofNat 0) = false := by
  rw [List.contains_eq_mem, decide_eq_false_iff_not]
  intro hmem
  rcases mem_splitOn (a := ':') hmem with heq | ⟨_, hpart, hmem⟩
  · exact absurd heq (by decide)
  · unfold entrypointPattern at h
    split at h
    · rename_i path function hsplit
      rw [Bool.and_eq_true, List.all_eq_true] at h
      rw [hsplit] at hpart
      rcases List.mem_pair.mp hpart with rfl | rfl
      · rcases mem_splitOn (a := '.') hmem with heq | ⟨name, hname, hmem⟩
        · exact absurd heq (by decide)
        · exact no_nul_of_identifierPattern (h.1 name hname) hmem
      · exact no_nul_of_identifierPattern h.2 hmem
    · cases h

/-- Of the target, only the model is not bounded by the controller. -/
theorem validateTarget_iff {target : AgentTargetSpec} (h : validateTarget L target = .ok ()) :
    Results.validateTarget ⟨target.provider, target.model, target.adapterEntrypoint,
        target.pricing.map fun p => ⟨p.inputUSDPerMillionTokens, p.outputUSDPerMillionTokens⟩⟩ = .ok () ↔
      invalidText target.model 512 = false := by
  simp only [validateTarget, then_ok_iff, reject_eq_ok] at h
  obtain ⟨hprovider, hentrypoint, -, hpricing, -⟩ := h
  have hknown : target.provider ∈ ["fake", "openai-agents", "openai-compatible"] :=
    Decidable.not_not.mp (of_decide_eq_false hprovider)
  have hname : blank target.provider = false ∧ invalidText target.provider 128 = false := by
    simp only [List.mem_cons, List.not_mem_nil, or_false] at hknown
    rcases hknown with heq | heq | heq <;> rw [heq] <;> decide +kernel
  have hentry : invalidText target.adapterEntrypoint 256 = false ∧
      (decide (target.adapterEntrypoint ≠ "") && !entrypointPattern target.adapterEntrypoint) = false := by
    by_cases hempty : target.adapterEntrypoint = ""
    · rw [hempty]
      decide +kernel
    · simp only [ne_eq, hempty, not_false_eq_true, decide_true, Bool.true_and, Bool.or_eq_false_iff,
        decide_eq_false_iff_not, not_lt, Bool.not_eq_false'] at hentrypoint
      rw [hentrypoint.2, invalidText, no_nul_of_entrypointPattern hentrypoint.2,
        decide_eq_false (not_lt.mpr hentrypoint.1)]
      exact ⟨rfl, Bool.and_false _⟩
  have hprices : ((target.pricing.map fun p => (⟨p.inputUSDPerMillionTokens, p.outputUSDPerMillionTokens⟩ : RunPricing)).any
      fun p => !pricePattern p.inputUSDPerMillionTokens || !pricePattern p.outputUSDPerMillionTokens) = false := by
    rw [Option.any_map]
    exact hpricing
  simp only [Results.validateTarget, then_ok_iff, invalid, reject_eq_ok, hname.1, hname.2, hentry.1, hentry.2, hprices,
    Bool.false_or, Bool.or_false, and_true, true_and]

theorem float64OfInt_nonneg {n : Int} (h : 0 ≤ n) : ∃ q, float64OfInt n = .finite q ∧ 0 ≤ q := by
  refine ⟨_, rfl, Int.cast_nonneg ?_⟩
  exact mul_nonneg (Int.sign_nonneg_iff.mpr h) (Int.natCast_nonneg _)

theorem validateEvaluation_ok {spec : AgentEvaluationSpec} (hmin : ratio spec.minSuccessRate = true)
    (hmax : ratio spec.maxErrorRate = true) (hp95 : within 1 none spec.maxP95LatencyMs = true) :
    validateEvaluation ⟨spec.minSuccessRate, spec.maxP95LatencyMs.map float64OfInt, spec.maxErrorRate⟩ = .ok () := by
  have hrate : ∀ name value, ratio value = true → validateRate name value = .ok () := by
    intro name value h
    unfold ratio at h
    cases value with
    | none => rfl
    | some =>
      simp only [Option.all_some, Bool.and_eq_true, Bool.not_eq_true'] at h
      simp [validateRate, invalid, h.1.1, h.1.2, h.2]
  simp only [validateEvaluation, then_ok_iff]
  refine ⟨hrate _ _ hmin, hrate _ _ hmax, ?_⟩
  cases hvalue : spec.maxP95LatencyMs with
  | none => rfl
  | some n =>
    have hpos : 1 ≤ n := by
      rw [hvalue] at hp95
      simpa [within] using hp95
    obtain ⟨q, hq, hnonneg⟩ := float64OfInt_nonneg (le_trans (by decide) hpos)
    simp [invalid, hq, validMetric, Float64.lt, hnonneg]

/-- The retry section after defaults, a breaker and a seed pass as they are. -/
theorem validateReliability_ok {spec spec' : AgentReliabilitySpec} (h : validateReliability spec = .ok spec')
    (hjitter : ratio spec.retry.jitterRatio = true) :
    Results.validateReliability P (spec'.registration none) = .ok () ∧ spec'.scenarioRef = spec.scenarioRef ∧
      ∀ ref, spec.scenarioRef = some ref → spec'.seed.isSome = true ∧ blank ref.name = false ∧ blank ref.key = false := by
  simp only [validateReliability, then_ok_iff] at h
  obtain ⟨hseed, href, hretry, hbreaker, h⟩ := h
  cases h
  refine ⟨?_, rfl, fun ref hscenario => ?_⟩
  · simp only [validateRetry, then_ok_iff, reject_eq_ok, decide_eq_false_iff_not, not_or, not_lt] at hretry
    obtain ⟨⟨hlow, hhigh⟩, ⟨hinitial, -, hcumulative⟩, horder, -⟩ := hretry
    have hmetric : validMetric (spec.retry.defaults.jitterRatio.getD defaultJitterRatio) = true ∧
        (spec.retry.defaults.jitterRatio.getD defaultJitterRatio).lt 0 = false ∧
        (spec.retry.defaults.jitterRatio.getD defaultJitterRatio).gt 1 = false := by
      show validMetric (spec.retry.jitterRatio.getD defaultJitterRatio) = true ∧
        (spec.retry.jitterRatio.getD defaultJitterRatio).lt 0 = false ∧
        (spec.retry.jitterRatio.getD defaultJitterRatio).gt 1 = false
      cases hvalue : spec.retry.jitterRatio with
      | none => decide +kernel
      | some =>
        rw [hvalue] at hjitter
        simpa [ratio, and_assoc] using hjitter
    simp only [Results.validateReliability, AgentReliabilitySpec.registration, then_ok_iff, invalid, reject_eq_ok]
    refine ⟨reject_eq_ok.mp hseed, ?_, ?_, rfl⟩
    · rw [hmetric.1, hmetric.2.1, hmetric.2.2, Bool.not_true, Bool.or_false, Bool.or_false, Bool.or_false]
      exact decide_eq_false (by omega)
    · rw [Option.any_map]
      exact reject_eq_ok.mp hbreaker
  · rw [hscenario] at href
    have hcheck : validateScenarioRef spec.seed ref = .ok () := href
    simp only [validateScenarioRef, then_ok_iff, reject_eq_ok, Bool.or_eq_false_iff] at hcheck
    obtain ⟨hsome, ⟨hname, -⟩, hkey, -⟩ := hcheck
    exact ⟨by simpa using hsome, hname, hkey⟩

theorem validateScheduling_ok {workload : AgentWorkloadSpec} {spec spec' : AgentSchedulingSpec} {config' : SchedulerConfig}
    (hconfig : config.validateAndDefault L = .ok config') (h : validateScheduling L config' workload spec = .ok spec') :
    Results.validateScheduling ⟨spec'.strategy, spec'.maxWorkers, spec'.resourceProfile⟩ = .ok () := by
  simp only [SchedulerConfig.validateAndDefault, then_ok_iff] at hconfig
  obtain ⟨hworkers, -, -, -, hconfig⟩ := hconfig
  cases hconfig
  simp only [validateScheduling, then_ok_iff] at h
  obtain ⟨hstrategy, hmax, hprofile, -, -, -, -, -, h⟩ := h
  cases h
  simp only [reject_eq_ok, decide_eq_false_iff_not, not_or, not_lt] at hworkers hmax
  simp only [Results.validateScheduling, then_ok_iff, invalid, reject_eq_ok]
  exact ⟨reject_eq_ok.mp hstrategy, decide_eq_false (by omega), reject_eq_ok.mp hprofile⟩

theorem validateWorkload_ok {spec spec' : AgentWorkloadSpec} (h : validateWorkload spec = .ok spec') :
    (1 ≤ spec'.parallelism ∧ spec'.parallelism ≤ 10000) ∧ blank spec'.datasetRef.name = false ∧
      blank spec'.datasetRef.key = false := by
  simp only [validateWorkload, then_ok_iff] at h
  obtain ⟨hdataset, hpositive, hmax, h⟩ := h
  cases h
  simp only [reject_eq_ok, decide_eq_false_iff_not, not_or, not_lt, Bool.or_eq_false_iff] at hdataset hpositive hmax
  exact ⟨⟨hpositive.1, hmax⟩, hdataset⟩

/-! ## The whole registration -/

/-- The snapshot of the scenario that the run refers to; its canonical form is within the limit. -/
def Snapshotted (P : Platform) (spec : AgentTestRunSpec) (scenario : Option Snapshot) : Prop :=
  match spec.reliability.bind (·.scenarioRef), scenario with
  | none, none => True
  | some ref, some snapshot => snapshot.sourceName = ref.name ∧ snapshot.sourceKey = ref.key ∧
      ∃ payload canonical, parseScenario P payload = .ok (snapshot.scenario, canonical, snapshot.digest) ∧
        canonical.length ≤ maxScenarioBytes
  | _, _ => False

/-- A reliability section passes together with the snapshot it refers to. -/
theorem validateReliability_registration {F : FloatFormat} (hP : UsesJSON P F) {spec spec' : AgentTestRunSpec}
    {scenario : Option Snapshot} {r : AgentReliabilitySpec} (hspec : spec.reliability.all AgentReliabilitySpec.schemaValid = true)
    (hadmitted : spec.reliability.mapM validateReliability = .ok spec'.reliability)
    (hscenario : Snapshotted P spec' scenario) (hr : spec'.reliability = some r) :
    Results.validateReliability P (r.registration scenario) = .ok () := by
  cases hsection : spec.reliability with
  | none =>
    rw [hsection, hr] at hadmitted
    cases hadmitted
  | some section_ =>
    rw [hsection, hr] at hadmitted
    rw [hsection] at hspec
    have hvalid : validateReliability section_ = .ok r := by
      obtain ⟨r', hvalid, heq⟩ := map_ok_iff.mp hadmitted
      rwa [Option.some.inj heq] at hvalid
    have hschema : section_.schemaValid = true := hspec
    simp only [AgentReliabilitySpec.schemaValid, Bool.and_eq_true] at hschema
    obtain ⟨hplain, href, hsource⟩ := @validateReliability_ok P _ _ hvalid hschema.1.2
    unfold Snapshotted at hscenario
    rw [hr, Option.bind_some] at hscenario
    split at hscenario
    · exact hplain
    · rename_i ref snapshot hsome
      obtain ⟨hname, hkey, _, _, hparse, hsize⟩ := hscenario
      obtain ⟨hseed, hblankName, hblankKey⟩ := hsource ref (href ▸ hsome)
      exact (stable_of_length hP hparse hsize).2 (r.registration none) ⟨snapshot.sourceName, snapshot.sourceKey⟩
        hplain hseed (hname ▸ hblankName) (hkey ▸ hblankKey)
    · exact absurd hscenario id

/-- The texts of an accepted run that the controller does not bound fit the Result API's columns. -/
def textsFit (spec : AgentTestRunSpec) : Bool :=
  !invalidText spec.target.model 512 && !invalidText spec.workload.datasetRef.name 253 &&
    !invalidText spec.workload.datasetRef.key 1024

/-- **An accepted run can be registered exactly if its model and its dataset reference fit.** -/
theorem registrable_iff {F : FloatFormat} (hP : UsesJSON P F) {run : ObjectMeta} {spec spec' : AgentTestRunSpec}
    {scenario : Option Snapshot} (huid : runIDPattern run.uid = true) (hnamespace : isDNS1123Label run.namespace = true)
    (hname : isDNS1123Subdomain run.name = true) (hschema : spec.schemaValid = true)
    (haccepted : validateAndDefaultWithScheduler L config spec = .ok spec') (hscenario : Snapshotted P spec' scenario) :
    validateRegistration P run.uid (registrationKey run.uid) (buildResultRegistration run spec' scenario) = .ok () ↔
      textsFit spec' = true := by
  have hadmitted := admitted_of_ok haccepted
  simp only [AgentTestRunSpec.schemaValid, Bool.and_eq_true] at hschema
  obtain ⟨hnamespaceSize, hnamespacePlain⟩ := plain_of_isDNS1123Label hnamespace
  obtain ⟨hnameSize, hnamePlain⟩ := plain_of_isDNS1123Subdomain hname
  have htarget := hadmitted.target_eq ▸ validateTarget_iff hadmitted.target
  have hevaluation := validateEvaluation_ok hschema.1.1.1.1.1.1.2 hschema.1.1.1.1.1.2 hschema.1.1.1.1.2
  rw [← hadmitted.evaluation_eq] at hevaluation
  obtain ⟨config', hconfig, hvalid⟩ := hadmitted.scheduling
  have hscheduling := validateScheduling_ok hconfig hvalid
  obtain ⟨hshards, hdatasetName, hdatasetKey⟩ := validateWorkload_ok hadmitted.workload
  have hreliability : ∀ r, spec'.reliability = some r → Results.validateReliability P (r.registration scenario) = .ok () :=
    fun r => validateReliability_registration hP hschema.1.2 hadmitted.reliability hscenario
  have hsource : invalidText run.namespace 253 = false ∧ invalidText run.name 253 = false := by
    rw [invalidText, invalidText, hnamespacePlain.no_nul, hnamePlain.no_nul]
    exact ⟨Bool.or_eq_false_iff.mpr ⟨decide_eq_false (by omega), rfl⟩,
      Bool.or_eq_false_iff.mpr ⟨decide_eq_false (by omega), rfl⟩⟩
  have hcount : decide (spec'.workload.parallelism < 1 ∨ 10000 < spec'.workload.parallelism) = false :=
    decide_eq_false (by omega)
  -- every check but those of the three texts is known to pass; the reliability section is optional
  cases hsection : spec'.reliability with
  | none =>
    simp [validateRegistration, buildResultRegistration, validateRunID, invalid, textsFit, hsection, huid,
      hcount, hnamespacePlain.not_blank, hnamePlain.not_blank, hsource.1, hsource.2, htarget, hevaluation, hscheduling,
      hdatasetName, hdatasetKey, and_assoc]
  | some r =>
    simp [validateRegistration, buildResultRegistration, validateRunID, invalid, textsFit, hsection, huid,
      hcount, hnamespacePlain.not_blank, hnamePlain.not_blank, hsource.1, hsource.2, htarget, hevaluation, hscheduling,
      hdatasetName, hdatasetKey, hreliability r hsection, and_assoc]

/-! ## A model that does not fit -/

/-- Libraries that refuse every URL and accept every pattern and label. -/
def Libraries.withoutURLs : Libraries where
  parseURL _ := none
  compiles _ := true
  isQualifiedName _ := true
  quote s := "\"" ++ s ++ "\""

def SchedulerConfig.indexedOnly : SchedulerConfig := ⟨false, "", 0, 0, 0⟩

/-- A run of the fake provider with a fault scenario; the defaults are filled in. -/
def scenarioRun (model : String) : AgentTestRunSpec where
  target := ⟨"fake", model, "", "agents.demo:build", some ⟨"1.5", "2"⟩, some 256, .absent, none, none⟩
  workload := ⟨⟨"cases", "cases.jsonl"⟩, 2, 1, 1, 900⟩
  evaluation := ⟨some (.finite 1), none, some 1500⟩
  telemetry := ⟨"omit", []⟩
  reliability := some ⟨some 7, some ⟨"faults", "scenario.json"⟩, ⟨3, 100, 2000, 5000, some (.finite 0), false⟩, some ⟨5, 1000⟩⟩
  image := "worker:1"
  scheduling := ⟨"indexed", 1, "small", [], []⟩

def scenarioRunMeta : ObjectMeta := ⟨"default", "demo", "0c9b2f6e"⟩

def scenarioRunSnapshot : Snapshot where
  sourceName := "faults"
  sourceKey := "scenario.json"
  digest := "sha256:" ++ checksumHex (marshalScenario integerFormat (rateLimited ["a < b"]))
  scenario := rateLimited ["a < b"]

theorem snapshotted_scenarioRun (model : String) :
    Snapshotted (Platform.withJSON integerFormat) (scenarioRun model) (some scenarioRunSnapshot) := by
  have hnormal : Normal integerFormat (rateLimited ["a < b"]) := normal_rateLimited (by decide)
  have hparse := parseScenario_writeScenario (usesJSON_withJSON integerFormat) hnormal false (by decide +kernel)
  exact ⟨rfl, rfl, _, _, hparse, by decide +kernel⟩

def longModel : String := String.ofList (List.replicate 513 'm')

/-- Only the target of the run depends on the libraries. -/
theorem accepted_scenarioRun {target : AgentTargetSpec} (htarget : validateTarget L target = .ok ()) :
    validateAndDefaultWithScheduler L .indexedOnly { scenarioRun "" with target } = .ok { scenarioRun "" with target } := by
  have hdefaults : SchedulerConfig.indexedOnly.defaults = ⟨false, "", 100, 1000, 2⟩ := by decide +kernel
  have hconfig : SchedulerConfig.indexedOnly.validateAndDefault L = .ok ⟨false, "", 100, 1000, 2⟩ := by
    rw [SchedulerConfig.validateAndDefault, hdefaults]
    rfl
  have htelemetry : validateTelemetry L (scenarioRun "").telemetry = .ok ⟨"omit", []⟩ := rfl
  have hreliability : (scenarioRun "").reliability.mapM validateReliability = .ok (scenarioRun "").reliability := by
    decide +kernel
  have hworkload : validateWorkload (scenarioRun "").workload = .ok (scenarioRun "").workload := by decide +kernel
  have hscheduling : validateScheduling L ⟨false, "", 100, 1000, 2⟩ (scenarioRun "").workload
      (scenarioRun "").scheduling = .ok (scenarioRun "").scheduling := rfl
  have himage : reject (blank (scenarioRun "").image) "runner.image is required" = .ok () := by decide +kernel
  exact bind_ok_iff.mpr ⟨_, hconfig, then_ok_iff.mpr ⟨htarget, bind_ok_iff.mpr ⟨_, htelemetry, bind_ok_iff.mpr
    ⟨_, hreliability, then_ok_iff.mpr ⟨himage, bind_ok_iff.mpr ⟨_, hworkload, bind_ok_iff.mpr ⟨_, hscheduling, rfl⟩⟩⟩⟩⟩⟩⟩

/-- A run with a fault scenario and a model name of usual length is accepted and registered. -/
theorem registrable_scenarioRun :
    validateRegistration (Platform.withJSON integerFormat) scenarioRunMeta.uid (registrationKey scenarioRunMeta.uid)
      (buildResultRegistration scenarioRunMeta (scenarioRun "demo-1") (some scenarioRunSnapshot)) = .ok () := by
  have huid : runIDPattern scenarioRunMeta.uid = true := by decide +kernel
  have hnamespace : isDNS1123Label scenarioRunMeta.namespace = true := by decide +kernel
  have hname : isDNS1123Subdomain scenarioRunMeta.name = true := by decide +kernel
  have hschema : (scenarioRun "demo-1").schemaValid = true := by decide +kernel
  have htarget : validateTarget .withoutURLs (scenarioRun "demo-1").target = .ok () := by decide +kernel
  have hfit : textsFit (scenarioRun "demo-1") = true := by decide +kernel
  exact (registrable_iff (usesJSON_withJSON integerFormat) huid hnamespace hname hschema
    (accepted_scenarioRun htarget) (snapshotted_scenarioRun "demo-1")).mpr hfit

/-- With a longer model name it is accepted as well, and never registered. -/
theorem registrable_longModel :
    (scenarioRun longModel).schemaValid = true ∧
    validateAndDefaultWithScheduler .withoutURLs .indexedOnly (scenarioRun longModel) = .ok (scenarioRun longModel) ∧
    Snapshotted (Platform.withJSON integerFormat) (scenarioRun longModel) (some scenarioRunSnapshot) ∧
    validateRegistration (Platform.withJSON integerFormat) scenarioRunMeta.uid (registrationKey scenarioRunMeta.uid)
      (buildResultRegistration scenarioRunMeta (scenarioRun longModel) (some scenarioRunSnapshot)) =
        .error (.validation "target fields exceed their size limit or contain NUL") := by
  refine ⟨by decide +kernel, accepted_scenarioRun (by decide +kernel),
    snapshotted_scenarioRun longModel, by decide +kernel⟩

end AgentStorm.Controller
