import AgentStorm.Foundation.Checks
import AgentStorm.Foundation.Numeric
import AgentStorm.Foundation.Text

/-!
# `Reliability.Scenario` — fault scenario documents

The fault scenario of `internal/reliability/scenario.go` and its validation. Validation also normalizes: a
rule without attempts selects the first one.
-/

namespace AgentStorm.Reliability

open Checks Numeric Text

structure FaultRule where
  name : String
  fault : String
  probability : Option Float64
  caseIDs : List String
  iterations : List Int
  attempts : List Int
  delayMS : Option Int
  statusCode : Option Int
  toolName : String
  deriving DecidableEq

structure FaultScenario where
  apiVersion : String
  kind : String
  /-- `none` is the nil slice: it has no rules either, but it is written as `null`. -/
  rules : Option (List FaultRule)
  deriving DecidableEq

def scenarioAPIVersion : String := "agentstorm.io/v1alpha1"
def scenarioKind : String := "FaultScenario"
def maxScenarioBytes : Nat := 64 * 1024
def maxRules : Nat := 100

def supportedFaults : List String :=
  ["latency", "timeout", "http_error", "malformed_response", "rate_limit", "tool_error"]

/-- The three selector loops; each list is scanned in order and stops at its first bad or repeated item.
    `quote` is Go's `%q`. -/
def validateSelectors (quote : String → String) (rule : FaultRule) : Except String Unit := do
  scan (fun caseID => !blank caseID && decide (caseID.utf8ByteSize ≤ 512))
    "caseIDs must contain non-empty strings of at most 512 bytes"
    (fun caseID => "caseIDs contains duplicate " ++ quote caseID) [] rule.caseIDs
  scan (fun iteration => decide (0 ≤ iteration)) "iterations must be non-negative"
    (fun iteration => "iterations contains duplicate " ++ toString iteration) [] rule.iterations
  scan (fun attempt => decide (1 ≤ attempt) && decide (attempt ≤ 10)) "attempts must be between 1 and 10"
    (fun attempt => "attempts contains duplicate " ++ toString attempt) [] rule.attempts
where
  scan {α : Type} [DecidableEq α] (ok : α → Bool) (bad : String) (repeated : α → String) :
      List α → List α → Except String Unit
    | _, [] => .ok ()
    | seen, x :: xs =>
      if !ok x then .error bad
      else if x ∈ seen then .error (repeated x)
      else scan ok bad repeated (x :: seen) xs

def validateRule (quote : String → String) (rule : FaultRule) : Except String FaultRule := do
  if blank rule.name || decide (128 < rule.name.utf8ByteSize) then
    throw "name must be a non-empty string of at most 128 bytes"
  if rule.fault ∉ supportedFaults then
    throw ("unsupported fault " ++ quote rule.fault)
  match rule.probability with
  | none => throw "probability must be between 0 and 1"
  | some p => if p.lt 0 || p.gt 1 then throw "probability must be between 0 and 1"
  validateSelectors quote rule
  let rule := if rule.attempts.isEmpty then { rule with attempts := [1] } else rule
  if rule.fault = "latency" ∨ rule.fault = "timeout" then
    match rule.delayMS with
    | none => throw (rule.fault ++ " requires a non-negative delayMs")
    | some delay => if delay < 0 then throw (rule.fault ++ " requires a non-negative delayMs")
    if rule.statusCode.isSome || rule.toolName != "" then
      throw (rule.fault ++ " does not accept statusCode or toolName")
  else if rule.fault = "http_error" then
    match rule.statusCode with
    | none => throw "http_error requires statusCode between 400 and 599"
    | some code => if code < 400 ∨ 599 < code then throw "http_error requires statusCode between 400 and 599"
    if rule.delayMS.isSome || rule.toolName != "" then
      throw "http_error does not accept delayMs or toolName"
  else if rule.fault = "tool_error" then
    if 512 < rule.toolName.utf8ByteSize then
      throw "toolName must be at most 512 bytes"
    if rule.delayMS.isSome || rule.statusCode.isSome then
      throw "tool_error does not accept delayMs or statusCode"
  else if rule.delayMS.isSome || rule.statusCode.isSome || rule.toolName != "" then
    throw (rule.fault ++ " does not accept delayMs, statusCode, or toolName")
  return rule

/-- Validate and normalize the rules in order; names must be distinct. -/
def validateRules (quote : String → String) (seen : List String) (index : Nat) :
    List FaultRule → Except String (List FaultRule)
  | [] => .ok []
  | rule :: rules =>
    match validateRule quote rule with
    | .error message => .error ("rules[" ++ toString index ++ "]: " ++ message)
    | .ok rule' =>
      if rule'.name ∈ seen then
        .error ("rules[" ++ toString index ++ "]: duplicate rule name " ++ quote rule'.name)
      else (validateRules quote (rule'.name :: seen) (index + 1) rules).map (rule' :: ·)

def validateScenario (quote : String → String) (scenario : FaultScenario) : Except String FaultScenario := do
  if scenario.apiVersion ≠ scenarioAPIVersion ∨ scenario.kind ≠ scenarioKind then
    throw "FaultScenario requires apiVersion \"agentstorm.io/v1alpha1\" and kind \"FaultScenario\""
  if maxRules < (scenario.rules.getD []).length then
    throw "FaultScenario cannot contain more than 100 rules"
  let rules ← validateRules quote [] 0 (scenario.rules.getD [])
  return { scenario with rules := scenario.rules.map fun _ => rules }

/-! ## What validation accepts -/

variable {rule : FaultRule}

/-- A rule without attempts selects the first one. -/
def normalizeRule (rule : FaultRule) : FaultRule := if rule.attempts.isEmpty then { rule with attempts := [1] } else rule

/-- The last part of `validateRule`: the fields that belong to the fault. -/
def checkFields (rule : FaultRule) : Except String FaultRule :=
  if rule.fault = "latency" ∨ rule.fault = "timeout" then
    match rule.delayMS with
    | none => .error (rule.fault ++ " requires a non-negative delayMs")
    | some delay =>
      if delay < 0 then .error (rule.fault ++ " requires a non-negative delayMs")
      else if rule.statusCode.isSome || rule.toolName != "" then
        .error (rule.fault ++ " does not accept statusCode or toolName")
      else .ok rule
  else if rule.fault = "http_error" then
    match rule.statusCode with
    | none => .error "http_error requires statusCode between 400 and 599"
    | some code =>
      if code < 400 ∨ 599 < code then .error "http_error requires statusCode between 400 and 599"
      else if rule.delayMS.isSome || rule.toolName != "" then
        .error "http_error does not accept delayMs or toolName"
      else .ok rule
  else if rule.fault = "tool_error" then
    if 512 < rule.toolName.utf8ByteSize then .error "toolName must be at most 512 bytes"
    else if rule.delayMS.isSome || rule.statusCode.isSome then
      .error "tool_error does not accept delayMs or statusCode"
    else .ok rule
  else if rule.delayMS.isSome || rule.statusCode.isSome || rule.toolName != "" then
    .error (rule.fault ++ " does not accept delayMs, statusCode, or toolName")
  else .ok rule

theorem validateRule_eq (quote : String → String) (rule : FaultRule) :
    validateRule quote rule =
      if blank rule.name || decide (128 < rule.name.utf8ByteSize) then
        .error "name must be a non-empty string of at most 128 bytes"
      else if rule.fault ∉ supportedFaults then .error ("unsupported fault " ++ quote rule.fault)
      else
        match rule.probability with
        | none => .error "probability must be between 0 and 1"
        | some p =>
          if p.lt 0 || p.gt 1 then .error "probability must be between 0 and 1"
          else validateSelectors quote rule >>= fun _ => checkFields (normalizeRule rule) :=
  rfl

/-- The fields of a rule fit its fault. -/
def FieldsFit (rule : FaultRule) : Prop :=
  if rule.fault = "latency" ∨ rule.fault = "timeout" then
    (∃ delay, rule.delayMS = some delay ∧ 0 ≤ delay) ∧ rule.statusCode = none ∧ rule.toolName = ""
  else if rule.fault = "http_error" then
    (∃ code, rule.statusCode = some code ∧ 400 ≤ code ∧ code ≤ 599) ∧ rule.delayMS = none ∧ rule.toolName = ""
  else if rule.fault = "tool_error" then
    rule.toolName.utf8ByteSize ≤ 512 ∧ rule.delayMS = none ∧ rule.statusCode = none
  else rule.delayMS = none ∧ rule.statusCode = none ∧ rule.toolName = ""

theorem checkFields_ok_iff {rule' : FaultRule} :
    checkFields rule = .ok rule' ↔ FieldsFit rule ∧ rule = rule' := by
  unfold checkFields FieldsFit
  split
  · cases rule.delayMS <;> simp [ite_error_ok_iff, and_assoc]
  split
  · cases rule.statusCode <;> simp [ite_error_ok_iff, and_assoc]
  split
  · simp [ite_error_ok_iff, and_assoc]
  · simp [ite_error_ok_iff, and_assoc]

theorem scan_ok_iff {α : Type} [DecidableEq α] {ok : α → Bool} {bad : String} {repeated : α → String} {seen xs : List α} :
    validateSelectors.scan ok bad repeated seen xs = .ok () ↔
      (∀ x ∈ xs, ok x = true) ∧ xs.Nodup ∧ ∀ x ∈ xs, x ∉ seen := by
  induction xs generalizing seen with
  | nil => simp [validateSelectors.scan]
  | cons x xs ih =>
    -- `seen` holds the items before this one, so that not repeating any of them is being distinct
    unfold validateSelectors.scan
    by_cases hok : ok x = true
    · by_cases hseen : x ∈ seen
      · simp [hok, hseen]
      · simp only [hok, hseen, Bool.not_true, Bool.false_eq_true, if_false, ih, List.forall_mem_cons, List.nodup_cons,
          true_and, not_false_eq_true]
        constructor
        · rintro ⟨hall, hnodup, hnew⟩
          exact ⟨hall, ⟨fun hx => hnew x hx List.mem_cons_self, hnodup⟩,
            fun y hy hmem => hnew y hy (List.mem_cons_of_mem x hmem)⟩
        · rintro ⟨hall, ⟨hx, hnodup⟩, hnew⟩
          refine ⟨hall, hnodup, fun y hy hmem => ?_⟩
          rcases List.mem_cons.mp hmem with rfl | hmem
          · exact hx hy
          · exact hnew y hy hmem
    · simp [hok]

/-- What `validateRule` asks for. -/
structure RuleAccepted (rule : FaultRule) : Prop where
  name : blank rule.name = false ∧ rule.name.utf8ByteSize ≤ 128
  fault : rule.fault ∈ supportedFaults
  probability : ∃ p, rule.probability = some p ∧ p.lt 0 = false ∧ p.gt 1 = false
  caseIDs : (∀ id ∈ rule.caseIDs, blank id = false ∧ id.utf8ByteSize ≤ 512) ∧ rule.caseIDs.Nodup
  iterations : (∀ n ∈ rule.iterations, 0 ≤ n) ∧ rule.iterations.Nodup
  attempts : (∀ n ∈ rule.attempts, 1 ≤ n ∧ n ≤ 10) ∧ rule.attempts.Nodup
  fields : FieldsFit rule

theorem validateSelectors_ok_iff {quote : String → String} :
    validateSelectors quote rule = .ok () ↔
      ((∀ id ∈ rule.caseIDs, blank id = false ∧ id.utf8ByteSize ≤ 512) ∧ rule.caseIDs.Nodup) ∧
      ((∀ n ∈ rule.iterations, 0 ≤ n) ∧ rule.iterations.Nodup) ∧
      (∀ n ∈ rule.attempts, 1 ≤ n ∧ n ≤ 10) ∧ rule.attempts.Nodup := by
  unfold validateSelectors
  rw [then_ok_iff, then_ok_iff, scan_ok_iff, scan_ok_iff, scan_ok_iff]
  simp

@[simp] theorem normalizeRule_name (rule : FaultRule) : (normalizeRule rule).name = rule.name := by
  unfold normalizeRule
  split <;> rfl

theorem fieldsFit_normalizeRule : FieldsFit (normalizeRule rule) ↔ FieldsFit rule := by
  unfold normalizeRule
  split <;> rfl

theorem validateRule_ok_iff {quote : String → String} {rule' : FaultRule} :
    validateRule quote rule = .ok rule' ↔ RuleAccepted rule ∧ normalizeRule rule = rule' := by
  rw [validateRule_eq]
  constructor
  · -- the checks in source order; each `split` leaves what the passed one says
    intro h
    split at h
    · cases h
    rename_i hname
    split at h
    · cases h
    rename_i hfault
    split at h
    · cases h
    rename_i p hp
    split at h
    · cases h
    rename_i hrange
    obtain ⟨hselectors, h⟩ := then_ok_iff.mp h
    obtain ⟨hcases, hiterations, hattempts⟩ := validateSelectors_ok_iff.mp hselectors
    obtain ⟨hfields, rfl⟩ := checkFields_ok_iff.mp h
    simp only [Bool.or_eq_true, decide_eq_true_eq, not_or, Bool.not_eq_true, not_lt] at hname hrange
    exact ⟨⟨hname, not_not.mp hfault, ⟨p, hp, hrange⟩, hcases, hiterations, hattempts,
      fieldsFit_normalizeRule.mp hfields⟩, rfl⟩
  · rintro ⟨h, rfl⟩
    obtain ⟨p, hp, hlow, hhigh⟩ := h.probability
    have hselectors : validateSelectors quote rule = .ok () :=
      validateSelectors_ok_iff.mpr ⟨h.caseIDs, h.iterations, h.attempts⟩
    rw [if_neg (by simp [h.name.1, h.name.2]), if_neg (not_not.mpr h.fault), hp]
    show (if p.lt 0 || p.gt 1 then _ else _) = _
    rw [if_neg (by simp [hlow, hhigh]), hselectors]
    exact checkFields_ok_iff.mpr ⟨fieldsFit_normalizeRule.mpr h.fields, rfl⟩

theorem ruleAccepted_normalizeRule (h : RuleAccepted rule) : RuleAccepted (normalizeRule rule) := by
  unfold normalizeRule
  split
  · exact ⟨h.name, h.fault, h.probability, h.caseIDs, h.iterations, by simp, h.fields⟩
  · exact h

theorem normalizeRule_idem (rule : FaultRule) : normalizeRule (normalizeRule rule) = normalizeRule rule := by
  unfold normalizeRule
  by_cases hempty : rule.attempts.isEmpty = true
  · simp [hempty]
  · simp [hempty]

theorem validateRules_ok_iff {quote : String → String} {seen : List String} {index : Nat} {rules rules' : List FaultRule} :
    validateRules quote seen index rules = .ok rules' ↔
      (∀ rule ∈ rules, RuleAccepted rule) ∧ (rules.map (·.name)).Nodup ∧ (∀ rule ∈ rules, rule.name ∉ seen) ∧
      rules.map normalizeRule = rules' := by
  induction rules generalizing seen index rules' with
  | nil => simp [validateRules]
  | cons rule rules ih =>
    unfold validateRules
    constructor
    · intro h
      split at h
      · cases h
      rename_i rule' hrule
      obtain ⟨haccepted, rfl⟩ := validateRule_ok_iff.mp hrule
      obtain ⟨hnew, h⟩ := ite_error_ok_iff.mp h
      obtain ⟨rest, hrest, rfl⟩ := map_ok_iff.mp h
      obtain ⟨hall, hnodup, hseen, rfl⟩ := ih.mp hrest
      rw [normalizeRule_name] at hnew hseen
      refine ⟨List.forall_mem_cons.mpr ⟨haccepted, hall⟩, ?_, ?_, rfl⟩
      · rw [List.map_cons, List.nodup_cons]
        refine ⟨fun hmem => ?_, hnodup⟩
        obtain ⟨other, hother, hname⟩ := List.mem_map.mp hmem
        exact hseen other hother (hname ▸ List.mem_cons_self)
      · exact List.forall_mem_cons.mpr ⟨hnew, fun other hother hmem => hseen other hother (List.mem_cons_of_mem _ hmem)⟩
    · rintro ⟨hall, hnodup, hseen, rfl⟩
      obtain ⟨haccepted, hall⟩ := List.forall_mem_cons.mp hall
      obtain ⟨hnew, hseen⟩ := List.forall_mem_cons.mp hseen
      rw [List.map_cons, List.nodup_cons] at hnodup
      rw [validateRule_ok_iff.mpr ⟨haccepted, rfl⟩]
      refine ite_error_ok_iff.mpr ⟨by rwa [normalizeRule_name], map_ok_iff.mpr ⟨_, ih.mpr ⟨hall, hnodup.2, ?_, rfl⟩, rfl⟩⟩
      intro other hother hmem
      rcases List.mem_cons.mp hmem with hname | hmem
      · rw [normalizeRule_name] at hname
        exact hnodup.1 (hname ▸ List.mem_map_of_mem hother)
      · exact hseen other hother hmem

def normalizeScenario (scenario : FaultScenario) : FaultScenario :=
  { scenario with rules := scenario.rules.map (·.map normalizeRule) }

/-- What `validateScenario` asks for. -/
structure ScenarioAccepted (scenario : FaultScenario) : Prop where
  header : scenario.apiVersion = scenarioAPIVersion ∧ scenario.kind = scenarioKind
  count : (scenario.rules.getD []).length ≤ maxRules
  rules : ∀ rule ∈ scenario.rules.getD [], RuleAccepted rule
  names : ((scenario.rules.getD []).map (·.name)).Nodup

/-- **Validation** accepts a scenario and normalizes it, whatever quoting its messages use. -/
theorem validateScenario_ok_iff {quote : String → String} {scenario scenario' : FaultScenario} :
    validateScenario quote scenario = .ok scenario' ↔ ScenarioAccepted scenario ∧ normalizeScenario scenario = scenario' := by
  have heq : validateScenario quote scenario =
      if scenario.apiVersion ≠ scenarioAPIVersion ∨ scenario.kind ≠ scenarioKind then
        .error "FaultScenario requires apiVersion \"agentstorm.io/v1alpha1\" and kind \"FaultScenario\""
      else if maxRules < (scenario.rules.getD []).length then .error "FaultScenario cannot contain more than 100 rules"
      else validateRules quote [] 0 (scenario.rules.getD []) >>= fun rules =>
        .ok { scenario with rules := scenario.rules.map fun _ => rules } := rfl
  have hnormal : { scenario with rules := scenario.rules.map fun _ => (scenario.rules.getD []).map normalizeRule } =
      normalizeScenario scenario := by
    unfold normalizeScenario
    cases scenario.rules <;> rfl
  rw [heq, ite_error_ok_iff, ite_error_ok_iff, bind_ok_iff]
  constructor
  · rintro ⟨hheader, hcount, _, hrules, hscenario⟩
    obtain ⟨hall, hnodup, -, rfl⟩ := validateRules_ok_iff.mp hrules
    rw [not_or, not_not, not_not] at hheader
    refine ⟨⟨hheader, not_lt.mp hcount, hall, hnodup⟩, ?_⟩
    rw [← hnormal]
    exact Except.ok.inj hscenario
  · rintro ⟨h, rfl⟩
    refine ⟨by simp [h.header], not_lt.mpr h.count, _, validateRules_ok_iff.mpr ⟨h.rules, h.names, ?_, rfl⟩, ?_⟩
    · exact fun _ _ => List.not_mem_nil
    · rw [hnormal]

theorem scenarioAccepted_normalizeScenario {scenario : FaultScenario} (h : ScenarioAccepted scenario) :
    ScenarioAccepted (normalizeScenario scenario) := by
  have hrules : (normalizeScenario scenario).rules.getD [] = (scenario.rules.getD []).map normalizeRule := by
    unfold normalizeScenario
    cases scenario.rules <;> rfl
  refine ⟨h.header, ?_, ?_, ?_⟩
  · rw [hrules, List.length_map]
    exact h.count
  · rw [hrules]
    intro rule hrule
    obtain ⟨source, hsource, rfl⟩ := List.mem_map.mp hrule
    exact ruleAccepted_normalizeRule (h.rules source hsource)
  · rw [hrules, List.map_map]
    have hnames : (FaultRule.name ∘ normalizeRule) = FaultRule.name := funext normalizeRule_name
    rw [show ((fun rule : FaultRule => rule.name) ∘ normalizeRule) = FaultRule.name from hnames]
    exact h.names

theorem normalizeScenario_idem (scenario : FaultScenario) :
    normalizeScenario (normalizeScenario scenario) = normalizeScenario scenario := by
  unfold normalizeScenario
  cases scenario.rules with
  | none => rfl
  | some => simp [normalizeRule_idem]

end AgentStorm.Reliability
