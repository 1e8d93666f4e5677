import AgentStorm.Controller.Names
import AgentStorm.Results.Canonical
import AgentStorm.Worker.Errors

/-!
# `Worker.Snapshot` — the scenario in the worker's configuration

`_scenario_snapshot` of `config.py` parses the scenario of `run.json` again, and `_reliability_payload`
of `results.py` sends it back to the Result API (`documentTree`). The two languages exchange JSON
trees: that numbers and texts survive the trip is an assumption (`PyFormat`), that the two validators
agree is not (`scenario_agreement_iff`).
-/

namespace AgentStorm.Worker

open Checks Json Numeric Reliability Text

/-- What Python contributes: `repr`, and the text of a float, which Go reads as the same number. -/
structure PyFormat (F : FloatFormat) where
  repr : String → String
  formatFloat : ℚ → String
  parse_formatFloat : ∀ {literal q}, F.parse literal = some (.finite q) → F.parse (formatFloat q) = some (.finite q)

/-! ## Checked values -/

/-- The entry of a key; a repeated key has its last value. -/
def get? (members : List (String × Value)) (key : String) : Option Value :=
  (members.reverse.find? fun member => member.1 == key).map (·.2)

/-- `value.get(key)` -/
def getNone (members : List (String × Value)) (key : String) : Value := (get? members key).getD .null

def isNone : Value → Bool
  | .null => true
  | _ => false

/-- `value == text` -/
def isText (text : String) : Value → Bool
  | .string s => s == text
  | _ => false

/-- `bool(value)` -/
def truthy (F : FloatFormat) : Value → Bool
  | .null => false
  | .bool b => b
  | .number literal => decide (F.parse literal ≠ some (.finite 0))
  | .string s => decide (s ≠ "")
  | .array items => !items.isEmpty
  | .object members => !members.isEmpty

def nonemptyString (path : String) (maxBytes : Nat) (value : Value) : Except String String :=
  let message := path ++ " must be a non-empty string of at most " ++ toString maxBytes ++ " bytes"
  match value with
  | .string s => (reject (pyBlank s || decide (maxBytes < s.utf8ByteSize)) message).map fun _ => s
  | _ => .error message

def strictInt (path : String) : Value → Except String Int
  | .number literal => orElse literal.toInt? (path ++ " must be an integer")
  | _ => .error (path ++ " must be an integer")

/-- `float(value)` of an `int` or a `float`: out of range, the first raises and the second is an infinity already. -/
def strictNumber (F : FloatFormat) (path : String) : Value → Except String Float64
  | .number literal =>
    match F.parse literal with
    | some x => .ok x
    | none =>
      if literal.toInt?.isSome then .error "int too large to convert to float"
      else if literal.toList.head? = some '-' then .ok .negInf
      else .ok .posInf
  | _ => .error (path ++ " must be a number")

def stringSelector (path : String) : Value → Except String (List String)
  | .array items => do
      let parsed ← items.mapM (nonemptyString path 512)
      reject (decide (¬parsed.Nodup)) (path ++ " must not contain duplicates")
      return parsed
  | _ => .error (path ++ " must be an array")

def integerSelector (path : String) (minimum : Int) : Value → Except String (List Int)
  | .array items => do
      let parsed ← items.mapM (strictInt path)
      reject (parsed.any fun item => decide (item < minimum)) (path ++ " values must be at least " ++ toString minimum)
      reject (decide (¬parsed.Nodup)) (path ++ " must not contain duplicates")
      return parsed
  | _ => .error (path ++ " must be an array")

/-- `_only_keys`: the first unknown key in sorted order is named. -/
def onlyKeys (repr : String → String) (members : List (String × Value)) (allowed : List String) (path : String) :
    Except String Unit :=
  match (members.map (·.1)).filter fun key => decide (key ∉ allowed) with
  | [] => .ok ()
  | key :: keys =>
    let least := keys.foldl (fun least key => if key < least then key else least) key
    .error (path ++ " contains unknown field " ++ repr least)

/-! ## Parsing the snapshot -/

def Fault.all : List Fault := [.latency, .timeout, .httpError, .malformedResponse, .rateLimit, .toolError]

/-- `fault not in _FAULTS`: a list or a dict cannot be looked up in a set. -/
def faultOf (path : String) : Value → Except String Fault
  | .string s => orElse (Fault.all.find? (·.text == s)) (path ++ ".fault is unsupported")
  | .array _ => .error "unhashable type: 'list'"
  | .object _ => .error "unhashable type: 'dict'"
  | _ => .error (path ++ ".fault is unsupported")

section Parse

variable {F : FloatFormat} (py : PyFormat F)

/-- The delay, the status code and the tool name a rule keeps, if they fit its fault. A tool name that is false and no
    text is kept by the source and never looked at; it is the empty one here. -/
def faultFields (F : FloatFormat) (path : String) (fault : Fault) (delay status tool : Value) :
    Except String (Option Nat × Option Nat × String) :=
  let toolName := match tool with
    | .string s => s
    | _ => ""
  let apply := path ++ " has fields that do not apply to " ++ fault.text
  match fault with
  | .latency | .timeout => do
      let delayMS ← strictInt (path ++ ".delayMs") delay
      reject (decide (delayMS < 0)) (path ++ ".delayMs must be non-negative")
      reject (!isNone status || truthy F tool) apply
      return (some delayMS.toNat, none, toolName)
  | .httpError => do
      let statusCode ← strictInt (path ++ ".statusCode") status
      reject (decide (statusCode < 400 ∨ 599 < statusCode) || !isNone delay || truthy F tool)
        (path ++ ".statusCode must be between 400 and 599")
      return (none, some statusCode.toNat, toolName)
  | .toolError =>
    match tool with
    | .string s => do
        reject (decide (512 < s.utf8ByteSize)) (path ++ ".toolName must be a string of at most 512 bytes")
        reject (!isNone delay || !isNone status) apply
        return (none, none, s)
    | _ => .error (path ++ ".toolName must be a string of at most 512 bytes")
  | .malformedResponse | .rateLimit => do
      reject (!isNone delay || !isNone status || truthy F tool) apply
      return (none, none, toolName)

def probabilityOf (path : String) : Float64 → Except String ℚ
  | .finite q =>
    if 0 ≤ q ∧ q ≤ 1 then .ok q else .error (path ++ ".probability must be between 0 and 1")
  | _ => .error (path ++ ".probability must be between 0 and 1")

def faultRule (value : Value) (index : Nat) : Except String FaultRuleConfig :=
  let path := "FaultScenario.rules[" ++ toString index ++ "]"
  match value with
  | .object members => do
      onlyKeys py.repr members (RuleField.all.map (·.key)) path
      let name ← nonemptyString (path ++ ".name") 128 (getNone members "name")
      let fault ← faultOf path (getNone members "fault")
      let number ← strictNumber F (path ++ ".probability") (getNone members "probability")
      let probability ← probabilityOf path number
      let caseIDs ← stringSelector (path ++ ".caseIDs") ((get? members "caseIDs").getD (.array []))
      let iterations ← integerSelector (path ++ ".iterations") 0 ((get? members "iterations").getD (.array []))
      let attempts ← integerSelector (path ++ ".attempts") 1 ((get? members "attempts").getD (.array [.number "1"]))
      reject (attempts.any fun attempt => decide (10 < attempt)) (path ++ ".attempts must be between 1 and 10")
      let (delayMS, statusCode, toolName) ← faultFields F path fault (getNone members "delayMs")
        (getNone members "statusCode") ((get? members "toolName").getD (.string ""))
      return ⟨name, fault, probability, caseIDs, iterations.map (·.toNat), attempts.map (·.toNat), delayMS, statusCode,
        toolName⟩
  | _ => .error (path ++ " must be an object")

def faultRules : Nat → List Value → Except String (List FaultRuleConfig)
  | _, [] => .ok []
  | index, value :: values => do
      let rule ← faultRule py value index
      let rules ← faultRules (index + 1) values
      return rule :: rules

/-- The rules of the scenario object. -/
def scenarioRules (scenario : Value) : Except String (List FaultRuleConfig) :=
  match scenario with
  | .object members => do
      onlyKeys py.repr members ["apiVersion", "kind", "rules"] "FaultScenario"
      reject (!isText "agentstorm.io/v1alpha1" (getNone members "apiVersion") ||
        !isText "FaultScenario" (getNone members "kind")) "FaultScenario apiVersion or kind is invalid"
      match getNone members "rules" with
      | .array raw => do
          reject (decide (100 < raw.length)) "FaultScenario.rules must be an array of at most 100 entries"
          let rules ← faultRules py 0 raw
          reject (decide (¬(rules.map (·.name)).Nodup)) "FaultScenario rule names must be unique"
          return rules
      | _ => .error "FaultScenario.rules must be an array of at most 100 entries"
  | _ => .error "reliability.scenario.scenario must be an object"

def snapshotKeys : List String := ["sourceName", "sourceKey", "digest", "scenario"]

def scenarioSnapshot (value : Value) : Except String (Option FaultScenarioConfig) :=
  match value with
  | .null => .ok none
  | .object members => do
      onlyKeys py.repr members snapshotKeys "reliability.scenario"
      reject (snapshotKeys.any fun key => (get? members key).isNone) "reliability.scenario snapshot is incomplete"
      let sourceName ← nonemptyString "sourceName" 253 (getNone members "sourceName")
      let sourceKey ← nonemptyString "sourceKey" 253 (getNone members "sourceKey")
      let digest ← nonemptyString "digest" 71 (getNone members "digest")
      reject (!Results.digestPattern digest) "reliability.scenario.digest must be a sha256 digest"
      let rules ← scenarioRules py (getNone members "scenario")
      return some ⟨sourceName, sourceKey, digest, rules⟩
  | _ => .error "reliability.scenario must be an object"

end Parse

/-! ## What the controller writes and the worker sends -/

/-- Where the controller found the payload: the name and a key of a ConfigMap, of which Kubernetes has checked both. A name
    has fewer characters still than a key. -/
structure ConfigMapRef where
  name : String
  key : String
  name_valid : name ≠ "" ∧ name.utf8ByteSize ≤ 253 ∧ name.toList.all Controller.keyChar = true
  key_valid : key ≠ "" ∧ key.utf8ByteSize ≤ 253 ∧ key.toList.all Controller.keyChar = true

/-- `reliability.Snapshot` in `run.json` -/
def snapshotTree (F : FloatFormat) (ref : ConfigMapRef) (digest : String) (scenario : FaultScenario) : Value :=
  .object [("sourceName", .string ref.name), ("sourceKey", .string ref.key), ("digest", .string digest),
    ("scenario", scenarioTree F scenario)]

section Send

variable {F : FloatFormat} (py : PyFormat F)

def naturals (ns : List Nat) : Value := .array (ns.map fun n : Nat => integer n)

/-- `rule_payload` -/
def rulePayload (rule : FaultRuleConfig) : Value :=
  .object ([(RuleField.name.key, .string rule.name), (RuleField.fault.key, .string rule.fault.text),
    (RuleField.probability.key, .number (py.formatFloat rule.probability)),
    (RuleField.attempts.key, naturals rule.attempts)] ++
  omitEmpty rule.caseIDs.isEmpty .caseIDs (.array (rule.caseIDs.map .string)) ++
  omitEmpty rule.iterations.isEmpty .iterations (naturals rule.iterations) ++
  omitNil .delayMS (rule.delayMS.map (↑)) ++ omitNil .statusCode (rule.statusCode.map (↑)) ++
  omitEmpty (decide (rule.toolName = "")) .toolName (.string rule.toolName))

/-- The `document` of `_reliability_payload` -/
def documentTree (scenario : FaultScenarioConfig) : Value :=
  .object [("apiVersion", .string "agentstorm.io/v1alpha1"), ("kind", .string "FaultScenario"),
    ("rules", .array (scenario.rules.map (rulePayload py)))]

end Send

/-- The worker's rule is the controller's. -/
structure SameRule (config : FaultRuleConfig) (rule : FaultRule) : Prop where
  name : config.name = rule.name
  fault : config.fault.text = rule.fault
  probability : rule.probability = some (.finite config.probability)
  caseIDs : config.caseIDs = rule.caseIDs
  iterations : config.iterations.map (↑) = rule.iterations
  attempts : config.attempts.map (↑) = rule.attempts
  delayMS : config.delayMS.map (↑) = rule.delayMS
  statusCode : config.statusCode.map (↑) = rule.statusCode
  toolName : config.toolName = rule.toolName

/-! ## Looking up members -/

section Lookup

variable {F : FloatFormat}

theorem get?_append (first rest : List (String × Value)) (key : String) :
    get? (first ++ rest) key = (get? rest key).or (get? first key) := by
  unfold get?
  rw [List.reverse_append, List.find?_append]
  cases rest.reverse.find? fun member => member.1 == key with
  | none => rfl
  | some => rfl

theorem get?_cons (name key : String) (value : Value) (rest : List (String × Value)) :
    get? ((name, value) :: rest) key = (get? rest key).or (if name = key then some value else none) := by
  rw [← List.singleton_append, get?_append]
  by_cases h : name = key
  · simp [get?, h]
  · simp [get?, h]

@[simp] theorem get?_nil (key : String) : get? [] key = none := rfl

theorem get?_omitEmpty (empty : Bool) (field : RuleField) (value : Value) (key : String) :
    get? (omitEmpty empty field value) key = if empty = false ∧ field.key = key then some value else none := by
  cases empty with
  | true => simp [omitEmpty]
  | false => simp [omitEmpty, get?_cons]

theorem get?_omitNil (field : RuleField) (pointer : Option Int) (key : String) :
    get? (omitNil field pointer) key = if field.key = key then pointer.map integer else none := by
  cases pointer with
  | none => simp [omitNil]
  | some => simp [omitNil, get?_cons]

theorem key_of_mem_omitEmpty {empty : Bool} {field : RuleField} {value : Value} {member : String × Value}
    (h : member ∈ omitEmpty empty field value) : member.1 = field.key := by
  unfold omitEmpty at h
  split at h
  · cases h
  · rw [List.mem_singleton.mp h]

theorem key_of_mem_omitNil {field : RuleField} {pointer : Option Int} {member : String × Value}
    (h : member ∈ omitNil field pointer) : member.1 = field.key := by
  cases pointer with
  | none => exact absurd h List.not_mem_nil
  | some => rw [List.mem_singleton.mp h]

/-- What a member of a rule's document holds. -/
def ruleEntry (F : FloatFormat) (rule : FaultRule) : RuleField → Option Value
  | .name => some (.string rule.name)
  | .fault => some (.string rule.fault)
  | .probability => some (probabilityTree F rule.probability)
  | .caseIDs => if rule.caseIDs.isEmpty = false then some (.array (rule.caseIDs.map .string)) else none
  | .iterations => if rule.iterations.isEmpty = false then some (.array (rule.iterations.map integer)) else none
  | .attempts => if rule.attempts.isEmpty = false then some (.array (rule.attempts.map integer)) else none
  | .delayMS => rule.delayMS.map integer
  | .statusCode => rule.statusCode.map integer
  | .toolName => if decide (rule.toolName = "") = false then some (.string rule.toolName) else none

theorem get?_ruleMembers (rule : FaultRule) (field : RuleField) :
    get? (ruleMembers F rule) field.key = ruleEntry F rule field := by
  -- the keys of the nine fields differ, so that every field finds its own member only
  cases field <;>
    simp [ruleMembers, ruleEntry, get?_append, get?_cons, get?_omitEmpty, get?_omitNil, RuleField.key]

theorem onlyKeys_ok_iff {repr : String → String} {members : List (String × Value)} {allowed : List String}
    {path : String} : onlyKeys repr members allowed path = .ok () ↔ ∀ member ∈ members, member.1 ∈ allowed := by
  unfold onlyKeys
  cases hunknown : (members.map (·.1)).filter fun key => decide (key ∉ allowed) with
  | nil =>
    rw [List.filter_eq_nil_iff] at hunknown
    refine iff_of_true rfl fun member hmember => ?_
    simpa using hunknown member.1 (List.mem_map_of_mem hmember)
  | cons key =>
    have hkey : key ∈ (members.map (·.1)).filter fun key => decide (key ∉ allowed) := hunknown ▸ List.mem_cons_self
    obtain ⟨hmem, hnot⟩ := List.mem_filter.mp hkey
    obtain ⟨member, hmember, rfl⟩ := List.mem_map.mp hmem
    refine iff_of_false nofun fun hall => ?_
    exact of_decide_eq_true hnot (hall member hmember)

theorem key_mem_all (field : RuleField) : field.key ∈ RuleField.all.map (·.key) := by
  cases field <;> decide

theorem onlyKeys_ruleMembers (repr : String → String) (rule : FaultRule) (path : String) :
    onlyKeys repr (ruleMembers F rule) (RuleField.all.map (·.key)) path = .ok () := by
  refine onlyKeys_ok_iff.mpr fun member hmember => ?_
  obtain ⟨field, hfield⟩ : ∃ field : RuleField, member.1 = field.key := by
    simp only [ruleMembers, List.mem_append, List.mem_cons, List.not_mem_nil, or_false] at hmember
    rcases hmember with ((((((rfl | rfl | rfl) | hm) | hm) | hm) | hm) | hm) | hm
    · exact ⟨.name, rfl⟩
    · exact ⟨.fault, rfl⟩
    · exact ⟨.probability, rfl⟩
    · exact ⟨.caseIDs, key_of_mem_omitEmpty hm⟩
    · exact ⟨.iterations, key_of_mem_omitEmpty hm⟩
    · exact ⟨.attempts, key_of_mem_omitEmpty hm⟩
    · exact ⟨.delayMS, key_of_mem_omitNil hm⟩
    · exact ⟨.statusCode, key_of_mem_omitNil hm⟩
    · exact ⟨.toolName, key_of_mem_omitEmpty hm⟩
  exact hfield ▸ key_mem_all field

end Lookup

/-! ## The checks on what Go writes -/

section Checked

variable {F : FloatFormat}

variable {path : String}

theorem nonemptyString_ok_iff {s s' : String} {maxBytes : Nat} :
    nonemptyString path maxBytes (.string s) = .ok s' ↔ (pyBlank s = false ∧ s.utf8ByteSize ≤ maxBytes) ∧ s = s' := by
  unfold nonemptyString
  simp only [map_ok_iff, reject_eq_ok, Bool.or_eq_false_iff, decide_eq_false_iff_not, not_lt]
  constructor
  · rintro ⟨_, h, rfl⟩
    exact ⟨h, rfl⟩
  · rintro ⟨h, rfl⟩
    exact ⟨(), h, rfl⟩

/-- Checking every item of a list that was written from another. -/
theorem mapM_map_ok_iff {α β χ : Type} {f : α → β} {g : β → Except χ α} {p : α → Prop}
    (hg : ∀ a a', g (f a) = .ok a' ↔ p a ∧ a = a') {l l' : List α} :
    (l.map f).mapM g = .ok l' ↔ (∀ a ∈ l, p a) ∧ l = l' := by
  induction l generalizing l' with
  | nil =>
    rw [List.map_nil, List.mapM_nil]
    exact ⟨fun h => ⟨nofun, Except.ok.inj h⟩, fun h => congrArg Except.ok h.2⟩
  | cons a l ih =>
    rw [List.map_cons, List.mapM_cons, bind_ok_iff]
    simp only [bind_ok_iff, hg, ih, List.forall_mem_cons]
    constructor
    · rintro ⟨_, ⟨ha, rfl⟩, _, ⟨hl, rfl⟩, h⟩
      exact ⟨⟨ha, hl⟩, Except.ok.inj h⟩
    · rintro ⟨⟨ha, hl⟩, rfl⟩
      exact ⟨a, ⟨ha, rfl⟩, l, ⟨hl, rfl⟩, rfl⟩

theorem stringSelector_ok_iff {ids ids' : List String} :
    stringSelector path (.array (ids.map .string)) = .ok ids' ↔
      ((∀ id ∈ ids, pyBlank id = false ∧ id.utf8ByteSize ≤ 512) ∧ ids.Nodup) ∧ ids = ids' := by
  have hitems := @mapM_map_ok_iff _ _ _ Value.string (nonemptyString path 512) _ (fun _ _ => nonemptyString_ok_iff) ids
  unfold stringSelector
  simp only [bind_ok_iff, hitems, reject_eq_ok, decide_eq_false_iff_not, not_not]
  constructor
  · rintro ⟨_, ⟨hall, rfl⟩, _, hnodup, h⟩
    exact ⟨⟨hall, hnodup⟩, Except.ok.inj h⟩
  · rintro ⟨⟨hall, hnodup⟩, rfl⟩
    exact ⟨ids, ⟨hall, rfl⟩, (), hnodup, rfl⟩

theorem strictInt_ok_iff {n n' : Int} : strictInt path (integer n) = .ok n' ↔ True ∧ n = n' := by
  simp [strictInt, integer, Int.toInt?_repr]

theorem integerSelector_ok_iff {minimum : Int} {ns ns' : List Int} :
    integerSelector path minimum (.array (ns.map integer)) = .ok ns' ↔
      ((∀ n ∈ ns, minimum ≤ n) ∧ ns.Nodup) ∧ ns = ns' := by
  have hitems := @mapM_map_ok_iff _ _ _ integer (strictInt path) _ (fun _ _ => strictInt_ok_iff) ns
  unfold integerSelector
  simp only [bind_ok_iff, hitems, reject_eq_ok, decide_eq_false_iff_not, not_not, List.any_eq_false, decide_eq_true_eq,
    not_lt]
  constructor
  · rintro ⟨_, ⟨-, rfl⟩, _, hmin, _, hnodup, h⟩
    exact ⟨⟨hmin, hnodup⟩, Except.ok.inj h⟩
  · rintro ⟨⟨hmin, hnodup⟩, rfl⟩
    exact ⟨ns, ⟨fun _ _ => trivial, rfl⟩, (), hmin, (), hnodup, rfl⟩

theorem Fault.text_injective : Function.Injective Fault.text := by
  intro f g h
  cases f <;> cases g <;> first | rfl | exact absurd h (by decide)

theorem faultOf_ok_iff {s : String} {fault : Fault} :
    faultOf path (.string s) = .ok fault ↔ fault.text = s := by
  unfold faultOf
  rw [orElse_eq_ok]
  constructor
  · intro h
    simpa using List.find?_some h
  · rintro rfl
    cases fault <;> decide

theorem exists_fault {s : String} (h : s ∈ supportedFaults) : ∃ fault : Fault, fault.text = s := by
  simp only [supportedFaults, List.mem_cons, List.not_mem_nil, or_false] at h
  rcases h with rfl | rfl | rfl | rfl | rfl | rfl
  · exact ⟨.latency, rfl⟩
  · exact ⟨.timeout, rfl⟩
  · exact ⟨.httpError, rfl⟩
  · exact ⟨.malformedResponse, rfl⟩
  · exact ⟨.rateLimit, rfl⟩
  · exact ⟨.toolError, rfl⟩

/-- A pointer of the document as Python reads it. -/
def pointerValue (pointer : Option Int) : Value := (pointer.map integer).getD .null

/-- The fields that Go accepts for a fault, Python accepts too. -/
theorem faultFields_of_fit {rule : FaultRule} {fault : Fault} (hfault : fault.text = rule.fault) (hfit : FieldsFit rule)
    (path : String) :
    faultFields F path fault (pointerValue rule.delayMS) (pointerValue rule.statusCode) (.string rule.toolName) =
      .ok (rule.delayMS.map (·.toNat), rule.statusCode.map (·.toNat), rule.toolName) := by
  -- at a fixed fault the conditions of both sides compute to the branch of that fault
  unfold FieldsFit at hfit
  rw [← hfault] at hfit
  cases fault with
  | latency | timeout =>
    obtain ⟨⟨delay, hdelay, hpos⟩, hstatus, htool⟩ := hfit
    have hint := fun path => (@strictInt_ok_iff path delay delay).mpr ⟨trivial, rfl⟩
    simp only [faultFields, hdelay, hstatus, htool, pointerValue, Option.map_some, Option.map_none, Option.getD_some,
      Option.getD_none, hint]
    simp [bind, Except.bind, pure, Except.pure, isNone, truthy, not_lt.mpr hpos]
  | httpError =>
    obtain ⟨⟨code, hcode, hlow, hhigh⟩, hdelay, htool⟩ := hfit
    have hint := fun path => (@strictInt_ok_iff path code code).mpr ⟨trivial, rfl⟩
    simp only [faultFields, hdelay, hcode, htool, pointerValue, Option.map_some, Option.map_none, Option.getD_some,
      Option.getD_none, hint]
    simp [bind, Except.bind, pure, Except.pure, isNone, truthy, not_lt.mpr hlow, not_lt.mpr hhigh]
  | toolError =>
    obtain ⟨hsize, hdelay, hstatus⟩ := hfit
    simp [faultFields, hdelay, hstatus, pointerValue, isNone, not_lt.mpr hsize, bind, Except.bind, pure, Except.pure]
  | malformedResponse | rateLimit =>
    obtain ⟨hdelay, hstatus, htool⟩ := hfit
    simp [faultFields, hdelay, hstatus, htool, pointerValue, isNone, truthy, bind, Except.bind, pure, Except.pure]

end Checked

/-! ## Agreement on a rule -/

/-- The name and the case ids of a rule are not blank to Python, which also strips the four information separators. -/
def Clear (rule : FaultRule) : Prop := pyBlank rule.name = false ∧ ∀ id ∈ rule.caseIDs, pyBlank id = false

/-- The rule as the worker keeps it. -/
def ruleConfig (rule : FaultRule) (fault : Fault) (probability : ℚ) : FaultRuleConfig where
  name := rule.name
  fault := fault
  probability := probability
  caseIDs := rule.caseIDs
  iterations := rule.iterations.map (·.toNat)
  attempts := rule.attempts.map (·.toNat)
  delayMS := rule.delayMS.map (·.toNat)
  statusCode := rule.statusCode.map (·.toNat)
  toolName := rule.toolName

section Rule

variable {F : FloatFormat} {py : PyFormat F} {rule : FaultRule}

theorem map_toNat {ns : List Int} (h : ∀ n ∈ ns, 0 ≤ n) : (ns.map (·.toNat)).map (fun n : Nat => (n : Int)) = ns := by
  rw [List.map_map]
  exact (List.map_congr_left fun n hn => Int.toNat_of_nonneg (h n hn)).trans ns.map_id

theorem map_toNat_pointer {pointer : Option Int} (h : ∀ n ∈ pointer, 0 ≤ n) :
    (pointer.map (·.toNat)).map (fun n : Nat => (n : Int)) = pointer := by
  cases pointer with
  | none => rfl
  | some n => simp [Int.toNat_of_nonneg (h n rfl)]

/-- No pointer of an accepted rule is negative. -/
theorem pointers_nonneg (hfit : FieldsFit rule) : (∀ n ∈ rule.delayMS, 0 ≤ n) ∧ ∀ n ∈ rule.statusCode, 0 ≤ n := by
  unfold FieldsFit at hfit
  split at hfit
  · obtain ⟨⟨delay, hdelay, hpos⟩, hstatus, -⟩ := hfit
    rw [hdelay, hstatus]
    exact ⟨fun n hn => Option.some.inj hn ▸ hpos, nofun⟩
  split at hfit
  · obtain ⟨⟨code, hcode, hlow, -⟩, hdelay, -⟩ := hfit
    rw [hdelay, hcode]
    exact ⟨nofun, fun n hn => by obtain rfl := Option.some.inj hn; omega⟩
  split at hfit
  · obtain ⟨-, hdelay, hstatus⟩ := hfit
    rw [hdelay, hstatus]
    exact ⟨nofun, nofun⟩
  · obtain ⟨hdelay, hstatus, -⟩ := hfit
    rw [hdelay, hstatus]
    exact ⟨nofun, nofun⟩

theorem sameRule_ruleConfig (haccepted : RuleAccepted rule) {fault : Fault} (hfault : fault.text = rule.fault) {q : ℚ}
    (hq : rule.probability = some (.finite q)) : SameRule (ruleConfig rule fault q) rule where
  name := rfl
  fault := hfault
  probability := hq
  caseIDs := rfl
  iterations := map_toNat haccepted.iterations.1
  attempts := map_toNat fun n hn => by have := (haccepted.attempts.1 n hn).1; omega
  delayMS := map_toNat_pointer (pointers_nonneg haccepted.fields).1
  statusCode := map_toNat_pointer (pointers_nonneg haccepted.fields).2
  toolName := rfl

/-- The probability of an accepted rule is a number between 0 and 1. -/
theorem exists_probability (haccepted : RuleAccepted rule) (hrepresentable : rule.Representable F) :
    ∃ q, rule.probability = some (.finite q) ∧ 0 ≤ q ∧ q ≤ 1 ∧ F.parse (F.format (.finite q)) = some (.finite q) := by
  obtain ⟨p, hp, hlow, hhigh⟩ := haccepted.probability
  obtain ⟨_, hliteral⟩ := hrepresentable.probability p hp
  obtain ⟨q, rfl⟩ := F.finite_of_parse hliteral
  refine ⟨q, hp, ?_, ?_, F.parse_format hliteral⟩
  · simpa [Float64.lt] using hlow
  · simpa [Float64.gt] using hhigh

/-- What Python finds for the members that may be left out. -/
theorem selectors_of_ruleMembers (hattempts : rule.attempts ≠ []) :
    (get? (ruleMembers F rule) "caseIDs").getD (.array []) = .array (rule.caseIDs.map .string) ∧
    (get? (ruleMembers F rule) "iterations").getD (.array []) = .array (rule.iterations.map integer) ∧
    (get? (ruleMembers F rule) "attempts").getD (.array [.number "1"]) = .array (rule.attempts.map integer) ∧
    (get? (ruleMembers F rule) "toolName").getD (.string "") = .string rule.toolName := by
  refine ⟨?_, ?_, ?_, ?_⟩
  · rw [show "caseIDs" = RuleField.caseIDs.key from rfl, get?_ruleMembers, ruleEntry]
    cases rule.caseIDs <;> rfl
  · rw [show "iterations" = RuleField.iterations.key from rfl, get?_ruleMembers, ruleEntry]
    cases rule.iterations <;> rfl
  · rw [show "attempts" = RuleField.attempts.key from rfl, get?_ruleMembers, ruleEntry]
    cases hcases : rule.attempts with
    | nil => exact absurd hcases hattempts
    | cons => rfl
  · rw [show "toolName" = RuleField.toolName.key from rfl, get?_ruleMembers, ruleEntry]
    by_cases htool : rule.toolName = ""
    · simp [htool]
    · simp [htool]

theorem getNone_ruleMembers (field : RuleField) :
    getNone (ruleMembers F rule) field.key = (ruleEntry F rule field).getD .null := by
  rw [getNone, get?_ruleMembers]

variable {config : FaultRuleConfig}

/-- **The two validators on one rule**: what Go has accepted and normalized, Python accepts exactly if it is clear, and
    keeps as it is. -/
theorem faultRule_ok_iff (haccepted : RuleAccepted rule) (hrepresentable : rule.Representable F)
    (hattempts : rule.attempts ≠ []) {fault : Fault} (hfault : fault.text = rule.fault) {q : ℚ}
    (hq : rule.probability = some (.finite q)) (index : Nat) :
    faultRule py (ruleTree F rule) index = .ok config ↔ Clear rule ∧ ruleConfig rule fault q = config := by
  obtain ⟨q', hq', hlow, hhigh, hparse⟩ := exists_probability haccepted hrepresentable
  obtain rfl : q' = q := by simpa [hq] using hq'.symm
  obtain ⟨hcases, hiterations, hattempts', htool⟩ := @selectors_of_ruleMembers F rule hattempts
  have hname : getNone (ruleMembers F rule) "name" = .string rule.name := getNone_ruleMembers .name
  have hkind : getNone (ruleMembers F rule) "fault" = .string rule.fault := getNone_ruleMembers .fault
  have hnumber : getNone (ruleMembers F rule) "probability" = .number (F.format (.finite q')) :=
    (getNone_ruleMembers .probability).trans (by rw [ruleEntry, hq]; rfl)
  have hdelay : getNone (ruleMembers F rule) "delayMs" = pointerValue rule.delayMS := getNone_ruleMembers .delayMS
  have hstatus : getNone (ruleMembers F rule) "statusCode" = pointerValue rule.statusCode :=
    getNone_ruleMembers .statusCode
  have hfields := fun path => @faultFields_of_fit F rule fault hfault haccepted.fields path
  have hread : ∀ path, strictNumber F path (.number (F.format (.finite q'))) = .ok (.finite q') := by
    intro path
    simp [strictNumber, hparse]
  have hrange : ∀ path, probabilityOf path (.finite q') = .ok q' := fun path => if_pos ⟨hlow, hhigh⟩
  have hten : (rule.attempts.any fun attempt => decide (10 < attempt)) = false := by
    simpa using fun n hn => (haccepted.attempts.1 n hn).2
  -- with every member looked up, what is left are the checks in source order
  unfold faultRule ruleTree
  simp only [bind_ok_iff, onlyKeys_ruleMembers, hname, hkind, hnumber, hcases, hiterations, hattempts', htool, hdelay,
    hstatus, nonemptyString_ok_iff, faultOf_ok_iff, hread, stringSelector_ok_iff, integerSelector_ok_iff, reject_eq_ok]
  constructor
  · rintro ⟨_, -, _, ⟨⟨hclear, -⟩, rfl⟩, fault', hfault', _, hp, _, hprob, _, ⟨⟨hids, -⟩, rfl⟩, _, ⟨-, rfl⟩, _, ⟨-, rfl⟩,
      _, -, _, hf, h⟩
    obtain rfl : fault' = fault := Fault.text_injective (hfault'.trans hfault.symm)
    cases hp
    rw [hrange] at hprob
    cases hprob
    rw [hfields] at hf
    cases hf
    exact ⟨⟨hclear, fun id hid => (hids id hid).1⟩, Except.ok.inj h⟩
  · rintro ⟨⟨hclear, hids⟩, rfl⟩
    exact ⟨(), trivial, rule.name, ⟨⟨hclear, haccepted.name.2⟩, rfl⟩, fault, hfault, _, rfl, q', hrange _, rule.caseIDs,
      ⟨⟨fun id hid => ⟨hids id hid, (haccepted.caseIDs.1 id hid).2⟩, haccepted.caseIDs.2⟩, rfl⟩, rule.iterations,
      ⟨haccepted.iterations, rfl⟩, rule.attempts,
      ⟨⟨fun n hn => (haccepted.attempts.1 n hn).1, haccepted.attempts.2⟩, rfl⟩, (), hten, _, hfields _, rfl⟩

/-- A worker's rule is determined by the controller's. -/
theorem SameRule.eq_ruleConfig (h : SameRule config rule) :
    ruleConfig rule config.fault config.probability = config := by
  have hmap : ∀ ns : List Nat, (ns.map fun n : Nat => (n : Int)).map (·.toNat) = ns := by
    intro ns
    rw [List.map_map]
    exact ns.map_id
  have hpointer : ∀ p : Option Nat, (p.map fun n : Nat => (n : Int)).map (·.toNat) = p := by
    intro p
    cases p <;> rfl
  simp [ruleConfig, ← h.name, ← h.caseIDs, ← h.iterations, ← h.attempts, ← h.delayMS, ← h.statusCode, ← h.toolName, hmap, hpointer]

theorem faultRule_same_iff (haccepted : RuleAccepted rule) (hrepresentable : rule.Representable F)
    (hattempts : rule.attempts ≠ []) (index : Nat) :
    faultRule py (ruleTree F rule) index = .ok config ↔ Clear rule ∧ SameRule config rule := by
  constructor
  · intro h
    obtain ⟨_, hfault⟩ := exists_fault haccepted.fault
    obtain ⟨q, hq, -⟩ := exists_probability haccepted hrepresentable
    obtain ⟨hclear, rfl⟩ := (faultRule_ok_iff haccepted hrepresentable hattempts hfault hq index).mp h
    exact ⟨hclear, sameRule_ruleConfig haccepted hfault hq⟩
  · rintro ⟨hclear, hsame⟩
    exact (faultRule_ok_iff haccepted hrepresentable hattempts hsame.fault hsame.probability index).mpr
      ⟨hclear, hsame.eq_ruleConfig⟩

/-- Go reads the worker's rule as the one the controller had. -/
theorem decodeRule_rulePayload (hrepresentable : rule.Representable F) (hsame : SameRule config rule) :
    decodeRule F (rulePayload py config) = some rule := by
  obtain ⟨_, hliteral⟩ := hrepresentable.probability _ hsame.probability
  have hnaturals : ∀ ns : List Nat, naturals ns = .array ((ns.map fun n : Nat => (n : Int)).map integer) := by
    simp [naturals]
  have hempty : config.iterations.isEmpty = rule.iterations.isEmpty := by
    rw [← hsame.iterations, List.isEmpty_map]
  -- Python writes the attempts before the selectors; for a reader by key the order does not matter
  have hfirst : ([(RuleField.name.key, Value.string rule.name), (RuleField.fault.key, .string rule.fault),
      (RuleField.probability.key, .number (py.formatFloat config.probability)),
      (RuleField.attempts.key, .array (rule.attempts.map integer))] : List (String × Value)).foldlM (addRuleMember F)
        emptyRule = some { emptyRule with
          name := rule.name, fault := rule.fault, probability := rule.probability, attempts := rule.attempts } := by
    simp [setRuleField, decodeString, decodePointer, py.parse_formatFloat hliteral, hsame.probability,
      decodeElements_integers hrepresentable.attempts]
  simp only [rulePayload, hnaturals, hsame.name, hsame.fault, hsame.caseIDs, hsame.iterations, hsame.attempts,
    hsame.delayMS, hsame.statusCode, hsame.toolName, hempty, decodeRule, List.foldlM_append, hfirst,
    Option.bind_eq_bind, Option.bind_some]
  rw [foldlM_caseIDs rfl, Option.bind_some, foldlM_iterations rfl hrepresentable.iterations, Option.bind_some,
    foldlM_delayMS rfl hrepresentable.delayMS, Option.bind_some, foldlM_statusCode rfl hrepresentable.statusCode,
    Option.bind_some, foldlM_toolName rfl]

end Rule

/-! ## Agreement on a scenario -/

section Scenario

variable {F : FloatFormat} {py : PyFormat F} {scenario : FaultScenario} {configs : List FaultRuleConfig}

variable {rules : List FaultRule}

theorem faultRules_ok_iff
    (hrules : ∀ rule ∈ rules, RuleAccepted rule ∧ rule.Representable F ∧ rule.attempts ≠ [])
    (index : Nat) :
    faultRules py index (rules.map (ruleTree F)) = .ok configs ↔
      (∀ rule ∈ rules, Clear rule) ∧ List.Forall₂ SameRule configs rules := by
  induction rules generalizing index configs with
  | nil => simp [faultRules, eq_comm]
  | cons rule rules ih =>
    obtain ⟨⟨haccepted, hrepresentable, hattempts⟩, hrest⟩ := List.forall_mem_cons.mp hrules
    rw [List.map_cons, faultRules, bind_ok_iff]
    simp only [bind_ok_iff, faultRule_same_iff haccepted hrepresentable hattempts, ih hrest, List.forall_mem_cons]
    constructor
    · rintro ⟨_, ⟨hclear, hsame⟩, _, ⟨hclears, hsames⟩, h⟩
      cases h
      exact ⟨⟨hclear, hclears⟩, .cons hsame hsames⟩
    · rintro ⟨⟨hclear, hclears⟩, hsames⟩
      cases hsames with
      | cons hsame hsames => exact ⟨_, ⟨hclear, hsame⟩, _, ⟨hclears, hsames⟩, rfl⟩

theorem map_name_eq (h : List.Forall₂ SameRule configs rules) :
    configs.map (·.name) = rules.map (·.name) := by
  induction h with
  | nil => rfl
  | cons hsame _ ih => rw [List.map_cons, List.map_cons, hsame.name, ih]

/-- What the rules of a parsed scenario bring along. -/
theorem rules_of_normal (h : Results.Normal F scenario) (hrules : scenario.rules = some rules) :
    ∀ rule ∈ rules, RuleAccepted rule ∧ rule.Representable F ∧ rule.attempts ≠ [] := by
  intro rule hrule
  refine ⟨h.accepted.rules rule (by rwa [hrules]), h.representable rules hrules rule hrule, ?_⟩
  have hnormal : rules.map normalizeRule = rules := by
    have := congrArg FaultScenario.rules h.normal
    rw [normalizeScenario, hrules] at this
    exact Option.some.inj this
  rw [← hnormal] at hrule
  obtain ⟨_, -, rfl⟩ := List.mem_map.mp hrule
  unfold normalizeRule
  split
  · exact List.cons_ne_nil 1 []
  · rename_i hempty
    exact fun hnil => hempty (List.isEmpty_iff.mpr hnil)

theorem scenarioRules_ok_iff (h : Results.Normal F scenario) :
    scenarioRules py (scenarioTree F scenario) = .ok configs ↔
      ∃ rules, scenario.rules = some rules ∧ (∀ rule ∈ rules, Clear rule) ∧ List.Forall₂ SameRule configs rules := by
  have hkeys : onlyKeys py.repr [("apiVersion", Value.string scenario.apiVersion), ("kind", .string scenario.kind),
      ("rules", rulesTree F scenario.rules)] ["apiVersion", "kind", "rules"] "FaultScenario" = .ok () :=
    onlyKeys_ok_iff.mpr (by simp)
  have hheader : (!isText "agentstorm.io/v1alpha1" (.string scenario.apiVersion) ||
      !isText "FaultScenario" (.string scenario.kind)) = false := by
    rw [h.accepted.header.1, h.accepted.header.2]
    rfl
  show (onlyKeys py.repr _ _ _ >>= fun _ => _) = _ ↔ _
  simp only [ScenarioField.key, hkeys, bind_ok_iff]
  cases hslice : scenario.rules with
  | none =>
    -- the nil slice is written as `null`
    refine iff_of_false ?_ (by simp)
    rintro ⟨_, -, _, -, h⟩
    cases h
  | some rules =>
    have hrules := rules_of_normal h hslice
    have hcount : rules.length ≤ 100 := by simpa [hslice, maxRules] using h.accepted.count
    have hnames : (rules.map (·.name)).Nodup := by simpa [hslice] using h.accepted.names
    simp only [Option.some.injEq, exists_eq_left']
    constructor
    · rintro ⟨_, -, _, -, h⟩
      obtain ⟨-, h⟩ := then_ok_iff.mp h
      obtain ⟨_, hconfigs, h⟩ := bind_ok_iff.mp h
      obtain ⟨-, h⟩ := then_ok_iff.mp h
      cases h
      exact (faultRules_ok_iff hrules 0).mp hconfigs
    · intro hagree
      refine ⟨(), trivial, (), reject_eq_ok.mpr hheader, ?_⟩
      refine then_ok_iff.mpr ⟨reject_eq_ok.mpr (by simpa using hcount), ?_⟩
      refine bind_ok_iff.mpr ⟨configs, (faultRules_ok_iff hrules 0).mpr hagree, ?_⟩
      refine then_ok_iff.mpr ⟨reject_eq_ok.mpr (decide_eq_false (not_not.mpr ?_)), rfl⟩
      rw [map_name_eq hagree.2]
      exact hnames

/-! ### The snapshot around it -/

variable {digest : String}

theorem not_pyBlank {s : String} (hne : s ≠ "") (hall : ∀ c ∈ s.toList, 45 ≤ c.toNat ∧ c.toNat ≤ 122) :
    pyBlank s = false := by
  unfold pyBlank
  cases hcs : s.toList with
  | nil => exact absurd (String.toList_eq_nil_iff.mp hcs) hne
  | cons c =>
    obtain ⟨hlow, hhigh⟩ := hall c (hcs ▸ List.mem_cons_self)
    have hc : isPySpace c = false := by
      rw [isPySpace, not_isSpace hlow hhigh, Bool.false_or, Bool.and_eq_false_iff, decide_eq_false_iff_not,
        decide_eq_false_iff_not]
      omega
    rw [List.all_cons, hc, Bool.false_and]

theorem not_pyBlank_of_keyChar {s : String} (hne : s ≠ "") (hall : s.toList.all Controller.keyChar = true) :
    pyBlank s = false := by
  refine not_pyBlank hne fun c hc => ?_
  have hchar := List.all_eq_true.mp hall c hc
  simp only [Controller.keyChar, Char.isAlphanum, Char.isAlpha, Char.isUpper, Char.isLower, Char.isDigit, Bool.or_eq_true,
    Bool.and_eq_true, decide_eq_true_eq, beq_iff_eq, ge_iff_le, UInt32.le_iff_toNat_le] at hchar
  have hnat : c.toNat = c.val.toNat := rfl
  rcases hchar with ((hchar | rfl) | rfl) | rfl
  · simp at hchar
    omega
  · decide
  · decide
  · decide

/-- A digest passes the checks for one. -/
theorem digest_checks (h : Results.digestPattern digest = true) :
    pyBlank digest = false ∧ digest.utf8ByteSize ≤ 71 := by
  simp only [Results.digestPattern, Bool.and_eq_true, decide_eq_true_eq, List.all_eq_true] at h
  obtain ⟨⟨htake, hlength⟩, hhex⟩ := h
  have hmark : ∀ c ∈ ['s', 'h', 'a', '2', '5', '6', ':'], 45 ≤ c.toNat ∧ c.toNat ≤ 122 := by
    simp only [List.forall_mem_cons, List.not_mem_nil, false_imp_iff, implies_true, and_true]
    decide
  have hall : ∀ c ∈ digest.toList, 45 ≤ c.toNat ∧ c.toNat ≤ 122 := by
    rw [← List.take_append_drop 7 digest.toList, htake]
    refine List.forall_mem_append.mpr ⟨hmark, fun c hc => ?_⟩
    have hrange := Results.lowerHex_range (hhex c hc)
    omega
  refine ⟨not_pyBlank ?_ hall, ?_⟩
  · rintro rfl
    exact absurd htake (by decide)
  · rw [utf8ByteSize_of_ascii fun c hc => by have := hall c hc; omega]
    rw [List.length_drop] at hlength
    omega

/-- Around the scenario the snapshot is what Python expects. -/
theorem scenarioSnapshot_eq {ref : ConfigMapRef} (hdigest : Results.digestPattern digest = true) :
    scenarioSnapshot py (snapshotTree F ref digest scenario) =
      (scenarioRules py (scenarioTree F scenario)).map fun rules => some ⟨ref.name, ref.key, digest, rules⟩ := by
  have hkeys : onlyKeys py.repr [("sourceName", Value.string ref.name), ("sourceKey", .string ref.key),
      ("digest", .string digest), ("scenario", scenarioTree F scenario)] snapshotKeys "reliability.scenario" = .ok () :=
    onlyKeys_ok_iff.mpr (by simp [snapshotKeys])
  obtain ⟨hname, hnameSize, hnameChars⟩ := ref.name_valid
  obtain ⟨hkey, hkeySize, hkeyChars⟩ := ref.key_valid
  have hsourceName : nonemptyString "sourceName" 253 (.string ref.name) = .ok ref.name :=
    nonemptyString_ok_iff.mpr ⟨⟨not_pyBlank_of_keyChar hname hnameChars, hnameSize⟩, rfl⟩
  have hsourceKey : nonemptyString "sourceKey" 253 (.string ref.key) = .ok ref.key :=
    nonemptyString_ok_iff.mpr ⟨⟨not_pyBlank_of_keyChar hkey hkeyChars, hkeySize⟩, rfl⟩
  have hsource : nonemptyString "digest" 71 (.string digest) = .ok digest :=
    nonemptyString_ok_iff.mpr ⟨digest_checks hdigest, rfl⟩
  have hpattern : reject (!Results.digestPattern digest) "reliability.scenario.digest must be a sha256 digest" = .ok () := by
    simp [hdigest]
  show (onlyKeys py.repr _ snapshotKeys _ >>= fun _ => _ >>= fun _ => nonemptyString _ _ (.string ref.name) >>= fun _ =>
    nonemptyString _ _ (.string ref.key) >>= fun _ => nonemptyString _ _ (.string digest) >>= fun _ => _ >>= fun _ =>
    scenarioRules py (scenarioTree F scenario) >>= fun _ => _) = _
  simp only [hkeys, hsourceName, hsourceKey, hsource]
  show (reject (!Results.digestPattern digest) _ >>= _) = _
  rw [hpattern]
  cases scenarioRules py (scenarioTree F scenario) <;> rfl

theorem scenarioSnapshot_ok_iff (h : Results.Normal F scenario) {ref : ConfigMapRef}
    (hdigest : Results.digestPattern digest = true) {config : FaultScenarioConfig} :
    scenarioSnapshot py (snapshotTree F ref digest scenario) = .ok (some config) ↔
      (config.sourceName = ref.name ∧ config.sourceKey = ref.key ∧ config.digest = digest) ∧
      ∃ rules, scenario.rules = some rules ∧ (∀ rule ∈ rules, Clear rule) ∧ List.Forall₂ SameRule config.rules rules := by
  rw [scenarioSnapshot_eq hdigest, map_ok_iff]
  constructor
  · rintro ⟨_, hrules, hconfig⟩
    cases hconfig
    exact ⟨⟨rfl, rfl, rfl⟩, (scenarioRules_ok_iff h).mp hrules⟩
  · rintro ⟨⟨hname, hkey, hsource⟩, hrules⟩
    refine ⟨config.rules, (scenarioRules_ok_iff h).mpr hrules, ?_⟩
    rw [← hname, ← hkey, ← hsource]

/-- Go reads the worker's document as the scenario the controller had. -/
theorem scenarioOf_documentTree (h : Results.Normal F scenario) {config : FaultScenarioConfig}
    (hslice : scenario.rules = some rules) (hsame : List.Forall₂ SameRule config.rules rules) :
    scenarioOf F (documentTree py config) = some scenario := by
  have hall : (config.rules.map (rulePayload py)).mapM (decodeRule F) = some rules := by
    have hrepresentable := h.representable rules hslice
    clear hslice
    generalize config.rules = configs at hsame
    induction hsame with
    | nil => rfl
    | cons hrule _ ih =>
      obtain ⟨hfirst, hrest⟩ := List.forall_mem_cons.mp hrepresentable
      rw [List.map_cons, List.mapM_cons, decodeRule_rulePayload hfirst hrule, ih hrest]
      rfl
  have hrules : decodeSlice (decodeRule F) (.array (config.rules.map (rulePayload py))) = some (some rules) := by
    rw [decodeSlice, hall, Option.map_some]
  have hfields : scenarioOf F (documentTree py config) = some ⟨scenarioAPIVersion, scenarioKind, some rules⟩ := by
    show ([(ScenarioField.apiVersion.key, Value.string scenarioAPIVersion),
      (ScenarioField.kind.key, .string scenarioKind),
      (ScenarioField.rules.key, .array (config.rules.map (rulePayload py)))] :
        List (String × Value)).foldlM (addScenarioMember F) emptyScenario = _
    simp [setScenarioField, decodeString, hrules]
  rw [hfields, ← hslice, ← h.accepted.header.1, ← h.accepted.header.2]

end Scenario

/-! ## Controller and worker -/

section Agreement

open Results

variable {P : Platform} {F : FloatFormat} {py : PyFormat F} {payload canonical : Bytes} {scenario : FaultScenario}
  {digest : String}

/-- The worker reads the snapshot of a scenario with the same rules in the same order, and what it sends back has the
    digest of the original: for the Result API, which decodes the document and parses what it marshals from that, and
    for any text of the document that `parseScenario` is willing to look at. -/
def Agreed (P : Platform) (py : PyFormat F) (ref : ConfigMapRef) (scenario : FaultScenario) (canonical : Bytes)
    (digest : String) : Prop :=
  ∃ config, scenarioSnapshot py (snapshotTree F ref digest scenario) = .ok (some config) ∧
    (config.sourceName = ref.name ∧ config.sourceKey = ref.key ∧ config.digest = digest) ∧
    List.Forall₂ SameRule config.rules (scenario.rules.getD []) ∧
    (∃ document, scenarioOf F (documentTree py config) = some document ∧
      parseScenario P (P.marshalScenario document) = .ok (scenario, canonical, digest)) ∧
    ∀ text : Bytes, parse (runes text) = some (documentTree py config) → text.length ≤ maxScenarioBytes →
      parseScenario P text = .ok (scenario, canonical, digest)

/-- Every rule that Go accepted has a counterpart in the worker. -/
theorem exists_sameRules {rules : List FaultRule} (h : ∀ rule ∈ rules, RuleAccepted rule ∧ rule.Representable F) :
    ∃ configs, List.Forall₂ SameRule configs rules := by
  induction rules with
  | nil => exact ⟨[], .nil⟩
  | cons rule rules ih =>
    obtain ⟨⟨haccepted, hrepresentable⟩, hrest⟩ := List.forall_mem_cons.mp h
    obtain ⟨_, hfault⟩ := exists_fault haccepted.fault
    obtain ⟨q, hq, -⟩ := exists_probability haccepted hrepresentable
    obtain ⟨configs, hconfigs⟩ := ih hrest
    exact ⟨_ :: configs, .cons (sameRule_ruleConfig haccepted hfault hq) hconfigs⟩

/-- **Controller and worker agree** on a scenario that Go parsed exactly if it has a list of rules, no name or case id
    is blank to Python, and its canonical form is within the limit itself. -/
theorem scenario_agreement_iff (hP : UsesJSON P F) (ref : ConfigMapRef)
    (h : parseScenario P payload = .ok (scenario, canonical, digest)) :
    Agreed P py ref scenario canonical digest ↔
      (∃ rules, scenario.rules = some rules ∧ ∀ rule ∈ rules, Clear rule) ∧ canonical.length ≤ maxScenarioBytes := by
  have hnormal := normal_of_parseScenario hP h
  obtain ⟨-, -, rfl, rfl⟩ := parseScenario_ok_iff.mp h
  have hdigest := @digestPattern_sha256Hex P (P.marshalScenario scenario)
  constructor
  · rintro ⟨_, hread, -, -, ⟨_, hdocument, hparse⟩, -⟩
    obtain ⟨-, rules, hslice, hclear, hsame⟩ := (scenarioSnapshot_ok_iff hnormal hdigest).mp hread
    cases hdocument.symm.trans (scenarioOf_documentTree hnormal hslice hsame)
    exact ⟨⟨rules, hslice, hclear⟩, (parseScenario_ok_iff.mp hparse).1⟩
  · rintro ⟨⟨rules, hslice, hclear⟩, hsize⟩
    obtain ⟨configs, hsame⟩ := exists_sameRules fun rule hrule =>
      ⟨(rules_of_normal hnormal hslice rule hrule).1, (rules_of_normal hnormal hslice rule hrule).2.1⟩
    have hdocument := fun digest =>
      @scenarioOf_documentTree F py scenario rules hnormal ⟨ref.name, ref.key, digest, configs⟩ hslice hsame
    refine ⟨⟨ref.name, ref.key, _, configs⟩, (scenarioSnapshot_ok_iff hnormal hdigest).mpr
      ⟨⟨rfl, rfl, rfl⟩, rules, hslice, hclear, hsame⟩, ⟨rfl, rfl, rfl⟩, by rwa [hslice], ⟨scenario, hdocument _, ?_⟩, ?_⟩
    · -- the Result API parses what it marshals itself, which is the canonical form again
      rw [hP.marshal] at hsize ⊢
      exact parseScenario_writeScenario hP hnormal true hsize
    · intro text htext hlimit
      refine parseScenario_ok_iff.mpr ⟨hlimit, ⟨scenario, ?_, hnormal.accepted, hnormal.normal⟩, rfl, rfl⟩
      rw [hP.decode, decodeScenario, htext, Option.bind_some, hdocument]

end Agreement

/-! ### Scenarios that agree and that do not -/

section Runs

open Results

/-- Python's floats, as far as they are integers. -/
def pyIntegers : PyFormat integerFormat where
  repr s := "'" ++ s ++ "'"
  formatFloat q := integerFormat.format (.finite q)
  parse_formatFloat := integerFormat.parse_format

def faultsRef : ConfigMapRef where
  name := "faults"
  key := "scenario.json"
  name_valid := by decide
  key_valid := by decide

theorem scenario_agreement_one_case :
    Agreed (Platform.withJSON integerFormat) pyIntegers faultsRef (rateLimited ["a < b"])
      (marshalScenario integerFormat (rateLimited ["a < b"]))
      ("sha256:" ++ checksumHex (marshalScenario integerFormat (rateLimited ["a < b"]))) := by
  have hparse := parseScenario_writeScenario (usesJSON_withJSON integerFormat)
    (@normal_rateLimited ["a < b"] (by decide)) false (by decide +kernel)
  refine (scenario_agreement_iff (usesJSON_withJSON integerFormat) faultsRef hparse).mpr
    ⟨⟨_, rfl, fun rule hrule => ?_⟩, by decide +kernel⟩
  obtain rfl := List.mem_singleton.mp hrule
  exact (by decide : pyBlank "slow down" = false ∧ ∀ id ∈ ["a < b"], pyBlank id = false)

/-- A scenario without a list of rules. -/
def noRules : FaultScenario := ⟨scenarioAPIVersion, scenarioKind, none⟩

theorem normal_noRules : Normal integerFormat noRules :=
  ⟨⟨⟨rfl, rfl⟩, Nat.zero_le _, nofun, List.nodup_nil⟩, rfl, nofun⟩

/-- Go accepts a document whose rules are `null`, and writes `null` into the snapshot; Python asks for an array. -/
theorem scenario_agreement_null_rules :
    ∃ canonical digest,
      parseScenario (Platform.withJSON integerFormat) (writeScenario integerFormat false noRules) =
        .ok (noRules, canonical, digest) ∧
      scenarioSnapshot pyIntegers (snapshotTree integerFormat faultsRef digest noRules) =
        .error "FaultScenario.rules must be an array of at most 100 entries" ∧
      ¬Agreed (Platform.withJSON integerFormat) pyIntegers faultsRef noRules canonical digest := by
  have hparse := parseScenario_writeScenario (usesJSON_withJSON integerFormat) normal_noRules false (by decide +kernel)
  have hrejected : scenarioSnapshot pyIntegers (snapshotTree integerFormat faultsRef
      ("sha256:" ++ checksumHex (marshalScenario integerFormat noRules)) noRules) =
        .error "FaultScenario.rules must be an array of at most 100 entries" := by
    have hdigest := @digestPattern_sha256Hex (Platform.withJSON integerFormat) (marshalScenario integerFormat noRules)
    exact scenarioSnapshot_eq hdigest
  refine ⟨_, _, hparse, hrejected, ?_⟩
  rintro ⟨_, hread, -⟩
  exact nomatch hrejected.symm.trans hread

end Runs

end AgentStorm.Worker
