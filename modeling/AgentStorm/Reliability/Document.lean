import AgentStorm.Foundation.Json
import AgentStorm.Reliability.Scenario

/-!
# `Reliability.Document` — fault scenarios as JSON documents

What `encoding/json` does with the types of `scenario.go`: `decodeScenario` is a decoder with
`DisallowUnknownFields`, `marshalScenario` is `json.Marshal` with its HTML escapes. A key names a field
up to case, a later member overrides an earlier one, `null` clears a pointer or a slice and leaves
anything else alone. The text of a float is a parameter; the format promises that what it writes reads
back.
-/

namespace AgentStorm.Reliability

open Numeric Text Json

structure FloatFormat where
  /-- `strconv.ParseFloat` on a number literal; `none` if it is out of range. -/
  parse : String → Option Float64
  /-- The literal `encoding/json` writes. -/
  format : Float64 → String
  /-- No literal stands for an infinity or for NaN. -/
  finite_of_parse : ∀ {literal x}, parse literal = some x → ∃ q, x = .finite q
  isNumber_format : ∀ {literal x}, parse literal = some x → isNumber (format x).toList = true
  parse_format : ∀ {literal x}, parse literal = some x → parse (format x) = some x

/-! ## Fields -/

/-- Case folding as far as it can reach an ASCII letter: the long s and the Kelvin sign fold to one. -/
def foldRune (c : Char) : Char :=
  if 'A' ≤ c ∧ c ≤ 'Z' then Char.ofNat (c.toNat + 32)
  else if c.toNat = 0x17F then 's'
  else if c.toNat = 0x212A then 'k'
  else c

def sameName (key name : String) : Bool := decide (key.toList.map foldRune = name.toList.map foldRune)

inductive RuleField
  | name
  | fault
  | probability
  | caseIDs
  | iterations
  | attempts
  | delayMS
  | statusCode
  | toolName
  deriving DecidableEq

namespace RuleField

def key : RuleField → String
  | name => "name"
  | fault => "fault"
  | probability => "probability"
  | caseIDs => "caseIDs"
  | iterations => "iterations"
  | attempts => "attempts"
  | delayMS => "delayMs"
  | statusCode => "statusCode"
  | toolName => "toolName"

def all : List RuleField :=
  [name, fault, probability, caseIDs, iterations, attempts, delayMS, statusCode, toolName]

/-- The field a member is decoded into. -/
def named (key : String) : Option RuleField := all.find? (sameName key ·.key)

@[simp] theorem named_key (field : RuleField) : named field.key = some field := by
  cases field <;> decide

end RuleField

inductive ScenarioField
  | apiVersion
  | kind
  | rules
  deriving DecidableEq

namespace ScenarioField

def key : ScenarioField → String
  | apiVersion => "apiVersion"
  | kind => "kind"
  | rules => "rules"

def named (key : String) : Option ScenarioField := [apiVersion, kind, rules].find? (sameName key ·.key)

@[simp] theorem named_key (field : ScenarioField) : named field.key = some field := by
  cases field <;> decide

end ScenarioField

/-! ## Decoding -/

def decodeString (old : String) : Value → Option String
  | .null => some old
  | .string s => some s
  | _ => none

/-- A signed integer type of the given width. -/
def inRange (width : Nat) (n : Int) : Bool := decide (-2 ^ (width - 1) ≤ n ∧ n < 2 ^ (width - 1))

/-- A literal with a fraction or an exponent is no integer. -/
def parseInt (width : Nat) (literal : String) : Option Int := literal.toInt?.filter (inRange width)

def decodeInt (width : Nat) : Value → Option Int
  | .null => some 0
  | .number literal => parseInt width literal
  | _ => none

/-- A pointer; `null` makes it nil. -/
def decodePointer {α : Type} (parse : String → Option α) : Value → Option (Option α)
  | .null => some none
  | .number literal => (parse literal).map some
  | _ => none

/-- A slice; `null` makes it nil. -/
def decodeSlice {α : Type} (decode : Value → Option α) : Value → Option (Option (List α))
  | .null => some none
  | .array items => (items.mapM decode).map some
  | _ => none

/-- A slice that is only looked at for its elements. -/
def decodeElements {α : Type} (decode : Value → Option α) (value : Value) : Option (List α) :=
  (decodeSlice decode value).map (·.getD [])

def emptyRule : FaultRule := ⟨"", "", none, [], [], [], none, none, ""⟩

def emptyScenario : FaultScenario := ⟨"", "", none⟩

section Format

variable (F : FloatFormat)

def setRuleField (rule : FaultRule) (field : RuleField) (value : Value) : Option FaultRule :=
  match field with
  | .name => (decodeString rule.name value).map ({ rule with name := · })
  | .fault => (decodeString rule.fault value).map ({ rule with fault := · })
  | .probability => (decodePointer F.parse value).map ({ rule with probability := · })
  | .caseIDs => (decodeElements (decodeString "") value).map ({ rule with caseIDs := · })
  | .iterations => (decodeElements (decodeInt 64) value).map ({ rule with iterations := · })
  | .attempts => (decodeElements (decodeInt 32) value).map ({ rule with attempts := · })
  | .delayMS => (decodePointer (parseInt 64) value).map ({ rule with delayMS := · })
  | .statusCode => (decodePointer (parseInt 64) value).map ({ rule with statusCode := · })
  | .toolName => (decodeString rule.toolName value).map ({ rule with toolName := · })

/-- One member of a rule object; an unknown key is an error. -/
def addRuleMember (rule : FaultRule) (member : String × Value) : Option FaultRule :=
  (RuleField.named member.1).bind fun field => setRuleField F rule field member.2

def decodeRule : Value → Option FaultRule
  | .null => some emptyRule
  | .object members => members.foldlM (addRuleMember F) emptyRule
  | _ => none

def setScenarioField (scenario : FaultScenario) (field : ScenarioField) (value : Value) : Option FaultScenario :=
  match field with
  | .apiVersion => (decodeString scenario.apiVersion value).map ({ scenario with apiVersion := · })
  | .kind => (decodeString scenario.kind value).map ({ scenario with kind := · })
  | .rules => (decodeSlice (decodeRule F) value).map ({ scenario with rules := · })

def addScenarioMember (scenario : FaultScenario) (member : String × Value) : Option FaultScenario :=
  (ScenarioField.named member.1).bind fun field => setScenarioField F scenario field member.2

def scenarioOf : Value → Option FaultScenario
  | .null => some emptyScenario
  | .object members => members.foldlM (addScenarioMember F) emptyScenario
  | _ => none

/-- `Decode` with unknown fields disallowed, followed by `requireEOF`. -/
def decodeScenario (payload : List UInt8) : Option FaultScenario := (parse (runes payload)).bind (scenarioOf F)

/-! ## Encoding -/

/-- A member unless it is empty. -/
def omitEmpty (empty : Bool) (field : RuleField) (value : Value) : List (String × Value) :=
  if empty then [] else [(field.key, value)]

def integer (n : Int) : Value := .number n.repr

/-- A pointer that is omitted when it is nil. -/
def omitNil (field : RuleField) : Option Int → List (String × Value)
  | some n => [(field.key, integer n)]
  | none => []

def probabilityTree : Option Float64 → Value
  | some p => .number (F.format p)
  | none => .null

def ruleMembers (rule : FaultRule) : List (String × Value) :=
  [(RuleField.name.key, .string rule.name), (RuleField.fault.key, .string rule.fault),
    (RuleField.probability.key, probabilityTree F rule.probability)] ++
  omitEmpty rule.caseIDs.isEmpty .caseIDs (.array (rule.caseIDs.map .string)) ++
  omitEmpty rule.iterations.isEmpty .iterations (.array (rule.iterations.map integer)) ++
  omitEmpty rule.attempts.isEmpty .attempts (.array (rule.attempts.map integer)) ++
  omitNil .delayMS rule.delayMS ++ omitNil .statusCode rule.statusCode ++
  omitEmpty (decide (rule.toolName = "")) .toolName (.string rule.toolName)

def ruleTree (rule : FaultRule) : Value := .object (ruleMembers F rule)

def rulesTree : Option (List FaultRule) → Value
  | some rules => .array (rules.map (ruleTree F))
  | none => .null

def scenarioTree (scenario : FaultScenario) : Value :=
  .object [(ScenarioField.apiVersion.key, .string scenario.apiVersion), (ScenarioField.kind.key, .string scenario.kind),
    (ScenarioField.rules.key, rulesTree F scenario.rules)]

/-- An encoder with or without HTML escapes. -/
def writeScenario (html : Bool) (scenario : FaultScenario) : List UInt8 :=
  (encode html (scenarioTree F scenario)).flatMap String.utf8EncodeChar

/-- `json.Marshal` -/
def marshalScenario (scenario : FaultScenario) : List UInt8 := writeScenario F true scenario

end Format

/-! ## Round trip -/

section RoundTrip

variable {F : FloatFormat}

/-- The numbers of a rule are values of their Go types. -/
structure FaultRule.Representable (F : FloatFormat) (rule : FaultRule) : Prop where
  probability : ∀ p ∈ rule.probability, ∃ literal, F.parse literal = some p
  iterations : ∀ n ∈ rule.iterations, inRange 64 n = true
  attempts : ∀ n ∈ rule.attempts, inRange 32 n = true
  delayMS : ∀ n ∈ rule.delayMS, inRange 64 n = true
  statusCode : ∀ n ∈ rule.statusCode, inRange 64 n = true

def FaultScenario.Representable (F : FloatFormat) (scenario : FaultScenario) : Prop :=
  ∀ rules ∈ scenario.rules, ∀ rule ∈ rules, rule.Representable F

variable {α : Type}

theorem mapM_map_eq_some {β : Type} {f : β → α} {g : α → Option β} {l : List β}
    (h : ∀ b ∈ l, g (f b) = some b) : (l.map f).mapM g = some l := by
  induction l with
  | nil => rfl
  | cons b l ih =>
    rw [List.map_cons, List.mapM_cons, h b List.mem_cons_self,
      ih fun b' hb' => h b' (List.mem_cons_of_mem b hb')]
    rfl

variable {width : Nat}

theorem parseInt_repr {n : Int} (h : inRange width n = true) : parseInt width n.repr = some n := by
  rw [parseInt, Int.toInt?_repr, Option.filter_some_pos h]

@[simp] theorem addRuleMember_key (rule : FaultRule) (field : RuleField) (value : Value) :
    addRuleMember F rule (field.key, value) = setRuleField F rule field value := by
  simp [addRuleMember]

variable {rule rule' : FaultRule}

/-- A member that may be left out sets its field, if leaving it out changes nothing. -/
theorem foldlM_omitEmpty {empty : Bool} {field : RuleField} {value : Value}
    (hset : setRuleField F rule field value = some rule') (hempty : empty = true → rule' = rule) :
    (omitEmpty empty field value).foldlM (addRuleMember F) rule = some rule' := by
  cases empty with
  | true => rw [hempty rfl]; rfl
  | false => simp [omitEmpty, hset]

variable {pointer : Option Int}

theorem foldlM_omitNil {field : RuleField}
    (hset : ∀ n ∈ pointer, setRuleField F rule field (integer n) = some rule')
    (hnil : pointer = none → rule' = rule) :
    (omitNil field pointer).foldlM (addRuleMember F) rule = some rule' := by
  cases pointer with
  | none => rw [hnil rfl]; rfl
  | some n => simp [omitNil, hset n rfl]

theorem foldlM_caseIDs (hrule : rule.caseIDs = []) (ids : List String) :
    (omitEmpty ids.isEmpty .caseIDs (.array (ids.map .string))).foldlM (addRuleMember F) rule =
      some { rule with caseIDs := ids } := by
  have hids : (ids.map Value.string).mapM (decodeString "") = some ids := mapM_map_eq_some fun _ _ => rfl
  refine foldlM_omitEmpty ?_ fun h => by rw [List.isEmpty_iff.mp h, ← hrule]
  simp [setRuleField, decodeElements, decodeSlice, hids]

variable {ns : List Int}

/-- A list of integers is read back. -/
theorem decodeElements_integers (hns : ∀ n ∈ ns, inRange width n = true) :
    decodeElements (decodeInt width) (.array (ns.map integer)) = some ns := by
  have hall : (ns.map integer).mapM (decodeInt width) = some ns := mapM_map_eq_some fun n hn => parseInt_repr (hns n hn)
  simp [decodeElements, decodeSlice, hall]

theorem foldlM_iterations (hrule : rule.iterations = []) (hns : ∀ n ∈ ns, inRange 64 n = true) :
    (omitEmpty ns.isEmpty .iterations (.array (ns.map integer))).foldlM (addRuleMember F) rule =
      some { rule with iterations := ns } := by
  refine foldlM_omitEmpty ?_ fun h => by rw [List.isEmpty_iff.mp h, ← hrule]
  simp [setRuleField, decodeElements_integers hns]

theorem foldlM_attempts (hrule : rule.attempts = []) (hns : ∀ n ∈ ns, inRange 32 n = true) :
    (omitEmpty ns.isEmpty .attempts (.array (ns.map integer))).foldlM (addRuleMember F) rule =
      some { rule with attempts := ns } := by
  refine foldlM_omitEmpty ?_ fun h => by rw [List.isEmpty_iff.mp h, ← hrule]
  simp [setRuleField, decodeElements_integers hns]

theorem decodePointer_integer {n : Int} (h : inRange 64 n = true) :
    decodePointer (parseInt 64) (integer n) = some (some n) := by
  simp [decodePointer, integer, parseInt_repr h]

theorem foldlM_delayMS (hrule : rule.delayMS = none) {delay : Option Int}
    (hdelay : ∀ n ∈ delay, inRange 64 n = true) :
    (omitNil .delayMS delay).foldlM (addRuleMember F) rule = some { rule with delayMS := delay } := by
  refine foldlM_omitNil (fun n hn => ?_) fun h => by rw [h, ← hrule]
  rw [setRuleField, decodePointer_integer (hdelay n hn), Option.map_some, hn]

theorem foldlM_statusCode (hrule : rule.statusCode = none) {code : Option Int}
    (hcode : ∀ n ∈ code, inRange 64 n = true) :
    (omitNil .statusCode code).foldlM (addRuleMember F) rule = some { rule with statusCode := code } := by
  refine foldlM_omitNil (fun n hn => ?_) fun h => by rw [h, ← hrule]
  rw [setRuleField, decodePointer_integer (hcode n hn), Option.map_some, hn]

theorem foldlM_toolName (hrule : rule.toolName = "") (name : String) :
    (omitEmpty (decide (name = "")) .toolName (.string name)).foldlM (addRuleMember F) rule =
      some { rule with toolName := name } :=
  foldlM_omitEmpty rfl fun h => by rw [of_decide_eq_true h, ← hrule]

theorem decodePointer_probability {p : Option Float64} (hp : ∀ x ∈ p, ∃ literal, F.parse literal = some x) :
    decodePointer F.parse (probabilityTree F p) = some p := by
  cases p with
  | none => rfl
  | some x =>
    obtain ⟨_, hliteral⟩ := hp x rfl
    simp [probabilityTree, decodePointer, F.parse_format hliteral]

theorem decodeRule_ruleTree (h : rule.Representable F) : decodeRule F (ruleTree F rule) = some rule := by
  have hfirst : ([(RuleField.name.key, Value.string rule.name), (RuleField.fault.key, .string rule.fault),
      (RuleField.probability.key, probabilityTree F rule.probability)] : List (String × Value)).foldlM (addRuleMember F)
        emptyRule = some { emptyRule with name := rule.name, fault := rule.fault, probability := rule.probability } := by
    simp [setRuleField, decodeString, decodePointer_probability h.probability]
  -- the rest of the fields in the order they are written; each is still empty when it is reached
  simp only [decodeRule, ruleTree, ruleMembers, List.foldlM_append, hfirst, Option.bind_eq_bind, Option.bind_some]
  rw [foldlM_caseIDs rfl, Option.bind_some, foldlM_iterations rfl h.iterations, Option.bind_some,
    foldlM_attempts rfl h.attempts, Option.bind_some, foldlM_delayMS rfl h.delayMS, Option.bind_some,
    foldlM_statusCode rfl h.statusCode, Option.bind_some, foldlM_toolName rfl]

@[simp] theorem addScenarioMember_key (scenario : FaultScenario) (field : ScenarioField) (value : Value) :
    addScenarioMember F scenario (field.key, value) = setScenarioField F scenario field value := by
  simp [addScenarioMember]

variable {scenario : FaultScenario}

theorem scenarioOf_scenarioTree (h : scenario.Representable F) :
    scenarioOf F (scenarioTree F scenario) = some scenario := by
  have hrules : decodeSlice (decodeRule F) (rulesTree F scenario.rules) = some scenario.rules := by
    cases hslice : scenario.rules with
    | none => rfl
    | some rules =>
      have hall : (rules.map (ruleTree F)).mapM (decodeRule F) = some rules :=
        mapM_map_eq_some fun rule hrule => decodeRule_ruleTree (h rules hslice rule hrule)
      simp [rulesTree, decodeSlice, hall]
  simp [scenarioOf, scenarioTree, setScenarioField, decodeString, hrules]

theorem valid_strings (ids : List String) : (Value.array (ids.map .string)).Valid := by
  refine valid_array fun item hitem => ?_
  obtain ⟨id, -, rfl⟩ := List.mem_map.mp hitem
  exact valid_string id

theorem valid_integers (ns : List Int) : (Value.array (ns.map integer)).Valid := by
  refine valid_array fun item hitem => ?_
  obtain ⟨n, -, rfl⟩ := List.mem_map.mp hitem
  exact valid_number (isNumber_repr n)

theorem valid_omitEmpty {empty : Bool} {field : RuleField} {value : Value} (hvalue : value.Valid)
    {member : String × Value} (h : member ∈ omitEmpty empty field value) : member.2.Valid := by
  unfold omitEmpty at h
  split at h
  · cases h
  · rw [List.mem_singleton.mp h]
    exact hvalue

theorem valid_omitNil {field : RuleField} {member : String × Value} (h : member ∈ omitNil field pointer) :
    member.2.Valid := by
  cases pointer with
  | none => exact absurd h List.not_mem_nil
  | some n =>
    rw [List.mem_singleton.mp h]
    exact valid_number (isNumber_repr n)

theorem valid_probabilityTree {p : Option Float64} (hp : ∀ x ∈ p, ∃ literal, F.parse literal = some x) :
    (probabilityTree F p).Valid := by
  cases p with
  | none => exact valid_null
  | some x =>
    obtain ⟨_, hliteral⟩ := hp x rfl
    exact valid_number (F.isNumber_format hliteral)

theorem valid_ruleTree (h : rule.Representable F) : (ruleTree F rule).Valid := by
  refine valid_object fun member hmember => ?_
  simp only [ruleMembers, List.mem_append, List.mem_cons, List.not_mem_nil, or_false] at hmember
  rcases hmember with ((((((rfl | rfl | rfl) | hm) | hm) | hm) | hm) | hm) | hm
  · exact valid_string _
  · exact valid_string _
  · exact valid_probabilityTree h.probability
  · exact valid_omitEmpty (valid_strings _) hm
  · exact valid_omitEmpty (valid_integers _) hm
  · exact valid_omitEmpty (valid_integers _) hm
  · exact valid_omitNil hm
  · exact valid_omitNil hm
  · exact valid_omitEmpty (valid_string _) hm

/-- The literals in a scenario's document are numbers. -/
theorem valid_scenarioTree (h : scenario.Representable F) : (scenarioTree F scenario).Valid := by
  refine valid_object fun member hmember => ?_
  simp only [List.mem_cons, List.not_mem_nil, or_false] at hmember
  rcases hmember with rfl | rfl | rfl
  · exact valid_string _
  · exact valid_string _
  · cases hslice : scenario.rules with
    | none => exact valid_null
    | some rules =>
      refine valid_array fun item hitem => ?_
      obtain ⟨rule, hmem, rfl⟩ := List.mem_map.mp hitem
      exact valid_ruleTree (h rules hslice rule hmem)

/-- **A scenario is read back from what an encoder writes.** -/
theorem decodeScenario_writeScenario (h : scenario.Representable F) (html : Bool) :
    decodeScenario F (writeScenario F html scenario) = some scenario := by
  rw [decodeScenario, writeScenario, runes_flatMap, parse_encode html (valid_scenarioTree h), Option.bind_some,
    scenarioOf_scenarioTree h]

/-! ## What decoding gives -/

/-- What holds of the start and is kept by every member holds of the decoded value. -/
theorem foldlM_invariant {σ : Type} {f : σ → α → Option σ} {P : σ → Prop} {s s' : σ} {l : List α}
    (hs : P s) (hstep : ∀ s a s', P s → f s a = some s' → P s') (h : l.foldlM f s = some s') : P s' := by
  induction l generalizing s with
  | nil => exact Option.some.inj h ▸ hs
  | cons a l ih =>
    rw [List.foldlM_cons] at h
    obtain ⟨t, ht, h⟩ := Option.bind_eq_some_iff.mp h
    exact ih (hstep s a t hs ht) h

theorem mem_of_mapM {β : Type} {g : α → Option β} {l : List α} {r : List β} (h : l.mapM g = some r)
    {b : β} (hb : b ∈ r) : ∃ a ∈ l, g a = some b := by
  induction l generalizing r with
  | nil =>
    cases h
    cases hb
  | cons a l ih =>
    rw [List.mapM_cons] at h
    obtain ⟨b', hb', h⟩ := Option.bind_eq_some_iff.mp h
    obtain ⟨r', hr', h⟩ := Option.bind_eq_some_iff.mp h
    cases h
    rcases List.mem_cons.mp hb with rfl | hb
    · exact ⟨a, List.mem_cons_self, hb'⟩
    · obtain ⟨a', ha', hg⟩ := ih hr' hb
      exact ⟨a', List.mem_cons_of_mem a ha', hg⟩

theorem inRange_of_parseInt {literal : String} {n : Int} (h : parseInt width literal = some n) :
    inRange width n = true :=
  (Option.filter_eq_some_iff.mp h).2

theorem mem_decodeElements {decode : Value → Option α} {value : Value} {elements : List α}
    (h : decodeElements decode value = some elements) {a : α} (ha : a ∈ elements) :
    ∃ item, decode item = some a := by
  obtain ⟨_, hslice, rfl⟩ := Option.map_eq_some_iff.mp h
  cases value with
  | null =>
    cases hslice
    cases ha
  | array =>
    obtain ⟨_, helements, rfl⟩ := Option.map_eq_some_iff.mp hslice
    obtain ⟨item, -, hitem⟩ := mem_of_mapM helements ha
    exact ⟨item, hitem⟩
  | bool | number | string | object => cases hslice

theorem inRange_of_decodeElements (hwidth : inRange width 0 = true) {value : Value}
    (h : decodeElements (decodeInt width) value = some ns) : ∀ n ∈ ns, inRange width n = true := by
  intro n hn
  obtain ⟨item, hitem⟩ := mem_decodeElements h hn
  cases item with
  | null => exact Option.some.inj hitem ▸ hwidth
  | number => exact inRange_of_parseInt hitem
  | bool | string | array | object => cases hitem

theorem parse_of_decodePointer {parse : String → Option α} {value : Value} {pointer : Option α}
    (h : decodePointer parse value = some pointer) :
    ∀ a ∈ pointer, ∃ literal, parse literal = some a := by
  intro a ha
  cases value with
  | null =>
    cases h
    cases ha
  | number literal =>
    obtain ⟨b, hb, rfl⟩ := Option.map_eq_some_iff.mp h
    exact ⟨literal, Option.some.inj ha ▸ hb⟩
  | bool | string | array | object => cases h

theorem inRange_of_decodePointer {value : Value}
    (h : decodePointer (parseInt width) value = some pointer) :
    ∀ n ∈ pointer, inRange width n = true := by
  intro n hn
  obtain ⟨_, hliteral⟩ := parse_of_decodePointer h n hn
  exact inRange_of_parseInt hliteral

theorem representable_setRuleField {field : RuleField} {value : Value} (hrule : rule.Representable F)
    (h : setRuleField F rule field value = some rule') : rule'.Representable F := by
  cases field with
  | name | fault | toolName | caseIDs =>
    obtain ⟨_, -, rfl⟩ := Option.map_eq_some_iff.mp h
    exact ⟨hrule.probability, hrule.iterations, hrule.attempts, hrule.delayMS, hrule.statusCode⟩
  | probability =>
    obtain ⟨_, hp, rfl⟩ := Option.map_eq_some_iff.mp h
    exact ⟨parse_of_decodePointer hp, hrule.iterations, hrule.attempts, hrule.delayMS, hrule.statusCode⟩
  | iterations =>
    obtain ⟨_, hns, rfl⟩ := Option.map_eq_some_iff.mp h
    exact ⟨hrule.probability, inRange_of_decodeElements (by decide) hns, hrule.attempts, hrule.delayMS, hrule.statusCode⟩
  | attempts =>
    obtain ⟨_, hns, rfl⟩ := Option.map_eq_some_iff.mp h
    exact ⟨hrule.probability, hrule.iterations, inRange_of_decodeElements (by decide) hns, hrule.delayMS, hrule.statusCode⟩
  | delayMS =>
    obtain ⟨_, hn, rfl⟩ := Option.map_eq_some_iff.mp h
    exact ⟨hrule.probability, hrule.iterations, hrule.attempts, inRange_of_decodePointer hn, hrule.statusCode⟩
  | statusCode =>
    obtain ⟨_, hn, rfl⟩ := Option.map_eq_some_iff.mp h
    exact ⟨hrule.probability, hrule.iterations, hrule.attempts, hrule.delayMS, inRange_of_decodePointer hn⟩

theorem representable_decodeRule {value : Value} (h : decodeRule F value = some rule) :
    rule.Representable F := by
  have hempty : emptyRule.Representable F := ⟨nofun, nofun, nofun, nofun, nofun⟩
  cases value with
  | null => exact Option.some.inj h ▸ hempty
  | object =>
    refine foldlM_invariant hempty (fun rule member rule' hrule hstep => ?_) h
    obtain ⟨_, -, hset⟩ := Option.bind_eq_some_iff.mp hstep
    exact representable_setRuleField hrule hset
  | bool | number | string | array => cases h

/-- What decoding gives can be written down. -/
theorem representable_decodeScenario {payload : List UInt8}
    (h : decodeScenario F payload = some scenario) : scenario.Representable F := by
  obtain ⟨value, -, h⟩ := Option.bind_eq_some_iff.mp h
  have hempty : emptyScenario.Representable F := nofun
  cases value with
  | null => exact Option.some.inj h ▸ hempty
  | object =>
    refine foldlM_invariant hempty (fun s member s' hs hstep => ?_) h
    obtain ⟨field, -, hset⟩ := Option.bind_eq_some_iff.mp hstep
    cases field with
    | apiVersion | kind =>
      obtain ⟨_, -, rfl⟩ := Option.map_eq_some_iff.mp hset
      exact hs
    | rules =>
      -- the new slice replaces the old one, so its rules are all that matter
      obtain ⟨slice, hslice, rfl⟩ := Option.map_eq_some_iff.mp hset
      intro rules hrules rule hrule
      obtain rfl : slice = some rules := hrules
      have helements : decodeElements (decodeRule F) member.2 = some rules := by
        rw [decodeElements, hslice]
        rfl
      obtain ⟨_, hitem⟩ := mem_decodeElements helements hrule
      exact representable_decodeRule hitem
  | bool | number | string | array => cases h

end RoundTrip

end AgentStorm.Reliability
