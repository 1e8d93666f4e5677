import AgentStorm.Worker.Dataset

/-!
# `Promptfoo.Generate` — the dataset as the replay reads it

`load_dataset` and `effective_assertions` of `integrations/promptfoo/generate.py`, next to those of the
worker. The replay takes the assertions as they are written; the worker builds specifications.
`Matches` says when an object is the specification with the same type and parameters.

They differ in three places: the worker passes over an `expected_contains` that is empty or no string,
it takes `"assertions": null` for no assertions, and it turns the bound of a latency into a float.
`replay_assertions_iff`: there is no fourth.
-/

namespace AgentStorm.Promptfoo

open Checks Numeric Python Worker

inductive GenerateError
  /-- An exception of the standard library. -/
  | raised
  /-- `ResultAPIError(message)` -/
  | api (message : String)
  deriving DecidableEq

section Generator

variable (R : DatasetReader)

def parseCase (number : Nat) (line : List Char) : Except GenerateError Value :=
  match R.loads line with
  | .ok case => .ok case
  | .error (some _) => .error (.api ("invalid dataset JSONL at line " ++ toString number))
  | .error none => .error .raised

def asCaseObject (number : Nat) : Value → Except GenerateError JSONObject
  | .dict members => .ok members
  | _ => .error (.api ("dataset line " ++ toString number ++ " must be an object"))

/-- The loop of `load_dataset` from line `number` on; `seen` are the keys that `cases` has by then. -/
def loadCases : Nat → List Python.Text → List (List Char) → Except GenerateError (List (Python.Text × JSONObject))
  | _, _, [] => .ok []
  | number, seen, line :: lines =>
    if line.all Text.isPySpace then loadCases (number + 1) seen lines
    else do
      let value ← parseCase R number line
      let case ← asCaseObject number value
      let caseID := R.caseID number case
      reject (decide (caseID ∈ seen)) (.api ("duplicate dataset case ID " ++ R.repr caseID))
      let cases ← loadCases (number + 1) (caseID :: seen) lines
      return (caseID, case) :: cases

/-- `load_dataset`; the dictionary of the cases is in the order of their lines. -/
def loadDataset (file : List Char) : Except GenerateError (List (Python.Text × JSONObject)) := do
  let cases ← loadCases R 1 [] (splitlines (translateNewlines file))
  reject cases.isEmpty (.api "dataset contains no cases")
  return cases

end Generator

/-- The assertion of `expected_contains`. -/
def legacyAssertion (case : JSONObject) : Except GenerateError (List JSONObject) :=
  match get? case "expected_contains" with
  | none => .ok []
  | some .none => .ok []
  | some (.str legacy) => .ok [[(text "type", .str (text "contains")), (text "value", .str legacy)]]
  | some _ => .error (.api "expected_contains must be a string")

def asAssertion : Value → Except GenerateError JSONObject
  | .dict members => .ok members
  | _ => .error (.api "assertions must be an array of objects")

/-- `case.get("assertions", [])`, checked. -/
def declaredAssertions (case : JSONObject) : Except GenerateError (List JSONObject) :=
  match (get? case "assertions").getD (.list []) with
  | .list items => items.mapM asAssertion
  | _ => .error (.api "assertions must be an array of objects")

def effectiveAssertions (case : JSONObject) : Except GenerateError (List JSONObject) := do
  let legacy ← legacyAssertion case
  let declared ← declaredAssertions case
  return legacy ++ declared

/-! ## The same assertion -/

def HasType (assertion : JSONObject) (type : AssertionType) : Prop := get? assertion "type" = some (.str (text type.text))

/-- A number of the file is that float. -/
def SameNumber (x : Float64) : Option Value → Prop
  | some (.int n) => x = .finite n
  | some (.float y) => x = y
  | _ => False

/-- The object has the type and the parameters of the specification. -/
def Matches : AssertionSpec → JSONObject → Prop
  | .exact value, a => HasType a .exact ∧ get? a "value" = some (.str value)
  | .contains value, a => HasType a .contains ∧ get? a "value" = some (.str value)
  | .regex pattern, a => HasType a .regex ∧ get? a "pattern" = some (.str pattern)
  | .jsonSchema schema, a => HasType a .jsonSchema ∧ get? a "schema" = some schema
  | .toolPath path, a => HasType a .toolPath ∧ get? a "path" = some (.list (path.map .str))
  | .latency maxMS, a => HasType a .latency ∧ SameNumber maxMS (get? a "max_ms")
  | .python entrypoint config, a => HasType a .python ∧ get? a "entrypoint" = some (.str entrypoint) ∧
      (get? a "config").getD (.dict []) = .dict config

/-- The replay reads the file as the worker did: the same ids in the same order, and for each the same assertions. -/
def ReadAlike (R : DatasetReader) (file : List Char) (cases : List DatasetCase) : Prop :=
  ∃ entries, loadDataset R file = .ok entries ∧ entries.map Prod.fst = cases.map (·.caseID) ∧
    List.Forall₂ (fun case entry => ∃ assertions, effectiveAssertions entry.2 = .ok assertions ∧
      List.Forall₂ Matches case.effectiveAssertions assertions) cases entries

/-! ## Where they differ -/

/-- The bound of a latency assertion is an integer that a float represents, if it is an integer. -/
def ExactLatency (R : DatasetReader) (assertion : JSONObject) : Prop :=
  ∀ n, HasType assertion .latency → get? assertion "max_ms" = some (.int n) → R.toFloat n = some (.finite n)

/-- An object of the file that both read alike. -/
structure Aligned (R : DatasetReader) (case : JSONObject) : Prop where
  expectedContains : ∀ value, get? case "expected_contains" = some value → value = .none ∨ ∃ s, value = .str s ∧ s ≠ []
  assertions : get? case "assertions" ≠ some .none
  latencies : ∀ items, get? case "assertions" = some (.list items) → ∀ members, .dict members ∈ items → ExactLatency R members

/-- The objects of the lines that are not blank. -/
def objectsOf (R : DatasetReader) (lines : List (List Char)) : List JSONObject :=
  lines.filterMap fun line =>
    if line.all Text.isPySpace then none
    else match R.loads line with
      | .ok (.dict members) => some members
      | _ => none

/-! ## One assertion -/

section Assertions

variable {R : DatasetReader} {number index : Nat}

variable {type : AssertionType}

theorem assertionType?_eq {value : Option Value} (h : assertionType? value = .ok (some type)) :
    value = some (.str (text type.text)) := by
  unfold assertionType? at h
  split at h
  · rename_i s
    have hfound := List.find?_some (Except.ok.inj h)
    rw [of_decide_eq_true hfound]
  · cases h
  · cases h
  · cases Except.ok.inj h

theorem type_text_injective {a b : AssertionType} (h : text a.text = text b.text) : a = b := by
  have hname := text_injective h
  cases a <;> cases b <;> first | rfl | exact absurd hname (by decide)

theorem exactLatency_of_type {a : JSONObject} (h : HasType a type) (hne : type ≠ .latency) :
    ExactLatency R a := by
  intro n hlatency
  have hsame := Option.some.inj (h.symm.trans hlatency)
  exact absurd (type_text_injective (Value.str.inj hsame)) hne

theorem stringField_eq {raw : JSONObject} {key : String} {error : DatasetError} {s : Python.Text}
    (h : stringField raw key error = .ok s) : get? raw key = some (.str s) := by
  unfold stringField at h
  split at h
  · rename_i s' hs
    rw [hs, Except.ok.inj h]
  · cases h

theorem stringItems?_eq {items : List Value} {path : List Python.Text} (h : stringItems? items = some path) :
    items = path.map .str := by
  induction items generalizing path with
  | nil =>
    cases h
    rfl
  | cons item items ih =>
    cases item with
    | str =>
      rw [stringItems?] at h
      split at h
      · cases h
      · obtain ⟨_, hrest, rfl⟩ := Option.map_eq_some_iff.mp h
        rw [List.map_cons, ih hrest]
    | _ => cases h

/-- The float of a bound, next to the number it was made of. -/
theorem maxMS_eq {error : DatasetError} {value : Option Value} {x : Float64} (h : R.maxMS error value = .ok x) :
    (∃ n, value = some (.int n) ∧ R.toFloat n = some x) ∨ value = some (.float x) := by
  unfold DatasetReader.maxMS at h
  split at h
  · rename_i n
    split at h
    · cases h
    · exact .inl ⟨n, rfl, orElse_eq_ok.mp h⟩
  · split at h
    · cases h
    · rw [Except.ok.inj h]
      exact .inr rfl
  · cases h

/-- What the worker accepts has the type it was read by, and its parameters but for the float. -/
theorem matches_assertionSpec {raw : JSONObject} {spec : AssertionSpec} (htype : HasType raw type)
    (h : R.assertionSpec raw type number index = .ok spec) : Matches spec raw ↔ ExactLatency R raw := by
  cases type with
  | exact =>
    obtain ⟨value, hvalue, h⟩ := bind_ok_iff.mp h
    cases h
    exact iff_of_true ⟨htype, stringField_eq hvalue⟩ (exactLatency_of_type htype (by decide))
  | contains =>
    obtain ⟨_, hvalue, h⟩ := bind_ok_iff.mp h
    cases h
    exact iff_of_true ⟨htype, stringField_eq hvalue⟩ (exactLatency_of_type htype (by decide))
  | regex =>
    obtain ⟨_, hpattern, h⟩ := bind_ok_iff.mp h
    cases h
    exact iff_of_true ⟨htype, stringField_eq hpattern⟩ (exactLatency_of_type htype (by decide))
  | jsonSchema =>
    refine iff_of_true ?_ (exactLatency_of_type htype (by decide))
    simp only [DatasetReader.assertionSpec] at h
    split at h
    · rename_i members hschema
      cases h
      exact ⟨htype, hschema⟩
    · rename_i b hschema
      cases h
      exact ⟨htype, hschema⟩
    · cases h
  | toolPath =>
    refine iff_of_true ?_ (exactLatency_of_type htype (by decide))
    simp only [DatasetReader.assertionSpec] at h
    split at h
    · rename_i items hitems
      obtain ⟨_, hpath, h⟩ := bind_ok_iff.mp h
      cases h
      refine ⟨htype, ?_⟩
      rw [hitems, stringItems?_eq (orElse_eq_ok.mp hpath)]
    · cases h
  | latency =>
    obtain ⟨x, hx, h⟩ := bind_ok_iff.mp h
    cases h
    rcases maxMS_eq hx with ⟨n, hn, hfloat⟩ | hfloat
    · -- an integer: the float is the same number exactly if the conversion is exact
      simp [Matches, SameNumber, hn, ExactLatency, htype, hfloat]
    · refine iff_of_true ⟨htype, ?_⟩ ?_
      · rw [hfloat]
        rfl
      · intro n _ hn
        rw [hfloat] at hn
        cases hn
  | python =>
    refine iff_of_true ?_ (exactLatency_of_type htype (by decide))
    simp only [DatasetReader.assertionSpec] at h
    obtain ⟨_, hentrypoint, h⟩ := bind_ok_iff.mp h
    obtain ⟨-, h⟩ := then_ok_iff.mp h
    split at h
    · rename_i config hconfig
      cases h
      exact ⟨htype, stringField_eq hentrypoint, hconfig⟩
    · cases h

theorem assertion_ok {value : Value} {spec : AssertionSpec} (h : R.assertion number index value = .ok spec) :
    ∃ raw, value = .dict raw ∧ (Matches spec raw ↔ ExactLatency R raw) := by
  cases value with
  | dict raw =>
    simp only [DatasetReader.assertion] at h
    obtain ⟨type?, htype?, h⟩ := bind_ok_iff.mp h
    obtain ⟨_, htype, h⟩ := bind_ok_iff.mp h
    obtain ⟨-, h⟩ := then_ok_iff.mp h
    rw [orElse_eq_ok.mp htype] at htype?
    exact ⟨raw, rfl, matches_assertionSpec (assertionType?_eq htype?) h⟩
  | _ => cases h

theorem length_assertionsFrom {items : List Value} {specs : List AssertionSpec}
    (h : R.assertionsFrom number index items = .ok specs) : specs.length = items.length := by
  induction items generalizing index specs with
  | nil =>
    cases h
    rfl
  | cons item items ih =>
    obtain ⟨_, -, h⟩ := bind_ok_iff.mp h
    obtain ⟨_, hrest, h⟩ := bind_ok_iff.mp h
    cases h
    rw [List.length_cons, List.length_cons, ih hrest]

theorem assertionsFrom_ok {items : List Value} {specs : List AssertionSpec} (h : R.assertionsFrom number index items = .ok specs) :
    ∃ raws : List JSONObject, items = raws.map .dict ∧
      (List.Forall₂ Matches specs raws ↔ ∀ raw ∈ raws, ExactLatency R raw) := by
  induction items generalizing index specs with
  | nil =>
    cases h
    exact ⟨[], rfl, by simp⟩
  | cons item items ih =>
    obtain ⟨_, hspec, h⟩ := bind_ok_iff.mp h
    obtain ⟨_, hrest, h⟩ := bind_ok_iff.mp h
    cases h
    obtain ⟨raw, rfl, hmatch⟩ := assertion_ok hspec
    obtain ⟨raws, rfl, hall⟩ := ih hrest
    refine ⟨raw :: raws, rfl, ?_⟩
    rw [List.forall₂_cons, hmatch, hall, List.forall_mem_cons]

end Assertions

/-! ## One case -/

section Cases

variable {R : DatasetReader} {number : Nat} {raw : JSONObject}

theorem mapM_asAssertion (raws : List JSONObject) : (raws.map Value.dict).mapM asAssertion = .ok raws := by
  induction raws with
  | nil => rfl
  | cons raw raws ih =>
    rw [List.map_cons, List.mapM_cons, ih]
    rfl

/-- The declared assertions, where the worker accepted them. -/
theorem declared_cases {specs : List AssertionSpec} (h : R.assertions number (get? raw "assertions") = .ok specs) :
    (get? raw "assertions" = some .none ∧ ∃ error, declaredAssertions raw = .error error) ∨
      (get? raw "assertions" ≠ some .none ∧ ∃ raws, declaredAssertions raw = .ok raws ∧ raws.length = specs.length ∧
        (List.Forall₂ Matches specs raws ↔ ∀ items, get? raw "assertions" = some (.list items) →
          ∀ members, .dict members ∈ items → ExactLatency R members)) := by
  unfold DatasetReader.assertions at h
  unfold declaredAssertions
  split at h
  · rename_i hnone
    cases h
    rw [hnone]
    exact .inr ⟨by simp, [], rfl, rfl, by simp⟩
  · rename_i hnull
    rw [hnull]
    exact .inl ⟨rfl, _, rfl⟩
  · rename_i items hitems
    obtain ⟨raws, rfl, hall⟩ := assertionsFrom_ok h
    rw [hitems]
    refine .inr ⟨by simp, raws, mapM_asAssertion raws, ?_, ?_⟩
    · rw [length_assertionsFrom h, List.length_map]
    · rw [hall]
      constructor
      · intro hraws items heq members hmem
        obtain rfl := Value.list.inj (Option.some.inj heq)
        obtain ⟨raw', hraw', hsame⟩ := List.mem_map.mp hmem
        exact Value.dict.inj hsame ▸ hraws raw' hraw'
      · intro hitems' raw' hraw'
        exact hitems' _ rfl raw' (List.mem_map.mpr ⟨raw', hraw', rfl⟩)
  · cases h

/-- Behind parts that match, the rests decide. -/
theorem forall₂_append_iff {α β : Type} {r : α → β → Prop} {as as' : List α} {bs bs' : List β} (h : List.Forall₂ r as bs) :
    List.Forall₂ r (as ++ as') (bs ++ bs') ↔ List.Forall₂ r as' bs' := by
  induction h with
  | nil => rfl
  | cons hhead _ ih => rw [List.cons_append, List.cons_append, List.forall₂_cons, ih, and_iff_right hhead]

/-- The assertion of `expected_contains`, next to the worker's. -/
theorem legacy_cases (raw : JSONObject) :
    ((∀ value, get? raw "expected_contains" = some value → value = .none ∨ ∃ s, value = .str s ∧ s ≠ []) ∧
      ∃ legacy, legacyAssertion raw = .ok legacy ∧ List.Forall₂ Matches
        ((DatasetReader.optionalString (get? raw "expected_contains")).map AssertionSpec.contains).toList legacy) ∨
    ((¬∀ value, get? raw "expected_contains" = some value → value = .none ∨ ∃ s, value = .str s ∧ s ≠ []) ∧
      ∀ legacy, legacyAssertion raw = .ok legacy →
        legacy.length = 1 ∧ DatasetReader.optionalString (get? raw "expected_contains") = none) := by
  unfold legacyAssertion
  cases hvalue : get? raw "expected_contains" with
  | none => exact .inl ⟨by simp, [], rfl, .nil⟩
  | some value =>
    cases value with
    | none => exact .inl ⟨by simp, [], rfl, .nil⟩
    | str s =>
      by_cases hs : s = []
      · subst hs
        refine .inr ⟨by simp, fun legacy hlegacy => ?_⟩
        cases hlegacy
        exact ⟨rfl, rfl⟩
      · have hempty : s.isEmpty = false := List.isEmpty_eq_false_iff.mpr hs
        refine .inl ⟨by simp [hs], _, rfl, ?_⟩
        rw [DatasetReader.optionalString, hempty]
        exact .cons ⟨rfl, rfl⟩ .nil
    | _ => exact .inr ⟨by simp, fun legacy hlegacy => by cases hlegacy⟩

/-- What is read off an accepted line. -/
theorem readCase_ok {seen : List Python.Text} {case : DatasetCase} (h : R.readCase number seen raw = .ok case) :
    case.caseID = R.caseID number raw ∧ R.caseID number raw ∉ seen ∧
      case.expectedContains = DatasetReader.optionalString (get? raw "expected_contains") ∧
      R.assertions number (get? raw "assertions") = .ok case.assertions := by
  obtain ⟨_, -, h⟩ := bind_ok_iff.mp h
  obtain ⟨hnew, h⟩ := then_ok_iff.mp h
  obtain ⟨_, hassertions, h⟩ := bind_ok_iff.mp h
  cases h
  exact ⟨rfl, of_decide_eq_false (reject_eq_ok.mp hnew), rfl, hassertions⟩

/-- **A case has the same assertions on both sides** exactly if its object is aligned. -/
theorem case_assertions_iff {seen : List Python.Text} {case : DatasetCase} (h : R.readCase number seen raw = .ok case) :
    (∃ assertions, effectiveAssertions raw = .ok assertions ∧ List.Forall₂ Matches case.effectiveAssertions assertions) ↔
      Aligned R raw := by
  obtain ⟨-, -, hlegacy, hdeclared⟩ := readCase_ok h
  rw [DatasetCase.effectiveAssertions, hlegacy]
  have heffective : ∀ {assertions}, effectiveAssertions raw = .ok assertions ↔
      ∃ legacy declared, legacyAssertion raw = .ok legacy ∧ declaredAssertions raw = .ok declared ∧
        assertions = legacy ++ declared := by
    intro assertions
    simp only [effectiveAssertions, bind_ok_iff]
    constructor
    · rintro ⟨legacy, hl, declared, hd, hsum⟩
      exact ⟨legacy, declared, hl, hd, (Except.ok.inj hsum).symm⟩
    · rintro ⟨legacy, declared, hl, hd, rfl⟩
      exact ⟨legacy, hl, declared, hd, rfl⟩
  rcases legacy_cases raw with ⟨hgood, legacy, hl, hmatch⟩ | ⟨hbad, hl⟩
  · rcases declared_cases hdeclared with ⟨hnull, error, hd⟩ | ⟨hnot, raws, hd, -, hall⟩
    · refine iff_of_false ?_ fun haligned => haligned.assertions hnull
      rintro ⟨assertions, hok, -⟩
      obtain ⟨-, declared, -, hd', -⟩ := heffective.mp hok
      rw [hd] at hd'
      cases hd'
    · have hboth := @forall₂_append_iff _ _ Matches _ case.assertions _ raws hmatch
      constructor
      · rintro ⟨assertions, hok, hforall⟩
        obtain ⟨_, declared, hl', hd', rfl⟩ := heffective.mp hok
        cases hl.symm.trans hl'
        cases hd.symm.trans hd'
        exact ⟨hgood, hnot, hall.mp (hboth.mp hforall)⟩
      · intro haligned
        exact ⟨_, heffective.mpr ⟨legacy, raws, hl, hd, rfl⟩, hboth.mpr (hall.mpr haligned.latencies)⟩
  · -- an empty `expected_contains` is one assertion more, anything but a string is refused
    refine iff_of_false ?_ fun haligned => hbad haligned.expectedContains
    rintro ⟨_, hok, hforall⟩
    obtain ⟨legacy, _, hl', hd', rfl⟩ := heffective.mp hok
    obtain ⟨hone, hnone⟩ := hl legacy hl'
    rcases declared_cases hdeclared with ⟨-, _, hd⟩ | ⟨-, _, hd, hlength, -⟩
    · rw [hd] at hd'
      cases hd'
    · cases hd.symm.trans hd'
      have hsame := hforall.length_eq
      rw [hnone, List.length_append, List.length_append, hone, hlength] at hsame
      exact absurd hsame (by simp)

end Cases

/-! ## The file -/

section File

variable {R : DatasetReader}

theorem loads_of_parseLine {number : Nat} {line : List Char} {value : Value} (h : R.parseLine number line = .ok value) :
    R.loads line = .ok value := by
  unfold DatasetReader.parseLine at h
  split at h
  · rename_i raw hraw
    rw [hraw, Except.ok.inj h]
  · cases h
  · cases h

theorem eq_dict_of_asObject {value : Value} {raw : JSONObject} (h : DatasetReader.asObject value = .ok raw) :
    value = .dict raw := by
  cases value with
  | dict => rw [Except.ok.inj h]
  | _ => cases h

/-- A relation that only depends on the second list, for pairs that are related in another way. -/
theorem forall₂_iff_forall {α β : Type} {r s : α → β → Prop} {p : β → Prop} {as : List α} {bs : List β}
    (h : List.Forall₂ s as bs) (hiff : ∀ a b, s a b → (r a b ↔ p b)) : List.Forall₂ r as bs ↔ ∀ b ∈ bs, p b := by
  induction h with
  | nil => simp
  | cons hhead _ ih => rw [List.forall₂_cons, List.forall_mem_cons, ih, hiff _ _ hhead]

/-- What the worker reads of the lines, the replay reads too. -/
theorem loadCases_of_loadLines {number : Nat} {seen : List Python.Text} {lines : List (List Char)} {cases : List DatasetCase}
    (h : R.loadLines number seen lines = .ok cases) :
    ∃ entries, loadCases R number seen lines = .ok entries ∧ entries.map Prod.fst = cases.map (·.caseID) ∧
      entries.map Prod.snd = objectsOf R lines ∧
      List.Forall₂ (fun case entry => ∃ n s, R.readCase n s entry.2 = .ok case) cases entries := by
  induction lines generalizing number seen cases with
  | nil =>
    cases h
    exact ⟨[], rfl, rfl, rfl, .nil⟩
  | cons line lines ih =>
    unfold DatasetReader.loadLines at h
    unfold loadCases objectsOf
    by_cases hblank : line.all Text.isPySpace = true
    · rw [if_pos hblank] at h ⊢
      rw [List.filterMap_cons, if_pos hblank]
      exact ih h
    · rw [if_neg hblank] at h ⊢
      obtain ⟨_, hvalue, h⟩ := bind_ok_iff.mp h
      obtain ⟨raw, hraw, h⟩ := bind_ok_iff.mp h
      obtain ⟨_, hcase, h⟩ := bind_ok_iff.mp h
      obtain ⟨_, hrest, h⟩ := bind_ok_iff.mp h
      cases h
      obtain rfl := eq_dict_of_asObject hraw
      have hloads := loads_of_parseLine hvalue
      obtain ⟨hid, hnew, -, -⟩ := readCase_ok hcase
      obtain ⟨entries, hentries, hids, hobjects, hcases⟩ := ih hrest
      rw [hid] at hentries
      refine ⟨(R.caseID number raw, raw) :: entries, ?_, ?_, ?_, .cons ⟨number, seen, hcase⟩ hcases⟩
      · simp only [parseCase, hloads]
        show (reject (decide (R.caseID number raw ∈ seen)) _ >>= _) = _
        rw [decide_eq_false hnew]
        show (loadCases R (number + 1) (R.caseID number raw :: seen) lines >>= _) = _
        rw [hentries]
        rfl
      · rw [List.map_cons, List.map_cons, hids, hid]
      · rw [List.map_cons, List.filterMap_cons, if_neg hblank, hloads, hobjects]
        rfl

/-- **The replay reads a dataset as the worker does** exactly if all its objects are aligned. -/
theorem replay_assertions_iff {file : List Char} {cases : List DatasetCase} (h : R.loadDataset file = .ok cases) :
    ReadAlike R file cases ↔ ∀ raw ∈ objectsOf R (splitlines (translateNewlines file)), Aligned R raw := by
  obtain ⟨loaded, hloaded, h⟩ := bind_ok_iff.mp h
  obtain ⟨hsome, h⟩ := then_ok_iff.mp h
  obtain rfl := Except.ok.inj h
  obtain ⟨entries, hentries, hids, hobjects, hcases⟩ := loadCases_of_loadLines hloaded
  have hload : loadDataset R file = .ok entries := by
    have hlength := congrArg List.length hids
    rw [List.length_map, List.length_map] at hlength
    have hnonempty : entries.isEmpty = loaded.isEmpty := by
      rw [Bool.eq_iff_iff, List.isEmpty_iff_length_eq_zero, List.isEmpty_iff_length_eq_zero, hlength]
    rw [loadDataset, hentries]
    show (reject entries.isEmpty _ >>= _) = _
    rw [hnonempty, reject_eq_ok.mp hsome]
    rfl
  have hboth : List.Forall₂ (fun case entry => ∃ assertions, effectiveAssertions entry.2 = .ok assertions ∧
      List.Forall₂ Matches case.effectiveAssertions assertions) loaded entries ↔ ∀ raw ∈ entries.map Prod.snd, Aligned R raw := by
    rw [List.forall_mem_map]
    refine forall₂_iff_forall hcases ?_
    rintro case entry ⟨n, s, hread⟩
    exact case_assertions_iff hread
  rw [← hobjects, ← hboth]
  constructor
  · rintro ⟨_, hload', -, hall⟩
    cases hload.symm.trans hload'
    exact hall
  · exact fun hall => ⟨entries, hload, hids, hall⟩

end File

/-! ### Files of encoded lines -/

/-- A case with a latency and an `expected_contains`, and one with a pattern and without. -/
def checkedCases : List Json.Value :=
  [.object [("id", .string "a"), ("input", .string "hello"), ("expected_contains", .string "hi"),
      ("assertions", .array [.object [("type", .string "latency"), ("max_ms", .number "500")]])],
    .object [("id", .string "b"), ("input", .string "bye"),
      ("assertions", .array [.object [("type", .string "regex"), ("pattern", .string "ok")]])]]

/-- The cases of the worker. -/
def checkedDatasetCases : List DatasetCase :=
  [⟨text "a", text "hello", some (text "hi"), [.latency (.finite 500)], []⟩,
    ⟨text "b", text "bye", none, [.regex (text "ok")], []⟩]

theorem replay_assertions_checked :
    let file := joinLines (checkedCases.map (Json.encode false))
    DatasetReader.plain.loadDataset file = .ok checkedDatasetCases ∧
      ReadAlike DatasetReader.plain file checkedDatasetCases := by
  intro file
  have hwhole : ∀ line ∈ checkedCases.map (Json.encode false), WholeLine line := by
    intro line hline
    rcases List.mem_pair.mp hline with rfl | rfl
    · exact ⟨List.cons_ne_nil _ _, forall_of_any rfl⟩
    · exact ⟨List.cons_ne_nil _ _, forall_of_any rfl⟩
  have hloads : ∀ value ∈ checkedCases, DatasetReader.plain.loads (Json.encode false value) =
      .ok (collapse (ofJson naturalLiteral value)) := by
    intro value hvalue
    refine loads_encode ?_
    unfold Json.Value.Valid
    rcases List.mem_pair.mp hvalue with rfl | rfl
    · decide
    · decide
  obtain ⟨hfirst, hrest⟩ := List.forall_mem_cons.mp hloads
  have hsecond := List.forall_mem_singleton.mp hrest
  have hload : DatasetReader.plain.loadDataset file = .ok checkedDatasetCases := by
    rw [DatasetReader.loadDataset, lines_joinLines hwhole, checkedCases, List.map_cons, List.map_singleton]
    simp only [DatasetReader.loadLines, DatasetReader.parseLine, hfirst, hsecond]
    rfl
  refine ⟨hload, (replay_assertions_iff hload).mpr ?_⟩
  have hobjects : objectsOf DatasetReader.plain (checkedCases.map (Json.encode false)) =
      checkedCases.filterMap fun value => match collapse (ofJson naturalLiteral value) with
        | .dict members => some members
        | _ => none := by
    rw [checkedCases, List.map_cons, List.map_singleton]
    simp only [objectsOf, List.filterMap_cons, List.filterMap_nil, hfirst, hsecond]
    rfl
  rw [lines_joinLines hwhole, hobjects]
  intro raw hraw
  rcases List.mem_pair.mp hraw with rfl | rfl
  · refine ⟨fun value hvalue => ?_, fun h => ?_, fun items _ members _ n _ _ => rfl⟩
    · cases hvalue
      exact .inr ⟨_, rfl, by decide⟩
    · cases h
  · refine ⟨fun value hvalue => ?_, fun h => ?_, fun items _ members _ n _ _ => rfl⟩
    · cases hvalue
    · cases h

/-- A case with the empty string for `expected_contains`. -/
def emptyExpectation : Json.Value :=
  .object [("id", .string "a"), ("input", .string "hello"), ("expected_contains", .string "")]

/-- The worker checks nothing for the empty string, the replay checks that the output contains it. -/
theorem replay_assertions_empty :
    let file := joinLines [Json.encode false emptyExpectation]
    DatasetReader.plain.loadDataset file = .ok [plainCase "a" "hello"] ∧
      ¬ReadAlike DatasetReader.plain file [plainCase "a" "hello"] := by
  intro file
  have hwhole : ∀ line ∈ [Json.encode false emptyExpectation], WholeLine line :=
    List.forall_mem_singleton.mpr ⟨List.cons_ne_nil _ _, forall_of_any rfl⟩
  have hvalid : emptyExpectation.Valid := by
    unfold Json.Value.Valid
    decide
  have hload : DatasetReader.plain.loadDataset file = .ok [plainCase "a" "hello"] := by
    rw [DatasetReader.loadDataset, lines_joinLines hwhole, DatasetReader.loadLines, DatasetReader.parseLine,
      DatasetReader.plain, loads_encode hvalid]
    rfl
  refine ⟨hload, ?_⟩
  rintro ⟨entries, hload, -, hall⟩
  rw [loadDataset, lines_joinLines hwhole, loadCases, parseCase, DatasetReader.plain, loads_encode hvalid] at hload
  obtain rfl : [(text "a", [(text "id", .str (text "a")), (text "input", .str (text "hello")),
    (text "expected_contains", .str [])])] = entries := Except.ok.inj hload
  obtain ⟨⟨_, hassertions, hmatch⟩, -⟩ := List.forall₂_cons.mp hall
  cases hassertions
  cases hmatch

end AgentStorm.Promptfoo
