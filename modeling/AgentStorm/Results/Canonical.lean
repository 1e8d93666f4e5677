import AgentStorm.Reliability.Document
import AgentStorm.Results.Reference

/-!
# `Results.Canonical` — parsing a scenario's canonical form again

The Result API parses the canonical bytes of a scenario again when a run is registered. The scenario,
its normal form and its digest survive that; the limit on the size need not, as the HTML escapes take
six bytes for one and a rule without attempts gets some. `canonical_stable_iff`: that is all that can
go wrong.
-/

namespace AgentStorm.Results

open Checks Json Numeric Reliability Text

/-- The platform's JSON is `encoding/json`. -/
structure UsesJSON (P : Platform) (F : FloatFormat) : Prop where
  marshal : P.marshalScenario = marshalScenario F
  decode : P.decodeScenario = decodeScenario F

section Canonical

variable {P : Platform} {F : FloatFormat} {payload canonical : Bytes} {scenario : FaultScenario} {digest : String}

theorem parseScenario_ok_iff :
    parseScenario P payload = .ok (scenario, canonical, digest) ↔
      payload.length ≤ maxScenarioBytes ∧
      (∃ decoded, P.decodeScenario payload = some decoded ∧ ScenarioAccepted decoded ∧
        normalizeScenario decoded = scenario) ∧
      P.marshalScenario scenario = canonical ∧ "sha256:" ++ P.sha256Hex canonical = digest := by
  unfold parseScenario
  rw [then_ok_iff, reject_eq_ok, decide_eq_false_iff_not, not_lt]
  simp only [bind_ok_iff, orElse_eq_ok, validateScenario_ok_iff]
  constructor
  · rintro ⟨hsize, decoded, hdecoded, normal, ⟨haccepted, hnormal⟩, hresult⟩
    obtain ⟨rfl, rfl, rfl⟩ : normal = scenario ∧ P.marshalScenario normal = canonical ∧
        "sha256:" ++ P.sha256Hex (P.marshalScenario normal) = digest := by
      simpa using Except.ok.inj hresult
    exact ⟨hsize, ⟨decoded, hdecoded, haccepted, hnormal⟩, rfl, rfl⟩
  · rintro ⟨hsize, ⟨decoded, hdecoded, haccepted, hnormal⟩, rfl, rfl⟩
    exact ⟨hsize, decoded, hdecoded, scenario, ⟨haccepted, hnormal⟩, rfl⟩

theorem representable_normalizeScenario (h : scenario.Representable F) : (normalizeScenario scenario).Representable F := by
  intro rules hrules rule hrule
  obtain ⟨source, hsource, rfl⟩ := Option.map_eq_some_iff.mp hrules
  obtain ⟨rule, hmem, rfl⟩ := List.mem_map.mp hrule
  have hrepresentable := h source hsource rule hmem
  unfold normalizeRule
  split
  · exact ⟨hrepresentable.probability, hrepresentable.iterations,
      (by decide : ∀ n ∈ ([1] : List Int), inRange 32 n = true), hrepresentable.delayMS,
      hrepresentable.statusCode⟩
  · exact hrepresentable

/-- What a parsed scenario is: accepted, normal and readable from its canonical form. -/
structure Normal (F : FloatFormat) (scenario : FaultScenario) : Prop where
  accepted : ScenarioAccepted scenario
  normal : normalizeScenario scenario = scenario
  representable : scenario.Representable F

theorem normal_of_parseScenario (hP : UsesJSON P F) (h : parseScenario P payload = .ok (scenario, canonical, digest)) :
    Normal F scenario := by
  obtain ⟨-, ⟨decoded, hdecoded, haccepted, rfl⟩, -, -⟩ := parseScenario_ok_iff.mp h
  rw [hP.decode] at hdecoded
  exact ⟨scenarioAccepted_normalizeScenario haccepted, normalizeScenario_idem decoded,
    representable_normalizeScenario (representable_decodeScenario hdecoded)⟩

/-- Whatever encoder wrote a normal scenario, parsing gives it back, if the text is short enough. -/
theorem parseScenario_writeScenario (hP : UsesJSON P F) (h : Normal F scenario) (html : Bool)
    (hsize : (writeScenario F html scenario).length ≤ maxScenarioBytes) :
    parseScenario P (writeScenario F html scenario) =
      .ok (scenario, marshalScenario F scenario, "sha256:" ++ P.sha256Hex (marshalScenario F scenario)) := by
  refine parseScenario_ok_iff.mpr ⟨hsize, ⟨scenario, ?_, h.accepted, h.normal⟩, by rw [hP.marshal], rfl⟩
  rw [hP.decode]
  exact decodeScenario_writeScenario h.representable html

theorem digestPattern_sha256Hex (payload : Bytes) : digestPattern ("sha256:" ++ P.sha256Hex payload) = true := by
  have hhex := P.sha256Hex_pattern payload
  unfold hexPattern at hhex
  have htake : ("sha256:".toList ++ (P.sha256Hex payload).toList).take 7 = "sha256:".toList := rfl
  have hdrop : ("sha256:".toList ++ (P.sha256Hex payload).toList).drop 7 = (P.sha256Hex payload).toList := rfl
  unfold digestPattern
  rw [String.toList_append, htake, hdrop, Bool.and_assoc, hhex, decide_eq_true rfl]
  rfl

/-- The canonical form parses to the same result, and a reliability section with the snapshot of that result passes
    wherever the section without it does. -/
def Stable (P : Platform) (scenario : FaultScenario) (canonical : Bytes) (digest : String) : Prop :=
  parseScenario P canonical = .ok (scenario, canonical, digest) ∧
  ∀ (reliability : RunReliability) (source : RunScenarioSource),
    validateReliability P { reliability with scenario := none } = .ok () → reliability.seed.isSome = true →
    blank source.name = false → blank source.key = false →
    validateReliability P { reliability with scenario := some ⟨source, digest, scenario⟩ } = .ok ()

/-- The size is the only check that looks at the text and not at the scenario in it. -/
theorem stable_of_length (hP : UsesJSON P F) (h : parseScenario P payload = .ok (scenario, canonical, digest))
    (hsize : canonical.length ≤ maxScenarioBytes) : Stable P scenario canonical digest := by
  have hnormal := normal_of_parseScenario hP h
  obtain ⟨-, -, rfl, rfl⟩ := parseScenario_ok_iff.mp h
  rw [hP.marshal] at hsize ⊢
  have hparse : parseScenario P (marshalScenario F scenario) = _ := parseScenario_writeScenario hP hnormal true hsize
  refine ⟨hparse, fun reliability source hvalid hseed hname hkey => ?_⟩
  have hmatches : scenarioDigestMatches P
      ⟨source, "sha256:" ++ P.sha256Hex (marshalScenario F scenario), scenario⟩ = true := by
    simp only [scenarioDigestMatches, hP.marshal, hparse]
    exact decide_eq_true ⟨hsize, trivial⟩
  unfold validateReliability at hvalid ⊢
  rw [then_ok_iff, then_ok_iff, then_ok_iff] at hvalid ⊢
  obtain ⟨hvalidSeed, hretry, hbreaker, -⟩ := hvalid
  refine ⟨hvalidSeed, hretry, hbreaker, then_ok_iff.mpr ⟨?_, ?_⟩⟩
  · obtain ⟨_, hseed⟩ := Option.isSome_iff_exists.mp hseed
    simp [invalid, hseed, hname, hkey, digestPattern_sha256Hex]
  · simp [invalid, hmatches]

/-- **Canonicalization is stable** for a payload exactly if its canonical form is within the limit itself. -/
theorem canonical_stable_iff (hP : UsesJSON P F) (h : parseScenario P payload = .ok (scenario, canonical, digest)) :
    Stable P scenario canonical digest ↔ canonical.length ≤ maxScenarioBytes := by
  constructor
  · exact fun hstable => (parseScenario_ok_iff.mp hstable.1).1
  · exact stable_of_length hP h

end Canonical

/-! ## A scenario whose canonical form is too long -/

/-- Floats that are integers, which is enough for a probability of 1. -/
def integerFormat : FloatFormat where
  parse literal := literal.toInt?.map fun n : Int => .finite (n : ℚ)
  format
    | .finite q => q.num.repr
    | _ => ""
  finite_of_parse h := by
    obtain ⟨n, -, rfl⟩ := Option.map_eq_some_iff.mp h
    exact ⟨n, rfl⟩
  isNumber_format h := by
    obtain ⟨n, -, rfl⟩ := Option.map_eq_some_iff.mp h
    exact isNumber_repr _
  parse_format h := by
    obtain ⟨n, -, rfl⟩ := Option.map_eq_some_iff.mp h
    simp

/-- The reference platform with `encoding/json` for scenarios. -/
def Platform.withJSON (F : FloatFormat) : Platform :=
  { Platform.reference [] with
    marshalScenario := Reliability.marshalScenario F
    decodeScenario := Reliability.decodeScenario F }

theorem usesJSON_withJSON (F : FloatFormat) : UsesJSON (Platform.withJSON F) F := ⟨rfl, rfl⟩

/-- One rule that rate-limits the given cases. -/
def rateLimited (caseIDs : List String) : FaultScenario where
  apiVersion := scenarioAPIVersion
  kind := scenarioKind
  rules := some [⟨"slow down", "rate_limit", some (.finite 1), caseIDs, [], [1], none, none, ""⟩]

/-- Thirty case ids of angle brackets, told apart by their lengths. -/
def bracketIDs : List String := (List.range 30).map fun i => String.ofList (List.replicate (480 + i) '<')

theorem normal_rateLimited {caseIDs : List String}
    (hids : (∀ id ∈ caseIDs, blank id = false ∧ id.utf8ByteSize ≤ 512) ∧ caseIDs.Nodup) :
    Normal integerFormat (rateLimited caseIDs) := by
  refine ⟨⟨⟨rfl, rfl⟩, Nat.le_of_ble_eq_true rfl, ?_, List.nodup_singleton _⟩, rfl, ?_⟩
  · intro rule hrule
    obtain rfl := List.mem_singleton.mp hrule
    refine ⟨(by decide : blank "slow down" = false ∧ "slow down".utf8ByteSize ≤ 128),
      (by decide : "rate_limit" ∈ supportedFaults), ⟨.finite 1, rfl, by decide, by decide⟩, hids, ⟨nofun, List.nodup_nil⟩,
      (by decide : (∀ n ∈ ([1] : List Int), 1 ≤ n ∧ n ≤ 10) ∧ ([1] : List Int).Nodup), ?_⟩
    simp [FieldsFit]
  · intro rules hrules rule hrule
    cases hrules
    obtain rfl := List.mem_singleton.mp hrule
    refine ⟨fun p hp => ?_, nofun, (by decide : ∀ n ∈ ([1] : List Int), inRange 32 n = true), nofun, nofun⟩
    cases hp
    refine ⟨(1 : Int).repr, ?_⟩
    show (((1 : Int).repr).toInt?.map fun n : Int => Float64.finite (n : ℚ)) = some (.finite 1)
    rw [Int.toInt?_repr, Option.map_some, Int.cast_one]

theorem bracketIDs_accepted : (∀ id ∈ bracketIDs, blank id = false ∧ id.utf8ByteSize ≤ 512) ∧ bracketIDs.Nodup := by
  have hlength : ∀ n, (String.ofList (List.replicate n '<')).toList.length = n := by simp
  have hbyte : (String.utf8EncodeChar '<').length = 1 := rfl
  refine ⟨fun id hid => ?_, ?_⟩
  · obtain ⟨i, hi, rfl⟩ := List.mem_map.mp hid
    have hlt := List.mem_range.mp hi
    have hsize : (String.ofList (List.replicate (480 + i) '<')).utf8ByteSize = 480 + i := by
      rw [utf8ByteSize_eq_length, bytes_eq_flatMap, String.toList_ofList, List.length_flatMap, List.map_replicate,
        List.sum_replicate, hbyte, smul_eq_mul, Nat.mul_one]
    refine ⟨?_, by omega⟩
    rw [blank, String.toList_ofList, Nat.add_comm, List.replicate_succ, List.all_cons]
    rfl
  · refine List.Nodup.map_on (fun i _ j _ heq => ?_) List.nodup_range
    have hsame := congrArg (fun s => s.toList.length) heq
    simp only [hlength] at hsame
    omega

/-- The case ids are all that varies in the size of the document. -/
theorem size_rateLimited (html : Bool) {ids : List String} (hids : ids.isEmpty = false) :
    (scenarioTree integerFormat (rateLimited ids)).size html + (Value.array [.string ""]).size html =
      (Value.array (ids.map .string)).size html + (scenarioTree integerFormat (rateLimited [""])).size html := by
  simp only [size_eq_sum, scenarioTree, rateLimited, rulesTree, List.map_cons, List.map_nil, ruleTree, ruleMembers,
    omitEmpty, omitNil, hids, List.isEmpty_cons, List.isEmpty_nil, Bool.false_eq_true, if_false, if_true,
    List.append_nil, List.cons_append, List.nil_append, Value.tokens, memberTokens, itemTokens, List.map_append,
    List.sum_append, List.sum_cons, List.sum_nil]
  omega

theorem size_bracketIDs (html : Bool) :
    (bracketIDs.map fun id => (Value.string id).size html).sum =
      14835 * ((escape html '<').flatMap String.utf8EncodeChar).length + 60 := by
  rw [bracketIDs, List.map_map]
  simp only [Function.comp_def, size_replicate]
  generalize ((escape html '<').flatMap String.utf8EncodeChar).length = k
  simp only [List.range, List.range.loop, List.map_cons, List.map_nil, List.sum_cons, List.sum_nil]
  omega

/-- Without HTML escapes the document of the bracket ids is short. -/
theorem length_bracket_payload : (writeScenario integerFormat false (rateLimited bracketIDs)).length ≤ maxScenarioBytes := by
  have hsize := @size_rateLimited false bracketIDs rfl
  have harray := (sum_itemTokens false (bracketIDs.map .string)).2
  have hids := size_bracketIDs false
  have hframe : (scenarioTree integerFormat (rateLimited [""])).size false ≤ 300 := by decide +kernel
  have hone : ((escape false '<').flatMap String.utf8EncodeChar).length = 1 := rfl
  have hcount : (bracketIDs.map fun _ => 1).sum = 30 := rfl
  rw [List.map_map] at harray
  simp only [Function.comp_def, List.sum_map_add, hcount] at harray
  have hfull := size_array false (bracketIDs.map .string)
  show (scenarioTree integerFormat (rateLimited bracketIDs)).size false ≤ 64 * 1024
  omega

/-- With them it is too long. -/
theorem length_bracket_canonical : maxScenarioBytes < (marshalScenario integerFormat (rateLimited bracketIDs)).length := by
  -- six bytes for each of the 14835 brackets
  have hsize := @size_rateLimited true bracketIDs rfl
  have harray := (sum_itemTokens true (bracketIDs.map .string)).1
  have hids := size_bracketIDs true
  have hone : (Value.array [.string ""]).size true ≤ 4 := by decide +kernel
  have hsix : ((escape true '<').flatMap String.utf8EncodeChar).length = 6 := rfl
  rw [List.map_map] at harray
  simp only [Function.comp_def] at harray
  have hfull := size_array true (bracketIDs.map .string)
  show 64 * 1024 < (scenarioTree integerFormat (rateLimited bracketIDs)).size true
  omega

theorem canonical_stable_one_case :
    parseScenario (Platform.withJSON integerFormat) (writeScenario integerFormat false (rateLimited ["a < b"])) =
      .ok (rateLimited ["a < b"], marshalScenario integerFormat (rateLimited ["a < b"]),
        "sha256:" ++ checksumHex (marshalScenario integerFormat (rateLimited ["a < b"]))) ∧
    Stable (Platform.withJSON integerFormat) (rateLimited ["a < b"]) (marshalScenario integerFormat (rateLimited ["a < b"]))
      ("sha256:" ++ checksumHex (marshalScenario integerFormat (rateLimited ["a < b"]))) := by
  have hnormal : Normal integerFormat (rateLimited ["a < b"]) := normal_rateLimited (by decide)
  have hparse := parseScenario_writeScenario (usesJSON_withJSON integerFormat) hnormal false (by decide +kernel)
  exact ⟨hparse, (canonical_stable_iff (usesJSON_withJSON integerFormat) hparse).mpr (by decide +kernel)⟩

/-- The source is accepted, its canonical form is not. -/
theorem canonical_stable_brackets :
    ∃ canonical digest,
      parseScenario (Platform.withJSON integerFormat) (writeScenario integerFormat false (rateLimited bracketIDs)) =
        .ok (rateLimited bracketIDs, canonical, digest) ∧
      parseScenario (Platform.withJSON integerFormat) canonical = .error "scenario exceeds 65536 bytes" ∧
      ¬Stable (Platform.withJSON integerFormat) (rateLimited bracketIDs) canonical digest := by
  have hparse := parseScenario_writeScenario (usesJSON_withJSON integerFormat) (normal_rateLimited bracketIDs_accepted)
    false length_bracket_payload
  have hlong : parseScenario (Platform.withJSON integerFormat) (marshalScenario integerFormat (rateLimited bracketIDs)) =
      .error "scenario exceeds 65536 bytes" := by
    unfold parseScenario
    rw [decide_eq_true length_bracket_canonical]
    rfl
  refine ⟨_, _, hparse, hlong, fun hstable => ?_⟩
  exact nomatch hlong.symm.trans hstable.1

end AgentStorm.Results
