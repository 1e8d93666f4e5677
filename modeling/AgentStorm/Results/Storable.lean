import AgentStorm.Results.Canonical
import AgentStorm.Results.Reclaim

/-!
# `Results.Storable` — what is accepted and what can be stored

A `jsonb` column takes no NUL, and numbers have the ranges of their columns. A registration that is
accepted can be stored exactly if the texts of its scenario are free of NUL
(`registration_storable_iff`): all its other texts are checked, and these only for being blank or too
long.
-/

namespace AgentStorm.Results

open Checks Numeric Reliability Text

/-! ## Texts without NUL -/

theorem ne_nul_of_isDigit {c : Char} (h : c.isDigit = true) : c ≠ Char.ofNat 0 := by
  rintro rfl
  exact absurd h (by decide)

theorem no_nul_of_pricePattern {s : String} (h : pricePattern s = true) : Char.ofNat 0 ∉ s.toList := by
  have hpieces : ∀ piece ∈ s.toList.splitOn '.', piece.all Char.isDigit = true := by
    unfold pricePattern at h
    split at h
    · rename_i whole hsplit
      rw [hsplit]
      exact List.forall_mem_singleton.mpr (wholePart_digits h).2
    · rename_i whole fraction hsplit
      simp only [Bool.and_eq_true] at h
      rw [hsplit, List.forall_mem_cons, List.forall_mem_singleton]
      exact ⟨(wholePart_digits h.1.1.1).2, h.1.1.2⟩
    · cases h
  intro hmem
  rcases mem_splitOn (a := '.') hmem with hdot | ⟨piece, hpiece, hc⟩
  · exact absurd hdot (by decide)
  · exact ne_nul_of_isDigit (List.all_eq_true.mp (hpieces piece hpiece) _ hc) rfl

theorem no_nul_of_digestPattern {s : String} (h : digestPattern s = true) : Char.ofNat 0 ∉ s.toList := by
  simp only [digestPattern, Bool.and_eq_true, decide_eq_true_eq, List.all_eq_true] at h
  obtain ⟨⟨htake, -⟩, hhex⟩ := h
  intro hmem
  rw [← List.take_append_drop 7 s.toList, List.mem_append] at hmem
  rcases hmem with hhead | hrest
  · rw [htake] at hhead
    exact absurd hhead (by decide)
  · exact absurd (hhex _ hrest) (by decide)

theorem no_nul_of_invalidText {s : String} {size : Nat} (h : invalidText s size = false) : Char.ofNat 0 ∉ s.toList := by
  rw [invalidText, Bool.or_eq_false_iff] at h
  simpa using h.2

/-! ## Registrations -/

/-- The texts of a scenario snapshot next to its digest. -/
def RunFaultScenarioSnapshot.texts (s : RunFaultScenarioSnapshot) : List String :=
  [s.source.name, s.source.key, s.document.apiVersion, s.document.kind] ++
    (s.document.rules.getD []).flatMap faultRuleTexts

/-- No text of the registration's scenario has a NUL. -/
def Registration.scenarioClean (r : Registration) : Bool :=
  (r.reliability.bind RunReliability.scenario).all fun s => s.texts.all fun text => !text.toList.contains (Char.ofNat 0)

/-- The texts that the service checks for NUL, or by a pattern that leaves no room for one. -/
structure ChecksTexts (r : Registration) : Prop where
  schema : r.schemaVersion = schemaVersion
  source : invalidText r.source.namespace 253 = false ∧ invalidText r.source.name 253 = false
  target : invalidText r.target.provider 128 = false ∧ invalidText r.target.model 512 = false ∧
    invalidText r.target.adapterEntrypoint 256 = false
  dataset : invalidText r.dataset.name 253 = false ∧ invalidText r.dataset.key 1024 = false
  pricing : PricingValid r.target.pricing
  digest : ∀ s, r.reliability.bind RunReliability.scenario = some s → digestPattern s.digest = true
  scheduling : ∀ s, r.scheduling = some s → s.strategy ∈ ["indexed", "keda"] ∧ s.resourceProfile ∈ ["small", "medium", "large"]

variable {P : Platform} {runID key : String} {registration : Registration}

theorem digestPattern_of_validateReliability {reliability : RunReliability} (h : validateReliability P reliability = .ok ())
    {s : RunFaultScenarioSnapshot} (hs : reliability.scenario = some s) : digestPattern s.digest = true := by
  simp only [validateReliability, hs, then_ok_iff, invalid_eq_ok, Bool.or_eq_false_iff, Bool.not_eq_false'] at h
  exact h.2.2.2.1.2

theorem checksTexts_of_accepted (h : validateRegistration P runID key registration = .ok ()) : ChecksTexts registration := by
  have hpricing := (validateRegistration_ok h).pricing
  simp only [validateRegistration, validateTarget, then_ok_iff, invalid_eq_ok, decide_eq_false_iff_not, Decidable.not_not,
    Bool.or_eq_false_iff] at h
  obtain ⟨-, -, hschema, -, -, hsource, ⟨-, ⟨⟨hprovider, hmodel⟩, hentry⟩, -, -⟩, -, hdataset, -, hrest⟩ := h
  refine ⟨hschema, hsource, ⟨hprovider, hmodel, hentry⟩, hdataset, hpricing, fun s hs => ?_, fun s hs => ?_⟩
  · obtain ⟨_, hreliability, hscenario⟩ := Option.bind_eq_some_iff.mp hs
    rw [hreliability] at hrest
    exact digestPattern_of_validateReliability (then_ok_iff.mp hrest).1 hscenario
  · have hscheduling : validateScheduling s = .ok () := by
      rw [hs] at hrest
      cases hreliability : registration.reliability with
      | none =>
        rw [hreliability] at hrest
        exact hrest
      | some =>
        rw [hreliability] at hrest
        exact (then_ok_iff.mp hrest).2
    simp only [validateScheduling, then_ok_iff, invalid_eq_ok, decide_eq_false_iff_not, Decidable.not_not] at hscheduling
    refine ⟨?_, hscheduling.2.2⟩
    rw [List.mem_pair]
    by_contra hneither
    exact hscheduling.1 (not_or.mp hneither)

/-- Of the texts that were checked, none has a NUL. -/
theorem ChecksTexts.storable_iff (h : ChecksTexts registration) :
    registration.storable = true ↔ registration.scenarioClean = true := by
  simp only [Registration.storable, Registration.scenarioClean, List.all_eq_true, Option.all_eq_true, Bool.not_eq_true',
    List.contains_eq_mem, decide_eq_false_iff_not]
  constructor
  · intro hall s hs text htext
    refine hall text ?_
    simp only [Registration.texts, hs, List.mem_append]
    refine .inl (Or.inr ?_)
    simp only [RunFaultScenarioSnapshot.texts, List.mem_append, List.mem_cons, List.not_mem_nil, or_false] at htext ⊢
    tauto
  · intro hclean text htext
    simp only [Registration.texts, List.mem_append] at htext
    rcases htext with ((hhead | hpricing) | hscenario) | hscheduling
    · simp only [List.mem_cons, List.not_mem_nil, or_false] at hhead
      rcases hhead with rfl | rfl | rfl | rfl | rfl | rfl | rfl | rfl
      · rw [h.schema]
        decide
      · exact no_nul_of_invalidText h.source.1
      · exact no_nul_of_invalidText h.source.2
      · exact no_nul_of_invalidText h.target.1
      · exact no_nul_of_invalidText h.target.2.1
      · exact no_nul_of_invalidText h.target.2.2
      · exact no_nul_of_invalidText h.dataset.1
      · exact no_nul_of_invalidText h.dataset.2
    · cases hp : registration.target.pricing with
      | none =>
        simp only [hp] at hpricing
        cases hpricing
      | some p =>
        simp only [hp, List.mem_pair] at hpricing
        obtain ⟨hin, hout⟩ := h.pricing p hp
        rcases hpricing with rfl | rfl
        · exact no_nul_of_pricePattern hin
        · exact no_nul_of_pricePattern hout
    · cases hs : registration.reliability.bind RunReliability.scenario with
      | none =>
        simp only [hs] at hscenario
        cases hscenario
      | some s =>
        simp only [hs, List.mem_append, List.mem_cons, List.not_mem_nil, or_false] at hscenario
        by_cases hdigest : text = s.digest
        · rw [hdigest]
          exact no_nul_of_digestPattern (h.digest s hs)
        · refine hclean s hs text ?_
          simp only [RunFaultScenarioSnapshot.texts, List.mem_append, List.mem_cons, List.not_mem_nil, or_false]
          tauto
    · cases hs : registration.scheduling with
      | none =>
        simp only [hs] at hscheduling
        cases hscheduling
      | some s =>
        simp only [hs, List.mem_pair] at hscheduling
        -- The service allows five names only.
        have hnames : ∀ name ∈ ["indexed", "keda"] ++ ["small", "medium", "large"], Char.ofNat 0 ∉ name.toList := by decide
        obtain ⟨hstrategy, hprofile⟩ := h.scheduling s hs
        rcases hscheduling with rfl | rfl
        · exact hnames _ (List.mem_append_left _ hstrategy)
        · exact hnames _ (List.mem_append_right _ hprofile)

/-- `RegisterRun` fails on a NUL exactly if the document has one: the checks before it have passed. -/
theorem registerRun_nul_iff {now : Time} {hash : String} {db : Db} (h : validateRegistration P runID key registration = .ok ()) :
    registerRun now runID key hash registration db = .error (.internal "registration contains NUL") ↔
      registration.storable = false := by
  have hshards := h
  simp only [validateRegistration, then_ok_iff, invalid_eq_ok, decide_eq_false_iff_not, not_or, not_lt] at hshards
  obtain ⟨-, -, -, ⟨hlow, hhigh⟩, -⟩ := hshards
  have hpositive : decide (registration.expectedShards ≤ 0) = false := decide_eq_false (by omega)
  have hfits : decide ((2 : Int) ^ 31 ≤ registration.expectedShards) = false := decide_eq_false (by omega)
  cases hstorable : registration.storable with
  | false =>
    refine ⟨fun _ => rfl, fun _ => ?_⟩
    rw [registerRun, hpositive, hfits, hstorable]
    rfl
  | true =>
    refine ⟨fun herror => ?_, fun hfalse => absurd hfalse Bool.noConfusion⟩
    have hfails : FailsOnly (fun err => err ≠ ApiError.internal "registration contains NUL")
        (registerRun now runID key hash registration db) := by
      unfold registerRun
      rw [hpositive, hfits, hstorable]
      refine (failsOnly_ok ()).bind fun _ _ => (failsOnly_ok ()).bind fun _ _ => (failsOnly_ok ()).bind fun _ _ => ?_
      split
      · exact failsOnly_ok _
      · refine (failsOnly_orElse (by decide)).bind fun existing _ => ?_
        exact (failsOnly_reject fun _ => by decide).bind fun _ _ => failsOnly_ok _
    exact absurd rfl (hfails _ herror)

/-- **An accepted registration can be stored exactly if its scenario has no NUL.** -/
theorem registration_storable_iff (h : validateRegistration P runID key registration = .ok ()) :
    ((∀ text ∈ registration.texts, Char.ofNat 0 ∉ text.toList) ↔ registration.scenarioClean = true) ∧
      ∀ now hash db, registerRun now runID key hash registration db ≠ .error (.internal "registration contains NUL") ↔
        registration.scenarioClean = true := by
  have hclean := (checksTexts_of_accepted h).storable_iff
  constructor
  · rw [← hclean, Registration.storable, List.all_eq_true]
    simp
  · intro now hash db
    rw [Ne, registerRun_nul_iff h, Bool.not_eq_false, hclean]

/-! ### A case id with a NUL -/

/-- A registration with a scenario for one case. -/
def Registration.withScenario (caseID : String) : Registration :=
  { Registration.reference "demo" "indexed" 1 with
    reliability := some ⟨some 7, ⟨3, 100, 2000, 5000, .finite 0, false⟩, none,
      some ⟨⟨"faults", "scenario.json"⟩,
        "sha256:" ++ checksumHex (marshalScenario integerFormat (rateLimited [caseID])), rateLimited [caseID]⟩⟩ }

def nulCaseID : String := String.ofList ['a', Char.ofNat 0, 'b']

/-- The service accepts it, whatever is in the case id. -/
theorem accepted_withScenario {caseID : String} (hblank : blank caseID = false) (hlength : caseID.utf8ByteSize ≤ 512)
    (hsize : (marshalScenario integerFormat (rateLimited [caseID])).length ≤ maxScenarioBytes) :
    validateRegistration (Platform.withJSON integerFormat) "demo" (registrationKey "demo")
      (Registration.withScenario caseID) = .ok () := by
  have hids : (∀ id ∈ [caseID], blank id = false ∧ id.utf8ByteSize ≤ 512) ∧ [caseID].Nodup :=
    ⟨List.forall_mem_singleton.mpr ⟨hblank, hlength⟩, List.nodup_singleton _⟩
  have hparse := parseScenario_writeScenario (usesJSON_withJSON integerFormat) (normal_rateLimited hids) true hsize
  have hdigest : scenarioDigestMatches (Platform.withJSON integerFormat)
      ⟨⟨"faults", "scenario.json"⟩, "sha256:" ++ checksumHex (marshalScenario integerFormat (rateLimited [caseID])),
        rateLimited [caseID]⟩ = true := by
    have hmarshal : (Platform.withJSON integerFormat).marshalScenario (rateLimited [caseID]) =
      writeScenario integerFormat true (rateLimited [caseID]) := rfl
    rw [scenarioDigestMatches, hmarshal, hparse]
    exact decide_eq_true ⟨hsize, rfl⟩
  have hpattern : digestPattern ("sha256:" ++ checksumHex (marshalScenario integerFormat (rateLimited [caseID]))) = true :=
    @digestPattern_sha256Hex (Platform.withJSON integerFormat) _
  have hreliability : validateReliability (Platform.withJSON integerFormat) ⟨some 7, ⟨3, 100, 2000, 5000, .finite 0, false⟩, none,
      some ⟨⟨"faults", "scenario.json"⟩,
        "sha256:" ++ checksumHex (marshalScenario integerFormat (rateLimited [caseID])), rateLimited [caseID]⟩⟩ = .ok () := by
    have hnames : (blank "faults" || blank "scenario.json") = false := by decide
    rw [Bool.or_eq_false_iff] at hnames
    simp only [validateReliability, then_ok_iff, invalid_eq_ok, hdigest, hpattern, hnames.1, hnames.2]
    exact ⟨rfl, rfl, rfl, rfl, rfl⟩
  have hrest : validateRegistration (Platform.withJSON integerFormat) "demo" (registrationKey "demo")
      { Registration.withScenario caseID with reliability := none } = .ok () := by
    show validateRegistration (Platform.withJSON integerFormat) "demo" (registrationKey "demo")
      (Registration.reference "demo" "indexed" 1) = .ok ()
    decide +kernel
  simp only [validateRegistration, then_ok_iff] at hrest ⊢
  obtain ⟨h1, h2, h3, h4, h5, h6, h7, h8, h9, h10, hscheduling⟩ := hrest
  exact ⟨h1, h2, h3, h4, h5, h6, h7, h8, h9, h10, then_ok_iff.mpr ⟨hreliability, hscheduling⟩⟩

theorem registration_storable_plain :
    validateRegistration (Platform.withJSON integerFormat) "demo" (registrationKey "demo")
        (Registration.withScenario "a < b") = .ok () ∧
      registerRun 0 "demo" (registrationKey "demo") "" (Registration.withScenario "a < b") Db.empty ≠
        .error (.internal "registration contains NUL") := by
  have haccepted := accepted_withScenario (by decide : blank "a < b" = false) (by decide) (by decide +kernel)
  exact ⟨haccepted, ((registration_storable_iff haccepted).2 0 "" Db.empty).mpr (by decide +kernel)⟩

/-- The registration is accepted, and `RegisterRun` fails. -/
theorem registration_storable_nul :
    validateRegistration (Platform.withJSON integerFormat) "demo" (registrationKey "demo")
        (Registration.withScenario nulCaseID) = .ok () ∧
      nulCaseID ∈ (Registration.withScenario nulCaseID).texts ∧ Char.ofNat 0 ∈ nulCaseID.toList ∧
      registerRun 0 "demo" (registrationKey "demo") "" (Registration.withScenario nulCaseID) Db.empty =
        .error (.internal "registration contains NUL") := by
  have haccepted := accepted_withScenario (by decide : blank nulCaseID = false) (by decide) (by decide +kernel)
  exact ⟨haccepted, by decide +kernel, by decide, (registerRun_nul_iff haccepted).mpr (by decide +kernel)⟩

end AgentStorm.Results
