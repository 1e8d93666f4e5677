import AgentStorm.Controller.Registration
import AgentStorm.Worker.Config

/-!
# `Controller.Target` — an accepted target in the worker

`ensureWorkerConfig` writes the target of an accepted run into `run.json` (`targetDocument`) and the
worker checks it again with validators of its own. The two parse URLs with different libraries;
`URLsAgree` is what is assumed of them. `target_accepted_iff`: the worker accepts the section exactly
if it `Fits`.
-/

namespace AgentStorm.Controller

open Checks Numeric Python Results Text
open Worker.Config (Interpreter Members SplitResult emptyText encodedSize jsonValue jsonValue_list
  jsonValue_dict)

/-! ## What is written -/

def omitEmpty (s : String) : Option Value := if s = "" then none else some (.str (text s))

def AgentPricingSpec.entries (p : AgentPricingSpec) : List (String × Option Value) :=
  [("inputUSDPerMillionTokens", some (.str (text p.inputUSDPerMillionTokens))),
   ("outputUSDPerMillionTokens", some (.str (text p.outputUSDPerMillionTokens)))]

def rawMembers (members : List RawMember) : Members := members.map fun member => (member.key, member.value)

def RawMessage.value : RawMessage → Option Value
  | .absent => none
  | .other value => some value
  | .object members => some (.dict (rawMembers members))

/-- The fields of the target under their names in `run.json`. -/
def targetEntries (target : AgentTargetSpec) : List (String × Option Value) :=
  [("provider", some (.str (text target.provider))),
   ("model", omitEmpty target.model),
   ("baseURL", omitEmpty target.baseURL),
   ("adapterEntrypoint", omitEmpty target.adapterEntrypoint),
   ("pricing", target.pricing.map fun p => .dict (document p.entries)),
   ("maxTokens", target.maxTokens.map .int),
   ("requestFields", target.requestFields.value),
   ("httpRetryAttempts", target.httpRetryAttempts.map .int),
   ("httpRetryMaxWaitSeconds", target.httpRetryMaxWaitSeconds.map .int)]

def targetDocument (target : AgentTargetSpec) : Value := .dict (document (targetEntries target))

/-! ## URLs and models -/

variable {L : Libraries} {py : Interpreter}

/-- An absolute URL as both libraries see it. -/
structure BothParse (L : Libraries) (py : Interpreter) (raw : String) (parsed : ParsedURL) (split : SplitResult) : Prop where
  go : L.parseURL raw = some parsed
  python : py.urlsplit (text raw) = some split
  scheme : parsed.scheme = "http" ∨ parsed.scheme = "https"
  host : parsed.host ≠ ""

/-- What `net/url` and `urllib.parse` have in common. -/
structure URLsAgree (L : Libraries) (py : Interpreter) : Prop where
  /-- `net/url` refuses control characters in front of a fragment. -/
  printable : ∀ {raw parsed}, L.parseURL raw = some parsed → parsed.fragment = "" → ∀ c ∈ raw.toList, 32 ≤ c.toNat
  scheme : ∀ {raw parsed split}, BothParse L py raw parsed split → split.scheme = text parsed.scheme
  credentials : ∀ {raw parsed split}, BothParse L py raw parsed split → parsed.hasUser = false →
    split.username = none ∧ split.password = none
  query : ∀ {raw parsed split}, BothParse L py raw parsed split → parsed.rawQuery = "" → split.query = []
  fragment : ∀ {raw parsed split}, BothParse L py raw parsed split → parsed.fragment = "" → split.fragment = []
  path : ∀ {raw parsed split}, BothParse L py raw parsed split →
    (text "/chat/completions").isSuffixOf (split.path.reverse.dropWhile fun c => c.val == 47).reverse = true →
    chatSuffix.isSuffixOf (trimSlashes parsed.escapedPath.toList) = true

theorem isPySpace_of_printable {c : Char} (h : 32 ≤ c.toNat) : isPySpace c = isSpace c := by
  rw [isPySpace, decide_eq_false (p := c.toNat ≤ 31) (by omega), Bool.and_false, Bool.or_false]

/-- Of an accepted URL, the worker only asks in addition that it has a host name. -/
theorem validateBaseUrl_iff (hurls : URLsAgree L py) {raw : String} (hne : raw ≠ "") (h : validateBaseURL L raw = .ok ()) :
    Worker.Config.validateBaseUrl py (text raw) = .ok () ↔
      ∃ split, py.urlsplit (text raw) = some split ∧ emptyText split.hostname = false := by
  rw [validateBaseURL, if_neg hne, then_ok_iff, bind_ok_iff] at h
  obtain ⟨htext, parsed, hparsed, hvalid⟩ := h
  simp only [reject_eq_ok, Bool.or_eq_false_iff, decide_eq_false_iff_not, not_or, not_lt, Decidable.not_not] at htext
  obtain ⟨⟨hsize, htrim⟩, -⟩ := htext
  simp only [validateParsedURL, then_ok_iff, reject_eq_ok, decide_eq_false_iff_not, not_or, not_and, Decidable.not_not]
    at hvalid
  obtain ⟨⟨hhost, hscheme⟩, huser, ⟨hquery, hfragment⟩, hpath⟩ := hvalid
  have hprintable := hurls.printable (orElse_eq_ok.mp hparsed) hfragment
  have hfront : ((text raw).isEmpty || decide (text raw ≠ strip (text raw)) || decide (2048 < (text raw).length) ||
      (text raw).any fun c => c.val == 13 || c.val == 10 || c.val == 9) = false := by
    have hstrip : strip (text raw) = text raw := by
      have hagree : ∀ c ∈ raw.toList, isspace (Fin.ofNat 0x110000 c.toNat) = isSpace c := fun c hc =>
        (isspace_ofNat_toNat c).trans (isPySpace_of_printable (hprintable c hc))
      rw [strip, text, trim_map hagree]
      exact congrArg _ htrim
    have hlength : (text raw).length ≤ 2048 := by
      rw [text, List.length_map]
      exact (length_le_utf8ByteSize raw).trans hsize
    rw [text_isEmpty, decide_eq_false hne, hstrip, decide_eq_false (not_not.mpr rfl), decide_eq_false (not_lt.mpr hlength),
      Bool.false_or, Bool.false_or, Bool.false_or, List.any_eq_false]
    intro code hcode
    obtain ⟨c, hc, rfl⟩ := List.mem_map.mp hcode
    have := hprintable c hc
    simp only [val_ofNat_toNat, Bool.or_eq_true, beq_iff_eq]
    omega
  rw [Worker.Config.validateBaseUrl, then_ok_iff, bind_ok_iff]
  constructor
  · rintro ⟨-, split, hsplit, hchecks⟩
    refine ⟨split, orElse_eq_ok.mp hsplit, ?_⟩
    rw [Worker.Config.validateSplit, then_ok_iff, reject_eq_ok, Bool.or_eq_false_iff] at hchecks
    exact hchecks.1.2
  · rintro ⟨split, hsplit, hhostname⟩
    have hboth : BothParse L py raw parsed split := ⟨orElse_eq_ok.mp hparsed, hsplit, by tauto, hhost⟩
    obtain ⟨husername, hpassword⟩ := hurls.credentials hboth huser
    refine ⟨reject_eq_ok.mpr hfront, split, orElse_eq_ok.mpr hsplit, ?_⟩
    simp only [Worker.Config.validateSplit, then_ok_iff, reject_eq_ok, hurls.scheme hboth, hhostname, husername, hpassword,
      hurls.query hboth hquery, hurls.fragment hboth hfragment]
    refine ⟨?_, rfl, rfl, ?_⟩
    · rw [Bool.or_false, decide_eq_false_iff_not]
      rintro ⟨hhttp, hhttps⟩
      rcases hboth.scheme with heq | heq
      · exact hhttp (congrArg text heq)
      · exact hhttps (congrArg text heq)
    · exact Bool.eq_false_iff.mpr fun hsuffix => Bool.eq_false_iff.mp hpath (hurls.path hboth hsuffix)

/-- Of an accepted model, the worker asks that it has none of the white space that Go does not look for. -/
theorem validatePinnedModel_iff {model : String} (h : validatePinnedModel model = .ok ()) :
    Worker.Config.validatePinnedModel (text model) = .ok () ↔ ∀ c ∈ model.toList, isPySpace c = false := by
  rw [validatePinnedModel, reject_eq_ok, Bool.or_eq_false_iff, Bool.or_eq_false_iff, decide_eq_false_iff_not, not_lt] at h
  obtain ⟨⟨hblank, hsize⟩, -⟩ := h
  have hne : model ≠ "" := by
    rintro rfl
    exact absurd hblank (by decide)
  rw [Worker.Config.validatePinnedModel_text]
  exact ⟨fun h => h.2.2, fun h => ⟨hne, hsize, h⟩⟩

/-! ## Request fields -/

theorem decodableItems_iff {items : List Value} : decodableItems items = true ↔ ∀ item ∈ items, decodable item = true := by
  induction items with
  | nil => simp [decodableItems]
  | cons item items ih => rw [decodableItems, Bool.and_eq_true, ih, List.forall_mem_cons]

theorem decodableMembers_iff {members : Members} :
    decodableMembers members = true ↔ ∀ member ∈ members, decodable member.2 = true := by
  induction members with
  | nil => simp [decodableMembers]
  | cons member members ih => rw [decodableMembers, Bool.and_eq_true, ih, List.forall_mem_cons]

/-- A value that Go decodes holds no infinite number, so that only its height counts for the worker. -/
theorem jsonValue_collapse_iff {value : Value} (h : decodable value = true) (depth : Nat) :
    jsonValue (collapse value) depth = .ok () ↔ depth + height (collapse value) ≤ 6 := by
  induction value using Value.induction generalizing depth with
  | leaf value hleaf =>
    cases value with
    | float x =>
      cases x with
      | finite => simp [collapse, jsonValue, height]
      | _ => cases h
    | list => cases hleaf
    | dict => cases hleaf
    | _ => simp [collapse, jsonValue, height]
  | list items ih =>
    have hitems := decodableItems_iff.mp h
    have hroom : depth + height (.list (items.map collapse)) ≤ 6 ↔
        depth ≤ 6 ∧ height (.list (items.map collapse)) ≤ 6 - depth := by omega
    rw [collapse_list, jsonValue_list, hroom, height_list_le, List.forall_mem_map, List.forall_mem_map]
    refine and_congr_right fun _ => forall₂_congr fun item hitem => ?_
    rw [ih item hitem (hitems item hitem)]
    omega
  | dict members ih =>
    have hmembers := decodableMembers_iff.mp h
    have hroom : ∀ kept : Members, depth + height (.dict kept) ≤ 6 ↔ depth ≤ 6 ∧ height (.dict kept) ≤ 6 - depth := by
      omega
    rw [collapse_dict, jsonValue_dict, hroom, height_dict_le]
    -- what is kept of the members is among them
    refine and_congr_right fun _ => forall₂_congr fun member hmember => ?_
    obtain ⟨written, hwritten, rfl⟩ := List.mem_map.mp (Dict.mem_of_mem_ofMembers hmember)
    show jsonValue (collapse written.2) (depth + 1) = .ok () ↔ height (collapse written.2) + 1 ≤ 6 - depth
    rw [ih written hwritten (hmembers written hwritten)]
    omega

theorem ascii_of_identifierPattern {cs : List Char} (h : identifierPattern cs = true) : ∀ c ∈ cs, c.toNat < 128 := by
  have hword : ∀ c : Char, (c.isAlphanum || c == '_') = true → c.toNat < 128 := by
    intro c hc
    simp only [Char.isAlphanum, Char.isAlpha, Char.isUpper, Char.isLower, Char.isDigit, Bool.or_eq_true, Bool.and_eq_true,
      decide_eq_true_eq, ge_iff_le, UInt32.le_iff_toNat_le, beq_iff_eq] at hc
    rcases hc with ((⟨-, hz⟩ | ⟨-, hz⟩) | ⟨-, hz⟩) | rfl
    · exact lt_of_le_of_lt hz (by decide)
    · exact lt_of_le_of_lt hz (by decide)
    · exact lt_of_le_of_lt hz (by decide)
    · decide
  unfold identifierPattern at h
  split at h
  · exact fun c hc => absurd hc List.not_mem_nil
  · rw [Bool.and_eq_true, List.all_eq_true] at h
    refine List.forall_mem_cons.mpr ⟨hword _ ?_, fun c hc => hword c (h.2 c hc)⟩
    rcases Bool.or_eq_true_iff.mp h.1 with halpha | hmark
    · rw [Char.isAlphanum, halpha, Bool.true_or, Bool.true_or]
    · rw [hmark, Bool.or_true]

/-- A key whose reading in Go is ASCII is that text. -/
theorem text_goText {key : Text} (h : ∀ c ∈ (goText key).toList, c.toNat < 128) : text (goText key) = key := by
  rw [goText, String.toList_ofList, List.forall_mem_map] at h
  rw [text, goText, String.toList_ofList, List.map_map]
  refine (List.map_congr_left fun c hc => ?_).trans (List.map_id key)
  have hsmall := h c hc
  by_cases hvalid : c.val.isValidChar
  · rw [if_pos hvalid] at hsmall
    show Fin.ofNat 0x110000 (if c.val.isValidChar then Char.ofNat c.val else Char.ofNat 0xFFFD).toNat = c
    rw [if_pos hvalid, Char.toNat_ofNat, if_pos hvalid]
    exact Fin.ext (Nat.mod_eq_of_lt c.isLt)
  · rw [if_neg hvalid] at hsmall
    exact absurd hsmall (by decide)

/-- The fields that are left when repeated keys are collapsed. -/
def keptFields (members : List RawMember) : Members := Dict.ofMembers (rawMembers members)

/-- What the worker asks of the value of a field. -/
def FieldFits (py : Interpreter) (value : Value) : Prop :=
  height value ≤ 6 ∧ ∃ size, encodedSize py value = some size ∧ size ≤ 1024

/-- A field that the controller accepts is accepted by the worker exactly if its value fits. -/
theorem validateRequestField_iff {key : Text} {value : Value} {size : Nat}
    (h : validateRequestField (goText key, value, size) = .ok ()) :
    Worker.Config.validateRequestField py (Worker.Config.reservedRequestFields ++ ["temperature", "max_tokens"])
      (key, collapse value) = .ok () ↔ FieldFits py (collapse value) := by
  simp only [validateRequestField, then_ok_iff, reject_eq_ok, decide_eq_false_iff_not, Bool.not_eq_false'] at h
  obtain ⟨hkey, hreserved, -, hdecodable⟩ := h
  have hidentifier : identifierPattern (goText key).toList = true := (Bool.and_eq_true_iff.mp hkey).1
  have htext := text_goText (ascii_of_identifierPattern hidentifier)
  have hpattern : Worker.Config.matches? Worker.Config.requestFieldKey key = true := by
    rw [← htext, Worker.Config.matches?_text]
    exact hkey
  have hfree : Worker.Config.matches? (· ∈ Worker.Config.reservedRequestFields ++ ["temperature", "max_tokens"]) key =
      false := by
    rw [← htext, Worker.Config.matches?_text]
    exact decide_eq_false hreserved
  simp only [Worker.Config.validateRequestField, then_ok_iff]
  rw [bind_ok_iff]
  simp only [reject_eq_ok, orElse_eq_ok, hpattern, hfree, Bool.not_true, true_and, jsonValue_collapse_iff hdecodable,
    Nat.zero_add, decide_eq_false_iff_not, Nat.not_lt, FieldFits]

/-- **Request fields.** The worker accepts those of an accepted run exactly if every value that is kept fits. -/
theorem validateRequestFields_iff {members : List RawMember} (h : validateRequestFields (.object members) = .ok ()) :
    (∃ fields, Worker.Config.validateRequestFields py ["temperature", "max_tokens"] (collapse (.dict (rawMembers members))) =
      .ok fields) ↔ ∀ field ∈ keptFields members, FieldFits py (collapse field.2) := by
  rw [validateRequestFields, then_ok_iff, forM_ok_iff, reject_eq_ok, decide_eq_false_iff_not, Nat.not_lt] at h
  obtain ⟨hlength, hfields⟩ := h
  have hidentifiers : ∀ key ∈ members.map RawMember.key, text (goText key) = key := by
    intro key hkey
    obtain ⟨member, hmember, rfl⟩ := List.mem_map.mp hkey
    have hstored : goText member.key ∈ (rawFields members).map Prod.fst := by
      refine Dict.mem_keys_ofMembers.mpr (List.mem_map.mpr ⟨_, List.mem_map.mpr ⟨member, hmember, rfl⟩, rfl⟩)
    obtain ⟨field, hfield, hname⟩ := List.mem_map.mp hstored
    have haccepted := hfields field hfield
    simp only [validateRequestField, then_ok_iff, reject_eq_ok, Bool.not_eq_false', hname] at haccepted
    exact text_goText (ascii_of_identifierPattern (Bool.and_eq_true_iff.mp haccepted.1).1)
  -- one dictionary with the keys as they are written, of which both sides see a part
  let written := members.map fun member => (member.key, member.value, member.size)
  have hkeys : written.map Prod.fst = members.map RawMember.key := List.map_map ..
  have hpart : ∀ {β : Type} (g : Value × Nat → β), Dict.ofMembers (written.map fun entry => (entry.1, g entry.2)) =
      (Dict.ofMembers written).map fun entry => (entry.1, g entry.2) :=
    fun g => Dict.ofMembers_map (f := id) fun _ _ _ _ heq => heq
  have hgo : rawFields members = (Dict.ofMembers written).map fun entry => (goText entry.1, entry.2) := by
    refine Eq.trans ?_ (Dict.ofMembers_map (f := goText) (g := id) ?_)
    · rw [rawFields, List.map_map]
      rfl
    · intro key hkey key' hkey' heq
      rw [hkeys] at hkey hkey'
      rw [← hidentifiers key hkey, ← hidentifiers key' hkey', heq]
  have hpython : collapse (.dict (rawMembers members)) =
      .dict ((Dict.ofMembers written).map fun entry => (entry.1, collapse entry.2.1)) := by
    rw [collapse_dict, ← hpart fun value => collapse value.1, rawMembers, List.map_map, List.map_map]
    rfl
  have hkept : keptFields members = (Dict.ofMembers written).map fun entry => (entry.1, entry.2.1) := by
    rw [← hpart Prod.fst, keptFields, rawMembers, List.map_map]
    rfl
  rw [hgo, List.length_map] at hlength
  rw [hgo, List.forall_mem_map] at hfields
  rw [hpython, hkept, List.forall_mem_map]
  simp only [Worker.Config.validateRequestFields, then_ok_iff, reject_eq_ok, forM_ok_iff, List.forall_mem_map,
    List.length_map, decide_eq_false (Nat.not_lt.mpr hlength), true_and]
  constructor
  · rintro ⟨_, haccepted, -⟩ entry hentry
    exact (validateRequestField_iff (hfields entry hentry)).mp (haccepted entry hentry)
  · exact fun hfits => ⟨_, fun entry hentry => (validateRequestField_iff (hfields entry hentry)).mpr (hfits entry hentry), rfl⟩

/-! ## The section -/

variable {target : AgentTargetSpec}

/-- What the worker reads, request fields apart. -/
def targetConfig (target : AgentTargetSpec) (fields : Members) : Worker.Config.TargetConfig where
  provider := text target.provider
  model := text target.model
  baseURL := text target.baseURL
  adapterEntrypoint := text target.adapterEntrypoint
  pricing := target.pricing.map fun p => ⟨text p.inputUSDPerMillionTokens, text p.outputUSDPerMillionTokens⟩
  maxOutputTokens := target.maxTokens
  requestFields := fields
  httpRetryAttempts := target.httpRetryAttempts
  httpRetryMaxWaitSeconds := target.httpRetryMaxWaitSeconds

/-- The section after `json.loads`. -/
def loadedEntries (target : AgentTargetSpec) : List (String × Option Value) :=
  (targetEntries target).map fun entry => (entry.1, entry.2.map collapse)

theorem nodup_targetEntries (target : AgentTargetSpec) : ((targetEntries target).map Prod.fst).Nodup := by
  show ["provider", "model", "baseURL", "adapterEntrypoint", "pricing", "maxTokens", "requestFields", "httpRetryAttempts",
    "httpRetryMaxWaitSeconds"].Nodup
  decide

theorem get?_loadedEntries (target : AgentTargetSpec) (name : String) :
    get? (document (loadedEntries target)) name =
      ((loadedEntries target).find? fun entry => entry.1 == name).bind (·.2) := by
  refine get?_document ?_ name
  rw [loadedEntries, List.map_map]
  exact nodup_targetEntries target

theorem collapse_omitEmpty (s : String) : (omitEmpty s).map collapse = omitEmpty s := by
  unfold omitEmpty
  split <;> rfl

theorem collapse_integer (n : Option Int) : (n.map Value.int).map collapse = n.map .int := by
  cases n <;> rfl

theorem textEntry_omitEmpty {target : Members} {name s : String} {aliases : List String} (h : get? target name = omitEmpty s)
    (haliases : ∀ other ∈ aliases, get? target other = none) :
    Worker.Config.textEntry py target (name :: aliases) "" = text s := by
  have hrest : aliases.findSome? (fun name => (get? target name).filter truthy) = none :=
    List.findSome?_eq_none_iff.mpr fun other hother => by rw [haliases other hother]; rfl
  by_cases hs : s = ""
  · rw [omitEmpty, if_pos hs] at h
    simp only [Worker.Config.textEntry, List.findSome?_cons, h, Option.filter_none, hrest, hs]
  · rw [omitEmpty, if_neg hs] at h
    have htruthy : truthy (.str (text s)) = true := by simp [truthy, hs]
    simp only [Worker.Config.textEntry, List.findSome?_cons, h, Option.filter_some, htruthy, if_true]

theorem optionalInteger_ok {target : Members} {name other label : String} {max : Int} {n : Option Int}
    (h : get? target name = n.map .int) (hother : get? target other = none)
    (hrange : (n.any fun n => decide (n < 1 ∨ max < n)) = false) :
    Worker.Config.optionalInteger (Worker.Config.validateInteger label max) target name other = .ok n := by
  unfold Worker.Config.optionalInteger
  rw [h, hother]
  cases n with
  | none => rfl
  | some n =>
    have hn : decide (n < 1 ∨ max < n) = false := hrange
    simp [Worker.Config.validateInteger, hn]

theorem pricing_ok {pricing : Option AgentPricingSpec}
    (h : (pricing.any fun p => !pricePattern p.inputUSDPerMillionTokens || !pricePattern p.outputUSDPerMillionTokens) = false) :
    Worker.Config.pricing (((pricing.map fun p => Value.dict (document p.entries)).map collapse).getD .none) =
      .ok (pricing.map fun p => ⟨text p.inputUSDPerMillionTokens, text p.outputUSDPerMillionTokens⟩) := by
  cases pricing with
  | none => rfl
  | some p =>
    have hprices : pricePattern p.inputUSDPerMillionTokens = true ∧ pricePattern p.outputUSDPerMillionTokens = true := by
      simpa using h
    have hnames : (p.entries.map Prod.fst).Nodup := by
      show ["inputUSDPerMillionTokens", "outputUSDPerMillionTokens"].Nodup
      decide
    have hloaded : collapse (.dict (document p.entries)) = .dict (document p.entries) := collapse_document hnames
    have hinput : get? (document p.entries) "inputUSDPerMillionTokens" = some (.str (text p.inputUSDPerMillionTokens)) :=
      get?_document hnames "inputUSDPerMillionTokens"
    have houtput : get? (document p.entries) "outputUSDPerMillionTokens" = some (.str (text p.outputUSDPerMillionTokens)) :=
      get?_document hnames "outputUSDPerMillionTokens"
    simp [hloaded, Worker.Config.pricing, Worker.Config.price, hinput, houtput, hprices]

theorem readTarget_iff {config : Worker.Config.TargetConfig} (h : validateTarget L target = .ok ()) :
    Worker.Config.readTarget py (document (loadedEntries target)) = .ok config ↔
      ∃ fields, Worker.Config.validateRequestFields py ["temperature", "max_tokens"]
        ((target.requestFields.value.map collapse).getD .none) = .ok fields ∧ targetConfig target fields = config := by
  simp only [validateTarget, then_ok_iff, reject_eq_ok, decide_eq_false_iff_not, Decidable.not_not] at h
  obtain ⟨hknown, -, -, hpricing, htokens, hattempts, hwait, -⟩ := h
  have hget := get?_loadedEntries target
  have hprovider : Worker.Config.textEntry py (document (loadedEntries target)) ["provider"] "fake" = text target.provider := by
    have hne : target.provider ≠ "" := fun hempty => absurd (hempty ▸ hknown) (by decide)
    have hsome : get? (document (loadedEntries target)) "provider" = some (.str (text target.provider)) := hget "provider"
    have htruthy : truthy (.str (text target.provider)) = true := by simp [truthy, hne]
    simp [Worker.Config.textEntry, hsome, Option.filter_some, htruthy]
  have hmodel : Worker.Config.textEntry py (document (loadedEntries target)) ["model"] "" = text target.model :=
    textEntry_omitEmpty ((hget "model").trans (collapse_omitEmpty _)) (List.forall_mem_nil _)
  have hbaseURL : Worker.Config.textEntry py (document (loadedEntries target)) ["baseURL", "base_url"] "" =
      text target.baseURL :=
    textEntry_omitEmpty ((hget "baseURL").trans (collapse_omitEmpty _)) (List.forall_mem_singleton.mpr (hget "base_url"))
  have hentrypoint : Worker.Config.textEntry py (document (loadedEntries target))
      ["adapterEntrypoint", "adapter_entrypoint"] "" = text target.adapterEntrypoint :=
    textEntry_omitEmpty ((hget "adapterEntrypoint").trans (collapse_omitEmpty _)) (List.forall_mem_singleton.mpr (hget "adapter_entrypoint"))
  have hprices := (congrArg (fun value => Worker.Config.pricing (value.getD .none)) (hget "pricing")).trans (pricing_ok hpricing)
  have hmaxTokens : Worker.Config.maxOutputTokens (document (loadedEntries target)) = .ok target.maxTokens :=
    optionalInteger_ok ((hget "maxTokens").trans (collapse_integer _)) (hget "max_output_tokens") htokens
  have hretries : Worker.Config.httpRetryAttempts (document (loadedEntries target)) = .ok target.httpRetryAttempts :=
    optionalInteger_ok ((hget "httpRetryAttempts").trans (collapse_integer _)) (hget "http_retry_attempts") hattempts
  have hseconds : Worker.Config.httpRetryMaxWaitSeconds (document (loadedEntries target)) =
      .ok target.httpRetryMaxWaitSeconds :=
    optionalInteger_ok ((hget "httpRetryMaxWaitSeconds").trans (collapse_integer _)) (hget "http_retry_max_wait_seconds") hwait
  have hfields : Worker.Config.requestFields py (document (loadedEntries target)) =
      Worker.Config.validateRequestFields py ["temperature", "max_tokens"]
        ((target.requestFields.value.map collapse).getD .none) := by
    rw [Worker.Config.requestFields, hget "requestFields", hget "request_fields"]
    rfl
  simp only [Worker.Config.readTarget, hprices, hmaxTokens, hretries, hseconds, hfields, hprovider, hmodel, hbaseURL,
    hentrypoint]
  show (Worker.Config.validateRequestFields py ["temperature", "max_tokens"]
    ((target.requestFields.value.map collapse).getD .none) >>= fun fields => Except.ok (targetConfig target fields)) =
      .ok config ↔ _
  rw [bind_ok_iff]
  simp

theorem scannable_targetDocument (h : validateTarget L target = .ok ()) :
    scannable py.depthLimit (targetDocument target) = true ↔
      ∀ value, target.requestFields.value = some value → scannable (py.depthLimit - 1) value = true := by
  simp only [validateTarget, then_ok_iff, reject_eq_ok] at h
  obtain ⟨-, -, -, -, htokens, hattempts, hwait, -⟩ := h
  obtain ⟨depth, hdepth⟩ : ∃ depth, py.depthLimit = depth + 2 := ⟨py.depthLimit - 2, by have := py.two_le_depthLimit; omega⟩
  have hsmall : ∀ {n : Option Int} {max : Int}, (n.any fun n => decide (n < 1 ∨ max < n)) = false → max ≤ 131072 →
      ∀ value, n.map Value.int = some value → scannable (depth + 1) value = true := by
    intro n max hrange hmax value hvalue
    obtain ⟨n, rfl, rfl⟩ := Option.map_eq_some_iff.mp hvalue
    have hn : ¬(n < 1 ∨ max < n) := of_decide_eq_false hrange
    have hdigits : 10 ^ 6 ≤ 10 ^ maxStrDigits := Nat.pow_le_pow_right (by decide) (by decide)
    rw [scannable, decide_eq_true_iff]
    generalize 10 ^ maxStrDigits = bound at hdigits ⊢
    omega
  have htext : ∀ s value, omitEmpty s = some value → scannable (depth + 1) value = true := by
    intro s value hvalue
    unfold omitEmpty at hvalue
    split at hvalue
    · cases hvalue
    · cases hvalue
      rfl
  have hpricing : ∀ value, (target.pricing.map fun p => Value.dict (document p.entries)) = some value →
      scannable (depth + 1) value = true := by
    intro value hvalue
    obtain ⟨p, -, rfl⟩ := Option.map_eq_some_iff.mp hvalue
    rfl
  rw [hdepth, targetDocument, scannable_document]
  simp only [targetEntries, List.forall_mem_cons]
  constructor
  · rintro ⟨-, -, -, -, -, -, hfields, -⟩
    exact hfields
  · intro hfields
    refine ⟨fun value hvalue => ?_, htext _, htext _, htext _, hpricing, hsmall htokens (by decide), hfields,
      hsmall hattempts (by decide), hsmall hwait (by decide), List.forall_mem_nil _⟩
    cases hvalue
    rfl

/-- What the worker asks of a target that the controller accepted. -/
structure Fits (py : Interpreter) (target : AgentTargetSpec) : Prop where
  model : target.provider = "openai-compatible" → ∀ c ∈ target.model.toList, isPySpace c = false
  hostname : target.provider = "openai-compatible" →
    ∃ split, py.urlsplit (text target.baseURL) = some split ∧ emptyText split.hostname = false
  required : target.provider = "openai-agents" → pyBlank target.model = false
  /-- Nothing is nested too deeply or too long for `json.loads`, overridden fields included. -/
  loads : ∀ members, target.requestFields = .object members →
    scannable (py.depthLimit - 1) (.dict (rawMembers members)) = true
  fields : ∀ members, target.requestFields = .object members →
    ∀ field ∈ keptFields members, FieldFits py (collapse field.2)

theorem validateTarget_targetConfig (hurls : URLsAgree L py) {fields : Members}
    (h : validateTarget L target = .ok ()) :
    Worker.Config.validateTarget py (targetConfig target fields) = .ok () ↔
      (target.provider = "openai-compatible" → (∀ c ∈ target.model.toList, isPySpace c = false) ∧
        ∃ split, py.urlsplit (text target.baseURL) = some split ∧ emptyText split.hostname = false) ∧
      (target.provider = "openai-agents" → pyBlank target.model = false) := by
  simp only [validateTarget, then_ok_iff, reject_eq_ok] at h
  obtain ⟨-, hentrypoint, hprovider, -⟩ := h
  have hentry : Worker.Config.validateEntrypoint (text target.adapterEntrypoint) = .ok () := by
    rw [Worker.Config.validateEntrypoint_text]
    simp only [Bool.and_eq_false_iff, decide_eq_false_iff_not, not_not, Bool.or_eq_false_iff, not_lt, Bool.not_eq_false']
      at hentrypoint
    exact hentrypoint
  have hagents : (decide (text target.provider = text "openai-agents") && (strip (text target.model)).isEmpty) = false ↔
      (target.provider = "openai-agents" → pyBlank target.model = false) := by
    rw [Bool.and_eq_false_iff, isEmpty_strip_text, decide_eq_false_iff_not, text_injective.eq_iff, imp_iff_not_or]
  rw [Worker.Config.validateTarget, then_ok_iff, then_ok_iff, reject_eq_ok]
  refine and_congr ?_ ((and_iff_left hentry).trans hagents)
  unfold validateProvider at hprovider
  unfold Worker.Config.validateCompatible
  by_cases hcompatible : target.provider = "openai-compatible"
  · rw [if_pos hcompatible, validateCompatible, then_ok_iff, then_ok_iff, reject_eq_ok] at hprovider
    obtain ⟨hmodel, hblank, hurl⟩ := hprovider
    have hne : target.baseURL ≠ "" := fun hempty => absurd (hempty ▸ hblank) (by decide)
    have hpresent : (text target.baseURL).isEmpty = false := by rw [text_isEmpty, decide_eq_false hne]
    have hsame : (targetConfig target fields).provider = text "openai-compatible" := congrArg text hcompatible
    rw [if_pos hsame, then_ok_iff, then_ok_iff, reject_eq_ok]
    refine (and_congr (validatePinnedModel_iff hmodel)
      ((and_iff_right hpresent).trans (validateBaseUrl_iff hurls hne hurl))).trans ?_
    exact ⟨fun h _ => h, fun h => h hcompatible⟩
  · have hother : (targetConfig target fields).provider ≠ text "openai-compatible" := fun heq =>
      hcompatible (text_injective heq)
    rw [if_neg hother]
    exact ⟨fun _ h => absurd h hcompatible, fun _ => rfl⟩

theorem loadTarget_iff (h : validateTarget L target = .ok ()) :
    (∃ loaded, Worker.Config.loadTarget py (targetDocument target) = .ok loaded) ↔
      scannable py.depthLimit (targetDocument target) = true ∧ ∃ fields,
        Worker.Config.validateRequestFields py ["temperature", "max_tokens"]
          ((target.requestFields.value.map collapse).getD .none) = .ok fields ∧
        Worker.Config.validateTarget py (targetConfig target fields) = .ok () := by
  have hcollapse : collapse (targetDocument target) = .dict (document (loadedEntries target)) :=
    collapse_document (nodup_targetEntries target)
  unfold Worker.Config.loadTarget loads
  by_cases hscan : scannable py.depthLimit (targetDocument target) = true
  · rw [if_pos hscan, hcollapse, and_iff_right hscan]
    show (∃ loaded, (Worker.Config.readTarget py (document (loadedEntries target)) >>= fun config =>
      Worker.Config.validateTarget py config >>= fun _ => pure config) = .ok loaded) ↔ _
    constructor
    · rintro ⟨loaded, hloaded⟩
      obtain ⟨_, hread, hrest⟩ := bind_ok_iff.mp hloaded
      obtain ⟨fields, hfields, rfl⟩ := (readTarget_iff h).mp hread
      exact ⟨fields, hfields, (then_ok_iff.mp hrest).1⟩
    · rintro ⟨fields, hfields, hchecked⟩
      have hread := (readTarget_iff h).mpr ⟨fields, hfields, rfl⟩
      exact ⟨_, bind_ok_iff.mpr ⟨_, hread, then_ok_iff.mpr ⟨hchecked, rfl⟩⟩⟩
  · rw [if_neg hscan]
    constructor
    · rintro ⟨_, hloaded⟩
      cases hloaded
    · exact fun hboth => absurd hboth.1 hscan

/-- **A target that the controller accepts is accepted by the worker exactly if it fits.** -/
theorem target_accepted_iff (hurls : URLsAgree L py) {config : SchedulerConfig} {spec spec' : AgentTestRunSpec}
    (h : validateAndDefaultWithScheduler L config spec = .ok spec') :
    (∃ loaded, Worker.Config.loadTarget py (targetDocument spec'.target) = .ok loaded) ↔ Fits py spec'.target := by
  have hvalid := (admitted_of_ok h).target
  rw [(admitted_of_ok h).target_eq]
  generalize spec.target = target at hvalid
  have hfields : validateRequestFields target.requestFields = .ok () := by
    simp only [validateTarget, then_ok_iff] at hvalid
    exact hvalid.2.2.2.2.2.2.2
  rw [loadTarget_iff hvalid, scannable_targetDocument hvalid]
  simp only [validateTarget_targetConfig hurls hvalid]
  -- the checks of the section do not look at the fields
  rw [exists_and_right]
  cases hraw : target.requestFields with
  | absent =>
    constructor
    · rintro ⟨-, -, hcompatible, hagents⟩
      refine ⟨fun h => (hcompatible h).1, fun h => (hcompatible h).2, hagents, ?_, ?_⟩
      · intro members hmembers
        rw [hraw] at hmembers
        cases hmembers
      · intro members hmembers
        rw [hraw] at hmembers
        cases hmembers
    · intro hfits
      refine ⟨fun value hvalue => ?_, ⟨[], rfl⟩, fun h => ⟨hfits.model h, hfits.hostname h⟩, hfits.required⟩
      cases hvalue
  | other =>
    rw [hraw] at hfields
    cases hfields
  | object members =>
    rw [hraw] at hfields
    have hkept : (∃ fields, Worker.Config.validateRequestFields py ["temperature", "max_tokens"]
        (((RawMessage.object members).value.map collapse).getD .none) = .ok fields) ↔ _ :=
      validateRequestFields_iff hfields
    rw [hkept]
    constructor
    · rintro ⟨hscan, hvalues, hcompatible, hagents⟩
      refine ⟨fun h => (hcompatible h).1, fun h => (hcompatible h).2, hagents, ?_, ?_⟩
      · intro members' hmembers
        obtain rfl := RawMessage.object.inj (hraw.symm.trans hmembers)
        exact hscan _ rfl
      · intro members' hmembers
        obtain rfl := RawMessage.object.inj (hraw.symm.trans hmembers)
        exact hvalues
    · intro hfits
      refine ⟨fun value hvalue => ?_, hfits.fields members hraw, fun h => ⟨hfits.model h, hfits.hostname h⟩,
        hfits.required⟩
      cases hvalue
      exact hfits.loads members hraw

/-! ## Targets that only the controller accepts -/

def localURL : String := "http://localhost:8000/v1"

/-- Libraries that know one URL. -/
def Libraries.localURL : Libraries :=
  { Libraries.withoutURLs with
    parseURL := fun raw => if raw = Controller.localURL then some ⟨"http", "localhost:8000", false, "", "", "/v1"⟩ else none }

def localInterpreter : Interpreter where
  describe _ := []
  formatFloat q := q.num.repr ++ ".0"
  depthLimit := 1000
  two_le_depthLimit := Nat.le_add_left 2 998
  urlsplit s :=
    if s = text localURL then some ⟨text "http", some (text "localhost"), none, none, [], [], text "/v1"⟩ else none

theorem urlsAgree_localURL : URLsAgree .localURL localInterpreter := by
  have hparsed : ∀ {raw parsed}, Libraries.localURL.parseURL raw = some parsed →
      raw = localURL ∧ ⟨"http", "localhost:8000", false, "", "", "/v1"⟩ = parsed := by
    intro raw parsed h
    unfold Libraries.localURL at h
    simpa using h
  have hsplit : ∀ {raw parsed split}, BothParse .localURL localInterpreter raw parsed split →
      ⟨"http", "localhost:8000", false, "", "", "/v1"⟩ = parsed ∧
        ⟨text "http", some (text "localhost"), none, none, [], [], text "/v1"⟩ = split := by
    intro raw parsed split h
    obtain ⟨rfl, hparsed⟩ := hparsed h.go
    have hpython := h.python
    unfold localInterpreter at hpython
    exact ⟨hparsed, by simpa using hpython⟩
  refine ⟨fun h _ => ?_, fun h => ?_, fun h _ => ?_, fun h _ => ?_, fun h _ => ?_, fun h hpath => ?_⟩
  · obtain ⟨rfl, -⟩ := hparsed h
    have hall : (localURL.toList.all fun c => decide (32 ≤ c.toNat)) = true := by decide +kernel
    exact fun c hc => of_decide_eq_true (List.all_eq_true.mp hall c hc)
  all_goals obtain ⟨rfl, rfl⟩ := hsplit h
  · rfl
  · exact ⟨rfl, rfl⟩
  · rfl
  · rfl
  · exact absurd hpath (by decide +kernel)

def compatibleTarget (model : String) : AgentTargetSpec :=
  ⟨"openai-compatible", model, localURL, "", none, none, .object [⟨text "top_k", .int 4, 1⟩], none, none⟩

theorem target_accepted_local :
    ∃ loaded, Worker.Config.loadTarget localInterpreter (targetDocument (compatibleTarget "gpt-4o")) = .ok loaded := by
  have haccepted : validateTarget .localURL (compatibleTarget "gpt-4o") = .ok () := by decide +kernel
  refine (target_accepted_iff urlsAgree_localURL (accepted_scenarioRun haccepted)).mpr ⟨fun _ => ?_, fun _ => ?_, ?_, ?_, ?_⟩
  · have hany : ("gpt-4o".toList.any isPySpace) = false := by decide +kernel
    exact fun c hc => Bool.eq_false_iff.mpr (List.any_eq_false.mp hany c hc)
  · have hhost : localInterpreter.urlsplit (text localURL) =
        some ⟨text "http", some (text "localhost"), none, none, [], [], text "/v1"⟩ := by
      simp [localInterpreter]
    exact ⟨_, hhost, by decide +kernel⟩
  · exact fun h => absurd h (by decide +kernel)
  · intro members hmembers
    obtain rfl := RawMessage.object.inj hmembers
    decide +kernel
  · intro members hmembers field hfield
    obtain rfl := RawMessage.object.inj hmembers
    obtain rfl := List.mem_singleton.mp hfield
    exact ⟨by decide +kernel, 1, by decide +kernel, by decide⟩

/-- Lists around a zero. -/
def nestedLists : Nat → Value
  | 0 => .int 0
  | n + 1 => .list [nestedLists n]

def nestedTarget : AgentTargetSpec :=
  ⟨"fake", "", "", "", none, none, .object [⟨text "a", nestedLists 7, 15⟩], none, none⟩

/-- A no-break space in a model and a field that is nested seven lists deep pass the controller and stop the worker. -/
theorem target_accepted_spaced :
    validateAndDefaultWithScheduler .localURL .indexedOnly { scenarioRun "" with target := compatibleTarget "gpt\u00a04" } =
      .ok { scenarioRun "" with target := compatibleTarget "gpt\u00a04" } ∧
    (Worker.Config.loadTarget localInterpreter (targetDocument (compatibleTarget "gpt\u00a04"))).map (fun _ => ()) =
      .error (.invalid "target.model must be a pinned model id without whitespace") ∧
    validateAndDefaultWithScheduler .localURL .indexedOnly { scenarioRun "" with target := nestedTarget } =
      .ok { scenarioRun "" with target := nestedTarget } ∧
    (Worker.Config.loadTarget localInterpreter (targetDocument nestedTarget)).map (fun _ => ()) =
      .error (.invalid "target.requestFields is nested too deeply") := by
  refine ⟨accepted_scenarioRun (by decide +kernel), by decide +kernel, accepted_scenarioRun (by decide +kernel),
    by decide +kernel⟩

end AgentStorm.Controller
