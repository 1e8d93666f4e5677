import AgentStorm.Results.Outcomes
import AgentStorm.Results.Upload

/-!
# `Results.Costs` — what a run costs

The API prices every case with complete usage, rounds to twelve decimals, stores the row, and sums the
stored costs. A printed cost is off by at most half of 10⁻¹² (`abs_roundedUSD_sub_le`), and a sum of
printed costs is printed exactly. The price comes from the reservation; in every reachable world it is
the registered one (`Billed`). So the cost of a run is null or exact (`run_cost`).
-/

namespace AgentStorm.Results

open Checks Machine Numeric Relational

variable {P : Platform} {policy : LimitPolicy}

/-! ## Rounding -/

variable {q : ℚ}

/-- The digits of a printed cost, in units of the last one: the quotient rounded half up. -/
theorem costDigits_units (q : ℚ) : (costDigits q).1 * 10 ^ costScale + (costDigits q).2 =
    q.num.natAbs * 10 ^ costScale / q.den +
      if q.den ≤ 2 * (q.num.natAbs * 10 ^ costScale % q.den) then 1 else 0 := by
  have hsplit : q.num.natAbs * 10 ^ costScale =
      q.num.natAbs % q.den * 10 ^ costScale + q.den * (q.num.natAbs / q.den * 10 ^ costScale) := by
    conv_lhs => rw [← Nat.mod_add_div q.num.natAbs q.den]
    ring
  have hquot : q.num.natAbs * 10 ^ costScale / q.den =
      q.num.natAbs % q.den * 10 ^ costScale / q.den + q.num.natAbs / q.den * 10 ^ costScale := by
    rw [hsplit, Nat.add_mul_div_left _ _ q.den_pos]
  have hrem : q.num.natAbs * 10 ^ costScale % q.den = q.num.natAbs % q.den * 10 ^ costScale % q.den := by
    rw [hsplit, Nat.add_mul_mod_self_left]
  rw [hquot, hrem]
  unfold costDigits
  dsimp only
  generalize q.num.natAbs % q.den * 10 ^ costScale / q.den = k
  generalize q.num.natAbs / q.den = whole
  -- the carry moves one unit of the whole part, and changes no value
  split <;> split <;> simp only [add_mul, one_mul] <;> omega

theorem roundedUSD_eq_round (h : 0 ≤ q) :
    roundedUSD q = (round (q * 10 ^ costScale) : ℚ) / 10 ^ costScale := by
  have hround : round (q * 10 ^ costScale) = ((costDigits q).1 * 10 ^ costScale + (costDigits q).2 : Nat) := by
    rw [costDigits_units, round_eq, Int.floor_eq_iff]
    have hden : (0 : ℚ) < q.den := by exact_mod_cast q.den_pos
    have hnum : (q.num.natAbs : ℚ) = q * q.den := by
      rw [Rat.mul_den_eq_num, Nat.cast_natAbs, abs_of_nonneg (Rat.num_nonneg.mpr h)]
    have hdivision := Nat.div_add_mod (q.num.natAbs * 10 ^ costScale) q.den
    have hlt := Nat.mod_lt (q.num.natAbs * 10 ^ costScale) q.den_pos
    generalize q.num.natAbs * 10 ^ costScale / q.den = k at hdivision ⊢
    generalize hr : q.num.natAbs * 10 ^ costScale % q.den = r at hdivision hlt ⊢
    have hvalue : q * 10 ^ costScale = k + r / q.den := by
      have hcast : (q.den : ℚ) * k + r = q * q.den * 10 ^ costScale := by
        rw [← hnum]
        exact_mod_cast hdivision
      field_simp
      linarith
    have hfrac : (r : ℚ) / q.den < 1 := (div_lt_one hden).mpr (by exact_mod_cast hlt)
    have hfrac0 : (0 : ℚ) ≤ r / q.den := by positivity
    rw [hvalue]
    split
    · rename_i hhalf
      have : (1 : ℚ) / 2 ≤ r / q.den := by
        rw [div_le_div_iff₀ (by norm_num) hden]
        have : (q.den : ℚ) ≤ 2 * r := by exact_mod_cast hhalf
        linarith
      push_cast
      constructor <;> linarith
    · rename_i hhalf
      have : (r : ℚ) / q.den < 1 / 2 := by
        rw [div_lt_div_iff₀ hden (by norm_num)]
        have : 2 * (r : ℚ) < q.den := by exact_mod_cast Nat.lt_of_not_le hhalf
        linarith
      push_cast
      constructor <;> linarith
  rw [hround]
  unfold roundedUSD
  dsimp only
  rw [if_neg (not_lt.mpr h)]
  push_cast
  field_simp

/-- **A printed cost is off by at most half a unit** of its last digit. -/
theorem abs_roundedUSD_sub_le (h : 0 ≤ q) : |roundedUSD q - q| ≤ 5 / 10 ^ 13 := by
  have hround := abs_sub_round (q * 10 ^ costScale)
  have hscale : (0 : ℚ) < 10 ^ costScale := by positivity
  have hdiff : roundedUSD q - q = -(q * 10 ^ costScale - round (q * 10 ^ costScale)) / 10 ^ costScale := by
    rw [roundedUSD_eq_round h]
    field_simp
    ring
  rw [hdiff, abs_div, abs_neg, abs_of_pos hscale, div_le_iff₀ hscale]
  refine hround.trans ?_
  norm_num [costScale]

/-- A multiple of the last unit, not negative. -/
def OnGrid (q : ℚ) : Prop := ∃ k : Nat, q = k / 10 ^ costScale

theorem OnGrid.nonneg (h : OnGrid q) : 0 ≤ q := by
  obtain ⟨k, rfl⟩ := h
  positivity

theorem onGrid_zero : OnGrid 0 := ⟨0, by simp⟩

theorem OnGrid.add {p : ℚ} (hp : OnGrid p) (hq : OnGrid q) : OnGrid (p + q) := by
  obtain ⟨k, rfl⟩ := hp
  obtain ⟨l, rfl⟩ := hq
  exact ⟨k + l, by push_cast; ring⟩

theorem onGrid_roundedUSD (h : 0 ≤ q) : OnGrid (roundedUSD q) := by
  refine ⟨(costDigits q).1 * 10 ^ costScale + (costDigits q).2, ?_⟩
  unfold roundedUSD
  dsimp only
  rw [if_neg (not_lt.mpr h)]
  push_cast
  field_simp

theorem roundedUSD_of_grid (h : OnGrid q) : roundedUSD q = q := by
  rw [roundedUSD_eq_round h.nonneg]
  obtain ⟨k, rfl⟩ := h
  rw [div_mul_cancel₀ _ (by positivity)]
  simp

/-! ## Prices -/

variable {p : RunPricing}

/-- The value of a registered price. -/
def price (text : String) : ℚ := (ratSetString text).getD 0

theorem price_of_pattern {text : String} (h : pricePattern text = true) :
    ratSetString text = some (price text) ∧ 0 ≤ price text := by
  obtain ⟨q, hq, hpos⟩ := ratSetString_of_pricePattern h
  rw [price, hq]
  exact ⟨rfl, hpos⟩

/-- The exact cost of tokens at a price per million. -/
def exactUSD (text : String) (tokens : Int) : ℚ := price text * tokens / 1000000

theorem exactUSD_nonneg {text : String} (h : pricePattern text = true) {tokens : Int} (htokens : 0 ≤ tokens) :
    0 ≤ exactUSD text tokens := by
  have hprice := (price_of_pattern h).2
  have htokens' : (0 : ℚ) ≤ tokens := by exact_mod_cast htokens
  unfold exactUSD
  positivity

/-- The cost of a case's input and output tokens, as they are stored. -/
def inputUSD (p : RunPricing) (tokens : Int) : ℚ := roundedUSD (exactUSD p.inputUSDPerMillionTokens tokens)

def outputUSD (p : RunPricing) (tokens : Int) : ℚ := roundedUSD (exactUSD p.outputUSDPerMillionTokens tokens)

theorem tokenCostUSD_eq {text : String} (h : pricePattern text = true) (tokens : Int) :
    tokenCostUSD tokens text = .ok (floatString (exactUSD text tokens)) := by
  obtain ⟨hread, hpos⟩ := price_of_pattern h
  simpa [tokenCostUSD, hread, orElse, pure, Except.pure, exactUSD] using hpos

theorem costsForTokens_eq (h : PricingValid (some p)) (i o : Int) :
    costsForTokens (some p) i o = .ok ⟨some (floatString (exactUSD p.inputUSDPerMillionTokens i)),
      some (floatString (exactUSD p.outputUSDPerMillionTokens o)), some (floatString (inputUSD p i + outputUSD p o))⟩ := by
  obtain ⟨hin, hout⟩ := h p rfl
  simp [costsForTokens, tokenCostUSD_eq hin, tokenCostUSD_eq hout, addDecimalStrings_floatString, pure, Except.pure,
    inputUSD, outputUSD]

/-! ## Rows -/

variable {item : CaseResult}

/-- The costs of a row are those of its tokens, and absent without prices or complete usage. -/
structure Priced (pricing : Option RunPricing) (row : CaseRow) : Prop where
  inputTokens : 0 ≤ row.inputTokens
  outputTokens : 0 ≤ row.outputTokens
  input : row.inputCostUSD = if row.usageComplete then pricing.map (inputUSD · row.inputTokens) else none
  output : row.outputCostUSD = if row.usageComplete then pricing.map (outputUSD · row.outputTokens) else none
  total : row.costUSD = if row.usageComplete then
    pricing.map fun p => inputUSD p row.inputTokens + outputUSD p row.outputTokens else none

theorem numericColumn_ok {column : String} {cost : Option ℚ}
    (h : numericColumn column (some (floatString q)) = .ok cost) : cost = some (roundedUSD q) := by
  simp only [numericColumn, ratSetString_floatString] at h
  obtain ⟨_, hvalue, h⟩ := bind_ok_iff.mp h
  cases hvalue
  obtain ⟨-, h⟩ := then_ok_iff.mp h
  exact (Except.ok.inj h).symm

variable {runID : String}

/-- The cost columns of a stored row. -/
theorem caseRow_costs {hash : String} {shardIndex : Nat} {row : CaseRow}
    (h : caseRow runID shardIndex hash item = .ok row) :
    numericColumn "input_cost_usd" item.inputCostUSD = .ok row.inputCostUSD ∧
      numericColumn "output_cost_usd" item.outputCostUSD = .ok row.outputCostUSD ∧
      numericColumn "cost_usd" item.costUSD = .ok row.costUSD := by
  obtain ⟨-, _, _, _, _, -, hinput, houtput, hcost, rfl⟩ := caseRow_eq h
  exact ⟨hinput, houtput, hcost⟩

theorem inputUSD_onGrid (h : PricingValid (some p)) {tokens : Int} (htokens : 0 ≤ tokens) :
    OnGrid (inputUSD p tokens) := onGrid_roundedUSD (exactUSD_nonneg (h p rfl).1 htokens)

theorem outputUSD_onGrid (h : PricingValid (some p)) {tokens : Int} (htokens : 0 ≤ tokens) :
    OnGrid (outputUSD p tokens) := onGrid_roundedUSD (exactUSD_nonneg (h p rfl).2 htokens)

/-- Without prices or complete usage there is nothing to pay. -/
theorem caseCosts_unknown {pricing : Option RunPricing}
    (h : ¬ (usageComplete item.usageComplete = true ∧ ∃ p, pricing = some p)) :
    caseCosts pricing item = .ok Costs.none := by
  unfold caseCosts
  split
  · rename_i hcomplete
    cases pricing with
    | none => rfl
    | some p => exact absurd ⟨hcomplete, p, rfl⟩ h
  · rfl

theorem StoredUnder.priced {pricing : Option RunPricing} (hpricing : PricingValid pricing)
    {shardIndex : Nat} (hitem : CaseAccepted runID item) {row : CaseRow}
    (h : StoredUnder P pricing runID shardIndex item row) : Priced pricing row := by
  obtain ⟨_, hpriced, hrow⟩ := h
  obtain ⟨hinput, houtput, htotal⟩ := caseRow_costs hrow
  obtain ⟨costs, hcosts, rfl⟩ := map_ok_iff.mp hpriced
  have hcolumns : row.inputTokens = item.inputTokens ∧ row.outputTokens = item.outputTokens ∧
      row.usageComplete = usageComplete item.usageComplete := by
    obtain ⟨-, _, _, _, _, -, -, -, -, rfl⟩ := caseRow_eq hrow
    exact ⟨rfl, rfl, rfl⟩
  obtain ⟨hin, hout, husage⟩ := hcolumns
  have hin0 : 0 ≤ row.inputTokens := hin ▸ hitem.inputTokens_nonneg
  have hout0 : 0 ≤ row.outputTokens := hout ▸ hitem.outputTokens_nonneg
  by_cases hknown : usageComplete item.usageComplete = true ∧ ∃ p, pricing = some p
  · obtain ⟨hcomplete, p, rfl⟩ := hknown
    rw [caseCosts, if_pos hcomplete, ← hin, ← hout, costsForTokens_eq hpricing] at hcosts
    cases hcosts
    refine ⟨hin0, hout0, ?_, ?_, ?_⟩ <;> rw [husage, hcomplete]
    · exact numericColumn_ok hinput
    · exact numericColumn_ok houtput
    · -- a sum of rounded costs is printed as it is
      refine (numericColumn_ok htotal).trans (congrArg some (roundedUSD_of_grid ?_))
      exact (inputUSD_onGrid hpricing hin0).add (outputUSD_onGrid hpricing hout0)
  · have hnull : ∀ usd : RunPricing → ℚ, (if row.usageComplete then pricing.map usd else none) = none := by
      intro usd
      rw [husage]
      split
      · rename_i hcomplete
        exact Option.map_eq_none_iff.mpr (Option.eq_none_iff_forall_not_mem.mpr fun p hp => hknown ⟨hcomplete, p, hp⟩)
      · rfl
    rw [caseCosts_unknown hknown] at hcosts
    cases hcosts
    refine ⟨hin0, hout0, ?_, ?_, ?_⟩ <;> rw [hnull]
    · exact (Except.ok.inj hinput).symm
    · exact (Except.ok.inj houtput).symm
    · exact (Except.ok.inj htotal).symm

/-! ## The price of a run -/

/-- The run is registered with these prices. -/
def RunPrices (db : Db) (runID : String) (pricing : Option RunPricing) : Prop :=
  ∃ r ∈ db.runs, r.id = runID ∧ r.registration.target.pricing = pricing

theorem Commit.runPrices {t : Txn} {db db' : Db} {a : Answer} (h : Commit P t db a db')
    {pricing : Option RunPricing} (hprices : RunPrices db runID pricing) :
    RunPrices db' runID pricing := by
  obtain ⟨r, hr, hid, hpricing⟩ := hprices
  obtain ⟨r', hr', hsame⟩ := h.run_forth hr
  exact ⟨r', hr', hsame.id_eq.trans hid, by rw [hsame.registration_eq, hpricing]⟩

/-- Requests under way and stored rows go by the registered prices. -/
structure Billed (P : Platform) (w : World) : Prop where
  sound : Sound P w.db
  flights : ∀ request f, w.flights request = some f → RunPrices w.db f.call.runID f.pricing
  rows : ∀ row ∈ w.db.cases, ∃ pricing, RunPrices w.db row.runID pricing ∧ Priced pricing row

variable {w : World}

theorem billed_empty : Billed P World.empty :=
  ⟨sound_empty, fun _ _ h => (nomatch h), fun _ h => absurd h Table.not_mem_empty⟩

theorem Billed.commit (h : Billed P w) {t : Txn} {a : Answer} {db' : Db} (hcommit : Commit P t w.db a db')
    (hfinal : ∀ call pricing, t.op = .finalizeShard call pricing → RunPrices w.db call.runID pricing) :
    Billed P { w with db := db' } := by
  refine ⟨h.sound.commit hcommit, fun request f hf => hcommit.runPrices (h.flights request f hf), ?_⟩
  intro row hrow
  rcases hcommit.case_stored hrow with hold | ⟨call, pricing, item, hop, hvalid, hitem, hstored⟩
  · obtain ⟨pricing, hprices, hpriced⟩ := h.rows row hold
    exact ⟨pricing, hcommit.runPrices hprices, hpriced⟩
  · have hprices := hfinal call pricing hop
    obtain ⟨r, hr, hid, rfl⟩ := hprices
    refine ⟨r.registration.target.pricing, hcommit.runPrices ⟨r, hr, ?_, rfl⟩, ?_⟩
    · rw [hid, hstored.storedAs.rowOf.1.runID_eq]
    · exact hstored.priced (h.sound.runs r hr).pricing ((call_document hvalid).cases_accepted item hitem)

theorem Billed.leave (h : Billed P w) (request : Nat) : Billed P (w.leave request) :=
  ⟨h.sound, fun other f hf => h.flights other f (World.flights_of_leave hf), h.rows⟩

theorem Billed.proceed (h : Billed P w) {request : Nat} {f : Flight} (hf : RunPrices w.db f.call.runID f.pricing) :
    Billed P (w.proceed request f) := by
  refine ⟨h.sound, ?_, h.rows⟩
  intro other g hg
  rcases World.flights_of_proceed hg with rfl | hold
  · exact hf
  · exact h.flights other g hold

/-- A reservation hands out the prices of its run. -/
theorem runPrices_of_reserve {call : UploadCall} {now : Time} {reservation : ShardReservation} {db db' : Db}
    (h : call.reserve P now db = .ok (reservation, db')) : RunPrices db call.runID reservation.pricing := by
  obtain ⟨run, hrun, -, -, hreserved⟩ := reserveShard_ok (then_ok_iff.mp h).2
  obtain ⟨hmem, hid⟩ := Db.run?_eq_some.mp hrun
  rcases hreserved with ⟨_, -, rfl, -⟩ | ⟨_, -, -, rfl, -⟩
  · exact ⟨run, hmem, hid, rfl⟩
  · exact ⟨run, hmem, hid, rfl⟩

theorem Billed.step (h : Billed P w) (e : Event) : Billed P ((uploads P policy).step w e) := by
  rcases uploads_step (P := P) w e with heq | ⟨o, hprogress⟩
  · rw [heq]
    exact h
  · generalize (uploads P policy).step w e = w' at hprogress
    cases hprogress with
    | client t hop =>
      refine step_of_commit (Q := fun db => Billed P { w with db }) h fun hcommit =>
        h.commit hcommit fun call pricing hfinal => ?_
      rw [hfinal] at hop
      cases hop
    | refused => exact h
    | recognized _ _ _ _ _ _ hexec =>
      exact h.commit (commit_of_exec (step_reserve_ok policy hexec)) fun _ _ hop => (nomatch hop)
    | reserved _ _ _ _ db _ hexec =>
      have hcommit := commit_of_exec (step_reserve_ok policy hexec)
      have hdb : Billed P { w with db := db } := h.commit hcommit fun _ _ hop => (nomatch hop)
      exact hdb.proceed (hcommit.runPrices (runPrices_of_reserve hexec))
    | stored request f hflight =>
      have hwritten : Billed P (w.write P f.call) := ⟨h.sound, h.flights, h.rows⟩
      exact hwritten.proceed (h.flights request f hflight)
    | lost request f written =>
      cases written with
      | true =>
        have hwritten : Billed P (w.write P f.call) := ⟨h.sound, h.flights, h.rows⟩
        exact hwritten.leave request
      | false => exact h.leave request
    | failed request => exact h.leave request
    | finalized request f _ _ _ _ hflight _ hexec =>
      refine (h.commit (commit_of_exec (step_finalize_ok policy hexec)) ?_).leave request
      intro call pricing hop
      obtain ⟨rfl, rfl⟩ := Op.finalizeShard.inj hop
      exact h.flights request f hflight
    | crashed request => exact h.leave request

theorem billed_run (P : Platform) (policy : LimitPolicy) (es : List Event) :
    Billed P ((uploads P policy).run World.empty es) :=
  Transactional.run_invariant (fun _ => True) (Billed P) (fun _ _ _ h => h.step _) billed_empty es fun _ _ => trivial

/-! ## The summary -/

variable {rows : List CaseRow}

/-- Summaries are computed from the rows they stand over. -/
def SummariesComputed (db : Db) : Prop :=
  ∀ runID stored, db.summary? runID = some stored →
    ∃ passed, stored = ⟨runID, { aggregateRows (caseRowsOf db runID) with thresholdsPassed := passed }⟩

theorem summariesComputed_uploads (P : Platform) (policy : LimitPolicy) (es : List Event) :
    SummariesComputed ((uploads P policy).run World.empty es).db := by
  refine uploads_invariant (fun _ => True) SummariesComputed (fun _ _ => trivial) ?_ ?_ es fun _ _ => trivial
  · intro db t _ h runID stored hstored
    have hchange := tallyChange_of_step P policy runID db t
    generalize (machine P policy).step db t = db' at hchange hstored
    generalize finalizedUpload? P policy runID db t = final at hchange
    cases hchange with
    | same _ hreceipts hcases hsummary =>
      rw [hcases]
      exact h runID stored (hsummary.symm.trans hstored)
    | finalized _ _ _ passed _ _ _ _ _ _ _ _ hsummary =>
      exact ⟨passed, Option.some.inj (hstored.symm.trans hsummary)⟩
  · exact fun _ _ h => absurd (Table.mem_of_first? h).1 Table.not_mem_empty

/-- A sum over rows none of which is unknown. -/
theorem sumIfKnown_eq {α : Type} [Add α] [Zero α] {f : CaseRow → Option α} {g : CaseRow → α}
    (hne : rows ≠ []) (h : ∀ r ∈ rows, f r = some (g r)) :
    sumIfKnown f rows = some (rows.map g).sum := by
  have hall : rows.all (fun r => (f r).isSome) = true := by
    rw [List.all_eq_true]
    intro r hr
    rw [h r hr]
    rfl
  have hmap : rows.filterMap f = rows.map g := by
    rw [← List.filterMap_eq_map]
    exact List.filterMap_congr h
  rw [sumIfKnown, if_pos ⟨hne, hall⟩, hmap]
  rfl

theorem sumIfKnown_eq_none {α : Type} [Add α] [Zero α] {f : CaseRow → Option α}
    (h : rows = [] ∨ ∃ r ∈ rows, f r = none) : sumIfKnown f rows = none := by
  refine if_neg ?_
  rintro ⟨hne, hall⟩
  rcases h with hnil | ⟨r, hr, hnone⟩
  · exact hne hnil
  · have hsome := List.all_eq_true.mp hall r hr
    rw [hnone] at hsome
    cases hsome

theorem onGrid_sum {g : CaseRow → ℚ} (h : ∀ r ∈ rows, OnGrid (g r)) : OnGrid (rows.map g).sum := by
  induction rows with
  | nil => exact onGrid_zero
  | cons r rows ih =>
    rw [List.forall_mem_cons] at h
    rw [List.map_cons, List.sum_cons]
    exact h.1.add (ih h.2)

/-- Rounding errors add up. -/
theorem abs_sum_sub_le {g ideal : CaseRow → ℚ} {ε : ℚ} (h : ∀ r ∈ rows, |g r - ideal r| ≤ ε) :
    |(rows.map g).sum - (rows.map ideal).sum| ≤ rows.length * ε := by
  induction rows with
  | nil => simp
  | cons r rows ih =>
    rw [List.forall_mem_cons] at h
    simp only [List.map_cons, List.sum_cons, List.length_cons, Nat.cast_add, Nat.cast_one]
    have hsplit : g r + (rows.map g).sum - (ideal r + (rows.map ideal).sum) =
        (g r - ideal r) + ((rows.map g).sum - (rows.map ideal).sum) := by ring
    calc |g r + (rows.map g).sum - (ideal r + (rows.map ideal).sum)|
        ≤ |g r - ideal r| + |(rows.map g).sum - (rows.map ideal).sum| := by
          rw [hsplit]
          exact abs_add_le _ _
      _ ≤ ε + rows.length * ε := add_le_add h.1 (ih h.2)
      _ = (rows.length + 1) * ε := by ring

/-- Costs that are null or exact. -/
structure CostsExact (pricing : Option RunPricing) (rows : List CaseRow) (a : Aggregate) : Prop where
  together : a.inputCostUSD.isSome = a.costUSD.isSome ∧ a.outputCostUSD.isSome = a.costUSD.isSome
  known_iff : a.costUSD.isSome = true ↔ rows ≠ [] ∧ pricing.isSome = true ∧ ∀ r ∈ rows, r.usageComplete = true
  sums : a.costUSD.isSome = true → ∃ p input output total, pricing = some p ∧
    a.inputCostUSD.bind ratSetString = some input ∧ a.outputCostUSD.bind ratSetString = some output ∧
    a.costUSD.bind ratSetString = some total ∧ total = input + output ∧
    input = (rows.map fun r => inputUSD p r.inputTokens).sum ∧
    output = (rows.map fun r => outputUSD p r.outputTokens).sum ∧
    total = (rows.map fun r => inputUSD p r.inputTokens + outputUSD p r.outputTokens).sum ∧
    |input - (rows.map fun r => exactUSD p.inputUSDPerMillionTokens r.inputTokens).sum| ≤ rows.length * (5 / 10 ^ 13) ∧
    |output - (rows.map fun r => exactUSD p.outputUSDPerMillionTokens r.outputTokens).sum| ≤ rows.length * (5 / 10 ^ 13)

theorem costsExact_aggregateRows {pricing : Option RunPricing} (hpricing : PricingValid pricing)
    (hrows : ∀ r ∈ rows, Priced pricing r) (passed : Bool) :
    CostsExact pricing rows { aggregateRows rows with thresholdsPassed := passed } := by
  by_cases hknown : rows ≠ [] ∧ pricing.isSome = true ∧ ∀ r ∈ rows, r.usageComplete = true
  · obtain ⟨hne, hsome, hcomplete⟩ := hknown
    obtain ⟨p, rfl⟩ := Option.isSome_iff_exists.mp hsome
    have hinput : sumIfKnown (·.inputCostUSD) rows = some (rows.map fun r => inputUSD p r.inputTokens).sum :=
      sumIfKnown_eq hne fun r hr => by rw [(hrows r hr).input, hcomplete r hr]; rfl
    have houtput : sumIfKnown (·.outputCostUSD) rows = some (rows.map fun r => outputUSD p r.outputTokens).sum :=
      sumIfKnown_eq hne fun r hr => by rw [(hrows r hr).output, hcomplete r hr]; rfl
    have htotal : sumIfKnown (·.costUSD) rows =
        some (rows.map fun r => inputUSD p r.inputTokens + outputUSD p r.outputTokens).sum :=
      sumIfKnown_eq hne fun r hr => by rw [(hrows r hr).total, hcomplete r hr]; rfl
    have hgridIn := onGrid_sum fun r hr => inputUSD_onGrid hpricing (hrows r hr).inputTokens
    have hgridOut := onGrid_sum fun r hr => outputUSD_onGrid hpricing (hrows r hr).outputTokens
    have hgrid := onGrid_sum fun r hr => (inputUSD_onGrid hpricing (hrows r hr).inputTokens).add
      (outputUSD_onGrid hpricing (hrows r hr).outputTokens)
    have hread : ∀ {cost : Option ℚ} {q : ℚ}, cost = some q → OnGrid q →
        (cost.map floatString).bind ratSetString = some q := by
      rintro _ q rfl hq
      rw [Option.map_some, Option.bind_some, ratSetString_floatString, roundedUSD_of_grid hq]
    have hcolumns : (sumIfKnown (·.inputCostUSD) rows).isSome = true ∧ (sumIfKnown (·.outputCostUSD) rows).isSome = true ∧
        (sumIfKnown (·.costUSD) rows).isSome = true := by
      rw [hinput, houtput, htotal]
      exact ⟨rfl, rfl, rfl⟩
    refine ⟨?_, ?_, fun _ => ⟨p, _, _, _, rfl, hread hinput hgridIn, hread houtput hgridOut, hread htotal hgrid,
      List.sum_map_add, rfl, rfl, rfl, abs_sum_sub_le fun r hr => ?_, abs_sum_sub_le fun r hr => ?_⟩⟩
    · simp [aggregateRows, hcolumns]
    · simp only [aggregateRows, Option.isSome_map, hcolumns, true_iff]
      exact ⟨hne, rfl, hcomplete⟩
    · exact abs_roundedUSD_sub_le (exactUSD_nonneg (hpricing p rfl).1 (hrows r hr).inputTokens)
    · exact abs_roundedUSD_sub_le (exactUSD_nonneg (hpricing p rfl).2 (hrows r hr).outputTokens)
  · -- an empty run, a row without complete usage, or no prices at all: each of the sums is absent
    have habsent : ∀ f : CaseRow → Option ℚ, (∀ r ∈ rows, r.usageComplete = false ∨ pricing = none → f r = none) →
        sumIfKnown f rows = none := by
      intro f hf
      refine sumIfKnown_eq_none ?_
      by_contra hcontra
      push Not at hcontra
      refine hknown ⟨hcontra.1, ?_, fun r hr => ?_⟩
      · obtain ⟨r, hr⟩ := List.exists_mem_of_ne_nil rows hcontra.1
        by_contra hnone
        exact hcontra.2 r hr (hf r hr (Or.inr (by simpa using hnone)))
      · by_contra hincomplete
        exact hcontra.2 r hr (hf r hr (Or.inl (by simpa using hincomplete)))
    have hmissing : ∀ r : CaseRow, ∀ g : RunPricing → ℚ, r.usageComplete = false ∨ pricing = none →
        (if r.usageComplete then pricing.map g else none) = none := by
      rintro r g (hfalse | rfl)
      · rw [hfalse]
        rfl
      · split <;> rfl
    have hinput := habsent (·.inputCostUSD) fun r hr hno => (hrows r hr).input.trans (hmissing r _ hno)
    have houtput := habsent (·.outputCostUSD) fun r hr hno => (hrows r hr).output.trans (hmissing r _ hno)
    have htotal := habsent (·.costUSD) fun r hr hno => (hrows r hr).total.trans (hmissing r _ hno)
    refine ⟨?_, ?_, ?_⟩
    · simp [aggregateRows, hinput, houtput, htotal]
    · simp only [aggregateRows, htotal, Option.map_none, Option.isSome_none, Bool.false_eq_true, false_iff]
      exact hknown
    · simp [aggregateRows, htotal]

/-- **Run cost is null or exact**, however uploads interleave. -/
theorem run_cost (P : Platform) (policy : LimitPolicy) (es : List Event) (runID : String) (run : RunRow)
    (stored : SummaryRow) (hrun : ((uploads P policy).run World.empty es).db.run? runID = some run)
    (hstored : ((uploads P policy).run World.empty es).db.summary? runID = some stored) :
    CostsExact run.registration.target.pricing (caseRowsOf ((uploads P policy).run World.empty es).db runID)
      stored.aggregate := by
  have hbilled := billed_run P policy es
  obtain ⟨passed, rfl⟩ := summariesComputed_uploads P policy es runID stored hstored
  obtain ⟨hmem, hid⟩ := Db.run?_eq_some.mp hrun
  refine costsExact_aggregateRows (hbilled.sound.runs run hmem).pricing (fun r hr => ?_) passed
  obtain ⟨hrow, hown⟩ := Table.mem_select.mp hr
  obtain ⟨_, ⟨run', hmem', hid', rfl⟩, hpriced⟩ := hbilled.rows r hrow
  have hsame : run' = run :=
    Table.eq_of_conflict _ hmem' hmem (Or.inl ((hid'.trans (of_decide_eq_true hown)).trans hid.symm))
  exact hsame ▸ hpriced

/-- A registration whose target is priced. -/
def Registration.priced (inputPrice outputPrice : String) : Registration :=
  { Registration.reference "suite" "indexed" 1 with target := ⟨"fake", "", "", some ⟨inputPrice, outputPrice⟩⟩ }

/-- One priced shard. -/
def pricedUpload : List Event :=
  [.client (registerAt 0 "run" (.priced "0.0000004" "2")),
    .reserve 0 (.reference "run" 0 "" (.retried "run" "case")) 1,
    .put 0 .stored,
    .finalize 0 2 2]

/-- Eight input tokens at that price are less than four units of the grid: the cost is rounded. -/
theorem run_cost_priced :
    ∃ run stored, ((uploads (.reference []) .unlimited).run World.empty pricedUpload).db.run? "run" = some run ∧
      ((uploads (.reference []) .unlimited).run World.empty pricedUpload).db.summary? "run" = some stored ∧
      CostsExact run.registration.target.pricing
        (caseRowsOf ((uploads (.reference []) .unlimited).run World.empty pricedUpload).db "run") stored.aggregate ∧
      stored.aggregate.inputCostUSD = some "0.000000000003" ∧ stored.aggregate.outputCostUSD = some "0.000020000000" ∧
      stored.aggregate.costUSD = some "0.000020000003" := by
  have hrun : (((uploads (.reference []) .unlimited).run World.empty pricedUpload).db.run? "run").isSome = true := by
    decide +kernel
  have hcosts : (((uploads (.reference []) .unlimited).run World.empty pricedUpload).db.summary? "run").map
      (fun s => (s.aggregate.inputCostUSD, s.aggregate.outputCostUSD, s.aggregate.costUSD)) =
        some (some "0.000000000003", some "0.000020000000", some "0.000020000003") := by
    decide +kernel
  obtain ⟨run, hrun⟩ := Option.isSome_iff_exists.mp hrun
  obtain ⟨stored, hstored, heq⟩ := Option.map_eq_some_iff.mp hcosts
  obtain ⟨hinput, houtput, htotal⟩ : stored.aggregate.inputCostUSD = some "0.000000000003" ∧
    stored.aggregate.outputCostUSD = some "0.000020000000" ∧ stored.aggregate.costUSD = some "0.000020000003" := by
      simpa using heq
  exact ⟨run, stored, hrun, hstored, run_cost _ _ _ _ run stored hrun hstored, hinput, houtput, htotal⟩

end AgentStorm.Results
