import AgentStorm.Results.Retry

/-!
# `Results.Reclaim` — the upload of a shard that somebody else began

A lease that expires goes to the next worker, whatever the last one left behind. When does the new
holder's upload go through? Finalizing can fail in one way only, a value that does not fit its column.
Reserving is an obstacle: the pending receipt of an earlier holder carries the hash of that holder's
document, and no other document is taken in its place.
-/

namespace AgentStorm.Results

open Checks Machine Machine.Transactional Relational Text

variable {P : Platform} {policy : LimitPolicy}

/-! ## Finalizing fails on column ranges only -/

variable {runID : String}

/-- A value did not fit its column. -/
def ApiError.Range (err : ApiError) : Prop := ∃ column, err = .outOfRange column

theorem failsOnly_numericColumn {column : String} {cost : Option String}
    (h : ∀ s, cost = some s → ∃ q, s = floatString q) : FailsOnly ApiError.Range (numericColumn column cost) := by
  cases cost with
  | none => exact failsOnly_ok _
  | some s =>
    obtain ⟨q, rfl⟩ := h s rfl
    simp only [numericColumn, ratSetString_floatString]
    exact (failsOnly_ok _).bind fun _ _ => (failsOnly_reject fun _ => ⟨column, rfl⟩).bind fun _ _ => failsOnly_ok _

theorem priceCase_printed {pricing : Option RunPricing} (hpricing : PricingValid pricing) (item : CaseResult) :
    ∃ costs : Costs, costs.Printed ∧ priceCase pricing item =
      .ok { item with inputCostUSD := costs.input, outputCostUSD := costs.output, costUSD := costs.total } := by
  unfold priceCase caseCosts
  split
  · obtain ⟨costs, hcosts, hprinted⟩ := costsForTokens_ok hpricing item.inputTokens item.outputTokens
    exact ⟨costs, hprinted, by rw [hcosts]; rfl⟩
  · exact ⟨Costs.none, Costs.printed_none, rfl⟩

/-- The row of an accepted case passes every check of its table except, maybe, a range. -/
theorem failsOnly_caseRow {hash : String} {shardIndex : Nat} {item : CaseResult}
    (h : CaseAccepted runID item) {costs : Costs} (hcosts : costs.Printed) :
    FailsOnly ApiError.Range (caseRow runID shardIndex hash
      { item with inputCostUSD := costs.input, outputCostUSD := costs.output, costUSD := costs.total }) := by
  obtain ⟨latency, hlatency, hpos⟩ := h.latency
  unfold caseRow
  refine (failsOnly_reject fun _ => ⟨_, rfl⟩).bind fun _ _ => ?_
  dsimp only
  rw [hlatency]
  refine (failsOnly_ok _).bind fun latency' hlat => ?_
  refine (failsOnly_numericColumn fun s hs => hcosts s (Or.inl hs)).bind fun _ _ => ?_
  refine (failsOnly_numericColumn fun s hs => hcosts s (Or.inr (Or.inl hs))).bind fun _ _ => ?_
  refine (failsOnly_numericColumn fun s hs => hcosts s (Or.inr (Or.inr hs))).bind fun _ _ => ?_
  refine FailsOnly.bind (failsOnly_reject fun hbad => ?_) fun _ _ => failsOnly_ok _
  -- the `CHECK`s of the table are implied by what the service accepted
  obtain rfl : latency = latency' := Except.ok.inj hlat
  exfalso
  simp only [Bool.or_eq_true, decide_eq_true_eq, Option.any_eq_true] at hbad
  rcases hbad with (hiter | hlat | hin | hout | htool) | ⟨n, hn, hneg⟩
  · exact absurd h.iteration_nonneg (not_le.mpr hiter)
  · exact absurd hpos (not_le.mpr hlat)
  · exact absurd h.inputTokens_nonneg (not_le.mpr hin)
  · exact absurd h.outputTokens_nonneg (not_le.mpr hout)
  · exact absurd h.toolCalls_nonneg (not_le.mpr htool)
  · exact absurd (h.modelCalls_nonneg n hn) (not_le.mpr hneg)

/-- Stored cases whose keys are composed from what they name. -/
def CaseKeysSound (cases : Table CaseRow) : Prop :=
  ∀ row ∈ cases, runIDPattern row.runID = true ∧ row.idempotencyKey = caseKey row.runID row.caseID row.iteration

/-- The row of an unstored case clashes with nothing. -/
theorem insert_unstored (hpattern : runIDPattern runID = true) {cases : Table CaseRow}
    (hkeys : CaseKeysSound cases) {item : CaseResult} (hitem : CaseAccepted runID item)
    (hunstored : Unstored runID cases item) {row : CaseRow} (hrow : RowOf runID item row) :
    ∃ cases', cases.insert row = some cases' := by
  refine Table.insert_isSome ?_
  intro other hother hconflict
  rcases hconflict with ⟨hrun, hcase, hiter⟩ | hkey
  · exact hunstored other hother
      ⟨hrun.trans hrow.runID_eq, hcase.trans hrow.caseID_eq, hiter.trans hrow.iteration_eq⟩
  · obtain ⟨hother', hkey'⟩ := hkeys other hother
    have heq : caseKey other.runID other.caseID other.iteration = caseKey runID item.caseID item.iteration := by
      rw [← hkey', hkey, hrow.key_eq, hitem.key_eq]
    exact hunstored other hother (caseKey_inj hother' hpattern heq)

/-- Accepted cases, no two of them the same and none of them stored. -/
structure NewCases (runID : String) (cases : Table CaseRow) (items : List CaseResult) : Prop where
  accepted : ∀ item ∈ items, CaseAccepted runID item
  nodup : (items.map fun item => (item.caseID, item.iteration)).Nodup
  keys : CaseKeysSound cases
  unstored : ∀ item ∈ items, Unstored runID cases item

section NewCases

variable {runID : String} (hpattern : runIDPattern runID = true) {cases : Table CaseRow} {item : CaseResult}
  {items : List CaseResult} (h : NewCases runID cases (item :: items)) {pricing : Option RunPricing} {shardIndex : Nat}

include hpattern h in
/-- When the first case is stored, the others are still new. -/
theorem NewCases.insert {row : CaseRow} (hof : RowOf runID item row) {cases' : Table CaseRow}
    (hins : cases.insert row = some cases') : NewCases runID cases' items := by
  have hitem := h.accepted item List.mem_cons_self
  have hnodup := h.nodup
  rw [List.map_cons, List.nodup_cons] at hnodup
  refine ⟨fun other hother => h.accepted other (List.mem_cons_of_mem _ hother), hnodup.2, ?_, ?_⟩
  · intro other hother
    rcases (Table.mem_of_insert hins).mp hother with hold | rfl
    · exact h.keys other hold
    · rw [hof.runID_eq, hof.key_eq, hof.caseID_eq, hof.iteration_eq]
      exact ⟨hpattern, hitem.key_eq⟩
  · intro other hother row' hrow' hsame
    rcases (Table.mem_of_insert hins).mp hrow' with hold | rfl
    · exact h.unstored other (List.mem_cons_of_mem _ hother) row' hold hsame
    · refine hnodup.1 (List.mem_map.mpr ⟨other, hother, ?_⟩)
      rw [← hsame.2.1, ← hsame.2.2, hof.caseID_eq, hof.iteration_eq]

include h in
/-- One turn of the loop with a new case: its row is made and goes in. -/
theorem insertCase_new {cases' : Table CaseRow} :
    insertCase P runID shardIndex pricing item cases = .ok cases' ↔
      ∃ row, StoredUnder P pricing runID shardIndex item row ∧ cases.insert row = some cases' := by
  constructor
  · intro hok
    rcases insertCase_under hok with hnew | ⟨-, row, hrow, hof⟩
    · exact hnew
    · exact absurd ⟨hof.runID_eq, hof.caseID_eq, hof.iteration_eq⟩ (h.unstored item List.mem_cons_self row hrow)
  · rintro ⟨row, ⟨priced, hpriced, hrow⟩, hins⟩
    refine bind_ok_iff.mpr ⟨priced, hpriced, bind_ok_iff.mpr ⟨row, hrow, ?_⟩⟩
    rw [hins]
    rfl

include hpattern h in
theorem failsOnly_insertCase (hpricing : PricingValid pricing) :
    FailsOnly ApiError.Range (insertCase P runID shardIndex pricing item cases) := by
  have hitem := h.accepted item List.mem_cons_self
  obtain ⟨_, hcosts, hpriced⟩ := priceCase_printed hpricing item
  unfold insertCase
  rw [hpriced]
  refine (failsOnly_ok _).bind fun priced hpriced' => ?_
  cases hpriced'
  refine (failsOnly_caseRow hitem hcosts).bind fun row hrow => ?_
  obtain ⟨hof, -⟩ := caseRow_ok hrow
  obtain ⟨_, hins⟩ := insert_unstored hpattern h.keys hitem (h.unstored item List.mem_cons_self)
    ⟨hof.runID_eq, hof.caseID_eq, hof.iteration_eq, hof.key_eq⟩
  rw [hins]
  exact failsOnly_ok _

end NewCases

theorem failsOnly_insertCases (hpattern : runIDPattern runID = true) {pricing : Option RunPricing}
    (hpricing : PricingValid pricing) {shardIndex : Nat} {items : List CaseResult}
    {cases : Table CaseRow} (h : NewCases runID cases items) :
    FailsOnly ApiError.Range (insertCases P runID shardIndex pricing items cases) := by
  induction items generalizing cases with
  | nil => exact failsOnly_ok _
  | cons item items ih =>
    refine (failsOnly_insertCase hpattern h hpricing).bind fun cases' hcases' => ?_
    obtain ⟨_, hstored, hins⟩ := (insertCase_new h).mp hcases'
    exact ih (h.insert hpattern hstored.storedAs.rowOf.1 hins)

variable {db : Db}

theorem failsOnly_refreshAggregate {now wall : Time} {run : RunRow} (hrun : db.run? runID = some run) :
    FailsOnly ApiError.Range (refreshAggregate now wall runID db) := by
  unfold refreshAggregate
  refine FailsOnly.bind ?_ fun _ _ => ?_
  · unfold checkAggregate
    refine (failsOnly_reject fun _ => ⟨_, rfl⟩).bind fun _ _ => ?_
    refine (failsOnly_reject fun _ => ⟨_, rfl⟩).bind fun _ _ => ?_
    refine (failsOnly_reject fun _ => ⟨_, rfl⟩).bind fun _ _ => ?_
    refine (failsOnly_reject fun _ => ⟨_, rfl⟩).bind fun _ _ => ?_
    refine (failsOnly_reject fun _ => ⟨_, rfl⟩).bind fun _ _ => ?_
    refine (failsOnly_reject fun _ => ⟨_, rfl⟩).bind fun _ _ => ?_
    exact failsOnly_reject fun _ => ⟨_, rfl⟩
  · rw [hrun]
    exact (failsOnly_ok _).bind fun _ _ => failsOnly_ok _

theorem Sound.caseKeysSound (h : Sound P db) : CaseKeysSound db.cases := by
  intro row hrow
  have hcase := h.cases row hrow
  obtain ⟨s, hs, hrun, -⟩ := hcase.receipt
  obtain ⟨r, hr, hid, -⟩ := (h.receipts s hs).run
  refine ⟨?_, hcase.key⟩
  rw [← hrun, ← hid]
  exact (h.runs r hr).pattern

/-- **A reserved upload of new cases is finalized**, unless a value does not fit its column. -/
theorem failsOnly_finalize (hsound : Sound P db) {call : UploadCall} (hvalid : call.validate P = .ok ())
    {run : RunRow} (hrun : db.run? call.runID = some run) {now : Time}
    (hlease : run.leasing = true → LeaseOpen db now call.runID call.shardIndex.toNat (call.leaseHash P))
    {s : ReceiptRow} (hreceipt : db.receipt? call.runID call.shardIndex.toNat = some s)
    (hhash : s.payloadHash = call.payloadHash P) (hpending : s.status = .pending)
    {pricing : Option RunPricing} (hpricing : PricingValid pricing)
    (hunstored : ∀ item ∈ call.document.cases, Unstored call.runID db.cases item) (wall : Time) :
    FailsOnly ApiError.Range (call.finalize P now wall pricing db) := by
  have haccepted := call_document hvalid
  unfold UploadCall.finalize finalizeShard
  rw [hvalid, hrun, hreceipt]
  refine (failsOnly_ok _).bind fun _ _ => (failsOnly_ok _).bind fun run' hrun' => ?_
  cases hrun'
  rw [finalizeLease_ok_iff.mpr hlease]
  refine (failsOnly_ok _).bind fun _ _ => (failsOnly_ok _).bind fun s' hs' => ?_
  cases hs'
  refine (failsOnly_reject fun hbad => absurd hhash (of_decide_eq_true hbad)).bind fun _ _ => ?_
  rw [if_neg (by rw [hpending]; exact nofun)]
  refine FailsOnly.bind ?_ fun stored _ => FailsOnly.bind ?_ fun _ _ => failsOnly_ok _
  · exact failsOnly_insertCases haccepted.runID_pattern hpricing
      ⟨haccepted.cases_accepted, haccepted.cases_nodup, hsound.caseKeysSound, hunstored⟩
  · exact failsOnly_refreshAggregate hrun

/-! ## The call of a lease holder -/

section Holder

variable {docs : Set Registration} {db : Db} (hc : Coupled P docs db) {call : UploadCall}
  (hvalid : call.validate P = .ok ()) {run : RunRow} (hrun : db.run? call.runID = some run) {now : Time}
  (hlease : LeaseOpen db now call.runID call.shardIndex.toNat (call.leaseHash P))

include hc hlease in
/-- A shard under a live lease has no complete receipt. -/
theorem Coupled.pending_of_leaseOpen {s : ReceiptRow} (hs : s ∈ db.receipts) (hrunID : s.runID = call.runID)
    (hindex : s.shardIndex = call.shardIndex.toNat) : s.status = .pending := by
  obtain ⟨q, hq, hqrun, hqindex, hopen⟩ := hlease
  cases hstatus : s.status with
  | pending => rfl
  | complete =>
    have hdone : q.shardIndex ∈ db.doneShards q.runID :=
      ⟨s, hs, hrunID.trans hqrun.symm, hindex.trans hqindex.symm, hstatus⟩
    have hstate := (hc.rows q hq).complete_iff.mpr hdone
    rw [QueueRow.state_of_liveAt (QueueRow.liveAt_of_openedBy hopen)] at hstate
    cases hstate

include hc hvalid hrun hlease in
/-- The holder of a lease gets as far as the receipt. -/
theorem reserve_leased (htoken : call.leaseToken ≠ "") :
    call.reserve P now db = storeReceipt run (call.receipt P) db := by
  obtain ⟨hmem, hid⟩ := Db.run?_eq_some.mp hrun
  have hindex : call.shardIndex.toNat < run.expectedShards := by
    obtain ⟨q, hq, hqrun, hqindex, -⟩ := hlease
    obtain ⟨r, hr, hrid, -, hlt⟩ := (hc.rows q hq).run
    have heq : r = run := db.runs.eq_of_conflict hr hmem (Or.inl ((hrid.trans hqrun).trans hid.symm))
    rw [← heq, ← hqindex]
    exact hlt
  have hpassed : reserveLease now run call.runID call.shardIndex.toNat (call.leaseHash P) db = .ok () :=
    reserveLease_ok_iff.mpr fun _ => ⟨P.not_blank_tokenHash htoken, hlease⟩
  rw [reserve_eq hvalid hrun hindex, hpassed]
  rfl

/-- The receipt of the call is in the database, with the call's hash. -/
def Reserved (P : Platform) (db : Db) (call : UploadCall) : Prop :=
  ∃ s ∈ db.receipts, s.runID = call.runID ∧ s.shardIndex = call.shardIndex.toNat ∧ s.payloadHash = call.payloadHash P

include hc hvalid hrun hlease in
/-- The holder reserves if no other document was reserved before. -/
theorem reserve_of_same (htoken : call.leaseToken ≠ "")
    (hsame : ∀ s, db.receipt? call.runID call.shardIndex.toNat = some s → s.payloadHash = call.payloadHash P) :
    ∃ db', call.reserve P now db = .ok (⟨false, run.registration.target.pricing⟩, db') ∧ Reserved P db' call := by
  have hsound := hc.standing.sound
  rw [reserve_leased hc hvalid hrun hlease htoken]
  cases hreceipt : db.receipt? call.runID call.shardIndex.toNat with
  | none =>
    obtain ⟨_, hins, heq⟩ := storeReceipt_new hsound hvalid hreceipt
    exact ⟨_, heq, call.receipt P, (Table.mem_of_insert hins).mpr (Or.inr rfl), rfl, rfl, rfl⟩
  | some s =>
    obtain ⟨hs, hrunID, hindex⟩ := Db.receipt?_eq_some.mp hreceipt
    have hpending := hc.pending_of_leaseOpen hlease hs hrunID hindex
    refine ⟨db, ?_, s, hs, hrunID, hindex, hsame s hreceipt⟩
    rw [storeReceipt_found hsound hvalid hs hrunID hindex, if_pos (hsame s hreceipt), hpending]
    rfl

include hc hvalid hrun hlease in
theorem reserve_of_other (htoken : call.leaseToken ≠ "") {s : ReceiptRow}
    (hreceipt : db.receipt? call.runID call.shardIndex.toNat = some s) (hother : s.payloadHash ≠ call.payloadHash P) :
    call.reserve P now db = .error .conflict := by
  obtain ⟨hs, hrunID, hindex⟩ := Db.receipt?_eq_some.mp hreceipt
  rw [reserve_leased hc hvalid hrun hlease htoken, storeReceipt_found hc.standing.sound hvalid hs hrunID hindex,
    if_neg hother]

/-- No other shard has stored a case of the upload. -/
def OwnCases (db : Db) (call : UploadCall) : Prop :=
  ∀ row ∈ db.cases, row.runID = call.runID →
    (∃ item ∈ call.upload.cases, item.caseID = row.caseID ∧ item.iteration = row.iteration) →
    row.shardIndex = call.shardIndex.toNat

instance (db : Db) (call : UploadCall) : Decidable (OwnCases db call) :=
  inferInstanceAs (Decidable (∀ row ∈ db.cases.rows, _ → (∃ item ∈ call.upload.cases, _ ∧ _) → _))

include hc hlease in
/-- While the receipt is pending, no case of the upload is stored at all. -/
theorem unstored_of_ownCases (hown : OwnCases db call) :
    ∀ item ∈ call.document.cases, Unstored call.runID db.cases item := by
  rintro item hitem row hrow ⟨hrunID, hcase, hiter⟩
  obtain ⟨raw, hraw, rfl⟩ := List.mem_map.mp hitem
  rw [normalizeCase_caseID] at hcase
  rw [normalizeCase_iteration] at hiter
  have hshard := hown row hrow hrunID ⟨raw, hraw, hcase.symm, hiter.symm⟩
  obtain ⟨s', hs', hrun', hindex', hcomplete⟩ := (hc.standing.sound.cases row hrow).receipt
  have hpending := hc.pending_of_leaseOpen hlease hs' (hrun'.trans hrunID) (hindex'.trans hshard)
  rw [hcomplete] at hpending
  cases hpending

include hc hvalid hrun hlease in
/-- **The holder of a lease finalizes what it reserved**, unless a value does not fit its column. -/
theorem finalize_leased (hown : OwnCases db call) (hreserved : Reserved P db call) {pricing : Option RunPricing}
    (hpricing : PricingValid pricing) (wall : Time) :
    FailsOnly ApiError.Range (call.finalize P now wall pricing db) ∧
      ∀ created db', call.finalize P now wall pricing db = .ok (created, db') → created = true := by
  obtain ⟨s, hs, hrunID, hindex, hhash⟩ := hreserved
  have hpending := hc.pending_of_leaseOpen hlease hs hrunID hindex
  have hreceipt := Db.receipt?_eq_some.mpr ⟨hs, hrunID, hindex⟩
  constructor
  · exact failsOnly_finalize hc.standing.sound hvalid hrun (fun _ => hlease) hreceipt hhash hpending hpricing
      (unstored_of_ownCases hc hlease hown) wall
  · intro created db' hok
    obtain ⟨-, hfinalize⟩ := then_ok_iff.mp hok
    obtain ⟨_, s', -, hs', -, -, hcases⟩ := finalizeShard_ok hfinalize
    cases hreceipt.symm.trans hs'
    rcases hcases with ⟨hcomplete, -⟩ | ⟨-, hcreated, -⟩
    · rw [hpending] at hcomplete
      cases hcomplete
    · exact hcreated

end Holder

/-! ## The whole call -/

/-- A request reserves and stores; other events happen in between and afterwards. -/
def uploadSteps (request : Nat) (call : UploadCall) (now : Time) (between after : List Event) : List Event :=
  .reserve request call now :: (between ++ .put request .stored :: after)

section Steps

variable {w : World} {request : Nat} {between after : List Event}
  (hbetween : ∀ e ∈ between, e.request? ≠ some request) (hafter : ∀ e ∈ after, e.request? ≠ some request)

include hbetween hafter in
/-- A request that was reserved is ready to finalize once its object is written. -/
theorem flight_stored {f : Flight} (hflight : w.flights request = some f) (hstored : f.stored = false) :
    ((uploads P policy).run w (between ++ .put request .stored :: after)).flights request =
      some { f with stored := true } := by
  have hkept : ((uploads P policy).run w between).flights request = some f :=
    (uploads_run_flights_of_ne hbetween w).trans hflight
  rw [run_append, run_cons, uploads_run_flights_of_ne hafter,
    step_ok (exec_put hkept hstored .stored)]
  exact Function.update_self _ _ _

include hbetween hafter in
/-- A request that was refused takes no further step. -/
theorem flight_absent (hflight : w.flights request = none) :
    ((uploads P policy).run w (between ++ .put request .stored :: after)).flights request = none := by
  have hkept : ((uploads P policy).run w between).flights request = none :=
    (uploads_run_flights_of_ne hbetween w).trans hflight
  rw [run_append, run_cons, uploads_run_flights_of_ne hafter,
    step_error (exec_put_stray hkept .stored)]
  exact hkept

end Steps

/-- The answer of a call that was finalized. -/
theorem created_ok {c : UploadCall} {pricing : Option RunPricing} (hpricing : PricingValid pricing) :
    ∃ r, c.created pricing = .ok r ∧ r.created = true := by
  unfold UploadCall.created
  split
  · obtain ⟨costs, hcosts, -⟩ := costsForTokens_ok hpricing c.document.summary.inputTokens
      c.document.summary.outputTokens
    exact ⟨⟨true, costs.input, costs.output⟩, by rw [hcosts]; rfl, rfl⟩
  · exact ⟨⟨true, none, none⟩, rfl, rfl⟩

/-- A live lease is a lease of a run. -/
theorem Coupled.run_of_leaseOpen {docs : Set Registration} (hc : Coupled P docs db) {now : Time}
    {leaseHash : String} {i : Nat} (hlease : LeaseOpen db now runID i leaseHash) :
    ∃ run, db.run? runID = some run := by
  obtain ⟨q, hq, hqrun, -⟩ := hlease
  obtain ⟨r, hr, hid, -⟩ := (hc.rows q hq).run
  exact ⟨r, Db.run?_eq_some.mpr ⟨hr, hid.trans hqrun⟩⟩

/-- **Reclaimed shards.** A worker holds the live lease of a shard, which only a queued run that still collects has,
    and uploads under it; its object is stored and the lease is live at the end. Whatever happened before and
    whatever others do meanwhile, the upload creates the shard exactly when no earlier upload has reserved it for
    another document. -/
theorem reclaimed_upload (P : Platform) (policy : LimitPolicy) (past between after : List Event) (request : Nat)
    (call : UploadCall) (token : SchedulerToken) (now later wall : Time) (w₀ w : World)
    (hw₀ : w₀ = (uploads P policy).run World.empty past)
    (hw : w = (uploads P policy).run w₀ (uploadSteps request call now between after))
    (hinj : Set.InjOn P.registrationHash (registered (past ++ uploadSteps request call now between after)))
    (hfree : w₀.flights request = none)
    (hbetween : ∀ e ∈ between, e.request? ≠ some request) (hafter : ∀ e ∈ after, e.request? ≠ some request)
    (hvalid : validateShard P call.runID call.shardIndex call.idempotencyKey call.upload = .ok ())
    (htoken : call.leaseToken = token.text)
    (hlease : LeaseOpen w₀.db now call.runID call.shardIndex.toNat (P.tokenHash token.text))
    (hlive : LeaseOpen w.db later call.runID call.shardIndex.toNat (P.tokenHash token.text))
    (hown : OwnCases w.db call)
    (hrange : ∀ column, (uploads P policy).answer w (.finalize request later wall) ≠
      .ok (.returned (.error (.outOfRange column)))) :
    (∃ r, (uploads P policy).answer w (.finalize request later wall) = .ok (.returned (.ok r)) ∧ r.created = true) ↔
      ∀ s, w₀.db.receipt? call.runID call.shardIndex.toNat = some s → s.payloadHash = call.payloadHash P := by
  have htoken' : call.leaseToken ≠ "" := htoken ▸ token.text_ne_empty
  rw [← htoken] at hlease hlive
  have hc₀ : Coupled P (registered past) w₀.db := by
    rw [hw₀]
    exact coupled_uploads (hinj.mono (registered_append_left _ _))
  have hc : Coupled P (registered (past ++ uploadSteps request call now between after)) w.db := by
    rw [hw, hw₀, ← run_append]
    exact coupled_uploads hinj
  obtain ⟨run, hrun⟩ := hc₀.run_of_leaseOpen hlease
  rw [uploadSteps, run_cons] at hw
  constructor
  · rintro ⟨r, hreturned, -⟩ s hs
    by_contra hother
    -- the reservation is refused, and the request never becomes more than that
    have hrefused : (uploads P policy).step w₀ (.reserve request call now) = w₀ := by
      rw [step_reserve hfree, World.reserve, reserve_of_other hc₀ hvalid hrun hlease htoken' hs hother]
    rw [hrefused] at hw
    have hgone : w.flights request = none := hw ▸ flight_absent hbetween hafter hfree
    rw [answer_error (exec_finalize_stray hgone later wall)] at hreturned
    cases hreturned
  · intro hsame
    obtain ⟨db', hreserve, s, hs, hrunID, hindex, hhash⟩ := reserve_of_same hc₀ hvalid hrun hlease htoken' hsame
    have hstep : (uploads P policy).step w₀ (.reserve request call now) =
        { w₀ with db := db' }.proceed request ⟨call, run.registration.target.pricing, false⟩ := by
      rw [step_reserve hfree, World.reserve, hreserve]
      rfl
    rw [hstep] at hw
    generalize hw₁ : { w₀ with db := db' }.proceed request ⟨call, run.registration.target.pricing, false⟩ = w₁ at hw
    have hbegun : w₁.flights request = some ⟨call, run.registration.target.pricing, false⟩ := by
      rw [← hw₁]
      exact Function.update_self _ _ _
    have hs₁ : s ∈ w₁.db.receipts := by
      rw [← hw₁]
      exact hs
    have hflight : w.flights request = some ⟨call, run.registration.target.pricing, true⟩ :=
      hw ▸ flight_stored hbetween hafter hbegun rfl
    have hreserved : Reserved P w.db call := by
      rw [hw]
      obtain ⟨s', hs', hkept⟩ := uploads_receipt_forth hs₁ (between ++ .put request .stored :: after)
      exact ⟨s', hs', hkept.runID_eq.trans hrunID, hkept.index_eq.trans hindex, hkept.hash_eq.trans hhash⟩
    have hpricing := (hc₀.standing.sound.runs run (Db.run?_eq_some.mp hrun).1).pricing
    obtain ⟨_, hrun'⟩ := hc.run_of_leaseOpen hlive
    obtain ⟨hfails, hnew⟩ := finalize_leased hc hvalid hrun' hlive hown hreserved hpricing wall
    cases hfinalize : call.finalize P later wall run.registration.target.pricing w.db with
    | error err =>
      obtain ⟨column, rfl⟩ := hfails err hfinalize
      have hexec : (uploads P policy).exec (.finalize request later wall) w =
          .ok (.returned (.error (.outOfRange column)), w.leave request) := by
        rw [exec_finalize hflight rfl, World.finalize, hfinalize]
      exact absurd (answer_ok hexec) (hrange column)
    | ok result =>
      obtain ⟨created, db''⟩ := result
      obtain rfl := hnew created db'' hfinalize
      obtain ⟨r, hr, hcreated⟩ := created_ok (c := call) hpricing
      have hexec : (uploads P policy).exec (.finalize request later wall) w =
          .ok (.returned (.ok r), { w with db := db'' }.leave request) := by
        rw [exec_finalize hflight rfl, World.finalize, hfinalize]
        simp [hr]
      exact ⟨r, answer_ok hexec, hcreated⟩

/-- A worker reserves the only shard of a run and disappears; when its lease has run out, another one claims the
    shard. -/
def abandoned (upload : ShardUpload) : List Event :=
  [.client (registerAt 0 "run" (.reference "suite" "keda" 1)),
    .client ⟨.claimShard "run" "worker" firstToken, 1, 1⟩,
    .reserve 0 (.reference "run" 0 firstToken.text upload) 2,
    .crash 0,
    .client ⟨.claimShard "run" "successor" .ofB, 60000000, 60000000⟩]

/-- The successor's upload. -/
def successorCall (upload : ShardUpload) : UploadCall :=
  .reference "run" 0 SchedulerToken.ofB.text upload

/-- The run collects and its receipt is pending; the successor holds the lease, uploads a valid document of its own and
    is refused. -/
theorem reclaimed_upload_conflict :
    let M := uploads (.reference [.reference 1, .reference 2]) .unlimited
    let w := M.run World.empty (abandoned (.reference 1))
    (∀ r ∈ w.db.runs.rows, r.status = .collecting) ∧ (∀ s ∈ w.db.receipts.rows, s.status = .pending) ∧
    LeaseOpen w.db 60000001 "run" 0
      ((Platform.reference [.reference 1, .reference 2]).tokenHash (SchedulerToken.reference 'b' rfl).text) ∧
    validateShard (.reference [.reference 1, .reference 2]) "run" 0 (shardKey "run" 0) (.reference 2) = .ok () ∧
    M.answer w (.reserve 1 (successorCall (.reference 2)) 60000001) = .ok (.returned (.error .conflict)) := by
  decide +kernel

/-- With the document of the worker before it, the successor creates the shard. -/
theorem reclaimed_upload_same_document :
    ∃ r, (uploads (.reference [.reference 1]) .unlimited).answer
        ((uploads (.reference [.reference 1]) .unlimited).run
          ((uploads (.reference [.reference 1]) .unlimited).run World.empty (abandoned (.reference 1)))
          (uploadSteps 1 (successorCall (.reference 1)) 60000001 [] []))
        (.finalize 1 60000002 60000002) = .ok (.returned (.ok r)) ∧ r.created = true := by
  have hcreated : (uploads (.reference [.reference 1]) .unlimited).answer
      ((uploads (.reference [.reference 1]) .unlimited).run
        ((uploads (.reference [.reference 1]) .unlimited).run World.empty (abandoned (.reference 1)))
        (uploadSteps 1 (successorCall (.reference 1)) 60000001 [] []))
      (.finalize 1 60000002 60000002) = .ok (.returned (.ok ⟨true, none, none⟩)) := by decide +kernel
  have hreceipts : ∀ s ∈ ((uploads (.reference [.reference 1]) .unlimited).run World.empty
      (abandoned (.reference 1))).db.receipts.rows,
      s.payloadHash = (successorCall (.reference 1)).payloadHash (.reference [.reference 1]) := by decide +kernel
  refine (reclaimed_upload (.reference [.reference 1]) .unlimited (abandoned (.reference 1)) [] [] 1
    (successorCall (.reference 1)) (.reference 'b' rfl) 60000001 60000002 60000002 _ _ rfl rfl
    (injOn_of_forall_mem (by decide +kernel)) (by decide +kernel) (fun _ h => (nomatch h)) (fun _ h => (nomatch h))
    (by decide +kernel) rfl (by decide +kernel) (by decide +kernel) (by decide +kernel) ?_).mpr ?_
  · intro column hrange
    rw [hcreated] at hrange
    cases hrange
  · exact fun s hs => hreceipts s (Db.receipt?_eq_some.mp hs).1

end AgentStorm.Results
