import AgentStorm.Results.Stored
import AgentStorm.Results.Tally

/-!
# `Results.Migrations` — running the migrations again

`ApplyMigrations` runs every file of `internal/results/migrations` at each start of the API. On the
current schema two statements assign columns: `003` fills in the failure category of case rows that
have none, `004` computes the reliability columns of every summary again. The first changes a
successful case that was uploaded with a failure kind and no category (`restart_unchanged_iff`), the
second nothing. `updated_at` of a summary is not part of the model.
-/

namespace AgentStorm.Results

open Machine Relational

/-! ## `003_m4_reliability.sql` -/

/-- `CASE failure_kind …` -/
def categoryOfKind (failureKind : String) : String :=
  if failureKind = "assertion" then "evaluation"
  else if failureKind = "tool" then "tool"
  else if failureKind = "harness" then "harness"
  else if failureKind = "" then ""
  else "provider"

def CaseRow.categorize (c : CaseRow) : CaseRow := { c with failureCategory := categoryOfKind c.failureKind }

theorem keepsKeys_categorize : Table.KeepsKeys CaseRow.categorize := fun _ _ h => h

def m4Reliability (db : Db) : Db :=
  { db with cases := db.cases.update (fun c => decide (c.failureCategory = "")) CaseRow.categorize keepsKeys_categorize }

/-! ## `004_m4_reporting.sql` -/

/-- A row of `stats`, the aggregates of one run. -/
structure ReportingStats where
  total : Int
  qualityFailures : Int
  infrastructureFailures : Int
  attemptCount : Int
  retryCount : Int
  retriedCases : Int
  retrySuccesses : Int
  injectedFaults : Int
  circuitRejections : Int

def reportingStats (rows : List CaseRow) : ReportingStats where
  total := countRows (fun _ => true) rows
  qualityFailures := countRows (fun c => !c.success && decide (c.failureCategory = "evaluation")) rows
  infrastructureFailures := countRows (fun c => !c.success && infrastructureCategory c.failureCategory) rows
  attemptCount := sumRows (fun c => c.attempts.length) rows
  retryCount := sumRows (fun c => (c.attempts.length - 1 : Nat)) rows
  retriedCases := countRows (fun c => decide (1 < c.attempts.length)) rows
  retrySuccesses := countRows (fun c => c.success && decide (1 < c.attempts.length)) rows
  injectedFaults := sumRows (fun c => (c.attempts.countP fun a => decide (a.injectedFault ≠ "") : Nat)) rows
  circuitRejections := sumRows (fun c => (c.attempts.countP fun a => decide (a.errorCode = "circuit_open") : Nat)) rows

def Aggregate.report (stats : ReportingStats) (a : Aggregate) : Aggregate :=
  { a with
    qualityFailures := stats.qualityFailures
    qualityFailureRate := ratio stats.qualityFailures stats.total
    infrastructureFailures := stats.infrastructureFailures
    infrastructureFailureRate := ratio stats.infrastructureFailures stats.total
    attemptCount := stats.attemptCount
    retryCount := stats.retryCount
    retriedCases := stats.retriedCases
    retrySuccesses := stats.retrySuccesses
    retrySuccessRate := ratio stats.retrySuccesses stats.retriedCases
    injectedFaults := stats.injectedFaults
    circuitRejections := stats.circuitRejections }

def SummaryRow.report (db : Db) (s : SummaryRow) : SummaryRow :=
  { s with aggregate := s.aggregate.report (reportingStats (caseRowsOf db s.runID)) }

theorem keepsKeys_report (db : Db) : Table.KeepsKeys (SummaryRow.report db) := fun _ _ h => h

/-- A run without case rows has no row in `stats`, and its summary is passed over. The statement before, which replaces
    attempts that are no array, finds none: a row's attempts are a list. -/
def m4Reporting (db : Db) : Db :=
  { db with summaries :=
      db.summaries.update (fun s => !(caseRowsOf db s.runID).isEmpty) (SummaryRow.report db) (keepsKeys_report db) }

/-- The statements of all files that touch rows, in the order of the file names. -/
def applyMigrations (db : Db) : Db := m4Reporting (m4Reliability db)

/-! ## What changes -/

/-- The aggregate of `refreshAggregate` has the columns `004` computes. -/
theorem report_aggregateRows (rows : List CaseRow) (passed : Bool) :
    ({ aggregateRows rows with thresholdsPassed := passed } : Aggregate).report (reportingStats rows) =
      { aggregateRows rows with thresholdsPassed := passed } := rfl

/-- Categorizing successful cases changes no count. -/
theorem reportingStats_categorize {rows : List CaseRow} (h : ∀ c ∈ rows, c.failureCategory = "" → c.success = true) :
    reportingStats (rows.map fun c => if decide (c.failureCategory = "") then c.categorize else c) = reportingStats rows := by
  have hcount : ∀ p : CaseRow → Bool, (∀ c ∈ rows, c.failureCategory = "" → p c.categorize = p c) →
      countRows p (rows.map fun c => if decide (c.failureCategory = "") then c.categorize else c) = countRows p rows := by
    intro p hp
    rw [countRows, countRows, List.countP_map]
    refine congrArg Nat.cast (List.countP_congr fun c hc => ?_)
    rw [Function.comp_apply]
    split
    · rename_i hnone
      rw [hp c hc (of_decide_eq_true hnone)]
    · rfl
  have hsum : ∀ f : CaseRow → Int, (∀ c, f c.categorize = f c) →
      sumRows f (rows.map fun c => if decide (c.failureCategory = "") then c.categorize else c) = sumRows f rows := by
    intro f hf
    rw [sumRows, sumRows, List.map_map]
    refine congrArg List.sum (List.map_congr_left fun c _ => ?_)
    rw [Function.comp_apply]
    split
    · exact hf c
    · rfl
  -- a successful case is not counted by its category
  have hsuccess : ∀ q : CaseRow → Bool, ∀ c ∈ rows, c.failureCategory = "" →
      (!c.categorize.success && q c.categorize) = (!c.success && q c) := by
    intro q c hc hnone
    show (!c.success && q c.categorize) = (!c.success && q c)
    rw [h c hc hnone]
    rfl
  unfold reportingStats
  rw [hcount _ fun _ _ _ => rfl, hcount _ (hsuccess fun c => decide (c.failureCategory = "evaluation")),
    hcount _ (hsuccess fun c => infrastructureCategory c.failureCategory), hsum _ fun _ => rfl,
    hsum _ fun _ => rfl, hcount _ fun _ _ _ => rfl, hcount _ fun _ _ _ => rfl, hsum _ fun _ => rfl, hsum _ fun _ => rfl]

theorem categorize_eq_self_iff {c : CaseRow} (h : c.failureCategory = "") : c.categorize = c ↔ c.failureKind = "" := by
  have hfield : c.categorize = c ↔ categoryOfKind c.failureKind = c.failureCategory := by
    constructor
    · exact fun heq => congrArg CaseRow.failureCategory heq
    · intro heq
      rw [CaseRow.categorize, heq]
  rw [hfield, h]
  -- every kind stands for a category, the empty one for none
  by_cases hkind : c.failureKind = ""
  · rw [hkind]
    exact iff_of_true rfl rfl
  · refine iff_of_false ?_ hkind
    unfold categoryOfKind
    rw [if_neg hkind]
    split
    · decide
    · split
      · decide
      · split <;> decide

section Reachable

variable (P : Platform) (policy : LimitPolicy) (es : List Txn)

/-- The summaries of a reachable database are computed from its case rows, and again after `003`. -/
theorem summaries_applyMigrations :
    (applyMigrations ((machine P policy).run Db.empty es)).summaries = ((machine P policy).run Db.empty es).summaries := by
  have huploaded := uploaded_run P policy es
  have hledger := fun runID => ledger_run P policy runID es
  generalize (machine P policy).run Db.empty es = db at huploaded hledger ⊢
  refine (Table.update_eq_self_iff (keepsKeys_report _)).mpr fun s hs _ => ?_
  have hrows : caseRowsOf (m4Reliability db) s.runID =
      (caseRowsOf db s.runID).map fun c => if decide (c.failureCategory = "") then c.categorize else c :=
    Table.select_update_eq_map keepsKeys_categorize fun _ => rfl
  have hstats : reportingStats (caseRowsOf (m4Reliability db) s.runID) = reportingStats (caseRowsOf db s.runID) := by
    rw [hrows]
    refine reportingStats_categorize fun c hc hnone => ?_
    by_contra hfailed
    exact (huploaded c (Table.mem_select.mp hc).1).failureCategory (Bool.not_eq_true _ ▸ hfailed) hnone
  have hsummary : db.summary? s.runID = some s := Db.summary?_eq_some.mpr ⟨hs, rfl⟩
  rcases (hledger s.runID).summary with ⟨-, hnone, -⟩ | ⟨passed, hsome⟩
  · rw [hsummary] at hnone
    cases hnone
  · rw [hsummary] at hsome
    have hs' := Option.some.inj hsome
    rw [SummaryRow.report, hstats]
    have haggregate : s.aggregate = { aggregateRows (caseRowsOf db s.runID) with thresholdsPassed := passed } :=
      congrArg SummaryRow.aggregate hs'
    rw [haggregate, report_aggregateRows, ← haggregate]

/-- **What a restart changes.** In every reachable database, running the migrations again keeps the runs, receipts,
    queue, permits, rate events and the values of all summaries. It keeps the case rows, and with them the whole database,
    exactly if no case without a failure category has a failure kind. -/
theorem restart_unchanged_iff (P : Platform) (policy : LimitPolicy) (es : List Txn) :
    let db := (machine P policy).run Db.empty es
    ((applyMigrations db).runs = db.runs ∧ (applyMigrations db).receipts = db.receipts ∧
      (applyMigrations db).queue = db.queue ∧ (applyMigrations db).permits = db.permits ∧
      (applyMigrations db).rateEvents = db.rateEvents ∧ (applyMigrations db).summaries = db.summaries) ∧
    (applyMigrations db = db ↔ ∀ c ∈ db.cases, c.failureCategory = "" → c.failureKind = "") := by
  intro db
  have hsummaries : (applyMigrations db).summaries = db.summaries := summaries_applyMigrations P policy es
  refine ⟨⟨rfl, rfl, rfl, rfl, rfl, hsummaries⟩, ?_⟩
  have hcases : applyMigrations db = db ↔ (applyMigrations db).cases = db.cases := by
    constructor
    · exact fun h => congrArg Db.cases h
    · intro h
      show Db.mk db.runs db.receipts (applyMigrations db).cases (applyMigrations db).summaries db.queue db.permits
        db.rateEvents = db
      rw [h, hsummaries]
  rw [hcases]
  refine (Table.update_eq_self_iff keepsKeys_categorize).trans (forall₂_congr fun c _ => ?_)
  rw [decide_eq_true_eq]
  exact forall_congr' fun hnone => categorize_eq_self_iff hnone

end Reachable

/-- A successful case that carries the failure kind of an earlier attempt. -/
def recoveredUpload : ShardUpload :=
  { ShardUpload.single "run" "case" with cases := [{ CaseResult.reference "run" "case" with failureKind := "timeout" }] }

/-- A run whose only shard is uploaded. -/
def oneShard (upload : ShardUpload) : List Txn :=
  let call := UploadCall.reference "run" 0 "" upload
  [registerAt 0 "run" (.reference "suite" "indexed" 1), ⟨.reserveShard call, 1, 1⟩, ⟨.finalizeShard call none, 2, 2⟩]

/-- **A restart can change a stored case.** The upload is accepted and the run complete; after the migrations ran again
    the successful case has a failure category. -/
theorem restart_changes_recovered :
    let db := (machine (.reference []) .unlimited).run Db.empty (oneShard recoveredUpload)
    (db.run? "run").map (·.status) = some .complete ∧
      db.cases.rows.map (fun c => (c.success, c.failureKind, c.failureCategory)) = [(true, "timeout", "")] ∧
      (applyMigrations db).cases.rows.map (fun c => (c.success, c.failureKind, c.failureCategory)) =
        [(true, "timeout", "provider")] := by
  decide +kernel

end AgentStorm.Results
