import AgentStorm.Results.Pricing
import AgentStorm.Results.Schema

/-!
# `Results.Aggregate` — the run summary computed from case rows

The aggregate query of `refreshAggregate` in `internal/results/postgres.go`, one function per column group. Rates,
latencies and percentiles are exact rationals. `checkAggregate` is the place where a sum may not fit the column or
the Go variable it is read into.
-/

namespace AgentStorm.Results

open Checks Numeric

/-- `count(*) FILTER (WHERE p)` over the rows of a run. -/
def countRows (p : CaseRow → Bool) (rows : List CaseRow) : Int := (rows.countP p : Nat)

/-- `COALESCE(sum(f), 0)` over the rows of a run. -/
def sumRows (f : CaseRow → Int) (rows : List CaseRow) : Int := (rows.map f).sum

/-- `CASE WHEN count(*) > 0 AND count(f) = count(*) THEN sum(f) END`: absent as soon as one row's value is. -/
def sumIfKnown {α : Type} [Add α] [Zero α] (f : CaseRow → Option α) (rows : List CaseRow) : Option α :=
  if rows ≠ [] ∧ rows.all fun r => (f r).isSome then some ((rows.filterMap f).foldr (· + ·) 0) else none

/-- `percentile_cont(p) WITHIN GROUP (ORDER BY …)`: linear interpolation between neighbours, 0 without rows. -/
def percentileCont (p : ℚ) (values : List ℚ) : ℚ :=
  let sorted := values.insertionSort (· ≤ ·)
  let position : ℚ := p * ((sorted.length : ℚ) - 1)
  let lower := sorted.getD position.floor.toNat 0
  let upper := sorted.getD position.ceil.toNat 0
  lower + (position - position.floor) * (upper - lower)

/-- `float64(part) / float64(total)`, 0 when there is nothing to divide by. -/
def ratio (part total : Int) : ℚ := if 0 < total then (part : ℚ) / (total : ℚ) else 0

/-- `sum(f) FILTER (WHERE success) / count(*) FILTER (WHERE success)`, absent without successes. -/
def perSuccess (sum : Option Int) (succeeded : Int) : Option ℚ :=
  if 0 < succeeded then sum.map fun s => (s : ℚ) / (succeeded : ℚ) else none

def infrastructureCategory (category : String) : Bool := category ∈ ["provider", "tool", "harness"]

/-- The aggregate of a run's case rows; thresholds are judged afterwards. -/
def aggregateRows (rows : List CaseRow) : Aggregate :=
  let total := countRows (fun _ => true) rows
  let succeeded := countRows (·.success) rows
  let failed := countRows (!·.success) rows
  let qualityFailures := countRows (fun r => !r.success && decide (r.failureCategory = "evaluation")) rows
  let infrastructureFailures := countRows (fun r => !r.success && infrastructureCategory r.failureCategory) rows
  let retriedCases := countRows (fun r => decide (1 < r.attempts.length)) rows
  let retrySuccesses := countRows (fun r => r.success && decide (1 < r.attempts.length)) rows
  let successes := rows.filter (·.success)
  let latencies := rows.map (·.latencyMS)
  { total := total
    succeeded := succeeded
    failed := failed
    successRate := ratio succeeded total
    failureRate := ratio failed total
    qualityFailures := qualityFailures
    qualityFailureRate := ratio qualityFailures total
    infrastructureFailures := infrastructureFailures
    infrastructureFailureRate := ratio infrastructureFailures total
    attemptCount := sumRows (fun r => r.attempts.length) rows
    retryCount := sumRows (fun r => (r.attempts.length - 1 : Nat)) rows
    retriedCases := retriedCases
    retrySuccesses := retrySuccesses
    retrySuccessRate := ratio retrySuccesses retriedCases
    injectedFaults := sumRows (fun r => (r.attempts.countP fun a => decide (a.injectedFault ≠ "") : Nat)) rows
    circuitRejections := sumRows (fun r => (r.attempts.countP fun a => decide (a.errorCode = "circuit_open") : Nat)) rows
    p50MS := percentileCont (50 / 100) latencies
    p95MS := percentileCont (95 / 100) latencies
    p99MS := percentileCont (99 / 100) latencies
    inputTokens := sumRows (·.inputTokens) rows
    outputTokens := sumRows (·.outputTokens) rows
    modelCallCount := sumIfKnown (·.modelCallCount) rows
    toolCallCount := sumRows (·.toolCallCount) rows
    modelCallsPerSuccessfulAgent := perSuccess (sumIfKnown (·.modelCallCount) successes) succeeded
    toolCallsPerSuccessfulAgent := perSuccess (some (sumRows (·.toolCallCount) successes)) succeeded
    inputCostUSD := (sumIfKnown (·.inputCostUSD) rows).map floatString
    outputCostUSD := (sumIfKnown (·.outputCostUSD) rows).map floatString
    costUSD := (sumIfKnown (·.costUSD) rows).map floatString
    thresholdsPassed := false
    usageComplete := rows.all (·.usageComplete) }

def thresholdsPassed (aggregate : Aggregate) (evaluation : Evaluation) : Bool :=
  !(evaluation.minSuccessRate.any fun rate => rate.gt aggregate.successRate) &&
  !(evaluation.maxFailureRate.any fun rate => rate.lt aggregate.failureRate) &&
  !(evaluation.maxP95MS.any fun limit => limit.lt aggregate.p95MS)

/-- The values a `numeric(30, 12)` column can hold. -/
def fitsNumeric (q : ℚ) : Bool := decide (|q| < 10 ^ 18)

/-- The sums that may overflow: token and call counts are read into `int64`, costs stored as `numeric(30, 12)`. -/
def checkAggregate (rows : List CaseRow) : Except ApiError Unit := do
  let a := aggregateRows rows
  reject (decide (maxInt64 < a.inputTokens)) (.outOfRange "input_tokens")
  reject (decide (maxInt64 < a.outputTokens)) (.outOfRange "output_tokens")
  reject (a.modelCallCount.any fun n => decide (maxInt64 < n)) (.outOfRange "model_call_count")
  reject (decide (maxInt64 < a.toolCallCount)) (.outOfRange "tool_call_count")
  reject ((sumIfKnown (·.inputCostUSD) rows).any fun q => !fitsNumeric q) (.outOfRange "input_cost_usd")
  reject ((sumIfKnown (·.outputCostUSD) rows).any fun q => !fitsNumeric q) (.outOfRange "output_cost_usd")
  reject ((sumIfKnown (·.costUSD) rows).any fun q => !fitsNumeric q) (.outOfRange "cost_usd")

end AgentStorm.Results
