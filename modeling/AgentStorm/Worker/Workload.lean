import AgentStorm.Foundation.Pool
import AgentStorm.Worker.Dataset

/-!
# `Worker.Workload` — the shards of a dataset and the pool that runs them

`WorkloadRunner.execute` on the cases that `load_dataset` read. Before anything runs, the evaluators of
all cases are prepared (`EvaluatorRegistry`), which raises for an assertion that only looks well
formed. A shard then takes every case whose position is its index modulo the number of shards, in every
iteration, and runs this list with a pool of tasks (`Foundation.Pool`).
-/

namespace AgentStorm.Worker

open Checks Machine Python

/-! ## The evaluators -/

/-- What `_prepare` asks of the libraries it uses. -/
structure EvaluatorLibraries where
  /-- `re.compile` takes the pattern. -/
  compiles : Python.Text → Bool
  /-- `Draft202012Validator.check_schema` takes the schema. -/
  checksSchema : Value → Bool
  /-- `importlib.import_module`, and which attributes of the module can be called. -/
  importModule : Python.Text → Option (Python.Text → Bool)

inductive EvaluatorError
  | regex (pattern : Python.Text)
  | schema (schema : Value)
  /-- Whatever importing the module raises. -/
  | importing (moduleName : Python.Text)
  /-- `ValueError("python assertion entrypoint … is not callable")` -/
  | notCallable (entrypoint : Python.Text)

namespace EvaluatorLibraries

variable (L : EvaluatorLibraries)

/-- `EvaluatorRegistry._prepare` -/
def prepare : AssertionSpec → Except EvaluatorError Unit
  | .regex pattern => reject (!L.compiles pattern) (.regex pattern)
  | .jsonSchema schema => reject (!L.checksSchema schema) (.schema schema)
  | .python entrypoint _ => do
      let colon : CodePoint := 58
      let moduleName := entrypoint.takeWhile (· ≠ colon)
      let callable ← orElse (L.importModule moduleName) (.importing moduleName)
      reject (!callable (entrypoint.drop (moduleName.length + 1))) (.notCallable entrypoint)
  | _ => .ok ()

/-- `EvaluatorRegistry(cases)` -/
def registry (cases : List DatasetCase) : Except EvaluatorError Unit :=
  cases.forM fun case => case.effectiveAssertions.forM L.prepare

end EvaluatorLibraries

/-! ## Ids of a dataset -/

section Ids

variable {R : DatasetReader} {number : Nat} {seen : List Python.Text} {cases : List DatasetCase}

theorem readCase_new {raw : JSONObject} {case : DatasetCase} (h : R.readCase number seen raw = .ok case) :
    case.caseID ∉ seen := by
  obtain ⟨_, -, h⟩ := bind_ok_iff.mp h
  obtain ⟨hnew, h⟩ := then_ok_iff.mp h
  obtain ⟨_, -, h⟩ := bind_ok_iff.mp h
  cases h
  exact of_decide_eq_false (reject_eq_ok.mp hnew)

theorem loadLines_ok {lines : List (List Char)} (h : R.loadLines number seen lines = .ok cases) :
    (cases.map (·.caseID)).Nodup ∧ ∀ case ∈ cases, case.caseID ∉ seen := by
  induction lines generalizing number seen cases with
  | nil =>
    cases h
    exact ⟨List.nodup_nil, fun _ hcase => absurd hcase List.not_mem_nil⟩
  | cons line lines ih =>
    unfold DatasetReader.loadLines at h
    split at h
    · exact ih h
    · obtain ⟨_, -, h⟩ := bind_ok_iff.mp h
      obtain ⟨_, -, h⟩ := bind_ok_iff.mp h
      obtain ⟨_, hfirst, h⟩ := bind_ok_iff.mp h
      obtain ⟨_, hrest, h⟩ := bind_ok_iff.mp h
      cases h
      obtain ⟨hnodup, hseen⟩ := ih hrest
      constructor
      · rw [List.map_cons, List.nodup_cons]
        refine ⟨fun hmem => ?_, hnodup⟩
        obtain ⟨case, hcase, hid⟩ := List.mem_map.mp hmem
        exact hseen case hcase (hid ▸ List.mem_cons_self)
      · intro case hcase
        rcases List.mem_cons.mp hcase with rfl | hcase
        · exact readCase_new hfirst
        · exact fun hmem => hseen case hcase (List.mem_cons_of_mem _ hmem)

/-- The cases of a dataset have distinct ids. -/
theorem nodup_of_loadDataset {file : List Char} (h : R.loadDataset file = .ok cases) :
    (cases.map (·.caseID)).Nodup := by
  obtain ⟨_, hloaded, h⟩ := bind_ok_iff.mp h
  obtain ⟨-, h⟩ := then_ok_iff.mp h
  cases h
  exact (loadLines_ok hloaded).1

end Ids

/-! ## Shards -/

/-- The workload section of the configuration, after its check. -/
structure WorkloadConfig where
  concurrency : Nat
  iterations : Nat
  concurrency_pos : 1 ≤ concurrency
  iterations_pos : 1 ≤ iterations

/-- The cases of a shard. -/
def selected {α : Type} (cases : List α) (shardIndex shardCount : Nat) : List α :=
  (cases.zipIdx.filter fun entry => decide (entry.2 % shardCount = shardIndex)).map Prod.fst

/-- The work list of a shard. -/
def work (cases : List DatasetCase) (iterations shardIndex shardCount : Nat) : List (DatasetCase × Nat) :=
  (List.range iterations).flatMap fun iteration =>
    (selected cases shardIndex shardCount).map fun case => (case, iteration)

variable {ι : Type}

/-- Every id in every iteration. -/
def pairsOf (ids : List ι) (iterations : Nat) : List (ι × Nat) :=
  (List.range iterations).flatMap fun iteration => ids.map fun id => (id, iteration)

def pairOf (item : DatasetCase × Nat) : Python.Text × Nat := (item.1.caseID, item.2)

theorem map_work (cases : List DatasetCase) (iterations shardIndex shardCount : Nat) :
    (work cases iterations shardIndex shardCount).map pairOf =
      pairsOf ((selected cases shardIndex shardCount).map (·.caseID)) iterations := by
  simp only [work, pairsOf, List.map_flatMap, List.map_map]
  rfl

theorem nodup_pairsOf {ids : List ι} (h : ids.Nodup) (iterations : Nat) : (pairsOf ids iterations).Nodup := by
  unfold pairsOf
  rw [List.nodup_flatMap]
  refine ⟨fun iteration _ => h.map fun a b heq => (Prod.mk.inj heq).1, ?_⟩
  refine (List.nodup_range (n := iterations)).imp fun {i j} hne => ?_
  intro p hi hj
  obtain ⟨a, -, rfl⟩ := List.mem_map.mp hi
  obtain ⟨b, -, heq⟩ := List.mem_map.mp hj
  exact hne (Prod.mk.inj heq).2.symm

theorem pairsOf_append (a b : List ι) (iterations : Nat) :
    (pairsOf (a ++ b) iterations).Perm (pairsOf a iterations ++ pairsOf b iterations) := by
  unfold pairsOf
  simp only [List.map_append]
  exact (List.flatMap_append_perm _ _ _).symm

theorem pairsOf_flatMap (shards : List Nat) (ids : Nat → List ι) (iterations : Nat) :
    (shards.flatMap fun i => pairsOf (ids i) iterations).Perm (pairsOf (shards.flatMap ids) iterations) := by
  induction shards with
  | nil => simp [pairsOf]
  | cons i shards ih =>
    rw [List.flatMap_cons, List.flatMap_cons]
    exact (List.Perm.append_left _ ih).trans (pairsOf_append _ _ _).symm

theorem flatMap_range_single {α : Type} (a : α) {k n : Nat} (h : k < n) :
    ((List.range n).flatMap fun i => if k = i then [a] else []) = [a] := by
  induction n with
  | zero => exact absurd h (Nat.not_lt_zero k)
  | succ n ih =>
    rw [List.range_succ, List.flatMap_append, List.flatMap_singleton]
    rcases Nat.lt_succ_iff_lt_or_eq.mp h with hlt | rfl
    · rw [ih hlt, if_neg (Nat.ne_of_lt hlt), List.append_nil]
    · have hnone : ((List.range k).flatMap fun i => if k = i then [a] else []) = [] :=
        List.flatMap_eq_nil_iff.mpr fun i hi => if_neg (Nat.ne_of_gt (List.mem_range.mp hi))
      rw [hnone, if_pos rfl, List.nil_append]

variable {shardCount : Nat}

/-- The shards of a dataset are a partition of it. -/
theorem perm_selected {α : Type} (cases : List α) (hcount : 1 ≤ shardCount) :
    ((List.range shardCount).flatMap fun i => selected cases i shardCount).Perm cases := by
  have hsplit : ∀ entries : List (α × Nat), ((List.range shardCount).flatMap fun i =>
      (entries.filter fun entry => decide (entry.2 % shardCount = i)).map Prod.fst).Perm (entries.map Prod.fst) := by
    intro entries
    induction entries with
    | nil => simp
    | cons entry entries ih =>
      have hcons : ∀ i, ((entry :: entries).filter fun entry => decide (entry.2 % shardCount = i)).map Prod.fst =
          (if entry.2 % shardCount = i then [entry.1] else []) ++
            (entries.filter fun entry => decide (entry.2 % shardCount = i)).map Prod.fst := by
        intro i
        by_cases hi : entry.2 % shardCount = i
        · simp [hi]
        · simp [hi]
      simp only [hcons]
      refine (List.flatMap_append_perm _ _ _).symm.trans ?_
      rw [flatMap_range_single entry.1 (Nat.mod_lt _ hcount), List.singleton_append, List.map_cons]
      exact List.Perm.cons _ ih
  have hcases := hsplit cases.zipIdx
  rwa [List.zipIdx_map_fst] at hcases

/-- A shard has no cases exactly if its index is past the end of the dataset. -/
theorem selected_eq_nil_iff {α : Type} {cases : List α} {i : Nat} (hi : i < shardCount) :
    selected cases i shardCount = [] ↔ cases.length ≤ i := by
  rw [selected, List.map_eq_nil_iff, List.filter_eq_nil_iff]
  constructor
  · intro hnone
    by_contra hlt
    have hmem : (cases[i], i) ∈ cases.zipIdx := List.mk_mem_zipIdx_iff_getElem?.mpr (List.getElem?_eq_getElem _)
    exact hnone _ hmem (decide_eq_true (Nat.mod_eq_of_lt hi))
  · intro hlength entry hentry hindex
    have hlt : entry.2 < cases.length :=
      (List.getElem?_eq_some_iff.mp (List.mk_mem_zipIdx_iff_getElem?.mp hentry)).1
    rw [decide_eq_true_eq, Nat.mod_eq_of_lt (by omega)] at hindex
    omega

theorem work_eq_nil_iff {cases : List DatasetCase} {iterations i : Nat} (hiterations : 1 ≤ iterations)
    (hi : i < shardCount) : work cases iterations i shardCount = [] ↔ cases.length ≤ i := by
  rw [← selected_eq_nil_iff hi, work, List.flatMap_eq_nil_iff]
  constructor
  · exact fun h => List.map_eq_nil_iff.mp (h 0 (List.mem_range.mpr hiterations))
  · intro h iteration _
    rw [h, List.map_nil]

theorem nodup_selected {cases : List DatasetCase} (h : (cases.map (·.caseID)).Nodup) (i shardCount : Nat) :
    ((selected cases i shardCount).map (·.caseID)).Nodup := by
  have hsub : (selected cases i shardCount).Sublist cases := by
    have hfilter := (List.filter_sublist (l := cases.zipIdx) (p := fun entry => decide (entry.2 % shardCount = i))).map Prod.fst
    rwa [List.zipIdx_map_fst] at hfilter
  exact h.sublist (hsub.map _)

/-! ## The pool of a shard -/

/-- The result of a case of the dataset. -/
abbrev DatasetResult := CaseResultOf Python.Text

def CaseResultOf.pair (result : CaseResultOf ι) : ι × Nat := (result.caseID, result.iteration)

section Cases

variable {text : ι → Python.Text} {draw : String → ℚ} {reliability : Option ReliabilityConfig} {caseID : ι}
  {iteration : Nat}

theorem pair_executeCase {world : CaseWorld} {result : CaseResultOf ι}
    (h : executeCase text draw reliability caseID iteration world = some result) :
    result.pair = (caseID, iteration) := by
  rcases executeCase_cases h with ⟨_, -, rfl⟩ | ⟨_, _, _, -, -, rfl⟩
  · rfl
  · unfold concludeCase
    split
    · rfl
    · split <;> rfl

/-- Some course of the outside gives a case its result: one that loses its permit is not tried again. -/
theorem exists_executeCase :
    ∃ world, (executeCase text draw reliability caseID iteration world).isSome = true := by
  refine ⟨⟨0, .closed, [⟨1, .limited .permitLost [], 0, 0⟩], 0, .closed, none, 0⟩, ?_⟩
  unfold executeCase
  split
  · rfl
  · rename_i permit _
    have hend : attemptEnd draw reliability (text caseID) iteration 1 ⟨1, .limited .permitLost [], 0, 0⟩ =
        ([], .error LimiterFailure.permitLost.error) := if_neg (not_le.mpr one_pos)
    obtain ⟨_, hattempted⟩ := @attemptLoop_of_not_provider draw reliability (text caseID) iteration 1 permit 0
      _ _ _ hend (by decide) []
    rw [executePermittedCase, hattempted]
    rfl

end Cases

/-- What the workers of a run have in common. -/
structure RunConfig where
  draw : String → ℚ
  reliability : Option ReliabilityConfig
  workload : WorkloadConfig
  libraries : EvaluatorLibraries

/-- The worker of one shard. -/
structure Shard where
  config : RunConfig
  index : Nat
  count : Nat

namespace Shard

variable (shard : Shard) (cases : List DatasetCase)

def work : List (DatasetCase × Nat) := Worker.work cases shard.config.workload.iterations shard.index shard.count

def perform (item : DatasetCase × Nat) (world : CaseWorld) : Option DatasetResult :=
  executeCase id shard.config.draw shard.config.reliability item.1.caseID item.2 world

def tasks : Nat := min shard.config.workload.concurrency (shard.work cases).length

/-- The pool after some events at its await points. -/
def pool (es : List (Pool.Event CaseWorld)) : Pool.State DatasetResult :=
  (Pool.machine (shard.work cases) shard.perform).run (Pool.start (shard.tasks cases)) es

/-- `execute` up to some events: the pool, or what preparing the evaluators raised before there was one. -/
def execute (es : List (Pool.Event CaseWorld)) : Except EvaluatorError (Pool.State DatasetResult) := do
  shard.config.libraries.registry cases
  return shard.pool cases es

end Shard

/-- What `execute` returns: the results once every task is over, unless the evaluators or a task raised and nobody asked
    to stop. -/
def returned : Except EvaluatorError (Pool.State DatasetResult) → Option (List DatasetResult)
  | .error _ => none
  | .ok s =>
    if (∀ t ∈ s.tasks, t.finished = true) ∧ (s.stopped = true ∨ ∀ t ∈ s.tasks, t ≠ .failed) then
      some (s.results.map Prod.snd)
    else none

section Execute

variable {shard : Shard} {cases : List DatasetCase} {es : List (Pool.Event CaseWorld)}

theorem accounted_pool (shard : Shard) (cases : List DatasetCase) (es : List (Pool.Event CaseWorld)) :
    Pool.Accounted (shard.work cases) shard.perform (shard.tasks cases) (shard.pool cases es) :=
  Pool.accounted_run _ _ _ es

theorem settled_pool (hes : ∀ e ∈ es, e.undisturbed = true) :
    Pool.Settled (shard.work cases).length (shard.pool cases es) :=
  Pool.settled_run _ _ _ es hes

theorem tasks_pos (shard : Shard) (cases : List DatasetCase) (hwork : shard.work cases ≠ []) : 0 < shard.tasks cases :=
  lt_min shard.config.workload.concurrency_pos (List.length_pos_iff.mpr hwork)

theorem pair_perform {item : DatasetCase × Nat} {world : CaseWorld} {result : DatasetResult}
    (h : shard.perform item world = some result) : result.pair = pairOf item :=
  pair_executeCase h

theorem execute_of_prepared (h : shard.config.libraries.registry cases = .ok ()) (es : List (Pool.Event CaseWorld)) :
    shard.execute cases es = .ok (shard.pool cases es) := by
  rw [Shard.execute, h]
  rfl

/-- A shard that returns has prepared its evaluators, and returns what its pool has. -/
theorem eq_of_returned {results : List DatasetResult} (h : returned (shard.execute cases es) = some results) :
    shard.config.libraries.registry cases = .ok () ∧ results = (shard.pool cases es).results.map Prod.snd := by
  cases hprepared : shard.config.libraries.registry cases with
  | error =>
    rw [Shard.execute, hprepared] at h
    cases h
  | ok =>
    rw [execute_of_prepared hprepared, returned] at h
    split at h
    · exact ⟨rfl, (Option.some.inj h).symm⟩
    · cases h

/-- A shard that is left alone until it is over returns its work list. -/
theorem returned_of_undisturbed (hprepared : shard.config.libraries.registry cases = .ok ())
    (hes : ∀ e ∈ es, e.undisturbed = true) (hfinished : ∀ t ∈ (shard.pool cases es).tasks, t.finished = true) :
    ∃ results, returned (shard.execute cases es) = some results ∧
      (results.map CaseResultOf.pair).Perm ((shard.work cases).map pairOf) := by
  have hsettled := @settled_pool shard cases es hes
  rw [execute_of_prepared hprepared]
  refine ⟨_, if_pos ⟨hfinished, Or.inr fun t ht => (hsettled.tasks t ht).1⟩, ?_⟩
  rw [List.map_map]
  exact hsettled.exactly_once (accounted_pool shard cases es) (tasks_pos shard cases) hfinished
    fun _ _ _ hperform => pair_perform hperform

/-- Whatever happens, a shard returns nothing twice and nothing it did not take. -/
theorem returned_at_most_once (hcases : (cases.map (·.caseID)).Nodup) {results : List DatasetResult}
    (h : returned (shard.execute cases es) = some results) :
    (results.map CaseResultOf.pair).Nodup ∧
    ∀ result ∈ results, result.pair ∈ ((shard.work cases).take (shard.pool cases es).next).map pairOf := by
  have hwork : ((shard.work cases).map pairOf).Nodup := by
    rw [Shard.work, map_work]
    exact nodup_pairsOf (nodup_selected hcases _ _) _
  obtain ⟨hnodup, htaken⟩ := (accounted_pool shard cases es).at_most_once (fun _ _ _ => pair_perform) hwork
  obtain ⟨-, rfl⟩ := eq_of_returned h
  refine ⟨?_, fun result hresult => ?_⟩
  · rw [List.map_map]
    exact hnodup
  · obtain ⟨r, hr, rfl⟩ := List.mem_map.mp hresult
    exact htaken r hr

/-- A shard that was left alone, or told to stop, can go on to the end and return. -/
theorem exists_returned (hprepared : shard.config.libraries.registry cases = .ok ())
    (h : (shard.pool cases es).stopped = true ∨ ∀ e ∈ es, e.undisturbed = true) :
    ∃ later, (∀ e ∈ later, e.undisturbed = true) ∧ (returned (shard.execute cases (es ++ later))).isSome = true := by
  have hperform : ∀ item ∈ shard.work cases, ∃ world, (shard.perform item world).isSome = true :=
    fun item _ => exists_executeCase
  obtain ⟨later, hlater, hfinished⟩ := Pool.exists_finished hperform _ (accounted_pool shard cases es)
  have hrun : shard.pool cases (es ++ later) =
      (Pool.machine (shard.work cases) shard.perform).run (shard.pool cases es) later :=
    Transactional.run_append _ es later
  have hcalm : (shard.pool cases (es ++ later)).stopped = true ∨
      ∀ t ∈ (shard.pool cases (es ++ later)).tasks, t ≠ .failed := by
    rcases h with hstopped | hes
    · rw [hrun]
      exact .inl (Pool.stopped_run later hstopped)
    · have hall : ∀ e ∈ es ++ later, e.undisturbed = true := fun e he =>
        (List.mem_append.mp he).elim (hes e) (hlater e)
      exact .inr fun t ht => ((settled_pool hall).tasks t ht).1
  rw [← hrun] at hfinished
  refine ⟨later, hlater, ?_⟩
  rw [execute_of_prepared hprepared, returned, if_pos ⟨hfinished, hcalm⟩, Option.isSome_some]

end Execute

/-! ## All shards of a run -/

/-- The worker of one shard; the shards of a run differ in their index only. -/
def RunConfig.shard (config : RunConfig) (count index : Nat) : Shard := ⟨config, index, count⟩

/-- The work lists of all shards are every case in every iteration. -/
theorem perm_works (config : RunConfig) (cases : List DatasetCase) {count : Nat} (hcount : 1 ≤ count) :
    ((List.range count).flatMap fun i => ((config.shard count i).work cases).map pairOf).Perm
      (pairsOf (cases.map (·.caseID)) config.workload.iterations) := by
  simp only [Shard.work, RunConfig.shard, map_work]
  refine (pairsOf_flatMap _ _ _).trans ?_
  have hids : ((List.range count).flatMap fun i => (selected cases i count).map (·.caseID)).Perm
      (cases.map (·.caseID)) := by
    rw [← List.map_flatMap]
    exact (perm_selected cases hcount).map _
  unfold pairsOf
  exact List.Perm.flatMap_left _ fun iteration _ => hids.map _

/-- **Sharded execution is exactly once, once the evaluators are prepared.** If preparing them raises, every shard raises
    the same before it runs anything. Otherwise the shards of a run, left alone until they are over, return together every
    case of the dataset in every iteration exactly once, no two of them the same pair. Under any events a shard returns no
    pair twice and only pairs of its work list that it took. And a shard that was left alone or told to stop can always go
    on to the end. -/
theorem sharded_execution (R : DatasetReader) {file : List Char} {cases : List DatasetCase}
    (hload : R.loadDataset file = .ok cases) (config : RunConfig) {count : Nat} (hcount : 1 ≤ count) :
    (∀ error, config.libraries.registry cases = .error error →
      ∀ i < count, ∀ es, (config.shard count i).execute cases es = .error error) ∧
    (config.libraries.registry cases = .ok () →
      (∀ es : Nat → List (Pool.Event CaseWorld),
        (∀ i < count, (∀ e ∈ es i, e.undisturbed = true) ∧
          ∀ t ∈ ((config.shard count i).pool cases (es i)).tasks, t.finished = true) →
        ∃ results : Nat → List DatasetResult,
          (∀ i < count, returned ((config.shard count i).execute cases (es i)) = some (results i)) ∧
          (((List.range count).flatMap results).map CaseResultOf.pair).Perm
            (pairsOf (cases.map (·.caseID)) config.workload.iterations) ∧
          (((List.range count).flatMap results).map CaseResultOf.pair).Nodup ∧
          ∀ i < count, ∀ j < count, i ≠ j →
            ((results i).map CaseResultOf.pair).Disjoint ((results j).map CaseResultOf.pair)) ∧
      (∀ i < count, ∀ (es : List (Pool.Event CaseWorld)) (results : List DatasetResult),
        returned ((config.shard count i).execute cases es) = some results →
        (results.map CaseResultOf.pair).Nodup ∧
        ∀ result ∈ results, result.pair ∈
          (((config.shard count i).work cases).take ((config.shard count i).pool cases es).next).map pairOf) ∧
      ∀ i < count, ∀ es : List (Pool.Event CaseWorld),
        ((config.shard count i).pool cases es).stopped = true ∨ (∀ e ∈ es, e.undisturbed = true) →
        ∃ later, (∀ e ∈ later, e.undisturbed = true) ∧
          (returned ((config.shard count i).execute cases (es ++ later))).isSome = true) := by
  have hcases := nodup_of_loadDataset hload
  refine ⟨fun error herror i _ es => ?_, fun hprepared => ⟨fun es hes => ?_,
    fun i _ es results h => returned_at_most_once hcases h, fun i _ es h => exists_returned hprepared h⟩⟩
  · show (config.libraries.registry cases >>= _) = _
    rw [herror]
    rfl
  -- choose the returned list of every shard
  have hreturned : ∀ i, ∃ results, i < count →
      returned ((config.shard count i).execute cases (es i)) = some results ∧
      (results.map CaseResultOf.pair).Perm (((config.shard count i).work cases).map pairOf) := by
    intro i
    by_cases hi : i < count
    · obtain ⟨results, hresults⟩ :=
        @returned_of_undisturbed (config.shard count i) cases (es i) hprepared (hes i hi).1 (hes i hi).2
      exact ⟨results, fun _ => hresults⟩
    · exact ⟨[], fun h => absurd h hi⟩
  choose results hresults using hreturned
  have hall : (((List.range count).flatMap results).map CaseResultOf.pair).Perm
      (pairsOf (cases.map (·.caseID)) config.workload.iterations) := by
    rw [List.map_flatMap]
    exact (List.Perm.flatMap_left _ fun i hi => (hresults i (List.mem_range.mp hi)).2).trans (perm_works config cases hcount)
  -- the pairs of the whole workload are distinct, and so are those of its permutation
  have hnodup : (((List.range count).flatMap results).map CaseResultOf.pair).Nodup :=
    hall.nodup_iff.mpr (nodup_pairsOf hcases _)
  refine ⟨results, fun i hi => (hresults i hi).1, hall, hnodup, fun i hi j hj hne => ?_⟩
  rw [List.map_flatMap, List.nodup_flatMap] at hnodup
  have : Std.Symm (Function.onFun List.Disjoint fun i => (results i).map CaseResultOf.pair) := ⟨fun _ _ h => h.symm⟩
  exact hnodup.2.forall (List.mem_range.mpr hi) (List.mem_range.mpr hj) hne

/-- Patterns compile unless they are a lone parenthesis; every schema and every import is refused. -/
def EvaluatorLibraries.plain : EvaluatorLibraries := ⟨fun pattern => decide (pattern ≠ text "("), fun _ => false, fun _ => none⟩

/-- Two tasks, two iterations. -/
def RunConfig.plain : RunConfig := ⟨fun _ => 0, none, ⟨2, 2, Nat.le_succ 1, Nat.le_succ 1⟩, .plain⟩

/-- Two tasks share the lines of a shard; the second to take an item is the first to finish. -/
def twoTasks : List (Pool.Event CaseWorld) :=
  let world : CaseWorld := ⟨0, .closed, [⟨1, .overran [], fiveMillis, 1⟩], 0, .closed, none, fiveMillis⟩
  let turn (task : Nat) : List (Pool.Event CaseWorld) := [.finish task world, .enter task, .take task]
  [.enter 0, .enter 1, .take 0, .take 1] ++ turn 1 ++ turn 1 ++ turn 0 ++ turn 0 ++ turn 1 ++ turn 1

def threeCases : List (String × String) := [("alpha", "a"), ("beta", "b"), ("gamma", "c")]

theorem sharded_execution_two_shards :
    ∃ results : Nat → List DatasetResult,
      (∀ i < 2, returned ((RunConfig.plain.shard 2 i).execute (threeCases.map fun case => plainCase case.1 case.2)
        twoTasks) = some (results i)) ∧
      (((List.range 2).flatMap results).map CaseResultOf.pair).Perm
        (pairsOf [text "alpha", text "beta", text "gamma"] 2) := by
  have hload : DatasetReader.plain.loadDataset (datasetFile threeCases) =
      .ok (threeCases.map fun case => plainCase case.1 case.2) := by
    refine (loadDataset_iff_unbroken (readsCases_standard _ _ _ _ _) (List.cons_ne_nil _ _) (by decide)
      (by decide +kernel)).mpr ?_
    intro case hcase
    simp only [List.mem_cons, List.not_mem_nil, or_false] at hcase
    rcases hcase with rfl | rfl | rfl <;> exact ⟨forall_of_any rfl, forall_of_any rfl⟩
  have hexecution := (sharded_execution DatasetReader.plain hload .plain (by decide : 1 ≤ 2)).2 rfl
  obtain ⟨results, hreturned, hperm, -⟩ := hexecution.1 (fun _ => twoTasks) (by decide +kernel)
  exact ⟨results, hreturned, hperm⟩

/-- A case whose pattern has an unclosed parenthesis. -/
def openPattern : Json.Value :=
  .object [("id", .string "a"), ("input", .string "hello"),
    ("assertions", .array [.object [("type", .string "regex"), ("pattern", .string "(")]])]

/-- **A dataset can be accepted and never run**: the pattern is only compiled by `execute`, and every shard raises. -/
theorem sharded_execution_raises :
    let case : DatasetCase := ⟨text "a", text "hello", none, [.regex (text "(")], []⟩
    DatasetReader.plain.loadDataset (joinLines [Json.encode false openPattern]) = .ok [case] ∧
      ∀ i < 2, ∀ es, returned ((RunConfig.plain.shard 2 i).execute [case] es) = none := by
  have hwhole : ∀ line ∈ [Json.encode false openPattern], WholeLine line := by
    intro line hline
    obtain rfl := List.mem_singleton.mp hline
    exact ⟨List.cons_ne_nil _ _, forall_of_any rfl⟩
  have hvalid : openPattern.Valid := by
    unfold Json.Value.Valid
    decide
  refine ⟨?_, fun i _ es => rfl⟩
  rw [DatasetReader.loadDataset, lines_joinLines hwhole, DatasetReader.loadLines, DatasetReader.parseLine,
    DatasetReader.plain, loads_encode hvalid]
  rfl

end AgentStorm.Worker
