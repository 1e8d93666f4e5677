import AgentStorm.Results.Changes

/-!
# `Results.Stored` — where a case row comes from

Every case row of a reachable database is the row of a case in an upload that passed validation: its columns are those
of the normalized case, with the latency and the costs converted (`StoredAs`).
-/

namespace AgentStorm.Results

open Checks Machine Relational

variable {P : Platform} {policy : LimitPolicy}

/-- The columns that are copied from the case. -/
structure SameColumns (item : CaseResult) (row : CaseRow) : Prop where
  caseID_eq : row.caseID = item.caseID
  iteration_eq : row.iteration = item.iteration
  success_eq : row.success = item.success
  failureKind_eq : row.failureKind = item.failureKind
  failureCategory_eq : row.failureCategory = item.failureCategory
  output_eq : row.output = item.output

variable {row : CaseRow}

theorem StoredAs.sameColumns {runID : String} {shardIndex : Nat} {item : CaseResult}
    (h : StoredAs P runID shardIndex item row) : SameColumns item row := by
  obtain ⟨_, _, hpriced, hrow⟩ := h
  obtain ⟨_, rfl⟩ := priceCase_ok hpriced
  obtain ⟨-, _, _, _, _, -, -, -, -, rfl⟩ := caseRow_eq hrow
  exact ⟨rfl, rfl, rfl, rfl, rfl, rfl⟩

theorem mem_insertCases {runID : String} {shardIndex : Nat} {pricing : Option RunPricing}
    {items : List CaseResult} {cases stored : Table CaseRow}
    (h : insertCases P runID shardIndex pricing items cases = .ok stored) (hrow : row ∈ stored) :
    row ∈ cases ∨ ∃ item ∈ items, StoredUnder P pricing runID shardIndex item row := by
  induction items generalizing cases with
  | nil =>
    cases h
    exact .inl hrow
  | cons item items ih =>
    obtain ⟨_, hmid, hrest⟩ := bind_ok_iff.mp h
    rcases ih hrest with hold | ⟨other, hother, hstored⟩
    · rcases insertCase_under hmid with ⟨_, hstored, hins⟩ | ⟨rfl, -⟩
      · rcases (Table.mem_of_insert hins).mp hold with hold | rfl
        · exact .inl hold
        · exact .inr ⟨item, List.mem_cons_self, hstored⟩
      · exact .inl hold
    · exact .inr ⟨other, List.mem_cons_of_mem _ hother, hstored⟩

/-- The row of a case in an upload that passed validation. -/
def Uploaded (P : Platform) (row : CaseRow) : Prop :=
  ∃ (call : UploadCall) (item : CaseResult), call.validate P = .ok () ∧ item ∈ call.document.cases ∧
    StoredAs P call.runID call.shardIndex.toNat item row

/-- A row is from before, or that of a case under the prices it was finalized with. -/
theorem Commit.case_stored {t : Txn} {db db' : Db} {a : Answer} (h : Commit P t db a db')
    (hrow : row ∈ db'.cases) :
    row ∈ db.cases ∨ ∃ call pricing item, t.op = .finalizeShard call pricing ∧ call.validate P = .ok () ∧
      item ∈ call.document.cases ∧ StoredUnder P pricing call.runID call.shardIndex.toNat item row := by
  cases h with
  | registerNew | registerAgain =>
    rw [enqueueRunShards_cases] at hrow
    exact .inl hrow
  | finalize call pricing _ _ _ _ hop hvalid _ _ _ _ _ hstored hrefresh =>
    obtain ⟨_, _, -, rfl⟩ := refreshAggregate_ok hrefresh
    rcases mem_insertCases hstored hrow with hold | ⟨item, hitem, hstored⟩
    · exact .inl hold
    · exact .inr ⟨call, pricing, item, hop, hvalid, hitem, hstored⟩
  | terminate | terminateAgain | reclaim | claim | renew | reserveNew | reserveAgain | finalizeAgain | permit =>
    exact .inl hrow

theorem Commit.uploaded {t : Txn} {db db' : Db} {a : Answer} (h : Commit P t db a db')
    (hdb : ∀ row ∈ db.cases, Uploaded P row) : ∀ row ∈ db'.cases, Uploaded P row := by
  intro row hrow
  rcases h.case_stored hrow with hold | ⟨call, _, item, -, hvalid, hitem, hstored⟩
  · exact hdb row hold
  · exact ⟨call, item, hvalid, hitem, hstored.storedAs⟩

/-- **Every stored case was uploaded.** -/
theorem uploaded_run (P : Platform) (policy : LimitPolicy) (es : List Txn) :
    ∀ row ∈ ((machine P policy).run Db.empty es).cases, Uploaded P row := by
  refine Transactional.run_invariant (fun _ => True) (fun db : Db => ∀ row ∈ db.cases, Uploaded P row) ?_ ?_ es
    fun _ _ => trivial
  · intro db t _ hdb
    exact step_of_commit (Q := fun db => ∀ row ∈ db.cases, Uploaded P row) hdb fun hcommit => hcommit.uploaded hdb
  · exact fun _ hrow => absurd hrow Table.not_mem_empty

/-- A failed case has a category, if not its own then the one its failure kind stands for. -/
theorem failureCategory_normalizeCase {item : CaseResult} (h : (normalizeCase item).success = false) :
    (normalizeCase item).failureCategory ≠ "" := by
  unfold normalizeCase at h ⊢
  dsimp only at h ⊢
  split at h
  · rename_i hkept
    rw [if_pos hkept]
    simp only [Bool.or_eq_true, decide_eq_true_eq] at hkept
    exact hkept.resolve_left (by rw [h]; exact Bool.false_ne_true)
  · rename_i hkept
    rw [if_neg hkept]
    exact legacyFailure_ne item.failureKind

/-- **Only successful cases have no category.** -/
theorem Uploaded.failureCategory (h : Uploaded P row) (hfailed : row.success = false) :
    row.failureCategory ≠ "" := by
  obtain ⟨_, _, -, hitem, hstored⟩ := h
  have hsame := hstored.sameColumns
  obtain ⟨_, -, rfl⟩ := List.mem_map.mp hitem
  rw [hsame.failureCategory_eq]
  exact failureCategory_normalizeCase (hsame.success_eq.symm.trans hfailed)

end AgentStorm.Results
