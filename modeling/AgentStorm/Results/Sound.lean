import AgentStorm.Results.Changes

/-!
# `Results.Sound` — the standing invariant of the result database

Run rows carry what the service validated, every receipt belongs to a shard its run expects, every case
row to a complete receipt, and all keys are the composed keys of what they name. The last point makes
the global `UNIQUE` constraints harmless: two rows that clash on an idempotency key already have the
same primary key.
-/

namespace AgentStorm.Results

open Checks Machine Relational

variable {P : Platform} {policy : LimitPolicy}

structure RunSound (P : Platform) (r : RunRow) : Prop where
  pattern : runIDPattern r.id = true
  key : r.registrationKey = registrationKey r.id
  hash : r.registrationHash = P.registrationHash r.registration
  expected : r.expectedShards = r.registration.expectedShards.toNat
  positive : 0 < r.expectedShards
  pricing : PricingValid r.registration.target.pricing

structure ReceiptSound (db : Db) (s : ReceiptRow) : Prop where
  run : ∃ r ∈ db.runs, r.id = s.runID ∧ s.shardIndex < r.expectedShards
  key : s.idempotencyKey = shardKey s.runID s.shardIndex
  object : s.objectKey = objectKey s.runID s.shardIndex s.payloadHash

structure CaseSound (db : Db) (c : CaseRow) : Prop where
  key : c.idempotencyKey = caseKey c.runID c.caseID c.iteration
  receipt : ∃ s ∈ db.receipts, s.runID = c.runID ∧ s.shardIndex = c.shardIndex ∧ s.status = .complete

structure Sound (P : Platform) (db : Db) : Prop where
  runs : ∀ r ∈ db.runs, RunSound P r
  receipts : ∀ s ∈ db.receipts, ReceiptSound db s
  cases : ∀ c ∈ db.cases, CaseSound db c

/-! ## Preservation -/

variable {call : UploadCall}

theorem RunSound.same {r r' : RunRow} (h : RunSound P r) (hsame : SameRun r r') : RunSound P r' where
  pattern := hsame.id_eq ▸ h.pattern
  key := by rw [hsame.key_eq, hsame.id_eq, h.key]
  hash := by rw [hsame.hash_eq, hsame.registration_eq, h.hash]
  expected := by rw [hsame.expected_eq, hsame.registration_eq, h.expected]
  positive := hsame.expected_eq ▸ h.positive
  pricing := hsame.registration_eq ▸ h.pricing

theorem runSound_newRun {now : Time} {runID : String} {registration : Registration}
    (h : RegistrationAccepted runID (registrationKey runID) registration) :
    RunSound P (newRun now runID (registrationKey runID) (P.registrationHash registration) registration) where
  pattern := h.runID_pattern
  key := rfl
  hash := rfl
  expected := rfl
  positive := by
    have hpos := h.shards_pos
    show 0 < registration.expectedShards.toNat
    omega
  pricing := h.pricing

theorem call_index (h : call.validate P = .ok ()) : (call.shardIndex.toNat : Int) = call.shardIndex :=
  Int.toNat_of_nonneg (validateShard_ok h).index_nonneg

theorem call_key (h : call.validate P = .ok ()) :
    call.idempotencyKey = shardKey call.runID call.shardIndex.toNat := by
  rw [call_index h, (validateShard_ok h).key_eq]

theorem call_objectKey (h : call.validate P = .ok ()) :
    call.objectKey P = objectKey call.runID call.shardIndex.toNat (call.payloadHash P) := by
  rw [call_index h]; rfl

theorem call_document (h : call.validate P = .ok ()) :
    ShardAccepted call.runID call.shardIndex call.idempotencyKey call.document :=
  (validateShard_ok h).normalizeShard

theorem Sound.commit {t : Txn} {db db' : Db} {a : Answer} (hsound : Sound P db) (h : Commit P t db a db') :
    Sound P db' := by
  refine ⟨?_, ?_, ?_⟩
  · intro r' hr'
    rcases h.run_back hr' with ⟨r, hr, hsame⟩ | ⟨_, _, -, hvalid, rfl, -⟩
    · exact (hsound.runs r hr).same hsame
    · exact runSound_newRun hvalid
  · intro s' hs'
    rcases h.receipt_back hs' with ⟨s, hs, hsame⟩ | ⟨call, _, -, hvalid, hrun, hindex, rfl⟩
    · have hold := hsound.receipts s hs
      obtain ⟨r, hr, hid, hlt⟩ := hold.run
      obtain ⟨r', hr', hsameRun⟩ := h.run_forth hr
      refine ⟨⟨r', hr', ?_, ?_⟩, ?_, ?_⟩
      · rw [hsameRun.id_eq, hid, hsame.runID_eq]
      · rw [hsameRun.expected_eq, hsame.index_eq]
        exact hlt
      · rw [hsame.key_eq, hsame.runID_eq, hsame.index_eq, hold.key]
      · rw [hsame.objectKey_eq, hsame.runID_eq, hsame.index_eq, hsame.hash_eq, hold.object]
    · obtain ⟨hmem, hid⟩ := Db.run?_eq_some.mp hrun
      obtain ⟨r', hr', hsameRun⟩ := h.run_forth hmem
      refine ⟨⟨r', hr', hsameRun.id_eq.trans hid, ?_⟩, call_key hvalid, call_objectKey hvalid⟩
      rw [hsameRun.expected_eq]
      exact hindex
  · intro c hc
    rcases h.case_back hc with hold | ⟨_, _, item, -, hvalid, hitem, hof, hindex, s, hs, hrun, hidx, hcomplete⟩
    · have hcase := hsound.cases c hold
      obtain ⟨s, hs, hrun, hidx, hcomplete⟩ := hcase.receipt
      obtain ⟨s', hs', hsame⟩ := h.receipt_forth hs
      exact ⟨hcase.key, s', hs', hsame.runID_eq.trans hrun, hsame.index_eq.trans hidx, hsame.complete hcomplete⟩
    · refine ⟨?_, s, hs, hrun.trans hof.runID_eq.symm, hidx.trans hindex.symm, hcomplete⟩
      rw [hof.key_eq, ((call_document hvalid).cases_accepted item hitem).key_eq, hof.runID_eq, hof.caseID_eq,
        hof.iteration_eq]

theorem sound_empty : Sound P Db.empty :=
  ⟨fun _ h => absurd h Table.not_mem_empty, fun _ h => absurd h Table.not_mem_empty,
    fun _ h => absurd h Table.not_mem_empty⟩

theorem Sound.step {t : Txn} {db : Db} (h : Sound P db) : Sound P ((machine P policy).step db t) :=
  step_of_commit (Q := Sound P) h h.commit

/-- **Every reachable database is sound.** -/
theorem sound_run (es : List Txn) : Sound P ((machine P policy).run Db.empty es) :=
  Transactional.run_invariant (fun _ => True) (Sound P) (fun _ _ _ h => h.step) sound_empty es fun _ _ => trivial

end AgentStorm.Results
