import AgentStorm.Foundation.Fencing
import AgentStorm.Results.Coupling
import AgentStorm.Results.Reference

/-!
# `Results.Leases` — shard leases are fenced

A queue row is a lease cell of `Foundation.Fencing`: every commit makes one of the moves of a cell, at
the time its transaction began (`Commit.move`). A repeated claim puts its token on every unexpired
lease of its worker, so it is a grant of one shard only because a worker never has two (`OneLease`).
`lease_fencing` is then what fenced cells guarantee.
-/

namespace AgentStorm.Results

open Checks Collecting Machine Machine.Transactional Relational

variable {P : Platform} {policy : LimitPolicy} {t : Txn} {db db' : Db} {a : Answer}

/-! ## A row as a lease cell -/

variable {q : QueueRow} {now : Time} {runID : String} {i : Nat}

/-- The lease a row holds. -/
def QueueRow.cell (q : QueueRow) : Option (Fencing.Lease String String) :=
  match q.state, q.leaseOwner, q.leaseTokenHash, q.leaseExpiresAt with
  | .leased, some owner, some token, some expiry => some ⟨owner, token, expiry⟩
  | _, _, _, _ => none

def Db.cell (db : Db) (runID : String) (shardIndex : Nat) : Option (Fencing.Lease String String) :=
  (db.queue? runID shardIndex).bind QueueRow.cell

theorem QueueRow.cell_of_leased {owner token : String} {expiry : Time} (hstate : q.state = .leased)
    (howner : q.leaseOwner = some owner) (htoken : q.leaseTokenHash = some token)
    (hexpiry : q.leaseExpiresAt = some expiry) : q.cell = some ⟨owner, token, expiry⟩ := by
  simp [QueueRow.cell, hstate, howner, htoken, hexpiry]

theorem QueueRow.cell_eq_none (hstate : q.state ≠ .leased) : q.cell = none := by
  unfold QueueRow.cell
  split
  · rename_i hs _ _ _
    exact absurd hs hstate
  · rfl

/-- The columns of a sound row with a lease. -/
theorem QueueSound.cell (hq : QueueSound db q) (hstate : q.state = .leased) :
    ∃ l, q.cell = some l ∧ q.leaseOwner = some l.owner ∧ q.leaseTokenHash = some l.token ∧
      q.leaseExpiresAt = some l.expiry := by
  obtain ⟨owner, howner⟩ := Option.isSome_iff_exists.mp (hq.owner_iff.mpr hstate)
  obtain ⟨token, htoken⟩ := Option.isSome_iff_exists.mp (hq.token_iff.mpr hstate)
  obtain ⟨expiry, hexpiry⟩ := Option.isSome_iff_exists.mp (hq.expiry_iff.mpr hstate)
  exact ⟨⟨owner, token, expiry⟩, QueueRow.cell_of_leased hstate howner htoken hexpiry, howner, htoken, hexpiry⟩

theorem QueueRow.liveAt_iff :
    q.liveAt now = true ↔ q.state = .leased ∧ ∃ e, q.leaseExpiresAt = some e ∧ now < e := by
  simp [QueueRow.liveAt, Bool.and_eq_true, decide_eq_true_eq, Option.any_eq_true]

variable {later : Time}

theorem QueueRow.liveAt_of_le (h : q.liveAt later = true) (hle : now ≤ later) : q.liveAt now = true := by
  rw [QueueRow.liveAt_iff] at h ⊢
  obtain ⟨hstate, e, he, hlt⟩ := h
  exact ⟨hstate, e, he, lt_of_le_of_lt hle hlt⟩

/-- The lease check of the API is liveness of the cell. -/
theorem QueueSound.openedBy_iff (hq : QueueSound db q) {leaseHash : String} :
    q.openedBy now leaseHash = true ↔ Fencing.Live q.cell leaseHash now := by
  simp only [QueueRow.openedBy, Bool.and_eq_true, decide_eq_true_eq, QueueRow.liveAt_iff]
  constructor
  · rintro ⟨⟨hstate, e, he, hlt⟩, htoken⟩
    obtain ⟨l, hl, -, htoken', hexpiry⟩ := hq.cell hstate
    rw [htoken] at htoken'
    rw [he] at hexpiry
    cases hexpiry
    exact ⟨l, hl, (Option.some.inj htoken').symm, hlt⟩
  · rintro ⟨l, hl, rfl, hlt⟩
    by_cases hstate : q.state = .leased
    · obtain ⟨l', hl', -, htoken, hexpiry⟩ := hq.cell hstate
      cases hl.symm.trans hl'
      exact ⟨⟨hstate, l.expiry, hexpiry, hlt⟩, htoken⟩
    · rw [QueueRow.cell_eq_none hstate] at hl
      cases hl

theorem Coupled.leaseOpen_iff {docs : Set Registration} (hc : Coupled P docs db) {leaseHash : String} :
    LeaseOpen db now runID i leaseHash ↔ Fencing.Live (db.cell runID i) leaseHash now := by
  constructor
  · rintro ⟨q, hq, hrun, hidx, hopen⟩
    rw [Db.cell, Db.queue?_eq_some.mpr ⟨hq, hrun, hidx⟩]
    exact (hc.rows q hq).openedBy_iff.mp hopen
  · rintro ⟨l, hl, hlive⟩
    obtain ⟨q, hq, hcell⟩ := Option.bind_eq_some_iff.mp hl
    obtain ⟨hmem, hrun, hidx⟩ := Db.queue?_eq_some.mp hq
    exact ⟨q, hmem, hrun, hidx, (hc.rows q hmem).openedBy_iff.mpr ⟨l, hcell, hlive⟩⟩

/-! ## One lease a worker -/

/-- At time `now` no worker has two unexpired leases of one run. -/
def OneLease (db : Db) (now : Time) : Prop :=
  ∀ q₁ ∈ db.queue, ∀ q₂ ∈ db.queue, q₁.runID = q₂.runID → q₁.leaseOwner = q₂.leaseOwner →
    q₁.liveAt now = true → q₂.liveAt now = true → q₁ = q₂

theorem OneLease.of_le (h : OneLease db now) (hle : now ≤ later) : OneLease db later :=
  fun q₁ h₁ q₂ h₂ hrun howner hlive₁ hlive₂ => h q₁ h₁ q₂ h₂ hrun howner (QueueRow.liveAt_of_le hlive₁ hle)
    (QueueRow.liveAt_of_le hlive₂ hle)

theorem heldBy_iff {workerID : String} :
    heldBy now runID workerID q = true ↔ q.runID = runID ∧ q.leaseOwner = some workerID ∧ q.liveAt now = true := by
  simp [heldBy, Bool.and_eq_true, decide_eq_true_eq, and_assoc]

/-- Where a lease that is live after a commit comes from: it was live before, with the same owner, or the commit was
    the first claim of a worker without one. -/
theorem QueueStep.live_back {q' : QueueRow} (h : QueueStep P t db a db' q q') (hle : t.now ≤ later)
    (hlive : q'.liveAt later = true) :
    (q.liveAt t.now = true ∧ q'.leaseOwner = q.leaseOwner) ∨
    (∃ workerID claim, q'.leaseOwner = some workerID ∧ a = .claimed claim ∧ claim.shardIndex = q.shardIndex ∧
      ∀ x ∈ db.queue, heldBy t.now q.runID workerID x = false) := by
  cases h with
  | keep => exact .inl ⟨QueueRow.liveAt_of_le hlive hle, rfl⟩
  | relet _ _ _ _ _ _ _ _ _ hheld => exact .inl ⟨liveAt_of_heldBy hheld, rfl⟩
  | leased workerID _ _ _ _ _ hnone ha =>
    exact .inr ⟨workerID, _, rfl, ha, rfl, Table.first?_eq_none.mp hnone⟩
  | extended _ _ _ _ hopen => exact .inl ⟨QueueRow.liveAt_of_openedBy hopen, rfl⟩
  | cancelled => exact nomatch (QueueRow.liveAt_iff.mp hlive).1
  | completed => exact nomatch (QueueRow.liveAt_iff.mp hlive).1

section Steps

variable {docs : Set Registration} (hc : Coupled P docs db) (hinj : Set.InjOn P.registrationHash docs)
  (hdocs : RegistersIn docs t)

include hc hinj hdocs in
theorem Commit.oneLease (h : Commit P t db a db') (hone : OneLease db t.now) : OneLease db' t.now := by
  -- a live row is not new, so both rows come from rows of the old table
  have hback : ∀ q' ∈ db'.queue, q'.liveAt t.now = true → ∃ q ∈ db.queue, QueueStep P t db a db' q q' := by
    intro q' hq' hlive
    rcases h.queueStep_back hc hinj hdocs hq' with hold | ⟨_, _, i, -, -, -, -, -, -, rfl⟩
    · exact hold
    · exact nomatch (QueueRow.liveAt_iff.mp hlive).1
  -- a first claim and another live lease of its worker exclude each other
  have hclash : ∀ {q₁ q₂ q₂' : QueueRow} {workerID : String}, q₂ ∈ db.queue → q₁.runID = q₂.runID →
      some workerID = q₂'.leaseOwner → q₂'.leaseOwner = q₂.leaseOwner → q₂.liveAt t.now = true →
      (∀ x ∈ db.queue, heldBy t.now q₁.runID workerID x = false) → False := by
    intro q₁ q₂ q₂' workerID hq₂ hrun howner hsame hlive hnone
    have hheld : heldBy t.now q₁.runID workerID q₂ = true :=
      heldBy_iff.mpr ⟨hrun.symm, (howner.trans hsame).symm, hlive⟩
    rw [hnone q₂ hq₂] at hheld
    cases hheld
  intro q₁' h₁' q₂' h₂' hrun' howner hlive₁ hlive₂
  obtain ⟨q₁, h₁, hstep₁⟩ := hback q₁' h₁' hlive₁
  obtain ⟨q₂, h₂, hstep₂⟩ := hback q₂' h₂' hlive₂
  have hrun : q₁.runID = q₂.runID := by rw [← hstep₁.key.1, ← hstep₂.key.1, hrun']
  have hsame : q₁.shardIndex = q₂.shardIndex → q₁' = q₂' := fun hidx =>
    db'.queue.eq_of_conflict h₁' h₂' ⟨hrun', by rw [hstep₁.key.2, hstep₂.key.2, hidx]⟩
  rcases hstep₁.live_back le_rfl hlive₁ with ⟨hold₁, howner₁⟩ | ⟨_, claim₁, howner₁, ha₁, hidx₁, hnone₁⟩
  · rcases hstep₂.live_back le_rfl hlive₂ with ⟨hold₂, howner₂⟩ | ⟨worker₂, claim₂, howner₂, ha₂, hidx₂, hnone₂⟩
    · exact hsame (by rw [hone q₁ h₁ q₂ h₂ hrun (by rw [← howner₁, ← howner₂, howner]) hold₁ hold₂])
    · exact (hclash h₁ hrun.symm (howner₂.symm.trans howner.symm) howner₁ hold₁ hnone₂).elim
  · rcases hstep₂.live_back le_rfl hlive₂ with ⟨hold₂, howner₂⟩ | ⟨_, claim₂, howner₂, ha₂, hidx₂, -⟩
    · exact (hclash h₂ hrun (howner₁.symm.trans howner) howner₂ hold₂ hnone₁).elim
    · have hclaim : claim₁ = claim₂ := Answer.claimed.inj (ha₁.symm.trans ha₂)
      exact hsame (by rw [← hidx₁, ← hidx₂, hclaim])

/-! ## Commits move cells -/

/-- A grant as the database records it: the token is stored hashed. -/
def hashGrant (P : Platform) (grant : String × String) : String × String := (grant.1, P.tokenHash grant.2)

include hc in
/-- What a commit does to a row is a move of its cell, and the grant is the claim of the log entry. -/
theorem QueueStep.move {q q' : QueueRow} (h : QueueStep P t db a db' q q') (hq : q ∈ db.queue)
    (hone : OneLease db t.now) :
    Fencing.Move t.now q.cell q'.cell ((grantOf q.runID q.shardIndex (t, .ok a)).map (hashGrant P)) := by
  have hsound := hc.rows q hq
  cases h with
  | keep hquiet =>
    rw [hquiet]
    exact .keep _
  | relet workerID token _ held hop _ _ hfirst ha hheld =>
    obtain ⟨hmem, hpred⟩ := Table.mem_of_first? hfirst
    obtain ⟨hrun₁, howner₁, hlive₁⟩ := heldBy_iff.mp hpred
    obtain ⟨-, howner, hlive⟩ := heldBy_iff.mp hheld
    -- the row the claim reports is this one: its worker has no other lease
    have heq : held = q := hone held hmem q hq hrun₁ (howner₁.trans howner.symm) hlive₁ hlive
    have hgrant : grantOf q.runID q.shardIndex (t, .ok a) = some (workerID, token.text) := by
      simp [grantOf, ha, hop, heq]
    have hstate := QueueRow.state_of_liveAt hlive
    obtain ⟨l, hl, howner', -, -⟩ := hsound.cell hstate
    have hcell : (q.relet (P.tokenHash token.text) (leaseUntil t.now shardLeaseDurationMS)).cell =
        some ⟨workerID, P.tokenHash token.text, leaseUntil t.now shardLeaseDurationMS⟩ :=
      QueueRow.cell_of_leased hstate howner rfl rfl
    rw [hgrant, hcell, hl]
    refine .grant ⟨workerID, P.tokenHash token.text, _⟩ fun old hold _ => ?_
    cases hold
    exact Option.some.inj (howner'.symm.trans howner)
  | leased workerID token _ hop _ _ _ ha hclaimable =>
    have hgrant : grantOf q.runID q.shardIndex (t, .ok a) = some (workerID, token.text) := by
      simp [grantOf, ha, hop]
    have hcell : (q.lease workerID (P.tokenHash token.text) (leaseUntil t.now shardLeaseDurationMS)).cell =
        some ⟨workerID, P.tokenHash token.text, leaseUntil t.now shardLeaseDurationMS⟩ := rfl
    rw [hgrant, hcell]
    refine .grant ⟨workerID, P.tokenHash token.text, _⟩ fun old hold hlive => ?_
    -- a claimable row has no lease or an expired one
    by_cases hstate : q.state = .leased
    · obtain ⟨l, hl, -, -, hexpiry⟩ := hsound.cell hstate
      obtain rfl := Option.some.inj (hl.symm.trans hold)
      have hexpired : l.expiry ≤ t.now := by simpa [QueueRow.claimableAt, hstate, hexpiry] using hclaimable
      exact absurd hlive (not_lt.mpr hexpired)
    · rw [QueueRow.cell_eq_none hstate] at hold
      cases hold
  | extended _ _ _ ha hopen =>
    have hgrant : grantOf q.runID q.shardIndex (t, .ok a) = none := by rw [ha]; rfl
    obtain ⟨l, hl, -, hlive⟩ := hsound.openedBy_iff.mp hopen
    have hstate := QueueRow.state_of_liveAt (QueueRow.liveAt_of_openedBy hopen)
    obtain ⟨l', hl', howner, htoken, -⟩ := hsound.cell hstate
    cases hl.symm.trans hl'
    have hcell : (q.extend (leaseUntil t.now shardLeaseDurationMS)).cell =
        some { l with expiry := leaseUntil t.now shardLeaseDurationMS } :=
      QueueRow.cell_of_leased hstate howner htoken rfl
    rw [hgrant, hcell, hl]
    exact .extend l _ hlive
  | cancelled hended =>
    have hgrant : grantOf q.runID q.shardIndex (t, .ok a) = none := by rw [(terminates_iff.mp hended).1]; rfl
    rw [hgrant]
    exact .clear _
  | completed call pricing hop ha =>
    have hgrant : grantOf q.runID q.shardIndex (t, .ok a) = none := by rw [ha]; rfl
    rw [hgrant]
    exact .clear _

/-- A claim gets a shard that has a row. -/
theorem Commit.row_of_grant (h : Commit P t db a db') {runID : String} {i : Nat} {grant : String × String}
    (hgrant : grantOf runID i (t, .ok a) = some grant) : ∃ q ∈ db.queue, q.runID = runID ∧ q.shardIndex = i := by
  cases h with
  | reclaim _ _ _ _ held hop _ _ hheld =>
    obtain ⟨hmem, hpred⟩ := Table.mem_of_first? hheld
    simp only [grantOf, hop, Option.ite_none_right_eq_some] at hgrant
    exact ⟨held, hmem, (heldBy_iff.mp hpred).1.trans hgrant.1.1, hgrant.1.2⟩
  | claim _ _ _ _ candidate hop _ _ _ hcandidate =>
    obtain ⟨hmem, hpred⟩ := Table.mem_select.mp (List.argmin_mem hcandidate)
    simp only [Bool.and_eq_true, decide_eq_true_eq] at hpred
    simp only [grantOf, hop, Option.ite_none_right_eq_some] at hgrant
    exact ⟨candidate, hmem, hpred.1.trans hgrant.1.1, hgrant.1.2⟩
  | permit permits rateEvents a hanswer =>
    rw [grantOf_of_permit hanswer] at hgrant
    cases hgrant
  | registerNew | registerAgain | terminate | terminateAgain | renew | reserveNew | reserveAgain | finalize
  | finalizeAgain => cases hgrant

include hc hinj hdocs in
/-- **Every commit moves every cell**, at its own time. -/
theorem Commit.move (h : Commit P t db a db') (hone : OneLease db t.now) (runID : String) (i : Nat) :
    Fencing.Move t.now (db.cell runID i) (db'.cell runID i) ((grantOf runID i (t, .ok a)).map (hashGrant P)) := by
  cases hq : db.queue? runID i with
  | some q =>
    obtain ⟨hmem, rfl, rfl⟩ := Db.queue?_eq_some.mp hq
    obtain ⟨q', hmem', hstep⟩ := h.queueStep hc hinj hdocs hmem
    have hq' : db'.queue? q.runID q.shardIndex = some q' := Db.queue?_eq_some.mpr ⟨hmem', hstep.key⟩
    simp only [Db.cell, hq, hq', Option.bind_some]
    exact hstep.move hc hmem hone
  | none =>
    have habsent : ∀ q ∈ db.queue, ¬ (q.runID = runID ∧ q.shardIndex = i) := by
      intro q hmem hkey
      rw [Db.queue?_eq_some.mpr ⟨hmem, hkey⟩] at hq
      cases hq
    have hgrant : grantOf runID i (t, .ok a) = none := by
      by_contra hsome
      obtain ⟨_, hgrant⟩ := Option.ne_none_iff_exists'.mp hsome
      obtain ⟨q, hmem, hkey⟩ := h.row_of_grant hgrant
      exact habsent q hmem hkey
    -- a row that appears now is queued, so its cell is empty
    have hcell' : db'.cell runID i = none := by
      cases hq' : db'.queue? runID i with
      | none => simp only [Db.cell, hq', Option.bind_none]
      | some =>
        obtain ⟨hmem', hrun, hidx⟩ := Db.queue?_eq_some.mp hq'
        rcases h.queueStep_back hc hinj hdocs hmem' with ⟨q, hmem, hstep⟩ | ⟨_, _, _, -, -, -, -, -, -, rfl⟩
        · exact absurd ⟨hstep.key.1.symm.trans hrun, hstep.key.2.symm.trans hidx⟩ (habsent q hmem)
        · simp only [Db.cell, hq']
          rfl
    rw [hgrant, hcell']
    exact .clear _

end Steps

/-! ## Whole runs of the machine -/

section Runs

variable {docs : Set Registration} (hinj : Set.InjOn P.registrationHash docs)

include hinj in
/-- Every reachable database, at any time from its last transaction on. -/
theorem oneLease_run {es : List Txn} (hclock : Clocked es) (hdocs : ∀ t ∈ es, RegistersIn docs t) :
    Coupled P docs ((machine P policy).run Db.empty es) ∧
    ∀ now, (∀ t ∈ es, t.now ≤ now) → OneLease ((machine P policy).run Db.empty es) now := by
  refine run_induction (fun es => Clocked es ∧ ∀ t ∈ es, RegistersIn docs t)
    (fun es db => Coupled P docs db ∧ ∀ now, (∀ t ∈ es, t.now ≤ now) → OneLease db now) ?_
    ⟨coupled_empty docs, fun _ _ _ h => absurd h Table.not_mem_empty⟩ ?_ es ⟨hclock, hdocs⟩
  · rintro es t ⟨hclock, hdocs⟩
    exact ⟨hclock.left, fun u hu => hdocs u (List.mem_append_left _ hu)⟩
  · rintro es t ⟨hclock, hdocs⟩ ⟨hc, hone⟩
    have hnow : OneLease ((machine P policy).run Db.empty es) t.now :=
      hone t.now fun u hu => hclock.le hu (List.mem_singleton_self t)
    have ht : t ∈ es ++ [t] := by simp
    refine ⟨hc.step hinj (hdocs t ht), fun now hle => OneLease.of_le ?_ (hle t ht)⟩
    exact step_of_commit (Q := (OneLease · t.now)) hnow fun hcommit => hcommit.oneLease hc hinj (hdocs t ht) hnow

/-- The grants of a shard over a log, as its cell sees them. -/
def leaseHistory (P : Platform) (runID : String) (i : Nat) (log : List (Txn × Except ApiError Answer)) :
    List (Int × Option (String × String)) :=
  log.map fun entry => (entry.1.now, (grantOf runID i entry).map (hashGrant P))

theorem leaseHistory_concat (runID : String) (i : Nat) (log : List (Txn × Except ApiError Answer))
    (entry : Txn × Except ApiError Answer) : leaseHistory P runID i (log ++ [entry]) =
      leaseHistory P runID i log ++ [(entry.1.now, (grantOf runID i entry).map (hashGrant P))] := by
  simp [leaseHistory]

include hinj in
/-- **Every run of the machine walks every cell along a path of moves.** -/
theorem path_run (past mid : List Txn) (hclock : Clocked (past ++ mid))
    (hdocs : ∀ t ∈ past ++ mid, RegistersIn docs t) (runID : String) (i : Nat) :
    Fencing.Path (((machine P policy).run Db.empty past).cell runID i)
      (leaseHistory P runID i ((machine P policy).log ((machine P policy).run Db.empty past) mid))
      (((machine P policy).run Db.empty (past ++ mid)).cell runID i) := by
  induction mid using List.reverseRecOn with
  | nil =>
    rw [List.append_nil]
    exact .nil
  | append_singleton mid t ih =>
    rw [← List.append_assoc] at hclock hdocs ⊢
    have ih' := ih hclock.left fun u hu => hdocs u (List.mem_append_left _ hu)
    obtain ⟨hc, hone⟩ := oneLease_run (P := P) hinj hclock.left
      (fun u hu => hdocs u (List.mem_append_left _ hu))
    have hnow := hone t.now fun u hu => hclock.le hu (List.mem_singleton_self t)
    rw [log_concat, leaseHistory_concat, ← run_append,
      run_concat (M := machine P policy) Db.empty (past ++ mid)]
    refine ih'.snoc ?_
    rcases hexec : (machine P policy).exec t ((machine P policy).run Db.empty (past ++ mid)) with e | ⟨a, db'⟩
    · rw [step_error hexec, answer_error hexec]
      exact .keep _
    · rw [step_ok hexec, answer_ok_iff.mpr ⟨db', hexec⟩]
      exact (commit_of_exec hexec).move hc hinj (hdocs t (by simp)) hnow runID i

end Runs

/-! ## Tokens -/

/-- The lease token a renewal or an upload of the shard presents. -/
def presents (runID : String) (i : Nat) (t : Txn) : Option String :=
  match t.op with
  | .renewShardLease id index token => if id = runID ∧ index = i then some token else none
  | .reserveShard call => if call.runID = runID ∧ call.shardIndex = i then some call.leaseToken else none
  | .finalizeShard call _ => if call.runID = runID ∧ call.shardIndex = i then some call.leaseToken else none
  | _ => none

/-- The token a claim brings. -/
def claimToken? (t : Txn) : Option String :=
  match t.op with
  | .claimShard _ _ token => some token.text
  | _ => none

def claimTokens (es : List Txn) : List String := es.filterMap claimToken?

/-- The lease token of a transaction, claimed or presented. -/
def leaseToken? (t : Txn) : Option String :=
  match t.op with
  | .claimShard _ _ token => some token.text
  | .renewShardLease _ _ token => some token
  | .reserveShard call => some call.leaseToken
  | .finalizeShard call _ => some call.leaseToken
  | _ => none

def leaseTokens (es : List Txn) : Set String := { token | token ∈ es.filterMap leaseToken? }

theorem leaseToken_of_presents {token : String} (h : presents runID i t = some token) :
    leaseToken? t = some token := by
  unfold presents at h
  unfold leaseToken?
  split at h <;> rename_i hop <;> simp_all

/-- The worker and the token of the latest claim that got the shard. -/
def latestGrant (runID : String) (i : Nat) (log : List (Txn × Except ApiError Answer)) : Option (String × String) :=
  Fencing.latest (log.map fun entry => (entry.1.now, grantOf runID i entry))

theorem latest_leaseHistory (runID : String) (i : Nat) (log : List (Txn × Except ApiError Answer)) :
    Fencing.latest (leaseHistory P runID i log) = (latestGrant runID i log).map (hashGrant P) := by
  rw [latestGrant, ← Fencing.latest_map, List.map_map]
  rfl

/-- A grant is a claim, and its token the one the claim brought. -/
theorem claimToken_of_grantOf {entry : Txn × Except ApiError Answer} {grant : String × String}
    (h : grantOf runID i entry = some grant) : claimToken? entry.1 = some grant.2 := by
  unfold grantOf at h
  split at h
  · rename_i claim id workerID token hanswer hop
    simp only [Option.ite_none_right_eq_some, Option.some.injEq] at h
    simp [claimToken?, hop, ← h.2]
  · cases h

theorem mem_claimTokens {es : List Txn} {db : Db} {entry : Txn × Except ApiError Answer}
    {grant : String × String} (hentry : entry ∈ (machine P policy).log db es)
    (h : grantOf runID i entry = some grant) : grant.2 ∈ claimTokens es :=
  List.mem_filterMap.mpr ⟨entry.1, mem_of_log hentry, claimToken_of_grantOf h⟩

theorem mem_leaseTokens_of_claimTokens {es : List Txn} {token : String} (h : token ∈ claimTokens es) :
    token ∈ leaseTokens es := by
  obtain ⟨t, ht, htoken⟩ := List.mem_filterMap.mp h
  refine List.mem_filterMap.mpr ⟨t, ht, ?_⟩
  unfold claimToken? at htoken
  unfold leaseToken?
  split at htoken <;> rename_i hop <;> simp_all

/-- A renewal or upload that commits on a collecting run found the lease it presented open. -/
theorem Commit.leaseOpen (h : Commit P t db a db') {token : String} {run : RunRow}
    (hpresents : presents runID i t = some token) (hrun : db.run? runID = some run)
    (hleasing : run.leasing = true) : LeaseOpen db t.now runID i (P.tokenHash token) := by
  have hupload : ∀ {call : UploadCall} {run' : RunRow},
      (if call.runID = runID ∧ call.shardIndex = i then some call.leaseToken else none) = some token →
      db.run? call.runID = some run' →
      (run'.leasing = true → LeaseOpen db t.now call.runID call.shardIndex.toNat (call.leaseHash P)) →
      LeaseOpen db t.now runID i (P.tokenHash token) := by
    intro call run' hif hrun' hopen
    simp only [Option.ite_none_right_eq_some, Option.some.injEq] at hif
    obtain ⟨⟨rfl, hidx⟩, rfl⟩ := hif
    cases hrun.symm.trans hrun'
    have hopen' := hopen hleasing
    rw [hidx, Int.toNat_natCast] at hopen'
    exact hopen'
  cases h with
  | renew _ _ _ row _ hop _ hrow hrenewable =>
    simp only [presents, hop, Option.ite_none_right_eq_some, Option.some.injEq] at hpresents
    obtain ⟨⟨rfl, rfl⟩, rfl⟩ := hpresents
    simp only [renewable, Int.toNat_natCast, Bool.and_eq_true, decide_eq_true_eq] at hrenewable
    exact ⟨row, hrow, hrenewable.1.1, hrenewable.1.2, hrenewable.2⟩
  | reserveNew _ _ _ hop _ hrun' _ hlease =>
    simp only [presents, hop] at hpresents
    exact hupload hpresents hrun' hlease
  | reserveAgain _ _ _ hop _ hrun' hlease =>
    simp only [presents, hop] at hpresents
    exact hupload hpresents hrun' hlease
  | finalize _ _ _ _ _ _ hop _ hrun' hlease =>
    simp only [presents, hop] at hpresents
    exact hupload hpresents hrun' hlease
  | finalizeAgain _ _ _ _ hop hrun' hlease =>
    simp only [presents, hop] at hpresents
    exact hupload hpresents hrun' hlease
  | permit =>
    unfold presents at hpresents
    split at hpresents <;> rename_i hop' <;> simp_all [Op.permit]
  | registerNew _ _ _ hop | registerAgain _ _ _ hop | terminate _ _ _ hop | terminateAgain _ _ _ hop
  | reclaim _ _ _ _ _ hop | claim _ _ _ _ _ hop =>
    simp only [presents, hop] at hpresents
    cases hpresents

/-! ## Finalized once -/

/-- A log entry that finalized the shard. -/
def finalizes (runID : String) (i : Nat) (entry : Txn × Except ApiError Answer) : Bool :=
  match entry.2, entry.1.op with
  | .ok (.finalized true), .finalizeShard call _ => decide (call.runID = runID ∧ call.shardIndex = i)
  | _, _ => false

theorem finalizes_iff : finalizes runID i (t, .ok a) = true ↔ a = .finalized true ∧
    ∃ call pricing, t.op = .finalizeShard call pricing ∧ call.runID = runID ∧ call.shardIndex = i := by
  unfold finalizes
  split
  · rename_i call pricing ha hop
    simp only [Except.ok.injEq] at ha
    have hop : t.op = .finalizeShard call pricing := hop
    simp [ha, hop]
  · rename_i hother
    simp only [Bool.false_eq_true, false_iff, not_and, not_exists]
    rintro rfl call pricing hop
    exact absurd hop (hother call pricing rfl)

theorem Commit.doneShards_mono (h : Commit P t db a db') (runID : String) :
    db.doneShards runID ⊆ db'.doneShards runID := by
  rintro i ⟨s, hs, hrun, hidx, hcomplete⟩
  obtain ⟨s', hs', hsame⟩ := h.receipt_forth hs
  exact ⟨s', hs', hsame.runID_eq.trans hrun, hsame.index_eq.trans hidx, hsame.complete hcomplete⟩

/-- What is finalized was not done before and is done after. -/
theorem Commit.finalizes_done (h : Commit P t db a db') (hfin : finalizes runID i (t, .ok a) = true) :
    i ∉ db.doneShards runID ∧ i ∈ db'.doneShards runID := by
  obtain ⟨rfl, _, _, hop, rfl, hidx⟩ := finalizes_iff.mp hfin
  cases h with
  | finalize _ _ _ receipt _ _ hop' _ _ _ hreceipt _ hpending _ hrefresh =>
    rw [hop] at hop'
    obtain ⟨rfl, -⟩ := Op.finalizeShard.inj hop'
    rw [hidx, Int.toNat_natCast] at hreceipt
    constructor
    · rintro ⟨s, hs, hrunID, hindex, hcomplete⟩
      have heq : some s = some receipt := (Db.receipt?_eq_some.mpr ⟨hs, hrunID, hindex⟩).symm.trans hreceipt
      rw [Option.some.inj heq, hpending] at hcomplete
      cases hcomplete
    · have hreceipts := (refreshAggregate_frame hrefresh).1
      rw [hidx, Int.toNat_natCast] at hreceipts
      rw [doneShards_finish hreceipt hreceipts]
      exact Set.mem_insert _ _
  | permit permits rateEvents a hanswer => cases hanswer

/-- No shard is finalized twice, and a finalized shard is done. -/
theorem finalized_once (es : List Txn) (runID : String) (i : Nat) :
    (((machine P policy).log Db.empty es).filter (finalizes runID i)).length ≤ 1 ∧
    (((machine P policy).log Db.empty es).filter (finalizes runID i) ≠ [] →
      i ∈ ((machine P policy).run Db.empty es).doneShards runID) := by
  refine run_induction (fun _ => True) (fun es (db : Db) =>
    (((machine P policy).log Db.empty es).filter (finalizes runID i)).length ≤ 1 ∧
    (((machine P policy).log Db.empty es).filter (finalizes runID i) ≠ [] → i ∈ db.doneShards runID))
    (fun _ _ h => h) ⟨by simp [Transactional.log], by simp [Transactional.log]⟩ ?_ es trivial
  rintro es t - ⟨honce, hdone⟩
  rw [log_concat, List.filter_append]
  rcases hexec : (machine P policy).exec t ((machine P policy).run Db.empty es) with e | ⟨a, db'⟩
  · have hquiet : finalizes runID i (t, .error e) = false := rfl
    rw [step_error hexec, answer_error hexec, List.filter_cons_of_neg (by simp [hquiet]),
      List.filter_nil, List.append_nil]
    exact ⟨honce, hdone⟩
  · have hcommit := commit_of_exec hexec
    rw [step_ok hexec, answer_ok_iff.mpr ⟨db', hexec⟩]
    cases hfin : finalizes runID i (t, .ok a) with
    | false =>
      rw [List.filter_cons_of_neg (by simp [hfin]), List.filter_nil, List.append_nil]
      exact ⟨honce, fun hne => hcommit.doneShards_mono runID (hdone hne)⟩
    | true =>
      obtain ⟨hbefore, hafter⟩ := hcommit.finalizes_done hfin
      have hnone : ((machine P policy).log Db.empty es).filter (finalizes runID i) = [] := by
        by_contra hne
        exact hbefore (hdone hne)
      rw [hnone, List.filter_cons_of_pos hfin]
      exact ⟨by simp, fun _ => hafter⟩

/-! ## The guarantee -/

/-- What the lease tokens of a run can and cannot do over a history. -/
structure LeaseFencing (P : Platform) (policy : LimitPolicy) (es : List Txn) (runID : String) : Prop where
  /-- On a collecting run only the token of the latest claim renews, reserves or finalizes. -/
  latest : ∀ past t future, es = past ++ t :: future → ∀ i token run,
    ((machine P policy).run Db.empty past).run? runID = some run → run.leasing = true →
    presents runID i t = some token → (∃ a, (machine P policy).answer ((machine P policy).run Db.empty past) t = .ok a) →
    (latestGrant runID i ((machine P policy).log Db.empty past)).map Prod.snd = some token
  /-- A granted token that does not open its shard at some time does not open it at any later time. -/
  spent : ∀ past mid t future, es = past ++ mid ++ t :: future → ∀ now i token run,
    (∀ u ∈ past, u.now ≤ now) → (∀ u ∈ mid, now ≤ u.now) → now ≤ t.now →
    (∃ entry ∈ (machine P policy).log Db.empty past, ∃ workerID, grantOf runID i entry = some (workerID, token)) →
    ¬ LeaseOpen ((machine P policy).run Db.empty past) now runID i (P.tokenHash token) →
    ((machine P policy).run Db.empty (past ++ mid)).run? runID = some run → run.leasing = true →
    presents runID i t = some token →
    ∀ a, (machine P policy).answer ((machine P policy).run Db.empty (past ++ mid)) t ≠ .ok a
  /-- A worker has at most one unexpired lease of the run. -/
  one_lease : ∀ past future, es = past ++ future → ∀ now, (∀ u ∈ past, u.now ≤ now) → ∀ workerID,
    ∀ q₁ ∈ ((machine P policy).run Db.empty past).queue, ∀ q₂ ∈ ((machine P policy).run Db.empty past).queue,
    heldBy now runID workerID q₁ = true → heldBy now runID workerID q₂ = true → q₁ = q₂
  /-- A shard is finalized at most once. -/
  once : ∀ i, (((machine P policy).log Db.empty es).filter (finalizes runID i)).length ≤ 1

theorem claimTokens_append (es fs : List Txn) : claimTokens (es ++ fs) = claimTokens es ++ claimTokens fs :=
  List.filterMap_append

section Held

variable {docs : Set Registration} (hinj : Set.InjOn P.registrationHash docs) {es : List Txn} (hclock : Clocked es)
  (hdocs : ∀ t ∈ es, RegistersIn docs t)

include hinj hclock hdocs in
/-- The lease a shard holds is the one its latest claim got. -/
theorem latestGrant_of_cell {runID : String} {i : Nat} {l : Fencing.Lease String String}
    (hcell : ((machine P policy).run Db.empty es).cell runID i = some l) :
    ∃ token, latestGrant runID i ((machine P policy).log Db.empty es) = some (l.owner, token) ∧
      P.tokenHash token = l.token ∧ token ∈ claimTokens es := by
  have hheld := Fencing.held_latest (path_run hinj [] es hclock hdocs runID i) l hcell
  rw [latest_leaseHistory, run_nil] at hheld
  obtain ⟨⟨_, token⟩, hgrant, hhashed⟩ := Option.map_eq_some_iff.mp hheld
  obtain ⟨rfl, htoken⟩ := Prod.mk.inj hhashed
  obtain ⟨_, hmem⟩ := Fencing.mem_of_latest hgrant
  obtain ⟨_, hentry, heq⟩ := List.mem_map.mp hmem
  exact ⟨token, hgrant, htoken, mem_claimTokens hentry (Prod.mk.inj heq).2⟩

end Held

/-- **Shard leases are fenced.** Under a clock that does not go back, fresh claim tokens and no hash collision among
    the tokens and registrations of the history. -/
theorem lease_fencing (P : Platform) (policy : LimitPolicy) (es : List Txn) (runID : String) (hclock : Clocked es)
    (hfresh : (claimTokens es).Nodup) (hhash : Set.InjOn (fun token => P.sha256Hex (Text.bytes token)) (leaseTokens es))
    (hinj : Set.InjOn P.registrationHash (registrations es)) : LeaseFencing P policy es runID := by
  have hdocs : ∀ t ∈ es, RegistersIn (registrations es) t := registersIn_registrations
  refine ⟨?_, ?_, ?_, fun i => (finalized_once es runID i).1⟩
  · rintro past t future hes i token run hrun hleasing hpresents ⟨a, hanswer⟩
    have hclock' : Clocked past := (hes ▸ hclock : Clocked (past ++ t :: future)).left
    have hdocs' : ∀ u ∈ past, RegistersIn (registrations es) u := fun u hu => hdocs u (by simp [hes, hu])
    obtain ⟨db', hexec⟩ := answer_ok_iff.mp hanswer
    have hopen := (commit_of_exec hexec).leaseOpen hpresents hrun hleasing
    -- the lease in the cell is the one granted last, and its token hash is the presented one
    obtain ⟨hc, -⟩ := oneLease_run hinj hclock' hdocs'
    obtain ⟨l, hcell, htoken, -⟩ := hc.leaseOpen_iff.mp hopen
    obtain ⟨token', hgrant, hhashed, hclaimed⟩ := latestGrant_of_cell hinj hclock' hdocs' hcell
    have hmem : token' ∈ leaseTokens es := mem_leaseTokens_of_claimTokens
      (by rw [hes, claimTokens_append]; exact List.mem_append_left _ hclaimed)
    have hmem' : token ∈ leaseTokens es :=
      List.mem_filterMap.mpr ⟨t, by simp [hes], leaseToken_of_presents hpresents⟩
    rw [hgrant, Option.map_some, P.tokenHash_inj hhash hmem hmem' (hhashed.trans htoken)]
  · rintro past mid t future hes now i token run hpast hmid hnow ⟨_, hentry, workerID, hgrant⟩ hspent hrun hleasing
      hpresents a hanswer
    have hclock' : Clocked (past ++ mid) := (hes ▸ hclock : Clocked (past ++ mid ++ t :: future)).left
    have hdocs' : ∀ u ∈ past ++ mid, RegistersIn (registrations es) u :=
      fun u hu => hdocs u (by rw [hes]; exact List.mem_append_left _ hu)
    obtain ⟨_, hexec⟩ := answer_ok_iff.mp hanswer
    have hopen := (commit_of_exec hexec).leaseOpen hpresents hrun hleasing
    obtain ⟨hc, -⟩ := oneLease_run hinj hclock' hdocs'
    obtain ⟨hc₀, -⟩ := oneLease_run hinj hclock'.left fun u hu => hdocs' u (List.mem_append_left _ hu)
    have hlive := (hc.leaseOpen_iff.mp hopen).of_le hnow
    have hdead := fun h => hspent (hc₀.leaseOpen_iff.mpr h)
    refine Fencing.not_live_of_path (path_run hinj past mid hclock' hdocs' runID i) hdead ?_ ?_ hlive
    · intro h hh
      obtain ⟨e, he, rfl⟩ := List.mem_map.mp hh
      exact hmid e.1 (mem_of_log he)
    · -- a second grant of the token would be a second claim with it
      intro h hh w heq
      obtain ⟨e, he, rfl⟩ := List.mem_map.mp hh
      obtain ⟨grant, hgrant', hhashed⟩ := Option.map_eq_some_iff.mp heq
      have hpast' : token ∈ claimTokens past := mem_claimTokens hentry hgrant
      have hmid' : grant.2 ∈ claimTokens mid := mem_claimTokens he hgrant'
      have hsub : claimTokens es = claimTokens past ++ claimTokens mid ++ claimTokens (t :: future) := by
        rw [hes, claimTokens_append, claimTokens_append]
      have hsame : grant.2 = token := by
        refine P.tokenHash_inj hhash (mem_leaseTokens_of_claimTokens ?_) (mem_leaseTokens_of_claimTokens ?_)
          (Prod.mk.inj hhashed).2
        · rw [hsub]; simp [hmid']
        · rw [hsub]; simp [hpast']
      rw [hsub] at hfresh
      exact List.disjoint_of_nodup_append hfresh.of_append_left hpast' (hsame ▸ hmid')
  · intro past future hes now hnow workerID q₁ h₁ q₂ h₂ hheld₁ hheld₂
    have hclock' : Clocked past := (hes ▸ hclock : Clocked (past ++ future)).left
    obtain ⟨-, hone⟩ := oneLease_run (P := P) hinj hclock' fun u hu => hdocs u (by simp [hes, hu])
    obtain ⟨hrun₁, howner₁, hlive₁⟩ := heldBy_iff.mp hheld₁
    obtain ⟨hrun₂, howner₂, hlive₂⟩ := heldBy_iff.mp hheld₂
    exact hone now hnow q₁ h₁ q₂ h₂ (hrun₁.trans hrun₂.symm) (howner₁.trans howner₂.symm) hlive₁ hlive₂

/-- A shard changes hands: its first lease expires, a second worker claims it and uploads. -/
def handover : List Txn :=
  let call := UploadCall.reference "run" 0 SchedulerToken.ofB.text (.reference 1)
  [registerAt 0 "run" (.reference "suite" "keda" 1),
    ⟨.claimShard "run" "worker-1" .ofA, 1, 1⟩,
    ⟨.claimShard "run" "worker-2" .ofB, 60000000, 60000000⟩,
    ⟨.reserveShard call, 60000001, 60000001⟩, ⟨.finalizeShard call none, 60000002, 60000002⟩]

/-- Both claims and both halves of the upload commit, and the hypotheses on clock, tokens and hashes hold. -/
theorem lease_fencing_handover :
    LeaseFencing (.reference [.reference 1]) .unlimited handover "run" ∧
    (((machine (.reference [.reference 1]) .unlimited).log Db.empty handover).filter (finalizes "run" 0)).length = 1 := by
  refine ⟨lease_fencing (.reference [.reference 1]) .unlimited handover "run" ?_ (by decide +kernel)
    (injOn_of_forall_mem (by decide +kernel)) (injOn_of_forall_mem (by decide +kernel)), by decide +kernel⟩
  unfold Clocked
  decide +kernel

end AgentStorm.Results
