import AgentStorm.Results.Reference
import AgentStorm.Results.Upload

/-!
# `Results.Objects` — no complete receipt without its object

The object write sits between two transactions, and uploads of one shard race for one receipt. An
upload finalizes only after its own `Put` returned, and only a receipt that carries its own payload
hash. Object keys contain that hash, so a later write under the same key writes the same bytes.
`Backed` says this of a world.
-/

namespace AgentStorm.Results

open Checks Machine Relational Text

variable {P : Platform} {policy : LimitPolicy} {calls : List UploadCall} {w : World}

/-! ## Receipts that a commit completes -/

variable {t : Txn}

/-- A finalized upload leaves a row for each of its cases. -/
theorem Commit.case_rows {db db' : Db} (h : Commit P t db (.finalized true) db') {call : UploadCall}
    {pricing : Option RunPricing} (hop : t.op = .finalizeShard call pricing) :
    call.validate P = .ok () ∧ ∀ item ∈ call.document.cases, ∃ row ∈ db'.cases, RowOf call.runID item row := by
  cases h with
  | finalize _ _ _ _ _ _ hop' hvalid _ _ _ _ _ hstored hrefresh =>
    obtain ⟨rfl, -⟩ := Op.finalizeShard.inj (hop.symm.trans hop')
    refine ⟨hvalid, ?_⟩
    rw [(refreshAggregate_frame hrefresh).2.1]
    exact (insertCases_ok hstored).2.2.1
  | permit _ _ _ hanswer => cases hanswer

/-- A complete receipt was complete before, or belongs to the upload that was just finalized. -/
theorem Commit.complete_back {db db' : Db} {a : Answer} (h : Commit P t db a db') {s' : ReceiptRow}
    (hs' : s' ∈ db'.receipts) (hcomplete : s'.status = .complete) :
    (∃ s ∈ db.receipts, s.status = .complete ∧ SameReceipt s s') ∨
    ∃ call pricing, t.op = .finalizeShard call pricing ∧ call.validate P = .ok () ∧ call.runID = s'.runID ∧
      call.shardIndex.toNat = s'.shardIndex ∧ call.payloadHash P = s'.payloadHash ∧
      ∀ item ∈ call.document.cases, ∃ row ∈ db'.cases, RowOf call.runID item row := by
  rcases h.receipt_back hs' with ⟨s, hs, hsame⟩ | ⟨call, _, -, -, -, -, rfl⟩
  · cases hstatus : s.status with
    | complete => exact .inl ⟨s, hs, hstatus, hsame⟩
    | pending =>
      obtain ⟨rfl, call, pricing, hop, hrun, hindex, hhash⟩ := h.receipt_finished hs hs' hsame hstatus hcomplete
      obtain ⟨hvalid, hrows⟩ := h.case_rows hop
      exact .inr ⟨call, pricing, hop, hvalid, (hsame.runID_eq.trans hrun).symm, (hsame.index_eq.trans hindex).symm,
        (hsame.hash_eq.trans hhash).symm, hrows⟩
  · cases hcomplete

/-! ## The invariant -/

/-- The object of a call is stored. -/
def World.Holds (P : Platform) (w : World) (c : UploadCall) : Prop := w.objects (c.objectKey P) = some (c.body P)

/-- The call that completed a receipt, with what it left in both stores. -/
structure Backing (P : Platform) (w : World) (s : ReceiptRow) (c : UploadCall) : Prop where
  hash_eq : c.payloadHash P = s.payloadHash
  object_eq : c.objectKey P = s.objectKey
  holds : w.Holds P c
  rows : ∀ item ∈ c.document.cases, ∃ row ∈ w.db.cases, RowOf s.runID item row

/-- `calls` are the uploads of the history. -/
structure Backed (P : Platform) (calls : List UploadCall) (w : World) : Prop where
  sound : Sound P w.db
  flights : ∀ request f, w.flights request = some f → f.call ∈ calls ∧ (f.stored = true → w.Holds P f.call)
  receipts : ∀ s ∈ w.db.receipts, s.status = .complete → ∃ c ∈ calls, Backing P w s c

theorem backed_empty : Backed P calls World.empty :=
  ⟨sound_empty, fun _ _ h => (nomatch h), fun _ h => absurd h Table.not_mem_empty⟩

/-- A commit keeps the invariant if what it finalizes is stored. -/
theorem Backed.commit (h : Backed P calls w) {a : Answer} {db' : Db} (hcommit : Commit P t w.db a db')
    (hfinal : ∀ call pricing, t.op = .finalizeShard call pricing → call ∈ calls ∧ w.Holds P call) :
    Backed P calls { w with db := db' } := by
  have hsound : Sound P db' := h.sound.commit hcommit
  refine ⟨hsound, h.flights, ?_⟩
  intro s' hs' hcomplete
  rcases hcommit.complete_back hs' hcomplete with ⟨s, hs, hdone, hsame⟩ |
    ⟨call, pricing, hop, hvalid, hrun, hindex, hhash, hrows⟩
  · obtain ⟨c, hc, hbacking⟩ := h.receipts s hs hdone
    refine ⟨c, hc, hbacking.hash_eq.trans hsame.hash_eq.symm, hbacking.object_eq.trans hsame.objectKey_eq.symm,
      hbacking.holds, ?_⟩
    intro item hitem
    obtain ⟨row, hrow, hof⟩ := hbacking.rows item hitem
    exact ⟨row, hcommit.case_forth hrow, hsame.runID_eq ▸ hof⟩
  · obtain ⟨hcall, hholds⟩ := hfinal call pricing hop
    refine ⟨call, hcall, hhash, ?_, hholds, hrun ▸ hrows⟩
    rw [call_objectKey hvalid, hrun, hindex, hhash, (hsound.receipts s' hs').object]

theorem Backed.step_db (h : Backed P calls w) (hop : t.op.upload = false) :
    Backed P calls { w with db := (machine P policy).step w.db t } := by
  refine step_of_commit (Q := fun db => Backed P calls { w with db }) h fun hcommit => h.commit hcommit ?_
  intro call pricing hfinal
  rw [hfinal] at hop
  cases hop

theorem Backed.leave (h : Backed P calls w) (request : Nat) : Backed P calls (w.leave request) := by
  refine ⟨h.sound, fun other f hf => h.flights other f (World.flights_of_leave hf), fun s hs hc => ?_⟩
  obtain ⟨c, hc, hb⟩ := h.receipts s hs hc
  exact ⟨c, hc, hb.hash_eq, hb.object_eq, hb.holds, hb.rows⟩

theorem Backed.proceed (h : Backed P calls w) {request : Nat} {f : Flight} (hcall : f.call ∈ calls)
    (hstored : f.stored = true → w.Holds P f.call) : Backed P calls (w.proceed request f) := by
  refine ⟨h.sound, ?_, fun s hs hc => ?_⟩
  · intro other g hg
    rcases World.flights_of_proceed hg with rfl | hold
    · exact ⟨hcall, hstored⟩
    · exact h.flights other g hold
  · obtain ⟨c, hc, hb⟩ := h.receipts s hs hc
    exact ⟨c, hc, hb.hash_eq, hb.object_eq, hb.holds, hb.rows⟩

/-! ## Writes under one key -/

theorem World.holds_write (w : World) (c : UploadCall) : (w.write P c).Holds P c := Function.update_self _ _ _

/-- No two documents of the uploads share a digest. -/
def NoCollision (P : Platform) (calls : List UploadCall) : Prop :=
  ∀ c ∈ calls, ∀ c' ∈ calls, c.payloadHash P = c'.payloadHash P → c.payload P = c'.payload P

instance (P : Platform) (calls : List UploadCall) : Decidable (NoCollision P calls) :=
  inferInstanceAs (Decidable (∀ c ∈ calls, ∀ c' ∈ calls, _ → _))

/-- Calls whose documents hash alike store the same bytes, so a write takes no object away. -/
theorem World.Holds.write {c c' : UploadCall} (h : w.Holds P c) (hinj : NoCollision P calls) (hc : c ∈ calls)
    (hc' : c' ∈ calls) : (w.write P c').Holds P c := by
  by_cases hkey : c.objectKey P = c'.objectKey P
  · have hpayload : c.payload P = c'.payload P := hinj c hc c' hc' (objectKey_inj_hash hkey)
    have hbody : c.body P = c'.body P := congrArg P.gzip hpayload
    show Function.update w.objects (c'.objectKey P) (some (c'.body P)) (c.objectKey P) = some (c.body P)
    rw [hkey, Function.update_self, hbody]
  · exact (Function.update_of_ne hkey _ _).trans h

theorem Backed.write (h : Backed P calls w) (hinj : NoCollision P calls) {c : UploadCall} (hc : c ∈ calls) :
    Backed P calls (w.write P c) := by
  refine ⟨h.sound, ?_, ?_⟩
  · intro request f hf
    obtain ⟨hcall, hstored⟩ := h.flights request f hf
    exact ⟨hcall, fun hs => (hstored hs).write hinj hcall hc⟩
  · intro s hs hcomplete
    obtain ⟨c', hc', hb⟩ := h.receipts s hs hcomplete
    exact ⟨c', hc', hb.hash_eq, hb.object_eq, hb.holds.write hinj hc' hc, hb.rows⟩

/-! ## Histories -/

def Event.upload? : Event → Option UploadCall
  | .reserve _ call _ => some call
  | _ => none

/-- The uploads of a history. -/
def requested (es : List Event) : List UploadCall := es.filterMap Event.upload?

theorem Backed.step (h : Backed P calls w) (hinj : NoCollision P calls) {e : Event}
    (he : ∀ c, e.upload? = some c → c ∈ calls) :
    Backed P calls ((uploads P policy).step w e) := by
  rcases uploads_step (P := P) w e with heq | ⟨o, hprogress⟩
  · rw [heq]
    exact h
  · generalize (uploads P policy).step w e = w' at hprogress
    cases hprogress with
    | client t hop => exact h.step_db hop
    | refused => exact h
    | recognized _ _ _ _ _ _ hexec =>
      exact h.commit (commit_of_exec (step_reserve_ok policy hexec)) fun _ _ hop => (nomatch hop)
    | reserved _ call _ _ db _ hexec =>
      have hdb : Backed P calls { w with db := db } :=
        h.commit (commit_of_exec (step_reserve_ok policy hexec)) fun _ _ hop => (nomatch hop)
      exact hdb.proceed (he call rfl) fun hstored => (nomatch hstored)
    | stored request f hflight =>
      have hcall := (h.flights request f hflight).1
      exact (h.write hinj hcall).proceed hcall fun _ => w.holds_write f.call
    | lost request f written hflight =>
      have hcall := (h.flights request f hflight).1
      cases written with
      | true => exact (h.write hinj hcall).leave request
      | false => exact h.leave request
    | failed request => exact h.leave request
    | finalized request f _ _ _ _ hflight hstored hexec =>
      -- the upload that finalizes has been through its own `Put`
      obtain ⟨hcall, hholds⟩ := h.flights request f hflight
      refine (h.commit (commit_of_exec (step_finalize_ok policy hexec)) ?_).leave request
      intro call pricing hop
      obtain ⟨rfl, -⟩ := Op.finalizeShard.inj hop
      exact ⟨hcall, hholds hstored⟩
    | crashed request => exact h.leave request

theorem backed_run (policy : LimitPolicy) {es : List Event} (hinj : NoCollision P (requested es)) :
    Backed P (requested es) ((uploads P policy).run World.empty es) :=
  Transactional.run_invariant (fun e => ∀ c, e.upload? = some c → c ∈ requested es)
    (Backed P (requested es)) (fun _ _ he h => h.step hinj he) backed_empty es
    fun e he _ heq => List.mem_filterMap.mpr ⟨e, he, heq⟩

/-- **Object before receipt.** However uploads interleave and wherever they stop, a complete receipt has its object
    in the store, the object is the document the receipt's hash was taken of, and every case of it has its row. -/
theorem object_before_receipt (P : Platform) (policy : LimitPolicy) (es : List Event)
    (hgzip : ∀ c ∈ requested es, P.gunzip (P.gzip (c.payload P)) = some (c.payload P))
    (hjson : ∀ c ∈ requested es, P.unmarshalUpload (c.payload P) = some c.document)
    (hinj : NoCollision P (requested es)) :
    ∀ s ∈ ((uploads P policy).run World.empty es).db.receipts, s.status = .complete →
      ∃ object payload document,
        ((uploads P policy).run World.empty es).objects s.objectKey = some object ∧
        P.gunzip object = some payload ∧ P.sha256Hex payload = s.payloadHash ∧
        P.unmarshalUpload payload = some document ∧
        ∀ item ∈ document.cases, ∃ row ∈ ((uploads P policy).run World.empty es).db.cases,
          row.runID = s.runID ∧ row.caseID = item.caseID ∧ row.iteration = item.iteration ∧
          row.idempotencyKey = item.idempotencyKey := by
  intro s hs hcomplete
  obtain ⟨c, hc, hb⟩ := (backed_run policy hinj).receipts s hs hcomplete
  refine ⟨c.body P, c.payload P, c.document, ?_, hgzip c hc, hb.hash_eq, hjson c hc, ?_⟩
  · rw [← hb.object_eq]
    exact hb.holds
  · intro item hitem
    obtain ⟨row, hrow, hof⟩ := hb.rows item hitem
    exact ⟨row, hrow, hof.runID_eq, hof.caseID_eq, hof.iteration_eq, hof.key_eq⟩

/-- Two requests upload one document and a third another one; the write of the first reports an error and the third
    is refused. -/
def raceForReceipt : List Event :=
  [.client (registerAt 0 "run" (.reference "suite" "indexed" 1)),
    .reserve 0 (.reference "run" 0 "" (.single "run" "case")) 1,
    .reserve 1 (.reference "run" 0 "" (.single "run" "case")) 2,
    .put 1 .stored,
    .put 0 (.failed true),
    .reserve 2 (.reference "run" 0 "" (.reference 1)) 3,
    .finalize 1 4 4]

theorem object_before_receipt_race :
    ∃ s ∈ ((uploads (.reference [.single "run" "case", .reference 1]) .unlimited).run World.empty
        raceForReceipt).db.receipts.rows,
      s.status = .complete ∧
      ∃ object, ((uploads (.reference [.single "run" "case", .reference 1]) .unlimited).run World.empty
        raceForReceipt).objects s.objectKey = some object := by
  have hdone : ∃ s ∈ ((uploads (.reference [.single "run" "case", .reference 1]) .unlimited).run World.empty
      raceForReceipt).db.receipts.rows, s.status = .complete := by decide +kernel
  obtain ⟨s, hs, hcomplete⟩ := hdone
  obtain ⟨object, _, _, hobject, -⟩ :=
    object_before_receipt (.reference [.single "run" "case", .reference 1]) .unlimited raceForReceipt
      (by decide +kernel) (by decide +kernel) (by decide +kernel) s hs hcomplete
  exact ⟨s, hs, hcomplete, object, hobject⟩

end AgentStorm.Results
