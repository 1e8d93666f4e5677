import AgentStorm.Foundation.Paging
import AgentStorm.Results.Reports
import AgentStorm.Results.Stored

/-!
# `Results.Listing` — the cases of a run, page by page

`ListCases` of `internal/results/postgres.go`, with its service function. Left open are the collation
of the database (`collate`, the sort keys of the texts) and the text of a cursor (`CursorCodec`).
`casePage_step`: a page holds all that is left of the run's cases, or the next call goes on behind the
last of them.
-/

namespace AgentStorm.Results

open Checks Relational Text

structure CaseCursor where
  caseID : String
  iteration : Int
  deriving DecidableEq

/-- Base64 of the cursor's JSON document. -/
structure CursorCodec where
  encode : CaseCursor → String
  decode : String → Option CaseCursor
  decode_encode : ∀ cursor, decode (encode cursor) = some cursor
  encode_ne : ∀ cursor, encode cursor ≠ ""

theorem CursorCodec.encode_injective (codec : CursorCodec) : Function.Injective codec.encode := by
  intro c c' h
  have hdecode := congrArg codec.decode h
  rw [codec.decode_encode, codec.decode_encode] at hdecode
  exact Option.some.inj hdecode

structure CasePage where
  cases : List CaseResult
  nextCursor : String

/-- The case that `rows.Scan` and the two `json.Unmarshal` calls read from a row. -/
def scanCase (row : CaseRow) : CaseResult where
  idempotencyKey := row.idempotencyKey
  caseID := row.caseID
  iteration := row.iteration
  success := row.success
  latencyMS := .finite row.latencyMS
  inputTokens := row.inputTokens
  outputTokens := row.outputTokens
  modelCallCount := row.modelCallCount
  toolCallCount := row.toolCallCount
  failureKind := row.failureKind
  failureCategory := row.failureCategory
  errorCode := row.errorCode
  attempts := row.attempts
  usageComplete := some row.usageComplete
  output := row.output
  error := row.error
  toolPath := row.toolPath
  assertions := row.assertions
  inputCostUSD := row.inputCostUSD.map floatString
  outputCostUSD := row.outputCostUSD.map floatString
  costUSD := row.costUSD.map floatString

/-! ## `ListCases` -/

section Query

variable {κ : Type} [LinearOrder κ] (collate : String ↪ κ) (codec : CursorCodec)

/-- `(case_id, iteration)`, as the query compares it. -/
def CaseCursor.key (cursor : CaseCursor) : κ ×ₗ Int := toLex (collate cursor.caseID, cursor.iteration)

def CaseRow.cursor (row : CaseRow) : CaseCursor := ⟨row.caseID, row.iteration⟩

/-- The position a call asks for; the empty cursor asks for the first page. -/
def readCursor (cursor : String) : Except ApiError (Option CaseCursor) :=
  if cursor = "" then .ok none
  else
    match codec.decode cursor with
    | some position => if position.caseID = "" then .error (.validation "invalid cursor") else .ok (some position)
    | none => .error (.validation "invalid cursor")

/-- The page after a position. -/
def casePage (rows : List CaseRow) (limit : Nat) (position : Option CaseCursor) : CasePage :=
  let page := Paging.page (fun row => row.cursor.key collate) limit (position.map (·.key collate)) rows
  ⟨page.items.map scanCase, (page.last?.map fun last => codec.encode last.cursor).getD ""⟩

def listCases (runID cursor : String) (limit : Nat) (failedOnly : Bool) (db : Db) : Except ApiError CasePage := do
  reject (db.run? runID).isNone .notFound
  let position ← readCursor codec cursor
  let rows := (caseRowsOf db runID).filter fun row => !failedOnly || !row.success
  return casePage collate codec rows limit position

def serviceListCases (runID cursor : String) (limit : Int) (failedOnly : Bool) (db : Db) : Except ApiError CasePage := do
  validateRunID runID
  let limit := if limit = 0 then 100 else limit
  invalid (decide (limit < 1 ∨ 500 < limit)) "limit must be between 1 and 500"
  listCases collate codec runID cursor limit.toNat failedOnly db

/-! ## The walk -/

variable {position : Option CaseCursor}

omit [LinearOrder κ] in
theorem CaseCursor.key_injective : Function.Injective (CaseCursor.key collate) := by
  intro c c' h
  obtain ⟨hcase, hiteration⟩ := Prod.mk.inj (toLex.injective h)
  exact CaseCursor.mk.injEq _ _ _ _ ▸ ⟨collate.injective hcase, hiteration⟩

/-- The rows beyond a position, in the order in which they are listed. -/
def casesAfter (rows : List CaseRow) (position : Option CaseCursor) : List CaseRow :=
  Paging.following (fun row => row.cursor.key collate) (position.map (·.key collate)) rows

/-- **One page.** It is the last one and holds all that is left, or it has the cursor of its last case. -/
theorem casePage_step {rows : List CaseRow} (hrows : (rows.map (·.cursor)).Nodup) {limit : Nat} (hlimit : 0 < limit)
    (position : Option CaseCursor) :
    ((casePage collate codec rows limit position).nextCursor = "" ∧
      (casePage collate codec rows limit position).cases = (casesAfter collate rows position).map scanCase) ∨
    ∃ last ∈ casesAfter collate rows position, ∃ items ≠ [],
      (casePage collate codec rows limit position).nextCursor = codec.encode last.cursor ∧
      (casePage collate codec rows limit position).cases = items.map scanCase ∧
      casesAfter collate rows position = items ++ casesAfter collate rows (some last.cursor) := by
  have hkeys : (rows.map fun row => row.cursor.key collate).Nodup := by
    have hmap := hrows.map (CaseCursor.key_injective collate)
    rwa [List.map_map] at hmap
  have hstep := @Paging.page_step _ _ _ _ (position.map (·.key collate)) _ hkeys _ hlimit
  rcases hstep with ⟨hnone, hitems⟩ | ⟨last, hlast, hmem, hne, hsplit⟩
  · left
    exact ⟨by rw [casePage, hnone]; rfl, by rw [casePage, hitems]; rfl⟩
  · right
    exact ⟨last, hmem, _, hne, by rw [casePage, hlast]; rfl, rfl, hsplit⟩

/-- A cursor that is issued is the one of the last case of its page. -/
theorem casePage_nextCursor {rows : List CaseRow} {limit : Nat} (hlimit : 0 < limit)
    (h : (casePage collate codec rows limit position).nextCursor ≠ "") :
    ∃ last ∈ rows, (casePage collate codec rows limit position).nextCursor = codec.encode last.cursor ∧
      (casePage collate codec rows limit position).cases.getLast? = some (scanCase last) := by
  unfold casePage at h ⊢
  dsimp only at h ⊢
  generalize hpage : Paging.page (fun row : CaseRow => row.cursor.key collate) limit (position.map (·.key collate)) rows =
    page at h ⊢
  cases hlast : page.last? with
  | none =>
    rw [hlast] at h
    exact absurd rfl h
  | some last =>
    obtain ⟨hitems, hmem⟩ := Paging.getLast?_items hlimit ((congrArg Paging.Page.last? hpage).trans hlast)
    rw [hpage] at hitems
    exact ⟨last, hmem, rfl, by rw [List.getLast?_map, hitems]; rfl⟩

variable {collate codec}

/-- A cursor with the name of a case is accepted, for the position it was built from. -/
theorem readCursor_encode {cursor : CaseCursor} (h : cursor.caseID ≠ "") :
    readCursor codec (codec.encode cursor) = .ok (some cursor) := by
  simp [readCursor, codec.decode_encode, if_neg (codec.encode_ne cursor), if_neg h]

/-- The rows that a filter lets through. -/
def filteredRows (db : Db) (runID : String) (failedOnly : Bool) : List CaseRow :=
  (caseRowsOf db runID).filter fun row => !failedOnly || !row.success

theorem filteredRows_false (db : Db) (runID : String) : filteredRows db runID false = caseRowsOf db runID :=
  List.filter_eq_self.mpr fun _ _ => rfl

/-- The service answers for the cursors it can read. -/
theorem serviceListCases_eq_ok {runID cursor : String} {limit : Int} {failedOnly : Bool} {db : Db} {page : CasePage}
    (hid : runIDPattern runID = true) (hrun : (db.run? runID).isSome = true) (hlimit : 1 ≤ limit ∧ limit ≤ 500) :
    serviceListCases collate codec runID cursor limit failedOnly db = .ok page ↔
      ∃ position, readCursor codec cursor = .ok position ∧
        casePage collate codec (filteredRows db runID failedOnly) limit.toNat position = page := by
  have hvalid : validateRunID runID = .ok () := by simpa [validateRunID] using hid
  have hrange : invalid (decide (limit < 1 ∨ 500 < limit)) "limit must be between 1 and 500" = .ok () := by
    rw [invalid_eq_ok, decide_eq_false_iff_not]
    omega
  have hexists : reject (db.run? runID).isNone ApiError.notFound = .ok () := by
    rw [reject_eq_ok, ← Option.not_isSome, hrun]
    rfl
  unfold serviceListCases
  rw [then_ok_iff, if_neg (by omega), then_ok_iff, listCases, then_ok_iff, bind_ok_iff]
  simp only [hvalid, hrange, hexists, true_and]
  exact exists_congr fun position => and_congr_right fun _ => ⟨Except.ok.inj, congrArg Except.ok⟩

theorem serviceListCases_eq {runID cursor : String} {limit : Int} {db : Db}
    (hid : runIDPattern runID = true) (hrun : (db.run? runID).isSome = true)
    (hlimit : 1 ≤ limit ∧ limit ≤ 500) (hcursor : readCursor codec cursor = .ok position) :
    serviceListCases collate codec runID cursor limit false db =
      .ok (casePage collate codec (caseRowsOf db runID) limit.toNat position) := by
  rw [serviceListCases_eq_ok hid hrun hlimit, filteredRows_false]
  exact ⟨position, hcursor, rfl⟩

/-! ## Following the cursors -/

variable (collate codec) in
/-- The pages from a cursor on, for as many calls as there is fuel. -/
def followCursors (runID : String) (limit : Int) (failedOnly : Bool) (db : Db) :
    Nat → String → Option (Except ApiError (List CasePage))
  | 0, _ => none
  | fuel + 1, cursor =>
    match serviceListCases collate codec runID cursor limit failedOnly db with
    | .error error => some (.error error)
    | .ok page =>
      if page.nextCursor = "" then some (.ok [page])
      else (followCursors runID limit failedOnly db fuel page.nextCursor).map fun rest => rest.map (page :: ·)

/-- **Every page.** The calls come to an end, and the pages hold what is listed beyond the position, in its order. -/
theorem followCursors_pages {runID : String} {limit : Int} {failedOnly : Bool} {db : Db}
    (hid : runIDPattern runID = true) (hrun : (db.run? runID).isSome = true)
    (hlimit : 1 ≤ limit ∧ limit ≤ 500)
    (hrows : ((filteredRows db runID failedOnly).map (·.cursor)).Nodup)
    (hnamed : ∀ row ∈ filteredRows db runID failedOnly, row.caseID ≠ "") {cursor : String}
    (hcursor : readCursor codec cursor = .ok position) :
    ∃ pages : List CasePage,
      pages.flatMap (·.cases) = (casesAfter collate (filteredRows db runID failedOnly) position).map scanCase ∧
      ∀ fuel, pages.length ≤ fuel →
        followCursors collate codec runID limit failedOnly db fuel cursor = some (.ok pages) := by
  -- each page takes rows off what is left
  induction hleft : (casesAfter collate (filteredRows db runID failedOnly) position).length using Nat.strong_induction_on
    generalizing cursor position with
  | _ left ih =>
    have hpage : serviceListCases collate codec runID cursor limit failedOnly db =
        .ok (casePage collate codec (filteredRows db runID failedOnly) limit.toNat position) :=
      (serviceListCases_eq_ok hid hrun hlimit).mpr ⟨position, hcursor, rfl⟩
    have hstep := casePage_step collate codec hrows (show 0 < limit.toNat by omega) position
    generalize casePage collate codec (filteredRows db runID failedOnly) limit.toNat position = page at hpage hstep
    rcases hstep with ⟨hnext, hcases⟩ | ⟨last, hlast, _, hne, hnext, hcases, hsplit⟩
    · refine ⟨[page], by rw [List.flatMap_singleton, hcases], fun fuel hfuel => ?_⟩
      obtain ⟨fuel, rfl⟩ : ∃ n, fuel = n + 1 := Nat.exists_eq_add_of_le' hfuel
      rw [followCursors, hpage]
      exact if_pos hnext
    · have hlength := congrArg List.length hsplit
      have hpos := List.length_pos_iff.mpr hne
      rw [List.length_append] at hlength
      have hname : last.cursor.caseID ≠ "" := hnamed last (Paging.mem_following.mp hlast).1
      obtain ⟨pages, hpages, hfollow⟩ := ih _ (by omega) (readCursor_encode hname) rfl
      refine ⟨page :: pages, ?_, fun fuel hfuel => ?_⟩
      · rw [List.flatMap_cons, hcases, hpages, hsplit, List.map_append]
      · obtain ⟨fuel, rfl⟩ : ∃ n, fuel = n + 1 := Nat.exists_eq_add_of_le' (Nat.le_trans (Nat.le_add_left 1 _) hfuel)
        rw [followCursors, hpage]
        show (if page.nextCursor = "" then _ else _) = _
        rw [if_neg (by rw [hnext]; exact codec.encode_ne _), hnext, hfollow fuel (Nat.le_of_succ_le_succ hfuel)]
        rfl

end Query

def serviceGetRun (runID : String) (db : Db) : Except ApiError RunDetail := do
  validateRunID runID
  getRun runID db

/-! ## Cases have names -/

theorem caseID_of_validateCases {P : Platform} {runID : String} {items : List CaseResult} {index : Nat}
    {seen : List (String × Int)} {totals totals' : Totals}
    (h : validateCases P runID index seen totals items = .ok totals') : ∀ item ∈ items, blank item.caseID = false := by
  induction items generalizing index seen totals with
  | nil => exact fun _ hitem => absurd hitem List.not_mem_nil
  | cons item items ih =>
    simp only [validateCases, then_ok_iff] at h
    obtain ⟨hcase, hbind⟩ := h
    obtain ⟨_, -, hrest⟩ := bind_ok_iff.mp hbind
    refine List.forall_mem_cons.mpr ⟨?_, ih hrest⟩
    simp only [validateCase, validateIdentity, then_ok_iff, invalid_eq_ok] at hcase
    exact hcase.1.1

/-- The name of a stored case is not empty, so that its cursor is not one for the first page. -/
theorem Uploaded.caseID_ne {P : Platform} {row : CaseRow} (h : Uploaded P row) : row.caseID ≠ "" := by
  obtain ⟨_, _, hvalid, hitem, hstored⟩ := h
  obtain ⟨raw, hraw, rfl⟩ := List.mem_map.mp hitem
  have hblank : blank raw.caseID = false := by
    simp only [UploadCall.validate, validateShard, then_ok_iff] at hvalid
    obtain ⟨-, -, -, -, -, -, hbind⟩ := hvalid
    obtain ⟨_, hcases, -⟩ := bind_ok_iff.mp hbind
    exact caseID_of_validateCases hcases raw hraw
  have hname : (normalizeCase raw).caseID = raw.caseID := by
    unfold normalizeCase
    dsimp only
    split <;> rfl
  rw [hstored.sameColumns.caseID_eq, hname]
  intro hempty
  rw [hempty] at hblank
  exact absurd hblank (by decide)

end AgentStorm.Results
