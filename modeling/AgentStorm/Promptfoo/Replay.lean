import AgentStorm.Results.Listing
import AgentStorm.Worker.Aggregation

/-!
# `Promptfoo.Replay` — reading the outputs of a run back

`integrations/promptfoo/client.py`: `list_all_cases` follows the cursors of the listing until there is
none, `completed_replay` asks for the output of every case. The documents are those of
`internal/results/http.go`, with the members the client reads. The worker leaves an empty output out,
the column is then null, and a null is missing to the client (`completed_replay_iff`).
-/

namespace AgentStorm.Promptfoo

open Checks Machine Python Results

abbrev Members := List (Text × Value)

/-! ## The client -/

/-- The messages of `ResultAPIError`. -/
inductive ResultAPIError
  | http (code : Nat)
  | requestFailed
  | nonObject
  | runIDRequired
  | missingCases
  | invalidCase
  | invalidCursor
  | repeatedCursor
  | notComplete (runID : String)
  | noCases (runID : String)
  /-- The first three cases without an output, by `case_id` and `iteration`. -/
  | outputUnavailable (runID : String) (preview : List (Option Value × Option Value))

inductive Raised
  | api (error : ResultAPIError)
  | python (error : Python.Error)

inductive Request
  | run (runID : String)
  | cases (runID : String) (limit : Int) (cursor : String)

section Client

variable (send : Request → Except ResultAPIError Value)

def get (request : Request) : Except Raised Members :=
  match send request with
  | .error error => .error (.api error)
  | .ok (.dict members) => .ok members
  | .ok _ => .error (.api .nonObject)

def quoteRunID (runID : String) : Except Raised Unit := reject (decide (runID = "")) (.api .runIDRequired)

def getRun (runID : String) : Except Raised Members := do
  quoteRunID runID
  get send (.run runID)

def asCase : Value → Except Raised Members
  | .dict members => .ok members
  | _ => .error (.api .invalidCase)

/-- `page.get("cases")`, as a list of objects. -/
def pageCases (page : Members) : Except Raised (List Members) :=
  match get? page "cases" with
  | some (.list items) => items.mapM asCase
  | _ => .error (.api .missingCases)

/-- The cursor of the next page, if there is one. A set has no unhashable members. -/
def nextCursor (seen : List Text) (page : Members) : Except Raised (Option Text) :=
  match get? page "next_cursor" with
  | none => .ok none
  | some .none => .ok none
  | some (.str cursor) =>
    if cursor = [] then .ok none
    else if cursor ∈ seen then .error (.api .repeatedCursor)
    else .ok (some cursor)
  | some (.list _) => .error (.python .type)
  | some (.dict _) => .error (.python .type)
  | some _ => .error (.api .invalidCursor)

/-- One turn of the loop: the cases of the page and the cursor to go on with. -/
def readPage (runID : String) (cursor : Text) (seen : List Text) : Except Raised (List Members × Option Text) := do
  quoteRunID runID
  let cursor ← orElse (encodable? cursor) (.python .value)
  let page ← get send (.cases runID 500 cursor)
  let cases ← pageCases page
  let next ← nextCursor seen page
  return (cases, next)

/-- `list_all_cases`, for as many pages as there is fuel. -/
def listAllCases (runID : String) : Nat → Text → List Text → List Members → Option (Except Raised (List Members))
  | 0, _, _, _ => none
  | fuel + 1, cursor, seen, cases =>
    match readPage send runID cursor seen with
    | .error error => some (.error error)
    | .ok (items, none) => some (.ok (cases ++ items))
    | .ok (items, some cursor) => listAllCases runID fuel cursor (cursor :: seen) (cases ++ items)

def isStr : Option Value → Bool
  | some (.str _) => true
  | _ => false

def isComplete (run : Members) : Bool :=
  match get? run "status" with
  | some (.str status) => decide (status = text "complete")
  | _ => false

/-- What `completed_replay` does with the cases. -/
def replayed (runID : String) (run : Members) (cases : List Members) : Except Raised (Members × List Members) := do
  reject cases.isEmpty (.api (.noCases runID))
  let missing := cases.filter fun item => !isStr (get? item "output")
  reject (!missing.isEmpty)
    (.api (.outputUnavailable runID ((missing.map fun item => (get? item "case_id", get? item "iteration")).take 3)))
  return (run, cases)

/-- `completed_replay`; `none` if the fuel does not suffice for its pages. -/
def completedReplay (runID : String) (fuel : Nat) : Option (Except Raised (Members × List Members)) :=
  match getRun send runID with
  | .error error => some (.error error)
  | .ok run =>
    if isComplete run then (listAllCases send runID fuel [] [] []).map fun cases => cases.bind (replayed runID run)
    else some (.error (.api (.notComplete runID)))

end Client

/-! ## The documents -/

/-- `writeServiceError` -/
def httpStatus : ApiError → Nat
  | .notFound => 404
  | .conflict => 409
  | .notReady => 409
  | .leaseLost => 409
  | .validation _ => 400
  | _ => 500

def runDocument (detail : RunDetail) : Value :=
  .dict [(text "id", .str (text detail.id)), (text "status", .str (text detail.status.text))]

/-- A case in a page; `output` is a pointer with `omitempty`. -/
def caseDocument (item : Results.CaseResult) : Members :=
  [(text "case_id", .str (text item.caseID)), (text "iteration", .int item.iteration)] ++
    (item.output.map fun output => (text "output", Value.str (text output))).toList

def pageMembers (page : CasePage) : Members :=
  [(text "cases", .list (page.cases.map fun item => .dict (caseDocument item)))] ++
    if page.nextCursor = "" then [] else [(text "next_cursor", .str (text page.nextCursor))]

section Server

variable {κ : Type} [LinearOrder κ] (collate : String ↪ κ) (codec : CursorCodec)

/-- The answers of the API over a database. -/
def serve (db : Db) : Request → Except ResultAPIError Value
  | .run runID =>
    match serviceGetRun runID db with
    | .ok detail => .ok (runDocument detail)
    | .error error => .error (.http (httpStatus error))
  | .cases runID limit cursor =>
    match serviceListCases collate codec runID cursor limit false db with
    | .ok page => .ok (.dict (pageMembers page))
    | .error error => .error (.http (httpStatus error))

end Server

theorem get?_caseDocument_output (item : Results.CaseResult) :
    get? (caseDocument item) "output" = item.output.map fun output => .str (text output) := by
  unfold caseDocument
  rw [get?_append, ← List.singleton_append, get?_append, get?_singleton, get?_singleton]
  cases item.output with
  | none => rfl
  | some =>
    rw [Option.map_some, Option.toList_some, get?_singleton]
    rfl

theorem get?_caseDocument_identity (item : Results.CaseResult) :
    get? (caseDocument item) "case_id" = some (.str (text item.caseID)) ∧
      get? (caseDocument item) "iteration" = some (.int item.iteration) := by
  have hother : ∀ key, key ≠ "output" → get? (item.output.map fun output => (text "output", Value.str (text output))).toList
      key = none := by
    intro key hkey
    cases item.output with
    | none => rfl
    | some =>
      rw [Option.map_some, Option.toList_some, get?_singleton, if_neg (Ne.symm hkey)]
  unfold caseDocument
  constructor
  · rw [get?_append, hother _ (by decide), ← List.singleton_append, get?_append, get?_singleton, get?_singleton]
    rfl
  · rw [get?_append, hother _ (by decide), ← List.singleton_append, get?_append, get?_singleton, get?_singleton]
    rfl

theorem pageCases_pageMembers (page : CasePage) : pageCases (pageMembers page) = .ok (page.cases.map caseDocument) := by
  have hcases : get? (pageMembers page) "cases" = some (.list (page.cases.map fun item => .dict (caseDocument item))) := by
    unfold pageMembers
    rw [get?_append, get?_singleton]
    split
    · rfl
    · rw [get?_singleton]
      rfl
  have hall : ∀ items : List Results.CaseResult, (items.map fun item => Value.dict (caseDocument item)).mapM asCase =
      Except.ok (items.map caseDocument) := by
    intro items
    induction items with
    | nil => rfl
    | cons item items ih =>
      rw [List.map_cons, List.mapM_cons, ih]
      rfl
  rw [pageCases, hcases]
  exact hall page.cases

theorem nextCursor_pageMembers (page : CasePage) {seen : List Text} (hseen : text page.nextCursor ∉ seen) :
    nextCursor seen (pageMembers page) =
      .ok (if page.nextCursor = "" then none else some (text page.nextCursor)) := by
  unfold nextCursor pageMembers
  rw [get?_append, get?_singleton]
  by_cases hempty : page.nextCursor = ""
  · rw [if_pos hempty, if_pos hempty]
    rfl
  · have hne : text page.nextCursor ≠ [] := fun heq => hempty (text_injective heq)
    rw [if_neg hempty, if_neg hempty, get?_singleton]
    simp [if_neg hne, if_neg hseen]

/-! ## Every page -/

section Pages

variable {κ : Type} [LinearOrder κ] {collate : String ↪ κ} {codec : CursorCodec} {db : Db} {runID : String}

/-- A run that the API can be asked about. -/
structure Readable (db : Db) (runID : String) : Prop where
  pattern : runIDPattern runID = true
  registered : (db.run? runID).isSome = true
  named : ∀ row ∈ caseRowsOf db runID, row.caseID ≠ ""

theorem Readable.quoteRunID_ok (h : Readable db runID) : quoteRunID runID = .ok () := by
  rw [quoteRunID, reject_eq_ok, decide_eq_false_iff_not]
  rintro rfl
  exact absurd h.pattern (by decide)

theorem nodup_cursors (db : Db) (runID : String) : ((caseRowsOf db runID).map (·.cursor)).Nodup := by
  have hinj : Function.Injective fun pair : String × Int => (⟨pair.1, pair.2⟩ : CaseCursor) := by
    intro pair pair' h
    exact Prod.ext (congrArg CaseCursor.caseID h) (congrArg CaseCursor.iteration h)
  have hmap := (nodup_caseRowsOf db runID).map hinj
  rwa [List.map_map] at hmap

theorem readPage_serve (h : Readable db runID) {cursor : String} {position : Option CaseCursor}
    (hcursor : readCursor codec cursor = .ok position) {seen : List Text}
    (hseen : text (casePage collate codec (caseRowsOf db runID) 500 position).nextCursor ∉ seen) :
    let page := casePage collate codec (caseRowsOf db runID) 500 position
    readPage (serve collate codec db) runID (text cursor) seen =
      .ok (page.cases.map caseDocument, if page.nextCursor = "" then none else some (text page.nextCursor)) := by
  intro page
  have hget : get (serve collate codec db) (.cases runID 500 cursor) = .ok (pageMembers page) := by
    have hpage : serviceListCases collate codec runID cursor 500 false db = .ok page :=
      serviceListCases_eq h.pattern h.registered (by decide) hcursor
    simp [get, serve, hpage]
  unfold readPage
  rw [then_ok_iff, encodable?_text]
  refine ⟨h.quoteRunID_ok, ?_⟩
  show (get (serve collate codec db) (.cases runID 500 cursor) >>= _) = _
  rw [hget]
  show (pageCases (pageMembers page) >>= _) = _
  rw [pageCases_pageMembers]
  show (nextCursor seen (pageMembers page) >>= _) = _
  rw [nextCursor_pageMembers page hseen]
  rfl

/-- What the client gets of a row. -/
def documentOf (row : CaseRow) : Members := caseDocument (scanCase row)

/-- **Every case is read once**, whatever the pages are. -/
theorem listAllCases_serve (h : Readable db runID) {fuel : Nat} {cursor : String} {position : Option CaseCursor}
    (hcursor : readCursor codec cursor = .ok position) {seen : List Text} (hempty : text "" ∉ seen)
    (hseen : ∀ row ∈ casesAfter collate (caseRowsOf db runID) position, text (codec.encode row.cursor) ∉ seen)
    (hfuel : (casesAfter collate (caseRowsOf db runID) position).length < fuel) (cases : List Members) :
    listAllCases (serve collate codec db) runID fuel (text cursor) seen cases =
      some (.ok (cases ++ (casesAfter collate (caseRowsOf db runID) position).map documentOf)) := by
  induction fuel generalizing cursor position seen cases with
  | zero => exact absurd hfuel (Nat.not_lt_zero _)
  | succ fuel ih =>
    have hstep := casePage_step collate codec (nodup_cursors db runID) (by decide : 0 < 500) position
    have hread := @readPage_serve κ _ collate codec db runID h cursor position hcursor seen
    generalize casePage collate codec (caseRowsOf db runID) 500 position = page at hstep hread
    unfold listAllCases
    rcases hstep with ⟨hnext, hcases⟩ | ⟨last, hlast, _, hne, hnext, hcases, hsplit⟩
    · rw [hread (by rwa [hnext]), hcases, if_pos hnext, List.map_map]
      rfl
    · rw [hread (by rw [hnext]; exact hseen last hlast), hcases, hnext, if_neg (codec.encode_ne _)]
      obtain ⟨hrow, -⟩ := Paging.mem_following.mp hlast
      have hnamed : last.cursor.caseID ≠ "" := h.named last hrow
      refine (ih (readCursor_encode hnamed) ?_ ?_ ?_ _).trans ?_
      · refine List.not_mem_cons_of_ne_of_not_mem (fun heq => ?_) hempty
        exact codec.encode_ne last.cursor (text_injective heq.symm)
      · -- a later case has another cursor
        intro row hrow
        refine List.not_mem_cons_of_ne_of_not_mem (fun heq => ?_) (hseen row ?_)
        · have hsame := codec.encode_injective (text_injective heq)
          have hlt := (Paging.mem_following.mp hrow).2 _ rfl
          rw [hsame] at hlt
          exact absurd hlt (lt_irrefl _)
        · rw [hsplit]
          exact List.mem_append_right _ hrow
      · have hlength := congrArg List.length hsplit
        have hpos := List.length_pos_iff.mpr hne
        rw [List.length_append] at hlength
        omega
      · rw [hsplit, List.map_append, List.append_assoc, List.map_map]
        rfl

theorem isStr_output (row : CaseRow) : isStr (get? (documentOf row) "output") = row.output.isSome := by
  rw [documentOf, get?_caseDocument_output]
  show isStr (row.output.map _) = _
  cases row.output <;> rfl

theorem replayed_eq_ok {run : Members} {rows : List CaseRow} {answer : Members × List Members} :
    replayed runID run (rows.map documentOf) = .ok answer ↔
      rows ≠ [] ∧ (∀ row ∈ rows, row.output.isSome = true) ∧ (run, rows.map documentOf) = answer := by
  have hmissing : ((rows.map documentOf).filter fun item => !isStr (get? item "output")).isEmpty = true ↔
      ∀ row ∈ rows, row.output.isSome = true := by
    simp [isStr_output]
  unfold replayed
  rw [then_ok_iff, then_ok_iff, reject_eq_ok, reject_eq_ok, Bool.not_eq_false', hmissing, List.isEmpty_eq_false_iff]
  refine and_congr (not_congr List.map_eq_nil_iff) (and_congr Iff.rfl ?_)
  exact ⟨Except.ok.inj, congrArg Except.ok⟩

/-- **A complete run is replayed from its rows.** -/
theorem completedReplay_serve (h : Readable db runID) {run : RunRow} (hrun : db.run? runID = some run)
    (hcomplete : run.status = .complete) :
    ∃ detail, ∀ fuel, (caseRowsOf db runID).length < fuel → completedReplay (serve collate codec db) runID fuel =
      some (replayed runID detail ((casesAfter collate (caseRowsOf db runID) none).map documentOf)) := by
  have hperm : (casesAfter collate (caseRowsOf db runID) none).Perm (caseRowsOf db runID) :=
    Paging.perm_following_none _
  have hdetail : ∃ detail, serviceGetRun runID db = .ok detail ∧ detail.status = .complete := by
    unfold serviceGetRun Results.getRun
    simp only [hrun, then_ok_iff]
    exact ⟨_, ⟨by simpa [validateRunID] using h.pattern, rfl⟩, hcomplete⟩
  obtain ⟨detail, hdetail, hstatus⟩ := hdetail
  refine ⟨[(text "id", .str (text detail.id)), (text "status", .str (text detail.status.text))], ?_⟩
  have hget : getRun (serve collate codec db) runID =
      .ok [(text "id", .str (text detail.id)), (text "status", .str (text detail.status.text))] := by
    unfold getRun
    rw [then_ok_iff]
    refine ⟨h.quoteRunID_ok, ?_⟩
    simp [get, serve, hdetail, runDocument]
  have hdone : isComplete [(text "id", .str (text detail.id)), (text "status", .str (text detail.status.text))] = true := by
    unfold isComplete
    rw [← List.singleton_append, get?_append, get?_singleton, get?_singleton, hstatus]
    rfl
  intro fuel hfuel
  have hlist := @listAllCases_serve κ _ collate codec db runID h fuel "" none rfl [] List.not_mem_nil
    (fun _ _ => List.not_mem_nil) (by rwa [hperm.length_eq]) []
  unfold completedReplay
  rw [hget]
  show (if isComplete _ then _ else _) = _
  rw [if_pos hdone, show ([] : Text) = text "" from rfl, hlist]
  rfl

/-- Every run that was registered can be read. -/
theorem readable_run {P : Platform} {policy : LimitPolicy} {es : List Txn}
    (h : (((machine P policy).run Db.empty es).run? runID).isSome = true) :
    Readable ((machine P policy).run Db.empty es) runID := by
  have hstanding : Standing P ((machine P policy).run Db.empty es) := standing_run es
  obtain ⟨run, hrun⟩ := Option.isSome_iff_exists.mp h
  obtain ⟨hmem, rfl⟩ := Db.run?_eq_some.mp hrun
  refine ⟨(hstanding.sound.runs run hmem).pattern, h, fun row hrow => ?_⟩
  exact (uploaded_run P policy es row (Relational.Table.mem_select.mp hrow).1).caseID_ne

/-! ## Any filter and limit -/

/-- What a client relies on that follows the cursors of a listing. -/
structure Paginates (collate : String ↪ κ) (codec : CursorCodec) (db : Db) (runID : String) (failedOnly : Bool)
    (limit : Int) : Prop where
  /-- The rows that pass the filter are listed, each once. -/
  listed : (casesAfter collate (filteredRows db runID failedOnly) none).Perm (filteredRows db runID failedOnly)
  increasing : (casesAfter collate (filteredRows db runID failedOnly) none).Pairwise
    fun row row' => row.cursor.key collate < row'.cursor.key collate
  /-- From the empty cursor on there are finitely many pages, which hold that list. -/
  pages : ∃ pages : List CasePage,
    pages.flatMap (·.cases) = (casesAfter collate (filteredRows db runID failedOnly) none).map scanCase ∧
    ∀ fuel, pages.length ≤ fuel → followCursors collate codec runID limit failedOnly db fuel "" = some (.ok pages)
  /-- A cursor, on whatever page, stands for the last case of the page, and is accepted. -/
  issued : ∀ cursor page, serviceListCases collate codec runID cursor limit failedOnly db = .ok page →
    page.nextCursor ≠ "" → ∃ last next, page.cases.getLast? = some last ∧
      readCursor codec page.nextCursor = .ok (some ⟨last.caseID, last.iteration⟩) ∧
      serviceListCases collate codec runID page.nextCursor limit failedOnly db = .ok next

theorem Readable.paginates (h : Readable db runID) {failedOnly : Bool} {limit : Int} (hlimit : 1 ≤ limit ∧ limit ≤ 500) :
    Paginates collate codec db runID failedOnly limit := by
  have hrows : ((filteredRows db runID failedOnly).map (·.cursor)).Nodup :=
    (nodup_cursors db runID).sublist (List.filter_sublist.map _)
  have hnamed : ∀ row ∈ filteredRows db runID failedOnly, row.caseID ≠ "" :=
    fun row hrow => h.named row (List.mem_filter.mp hrow).1
  refine ⟨Paging.perm_following_none _, Paging.pairwise_following ?_, ?_, ?_⟩
  · have hkeys := hrows.map (CaseCursor.key_injective collate)
    rwa [List.map_map] at hkeys
  · exact followCursors_pages h.pattern h.registered hlimit hrows hnamed rfl
  · intro cursor page hpage hnext
    obtain ⟨_, -, rfl⟩ := (serviceListCases_eq_ok h.pattern h.registered hlimit).mp hpage
    obtain ⟨last, hlast, hcursor, hcases⟩ := casePage_nextCursor collate codec (by omega) hnext
    have hread : readCursor codec (codec.encode last.cursor) = .ok (some last.cursor) := readCursor_encode (hnamed last hlast)
    rw [← hcursor] at hread
    exact ⟨scanCase last, _, hcases, hread,
      (serviceListCases_eq_ok h.pattern h.registered hlimit).mpr ⟨_, hread, rfl⟩⟩

end Pages

/-! ## From the worker to the client -/

variable {result : Worker.CaseResult}

/-- The item of a result, with its output. -/
structure Replays (result : Worker.CaseResult) (item : Members) : Prop where
  caseID : get? item "case_id" = some (.str (text result.caseID))
  iteration : get? item "iteration" = some (.int result.iteration)
  output : get? item "output" = some (.str (text result.output))

/-- What a row keeps of a result: an empty output is not kept. -/
structure Keeps (result : Worker.CaseResult) (row : CaseRow) : Prop where
  caseID_eq : row.caseID = result.caseID
  iteration_eq : row.iteration = result.iteration
  output_eq : row.output = if result.output ≠ "" then some result.output else none

variable {row : CaseRow}

theorem keeps_of_storedAs {P : Platform} {runID : String} {i : Nat}
    (h : StoredAs P runID i (normalizeCase (Worker.casePayload true runID result)) row) :
    Keeps result row := by
  obtain ⟨_, _, hnormal⟩ := Worker.normalizeCase_casePayload true runID result
  have hsame := h.sameColumns
  rw [hnormal] at hsame
  refine ⟨hsame.caseID_eq, hsame.iteration_eq, hsame.output_eq.trans ?_⟩
  simp [Worker.casePayload]

theorem Keeps.isSome_iff (h : Keeps result row) : row.output.isSome = true ↔ result.output ≠ "" := by
  rw [h.output_eq]
  by_cases hempty : result.output = ""
  · simp [hempty]
  · simp [hempty]

theorem Keeps.replays (h : Keeps result row) (hne : result.output ≠ "") :
    Replays result (documentOf row) := by
  obtain ⟨hid, hnumber⟩ := get?_caseDocument_identity (scanCase row)
  have houtput : row.output = some result.output := h.output_eq.trans (if_pos hne)
  refine ⟨hid.trans ?_, hnumber.trans ?_, (get?_caseDocument_output _).trans ?_⟩
  · exact congrArg (fun s => some (Value.str (text s))) h.caseID_eq
  · exact congrArg (fun n => some (Value.int n)) h.iteration_eq
  · exact congrArg (Option.map fun output => Value.str (text output)) houtput

theorem outputs_iff {results : List Worker.CaseResult} {rows : List CaseRow} (h : List.Forall₂ Keeps results rows) :
    (∀ row ∈ rows, row.output.isSome = true) ↔ ∀ result ∈ results, result.output ≠ "" := by
  induction h with
  | nil => simp
  | cons hkeeps _ ih => rw [List.forall_mem_cons, List.forall_mem_cons, hkeeps.isSome_iff, ih]

theorem forall₂_replays {results : List Worker.CaseResult} {rows : List CaseRow} (h : List.Forall₂ Keeps results rows)
    (hne : ∀ result ∈ results, result.output ≠ "") : List.Forall₂ Replays results (rows.map documentOf) := by
  induction h with
  | nil => exact .nil
  | cons hkeeps _ ih =>
    rw [List.forall_mem_cons] at hne
    exact .cons (hkeeps.replays hne.1) (ih hne.2)

/-- **Outputs are replayed**, each under the name of its case, exactly if the run has a case and no output is empty. The
    uploads of the run carry its results with their sensitive texts, and all its shards are complete. -/
theorem completed_replay_iff {κ : Type} [LinearOrder κ] (collate : String ↪ κ) (codec : CursorCodec) (P : Platform)
    (policy : LimitPolicy) (runID : String) (es : List Txn) (results : List Worker.CaseResult)
    (parts : List (List Worker.CaseResult)) (hdistinct : (results.map (·.identity)).Nodup)
    (hparts : parts.flatten.Perm results)
    (huploads : ∀ call ∈ uploadCalls es, call.runID = runID → Worker.Uploads true parts call)
    (hstatus : (((machine P policy).run Db.empty es).run? runID).map (fun run => (run.status, run.expectedShards)) =
      some (.complete, parts.length)) :
    (∃ detail order items, order.Perm results ∧ List.Forall₂ Replays order items ∧
      ∀ fuel, results.length < fuel →
        completedReplay (serve collate codec ((machine P policy).run Db.empty es)) runID fuel =
          some (.ok (detail, items))) ↔
      results ≠ [] ∧ ∀ result ∈ results, result.output ≠ "" := by
  have hstanding : Standing P ((machine P policy).run Db.empty es) := standing_run es
  obtain ⟨run, hrun, hpair⟩ := Option.map_eq_some_iff.mp hstatus
  have hreadable : Readable ((machine P policy).run Db.empty es) runID := readable_run (by rw [hrun]; rfl)
  obtain ⟨hcomplete, hexpected⟩ := Prod.mk.inj hpair
  obtain ⟨hmem, rfl⟩ := Db.run?_eq_some.mp hrun
  have hfull := (status_eq_iff.mp (hstanding.live run hmem).status_eq).1 hcomplete
  have hlast := (completedShards_eq_iff hstanding.sound hmem).mpr hfull
  obtain ⟨shown, hshown, hstored⟩ :=
    Worker.stored_parts ((hparts.map _).nodup_iff.mpr hdistinct) huploads (hlast.trans hexpected)
  generalize (machine P policy).run Db.empty es = db at *
  -- the listing is in another order than the uploads, and the results follow it
  have hkeeps : List.Forall₂ Keeps shown (caseRowsOf db run.id) := by
    refine hstored.imp fun result row hrow => ?_
    obtain ⟨i, hrow⟩ := hrow
    exact keeps_of_storedAs hrow
  have hsorted : (caseRowsOf db run.id).Perm (casesAfter collate (caseRowsOf db run.id) none) :=
    (Paging.perm_following_none _).symm
  have hlisted : (Relation.Comp (List.Forall₂ Keeps) List.Perm) shown (casesAfter collate (caseRowsOf db run.id) none) :=
    ⟨_, hkeeps, hsorted⟩
  rw [List.forall₂_comp_perm_eq_perm_comp_forall₂] at hlisted
  obtain ⟨order, horder, hkeeps⟩ := hlisted
  have hresults : order.Perm results := horder.symm.trans (hshown.trans hparts)
  have hlength : (caseRowsOf db run.id).length = results.length := by
    rw [hsorted.length_eq, ← hkeeps.length_eq, hresults.length_eq]
  obtain ⟨detail, hreplay⟩ := @completedReplay_serve κ _ collate codec db run.id hreadable run hrun hcomplete
  rw [hlength] at hreplay
  have hok : results ≠ [] ↔ casesAfter collate (caseRowsOf db run.id) none ≠ [] := by
    rw [← List.length_pos_iff, ← List.length_pos_iff, ← hkeeps.length_eq, hresults.length_eq]
  have houtputs := outputs_iff hkeeps
  rw [show (∀ result ∈ order, result.output ≠ "") ↔ ∀ result ∈ results, result.output ≠ "" from
    forall_congr' fun result => by rw [hresults.mem_iff]] at houtputs
  rw [hok, ← houtputs]
  constructor
  · rintro ⟨_, -, _, -, -, hanswer⟩
    have hsome := (hreplay _ (Nat.lt_succ_self _)).symm.trans (hanswer _ (Nat.lt_succ_self _))
    obtain ⟨hne, hall, -⟩ := replayed_eq_ok.mp (Option.some.inj hsome)
    exact ⟨hne, hall⟩
  · rintro ⟨hne, hall⟩
    refine ⟨detail, order, _, hresults, forall₂_replays hkeeps ?_, fun fuel hfuel => ?_⟩
    · exact (outputs_iff hkeeps).mp hall
    · rw [hreplay fuel hfuel, replayed_eq_ok.mpr ⟨hne, hall, rfl⟩]

/-- **Pagination is complete.** For a run of any history, either filter and every limit, the pages from the empty cursor on
    are finitely many and hold the rows that pass the filter, each once and in increasing order; every cursor is accepted
    for the position it was built from. The replay client gets the list of all cases. -/
theorem pagination_complete {κ : Type} [LinearOrder κ] (collate : String ↪ κ) (codec : CursorCodec) (P : Platform)
    (policy : LimitPolicy) (es : List Txn) (runID : String)
    (hrun : (((machine P policy).run Db.empty es).run? runID).isSome = true) :
    (∀ failedOnly limit, 1 ≤ limit ∧ limit ≤ 500 →
      Paginates collate codec ((machine P policy).run Db.empty es) runID failedOnly limit) ∧
    ∀ fuel, (caseRowsOf ((machine P policy).run Db.empty es) runID).length < fuel →
      listAllCases (serve collate codec ((machine P policy).run Db.empty es)) runID fuel [] [] [] = some (.ok
        ((casesAfter collate (filteredRows ((machine P policy).run Db.empty es) runID false) none).map documentOf)) := by
  have hreadable := readable_run hrun
  generalize (machine P policy).run Db.empty es = db at hreadable ⊢
  refine ⟨fun failedOnly limit hlimit => hreadable.paginates hlimit, fun fuel hfuel => ?_⟩
  have hperm : (casesAfter collate (caseRowsOf db runID) none).Perm (caseRowsOf db runID) := Paging.perm_following_none _
  rw [filteredRows_false]
  exact @listAllCases_serve κ _ collate codec db runID hreadable fuel "" none rfl [] List.not_mem_nil
    (fun _ _ => List.not_mem_nil) (by rwa [hperm.length_eq]) []

/-- A cursor as the sign of the iteration, its strokes, a dot and the case. -/
def encodeStrokes (cursor : CaseCursor) : String :=
  String.ofList ((if cursor.iteration < 0 then '-' else '+') ::
    (List.replicate cursor.iteration.natAbs '1' ++ '.' :: cursor.caseID.toList))

def decodeStrokes (s : String) : Option CaseCursor :=
  match s.toList with
  | sign :: rest =>
    let strokes : Int := (rest.takeWhile (· == '1')).length
    some ⟨String.ofList ((rest.dropWhile (· == '1')).drop 1), if sign = '-' then -strokes else strokes⟩
  | [] => none

theorem decodeStrokes_encodeStrokes (cursor : CaseCursor) : decodeStrokes (encodeStrokes cursor) = some cursor := by
  obtain ⟨_, iteration⟩ := cursor
  have htake : ∀ (n : Nat) (cs : List Char), (List.replicate n '1' ++ '.' :: cs).takeWhile (· == '1') =
      List.replicate n '1' := by
    intro n cs
    induction n with
    | zero => rfl
    | succ n ih => simp [List.replicate_succ, ih]
  have hdrop : ∀ (n : Nat) (cs : List Char), (List.replicate n '1' ++ '.' :: cs).dropWhile (· == '1') = '.' :: cs := by
    intro n cs
    induction n with
    | zero => rfl
    | succ n ih => simp [List.replicate_succ, ih]
  unfold decodeStrokes encodeStrokes
  rw [String.toList_ofList]
  dsimp only
  rw [htake, hdrop, List.length_replicate, List.drop_one, List.tail_cons, String.ofList_toList]
  by_cases hneg : iteration < 0
  · rw [if_pos hneg, if_pos rfl]
    congr 2
    omega
  · rw [if_neg hneg, if_neg (by decide)]
    congr 2
    omega

theorem encodeStrokes_ne (cursor : CaseCursor) : encodeStrokes cursor ≠ "" := by
  intro h
  have hchars := congrArg String.toList h
  rw [encodeStrokes, String.toList_ofList] at hchars
  exact List.cons_ne_nil _ _ hchars

def strokes : CursorCodec := ⟨encodeStrokes, decodeStrokes, decodeStrokes_encodeStrokes, encodeStrokes_ne⟩

/-- The upload of one result with its sensitive texts as shard `i`. -/
def sensitiveUpload (i : Nat) (result : Worker.CaseResult) : UploadCall :=
  .reference "run" i "" (Worker.shardPayload true "run" [result]
    (Worker.summarize [result] ⟨none, none, none⟩ Worker.fiveMillis))

/-- A run that has a shard for each of these results. -/
def uploadedResults (results : List Worker.CaseResult) : List Txn :=
  registerAt 0 "run" (.reference "suite" "indexed" results.length) :: results.zipIdx.flatMap fun (result, i) =>
    [⟨.reserveShard (sensitiveUpload i result), 1, 1⟩, ⟨.finalizeShard (sensitiveUpload i result) none, 2, 2⟩]

/-- The agent answers with an empty text, and there is nothing to judge. -/
def silentRun : Worker.CaseRun (fun _ => 0) none :=
  ⟨"case", 0, Worker.oneAttempt ⟨[], .ok ⟨"", some 1, some 0, some 1, none, "", none⟩⟩ (some []), _, rfl⟩

/-- The run of the silent agent is complete, and its output cannot be replayed. -/
theorem completed_replay_silent :
    let db := (machine (.reference []) .unlimited).run Db.empty (uploadedResults [silentRun.result])
    silentRun.result.success = true ∧ silentRun.result.output = "" ∧
      (db.run? "run").map (fun run => (run.status, run.expectedShards)) = some (.complete, 1) ∧
      (completedReplay (serve (.refl String) strokes db) "run" 2).map (fun answer => answer.isOk) = some false := by
  decide +kernel

/-- Two cases, on two pages or on one. -/
theorem pagination_complete_two_cases :
    let P := Platform.reference [.single "run" "first", .single "run" "second"]
    let db := (machine P .unlimited).run Db.empty (twoUploads (.single "run" "first") (.single "run" "second"))
    (caseRowsOf db "run").length = 2 ∧ Paginates (.refl String) strokes db "run" false 1 ∧
      Paginates (.refl String) strokes db "run" true 500 ∧
      listAllCases (serve (.refl String) strokes db) "run" 3 [] [] [] =
        some (.ok ((casesAfter (.refl String) (filteredRows db "run" false) none).map documentOf)) := by
  intro P db
  have hrows : (caseRowsOf db "run").length = 2 := by decide +kernel
  have h := pagination_complete (.refl String) strokes P .unlimited
    (twoUploads (.single "run" "first") (.single "run" "second")) "run" (by decide +kernel)
  exact ⟨hrows, h.1 false 1 (by decide), h.1 true 500 (by decide), h.2 3 (hrows.trans_lt (by decide))⟩

def outputText (item : Members) : Text :=
  match get? item "output" with
  | some (.str output) => output
  | _ => []

/-- The second iteration is in the first shard: the replay has them in the order of the listing. -/
theorem completed_replay_answered :
    let results := [Worker.unmeteredRun.result, Worker.answeredRun.result]
    let send := serve (.refl String) strokes ((machine (.reference []) .unlimited).run Db.empty (uploadedResults results))
    (∃ detail order items, order.Perm results ∧ List.Forall₂ Replays order items ∧
      ∀ fuel, 2 < fuel → completedReplay send "run" fuel = some (.ok (detail, items))) ∧
    (completedReplay send "run" 3).map (·.toOption.map fun answer => answer.2.map outputText) =
      some (some [text "42", text "ok"]) := by
  intro results send
  refine ⟨(completed_replay_iff (.refl String) strokes (.reference []) .unlimited "run" (uploadedResults results) results
    (results.map ([·])) (by decide +kernel) (List.Perm.refl _) ?_ (by decide +kernel)).mpr
    ⟨List.cons_ne_nil _ _, by decide +kernel⟩, by decide +kernel⟩
  intro call hcall _
  have hcalls : uploadCalls (uploadedResults results) =
    [sensitiveUpload 0 Worker.unmeteredRun.result, sensitiveUpload 0 Worker.unmeteredRun.result,
      sensitiveUpload 1 Worker.answeredRun.result, sensitiveUpload 1 Worker.answeredRun.result] := rfl
  rw [hcalls] at hcall
  simp only [List.mem_cons, List.not_mem_nil, or_false] at hcall
  rcases hcall with rfl | rfl | rfl | rfl <;> exact ⟨_, _, rfl, rfl⟩

end AgentStorm.Promptfoo
