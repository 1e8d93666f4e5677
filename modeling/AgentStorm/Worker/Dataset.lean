import AgentStorm.Foundation.Json
import AgentStorm.Foundation.PyJson
import AgentStorm.Foundation.PyText
import AgentStorm.Worker.Runner

/-!
# `Worker.Dataset` — the cases of a dataset file

`load_dataset` of `config.py` from the text of the file on: its lines, the object of each line, and the
checks on that object with their messages. JSON leaves every character from U+0020 on as it is, while
`splitlines` also ends a line at U+0085, U+2028 and U+2029 (`dataset_round_trip_iff`). `json.loads`,
`str`, `repr` and `float` are parameters (`DatasetReader`).
-/

namespace AgentStorm.Worker

open Checks Numeric Python

/-! ## Cases -/

/-- What an assertion is checked against, by its type. -/
inductive AssertionSpec
  | exact (value : Python.Text)
  | contains (value : Python.Text)
  | regex (pattern : Python.Text)
  /-- An object or a boolean. -/
  | jsonSchema (schema : Value)
  | toolPath (path : List Python.Text)
  | latency (maxMS : Float64)
  | python (entrypoint : Python.Text) (config : List (Python.Text × Value))

structure DatasetCase where
  caseID : Python.Text
  prompt : Python.Text
  expectedContains : Option Python.Text
  assertions : List AssertionSpec
  metadata : List (Python.Text × Value)

def DatasetCase.effectiveAssertions (case : DatasetCase) : List AssertionSpec :=
  (case.expectedContains.map AssertionSpec.contains).toList ++ case.assertions

inductive DatasetError
  /-- An exception of the standard library. -/
  | raised
  /-- `ValueError(message)` -/
  | invalid (message : String)
  deriving DecidableEq

structure DatasetReader where
  /-- `json.loads`; an error is the text of a `JSONDecodeError`, or nothing for any other exception. -/
  loads : List Char → Except (Option String) Value
  /-- `str(value)` of what is not a text. -/
  describe : Value → Python.Text
  repr : Python.Text → String
  /-- `float(n)`, or nothing if it overflows. -/
  toFloat : Int → Option Float64

abbrev JSONObject := List (Python.Text × Value)

/-! ## Assertions -/

/-- `value in {...}`: a list or a dictionary has no hash. -/
def assertionType? : Option Value → Except DatasetError (Option AssertionType)
  | some (.str s) => .ok ([.exact, .contains, .regex, .jsonSchema, .toolPath, .latency, .python].find?
      fun (type : AssertionType) => decide (text type.text = s))
  | some (.list _) => .error .raised
  | some (.dict _) => .error .raised
  | _ => .ok none

def allowedFields : AssertionType → List String
  | .exact => ["type", "value"]
  | .contains => ["type", "value"]
  | .regex => ["type", "pattern"]
  | .jsonSchema => ["type", "schema"]
  | .toolPath => ["type", "path"]
  | .latency => ["type", "max_ms"]
  | .python => ["type", "entrypoint", "config"]

def stringField (raw : JSONObject) (key : String) (error : DatasetError) : Except DatasetError Python.Text :=
  match get? raw key with
  | some (.str s) => .ok s
  | _ => .error error

/-- A list of strings none of which is empty. -/
def stringItems? : List Value → Option (List Python.Text)
  | [] => some []
  | .str s :: rest => if s.isEmpty then none else (stringItems? rest).map (s :: ·)
  | _ => none

/-- `entrypoint.count(":") == 1 and all(entrypoint.split(":"))` -/
def moduleFunction (entrypoint : Python.Text) : Bool :=
  let colon : CodePoint := 58
  decide (entrypoint.count colon = 1) && (entrypoint.splitOn colon).all (!·.isEmpty)

namespace DatasetReader

variable (R : DatasetReader)

/-- `float(max_ms)` of a positive number. -/
def maxMS (error : DatasetError) : Option Value → Except DatasetError Float64
  | some (.int n) => if n ≤ 0 then .error error else orElse (R.toFloat n) .raised
  | some (.float x) => if x.lt 0 || decide (x = .finite 0) then .error error else .ok x
  | _ => .error error

def assertionSpec (raw : JSONObject) (type : AssertionType) (number index : Nat) : Except DatasetError AssertionSpec :=
  let location := "dataset line " ++ toString number ++ " assertions[" ++ toString index ++ "]"
  match type with
  | .exact => do return .exact (← stringField raw "value" (.invalid (location ++ " value must be a string")))
  | .contains => do return .contains (← stringField raw "value" (.invalid (location ++ " value must be a string")))
  | .regex => do return .regex (← stringField raw "pattern" (.invalid (location ++ " pattern must be a string")))
  | .jsonSchema =>
    match get? raw "schema" with
    | some (.dict members) => .ok (.jsonSchema (.dict members))
    | some (.bool b) => .ok (.jsonSchema (.bool b))
    | _ => .error (.invalid (location ++ " schema must be an object or boolean"))
  | .toolPath => do
      let error := DatasetError.invalid (location ++ " path must be an array of non-empty strings")
      match get? raw "path" with
      | some (.list items) => return .toolPath (← orElse (stringItems? items) error)
      | _ => .error error
  | .latency => do return .latency (← R.maxMS (.invalid (location ++ " max_ms must be positive")) (get? raw "max_ms"))
  | .python => do
      let error := DatasetError.invalid (location ++ " entrypoint must use module:function")
      let entrypoint ← stringField raw "entrypoint" error
      reject (!moduleFunction entrypoint) error
      match (get? raw "config").getD (.dict []) with
      | .dict config => return .python entrypoint config
      | _ => .error (.invalid (location ++ " config must be an object"))

/-- The body of the loop over the declared assertions. -/
def assertion (number : Nat) (index : Nat) (value : Value) : Except DatasetError AssertionSpec := do
  let location := "dataset line " ++ toString number ++ " assertions[" ++ toString index ++ "]"
  match value with
  | .dict raw => do
      let type? ← assertionType? (get? raw "type")
      let type ← orElse type? (.invalid (location ++ " has unsupported type"))
      reject (raw.any fun member => !(allowedFields type).any fun key => decide (text key = member.1))
        (.invalid (location ++ " has unknown fields"))
      R.assertionSpec raw type number index
  | _ => .error (.invalid (location ++ " must be an object"))

def assertionsFrom (number : Nat) : Nat → List Value → Except DatasetError (List AssertionSpec)
  | _, [] => .ok []
  | index, item :: items => do
      let spec ← R.assertion number index item
      let specs ← assertionsFrom number (index + 1) items
      return spec :: specs

/-- `_assertions(raw.get("assertions"), line_number)` -/
def assertions (number : Nat) : Option Value → Except DatasetError (List AssertionSpec)
  | none => .ok []
  | some .none => .ok []
  | some (.list items) => R.assertionsFrom number 0 items
  | some _ => .error (.invalid ("dataset line " ++ toString number ++ " assertions must be an array"))

/-! ## Lines -/

def str : Value → Python.Text
  | .str s => s
  | value => R.describe value

/-- `str(raw.get("id") or f"case-{line_number}")` -/
def caseID (number : Nat) (raw : JSONObject) : Python.Text :=
  match (get? raw "id").filter truthy with
  | some value => R.str value
  | none => text ("case-" ++ toString number)

/-- `_optional_string` -/
def optionalString : Option Value → Option Python.Text
  | some (.str s) => if s.isEmpty then none else some s
  | _ => none

/-- `_metadata` -/
def metadata (raw : JSONObject) : List (Python.Text × Value) :=
  match get? raw "metadata" with
  | some (.dict members) => members
  | _ => []

def parseLine (number : Nat) (line : List Char) : Except DatasetError Value :=
  match R.loads line with
  | .ok raw => .ok raw
  | .error (some exc) => .error (.invalid ("invalid JSONL at line " ++ toString number ++ ": " ++ exc))
  | .error none => .error .raised

/-- `raw.get` is there for a dictionary only. -/
def asObject : Value → Except DatasetError JSONObject
  | .dict members => .ok members
  | _ => .error .raised

/-- The prompt, where it is a string and not blank. -/
def prompt? (raw : JSONObject) : Option Python.Text :=
  match get? raw "input" with
  | some (.str prompt) => if (strip prompt).isEmpty then none else some prompt
  | _ => none

def readCase (number : Nat) (seen : List Python.Text) (raw : JSONObject) : Except DatasetError DatasetCase := do
  let prompt ← orElse (prompt? raw) (.invalid ("dataset line " ++ toString number ++ " requires a non-empty string input"))
  let caseID := R.caseID number raw
  reject (decide (caseID ∈ seen))
    (.invalid ("duplicate dataset case id " ++ R.repr caseID ++ " at line " ++ toString number))
  let assertions ← R.assertions number (get? raw "assertions")
  return ⟨caseID, prompt, optionalString (get? raw "expected_contains"), assertions, metadata raw⟩

/-- The loop of `load_dataset` from line `number` on. -/
def loadLines : Nat → List Python.Text → List (List Char) → Except DatasetError (List DatasetCase)
  | _, _, [] => .ok []
  | number, seen, line :: lines =>
    if line.all Text.isPySpace then loadLines (number + 1) seen lines
    else do
      let value ← R.parseLine number line
      let raw ← asObject value
      let case ← R.readCase number seen raw
      let cases ← loadLines (number + 1) (case.caseID :: seen) lines
      return case :: cases

/-- `load_dataset` of a file with this text. -/
def loadDataset (file : List Char) : Except DatasetError (List DatasetCase) := do
  let cases ← R.loadLines 1 [] (splitlines (translateNewlines file))
  reject cases.isEmpty (.invalid "dataset contains no cases")
  return cases

end DatasetReader

/-! ## Writing a dataset -/

/-- A character of a string in `json.dumps(..., ensure_ascii=False)`. -/
def jsonEscape (c : Char) : List Char :=
  if c = '"' ∨ c = '\\' then ['\\', c]
  else if c = '\n' then ['\\', 'n']
  else if c = '\r' then ['\\', 'r']
  else if c = '\t' then ['\\', 't']
  else if c = Char.ofNat 12 then ['\\', 'f']
  else if c = Char.ofNat 8 then ['\\', 'b']
  else if c.toNat < 0x20 then Json.unicodeEscape c.toNat
  else [c]

/-- The separators that JSON leaves as they are. -/
def unescapedBoundary (c : Char) : Bool := c.toNat ∈ [0x85, 0x2028, 0x2029]

def idOpen : List Char := "\x7b\"id\": \"".toList
def inputOpen : List Char := "\", \"input\": \"".toList
def lineEnd : List Char := "\"\x7d".toList

/-- `json.dumps({"id": id, "input": input}, ensure_ascii=False)` -/
def caseLine (id input : String) : List Char :=
  idOpen ++ (id.toList.flatMap jsonEscape ++ (inputOpen ++ (input.toList.flatMap jsonEscape ++ lineEnd)))

/-- The file with these cases. -/
def datasetFile (cases : List (String × String)) : List Char := joinLines (cases.map fun case => caseLine case.1 case.2)

/-- The case of such a line. -/
def plainCase (id input : String) : DatasetCase := ⟨text id, text input, none, [], []⟩

/-- But for the two line separators this is the escaping that `Foundation.Json` reads. -/
theorem jsonEscape_eq (c : Char) : jsonEscape c = Json.escape false c ∨ (jsonEscape c = [c] ∧ 0x20 < c.toNat ∧ c ≠ '"' ∧ c ≠ '\\') := by
  by_cases hsep : c.toNat = 0x2028 ∨ c.toNat = 0x2029
  · right
    have hlow : 0x20 < c.toNat := by omega
    have hne : ∀ d : Char, d.toNat < 0x2028 → c ≠ d := by
      rintro d hd rfl
      omega
    refine ⟨?_, hlow, hne _ (by decide), hne _ (by decide)⟩
    have hcontrol : ¬c.toNat < 0x20 := by omega
    simp [jsonEscape, hne '"' (by decide), hne '\\' (by decide), hne '\n' (by decide), hne '\r' (by decide),
      hne '\t' (by decide), hne (Char.ofNat 12) (by decide), hne (Char.ofNat 8) (by decide), hcontrol]
  · left
    rw [not_or] at hsep
    unfold jsonEscape Json.escape
    simp only [hsep.1, hsep.2, Bool.false_eq_true, false_and, or_false]
    by_cases h8 : c = Char.ofNat 8
    · subst h8
      rfl
    · by_cases h12 : c = Char.ofNat 12
      · subst h12
        rfl
      · simp [h8, h12]

section Lexing

open Json Json.Lexer

theorem foldlM_jsonEscape (c : Char) (acc : List Char) (tokens : List Token) :
    (jsonEscape c).foldlM step ⟨.string acc none, tokens⟩ = some ⟨.string (c :: acc) none, tokens⟩ := by
  rcases jsonEscape_eq c with h | ⟨h, hlow, hquote, hslash⟩
  · rw [h, foldlM_escape]
  · rw [h]
    show (step ⟨.string acc none, tokens⟩ c).bind some = _
    have hcontrol : ¬c.toNat < 0x20 := by omega
    simp [step, hquote, hslash, hcontrol, flush]

theorem foldlM_jsonEscapes (cs acc : List Char) (tokens : List Token) :
    (cs.flatMap jsonEscape).foldlM step ⟨.string acc none, tokens⟩ = some ⟨.string (cs.reverse ++ acc) none, tokens⟩ := by
  induction cs generalizing acc with
  | nil => rfl
  | cons c cs ih =>
    rw [List.flatMap_cons, List.foldlM_append, foldlM_jsonEscape, Option.bind_eq_bind, Option.bind_some, ih,
      List.reverse_cons, List.append_assoc, List.singleton_append]

theorem foldlM_idOpen :
    idOpen.foldlM step ⟨.between, []⟩ = some ⟨.string [] none, [.colon, .string "id", .openObject]⟩ := rfl

theorem foldlM_inputOpen (acc : List Char) (tokens : List Token) :
    inputOpen.foldlM step ⟨.string acc none, tokens⟩ =
      some ⟨.string [] none, .colon :: .string "input" :: .comma :: .string (String.ofList acc.reverse) :: tokens⟩ := rfl

theorem foldlM_lineEnd (acc : List Char) (tokens : List Token) :
    lineEnd.foldlM step ⟨.string acc none, tokens⟩ =
      some ⟨.between, .closeObject :: .string (String.ofList acc.reverse) :: tokens⟩ := rfl

/-- The scanner up to a place inside the id. -/
theorem foldlM_inId (cs : List Char) :
    (idOpen ++ cs.flatMap jsonEscape).foldlM step ⟨.between, []⟩ =
      some ⟨.string cs.reverse none, [.colon, .string "id", .openObject]⟩ := by
  rw [List.foldlM_append, foldlM_idOpen, Option.bind_eq_bind, Option.bind_some, foldlM_jsonEscapes, List.append_nil]

/-- The scanner up to a place inside the input. -/
theorem foldlM_inInput (id : String) (cs : List Char) :
    (idOpen ++ (id.toList.flatMap jsonEscape ++ (inputOpen ++ cs.flatMap jsonEscape))).foldlM step ⟨.between, []⟩ =
      some ⟨.string cs.reverse none,
        [.colon, .string "input", .comma, .string id, .colon, .string "id", .openObject]⟩ := by
  rw [← List.append_assoc, List.foldlM_append, foldlM_inId, Option.bind_eq_bind, Option.bind_some, List.foldlM_append,
    foldlM_inputOpen, Option.bind_eq_bind, Option.bind_some, foldlM_jsonEscapes, List.append_nil, List.reverse_reverse,
    String.ofList_toList]

theorem lex_caseLine (id input : String) :
    lex (caseLine id input) = some [.openObject, .string "id", .colon, .string id, .comma, .string "input", .colon,
      .string input, .closeObject] := by
  have hsplit : caseLine id input = (idOpen ++ (id.toList.flatMap jsonEscape ++ (inputOpen ++
      input.toList.flatMap jsonEscape))) ++ lineEnd := by
    simp [caseLine]
  rw [lex, hsplit, List.foldlM_append, foldlM_inInput, Option.bind_eq_bind, Option.bind_some, foldlM_lineEnd,
    List.reverse_reverse, String.ofList_toList]
  rfl

theorem parse_caseLine (id input : String) :
    parse (caseLine id input) = some (.object [("id", .string id), ("input", .string input)]) := by
  rw [parse, lex_caseLine]
  rfl

/-- A text that ends inside a string is no document. -/
theorem parse_eq_none_of_inString {cs acc : List Char} {tokens : List Token}
    (h : cs.foldlM step ⟨.between, []⟩ = some ⟨.string acc none, tokens⟩) : parse cs = none := by
  rw [parse, lex, h]
  rfl

end Lexing

/-! ## Where a line is cut -/

variable {cs : List Char}

/-- Of the boundaries only three are written as they are. -/
theorem boundary_jsonEscape {c d : Char} (hd : d ∈ jsonEscape c) (hboundary : isLineBoundary d = true) :
    d = c ∧ jsonEscape c = [c] ∧ unescapedBoundary c = true := by
  have hnot : ∀ {cs : List Char}, cs.any isLineBoundary = false → d ∉ cs := by
    intro cs hcs hmem
    exact absurd hboundary (by simpa using List.any_eq_false.mp hcs d hmem)
  have hhex : ∀ n < 16, isLineBoundary (Json.hexDigit n) = false := by decide
  unfold jsonEscape at hd ⊢
  split at hd
  · rename_i hc
    rcases hc with rfl | rfl <;> exact absurd hd (hnot (by decide))
  split at hd
  · exact absurd hd (hnot (by decide))
  split at hd
  · exact absurd hd (hnot (by decide))
  split at hd
  · exact absurd hd (hnot (by decide))
  split at hd
  · exact absurd hd (hnot (by decide))
  split at hd
  · exact absurd hd (hnot (by decide))
  split at hd
  · refine absurd hd (hnot ?_)
    have hslash : isLineBoundary '\\' = false := by decide
    have hu : isLineBoundary 'u' = false := by decide
    have hdigit : ∀ n, isLineBoundary (Json.hexDigit (n % 16)) = false := fun n => hhex _ (Nat.mod_lt n (by decide))
    simp [Json.unicodeEscape, hslash, hu, hdigit]
  · rename_i hquote hn hr ht hf hb hcontrol
    obtain rfl := List.mem_singleton.mp hd
    refine ⟨rfl, by simp [hquote, hn, hr, ht, hf, hb, hcontrol], ?_⟩
    simp only [isLineBoundary, unescapedBoundary, List.mem_cons, List.not_mem_nil, or_false, decide_eq_true_eq] at hboundary ⊢
    omega

theorem whole_jsonEscapes (h : ∀ c ∈ cs, unescapedBoundary c = false) :
    ∀ d ∈ cs.flatMap jsonEscape, isLineBoundary d = false := by
  intro d hd
  obtain ⟨c, hc, hd⟩ := List.mem_flatMap.mp hd
  by_contra hboundary
  obtain ⟨-, -, hsep⟩ := boundary_jsonEscape hd (by simpa using hboundary)
  rw [h c hc] at hsep
  cases hsep

theorem return_not_mem_jsonEscapes (cs : List Char) : '\r' ∉ cs.flatMap jsonEscape := by
  intro hmem
  obtain ⟨c, -, hd⟩ := List.mem_flatMap.mp hmem
  obtain ⟨rfl, -, hsep⟩ := boundary_jsonEscape hd (by decide)
  exact absurd hsep (by decide)

theorem return_not_mem_caseLine (id input : String) : '\r' ∉ caseLine id input := by
  simp only [caseLine, List.mem_append, return_not_mem_jsonEscapes, false_or]
  decide

/-- Nothing in the texts of the case ends its line. -/
def Unbroken (case : String × String) : Prop :=
  (∀ c ∈ case.1.toList, unescapedBoundary c = false) ∧ ∀ c ∈ case.2.toList, unescapedBoundary c = false

instance (case : String × String) : Decidable (Unbroken case) := inferInstanceAs (Decidable (_ ∧ _))

theorem forall_of_any {p : Char → Bool} (h : cs.any p = false) : ∀ c ∈ cs, p c = false :=
  fun c hc => by simpa using List.any_eq_false.mp h c hc

theorem whole_frame : (∀ c ∈ idOpen, isLineBoundary c = false) ∧ (∀ c ∈ inputOpen, isLineBoundary c = false) ∧
    ∀ c ∈ lineEnd, isLineBoundary c = false :=
  ⟨forall_of_any rfl, forall_of_any rfl, forall_of_any rfl⟩

theorem wholeLine_caseLine {case : String × String} (h : Unbroken case) : WholeLine (caseLine case.1 case.2) := by
  constructor
  · exact List.cons_ne_nil _ _
  · simp only [caseLine, List.forall_mem_append]
    exact ⟨whole_frame.1, whole_jsonEscapes h.1, whole_frame.2.1, whole_jsonEscapes h.2, whole_frame.2.2⟩

/-- The first place where a text has an unescaped boundary. -/
theorem exists_first_boundary (h : ¬∀ c ∈ cs, unescapedBoundary c = false) :
    ∃ before c after, cs = before ++ c :: after ∧ (∀ d ∈ before, unescapedBoundary d = false) ∧ unescapedBoundary c = true := by
  push Not at h
  obtain ⟨c, hc, hsep⟩ := h
  have hsome : (cs.find? unescapedBoundary).isSome = true := by
    rw [List.find?_isSome]
    exact ⟨c, hc, by simpa using hsep⟩
  obtain ⟨d, hd⟩ := Option.isSome_iff_exists.mp hsome
  obtain ⟨hfound, before, after, rfl, hbefore⟩ := List.find?_eq_some_iff_append.mp hd
  exact ⟨before, d, after, rfl, fun a ha => by simpa using hbefore a ha, hfound⟩

theorem boundary_of_unescaped {c : Char} (h : unescapedBoundary c = true) :
    isLineBoundary c = true ∧ c ≠ '\r' ∧ jsonEscape c = [c] := by
  simp only [unescapedBoundary, List.mem_cons, List.not_mem_nil, or_false, decide_eq_true_eq] at h
  have hlow : 0x20 ≤ c.toNat := by omega
  have hne : ∀ d : Char, d.toNat < 0x80 → c ≠ d := by
    rintro d hd rfl
    omega
  have hboundary : isLineBoundary c = true := by
    simp only [isLineBoundary, List.mem_cons, List.not_mem_nil, or_false, decide_eq_true_eq]
    omega
  refine ⟨hboundary, hne _ (by decide), ?_⟩
  have hcontrol : ¬c.toNat < 0x20 := by omega
  simp [jsonEscape, hne '"' (by decide), hne '\\' (by decide), hne '\n' (by decide), hne '\r' (by decide),
    hne '\t' (by decide), hne (Char.ofNat 12) (by decide), hne (Char.ofNat 8) (by decide), hcontrol]

/-- A line with an unescaped boundary is cut inside one of its strings. -/
theorem caseLine_cut {case : String × String} (h : ¬Unbroken case) :
    ∃ piece c tail, caseLine case.1 case.2 = piece ++ c :: tail ∧ (∀ d ∈ piece, isLineBoundary d = false) ∧
      isLineBoundary c = true ∧ c ≠ '\r' ∧ Json.parse piece = none ∧ piece.all Text.isPySpace = false := by
  obtain ⟨id, input⟩ := case
  by_cases hid : ∀ c ∈ id.toList, unescapedBoundary c = false
  · have hinput : ¬∀ c ∈ input.toList, unescapedBoundary c = false := fun hall => h ⟨hid, hall⟩
    obtain ⟨before, c, after, hsplit, hbefore, hc⟩ := exists_first_boundary hinput
    obtain ⟨hboundary, hcr, hescape⟩ := boundary_of_unescaped hc
    refine ⟨idOpen ++ (id.toList.flatMap jsonEscape ++ (inputOpen ++ before.flatMap jsonEscape)), c,
      after.flatMap jsonEscape ++ lineEnd, ?_, ?_, hboundary, hcr, parse_eq_none_of_inString (foldlM_inInput id before), rfl⟩
    · simp [caseLine, hsplit, hescape]
    · simp only [List.forall_mem_append]
      exact ⟨whole_frame.1, whole_jsonEscapes hid, whole_frame.2.1, whole_jsonEscapes hbefore⟩
  · obtain ⟨before, c, after, hsplit, hbefore, hc⟩ := exists_first_boundary hid
    obtain ⟨hboundary, hcr, hescape⟩ := boundary_of_unescaped hc
    refine ⟨idOpen ++ before.flatMap jsonEscape, c,
      after.flatMap jsonEscape ++ (inputOpen ++ (input.toList.flatMap jsonEscape ++ lineEnd)), ?_, ?_, hboundary, hcr,
      parse_eq_none_of_inString (foldlM_inId before), rfl⟩
    · simp [caseLine, hsplit, hescape]
    · simp only [List.forall_mem_append]
      exact ⟨whole_frame.1, whole_jsonEscapes hbefore⟩

/-! ## The round trip -/

mutual
/-- The object of a JSON tree; `number` converts the literals. -/
def ofJson (number : String → Value) : Json.Value → Value
  | .null => .none
  | .bool b => .bool b
  | .number literal => number literal
  | .string s => .str (text s)
  | .array items => .list (ofItems number items)
  | .object members => .dict (ofMembers number members)

def ofItems (number : String → Value) : List Json.Value → List Value
  | [] => []
  | item :: items => ofJson number item :: ofItems number items

def ofMembers (number : String → Value) : List (String × Json.Value) → List (Python.Text × Value)
  | [] => []
  | member :: members => (text member.1, ofJson number member.2) :: ofMembers number members
end

/-- `json.loads` of texts without escaped surrogates. -/
def DatasetReader.standard (number : String → Value) (complaint : List Char → String) (describe : Value → Python.Text)
    (repr : Python.Text → String) (toFloat : Int → Option Float64) : DatasetReader where
  loads line := match Json.parse line with
    | some value => .ok (collapse (ofJson number value))
    | none => .error (some (complaint line))
  describe := describe
  repr := repr
  toFloat := toFloat

/-- What JSON was encoded is read again. -/
theorem loads_encode {number : String → Value} {complaint : List Char → String} {describe : Value → Python.Text}
    {repr : Python.Text → String} {toFloat : Int → Option Float64} {value : Json.Value} (h : value.Valid) :
    (DatasetReader.standard number complaint describe repr toFloat).loads (Json.encode false value) =
      .ok (collapse (ofJson number value)) := by
  simp [DatasetReader.standard, Json.parse_encode false h]

/-- A file of whole lines is read line by line. -/
theorem lines_joinLines {lines : List (List Char)} (h : ∀ line ∈ lines, WholeLine line) :
    splitlines (translateNewlines (joinLines lines)) = lines := by
  have hreturn : '\r' ∉ joinLines lines :=
    not_mem_joinLines (by decide) fun line hline hmem => absurd ((h line hline).2 _ hmem) (by decide)
  rw [translateNewlines_of_not_mem hreturn, splitlines_join h]

/-- The object of a written line. -/
def caseObject (case : String × String) : JSONObject := [(text "id", .str (text case.1)), (text "input", .str (text case.2))]

/-- What the round trip needs of `json.loads`. -/
structure ReadsCases (R : DatasetReader) : Prop where
  line : ∀ case : String × String, R.loads (caseLine case.1 case.2) = .ok (.dict (caseObject case))
  piece : ∀ cs, Json.parse cs = none → ∃ exc, R.loads cs = .error exc

theorem readsCases_standard (number : String → Value) (complaint : List Char → String) (describe : Value → Python.Text)
    (repr : Python.Text → String) (toFloat : Int → Option Float64) :
    ReadsCases (DatasetReader.standard number complaint describe repr toFloat) where
  line case := by
    have hkeys : ((caseObject case).map Prod.fst).Nodup := by
      have hne : text "id" ≠ text "input" := by decide
      simp [caseObject, hne]
    simp only [DatasetReader.standard, parse_caseLine]
    exact congrArg Except.ok (collapse_flat hkeys rfl)
  piece cs h := by
    simp only [DatasetReader.standard, h]
    exact ⟨_, rfl⟩

section RoundTrip

variable {R : DatasetReader}

theorem parseLine_caseLine (hR : ReadsCases R) (n : Nat) (case : String × String) :
    R.parseLine n (caseLine case.1 case.2) = .ok (.dict (caseObject case)) := by
  rw [DatasetReader.parseLine, hR.line]

theorem parseLine_piece (hR : ReadsCases R) (n : Nat) {cs : List Char} (h : Json.parse cs = none) :
    ∃ error, R.parseLine n cs = .error error := by
  obtain ⟨exc, hexc⟩ := hR.piece cs h
  rw [DatasetReader.parseLine, hexc]
  cases exc <;> exact ⟨_, rfl⟩

theorem readCase_caseObject (n : Nat) (seen : List Python.Text) {case : String × String} (hid : case.1 ≠ "")
    (hinput : Text.pyBlank case.2 = false) (hnew : text case.1 ∉ seen) :
    R.readCase n seen (caseObject case) = .ok (plainCase case.1 case.2) := by
  have hprompt : DatasetReader.prompt? (caseObject case) = some (text case.2) := by
    have hget : get? (caseObject case) "input" = some (.str (text case.2)) := rfl
    rw [DatasetReader.prompt?, hget]
    simp [isEmpty_strip_text, hinput]
  have hcase : R.caseID n (caseObject case) = text case.1 := by
    have hget : get? (caseObject case) "id" = some (.str (text case.1)) := rfl
    have htruthy : truthy (.str (text case.1)) = true := by simp [truthy, hid]
    rw [DatasetReader.caseID, hget, Option.filter_some, htruthy, if_pos rfl]
    rfl
  rw [DatasetReader.readCase, hprompt, hcase]
  simp only [orElse, decide_eq_false hnew]
  rfl

/-- Written lines are read one after the other. -/
theorem loadLines_caseLines (hR : ReadsCases R) (n : Nat) (seen : List Python.Text) (rest : List (List Char))
    {cases : List (String × String)} (hids : (cases.map Prod.fst).Nodup)
    (hcases : ∀ case ∈ cases, case.1 ≠ "" ∧ Text.pyBlank case.2 = false) (hseen : ∀ case ∈ cases, text case.1 ∉ seen) :
    R.loadLines n seen (cases.map (fun case => caseLine case.1 case.2) ++ rest) =
      (R.loadLines (n + cases.length) ((cases.map fun case => text case.1).reverse ++ seen) rest).map
        (cases.map (fun case => plainCase case.1 case.2) ++ ·) := by
  induction cases generalizing n seen with
  | nil =>
    show _ = Except.map id _
    rw [Except.map_id]
    rfl
  | cons case cases ih =>
    rw [List.map_cons, List.nodup_cons] at hids
    rw [List.forall_mem_cons] at hcases hseen
    have hseen' : ∀ other ∈ cases, text other.1 ∉ text case.1 :: seen := by
      intro other hother
      rw [List.mem_cons, not_or]
      refine ⟨fun heq => hids.1 ?_, hseen.2 other hother⟩
      exact List.mem_map.mpr ⟨other, hother, text_injective heq⟩
    have hline : (caseLine case.1 case.2).all Text.isPySpace = false := rfl
    have hlength : n + (case :: cases).length = n + 1 + cases.length := by
      rw [List.length_cons]
      omega
    have hreverse : (List.map (fun other => text other.1) (case :: cases)).reverse ++ seen =
        (cases.map fun other => text other.1).reverse ++ (text case.1 :: seen) := by
      rw [List.map_cons, List.reverse_cons, List.append_assoc, List.singleton_append]
    rw [hlength, hreverse, List.map_cons, List.cons_append, DatasetReader.loadLines, hline, if_neg Bool.false_ne_true,
      parseLine_caseLine hR]
    show (R.readCase n seen (caseObject case) >>= _) = _
    rw [readCase_caseObject n seen hcases.1.1 hcases.1.2 hseen.1]
    show (R.loadLines (n + 1) (text case.1 :: seen) _ >>= _) = _
    rw [ih (n + 1) (text case.1 :: seen) hids.2 hcases.2 hseen']
    cases R.loadLines (n + 1 + cases.length) ((cases.map fun other => text other.1).reverse ++ (text case.1 :: seen)) rest <;>
      rfl

/-- Behind lines that can be read, a piece that is no document makes the whole file unreadable. -/
theorem loadLines_cut (hR : ReadsCases R) {done : List (String × String)} {piece : List Char} {more : List (List Char)}
    (hids : (done.map Prod.fst).Nodup) (hdone : ∀ case ∈ done, case.1 ≠ "" ∧ Text.pyBlank case.2 = false)
    (hparse : Json.parse piece = none) (hblank : piece.all Text.isPySpace = false) :
    ∃ error, R.loadLines 1 [] (done.map (fun case => caseLine case.1 case.2) ++ piece :: more) = .error error := by
  obtain ⟨error, herror⟩ := parseLine_piece hR (1 + done.length) hparse
  refine ⟨error, ?_⟩
  rw [loadLines_caseLines hR 1 [] _ hids hdone fun _ _ => List.not_mem_nil, DatasetReader.loadLines, hblank,
    if_neg Bool.false_ne_true, herror]
  rfl

theorem loadDataset_iff_unbroken (hR : ReadsCases R) {cases : List (String × String)} (hne : cases ≠ [])
    (hids : (cases.map Prod.fst).Nodup) (hcases : ∀ case ∈ cases, case.1 ≠ "" ∧ Text.pyBlank case.2 = false) :
    R.loadDataset (datasetFile cases) = .ok (cases.map fun case => plainCase case.1 case.2) ↔
      ∀ case ∈ cases, Unbroken case := by
  have hreturn : translateNewlines (datasetFile cases) = datasetFile cases := by
    refine translateNewlines_of_not_mem (not_mem_joinLines (by decide) ?_)
    rw [List.forall_mem_map]
    exact fun case _ => return_not_mem_caseLine case.1 case.2
  rw [DatasetReader.loadDataset, hreturn]
  constructor
  · -- the first broken line is cut inside a string, and its piece is no document
    intro hok
    by_contra hbroken
    push Not at hbroken
    obtain ⟨broken, hmem, hbroken⟩ := hbroken
    have hsome : (cases.find? fun case => decide (¬Unbroken case)).isSome = true := by
      rw [List.find?_isSome]
      exact ⟨broken, hmem, decide_eq_true hbroken⟩
    obtain ⟨first, hfirst⟩ := Option.isSome_iff_exists.mp hsome
    obtain ⟨hcut, done, later, rfl, hdone⟩ := List.find?_eq_some_iff_append.mp hfirst
    obtain ⟨piece, c, tail, hline, hpiece, hc, hcr, hparse, hblank⟩ := caseLine_cut (of_decide_eq_true hcut)
    have hwhole : ∀ line ∈ done.map (fun case => caseLine case.1 case.2), WholeLine line := by
      rw [List.forall_mem_map]
      intro case hcase
      exact wholeLine_caseLine (by simpa using hdone case hcase)
    obtain ⟨more, hlines⟩ := @splitlines_join_cut _ (later.map fun case => caseLine case.1 case.2) piece tail c
      hwhole hpiece hc hcr
    have hfile : datasetFile (done ++ first :: later) = joinLines (done.map (fun case => caseLine case.1 case.2) ++
        (piece ++ c :: tail) :: later.map fun case => caseLine case.1 case.2) := by
      rw [datasetFile, List.map_append, List.map_cons, hline]
    rw [List.map_append] at hids
    obtain ⟨_, herror⟩ := @loadLines_cut R hR done piece more (List.Nodup.of_append_left hids)
      (fun case hcase => hcases case (List.mem_append_left _ hcase)) hparse hblank
    rw [hfile, hlines, herror] at hok
    cases hok
  · intro hwhole
    have hlines : splitlines (datasetFile cases) = cases.map fun case => caseLine case.1 case.2 := by
      refine splitlines_join ?_
      rw [List.forall_mem_map]
      exact fun case hcase => wholeLine_caseLine (hwhole case hcase)
    have hload := loadLines_caseLines hR 1 [] [] hids hcases fun _ _ => List.not_mem_nil
    rw [List.append_nil] at hload
    rw [hlines, hload]
    show (Except.ok (cases.map (fun case => plainCase case.1 case.2) ++ []) >>= _) = _
    have hnonempty : (cases.map fun case => plainCase case.1 case.2).isEmpty = false := by
      rw [List.isEmpty_map, List.isEmpty_eq_false_iff]
      exact hne
    rw [List.append_nil]
    show (reject (cases.map fun case => plainCase case.1 case.2).isEmpty _ >>= _) = _
    rw [hnonempty]
    rfl

end RoundTrip

/-- **A dataset is read back** exactly if no id and no input has one of the three separators that JSON leaves
    unescaped. -/
theorem dataset_round_trip_iff (number : String → Value) (complaint : List Char → String) (describe : Value → Python.Text)
    (repr : Python.Text → String) (toFloat : Int → Option Float64) {cases : List (String × String)} (hne : cases ≠ [])
    (hids : (cases.map Prod.fst).Nodup) (hcases : ∀ case ∈ cases, case.1 ≠ "" ∧ Text.pyBlank case.2 = false) :
    (DatasetReader.standard number complaint describe repr toFloat).loadDataset (datasetFile cases) =
        .ok (cases.map fun case => plainCase case.1 case.2) ↔
      ∀ case ∈ cases, Unbroken case :=
  loadDataset_iff_unbroken (readsCases_standard number complaint describe repr toFloat) hne hids hcases

def naturalLiteral (literal : String) : Value := .int (Nat.ofDigitChars 10 literal.toList 0)

/-- The reader of files whose numbers are natural numbers that a float represents; no message is told here. -/
def DatasetReader.plain : DatasetReader :=
  .standard naturalLiteral (fun _ => "") (fun _ => []) (fun _ => "") fun n => some (.finite n)

theorem dataset_round_trip_control :
    DatasetReader.plain.loadDataset (datasetFile [("a", "one\ntwo"), ("b", "\u00a0\"x\"")]) =
      .ok [plainCase "a" "one\ntwo", plainCase "b" "\u00a0\"x\""] := by
  have hcases : ∀ case ∈ [("a", "one\ntwo"), ("b", "\u00a0\"x\"")], case.1 ≠ "" ∧ Text.pyBlank case.2 = false := by
    decide +kernel
  refine (dataset_round_trip_iff _ _ _ _ _ (List.cons_ne_nil _ _) (by decide) hcases).mpr ?_
  intro case hcase
  rcases List.mem_pair.mp hcase with rfl | rfl
  · exact ⟨forall_of_any rfl, forall_of_any rfl⟩
  · exact ⟨forall_of_any rfl, forall_of_any rfl⟩

/-- A line separator in the input: the file is refused. -/
theorem dataset_round_trip_separator :
    (∀ case ∈ [("a", "one\u2028two")], case.1 ≠ "" ∧ Text.pyBlank case.2 = false) ∧
      DatasetReader.plain.loadDataset (datasetFile [("a", "one\u2028two")]) ≠ .ok [plainCase "a" "one\u2028two"] := by
  have hcases : ∀ case ∈ [("a", "one\u2028two")], case.1 ≠ "" ∧ Text.pyBlank case.2 = false := by decide +kernel
  refine ⟨hcases, fun hok => ?_⟩
  have hunbroken := (loadDataset_iff_unbroken (readsCases_standard _ _ _ _ _) (List.cons_ne_nil _ _) (by decide) hcases).mp hok
  have hseparator : Char.ofNat 0x2028 ∈ "one\u2028two".toList := by decide
  exact absurd ((hunbroken _ (List.mem_singleton_self _)).2 _ hseparator) (by decide)

end AgentStorm.Worker
