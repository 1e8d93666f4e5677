import AgentStorm.Foundation.Checks
import AgentStorm.Foundation.PyJson
import AgentStorm.Foundation.PyText

/-!
# `Worker.Sanitizer` — what telemetry may say about a run

`ContentSanitizer` of `telemetry.py`: entries under keys that look like credentials are dropped at
every depth, strings pass the redaction patterns and are cut to 2048 bytes, and the rest is written as
JSON, to which patterns and cut are applied once more.

`forget` removes the dropped entries from a value, and `clean` returns the same for a value and for
what `forget` leaves of it (`clean_forget`). It is not enough that Python takes the rest for equal: the
order of the entries of a dictionary and the kind of a number are written (`sanitizer_equal_rest`).
Redaction patterns, `str.lower` and `repr` of a float are parameters.
-/

namespace AgentStorm.Worker

open Checks Numeric Python

/-! ## Values -/

/-- A Python object as far as the sanitizer looks at it. A key that is no string is `none`. -/
inductive Content
  | none
  | bool (b : Bool)
  | int (n : Int)
  | float (x : Float64)
  /-- The float `-0.0`. -/
  | negZero
  | str (s : Python.Text)
  | dict (members : List (Option Python.Text × Content))
  | list (items : List Content)
  | tuple (items : List Content)
  /-- An instance of any other class. -/
  | object

/-- The value of a finite number. -/
def Content.number? : Content → Option ℚ
  | .bool b => some (if b then 1 else 0)
  | .int n => some n
  | .float x => x.finite?
  | .negZero => some 0
  | _ => Option.none

mutual
/-- `a == b`: numbers are compared by value, and dictionaries entry by entry, in any order. Keys that are no strings are
    not compared. -/
def Content.equal : Content → Content → Bool
  | .none, .none => true
  | .str s, .str s' => s == s'
  | .list items, .list items' => equalItems items items'
  | .tuple items, .tuple items' => equalItems items items'
  | .dict members, .dict members' => decide (members.length = members'.length) && equalMembers members members'
  | .float .posInf, .float .posInf => true
  | .float .negInf, .float .negInf => true
  | a, b => a.number?.any fun q => decide (b.number? = some q)

def equalItems : List Content → List Content → Bool
  | [], [] => true
  | item :: items, item' :: items' => item.equal item' && equalItems items items'
  | _, _ => false

/-- Every entry of the first has an equal one in the second. -/
def equalMembers : List (Option Python.Text × Content) → List (Option Python.Text × Content) → Bool
  | [], _ => true
  | member :: members, members' =>
    (member.1.isSome && (members'.lookup member.1).any fun other => member.2.equal other) &&
      equalMembers members members'
end

structure ContentSanitizer where
  /-- `pattern.sub("[REDACTED]", value)`, pattern by pattern. -/
  patterns : List (Python.Text → Python.Text)
  /-- `str.lower` -/
  lower : Python.Text → Python.Text
  formatFloat : ℚ → String

def sensitiveKeySuffixes : List String :=
  ["apikey", "auth", "authorization", "cookie", "credential", "credentials", "passphrase", "password", "privatekey",
    "secret", "sessionid", "token"]

def maxContentBytes : Nat := 2048

/-- `[a-z0-9]` -/
def keptInKey (c : CodePoint) : Bool := (97 ≤ c.val && c.val ≤ 122) || (48 ≤ c.val && c.val ≤ 57)

namespace ContentSanitizer

variable (S : ContentSanitizer)

/-- `_sensitive_key` -/
def sensitiveKey (value : Python.Text) : Bool :=
  let normalized := (S.lower value).filter keptInKey
  sensitiveKeySuffixes.any fun suffix => (text suffix).isSuffixOf normalized

/-- A text with a lone surrogate has no encoding. -/
def string (value : Python.Text) : Except Error Python.Text := do
  let value := S.patterns.foldl (fun value pattern => pattern value) value
  let encoded ← orElse ((encodable? value).map Text.bytes) .value
  if encoded.length ≤ maxContentBytes then return value
  else return text (decodeIgnore (encoded.take maxContentBytes))

mutual
/-- `_clean`; `none` is `_UNSUPPORTED`. -/
def clean : Content → Except Error (Option Value)
  | .none => .ok (some .none)
  | .bool b => .ok (some (.bool b))
  | .int n => .ok (some (.int n))
  | .float x => .ok (some (.float x))
  | .negZero => .ok (some .negZero)
  | .str s => do return some (.str (← S.string s))
  | .dict members => do return some (.dict (← cleanMembers members []))
  | .list items => do return some (.list (← cleanItems items))
  | .tuple items => do return some (.list (← cleanItems items))
  | .object => .ok none

/-- The loop over the entries of a dictionary. -/
def cleanMembers : List (Option Python.Text × Content) → List (Python.Text × Value) →
    Except Error (List (Python.Text × Value))
  | [], cleaned => .ok cleaned
  | member :: members, cleaned =>
    match member.1.filter (!S.sensitiveKey ·) with
    | none => cleanMembers members cleaned
    | some key => do
        match ← clean member.2 with
        | none => cleanMembers members cleaned
        | some sanitized => cleanMembers members (Dict.set key sanitized cleaned)

def cleanItems : List Content → Except Error (List Value)
  | [] => .ok []
  | item :: items => do
      let sanitized ← clean item
      let rest ← cleanItems items
      return sanitized.toList ++ rest
end

mutual
/-- No integer has more digits than `str` converts. -/
def writable : Value → Bool
  | .int n => decide (n.natAbs < 10 ^ maxStrDigits)
  | .list items => writableItems items
  | .dict members => writableMembers members
  | _ => true

def writableItems : List Value → Bool
  | [] => true
  | item :: items => writable item && writableItems items

def writableMembers : List (Python.Text × Value) → Bool
  | [] => true
  | member :: members => writable member.2 && writableMembers members
end

/-- `json.dumps`; a `TypeError` or `ValueError` is `none`. -/
def rendered (cleaned : Value) : Option Python.Text := if writable cleaned then dumps S.formatFloat cleaned else none

def content (value : Content) : Except Error (Option Python.Text) :=
  match value with
  | .str s => do return some (← S.string s)
  | value => do
      let cleaned ← S.clean value
      match cleaned.bind S.rendered with
      | none => return none
      | some json => return some (← S.string json)

/-! ## Without the sensitive entries -/

mutual
/-- The value without the entries under sensitive keys, at all depths. -/
def forget : Content → Content
  | .dict members => .dict (forgetMembers members)
  | .list items => .list (forgetItems items)
  | .tuple items => .tuple (forgetItems items)
  | value => value

def forgetMembers : List (Option Python.Text × Content) → List (Option Python.Text × Content)
  | [] => []
  | member :: members =>
    if member.1.any S.sensitiveKey then forgetMembers members else (member.1, forget member.2) :: forgetMembers members

def forgetItems : List Content → List Content
  | [] => []
  | item :: items => forget item :: forgetItems items
end

mutual
theorem clean_forget (value : Content) : S.clean (S.forget value) = S.clean value := by
  cases value with
  | dict members => rw [forget, clean, clean, cleanMembers_forget members]
  | list items => rw [forget, clean, clean, cleanItems_forget items]
  | tuple items => rw [forget, clean, clean, cleanItems_forget items]
  | _ => rfl

theorem cleanMembers_forget (members : List (Option Python.Text × Content)) (cleaned : List (Python.Text × Value)) :
    S.cleanMembers (S.forgetMembers members) cleaned = S.cleanMembers members cleaned := by
  cases members with
  | nil => rfl
  | cons member members =>
    obtain ⟨key, value⟩ := member
    have hrest := cleanMembers_forget members
    have hvalue := clean_forget value
    cases key with
    | none =>
      show S.cleanMembers (S.forgetMembers members) cleaned = S.cleanMembers members cleaned
      exact hrest cleaned
    | some key =>
      by_cases hsensitive : S.sensitiveKey key = true
      · simp only [forgetMembers, cleanMembers, Option.any_some, Option.filter_some, hsensitive, if_true, Bool.not_true,
          Bool.false_eq_true, if_false]
        exact hrest cleaned
      · simp [forgetMembers, cleanMembers, hsensitive, hvalue, hrest]

theorem cleanItems_forget (items : List Content) : S.cleanItems (S.forgetItems items) = S.cleanItems items := by
  cases items with
  | nil => rfl
  | cons item items => rw [forgetItems, cleanItems, cleanItems, clean_forget item, cleanItems_forget items]
end

theorem content_forget (value : Content) : S.content (S.forget value) = S.content value := by
  have hclean := S.clean_forget value
  cases value with
  | dict members =>
    show (S.clean (S.forget (.dict members)) >>= _) = (S.clean (.dict members) >>= _)
    rw [hclean]
  | list items =>
    show (S.clean (S.forget (.list items)) >>= _) = (S.clean (.list items) >>= _)
    rw [hclean]
  | tuple items =>
    show (S.clean (S.forget (.tuple items)) >>= _) = (S.clean (.tuple items) >>= _)
    rw [hclean]
  | _ => rfl

/-! ## Sizes -/

variable {S}

theorem string_ok {value result : Python.Text} (h : S.string value = .ok result) :
    ∃ s : String, result = text s ∧ s.utf8ByteSize ≤ maxContentBytes := by
  obtain ⟨_, hencoded, h⟩ := bind_ok_iff.mp h
  obtain ⟨s, hs, rfl⟩ := Option.map_eq_some_iff.mp (orElse_eq_ok.mp hencoded)
  split at h
  · rename_i hsmall
    cases h
    exact ⟨s, eq_text_of_encodable? hs, hsmall⟩
  · cases h
    exact ⟨_, rfl, (length_decodeIgnore_le _).trans (List.length_take_le _ _)⟩

theorem content_ok {value : Content} {result : Python.Text} (h : S.content value = .ok (some result)) :
    ∃ s : String, result = text s ∧ s.utf8ByteSize ≤ maxContentBytes := by
  unfold content at h
  split at h
  · obtain ⟨rendered, hrendered, h⟩ := bind_ok_iff.mp h
    cases Except.ok.inj h
    exact string_ok hrendered
  · obtain ⟨_, -, h⟩ := bind_ok_iff.mp h
    split at h
    · cases Except.ok.inj h
    · obtain ⟨_, hrendered, h⟩ := bind_ok_iff.mp h
      cases Except.ok.inj h
      exact string_ok hrendered

end ContentSanitizer

/-- **Sensitive values cannot influence telemetry content**, and what is written is a text of at most 2048 bytes. The
    rest of the two values is the same, with the entries of its dictionaries in one order and each number of one kind. -/
theorem sanitizer_noninterference (S : ContentSanitizer) {value other : Content} (h : S.forget value = S.forget other) :
    S.content value = S.content other ∧
      ∀ result, S.content value = .ok (some result) → ∃ s : String, result = text s ∧ s.utf8ByteSize ≤ 2048 := by
  refine ⟨?_, fun result hresult => ContentSanitizer.content_ok hresult⟩
  rw [← S.content_forget value, h, S.content_forget other]

/-- Lower case for the letters of ASCII, and one redaction. -/
def ContentSanitizer.plain : ContentSanitizer where
  patterns := [fun value => if value = text "secret" then text "[REDACTED]" else value]
  lower := fun value => value.map fun c => if 65 ≤ c.val ∧ c.val ≤ 90 then Fin.ofNat 0x110000 (c.val + 32) else c
  formatFloat := fun q => if q.den = 1 then toString q.num ++ ".0" else "0.5"

/-- The arguments of a tool call, with a credential two levels down. -/
def toolArguments (credential : String) : Content :=
  .dict [(some (text "query"), .str (text "secret")),
    (some (text "auth"), .tuple [.int 1, .str (text credential)]),
    (some (text "hops"), .list [.dict [(some (text "X-API-Key"), .str (text credential)), (some (text "ok"), .bool true)]])]

theorem sanitizer_noninterference_toolArguments :
    ContentSanitizer.plain.content (toolArguments "k-1") = ContentSanitizer.plain.content (toolArguments "k-22") ∧
      ContentSanitizer.plain.content (toolArguments "k-1") =
        .ok (some (text "\x7b\"query\":\"[REDACTED]\",\"hops\":[\x7b\"ok\":true\x7d]\x7d")) := by
  have hforget : ContentSanitizer.plain.forget (toolArguments "k-1") =
    ContentSanitizer.plain.forget (toolArguments "k-22") := rfl
  exact ⟨(sanitizer_noninterference _ hforget).1, by decide +kernel⟩

/-- **Equal values may be written differently.** Nothing in them is sensitive, and Python takes them for equal: the same
    entries in another order, an integer and a float of one value, and the two zeros. -/
theorem sanitizer_equal_rest :
    let pairs : List (Content × Content) :=
      [(.dict [(some (text "a"), .int 1), (some (text "b"), .int 2)],
          .dict [(some (text "b"), .int 2), (some (text "a"), .int 1)]),
        (.dict [(some (text "a"), .int 1)], .dict [(some (text "a"), .float (.finite 1))]),
        (.dict [(some (text "a"), .float (.finite 0))], .dict [(some (text "a"), .negZero)])]
    ∀ pair ∈ pairs,
      (ContentSanitizer.plain.forget pair.1).equal (ContentSanitizer.plain.forget pair.2) = true ∧
        ContentSanitizer.plain.content pair.1 ≠ ContentSanitizer.plain.content pair.2 := by
  decide +kernel

end AgentStorm.Worker
