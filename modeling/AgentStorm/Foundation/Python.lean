import AgentStorm.Foundation.Numeric

/-!
# `Foundation.Python` — the values `json.loads` returns

A text is a list of code points, since a JSON escape can leave a lone surrogate in it. What the interpreter contributes,
the parser and the conversions between numbers and texts, is a parameter (`Runtime`); `int` has the cases that raise.
-/

namespace Python

open Numeric

abbrev CodePoint := Fin 0x110000

abbrev Text := List CodePoint

instance neZeroCodePoints : NeZero 0x110000 := ⟨by decide⟩

instance lawfulBEqText : LawfulBEq Text := inferInstance

def text (s : String) : Text := s.toList.map fun c => Fin.ofNat 0x110000 c.toNat

/-- The text as it can be encoded; a lone surrogate cannot be. -/
def encodable? (s : Text) : Option String :=
  (s.mapM fun (c : CodePoint) => if c.val.isValidChar then some (Char.ofNat c.val) else none).map String.ofList

/-- Every character is a code point. -/
theorem val_ofNat_toNat (c : Char) : (Fin.ofNat 0x110000 c.toNat).val = c.toNat := by
  have hvalid : c.toNat.isValidChar := c.valid
  refine Nat.mod_eq_of_lt ?_
  rcases hvalid with h | h
  · exact Nat.lt_trans h (by decide)
  · exact h.2

@[simp] theorem encodable?_text (s : String) : encodable? (text s) = some s := by
  have hchar : ∀ c : Char, (if (Fin.ofNat 0x110000 c.toNat).val.isValidChar then
      some (Char.ofNat (Fin.ofNat 0x110000 c.toNat).val) else none) = some c := by
    intro c
    have hvalid : c.toNat.isValidChar := c.valid
    rw [val_ofNat_toNat, if_pos hvalid, Char.ofNat_toNat]
  have hchars : ∀ cs : List Char, ((cs.map fun c => Fin.ofNat 0x110000 c.toNat).mapM
      fun (c : CodePoint) => if c.val.isValidChar then some (Char.ofNat c.val) else none) = some cs := by
    intro cs
    induction cs with
    | nil => rfl
    | cons c cs ih =>
      rw [List.map_cons, List.mapM_cons, hchar, ih]
      rfl
  rw [encodable?, text, hchars, Option.map_some, String.ofList_toList]

theorem isSome_encodable? (s : Text) : (encodable? s).isSome = s.all fun c => decide c.val.isValidChar := by
  rw [encodable?, Option.isSome_map]
  induction s with
  | nil => rfl
  | cons c s ih =>
    rw [List.mapM_cons, List.all_cons, ← ih]
    by_cases hc : c.val.isValidChar
    · rw [if_pos hc, decide_eq_true hc, Bool.true_and]
      cases s.mapM fun (c : CodePoint) => if c.val.isValidChar then some (Char.ofNat c.val) else none <;> rfl
    · simp [hc]

/-- Texts joined by NUL can be encoded if each of them can. -/
theorem isSome_encodable?_join (fields : List Text) :
    (encodable? ([0].intercalate fields)).isSome = fields.all fun s => (encodable? s).isSome := by
  simp only [isSome_encodable?]
  induction fields with
  | nil => rfl
  | cons s fields ih =>
    cases fields with
    | nil => simp
    | cons =>
      have hzero : decide ((0 : CodePoint).val.isValidChar) = true := by decide
      rw [List.intercalate_cons_cons, List.all_append, List.all_append, ih, List.all_cons, hzero, List.all_nil,
        Bool.and_true, Bool.and_true]
      rfl

theorem text_injective : Function.Injective text := by
  intro s s' h
  have hsame := congrArg encodable? h
  rw [encodable?_text, encodable?_text] at hsame
  exact Option.some.inj hsame

@[simp] theorem text_isEmpty (s : String) : (text s).isEmpty = decide (s = "") := by
  rw [text, List.isEmpty_map, Bool.eq_iff_iff, List.isEmpty_iff, decide_eq_true_iff]
  exact String.toList_eq_nil_iff

inductive Value
  | none
  | bool (b : Bool)
  | int (n : Int)
  | float (x : Float64)
  /-- The float `-0.0`, which is equal to `0.0` and written otherwise. -/
  | negZero
  | str (s : Text)
  | list (items : List Value)
  | dict (members : List (Text × Value))

/-- The exceptions of the standard library that are told apart here. -/
inductive Error
  | value
  | type
  | key
  | attribute
  | overflow
  | recursion
  | os
  deriving DecidableEq, Repr

/-- The entry of a key; a repeated key has its last value. -/
def get? (members : List (Text × Value)) (key : String) : Option Value :=
  (members.reverse.find? fun member => member.1 == text key).map (·.2)

theorem get?_append (members members' : List (Text × Value)) (key : String) :
    get? (members ++ members') key = (get? members' key).or (get? members key) := by
  unfold get?
  rw [List.reverse_append, List.find?_append]
  cases members'.reverse.find? fun member => member.1 == text key <;> rfl

theorem get?_singleton (name : String) (value : Value) (key : String) :
    get? [(text name, value)] key = if name = key then some value else Option.none := by
  by_cases h : name = key
  · subst h
    simp [get?]
  · have hne : text name ≠ text key := fun heq => h (text_injective heq)
    simp [get?, h, hne]

structure Runtime where
  /-- `json.loads` of bytes. -/
  loads : List UInt8 → Except Error Value
  /-- `int(s)` of a text that denotes an integer. -/
  parseInt : Text → Option Int
  /-- `str(value)` of what is not a text. -/
  describe : Value → Text
  /-- The integers `n` for which `n / 1000` is too large for a float. -/
  overflows : Int → Bool
  /-- A malformed document is a `ValueError`, one that is nested too deeply a `RecursionError`. -/
  loads_error : ∀ {content err}, loads content = .error err → err = .value ∨ err = .recursion

namespace Runtime

variable (py : Runtime)

def str : Value → Text
  | .str s => s
  | value => py.describe value

/-- `int(value)` -/
def int : Value → Except Error Int
  | .int n => .ok n
  | .bool b => .ok (if b then 1 else 0)
  | .float (.finite q) => .ok (q.num.tdiv q.den)
  | .float .nan => .error .value
  | .float _ => .error .overflow
  | .negZero => .ok 0
  | .str s =>
    match py.parseInt s with
    | some n => .ok n
    | none => .error .value
  | _ => .error .type

end Runtime

end Python
