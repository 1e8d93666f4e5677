import Mathlib.Algebra.BigOperators.Group.List.Basic
import Mathlib.Data.Char
import Mathlib.Data.List.TakeWhile
import Mathlib.Algebra.GroupWithZero.Nat

/-!
# `Foundation.Json` — JSON texts: a lexer, a parser and a printer

A text is read character by character into tokens (`lex`) and the tokens into a tree (`parseValue`,
whose fuel bounds the depth); a number stays the literal it was written as. The printer writes no
blanks, with or without the escapes that keep a text safe inside HTML. `parse_encode`: what it writes
is read back as the same tree.
-/

namespace Json

/-! ## Trees and tokens -/

inductive Value
  | null
  | bool (b : Bool)
  | number (literal : String)
  | string (s : String)
  | array (items : List Value)
  | object (members : List (String × Value))

inductive Token
  | openArray
  | closeArray
  | openObject
  | closeObject
  | comma
  | colon
  | null
  | bool (b : Bool)
  | number (literal : String)
  | string (s : String)
  deriving DecidableEq

/-! ## Numbers -/

/-- An exponent, if any, to the end. -/
def isExponent : List Char → Bool
  | [] => true
  | c :: cs => (c == 'e' || c == 'E') &&
      match cs with
      | '+' :: digits => !digits.isEmpty && digits.all (·.isDigit)
      | '-' :: digits => !digits.isEmpty && digits.all (·.isDigit)
      | digits => !digits.isEmpty && digits.all (·.isDigit)

/-- A fraction, if any, and an exponent, if any, to the end. -/
def isFraction : List Char → Bool
  | '.' :: c :: cs => c.isDigit && isExponent (cs.dropWhile (·.isDigit))
  | cs => isExponent cs

/-- A number without its sign. -/
def isUnsigned : List Char → Bool
  | '0' :: cs => isFraction cs
  | c :: cs => c.isDigit && isFraction (cs.dropWhile (·.isDigit))
  | [] => false

/-- The literals of the number grammar. -/
def isNumber : List Char → Bool
  | '-' :: cs => isUnsigned cs
  | cs => isUnsigned cs

/-! ## The lexer -/

def isBlank (c : Char) : Bool := c == ' ' || c == '\t' || c == '\n' || c == '\r'

/-- The characters of numbers and of the words `true`, `false` and `null`. -/
def isWordChar (c : Char) : Bool := c.isAlphanum || c == '+' || c == '-' || c == '.'

def punctuation (c : Char) : Option Token :=
  if c = '[' then some .openArray
  else if c = ']' then some .closeArray
  else if c = Char.ofNat 0x7B then some .openObject
  else if c = Char.ofNat 0x7D then some .closeObject
  else if c = ',' then some .comma
  else if c = ':' then some .colon
  else none

def wordToken (text : List Char) : Option Token :=
  if isNumber text then some (.number (String.ofList text))
  else if text = "true".toList then some (.bool true)
  else if text = "false".toList then some (.bool false)
  else if text = "null".toList then some .null
  else none

/-- Where the scanner stands. The texts of a word and of a string are kept latest character first; `high` is the first
    half of a surrogate pair that waits for the second. -/
inductive Mode
  | between
  | word (text : List Char)
  | string (text : List Char) (high : Option Nat)
  | escape (text : List Char) (high : Option Nat)
  | hex (text : List Char) (high : Option Nat) (digits : List Nat)

structure Lexer where
  mode : Mode
  /-- Latest first. -/
  tokens : List Token

namespace Lexer

def replacement : Char := Char.ofNat 0xFFFD

/-- Half a pair that stays alone is replaced. -/
def flush (text : List Char) : Option Nat → List Char
  | some _ => replacement :: text
  | none => text

def addUnit (text : List Char) (high : Option Nat) (unit : Nat) : List Char × Option Nat :=
  if 0xDC00 ≤ unit ∧ unit < 0xE000 then
    match high with
    | some first => (Char.ofNat (0x10000 + (first - 0xD800) * 0x400 + (unit - 0xDC00)) :: text, none)
    | none => (replacement :: text, none)
  else if 0xD800 ≤ unit ∧ unit < 0xDC00 then (flush text high, some unit)
  else (Char.ofNat unit :: flush text high, none)

def hexValue (c : Char) : Option Nat :=
  if '0' ≤ c ∧ c ≤ '9' then some (c.toNat - 48)
  else if 'a' ≤ c ∧ c ≤ 'f' then some (c.toNat - 87)
  else if 'A' ≤ c ∧ c ≤ 'F' then some (c.toNat - 55)
  else none

def escaped (c : Char) : Option Char :=
  if c = '"' ∨ c = '\\' ∨ c = '/' then some c
  else if c = 'b' then some (Char.ofNat 8)
  else if c = 'f' then some (Char.ofNat 12)
  else if c = 'n' then some '\n'
  else if c = 'r' then some '\r'
  else if c = 't' then some '\t'
  else none

/-- A character outside words and strings. -/
def outside (tokens : List Token) (c : Char) : Option Lexer :=
  if isBlank c then some ⟨.between, tokens⟩
  else if c = '"' then some ⟨.string [] none, tokens⟩
  else if isWordChar c then some ⟨.word [c], tokens⟩
  else (punctuation c).map fun token => ⟨.between, token :: tokens⟩

def step (s : Lexer) (c : Char) : Option Lexer :=
  match s.mode with
  | .between => outside s.tokens c
  | .word text =>
    if isWordChar c then some ⟨.word (c :: text), s.tokens⟩
    else (wordToken text.reverse).bind fun token => outside (token :: s.tokens) c
  | .string text high =>
    if c = '"' then some ⟨.between, .string (String.ofList (flush text high).reverse) :: s.tokens⟩
    else if c = '\\' then some ⟨.escape text high, s.tokens⟩
    else if c.toNat < 0x20 then none
    else some ⟨.string (c :: flush text high) none, s.tokens⟩
  | .escape text high =>
    if c = 'u' then some ⟨.hex text high [], s.tokens⟩
    else (escaped c).map fun e => ⟨.string (e :: flush text high) none, s.tokens⟩
  | .hex text high digits =>
    (hexValue c).map fun d =>
      if digits.length < 3 then ⟨.hex text high (digits ++ [d]), s.tokens⟩
      else
        let (text, high) := addUnit text high ((digits ++ [d]).foldl (fun unit digit => 16 * unit + digit) 0)
        ⟨.string text high, s.tokens⟩

/-- The end of the text. -/
def finish (s : Lexer) : Option (List Token) :=
  match s.mode with
  | .between => some s.tokens.reverse
  | .word text => (wordToken text.reverse).map fun token => (token :: s.tokens).reverse
  | _ => none

end Lexer

def lex (cs : List Char) : Option (List Token) := (cs.foldlM Lexer.step ⟨.between, []⟩).bind Lexer.finish

/-! ## The parser -/

mutual

def parseValue : Nat → List Token → Option (Value × List Token)
  | 0, _ => none
  | fuel + 1, toks =>
    match toks with
    | .null :: rest => some (.null, rest)
    | .bool b :: rest => some (.bool b, rest)
    | .number literal :: rest => some (.number literal, rest)
    | .string s :: rest => some (.string s, rest)
    | .openArray :: .closeArray :: rest => some (.array [], rest)
    | .openArray :: rest => (parseItems fuel rest).map fun (items, rest) => (.array items, rest)
    | .openObject :: .closeObject :: rest => some (.object [], rest)
    | .openObject :: rest => (parseMembers fuel rest).map fun (members, rest) => (.object members, rest)
    | _ => none

/-- The items of an array and its closing bracket. -/
def parseItems : Nat → List Token → Option (List Value × List Token)
  | 0, _ => none
  | fuel + 1, toks =>
    match parseValue fuel toks with
    | some (item, .comma :: rest) => (parseItems fuel rest).map fun (items, rest) => (item :: items, rest)
    | some (item, .closeArray :: rest) => some ([item], rest)
    | _ => none

/-- The members of an object and its closing brace. -/
def parseMembers : Nat → List Token → Option (List (String × Value) × List Token)
  | 0, _ => none
  | fuel + 1, toks =>
    match toks with
    | .string key :: .colon :: toks =>
      match parseValue fuel toks with
      | some (value, .comma :: rest) =>
        (parseMembers fuel rest).map fun (members, rest) => ((key, value) :: members, rest)
      | some (value, .closeObject :: rest) => some ([(key, value)], rest)
      | _ => none
    | _ => none

end

/-- One value and nothing else. Two steps per token are enough for any text. -/
def parse (cs : List Char) : Option Value :=
  match (lex cs).bind fun toks => parseValue (2 * toks.length) toks with
  | some (value, []) => some value
  | _ => none

/-! ## The printer -/

def hexDigit (n : Nat) : Char := if n < 10 then Char.ofNat (48 + n) else Char.ofNat (87 + n)

/-- `\uXXXX` -/
def unicodeEscape (n : Nat) : List Char :=
  ['\\', 'u', hexDigit (n / 4096 % 16), hexDigit (n / 256 % 16), hexDigit (n / 16 % 16), hexDigit (n % 16)]

/-- One character of a string. The line separators are escaped for the sake of JavaScript, the other three characters
    only in a text that has to be safe inside HTML. -/
def escape (html : Bool) (c : Char) : List Char :=
  if c = '"' ∨ c = '\\' then ['\\', c]
  else if c = Char.ofNat 8 then ['\\', 'b']
  else if c = Char.ofNat 12 then ['\\', 'f']
  else if c = '\n' then ['\\', 'n']
  else if c = '\r' then ['\\', 'r']
  else if c = '\t' then ['\\', 't']
  else if c.toNat < 0x20 ∨ (html = true ∧ (c = '<' ∨ c = '>' ∨ c = '&')) ∨ c.toNat = 0x2028 ∨ c.toNat = 0x2029 then
    unicodeEscape c.toNat
  else [c]

def quote (html : Bool) (s : String) : List Char := '"' :: (s.toList.flatMap (escape html) ++ ['"'])

def Token.print (html : Bool) : Token → List Char
  | .openArray => ['[']
  | .closeArray => [']']
  | .openObject => [Char.ofNat 0x7B]
  | .closeObject => [Char.ofNat 0x7D]
  | .comma => [',']
  | .colon => [':']
  | .null => "null".toList
  | .bool true => "true".toList
  | .bool false => "false".toList
  | .number literal => literal.toList
  | .string s => quote html s

mutual

def Value.tokens : Value → List Token
  | .null => [.null]
  | .bool b => [.bool b]
  | .number literal => [.number literal]
  | .string s => [.string s]
  | .array items => .openArray :: (itemTokens items ++ [.closeArray])
  | .object members => .openObject :: (memberTokens members ++ [.closeObject])

/-- Items with commas between them. -/
def itemTokens : List Value → List Token
  | [] => []
  | item :: items => item.tokens ++ (if items.isEmpty then [] else [.comma]) ++ itemTokens items

def memberTokens : List (String × Value) → List Token
  | [] => []
  | (key, value) :: members =>
    .string key :: .colon :: (value.tokens ++ (if members.isEmpty then [] else [.comma]) ++ memberTokens members)

end

def encode (html : Bool) (value : Value) : List Char := value.tokens.flatMap (Token.print html)

/-! ## Integers -/

variable {cs : List Char}

theorem isNumber_of_isUnsigned (h : isUnsigned cs = true) : isNumber cs = true := by
  unfold isNumber
  split
  · cases h
  · exact h

theorem toDigits_head {n : Nat} (hn : 0 < n) : ∃ d ds, Nat.toDigits 10 n = d :: ds ∧ d ≠ '0' := by
  induction n using Nat.strong_induction_on with
  | h n ih =>
    rw [Nat.toDigits_eq_if (by decide)]
    split
    · rename_i hlt
      refine ⟨n.digitChar, [], rfl, ?_⟩
      have hdigit : ∀ d < 10, 0 < d → d.digitChar ≠ '0' := by decide
      exact hdigit n hlt hn
    · obtain ⟨d, ds, hdigits, hd⟩ := ih (n / 10) (by omega) (by omega)
      exact ⟨d, ds ++ [(n % 10).digitChar], by rw [hdigits, List.cons_append], hd⟩

theorem isUnsigned_repr (n : Nat) : isUnsigned n.repr.toList = true := by
  rw [Nat.repr_eq_ofList_toDigits, String.toList_ofList]
  rcases Nat.eq_zero_or_pos n with rfl | hpos
  · decide
  · have hall : ∀ c ∈ Nat.toDigits 10 n, c.isDigit = true :=
      fun c hc => Nat.isDigit_of_mem_toDigits (by decide) (by decide) hc
    obtain ⟨d, ds, hdigits, hd⟩ := toDigits_head hpos
    rw [hdigits] at hall ⊢
    have hrest : ds.dropWhile (·.isDigit) = [] :=
      List.dropWhile_eq_nil_iff.mpr fun c hc => hall c (List.mem_cons_of_mem d hc)
    unfold isUnsigned
    split
    · rename_i heq
      exact absurd (List.cons.inj heq).1 hd
    · rename_i heq
      obtain ⟨rfl, rfl⟩ := List.cons.inj heq
      rw [hall d List.mem_cons_self, hrest]
      rfl
    · rename_i heq
      cases heq

/-- A decimal integer is a number literal. -/
theorem isNumber_repr (n : Int) : isNumber n.repr.toList = true := by
  cases n with
  | ofNat m => exact isNumber_of_isUnsigned (isUnsigned_repr m)
  | negSucc m =>
    have hrepr : (Int.negSucc m).repr.toList = '-' :: (m + 1).repr.toList := by
      simp [Int.repr]
    rw [hrepr]
    exact isUnsigned_repr (m + 1)

/-! ## The lexer inverts the printer -/

theorem isWordChar_of_isDigit {c : Char} (h : c.isDigit = true) : isWordChar c = true := by
  simp [isWordChar, Char.isAlphanum, h]

theorem all_isWordChar_of_digits (h : cs.all (·.isDigit) = true) : cs.all isWordChar = true :=
  List.all_eq_true.mpr fun c hc => isWordChar_of_isDigit (List.all_eq_true.mp h c hc)

theorem all_isWordChar_of_exponent (h : isExponent cs = true) : cs.all isWordChar = true := by
  unfold isExponent at h
  split at h
  · rfl
  · rename_i c cs
    rw [Bool.and_eq_true] at h
    have hc : isWordChar c = true := by
      rcases Bool.or_eq_true_iff.mp h.1 with hc | hc
      · rw [beq_iff_eq.mp hc]; rfl
      · rw [beq_iff_eq.mp hc]; rfl
    rw [List.all_cons, hc, Bool.true_and]
    have hrest := h.2
    split at hrest
    all_goals
      rw [Bool.and_eq_true] at hrest
      have hdigits := all_isWordChar_of_digits hrest.2
    · rw [List.all_cons, hdigits]; rfl
    · rw [List.all_cons, hdigits]; rfl
    · exact hdigits

/-- Digits and a rest of word characters are word characters. -/
theorem all_isWordChar_of_dropWhile (h : (cs.dropWhile (·.isDigit)).all isWordChar = true) :
    cs.all isWordChar = true := by
  rw [← @List.takeWhile_append_dropWhile _ (·.isDigit) cs, List.all_append, h, Bool.and_true]
  refine all_isWordChar_of_digits (List.all_eq_true.mpr fun c hc => ?_)
  exact List.mem_takeWhile_imp hc

theorem all_isWordChar_of_fraction (h : isFraction cs = true) : cs.all isWordChar = true := by
  unfold isFraction at h
  split at h
  · rename_i c cs
    rw [Bool.and_eq_true] at h
    have hrest := all_isWordChar_of_dropWhile (all_isWordChar_of_exponent h.2)
    rw [List.all_cons, List.all_cons, isWordChar_of_isDigit h.1, hrest]
    rfl
  · exact all_isWordChar_of_exponent h

theorem all_isWordChar_of_unsigned (h : isUnsigned cs = true) : cs.all isWordChar = true := by
  unfold isUnsigned at h
  split at h
  · rw [List.all_cons, all_isWordChar_of_fraction h]
    rfl
  · rename_i c cs _
    rw [Bool.and_eq_true] at h
    rw [List.all_cons, isWordChar_of_isDigit h.1, all_isWordChar_of_dropWhile (all_isWordChar_of_fraction h.2)]
    rfl
  · cases h

theorem all_isWordChar_of_number (h : isNumber cs = true) : cs.all isWordChar = true := by
  unfold isNumber at h
  split at h
  · rw [List.all_cons, all_isWordChar_of_unsigned h]
    rfl
  · exact all_isWordChar_of_unsigned h

theorem ne_nil_of_number (h : isNumber cs = true) : cs ≠ [] := by
  rintro rfl
  cases h

namespace Lexer

/-- The scanner is done with the tokens `tokens`: it stands between tokens, or at the end of a word. -/
def Settled (s : Lexer) (tokens : List Token) : Prop :=
  s = ⟨.between, tokens⟩ ∨
  ∃ text token before, s = ⟨.word text, before⟩ ∧ wordToken text.reverse = some token ∧ tokens = token :: before

theorem settled_between (tokens : List Token) : Settled ⟨.between, tokens⟩ tokens := Or.inl rfl

theorem step_of_settled {s : Lexer} {tokens : List Token} (h : Settled s tokens) {c : Char}
    (hc : isWordChar c = false) : step s c = outside tokens c := by
  rcases h with rfl | ⟨_, _, _, rfl, htoken, rfl⟩
  · rfl
  · simp [step, hc, htoken]

theorem finish_of_settled {s : Lexer} {tokens : List Token} (h : Settled s tokens) : finish s = some tokens.reverse := by
  rcases h with rfl | ⟨_, _, _, rfl, htoken, rfl⟩
  · rfl
  · simp [finish, htoken]

/-- A word is collected to its end. -/
theorem foldlM_word (text : List Char) (tokens : List Token) {cs : List Char} (hcs : cs.all isWordChar = true) :
    cs.foldlM step ⟨.word text, tokens⟩ = some ⟨.word (cs.reverse ++ text), tokens⟩ := by
  induction cs generalizing text with
  | nil => rfl
  | cons c cs ih =>
    rw [List.all_cons, Bool.and_eq_true] at hcs
    have hstep : step ⟨.word text, tokens⟩ c = some ⟨.word (c :: text), tokens⟩ := by simp [step, hcs.1]
    rw [List.foldlM_cons, hstep, Option.bind_eq_bind, Option.bind_some, ih (c :: text) hcs.2, List.reverse_cons,
      List.append_assoc, List.singleton_append]

theorem outside_of_isWordChar {c : Char} (hc : isWordChar c = true) (tokens : List Token) :
    outside tokens c = some ⟨.word [c], tokens⟩ := by
  have hblank : isBlank c = false := by
    rw [← Bool.not_eq_true]
    intro hblank
    simp only [isBlank, Bool.or_eq_true, beq_iff_eq] at hblank
    rcases hblank with ((rfl | rfl) | rfl) | rfl <;> exact nomatch hc
  have hquote : c ≠ '"' := by
    rintro rfl
    cases hc
  simp [outside, hblank, hquote, hc]

theorem foldlM_wordToken {cs : List Char} {token : Token} (hcs : cs.all isWordChar = true) (hne : cs ≠ [])
    (htoken : wordToken cs = some token) (tokens : List Token) :
    ∃ s, cs.foldlM step ⟨.between, tokens⟩ = some s ∧ Settled s (token :: tokens) := by
  cases cs with
  | nil => exact absurd rfl hne
  | cons c cs =>
    rw [List.all_cons, Bool.and_eq_true] at hcs
    refine ⟨⟨.word (cs.reverse ++ [c]), tokens⟩, ?_, Or.inr ⟨_, token, tokens, rfl, ?_, rfl⟩⟩
    · show (outside tokens c).bind _ = _
      rw [outside_of_isWordChar hcs.1, Option.bind_some, foldlM_word [c] tokens hcs.2]
    · rw [List.reverse_append, List.reverse_reverse, List.reverse_singleton, List.singleton_append]
      exact htoken

theorem hexValue_hexDigit : ∀ n < 16, hexValue (hexDigit n) = some n := by decide

theorem step_hex {text : List Char} {high : Option Nat} {digits : List Nat} {tokens : List Token} {n : Nat} (hn : n < 16)
    (hdigits : digits.length < 3) :
    step ⟨.hex text high digits, tokens⟩ (hexDigit n) = some ⟨.hex text high (digits ++ [n]), tokens⟩ := by
  simp [step, hexValue_hexDigit n hn, hdigits]

/-- An escaped code unit that is no surrogate is the character it names. -/
theorem foldlM_unicodeEscape (text : List Char) (tokens : List Token) {n : Nat} (hn : n < 0xD800) :
    (unicodeEscape n).foldlM step ⟨.string text none, tokens⟩ = some ⟨.string (Char.ofNat n :: text) none, tokens⟩ := by
  have hmod : ∀ m : Nat, m % 16 < 16 := fun m => Nat.mod_lt m (by decide)
  have hlast : step ⟨.hex text none ([n / 4096 % 16] ++ [n / 256 % 16] ++ [n / 16 % 16]), tokens⟩ (hexDigit (n % 16)) =
      some ⟨.string (Char.ofNat n :: text) none, tokens⟩ := by
    have hvalue : 16 * (16 * (16 * (n / 4096 % 16) + n / 256 % 16) + n / 16 % 16) + n % 16 = n := by omega
    have hlow : ¬(0xDC00 ≤ n ∧ n < 0xE000) := by omega
    have hhigh : ¬(0xD800 ≤ n ∧ n < 0xDC00) := by omega
    simp [step, hexValue_hexDigit _ (hmod n), addUnit, flush, hvalue, hlow, hhigh]
  have hopen : step ⟨.string text none, tokens⟩ '\\' = some ⟨.escape text none, tokens⟩ := rfl
  have hu : step ⟨.escape text none, tokens⟩ 'u' = some ⟨.hex text none [], tokens⟩ := rfl
  have h₁ := @step_hex text none [] tokens _ (hmod (n / 4096)) (by decide)
  have h₂ := @step_hex text none [n / 4096 % 16] tokens _ (hmod (n / 256)) (by simp)
  have h₃ := @step_hex text none ([n / 4096 % 16] ++ [n / 256 % 16]) tokens _ (hmod (n / 16)) (by simp)
  rw [List.nil_append] at h₁
  simp only [unicodeEscape, List.foldlM_cons, List.foldlM_nil, hopen, hu, h₁, h₂, h₃, hlast, Option.bind_eq_bind,
    Option.bind_some]
  rfl

/-- A character of a string is read back, escaped or not. -/
theorem foldlM_escape (html : Bool) (c : Char) (text : List Char) (tokens : List Token) :
    (escape html c).foldlM step ⟨.string text none, tokens⟩ = some ⟨.string (c :: text) none, tokens⟩ := by
  have htwo : ∀ e, e ≠ 'u' → escaped e = some c →
      ['\\', e].foldlM step ⟨.string text none, tokens⟩ = some ⟨.string (c :: text) none, tokens⟩ := by
    intro e hu he
    show (step ⟨.escape text none, tokens⟩ e).bind some = _
    simp [step, hu, he, flush]
  -- one case per branch of `escape`: six short escapes, the code units, and the character as it is
  unfold escape
  split
  · rename_i hc
    refine htwo c ?_ ?_
    · rcases hc with rfl | rfl <;> decide
    · rcases hc with rfl | rfl <;> rfl
  split
  · rename_i hc
    exact htwo 'b' (by decide) (hc ▸ rfl)
  split
  · rename_i hc
    exact htwo 'f' (by decide) (hc ▸ rfl)
  split
  · rename_i hc
    exact htwo 'n' (by decide) (hc ▸ rfl)
  split
  · rename_i hc
    exact htwo 'r' (by decide) (hc ▸ rfl)
  split
  · rename_i hc
    exact htwo 't' (by decide) (hc ▸ rfl)
  split
  · rename_i hc
    have hn : c.toNat < 0xD800 := by
      rcases hc with hc | ⟨-, rfl | rfl | rfl⟩ | hc | hc
      · omega
      · decide
      · decide
      · decide
      · omega
      · omega
    rw [foldlM_unicodeEscape text tokens hn, Char.ofNat_toNat]
  · rename_i hplain _ _ _ _ _ hcode
    rw [not_or] at hplain
    have hcontrol : ¬c.toNat < 0x20 := fun h => hcode (Or.inl h)
    show (step ⟨.string text none, tokens⟩ c).bind some = _
    simp [step, hplain.1, hplain.2, hcontrol, flush]

theorem foldlM_quote {s : Lexer} {tokens : List Token} (h : Settled s tokens) (html : Bool) (text : String) :
    (quote html text).foldlM step s = some ⟨.between, .string text :: tokens⟩ := by
  have hbody : ∀ (cs acc : List Char), (cs.flatMap (escape html)).foldlM step ⟨.string acc none, tokens⟩ =
      some ⟨.string (cs.reverse ++ acc) none, tokens⟩ := by
    intro cs
    induction cs with
    | nil => exact fun acc => rfl
    | cons c cs ih =>
      intro acc
      rw [List.flatMap_cons, List.foldlM_append, foldlM_escape, Option.bind_eq_bind, Option.bind_some, ih,
        List.reverse_cons, List.append_assoc, List.singleton_append]
  have hopen : step s '"' = some ⟨.string [] none, tokens⟩ := step_of_settled h rfl
  rw [quote, List.foldlM_cons, hopen, Option.bind_eq_bind, Option.bind_some, List.foldlM_append, hbody,
    Option.bind_eq_bind, Option.bind_some, List.append_nil]
  show some (Lexer.mk .between (.string (String.ofList text.toList.reverse.reverse) :: tokens)) = _
  rw [List.reverse_reverse, String.ofList_toList]

end Lexer

/-- The tokens that would run into each other without something between them. -/
def Token.isWord : Token → Bool
  | .null => true
  | .bool _ => true
  | .number _ => true
  | _ => false

/-- A number token holds a number. -/
def Token.valid : Token → Bool
  | .number literal => isNumber literal.toList
  | _ => true

def startsWithWord : List Token → Bool
  | token :: _ => token.isWord
  | [] => false

/-- No two words stand side by side. -/
def Spaced : List Token → Prop
  | [] => True
  | token :: tokens => (token.isWord = true → startsWithWord tokens = false) ∧ Spaced tokens

namespace Lexer

theorem foldlM_print_word {token : Token} (hword : token.isWord = true) (hvalid : token.valid = true) (html : Bool)
    (tokens : List Token) :
    ∃ s, (token.print html).foldlM step ⟨.between, tokens⟩ = some s ∧ Settled s (token :: tokens) := by
  cases token with
  | null => exact @foldlM_wordToken "null".toList .null (by decide) (by decide) (by decide) tokens
  | bool b =>
    cases b with
    | true => exact @foldlM_wordToken "true".toList (.bool true) (by decide) (by decide) (by decide) tokens
    | false => exact @foldlM_wordToken "false".toList (.bool false) (by decide) (by decide) (by decide) tokens
  | number literal =>
    have hnumber : isNumber literal.toList = true := hvalid
    refine foldlM_wordToken (all_isWordChar_of_number hnumber) (ne_nil_of_number hnumber) ?_ tokens
    rw [wordToken, if_pos hnumber, String.ofList_toList]
  | openArray | closeArray | openObject | closeObject | comma | colon | string => cases hword

theorem foldlM_print {s : Lexer} {tokens : List Token} (h : Settled s tokens) {token : Token}
    (hword : token.isWord = false) (html : Bool) :
    (token.print html).foldlM step s = some ⟨.between, token :: tokens⟩ := by
  have hone : ∀ c, isWordChar c = false → isBlank c = false → c ≠ '"' → punctuation c = some token →
      [c].foldlM step s = some ⟨.between, token :: tokens⟩ := by
    intro c hc hblank hquote htoken
    show (step s c).bind some = _
    rw [step_of_settled h hc]
    simp [outside, hblank, hquote, hc, htoken]
  cases token with
  | string text => exact foldlM_quote h html text
  | openArray | closeArray | openObject | closeObject | comma | colon =>
    exact hone _ (by decide) (by decide) (by decide) (by decide)
  | null | bool | number => cases hword

theorem foldlM_tokens (html : Bool) {toks : List Token} (hspaced : Spaced toks) (hvalid : ∀ t ∈ toks, t.valid = true)
    {s : Lexer} {tokens : List Token} (h : Settled s tokens)
    (hstart : startsWithWord toks = true → s = ⟨.between, tokens⟩) :
    ∃ s', (toks.flatMap (Token.print html)).foldlM step s = some s' ∧ Settled s' (toks.reverse ++ tokens) := by
  induction toks generalizing s tokens with
  | nil => exact ⟨s, rfl, h⟩
  | cons token toks ih =>
    have hrest := fun t ht => hvalid t (List.mem_cons_of_mem token ht)
    -- a word is still open after its last character, so what follows it must not be one
    have hfirst : ∃ s', (token.print html).foldlM step s = some s' ∧ Settled s' (token :: tokens) ∧
        (startsWithWord toks = true → s' = ⟨.between, token :: tokens⟩) := by
      cases hword : token.isWord with
      | true =>
        obtain rfl := hstart hword
        obtain ⟨s', hs', hsettled⟩ := foldlM_print_word hword (hvalid token List.mem_cons_self) html tokens
        refine ⟨s', hs', hsettled, fun hnext => ?_⟩
        rw [hspaced.1 hword] at hnext
        cases hnext
      | false => exact ⟨_, foldlM_print h hword html, settled_between _, fun _ => rfl⟩
    obtain ⟨s', hs', hsettled, hnext⟩ := hfirst
    obtain ⟨s'', hs'', hend⟩ := ih hspaced.2 hrest hsettled hnext
    refine ⟨s'', ?_, ?_⟩
    · rw [List.flatMap_cons, List.foldlM_append, hs', Option.bind_eq_bind, Option.bind_some, hs'']
    · rwa [List.reverse_cons, List.append_assoc, List.singleton_append]

end Lexer

/-- **The lexer inverts the printer** on tokens that do not run into each other. -/
theorem lex_print (html : Bool) {toks : List Token} (hspaced : Spaced toks) (hvalid : ∀ t ∈ toks, t.valid = true) :
    lex (toks.flatMap (Token.print html)) = some toks := by
  obtain ⟨s, hs, hsettled⟩ := Lexer.foldlM_tokens html hspaced hvalid (Lexer.settled_between []) fun _ => rfl
  rw [lex, hs, Option.bind_some, Lexer.finish_of_settled hsettled, List.append_nil, List.reverse_reverse]

/-! ## The parser inverts the tokens of a tree -/

mutual

theorem spaced_tokens (value : Value) {rest : List Token} (hrest : Spaced rest) (hstart : startsWithWord rest = false) :
    Spaced (value.tokens ++ rest) := by
  cases value with
  | null | bool | number | string => exact ⟨fun _ => hstart, hrest⟩
  | array items =>
    refine ⟨nofun, ?_⟩
    rw [List.append_eq, List.append_assoc]
    exact spaced_itemTokens items ⟨nofun, hrest⟩ rfl
  | object members =>
    refine ⟨nofun, ?_⟩
    rw [List.append_eq, List.append_assoc]
    exact spaced_memberTokens members ⟨nofun, hrest⟩ rfl

theorem spaced_itemTokens (items : List Value) {rest : List Token} (hrest : Spaced rest)
    (hstart : startsWithWord rest = false) : Spaced (itemTokens items ++ rest) := by
  cases items with
  | nil => exact hrest
  | cons item items =>
    rw [itemTokens, List.append_assoc, List.append_assoc]
    have htail := spaced_itemTokens items hrest hstart
    cases items with
    | nil => exact spaced_tokens item hrest hstart
    | cons => exact spaced_tokens item ⟨nofun, htail⟩ rfl

theorem spaced_memberTokens (members : List (String × Value)) {rest : List Token} (hrest : Spaced rest)
    (hstart : startsWithWord rest = false) : Spaced (memberTokens members ++ rest) := by
  cases members with
  | nil => exact hrest
  | cons member members =>
    obtain ⟨_, value⟩ := member
    rw [memberTokens, List.cons_append, List.cons_append, List.append_assoc, List.append_assoc]
    have htail := spaced_memberTokens members hrest hstart
    refine ⟨nofun, nofun, ?_⟩
    cases members with
    | nil => exact spaced_tokens value hrest hstart
    | cons => exact spaced_tokens value ⟨nofun, htail⟩ rfl

end

theorem parseValue_openArray {toks : List Token} (h : toks.head? ≠ some .closeArray) (fuel : Nat) :
    parseValue (fuel + 1) (.openArray :: toks) = (parseItems fuel toks).map fun (items, rest) => (.array items, rest) := by
  cases toks with
  | nil => rfl
  | cons token => cases token <;> first | rfl | exact absurd rfl h

theorem parseValue_openObject {toks : List Token} (h : toks.head? ≠ some .closeObject) (fuel : Nat) :
    parseValue (fuel + 1) (.openObject :: toks) =
      (parseMembers fuel toks).map fun (members, rest) => (.object members, rest) := by
  cases toks with
  | nil => rfl
  | cons token => cases token <;> first | rfl | exact absurd rfl h

/-- A tree never starts with the end of an array. -/
theorem head?_tokens (value : Value) (rest : List Token) : (value.tokens ++ rest).head? ≠ some .closeArray := by
  cases value <;> simp [Value.tokens]

theorem length_tokens_pos (value : Value) : 0 < value.tokens.length := by
  cases value <;> simp [Value.tokens]

mutual

/-- **The parser inverts the tokens of a tree**, given two steps per token. -/
theorem parseValue_tokens (value : Value) (rest : List Token) {fuel : Nat} (hfuel : 2 * value.tokens.length ≤ fuel) :
    parseValue fuel (value.tokens ++ rest) = some (value, rest) := by
  -- each token pays for one call of `parseValue` and one of the loop around it
  have hpos := length_tokens_pos value
  obtain ⟨fuel, rfl⟩ : ∃ n, fuel = n + 1 := ⟨fuel - 1, by omega⟩
  cases value with
  | null | bool | number | string => rfl
  | array items =>
    rw [Value.tokens, List.cons_append, List.append_assoc, List.singleton_append]
    cases items with
    | nil => rfl
    | cons item items =>
      have hlength : (Value.array (item :: items)).tokens.length = (itemTokens (item :: items)).length + 2 := by
        simp [Value.tokens]
      rw [parseValue_openArray, parseItems_itemTokens (item :: items) nofun rest (by omega)]
      · rfl
      · rw [itemTokens, List.append_assoc, List.append_assoc]
        exact head?_tokens item _
  | object members =>
    rw [Value.tokens, List.cons_append, List.append_assoc, List.singleton_append]
    cases members with
    | nil => rfl
    | cons member members =>
      have hlength : (Value.object (member :: members)).tokens.length = (memberTokens (member :: members)).length + 2 := by
        simp [Value.tokens]
      rw [parseValue_openObject, parseMembers_memberTokens (member :: members) nofun rest (by omega)]
      · rfl
      · exact nofun

theorem parseItems_itemTokens (items : List Value) (hne : items ≠ []) (rest : List Token) {fuel : Nat}
    (hfuel : 2 * (itemTokens items).length + 1 ≤ fuel) :
    parseItems fuel (itemTokens items ++ .closeArray :: rest) = some (items, rest) := by
  obtain ⟨fuel, rfl⟩ : ∃ n, fuel = n + 1 := ⟨fuel - 1, by omega⟩
  cases items with
  | nil => exact absurd rfl hne
  | cons item items =>
    have hlength : (itemTokens (item :: items)).length =
        item.tokens.length + (if items.isEmpty then [] else [Token.comma]).length + (itemTokens items).length := by
      rw [itemTokens, List.length_append, List.length_append]
    -- stated before the split on `items`, for which the recursion is structural
    have htail := parseItems_itemTokens items
    rw [itemTokens, List.append_assoc, List.append_assoc, parseItems, parseValue_tokens item _ (by omega)]
    cases items with
    | nil => rfl
    | cons next items =>
      have hcomma : (if (next :: items).isEmpty then [] else [Token.comma]).length = 1 := rfl
      show (parseItems fuel (itemTokens (next :: items) ++ .closeArray :: rest)).map _ = _
      rw [htail nofun rest (by omega)]
      rfl

theorem parseMembers_memberTokens (members : List (String × Value)) (hne : members ≠ []) (rest : List Token)
    {fuel : Nat} (hfuel : 2 * (memberTokens members).length + 1 ≤ fuel) :
    parseMembers fuel (memberTokens members ++ .closeObject :: rest) = some (members, rest) := by
  obtain ⟨fuel, rfl⟩ : ∃ n, fuel = n + 1 := ⟨fuel - 1, by omega⟩
  cases members with
  | nil => exact absurd rfl hne
  | cons member members =>
    obtain ⟨key, value⟩ := member
    have hlength : (memberTokens ((key, value) :: members)).length = value.tokens.length +
        (if members.isEmpty then [] else [Token.comma]).length + (memberTokens members).length + 2 := by
      rw [memberTokens, List.length_cons, List.length_cons, List.length_append, List.length_append]
    have htail := parseMembers_memberTokens members
    rw [memberTokens, List.cons_append, List.cons_append, List.append_assoc, List.append_assoc, parseMembers,
      parseValue_tokens value _ (by omega)]
    cases members with
    | nil => rfl
    | cons next members =>
      have hcomma : (if (next :: members).isEmpty then [] else [Token.comma]).length = 1 := rfl
      show (parseMembers fuel (memberTokens (next :: members) ++ .closeObject :: rest)).map _ = _
      rw [htail nofun rest (by omega)]
      rfl

end

/-- The literals of a tree's numbers are numbers. -/
def Value.Valid (value : Value) : Prop := ∀ t ∈ value.tokens, t.valid = true

theorem valid_null : Value.null.Valid := by simp [Value.Valid, Value.tokens, Token.valid]

theorem valid_string (s : String) : (Value.string s).Valid := by simp [Value.Valid, Value.tokens, Token.valid]

theorem valid_number {literal : String} (h : isNumber literal.toList = true) : (Value.number literal).Valid := by
  simp [Value.Valid, Value.tokens, Token.valid, h]

theorem valid_array {items : List Value} (h : ∀ item ∈ items, item.Valid) : (Value.array items).Valid := by
  have hitems : ∀ t ∈ itemTokens items, t.valid = true := by
    induction items with
    | nil => exact fun _ ht => absurd ht List.not_mem_nil
    | cons item items ih =>
      intro t ht
      rw [itemTokens, List.append_assoc, List.mem_append, List.mem_append] at ht
      rcases ht with ht | ht | ht
      · exact h item List.mem_cons_self t ht
      · split at ht
        · cases ht
        · rw [List.mem_singleton.mp ht]
          rfl
      · exact ih (fun item' hitem => h item' (List.mem_cons_of_mem item hitem)) t ht
  intro t ht
  rw [Value.tokens, List.mem_cons, List.mem_append, List.mem_singleton] at ht
  rcases ht with rfl | ht | rfl
  · rfl
  · exact hitems t ht
  · rfl

theorem valid_object {members : List (String × Value)} (h : ∀ member ∈ members, member.2.Valid) :
    (Value.object members).Valid := by
  have hmembers : ∀ t ∈ memberTokens members, t.valid = true := by
    induction members with
    | nil => exact fun _ ht => absurd ht List.not_mem_nil
    | cons member members ih =>
      intro t ht
      rw [memberTokens, List.mem_cons, List.mem_cons, List.append_assoc, List.mem_append, List.mem_append] at ht
      rcases ht with rfl | rfl | ht | ht | ht
      · rfl
      · rfl
      · exact h member List.mem_cons_self t ht
      · split at ht
        · cases ht
        · rw [List.mem_singleton.mp ht]
          rfl
      · exact ih (fun member' hmember => h member' (List.mem_cons_of_mem member hmember)) t ht
  intro t ht
  rw [Value.tokens, List.mem_cons, List.mem_append, List.mem_singleton] at ht
  rcases ht with rfl | ht | rfl
  · rfl
  · exact hmembers t ht
  · rfl

/-- **Whatever the printer writes is read back**, if the literals of its numbers are numbers. -/
theorem parse_encode (html : Bool) {value : Value} (hvalid : value.Valid) : parse (encode html value) = some value := by
  have hspaced : Spaced value.tokens := by
    have h := @spaced_tokens value [] trivial rfl
    rwa [List.append_nil] at h
  have hparse := parseValue_tokens value [] (Nat.le_refl (2 * value.tokens.length))
  rw [List.append_nil] at hparse
  rw [parse, encode, lex_print html hspaced hvalid, Option.bind_some, hparse]

/-! ## Sizes -/

/-- The bytes a token takes. -/
def Token.size (html : Bool) (token : Token) : Nat := ((token.print html).flatMap String.utf8EncodeChar).length

/-- The bytes a tree takes. -/
def Value.size (html : Bool) (value : Value) : Nat := ((encode html value).flatMap String.utf8EncodeChar).length

theorem size_eq_sum (html : Bool) (value : Value) : value.size html = (value.tokens.map (Token.size html)).sum := by
  rw [Value.size, encode, List.flatMap_assoc, List.length_flatMap]
  rfl

/-- The bytes of items and the commas between them. -/
theorem sum_itemTokens (html : Bool) (items : List Value) :
    (items.map (Value.size html)).sum ≤ ((itemTokens items).map (Token.size html)).sum ∧
    ((itemTokens items).map (Token.size html)).sum ≤ (items.map fun item => item.size html + 1).sum := by
  induction items with
  | nil => exact ⟨Nat.le_refl _, Nat.le_refl _⟩
  | cons item items =>
    have hcomma : ((if items.isEmpty then [] else [Token.comma]).map (Token.size html)).sum ≤ 1 := by
      split
      · exact Nat.zero_le 1
      · exact Nat.le_refl 1
    rw [itemTokens, List.map_append, List.map_append, List.sum_append, List.sum_append, ← size_eq_sum]
    simp only [List.map_cons, List.sum_cons]
    omega

theorem size_array (html : Bool) (items : List Value) :
    (Value.array items).size html = ((itemTokens items).map (Token.size html)).sum + 2 := by
  have hopen : Token.openArray.size html = 1 := rfl
  have hclose : Token.closeArray.size html = 1 := rfl
  rw [size_eq_sum, Value.tokens, List.map_cons, List.map_append, List.sum_cons, List.sum_append, List.map_singleton,
    List.sum_singleton, hopen, hclose]
  omega

/-- A string of one repeated character. -/
theorem size_replicate (html : Bool) (n : Nat) (c : Char) :
    (Value.string (String.ofList (List.replicate n c))).size html =
      n * ((escape html c).flatMap String.utf8EncodeChar).length + 2 := by
  have hquote : (String.utf8EncodeChar '"').length = 1 := rfl
  have hbody : ((List.replicate n c).flatMap fun a => (escape html a).flatMap String.utf8EncodeChar).length =
      n * ((escape html c).flatMap String.utf8EncodeChar).length := by
    simp [List.length_flatMap, List.sum_replicate]
  have hsize : (Value.string (String.ofList (List.replicate n c))).size html =
      (Token.string (String.ofList (List.replicate n c))).size html := by
    rw [size_eq_sum]
    rfl
  rw [hsize, Token.size, Token.print, quote, String.toList_ofList, List.flatMap_cons, List.flatMap_append,
    List.flatMap_assoc, List.flatMap_singleton, List.length_append, List.length_append, hbody, hquote]
  omega

end Json
