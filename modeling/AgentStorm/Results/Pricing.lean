import AgentStorm.Foundation.Decimal
import AgentStorm.Results.Keys

/-!
# `Results.Pricing` — token costs in decimal dollars

`internal/results/pricing.go`. Costs are exact rationals printed with twelve fraction digits, rounded
half away from zero, and read back from their own text. `ratSetString` covers the plain decimals these
functions meet: registered prices match `pricePattern`, and every other operand is a text `floatString`
printed.
-/

namespace AgentStorm.Results

open Checks Text

def costScale : Nat := 12

/-! ## Printing -/

/-- The whole part and the twelve-digit fraction of `|q|`, rounded half up: the long division of
    `big.Rat.FloatString`, with the carry out of the fraction. -/
def costDigits (q : ℚ) : Nat × Nat :=
  let whole := q.num.natAbs / q.den
  let scaled := q.num.natAbs % q.den * 10 ^ costScale
  let fraction := if q.den ≤ 2 * (scaled % q.den) then scaled / q.den + 1 else scaled / q.den
  if 10 ^ costScale ≤ fraction then (whole + 1, fraction - 10 ^ costScale) else (whole, fraction)

/-- `q.FloatString(costScale)` -/
def floatString (q : ℚ) : String :=
  let (whole, fraction) := costDigits q
  String.ofList ((if q < 0 then ['-'] else []) ++ (Nat.toDigits 10 whole ++ '.' :: Decimal.padded costScale fraction))

/-! ## Reading -/

/-- The value of a string of decimal digits. -/
def digitsValue? (cs : List Char) : Option Nat :=
  if cs ≠ [] ∧ cs.all Char.isDigit then some (Nat.ofDigitChars 10 cs 0) else none

/-- An unsigned decimal, with or without a fraction. -/
def unsignedValue? (cs : List Char) : Option ℚ :=
  match cs.splitOn '.' with
  | [whole] => (digitsValue? whole).map fun n : Nat => (n : ℚ)
  | [whole, fraction] =>
    match digitsValue? whole, digitsValue? fraction with
    | some n, some f => some ((n : ℚ) + (f : ℚ) / 10 ^ fraction.length)
    | _, _ => none
  | _ => none

/-- `new(big.Rat).SetString(s)` on plain decimals. -/
def ratSetString (s : String) : Option ℚ :=
  match s.toList with
  | '-' :: cs => (unsignedValue? cs).map fun q => -q
  | cs => unsignedValue? cs

/-! ## Costs -/

def tokenCostUSD (tokens : Int) (pricePerMillion : String) : Except ApiError String := do
  let price ← orElse (ratSetString pricePerMillion) (.internal "invalid USD price")
  reject (decide (price < 0)) (.internal "invalid USD price")
  return floatString (price * tokens / 1000000)

def addDecimalStrings (left right : String) : Except ApiError String := do
  let leftValue ← orElse (ratSetString left) (.internal "invalid decimal")
  let rightValue ← orElse (ratSetString right) (.internal "invalid decimal")
  return floatString (leftValue + rightValue)

def subtractDecimalStrings (left right : String) : Except ApiError String := do
  let leftValue ← orElse (ratSetString left) (.internal "invalid decimal")
  let rightValue ← orElse (ratSetString right) (.internal "invalid decimal")
  return floatString (leftValue - rightValue)

def decimalPercentDelta (baseline candidate : String) : Except ApiError (Option ℚ) := do
  let baselineValue ← orElse (ratSetString baseline) (.internal "invalid decimal")
  if baselineValue = 0 then
    return none
  let candidateValue ← orElse (ratSetString candidate) (.internal "invalid decimal")
  return some ((candidateValue - baselineValue) / baselineValue * 100)

/-- The three costs of a case or a shard; all absent without pricing. -/
structure Costs where
  input : Option String
  output : Option String
  total : Option String
  deriving DecidableEq, Repr

def Costs.none : Costs := ⟨.none, .none, .none⟩

def costsForTokens (pricing : Option RunPricing) (inputTokens outputTokens : Int) : Except ApiError Costs :=
  match pricing with
  | .none => return Costs.none
  | .some p => do
      let input ← tokenCostUSD inputTokens p.inputUSDPerMillionTokens
      let output ← tokenCostUSD outputTokens p.outputUSDPerMillionTokens
      let total ← addDecimalStrings input output
      return ⟨some input, some output, some total⟩

/-! ## A printed cost reads back -/

/-- The value `floatString` prints: `|q|` in whole units of the cost scale, with the sign of `q`. -/
def roundedUSD (q : ℚ) : ℚ :=
  let (whole, fraction) := costDigits q
  let value : ℚ := (whole : ℚ) + (fraction : ℚ) / 10 ^ costScale
  if q < 0 then -value else value

theorem costDigits_fraction_lt (q : ℚ) : (costDigits q).2 < 10 ^ costScale := by
  have hquot : q.num.natAbs % q.den * 10 ^ costScale / q.den < 10 ^ costScale := by
    apply Nat.div_lt_of_lt_mul
    exact Nat.mul_lt_mul_of_pos_right (Nat.mod_lt _ q.den_pos) (by decide)
  unfold costDigits
  dsimp only
  generalize q.num.natAbs % q.den * 10 ^ costScale / q.den = k at hquot ⊢
  -- Rounding adds at most one, so a fraction that overflows leaves exactly zero behind.
  have hround : (if q.den ≤ 2 * (q.num.natAbs % q.den * 10 ^ costScale % q.den) then k + 1 else k) ≤ k + 1 := by
    split <;> omega
  generalize (if q.den ≤ 2 * (q.num.natAbs % q.den * 10 ^ costScale % q.den) then k + 1 else k) = r at hround ⊢
  by_cases hcarry : 10 ^ costScale ≤ r
  · rw [if_pos hcarry]
    show r - 10 ^ costScale < 10 ^ costScale
    omega
  · rw [if_neg hcarry]
    exact Nat.lt_of_not_le hcarry

theorem digitsValue?_toDigits (n : Nat) : digitsValue? (Nat.toDigits 10 n) = some n := by
  unfold digitsValue?
  have hall : (Nat.toDigits 10 n).all Char.isDigit = true := by
    rw [List.all_eq_true]
    intro c hc
    exact Nat.isDigit_of_mem_toDigits (by decide) (by decide) hc
  rw [if_pos ⟨Nat.toDigits_ne_nil, hall⟩, Nat.ofDigitChars_ten_toDigits]

theorem digitsValue?_padded (width n : Nat) : digitsValue? (Decimal.padded width n) = some n := by
  have hne : Decimal.padded width n ≠ [] := fun h => Nat.toDigits_ne_nil (List.append_eq_nil_iff.mp h).2
  unfold digitsValue?
  rw [if_pos ⟨hne, Decimal.isDigit_padded width n⟩, Decimal.ofDigitChars_padded]

theorem ne_dot_of_isDigit {c : Char} (h : c.isDigit = true) : (c == '.') = false := by
  rw [beq_eq_false_iff_ne]
  rintro rfl
  exact absurd h (by decide)

/-- Two digit strings around a point are split there. -/
theorem splitOn_decimal {whole fraction : List Char} {n f : Nat} (hn : digitsValue? whole = some n)
    (hf : digitsValue? fraction = some f) : (whole ++ '.' :: fraction).splitOn '.' = [whole, fraction] := by
  have hdigits : ∀ {cs : List Char} {m : Nat}, digitsValue? cs = some m → ∀ c ∈ cs, (c == '.') = false := by
    intro cs m hcs c hc
    unfold digitsValue? at hcs
    split at hcs
    · rename_i hok
      exact ne_dot_of_isDigit (List.all_eq_true.mp hok.2 c hc)
    · cases hcs
  unfold List.splitOn
  rw [List.splitOnP_append_cons_of_forall_mem (hdigits hn) _ (by decide), List.splitOnP_eq_singleton (hdigits hf)]

theorem unsignedValue?_decimal {whole fraction : List Char} {n f : Nat}
    (hn : digitsValue? whole = some n) (hf : digitsValue? fraction = some f) :
    unsignedValue? (whole ++ '.' :: fraction) = some ((n : ℚ) + (f : ℚ) / 10 ^ fraction.length) := by
  unfold unsignedValue?
  rw [splitOn_decimal hn hf]
  simp [hn, hf]

/-- **A printed cost reads back** as the value it was rounded to. -/
theorem ratSetString_floatString (q : ℚ) : ratSetString (floatString q) = some (roundedUSD q) := by
  have hread := unsignedValue?_decimal (digitsValue?_toDigits (costDigits q).1)
    (digitsValue?_padded costScale (costDigits q).2)
  rw [Decimal.length_padded (by decide) (costDigits_fraction_lt q)] at hread
  unfold ratSetString floatString roundedUSD
  dsimp only
  rw [String.toList_ofList]
  by_cases hneg : q < 0
  · rw [if_pos hneg, if_pos hneg]
    simp only [List.cons_append, List.nil_append]
    rw [hread]
    rfl
  · rw [if_neg hneg, if_neg hneg, List.nil_append]
    split
    · -- an unsigned text starts with a digit, so it is never taken for a negative one
      rename_i cs hcs
      cases hds : Nat.toDigits 10 (costDigits q).1 with
      | nil => exact absurd hds Nat.toDigits_ne_nil
      | cons d =>
        rw [hds, List.cons_append] at hcs
        have hmem : d ∈ Nat.toDigits 10 (costDigits q).1 := by rw [hds]; exact List.mem_cons_self
        have hd : d.isDigit = true := Nat.isDigit_of_mem_toDigits (by decide) (by decide) hmem
        rw [(List.cons.inj hcs).1] at hd
        exact absurd hd (by decide)
    · exact hread

theorem addDecimalStrings_floatString (p q : ℚ) :
    addDecimalStrings (floatString p) (floatString q) = .ok (floatString (roundedUSD p + roundedUSD q)) := by
  simp [addDecimalStrings, ratSetString_floatString, orElse, pure, Except.pure]

/-- No unsigned decimal starts with a dash. -/
theorem unsignedValue?_dash (cs : List Char) : unsignedValue? ('-' :: cs) = none := by
  have hdash : ∀ ds : List Char, digitsValue? ('-' :: ds) = none := fun ds => if_neg (by simp)
  have hsplit : ('-' :: cs).splitOn '.' = (cs.splitOn '.').modifyHead ('-' :: ·) := by
    simp [List.splitOn, List.splitOnP_cons_eq_if_modifyHead]
  unfold unsignedValue?
  rw [hsplit]
  rcases cs.splitOn '.' with _ | ⟨_, _ | ⟨_, _ | ⟨_, _⟩⟩⟩
  · rfl
  · simp [hdash]
  · simp [hdash]
  · rfl

/-- An unsigned decimal has no sign to read: its first character is a digit. -/
theorem ratSetString_of_unsigned {s : String} {q : ℚ} (h : unsignedValue? s.toList = some q) : ratSetString s = some q := by
  unfold ratSetString
  split
  · rename_i cs hcs
    rw [hcs, unsignedValue?_dash] at h
    cases h
  · exact h

theorem digitsValue?_isSome {cs : List Char} (hne : cs ≠ []) (hall : cs.all Char.isDigit = true) :
    ∃ n, digitsValue? cs = some n :=
  ⟨_, if_pos ⟨hne, hall⟩⟩

theorem wholePart_digits {cs : List Char} (h : pricePattern.wholePart cs = true) :
    cs ≠ [] ∧ cs.all Char.isDigit = true := by
  cases cs with
  | nil => exact Bool.noConfusion h
  | cons =>
    refine ⟨by simp, ?_⟩
    simp only [pricePattern.wholePart, Bool.or_eq_true, Bool.and_eq_true, beq_iff_eq] at h
    rw [List.all_cons]
    rcases h with ⟨rfl, hnil⟩ | ⟨⟨⟨hc, -⟩, hcs⟩, -⟩
    · rw [List.isEmpty_iff.mp hnil]
      decide
    · rw [hc, hcs]
      rfl

/-- **A registered price is a number**, and not a negative one. -/
theorem ratSetString_of_pricePattern {s : String} (h : pricePattern s = true) :
    ∃ price, ratSetString s = some price ∧ 0 ≤ price := by
  have hread : ∃ price, unsignedValue? s.toList = some price ∧ 0 ≤ price := by
    unfold pricePattern at h
    split at h
    · rename_i whole hsplit
      obtain ⟨n, hn⟩ := digitsValue?_isSome (wholePart_digits h).1 (wholePart_digits h).2
      refine ⟨n, ?_, by positivity⟩
      unfold unsignedValue?
      rw [hsplit]
      simp [hn]
    · rename_i whole fraction hsplit
      simp only [Bool.and_eq_true, decide_eq_true_eq] at h
      obtain ⟨⟨⟨hwhole, hfrac⟩, hlen⟩, -⟩ := h
      obtain ⟨n, hn⟩ := digitsValue?_isSome (wholePart_digits hwhole).1 (wholePart_digits hwhole).2
      obtain ⟨f, hf⟩ := digitsValue?_isSome (List.ne_nil_of_length_pos hlen) hfrac
      refine ⟨(n : ℚ) + (f : ℚ) / 10 ^ fraction.length, ?_, by positivity⟩
      unfold unsignedValue?
      rw [hsplit]
      simp [hn, hf]
    · exact Bool.noConfusion h
  obtain ⟨price, hprice, hpos⟩ := hread
  exact ⟨price, ratSetString_of_unsigned hprice, hpos⟩

theorem tokenCostUSD_ok (tokens : Int) {s : String} (h : pricePattern s = true) :
    ∃ q, tokenCostUSD tokens s = .ok (floatString q) := by
  obtain ⟨price, hprice, hpos⟩ := ratSetString_of_pricePattern h
  refine ⟨price * tokens / 1000000, ?_⟩
  simp [tokenCostUSD, hprice, orElse, pure, Except.pure, bind, Except.bind, not_lt.mpr hpos]

/-- Costs as `floatString` prints them. -/
def Costs.Printed (costs : Costs) : Prop :=
  ∀ s, costs.input = some s ∨ costs.output = some s ∨ costs.total = some s → ∃ q, s = floatString q

theorem Costs.printed_none : Costs.none.Printed := by
  rintro s (hs | hs | hs) <;> exact nomatch hs

/-- **Costs can always be calculated** from pricing a registration may carry. -/
theorem costsForTokens_ok {pricing : Option RunPricing}
    (h : ∀ p, pricing = some p →
      pricePattern p.inputUSDPerMillionTokens = true ∧ pricePattern p.outputUSDPerMillionTokens = true)
    (inputTokens outputTokens : Int) :
    ∃ costs, costsForTokens pricing inputTokens outputTokens = .ok costs ∧ costs.Printed := by
  cases pricing with
  | none => exact ⟨Costs.none, rfl, Costs.printed_none⟩
  | some p =>
    obtain ⟨hin, hout⟩ := h p rfl
    obtain ⟨qi, hqi⟩ := tokenCostUSD_ok inputTokens hin
    obtain ⟨qo, hqo⟩ := tokenCostUSD_ok outputTokens hout
    refine ⟨⟨some (floatString qi), some (floatString qo), some (floatString (roundedUSD qi + roundedUSD qo))⟩, ?_, ?_⟩
    · simp [costsForTokens, hqi, hqo, addDecimalStrings_floatString, pure, Except.pure, bind, Except.bind]
    · rintro s (hs | hs | hs) <;> exact ⟨_, (Option.some.inj hs).symm⟩

end AgentStorm.Results
