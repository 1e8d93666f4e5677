import AgentStorm.Results.Pricing

/-!
# `Worker.Pricing` — token costs on the worker's side

`pricing.py` computes the costs of a case in decimal floating point, the Result API in exact rationals.
Both print twelve fraction digits, but the worker rounds half to even and the API half away from zero,
and the worker adds its two costs with a precision of 28 digits (`pricing_agrees_iff`).
-/

namespace AgentStorm.Worker

open Decimal Results

/-- `_SCALE` -/
def scale : Int := -12

/-- `_MILLION` -/
def million : Dec := ⟨1000000, 0⟩

/-- `token_cost_usd`, if nothing raises. -/
def tokenCostUSD (tokens : Nat) (pricePerMillion : String) : Option String := do
  let price ← parse pricePerMillion
  let cost := div 64 (mul 64 ⟨tokens, 0⟩ price) million
  return format (← quantize 64 cost scale)

/-- `case_costs`, if nothing raises. The total is computed in the default context. -/
def caseCosts (pricing : Option RunPricing) (inputTokens outputTokens : Nat) : Option Costs :=
  match pricing with
  | none => some Costs.none
  | some p => do
      let inputCost ← tokenCostUSD inputTokens p.inputUSDPerMillionTokens
      let outputCost ← tokenCostUSD outputTokens p.outputUSDPerMillionTokens
      let total ← quantize 28 (add 28 (← parse inputCost) (← parse outputCost)) scale
      return ⟨some inputCost, some outputCost, some (format total)⟩

/-! ## Printed costs -/

variable {d : Nat}

/-- The text of a number of units of the last digit. -/
def costText (n : Nat) : String :=
  String.ofList (Nat.toDigits 10 (n / 10 ^ costScale) ++ '.' :: Decimal.padded costScale (n % 10 ^ costScale))

theorem format_scale (n : Nat) : format ⟨n, scale⟩ = costText n := rfl

theorem unsignedValue?_costText (n : Nat) : unsignedValue? (costText n).toList = some ((n : ℚ) / 10 ^ costScale) := by
  have hlt : n % 10 ^ costScale < 10 ^ costScale := Nat.mod_lt _ (by positivity)
  rw [costText, String.toList_ofList,
    unsignedValue?_decimal (digitsValue?_toDigits _) (digitsValue?_padded costScale _), Decimal.length_padded (by decide) hlt]
  have hsplit : (n : ℚ) = ((n / 10 ^ costScale : Nat) : ℚ) * 10 ^ costScale + ((n % 10 ^ costScale : Nat) : ℚ) := by
    exact_mod_cast (Nat.div_add_mod' n (10 ^ costScale)).symm
  rw [hsplit, add_div, mul_div_cancel_right₀ _ (by positivity)]

theorem costText_inj {m n : Nat} (h : costText m = costText n) : m = n := by
  have hm := unsignedValue?_costText m
  rw [h, unsignedValue?_costText n, Option.some.injEq, div_left_inj' (by positivity)] at hm
  exact_mod_cast hm.symm

/-- Rounding half up, which is away from zero here. -/
def halfUp (n d : Nat) : Nat := if d ≤ 2 * (n % d) then n / d + 1 else n / d

/-- The long division of `FloatString` rounds half up. -/
theorem costDigits_eq (q : ℚ) :
    costDigits q = (halfUp (q.num.natAbs * 10 ^ costScale) q.den / 10 ^ costScale,
      halfUp (q.num.natAbs * 10 ^ costScale) q.den % 10 ^ costScale) := by
  have hpos : 0 < 10 ^ costScale := by positivity
  have hsplit : q.num.natAbs * 10 ^ costScale =
      q.den * (q.num.natAbs / q.den * 10 ^ costScale) + q.num.natAbs % q.den * 10 ^ costScale := by
    rw [← mul_assoc, ← add_mul, Nat.div_add_mod]
  have hdiv : q.num.natAbs * 10 ^ costScale / q.den =
      q.num.natAbs / q.den * 10 ^ costScale + q.num.natAbs % q.den * 10 ^ costScale / q.den := by
    rw [hsplit, Nat.mul_add_div q.den_pos]
  have hmod : q.num.natAbs * 10 ^ costScale % q.den = q.num.natAbs % q.den * 10 ^ costScale % q.den := by
    rw [hsplit, Nat.mul_add_mod]
  have hlt : q.num.natAbs % q.den * 10 ^ costScale / q.den < 10 ^ costScale :=
    Nat.div_lt_of_lt_mul (Nat.mul_lt_mul_of_pos_right (Nat.mod_lt _ q.den_pos) hpos)
  unfold costDigits halfUp
  rw [hdiv, hmod]
  dsimp only
  generalize q.num.natAbs / q.den = whole
  generalize q.num.natAbs % q.den * 10 ^ costScale / q.den = k at hlt ⊢
  generalize q.num.natAbs % q.den * 10 ^ costScale % q.den = r
  generalize 10 ^ costScale = unit at hpos hlt ⊢
  -- a fraction that rounds up to a whole unit is carried
  have hcarry : ∀ fraction ≤ unit, (if unit ≤ fraction then (whole + 1, fraction - unit) else (whole, fraction)) =
      ((whole * unit + fraction) / unit, (whole * unit + fraction) % unit) := by
    intro fraction hle
    rcases hle.lt_or_eq with hfraction | rfl
    · rw [if_neg (not_le.mpr hfraction), mul_comm, Nat.mul_add_div hpos, Nat.div_eq_of_lt hfraction, Nat.mul_add_mod,
        Nat.mod_eq_of_lt hfraction, add_zero]
    · rw [if_pos le_rfl, ← Nat.succ_mul, Nat.mul_div_cancel _ hpos, Nat.mul_mod_left, Nat.sub_self]
  by_cases hhalf : q.den ≤ 2 * r
  · rw [if_pos hhalf, if_pos hhalf, hcarry _ hlt, add_assoc]
  · rw [if_neg hhalf, if_neg hhalf, hcarry _ hlt.le]

theorem floatString_eq {q : ℚ} (hq : 0 ≤ q) : floatString q = costText (halfUp (q.num.toNat * 10 ^ costScale) q.den) := by
  have hnum : q.num.natAbs = q.num.toNat := by
    have := Rat.num_nonneg.mpr hq
    omega
  unfold floatString costText
  rw [costDigits_eq, hnum, if_neg (not_lt.mpr hq)]
  rfl

theorem halfUp_mul (n : Nat) (hd : 0 < d) : halfUp (n * d) d = n := by
  rw [halfUp, Nat.mul_mod_left, Nat.mul_div_cancel n hd, if_neg (by omega)]

/-- Equal quotients round alike. -/
theorem halfUp_eq_of_mul_eq {n m : Nat} (hd : 0 < d) (h : n = m * d) :
    halfUp n d = m := h ▸ halfUp_mul m hd

/-- Half way above an even number of units. -/
def EvenTie (q : ℚ) : Prop := ∃ m : Nat, q = 2 * m + 1 / 2

theorem evenTie_div_iff (n : Nat) (hd : 0 < d) :
    EvenTie ((n : ℚ) / d) ↔ 2 * (n % d) = d ∧ n / d % 2 = 0 := by
  have hdq : (d : ℚ) ≠ 0 := Nat.cast_ne_zero.mpr hd.ne'
  have htwice : ∀ m : Nat, (n : ℚ) / d = 2 * m + 1 / 2 ↔ 2 * n = d * (4 * m) + d := by
    intro m
    rw [div_eq_iff hdq]
    constructor
    · intro h
      have hq : (2 * n : ℚ) = d * (4 * m) + d := by rw [h]; ring
      exact_mod_cast hq
    · intro h
      have hq : (2 * n : ℚ) = d * (4 * m) + d := by exact_mod_cast h
      linear_combination hq / 2
  constructor
  · rintro ⟨m, hm⟩
    have h := (htwice m).mp hm
    have hquad : d * (4 * m) = 2 * (d * (2 * m)) := by ring
    obtain ⟨half, rfl⟩ : ∃ half, d = 2 * half := ⟨d / 2, by omega⟩
    obtain rfl : n = 2 * half * (2 * m) + half := by omega
    rw [Nat.mul_add_mod, Nat.mod_eq_of_lt (by omega), Nat.mul_add_div hd, Nat.div_eq_of_lt (by omega)]
    omega
  · rintro ⟨hhalf, heven⟩
    refine ⟨n / d / 2, (htwice _).mpr ?_⟩
    have hquot : 4 * (n / d / 2) = 2 * (n / d) := by omega
    have hn := Nat.div_add_mod n d
    have hcomm : d * (2 * (n / d)) = 2 * (d * (n / d)) := by ring
    rw [hquot, hcomm]
    omega

theorem not_evenTie_natCast (n : Nat) : ¬EvenTie (n : ℚ) := by
  have hiff := evenTie_div_iff n Nat.one_pos
  rw [Nat.cast_one, div_one, Nat.mod_one] at hiff
  rw [hiff]
  omega

/-- **The two roundings differ at even ties only.** -/
theorem halfUp_eq_roundHalfEven_iff (n : Nat) (hd : 0 < d) :
    halfUp n d = roundHalfEven n d ↔ ¬EvenTie ((n : ℚ) / d) := by
  rw [evenTie_div_iff n hd]
  unfold halfUp roundHalfEven
  rcases lt_trichotomy (2 * (n % d)) d with hbelow | htie | habove
  · rw [if_neg (not_le.mpr hbelow), if_pos hbelow]
    exact iff_of_true rfl fun h => hbelow.ne h.1
  · rw [if_pos htie.ge, if_neg htie.not_lt, if_neg htie.not_gt]
    split
    · omega
    · exact iff_of_true rfl (by omega)
  · rw [if_pos habove.le, if_neg habove.not_gt, if_pos habove]
    exact iff_of_true rfl fun h => habove.ne' h.1

/-! ## One cost -/

theorem ofDigitChars_lt {cs : List Char} (h : cs.all Char.isDigit = true) : Nat.ofDigitChars 10 cs 0 < 10 ^ cs.length := by
  induction cs using List.reverseRecOn with
  | nil => simp
  | append_singleton cs c ih =>
    rw [List.all_append, Bool.and_eq_true] at h
    have hc : c.toNat - '0'.toNat < 10 := by
      have hdigit := h.2
      simp only [List.all_cons, List.all_nil, Bool.and_true, Char.isDigit, Bool.and_eq_true, decide_eq_true_eq,
        UInt32.le_iff_toNat_le] at hdigit
      have hhigh : c.toNat ≤ 57 := hdigit.2
      show c.toNat - 48 < 10
      omega
    have hcs := ih h.1
    rw [Nat.ofDigitChars_append, Nat.ofDigitChars_cons, Nat.ofDigitChars_nil, List.length_append, List.length_singleton,
      pow_succ]
    omega

/-- A registered price is a decimal of at most thirty digits, the same on both sides. -/
theorem parse_of_pricePattern {price : String} (h : pricePattern price = true) :
    ∃ coeff k : Nat, parse price = some ⟨coeff, -(k : Int)⟩ ∧ coeff < 10 ^ 30 ∧ k ≤ 12 ∧
      ratSetString price = some (Dec.value ⟨coeff, -(k : Int)⟩) := by
  have hshort : ∀ {whole : List Char}, pricePattern.wholePart whole = true → whole.length ≤ 18 := by
    intro whole hwhole
    cases whole with
    | nil => exact Nat.zero_le _
    | cons =>
      simp only [pricePattern.wholePart, Bool.or_eq_true, Bool.and_eq_true, decide_eq_true_eq] at hwhole
      rcases hwhole with ⟨-, hnil⟩ | ⟨-, hlen⟩
      · rw [List.isEmpty_iff.mp hnil]
        simp
      · rw [List.length_cons]
        omega
  unfold pricePattern at h
  split at h
  · rename_i whole hsplit
    obtain ⟨hne, hall⟩ := wholePart_digits h
    refine ⟨Nat.ofDigitChars 10 whole 0, 0, ?_, ?_, by decide, ratSetString_of_unsigned ?_⟩
    · rw [parse, hsplit]
      simp [hne, hall]
    · exact (ofDigitChars_lt hall).trans_le (Nat.pow_le_pow_right (by decide) ((hshort h).trans (by decide)))
    · have hvalue : digitsValue? whole = some (Nat.ofDigitChars 10 whole 0) := if_pos ⟨hne, hall⟩
      rw [unsignedValue?, hsplit]
      simp [hvalue, Dec.value]
  · rename_i whole fraction hsplit
    simp only [Bool.and_eq_true, decide_eq_true_eq] at h
    obtain ⟨⟨⟨hwhole, hfrac⟩, hlow⟩, hhigh⟩ := h
    obtain ⟨hne, hall⟩ := wholePart_digits hwhole
    have hne' : fraction ≠ [] := List.ne_nil_of_length_pos hlow
    refine ⟨Nat.ofDigitChars 10 (whole ++ fraction) 0, fraction.length, ?_, ?_, hhigh, ratSetString_of_unsigned ?_⟩
    · rw [parse, hsplit]
      simp [hne, hall, hne', hfrac]
    · refine (ofDigitChars_lt (by rw [List.all_append, hall, hfrac]; rfl)).trans_le
        (Nat.pow_le_pow_right (by decide) ?_)
      have := hshort hwhole
      rw [List.length_append]
      omega
    · have hvalue : digitsValue? whole = some (Nat.ofDigitChars 10 whole 0) := if_pos ⟨hne, hall⟩
      have hvalue' : digitsValue? fraction = some (Nat.ofDigitChars 10 fraction 0) := if_pos ⟨hne', hfrac⟩
      have happend : Nat.ofDigitChars 10 (whole ++ fraction) 0 =
          10 ^ fraction.length * Nat.ofDigitChars 10 whole 0 + Nat.ofDigitChars 10 fraction 0 := by
        rw [Nat.ofDigitChars_append, Nat.ofDigitChars_eq_ofDigitChars_zero]
      simp only [unsignedValue?, hsplit, hvalue, hvalue', Dec.value, happend, zpow_neg, zpow_natCast]
      push_cast
      rw [← div_eq_mul_inv, add_div, mul_div_cancel_left₀ _ (by positivity)]
  · exact Bool.noConfusion h

/-- The cost of tokens at a price, in units of the last printed digit. -/
def units (price : ℚ) (tokens : Nat) : ℚ := price * tokens * 10 ^ 6

/-- What the worker prints: the units rounded half to even. -/
theorem tokenCostUSD_eq {price : String} (h : pricePattern price = true) {tokens : Nat} (htokens : tokens < 2 ^ 63) {q : ℚ}
    (hq : ratSetString price = some q) : tokenCostUSD tokens price = some (costText (nearestEven (units q tokens))) := by
  have hten : (10 : ℚ) ≠ 0 := by norm_num
  obtain ⟨coeff, k, hparse, hcoeff, hk, hvalue⟩ := parse_of_pricePattern h
  obtain rfl : q = Dec.value ⟨coeff, -(k : Int)⟩ := Option.some.inj (hq.symm.trans hvalue)
  have hproduct : tokens * coeff < 10 ^ 64 := by
    calc tokens * coeff ≤ 2 ^ 63 * 10 ^ 30 := Nat.mul_le_mul htokens.le hcoeff.le
      _ < 10 ^ 64 := by norm_num
  have hmul : (mul 64 ⟨tokens, 0⟩ ⟨coeff, -(k : Int)⟩).value = tokens * Dec.value ⟨coeff, -(k : Int)⟩ := by
    rw [value_mul (by decide) hproduct]
    simp [Dec.value]
  have hdiv : (div 64 (mul 64 ⟨tokens, 0⟩ ⟨coeff, -(k : Int)⟩) million).value =
      tokens * Dec.value ⟨coeff, -(k : Int)⟩ / 10 ^ 6 := by
    rw [value_div (by decide) (by decide) hproduct (e := -(k : Int) - 6) ?_, hmul]
    · norm_num [Dec.value, million]
    · rw [hmul]
      simp only [Dec.value, million]
      push_cast
      rw [zpow_sub₀ hten]
      norm_num
      ring
  have hunits : (div 64 (mul 64 ⟨tokens, 0⟩ ⟨coeff, -(k : Int)⟩) million).value / (10 : ℚ) ^ scale =
      units (Dec.value ⟨coeff, -(k : Int)⟩) tokens := by
    rw [hdiv, units, scale]
    norm_num
    ring
  have hsmall : units (Dec.value ⟨coeff, -(k : Int)⟩) tokens ≤ ((2 ^ 63 * 10 ^ 36 : Nat) : ℚ) := by
    have hprice : Dec.value ⟨coeff, -(k : Int)⟩ ≤ coeff := by
      rw [Dec.value]
      exact mul_le_of_le_one_right (Nat.cast_nonneg _) (zpow_le_one_of_nonpos₀ (by norm_num) (by simp))
    have hbound : ((coeff * tokens : Nat) : ℚ) ≤ ((10 ^ 30 * 2 ^ 63 : Nat) : ℚ) :=
      Nat.cast_le.mpr (Nat.mul_le_mul hcoeff.le htokens.le)
    calc units (Dec.value ⟨coeff, -(k : Int)⟩) tokens ≤ (coeff : ℚ) * tokens * 10 ^ 6 := by
          rw [units]
          gcongr
      _ ≤ ((2 ^ 63 * 10 ^ 36 : Nat) : ℚ) := by
          push_cast at hbound ⊢
          linarith
  have hfits : nearestEven (units (Dec.value ⟨coeff, -(k : Int)⟩) tokens) < 10 ^ 64 :=
    (nearestEven_le (by rw [units, Dec.value]; positivity) hsmall).trans_lt (by norm_num)
  rw [← hunits] at hfits ⊢
  simp only [tokenCostUSD, hparse, Option.bind_eq_bind, Option.bind_some, quantize_eq_some (by decide) hfits, format_scale]
  rfl

/-- What the API prints: the units rounded half up. -/
theorem goTokenCostUSD_eq {price : String} {tokens : Nat} {q : ℚ} (hq : ratSetString price = some q) (hpos : 0 ≤ q) :
    ∃ n d : Nat, 0 < d ∧ (n : ℚ) / d = units q tokens ∧
      Results.tokenCostUSD tokens price = .ok (costText (halfUp n d)) := by
  have hcost : 0 ≤ q * tokens / 1000000 := by positivity
  refine ⟨(q * tokens / 1000000).num.toNat * 10 ^ costScale, _, (q * tokens / 1000000).den_pos, ?_, ?_⟩
  · have hnum : ((q * tokens / 1000000).num.toNat : ℚ) = (q * tokens / 1000000).num := by
      exact_mod_cast Int.toNat_of_nonneg (Rat.num_nonneg.mpr hcost)
    push_cast
    rw [hnum, mul_div_right_comm, Rat.num_div_den, units, costScale]
    ring
  · rw [Results.tokenCostUSD, hq]
    simp only [Checks.orElse, bind, Except.bind, Checks.reject, decide_eq_false (not_lt.mpr hpos), Bool.false_eq_true,
      if_false]
    rw [← floatString_eq hcost]
    rfl

/-- The price a text denotes. -/
def priceValue (price : String) : ℚ := (ratSetString price).getD 0

section Agreement

variable {price : String} (hprice : pricePattern price = true)

include hprice in
theorem ratSetString_priceValue : ratSetString price = some (priceValue price) ∧ 0 ≤ priceValue price := by
  obtain ⟨q, hq, hpos⟩ := ratSetString_of_pricePattern hprice
  rw [priceValue, hq]
  exact ⟨rfl, hpos⟩

include hprice in
/-- The two printed costs, of which the second is the first unless there is an even tie. -/
theorem tokenCosts {tokens : Nat} (htokens : tokens < 2 ^ 63) :
    ∃ n, tokenCostUSD tokens price = some (costText (nearestEven (units (priceValue price) tokens))) ∧
      Results.tokenCostUSD tokens price = .ok (costText n) ∧
      (n = nearestEven (units (priceValue price) tokens) ↔ ¬EvenTie (units (priceValue price) tokens)) := by
  obtain ⟨hvalue, hpos⟩ := ratSetString_priceValue hprice
  obtain ⟨n, d, hd, hunits, hgo⟩ := @goTokenCostUSD_eq price tokens _ hvalue hpos
  refine ⟨halfUp n d, tokenCostUSD_eq hprice htokens hvalue, hgo, ?_⟩
  rw [← hunits, ← roundHalfEven_eq n hd]
  exact halfUp_eq_roundHalfEven_iff n hd

end Agreement

/-! ## The costs of a case -/

theorem parse_costText (n : Nat) : parse (costText n) = some ⟨n, scale⟩ := by
  have hlt : n % 10 ^ costScale < 10 ^ costScale := Nat.mod_lt _ (by positivity)
  have hwhole := digitsValue?_toDigits (n / 10 ^ costScale)
  have hfraction := digitsValue?_padded costScale (n % 10 ^ costScale)
  have hdigits : ∀ {cs : List Char} {m : Nat}, digitsValue? cs = some m →
      (!cs.isEmpty && cs.all Char.isDigit) = true ∧ Nat.ofDigitChars 10 cs 0 = m := by
    intro cs m hcs
    unfold digitsValue? at hcs
    split at hcs
    · rename_i hok
      exact ⟨by rw [hok.2, Bool.and_true]; simpa using hok.1, Option.some.inj hcs⟩
    · cases hcs
  unfold parse
  rw [costText, String.toList_ofList, splitOn_decimal hwhole hfraction]
  simp only [(hdigits hwhole).1, (hdigits hfraction).1, Bool.and_self, if_true, Decimal.length_padded (by decide) hlt,
    Nat.ofDigitChars_append, (hdigits hwhole).2]
  rw [Nat.ofDigitChars_eq_ofDigitChars_zero, (hdigits hfraction).2, Decimal.length_padded (by decide) hlt, Nat.div_add_mod]
  rfl

theorem ratSetString_costText (n : Nat) : ratSetString (costText n) = some ((n : ℚ) / 10 ^ costScale) :=
  ratSetString_of_unsigned (unsignedValue?_costText n)

theorem floatString_units (n : Nat) : floatString ((n : ℚ) / 10 ^ costScale) = costText n := by
  have hq : 0 ≤ (n : ℚ) / 10 ^ costScale := by positivity
  have hnum : (((n : ℚ) / 10 ^ costScale).num.toNat : ℚ) = ((n : ℚ) / 10 ^ costScale).num := by
    exact_mod_cast Int.toNat_of_nonneg (Rat.num_nonneg.mpr hq)
  rw [floatString_eq hq]
  refine congrArg costText (halfUp_eq_of_mul_eq (Rat.den_pos _) ?_)
  have hquot := Rat.num_div_den ((n : ℚ) / 10 ^ costScale)
  rw [div_eq_div_iff (Nat.cast_ne_zero.mpr (Rat.den_nz _)) (by positivity), ← hnum] at hquot
  exact_mod_cast hquot

theorem addDecimalStrings_costText (m n : Nat) : addDecimalStrings (costText m) (costText n) = .ok (costText (m + n)) := by
  rw [← floatString_units (m + n), Nat.cast_add, add_div]
  simp [addDecimalStrings, ratSetString_costText, Checks.orElse, pure, Except.pure, bind, Except.bind]

/-- The total of two printed costs, which needs 28 digits. -/
theorem total_eq (m n : Nat) :
    quantize 28 (add 28 ⟨m, scale⟩ ⟨n, scale⟩) scale = if m + n < 10 ^ 28 then some ⟨m + n, scale⟩ else none := by
  split
  · rename_i hfits
    have hvalue : Dec.value ⟨m + n, scale⟩ / (10 : ℚ) ^ scale = ((m + n : Nat) : ℚ) :=
      mul_div_cancel_right₀ _ (zpow_ne_zero _ (by norm_num))
    have hsum := add_of_lt (by decide) scale hfits
    rw [hsum, quantize_eq_some (by decide), hvalue, nearestEven_natCast]
    rwa [hvalue, nearestEven_natCast]
  · rename_i hlarge
    exact quantize_add_eq_none (by decide) scale (not_lt.mp hlarge)

/-- **When worker and API price alike.** For one price, the printed costs are the same exactly if the cost is not half way
    above an even number of units. For a pair, the worker computes the same three texts exactly if neither cost is such
    a tie and the printed costs are together below 10²⁸ units, which is 10¹⁶ dollars; above that it raises. -/
theorem pricing_agrees_iff (p : RunPricing) (hin : pricePattern p.inputUSDPerMillionTokens = true)
    (hout : pricePattern p.outputUSDPerMillionTokens = true) {inputTokens outputTokens : Nat}
    (hinput : inputTokens < 2 ^ 63) (houtput : outputTokens < 2 ^ 63) :
    let inputUnits := units (priceValue p.inputUSDPerMillionTokens) inputTokens
    let outputUnits := units (priceValue p.outputUSDPerMillionTokens) outputTokens
    ((∃ cost, tokenCostUSD inputTokens p.inputUSDPerMillionTokens = some cost ∧
      Results.tokenCostUSD inputTokens p.inputUSDPerMillionTokens = .ok cost) ↔ ¬EvenTie inputUnits) ∧
    ((∃ costs, caseCosts (some p) inputTokens outputTokens = some costs ∧
      costsForTokens (some p) inputTokens outputTokens = .ok costs) ↔
        ¬EvenTie inputUnits ∧ ¬EvenTie outputUnits ∧ nearestEven inputUnits + nearestEven outputUnits < 10 ^ 28) := by
  intro inputUnits outputUnits
  obtain ⟨m, hpy, hgo, htie⟩ := tokenCosts hin hinput
  obtain ⟨n, hpy', hgo', htie'⟩ := tokenCosts hout houtput
  constructor
  · rw [← htie, hpy, hgo]
    constructor
    · rintro ⟨_, hcost, hcost'⟩
      exact costText_inj ((Except.ok.inj hcost').trans (Option.some.inj hcost).symm)
    · intro heq
      exact ⟨_, rfl, by rw [heq]⟩
  · rw [← htie, ← htie']
    have hworker : caseCosts (some p) inputTokens outputTokens =
        if nearestEven inputUnits + nearestEven outputUnits < 10 ^ 28 then
          some ⟨some (costText (nearestEven inputUnits)), some (costText (nearestEven outputUnits)),
            some (costText (nearestEven inputUnits + nearestEven outputUnits))⟩
        else none := by
      simp only [caseCosts, hpy, hpy', Option.bind_eq_bind, Option.bind_some, parse_costText, total_eq]
      split
      · rfl
      · rfl
    have hapi : costsForTokens (some p) inputTokens outputTokens =
        .ok ⟨some (costText m), some (costText n), some (costText (m + n))⟩ := by
      simp [costsForTokens, hgo, hgo', addDecimalStrings_costText, pure, Except.pure, bind, Except.bind]
    rw [hworker, hapi]
    constructor
    · rintro ⟨_, hcosts, hcosts'⟩
      cases hcosts'
      split at hcosts
      · rename_i hfits
        injection hcosts with hcosts
        injection hcosts with hinputs houtputs
        exact ⟨(costText_inj (Option.some.inj hinputs)).symm, (costText_inj (Option.some.inj houtputs)).symm, hfits⟩
      · cases hcosts
    · rintro ⟨hm, hn, hfits⟩
      rw [if_pos hfits, hm, hn]
      exact ⟨_, rfl, rfl⟩

/-- Prices of a current model. -/
def samplePricing : RunPricing := ⟨"2.5", "10"⟩

theorem pricing_agrees_sample :
    ∃ costs, caseCosts (some samplePricing) 1234 567 = some costs ∧ costsForTokens (some samplePricing) 1234 567 = .ok costs := by
  refine (pricing_agrees_iff samplePricing (by decide +kernel) (by decide +kernel) (by decide) (by decide)).2.mpr
    ⟨?_, ?_, by decide +kernel⟩
  · have hunits : units (priceValue samplePricing.inputUSDPerMillionTokens) 1234 = (3085000000 : Nat) := by decide +kernel
    exact hunits ▸ not_evenTie_natCast _
  · have hunits : units (priceValue samplePricing.outputUSDPerMillionTokens) 567 = (5670000000 : Nat) := by decide +kernel
    exact hunits ▸ not_evenTie_natCast _

/-- **A tie is priced differently.** One token at half a millionth of a millionth of a dollar. -/
theorem pricing_differs_tie :
    pricePattern "0.0000005" = true ∧ tokenCostUSD 1 "0.0000005" = some "0.000000000000" ∧
      Results.tokenCostUSD 1 "0.0000005" = .ok "0.000000000001" := by
  decide +kernel

/-- A total of more than 28 digits raises. -/
example : caseCosts (some ⟨"999999999999999999", "0"⟩) (2 ^ 62) 0 = none := by decide +kernel

end AgentStorm.Worker
