import Mathlib.Algebra.Order.Field.Power
import Mathlib.Data.Nat.Log
import Mathlib.Data.Rat.Cast.Order
import Mathlib.Tactic.FieldSimp
import Mathlib.Tactic.Positivity
import Mathlib.Tactic.Ring

/-!
# `Foundation.Decimal` — decimal floating point with a working precision

Non-negative decimals as a coefficient and a power of ten, with the operations of the General Decimal
Arithmetic under a precision and rounding half to even: a result is computed exactly and rounded if it
has too many digits. Exponent limits are not modelled.
-/

namespace Decimal

/-! ## Rounding half to even -/

variable {n : Nat}

def roundHalfEven (n d : Nat) : Nat :=
  if 2 * (n % d) < d then n / d
  else if d < 2 * (n % d) then n / d + 1
  else if n / d % 2 = 0 then n / d
  else n / d + 1

variable {d : Nat}

/-- Equal quotients round alike. -/
theorem roundHalfEven_congr {n' d' : Nat} (hd : 0 < d) (hd' : 0 < d') (h : n * d' = n' * d) :
    roundHalfEven n d = roundHalfEven n' d' := by
  have hquot : n / d = n' / d' := by
    rw [← Nat.mul_div_mul_right n d hd', h, mul_comm d d', Nat.mul_div_mul_right n' d' hd]
  -- the remainders are proportional, so each comparison with the half has the same outcome
  have hrem : n % d * d' = n' % d' * d := by
    have hn := Nat.div_add_mod n d
    have hn' := Nat.div_add_mod n' d'
    rw [← hn, ← hn', hquot] at h
    have hcross : d * (n' / d') * d' = d' * (n' / d') * d := by ring
    rw [add_mul, add_mul, hcross] at h
    exact Nat.add_left_cancel h
  have hdouble : 2 * (n % d) * d' = 2 * (n' % d') * d := by rw [mul_assoc, hrem, mul_assoc]
  have hlt : 2 * (n % d) < d ↔ 2 * (n' % d') < d' := by
    calc 2 * (n % d) < d ↔ 2 * (n % d) * d' < d * d' := (Nat.mul_lt_mul_right hd').symm
      _ ↔ 2 * (n' % d') * d < d' * d := by rw [hdouble, mul_comm d d']
      _ ↔ 2 * (n' % d') < d' := Nat.mul_lt_mul_right hd
  have hgt : d < 2 * (n % d) ↔ d' < 2 * (n' % d') := by
    calc d < 2 * (n % d) ↔ d * d' < 2 * (n % d) * d' := (Nat.mul_lt_mul_right hd').symm
      _ ↔ d' * d < 2 * (n' % d') * d := by rw [hdouble, mul_comm d d']
      _ ↔ d' < 2 * (n' % d') := Nat.mul_lt_mul_right hd
  simp [roundHalfEven, hquot, hlt, hgt]

theorem roundHalfEven_mul (n : Nat) (hd : 0 < d) : roundHalfEven (n * d) d = n := by
  rw [roundHalfEven, Nat.mul_mod_left, Nat.mul_div_cancel n hd, if_pos (by omega)]

theorem le_roundHalfEven (n d : Nat) : n / d ≤ roundHalfEven n d := by
  unfold roundHalfEven
  split
  · exact le_rfl
  · split
    · exact Nat.le_succ _
    · split
      · exact le_rfl
      · exact Nat.le_succ _

variable {m : Nat}

theorem roundHalfEven_le (hd : 0 < d) (h : n ≤ m * d) : roundHalfEven n d ≤ m := by
  rcases h.lt_or_eq with hlt | rfl
  · have hquot : n / d < m := Nat.div_lt_of_lt_mul (by rwa [mul_comm] at hlt)
    unfold roundHalfEven
    split
    · omega
    · split
      · omega
      · split <;> omega
  · rw [roundHalfEven_mul m hd]

/-- The nearest natural number to a non-negative rational, the even one at a tie. -/
def nearestEven (q : ℚ) : Nat := roundHalfEven q.num.toNat q.den

theorem roundHalfEven_eq (n : Nat) (hd : 0 < d) : roundHalfEven n d = nearestEven ((n : ℚ) / d) := by
  refine roundHalfEven_congr hd (Rat.den_pos _) ?_
  have hpos : 0 ≤ ((n : ℚ) / d).num := Rat.num_nonneg.mpr (by positivity)
  have hcast : (((n : ℚ) / d).num.toNat : ℚ) = ((n : ℚ) / d).num := by exact_mod_cast Int.toNat_of_nonneg hpos
  have hd' : (d : ℚ) ≠ 0 := Nat.cast_ne_zero.mpr hd.ne'
  have hden : (((n : ℚ) / d).den : ℚ) ≠ 0 := Nat.cast_ne_zero.mpr (Rat.den_nz _)
  have hquot := Rat.num_div_den ((n : ℚ) / d)
  rw [div_eq_div_iff hden hd', ← hcast] at hquot
  exact_mod_cast hquot.symm

/-! ## Decimals -/

variable {prec : Nat}

structure Dec where
  coeff : Nat
  exp : Int
  deriving DecidableEq, Repr

def Dec.value (x : Dec) : ℚ := x.coeff * (10 : ℚ) ^ x.exp

/-- `len(str(n))` -/
def numDigits (n : Nat) : Nat := Nat.log 10 n + 1

theorem numDigits_le_iff (hprec : 0 < prec) : numDigits n ≤ prec ↔ n < 10 ^ prec := by
  exact ⟨Nat.lt_pow_of_log_lt (by decide), Nat.log_lt_of_lt_pow' hprec.ne'⟩

theorem lt_pow_numDigits (n : Nat) : n < 10 ^ numDigits n := Nat.lt_pow_succ_log_self (by decide) n

theorem pow_numDigits_le (hn : n ≠ 0) : 10 ^ (numDigits n - 1) ≤ n := Nat.pow_log_le_self 10 hn

/-- The exponent of the leading digit. -/
def Dec.adjusted (x : Dec) : Int := x.exp + numDigits x.coeff - 1

/-- Rounds to the precision; a carry out of the leading digit drops one more zero. -/
def fix (prec : Nat) (x : Dec) : Dec :=
  if numDigits x.coeff ≤ prec then x
  else
    let drop := numDigits x.coeff - prec
    let c := roundHalfEven x.coeff (10 ^ drop)
    if numDigits c ≤ prec then ⟨c, x.exp + drop⟩ else ⟨c / 10, x.exp + drop + 1⟩

def mul (prec : Nat) (a b : Dec) : Dec := fix prec ⟨a.coeff * b.coeff, a.exp + b.exp⟩

/-- Both coefficients at the smaller exponent. -/
def add (prec : Nat) (a b : Dec) : Dec :=
  let e := min a.exp b.exp
  fix prec ⟨a.coeff * 10 ^ (a.exp - e).toNat + b.coeff * 10 ^ (b.exp - e).toNat, e⟩

/-- Removes at most `n` trailing zeros. -/
def strip : Nat → Dec → Dec
  | 0, x => x
  | n + 1, x => if x.coeff % 10 = 0 then strip n ⟨x.coeff / 10, x.exp + 1⟩ else x

/-- Division by a number other than zero. A quotient of one digit more than the precision decides the rounding: an
    inexact one must not end in 0 or 5. An exact one gets as close to the ideal exponent as it can. -/
def div (prec : Nat) (a b : Dec) : Dec :=
  if a.coeff = 0 then fix prec ⟨0, a.exp - b.exp⟩
  else
    let shift : Int := numDigits b.coeff - numDigits a.coeff + prec + 1
    let n := a.coeff * 10 ^ shift.toNat
    let d := b.coeff * 10 ^ (-shift).toNat
    let e := a.exp - b.exp - shift
    if n % d = 0 then fix prec (strip (a.exp - b.exp - e).toNat ⟨n / d, e⟩)
    else fix prec ⟨if n / d % 5 = 0 then n / d + 1 else n / d, e⟩

/-- The coefficient at another exponent. -/
def rescale (x : Dec) (e : Int) : Dec :=
  if e ≤ x.exp then ⟨x.coeff * 10 ^ (x.exp - e).toNat, e⟩ else ⟨roundHalfEven x.coeff (10 ^ (e - x.exp).toNat), e⟩

/-- The value at a given exponent, if it fits the precision there. -/
def quantize (prec : Nat) (x : Dec) (e : Int) : Option Dec :=
  if x.coeff = 0 then some ⟨0, e⟩
  else if (prec : Int) < x.adjusted - e + 1 then none
  else if prec < numDigits (rescale x e).coeff then none
  else some (rescale x e)

/-! ## Texts -/

/-- A plain decimal: digits, with or without a fraction. -/
def parse (s : String) : Option Dec :=
  let digits (cs : List Char) := !cs.isEmpty && cs.all Char.isDigit
  match s.toList.splitOn '.' with
  | [whole] => if digits whole then some ⟨Nat.ofDigitChars 10 whole 0, 0⟩ else none
  | [whole, fraction] =>
    if digits whole && digits fraction then some ⟨Nat.ofDigitChars 10 (whole ++ fraction) 0, -fraction.length⟩ else none
  | _ => none

/-- The digits of `n` with leading zeros up to `width`. -/
def padded (width n : Nat) : List Char :=
  List.replicate (width - (Nat.toDigits 10 n).length) '0' ++ Nat.toDigits 10 n

theorem length_padded {width n : Nat} (hpos : 0 < width) (h : n < 10 ^ width) : (padded width n).length = width := by
  have hlen : (Nat.toDigits 10 n).length ≤ width := (Nat.length_toDigits_le_iff (by decide) hpos).mpr h
  unfold padded
  rw [List.length_append, List.length_replicate]
  omega

theorem isDigit_padded (width n : Nat) : (padded width n).all Char.isDigit = true := by
  rw [List.all_eq_true]
  intro c hc
  rcases List.mem_append.mp hc with hc | hc
  · rw [List.eq_of_mem_replicate hc]
    decide
  · exact Nat.isDigit_of_mem_toDigits (by decide) (by decide) hc

/-- Leading zeros do not count. -/
theorem ofDigitChars_padded (width n : Nat) : Nat.ofDigitChars 10 (padded width n) 0 = n := by
  unfold padded
  induction width - (Nat.toDigits 10 n).length with
  | zero => exact Nat.ofDigitChars_ten_toDigits
  | succ k ih =>
    rw [List.replicate_succ, List.cons_append]
    exact ih

/-- `format(x, "f")` -/
def format (x : Dec) : String :=
  if 0 ≤ x.exp then String.ofList (Nat.toDigits 10 (x.coeff * 10 ^ x.exp.toNat))
  else
    let scale := (-x.exp).toNat
    String.ofList (Nat.toDigits 10 (x.coeff / 10 ^ scale) ++ '.' :: padded scale (x.coeff % 10 ^ scale))

/-! ## Exact results -/

section Exact

variable {prec : Nat} (hprec : 0 < prec)

include hprec in
/-- Trailing zeros are dropped without loss. -/
theorem value_fix {x : Dec} {c k : Nat} (hc : c < 10 ^ prec) (hcoeff : x.coeff = c * 10 ^ k) :
    (fix prec x).value = x.value := by
  unfold fix
  by_cases hfits : numDigits x.coeff ≤ prec
  · rw [if_pos hfits]
  · rw [if_neg hfits]
    have hdrop : numDigits x.coeff - prec ≤ k := by
      have hlt : x.coeff < 10 ^ (prec + k) := by
        rw [hcoeff, pow_add]
        exact Nat.mul_lt_mul_of_pos_right hc (by positivity)
      have hle := (numDigits_le_iff (by omega)).mpr hlt
      omega
    obtain ⟨drop, hdropped⟩ : ∃ drop, numDigits x.coeff - prec = drop := ⟨_, rfl⟩
    rw [hdropped] at hdrop
    have hsplit : x.coeff = c * 10 ^ (k - drop) * 10 ^ drop := by
      rw [hcoeff, mul_assoc, ← pow_add, Nat.sub_add_cancel hdrop]
    have hround : roundHalfEven x.coeff (10 ^ drop) = c * 10 ^ (k - drop) := by
      rw [hsplit, roundHalfEven_mul _ (by positivity)]
    have hsmall : c * 10 ^ (k - drop) < 10 ^ prec := by
      have hlt := lt_pow_numDigits x.coeff
      rw [show numDigits x.coeff = prec + drop by omega, pow_add, hsplit] at hlt
      exact Nat.lt_of_mul_lt_mul_right hlt
    simp only [hdropped, hround, if_pos ((numDigits_le_iff hprec).mpr hsmall), Dec.value]
    rw [hsplit, zpow_add₀ (by norm_num : (10 : ℚ) ≠ 0), zpow_natCast]
    push_cast
    ring

include hprec in
/-- A product that fits the precision is exact. -/
theorem value_mul {a b : Dec} (h : a.coeff * b.coeff < 10 ^ prec) : (mul prec a b).value = a.value * b.value := by
  rw [mul, value_fix (k := 0) hprec h (by simp), Dec.value, Dec.value, Dec.value, zpow_add₀ (by norm_num : (10 : ℚ) ≠ 0)]
  push_cast
  ring

theorem value_strip (n : Nat) (x : Dec) : (strip n x).value = x.value := by
  induction n generalizing x with
  | zero => rfl
  | succ n ih =>
    rw [strip]
    split
    · rename_i hzero
      rw [ih, Dec.value, Dec.value, zpow_add₀ (by norm_num : (10 : ℚ) ≠ 0), zpow_one]
      have hcoeff : x.coeff = x.coeff / 10 * 10 := by omega
      have hcast : (x.coeff : ℚ) = ((x.coeff / 10 : Nat) : ℚ) * 10 := by exact_mod_cast hcoeff
      rw [hcast]
      ring
    · rfl

/-- What is stripped is a power of ten. -/
theorem exists_strip (n : Nat) (x : Dec) : ∃ j, (strip n x).coeff * 10 ^ j = x.coeff := by
  induction n generalizing x with
  | zero => exact ⟨0, by simp [strip]⟩
  | succ n ih =>
    rw [strip]
    split
    · rename_i hzero
      obtain ⟨j, hj⟩ := ih ⟨x.coeff / 10, x.exp + 1⟩
      refine ⟨j + 1, ?_⟩
      rw [pow_succ, ← mul_assoc, hj]
      dsimp only
      omega
    · exact ⟨0, by simp⟩

include hprec in
/-- Stripping leaves a coefficient that rounds without loss. -/
theorem value_fix_strip {x : Dec} {c k : Nat} (hc : c < 10 ^ prec) (n : Nat) (hcoeff : x.coeff = c * 10 ^ k) :
    (fix prec (strip n x)).value = x.value := by
  rw [← value_strip n x]
  obtain ⟨j, hj⟩ := exists_strip n x
  rw [hcoeff] at hj
  rcases le_total j k with hjk | hjk
  · refine value_fix hprec hc (k := k - j) (Nat.eq_of_mul_eq_mul_right (by positivity : 0 < 10 ^ j) ?_)
    rw [hj, mul_assoc, ← pow_add, Nat.sub_add_cancel hjk]
  · refine value_fix hprec (c := (strip n x).coeff) (k := 0) ?_ (by simp)
    refine lt_of_le_of_lt (Nat.le_of_mul_le_mul_right ?_ (by positivity : 0 < 10 ^ k)) hc
    rw [← hj]
    gcongr
    decide

theorem pow_toNat_div (shift : Int) : (10 : ℚ) ^ shift.toNat / 10 ^ (-shift).toNat = 10 ^ shift := by
  rcases le_total 0 shift with h | h
  · obtain ⟨k, rfl⟩ := Int.eq_ofNat_of_zero_le h
    simp
  · obtain ⟨k, hk⟩ := Int.eq_ofNat_of_zero_le (neg_nonneg.mpr h)
    obtain rfl : shift = -(k : Int) := by omega
    simp

/-- The quotient of the shifted coefficients. -/
theorem shifted_quotient (a : Dec) {b : Dec} (shift : Int) :
    ((a.coeff * 10 ^ shift.toNat : Nat) : ℚ) / ((b.coeff * 10 ^ (-shift).toNat : Nat) : ℚ) =
      a.value / b.value * (10 : ℚ) ^ (shift - (a.exp - b.exp)) := by
  have hten : (10 : ℚ) ≠ 0 := by norm_num
  have hvalue : a.value / b.value = (a.coeff : ℚ) / b.coeff * 10 ^ (a.exp - b.exp) := by
    rw [Dec.value, Dec.value, zpow_sub₀ hten, mul_div_mul_comm]
  rw [hvalue, mul_assoc, ← zpow_add₀ hten, show a.exp - b.exp + (shift - (a.exp - b.exp)) = shift by ring,
    ← pow_toNat_div shift, ← mul_div_mul_comm]
  push_cast
  rfl

/-- It has more digits than the precision. -/
theorem le_shifted_quotient {m k : Nat} (hm : m ≠ 0) {shift : Int}
    (hshift : (numDigits k : Int) - numDigits m + prec + 1 = shift) :
    10 ^ prec * (k * 10 ^ (-shift).toNat) ≤ m * 10 ^ shift.toNat := by
  have hexp : prec + numDigits k + (-shift).toNat = numDigits m - 1 + shift.toNat := by
    have hpos : 1 ≤ numDigits m := Nat.succ_le_succ (Nat.zero_le _)
    omega
  calc 10 ^ prec * (k * 10 ^ (-shift).toNat)
      ≤ 10 ^ prec * (10 ^ numDigits k * 10 ^ (-shift).toNat) := by
        gcongr
        exact (lt_pow_numDigits k).le
    _ = 10 ^ (numDigits m - 1) * 10 ^ shift.toNat := by rw [← pow_add, ← pow_add, ← pow_add, ← hexp, add_assoc]
    _ ≤ m * 10 ^ shift.toNat := by
        gcongr
        exact pow_numDigits_le hm

include hprec in
/-- A quotient that fits the precision is exact. -/
theorem value_div {a b : Dec} (hb : b.coeff ≠ 0) {c : Nat} {e : Int} (hc : c < 10 ^ prec)
    (hquot : a.value / b.value = c * (10 : ℚ) ^ e) : (div prec a b).value = a.value / b.value := by
  have hten : (10 : ℚ) ≠ 0 := by norm_num
  unfold div
  by_cases ha : a.coeff = 0
  · rw [if_pos ha, value_fix (c := 0) (k := 0) hprec (by positivity) rfl]
    simp [Dec.value, ha]
  · rw [if_neg ha]
    dsimp only
    obtain ⟨shift, hshift⟩ : ∃ shift : Int, (numDigits b.coeff : Int) - numDigits a.coeff + prec + 1 = shift := ⟨_, rfl⟩
    have hscaled := shifted_quotient a (b := b) shift
    have hlarge := le_shifted_quotient ha hshift
    have hdpos : 0 < b.coeff * 10 ^ (-shift).toNat := Nat.mul_pos (Nat.pos_of_ne_zero hb) (by positivity)
    rw [hshift]
    generalize a.coeff * 10 ^ shift.toNat = n at hscaled hlarge ⊢
    generalize b.coeff * 10 ^ (-shift).toNat = d at hscaled hlarge hdpos ⊢
    have hd : (d : ℚ) ≠ 0 := Nat.cast_ne_zero.mpr hdpos.ne'
    rw [hquot, mul_assoc, ← zpow_add₀ hten] at hscaled
    -- too large for the coefficient alone, the quotient has trailing zeros
    obtain ⟨k, hk⟩ : ∃ k : Nat, e + (shift - (a.exp - b.exp)) = k := by
      refine Int.eq_ofNat_of_zero_le (not_lt.mp fun hneg => ?_)
      have hle : (10 : ℚ) ^ prec ≤ n / d := by
        rw [le_div_iff₀ (by positivity)]
        exact_mod_cast hlarge
      have hlt : (c : ℚ) * 10 ^ (e + (shift - (a.exp - b.exp))) < 10 ^ prec := by
        calc (c : ℚ) * 10 ^ (e + (shift - (a.exp - b.exp))) ≤ c * 1 := by
              gcongr
              exact zpow_le_one_of_nonpos₀ (by norm_num) hneg.le
          _ < 10 ^ prec := by
              rw [mul_one]
              exact_mod_cast hc
      rw [hscaled] at hle
      exact absurd hlt (not_lt.mpr hle)
    have hn : n = c * 10 ^ k * d := by
      rw [hk, zpow_natCast, div_eq_iff hd] at hscaled
      exact_mod_cast hscaled
    rw [hn, Nat.mul_mod_left, if_pos rfl, Nat.mul_div_cancel _ hdpos]
    rw [value_fix_strip hprec hc _ rfl, hquot, Dec.value]
    push_cast
    rw [mul_assoc, ← zpow_natCast, ← zpow_add₀ hten, ← hk]
    congr 2
    ring

include hprec in
/-- A sum of decimals with one exponent that fits the precision is exact. -/
theorem add_of_lt {m n : Nat} (e : Int) (h : m + n < 10 ^ prec) : add prec ⟨m, e⟩ ⟨n, e⟩ = ⟨m + n, e⟩ := by
  simp [add, fix, (numDigits_le_iff hprec).mpr h]

end Exact

/-! ## Rescaling -/

theorem le_nearestEven {q : ℚ} (h : (m : ℚ) ≤ q) : m ≤ nearestEven q := by
  refine le_trans ?_ (le_roundHalfEven _ _)
  rw [Nat.le_div_iff_mul_le q.den_pos]
  have hpos : 0 ≤ q.num := Rat.num_nonneg.mpr ((Nat.cast_nonneg m).trans h)
  rw [← Rat.num_div_den q, le_div_iff₀ (Nat.cast_pos.mpr q.den_pos)] at h
  have hint : (m * q.den : Int) ≤ q.num := by exact_mod_cast h
  omega

theorem nearestEven_le {q : ℚ} (hq : 0 ≤ q) (h : q ≤ m) : nearestEven q ≤ m := by
  refine roundHalfEven_le q.den_pos ?_
  have hpos : 0 ≤ q.num := Rat.num_nonneg.mpr hq
  rw [← Rat.num_div_den q, div_le_iff₀ (Nat.cast_pos.mpr q.den_pos)] at h
  have hint : q.num ≤ (m * q.den : Int) := by exact_mod_cast h
  omega

theorem nearestEven_natCast (n : Nat) : nearestEven (n : ℚ) = n := by
  have h := roundHalfEven_eq n Nat.one_pos
  rw [Nat.cast_one, div_one] at h
  rw [← h]
  exact (congrArg (roundHalfEven · 1) (mul_one n).symm).trans (roundHalfEven_mul n Nat.one_pos)

theorem coeff_rescale (x : Dec) (e : Int) : rescale x e = ⟨nearestEven (x.value / (10 : ℚ) ^ e), e⟩ := by
  have hten : (10 : ℚ) ≠ 0 := by norm_num
  have hvalue : x.value / (10 : ℚ) ^ e = x.coeff * (10 : ℚ) ^ (x.exp - e) := by
    rw [Dec.value, zpow_sub₀ hten, mul_div_assoc]
  unfold rescale
  rw [hvalue]
  split
  · rename_i hle
    obtain ⟨k, hk⟩ := Int.eq_ofNat_of_zero_le (sub_nonneg.mpr hle)
    rw [hk, Int.toNat_natCast, zpow_natCast, ← nearestEven_natCast (x.coeff * 10 ^ k)]
    push_cast
    rfl
  · rename_i hlt
    obtain ⟨k, hk⟩ := Int.eq_ofNat_of_zero_le (sub_nonneg.mpr (not_le.mp hlt).le)
    rw [hk, Int.toNat_natCast, show x.exp - e = -(k : Int) by omega, zpow_neg, zpow_natCast, ← div_eq_mul_inv,
      roundHalfEven_eq _ (by positivity)]
    push_cast
    rfl

/-- The leading digit of a decimal that is too large at an exponent. -/
theorem le_value_of_adjusted {x : Dec} (hx : x.coeff ≠ 0) {e : Int}
    (h : (prec : Int) < x.adjusted - e + 1) : ((10 ^ prec : Nat) : ℚ) ≤ x.value / (10 : ℚ) ^ e := by
  have hten : (10 : ℚ) ≠ 0 := by norm_num
  have hpos : 1 ≤ numDigits x.coeff := Nat.succ_le_succ (Nat.zero_le _)
  unfold Dec.adjusted at h
  rw [Dec.value, mul_div_assoc, ← zpow_sub₀ hten]
  calc ((10 ^ prec : Nat) : ℚ) = (10 : ℚ) ^ (prec : Int) := by push_cast; rfl
    _ ≤ (10 : ℚ) ^ (((numDigits x.coeff - 1 : Nat) : Int) + (x.exp - e)) := zpow_le_zpow_right₀ (by norm_num) (by omega)
    _ = ((10 ^ (numDigits x.coeff - 1) : Nat) : ℚ) * (10 : ℚ) ^ (x.exp - e) := by
        rw [zpow_add₀ hten, zpow_natCast]
        push_cast
        rfl
    _ ≤ x.coeff * (10 : ℚ) ^ (x.exp - e) := by
        gcongr
        exact pow_numDigits_le hx

/-- **Rescaling rounds the value**, if the result fits the precision. -/
theorem quantize_eq_some (hprec : 0 < prec) {x : Dec} {e : Int}
    (h : nearestEven (x.value / (10 : ℚ) ^ e) < 10 ^ prec) :
    quantize prec x e = some ⟨nearestEven (x.value / (10 : ℚ) ^ e), e⟩ := by
  unfold quantize
  by_cases hx : x.coeff = 0
  · rw [if_pos hx, Dec.value, hx, Nat.cast_zero, zero_mul, zero_div]
    rfl
  · rw [if_neg hx, if_neg, coeff_rescale, if_neg]
    · exact not_lt.mpr ((numDigits_le_iff hprec).mpr h)
    · exact fun hlarge => absurd h (not_lt.mpr (le_nearestEven (le_value_of_adjusted hx hlarge)))

/-- A rounded decimal stays as large as the first power of ten that does not fit. -/
theorem adjusted_fix (hprec : 0 < prec) {x : Dec} (h : 10 ^ prec ≤ x.coeff) :
    (fix prec x).coeff ≠ 0 ∧ x.exp + prec ≤ (fix prec x).adjusted := by
  have hdigits : prec < numDigits x.coeff := not_le.mp fun hle => absurd h (not_le.mpr ((numDigits_le_iff hprec).mp hle))
  have hdivided : 10 ^ (prec - 1) ≤ roundHalfEven x.coeff (10 ^ (numDigits x.coeff - prec)) := by
    refine le_trans ?_ (le_roundHalfEven _ _)
    rw [Nat.le_div_iff_mul_le (by positivity), ← pow_add,
      show prec - 1 + (numDigits x.coeff - prec) = numDigits x.coeff - 1 by omega]
    exact pow_numDigits_le (Nat.ne_of_gt (lt_of_lt_of_le (by positivity) h))
  have hlower : ∀ {n k : Nat}, 10 ^ k ≤ n → k < numDigits n := by
    intro n k hle
    exact Nat.lt_succ_of_le (Nat.le_log_of_pow_le (by decide) hle)
  unfold fix
  rw [if_neg (not_le.mpr hdigits)]
  dsimp only
  generalize roundHalfEven x.coeff (10 ^ (numDigits x.coeff - prec)) = c at hdivided ⊢
  have hc := hlower hdivided
  have hpos : 0 < 10 ^ (prec - 1) := by positivity
  split
  · refine ⟨by dsimp only; omega, ?_⟩
    unfold Dec.adjusted
    dsimp only
    omega
  · rename_i hmore
    have hten : 10 ^ (prec - 1) ≤ c / 10 := by
      rw [Nat.le_div_iff_mul_le (by decide), ← pow_succ, Nat.sub_add_cancel hprec]
      exact not_lt.mp fun hlt => hmore ((numDigits_le_iff hprec).mpr hlt)
    have hc' := hlower hten
    refine ⟨by dsimp only; omega, ?_⟩
    unfold Dec.adjusted
    dsimp only
    omega

/-- A sum that does not fit the precision cannot be brought back to its exponent. -/
theorem quantize_add_eq_none (hprec : 0 < prec) (e : Int) (h : 10 ^ prec ≤ m + n) :
    quantize prec (add prec ⟨m, e⟩ ⟨n, e⟩) e = none := by
  have hsum : add prec ⟨m, e⟩ ⟨n, e⟩ = fix prec ⟨m + n, e⟩ := by simp [add]
  obtain ⟨hne, hlarge⟩ := adjusted_fix (x := ⟨m + n, e⟩) hprec h
  rw [hsum, quantize, if_neg hne, if_pos]
  dsimp only at hlarge
  omega

end Decimal
