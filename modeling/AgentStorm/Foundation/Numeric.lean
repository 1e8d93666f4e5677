import Mathlib.Algebra.Order.BigOperators.Group.List
import Mathlib.Algebra.Order.Field.Rat

/-!
# `Foundation.Numeric` — machine numbers as exact values

`Float64` is a binary float whose finite values are kept as the rationals they denote, so comparisons are
exact and NaN compares with nothing. 64-bit integers are integers; `addInt64` and `subInt64` wrap. A running sum of
values that are not negative never wraps if its end fits (`exactSums_of_le`).
-/

namespace Numeric

inductive Float64
  | finite (q : ℚ)
  | posInf
  | negInf
  | nan
  deriving DecidableEq

namespace Float64

/-- `f < q`; no comparison with NaN holds. -/
def lt : Float64 → ℚ → Bool
  | finite f, q => decide (f < q)
  | negInf, _ => true
  | posInf, _ => false
  | nan, _ => false

/-- `f > q`. -/
def gt : Float64 → ℚ → Bool
  | finite f, q => decide (q < f)
  | posInf, _ => true
  | negInf, _ => false
  | nan, _ => false

/-- The least positive number without a float: from halfway above the largest float on, rounding overflows. -/
@[irreducible] def bound : ℚ := 2 ^ 1024 - 2 ^ 970

/-- The value of a float that is neither infinite nor NaN. -/
def finite? : Float64 → Option ℚ
  | finite q => some q
  | _ => none

end Float64

def maxInt64 : Int := 2 ^ 63 - 1

/-- Addition of two 64-bit integers, which wraps. -/
def addInt64 (a b : Int) : Int := (a + b).bmod (2 ^ 64)

/-- Subtraction of two 64-bit integers, which wraps. -/
def subInt64 (a b : Int) : Int := (a - b).bmod (2 ^ 64)

theorem addInt64_eq {a b : Int} (hlo : 0 ≤ a + b) (hhi : a + b ≤ maxInt64) : addInt64 a b = a + b := by
  unfold maxInt64 at hhi
  exact Int.bmod_eq_of_le (by omega) (by omega)

theorem subInt64_maxInt64 {a : Int} (hlo : 0 ≤ a) (hhi : a ≤ maxInt64) : subInt64 maxInt64 a = maxInt64 - a := by
  unfold maxInt64 at hhi ⊢
  exact Int.bmod_eq_of_le (by omega) (by omega)

/-! ## Running sums -/

/-- No addition of a running sum that starts at 0 wraps. -/
def ExactSums (values : List Int) : Prop := ∀ n, (values.take n).foldl addInt64 0 = (values.take n).sum

theorem foldl_addInt64 {values : List Int} (hpos : ∀ v ∈ values, 0 ≤ v) {start : Int} (hstart : 0 ≤ start)
    (hsum : start + values.sum ≤ maxInt64) : values.foldl addInt64 start = start + values.sum := by
  induction values generalizing start with
  | nil => exact (add_zero start).symm
  | cons v values ih =>
    rw [List.forall_mem_cons] at hpos
    rw [List.sum_cons, ← add_assoc] at hsum
    have hrest : 0 ≤ values.sum := List.sum_nonneg hpos.2
    have hnext : addInt64 start v = start + v := addInt64_eq (by omega) (by omega)
    rw [List.foldl_cons, hnext, ih hpos.2 (by omega) hsum, List.sum_cons, add_assoc]

theorem exactSums_of_le {values : List Int} (hpos : ∀ v ∈ values, 0 ≤ v) (hsum : values.sum ≤ maxInt64) :
    ExactSums values := by
  intro n
  have hprefix : ∀ v ∈ values.take n, 0 ≤ v := fun v hv => hpos v (List.mem_of_mem_take hv)
  have hsuffix : 0 ≤ (values.drop n).sum := List.sum_nonneg fun v hv => hpos v (List.mem_of_mem_drop hv)
  have hsplit : (values.take n).sum + (values.drop n).sum = values.sum := by
    rw [← List.sum_append, List.take_append_drop]
  rw [foldl_addInt64 hprefix le_rfl (by omega), zero_add]

end Numeric
