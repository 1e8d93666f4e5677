import Mathlib.Algebra.Order.Group.Defs
import Mathlib.Data.List.Basic

/-!
# `Foundation.Window` — sliding-window admission with pruning

Events are admitted one by one and carry a time of their own, in any order. The admission test looks at
what a log has kept, and the log drops old events. Beyond every time the log was pruned to it agrees
with the full history (`AgreeAfter`). Of all events in a window, take the one admitted last: the others
were in the history then, so its admission test counted them (`Bounded.concat`).
-/

namespace Window

variable {ε τ : Type} [LinearOrder τ] {time : ε → τ}

/-! ## Kept events and history -/

variable {history kept : List ε}

/-- The kept events and the history are the same from `floor` on. -/
def AgreeAfter (time : ε → τ) (floor : τ) (kept history : List ε) : Prop :=
  (kept.filter fun e => decide (floor < time e)) = history.filter fun e => decide (floor < time e)

theorem AgreeAfter.concat {floor : τ} (h : AgreeAfter time floor kept history) (e : ε) :
    AgreeAfter time floor (kept ++ [e]) (history ++ [e]) := by
  unfold AgreeAfter at h ⊢
  rw [List.filter_append, List.filter_append, h]

/-- Dropping events before a mark at or below the floor is not seen. -/
theorem AgreeAfter.prune {floor mark : τ} (h : AgreeAfter time floor kept history) (hmark : mark ≤ floor) :
    AgreeAfter time floor (kept.filter fun e => !decide (time e < mark)) history := by
  unfold AgreeAfter at h ⊢
  rw [← h, List.filter_filter]
  refine List.filter_congr fun e _ => ?_
  by_cases hfloor : floor < time e
  · rw [decide_eq_true hfloor, decide_eq_false (not_lt.mpr (hmark.trans hfloor.le))]
    rfl
  · rw [decide_eq_false hfloor, Bool.false_and]

/-! ## Windows -/

variable [AddCommGroup τ]

/-- No window of the width holds more than `n` events of the class. -/
def Bounded (time : ε → τ) (width : τ) (p : ε → Bool) (n : Nat) (history : List ε) : Prop :=
  ∀ start, (history.countP fun e => p e && (decide (start ≤ time e) && decide (time e < start + width))) ≤ n

theorem bounded_nil (width : τ) (p : ε → Bool) (n : Nat) : Bounded time width p n [] := fun _ => Nat.zero_le _

variable [IsOrderedAddMonoid τ]

/-- **Admission.** An event that found room among the kept events of its last window keeps every window bounded. -/
theorem Bounded.concat {width : τ} {p : ε → Bool} {n : Nat} {e : ε} (h : Bounded time width p n history)
    (hagree : AgreeAfter time (time e - width) kept history)
    (hroom : p e = true → (kept.countP fun x => p x && decide (time e - width < time x)) < n) :
    Bounded time width p n (history ++ [e]) := by
  intro start
  rw [List.countP_append, List.countP_singleton]
  by_cases hin : (p e && (decide (start ≤ time e) && decide (time e < start + width))) = true
  · rw [if_pos hin]
    simp only [Bool.and_eq_true, decide_eq_true_eq] at hin
    obtain ⟨hp, -, hend⟩ := hin
    -- whatever else lies in this window is later than `time e - width`
    have hle : (history.countP fun x => p x && (decide (start ≤ time x) && decide (time x < start + width))) ≤
        history.countP fun x => p x && decide (time e - width < time x) := by
      refine List.countP_mono_left fun x _ hx => ?_
      simp only [Bool.and_eq_true, decide_eq_true_eq] at hx ⊢
      exact ⟨hx.1, lt_of_lt_of_le (sub_lt_iff_lt_add.mpr hend) hx.2.1⟩
    have hkept : (history.countP fun x => p x && decide (time e - width < time x)) =
        kept.countP fun x => p x && decide (time e - width < time x) := by
      rw [← List.countP_filter, ← List.countP_filter, hagree]
    have hlt := hroom hp
    rw [← hkept] at hlt
    exact Nat.succ_le_of_lt (lt_of_le_of_lt hle hlt)
  · rw [if_neg hin, Nat.add_zero]
    exact h start

end Window
