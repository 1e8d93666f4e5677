import Mathlib.Data.Set.Insert

/-!
# `Foundation.Collecting` — collecting the parts of a whole

A collection waits for the parts `0 … total - 1`. It is complete once every part is in, unless it was
ended from outside before that. The phase is read off the parts and the ending, so it cannot disagree
with them; it leaves `collecting` at most once (`phase_of_steps`).
-/

namespace Collecting

/-- What a collection has, over endings of type `ε`. -/
@[ext] structure State (ε : Type) where
  total : Nat
  done : Set Nat
  ending : Option ε

inductive Phase (ε : Type)
  | collecting
  | complete
  | ended (e : ε)

variable {ε : Type}

def Full (s : State ε) : Prop := ∀ i < s.total, i ∈ s.done

open Classical in
noncomputable def phase (s : State ε) : Phase ε :=
  match s.ending with
  | some e => .ended e
  | none => if Full s then .complete else .collecting

/-- One step: nothing, one more part, or an ending of a collection that is still collecting. -/
inductive Step (s : State ε) : State ε → Prop
  | stay : Step s s
  | finish (i : Nat) : Step s { s with done := insert i s.done }
  | finishAs (e : ε) (hopen : phase s = .collecting) : Step s { s with ending := some e }

variable {s : State ε}

theorem phase_eq_collecting : phase s = .collecting ↔ s.ending = none ∧ ¬ Full s := by
  unfold phase
  cases s.ending with
  | some => simp
  | none =>
    by_cases hfull : Full s
    · simp [hfull]
    · simp [hfull]

theorem phase_eq_complete : phase s = .complete ↔ s.ending = none ∧ Full s := by
  unfold phase
  cases s.ending with
  | some => simp
  | none =>
    by_cases hfull : Full s
    · simp [hfull]
    · simp [hfull]

theorem phase_eq_ended {e : ε} : phase s = .ended e ↔ s.ending = some e := by
  unfold phase
  cases s.ending with
  | some => simp
  | none =>
    by_cases hfull : Full s
    · simp [hfull]
    · simp [hfull]

theorem Full.finish (h : Full s) (i : Nat) : Full { s with done := insert i s.done } :=
  fun j hj => Set.mem_insert_of_mem i (h j hj)

/-- One step leaves every phase but `collecting` alone. -/
theorem phase_of_step {s' : State ε} (hstep : Step s s') (hleft : phase s ≠ .collecting) :
    phase s' = phase s := by
  cases hstep with
  | stay => rfl
  | finish i =>
    cases hp : phase s with
    | collecting => exact absurd hp hleft
    | complete =>
      obtain ⟨hnone, hfull⟩ := phase_eq_complete.mp hp
      exact phase_eq_complete.mpr ⟨hnone, hfull.finish i⟩
    | ended e =>
      have hending : s.ending = some e := phase_eq_ended.mp hp
      exact phase_eq_ended.mpr hending
  | finishAs e hopen => exact absurd hopen hleft

/-- **The life of a collection.** Once it is not collecting any more its phase is settled. -/
theorem phase_of_steps {s' : State ε} (hsteps : Relation.ReflTransGen Step s s')
    (hleft : phase s ≠ .collecting) : phase s' = phase s := by
  induction hsteps with
  | refl => rfl
  | tail _ hstep ih =>
    rw [← ih]
    exact phase_of_step hstep (by rw [ih]; exact hleft)

end Collecting
