import Mathlib.Data.List.Basic

/-!
# `Foundation.Checks` — fallible computations as sequences of checks

Fallible code is `Except`; a guard clause is `reject`. The equivalences below peel such a computation apart
from the front: a run that ends well passed every check and every step on the way.
-/

namespace Checks

variable {χ α β : Type}

/-- `if bad { return err }`. -/
def reject (bad : Bool) (err : χ) : Except χ Unit := if bad then .error err else .ok ()

/-- The value of an optional result, or `err`. -/
def orElse (x : Option α) (err : χ) : Except χ α :=
  match x with
  | some a => .ok a
  | none => .error err

@[simp] theorem reject_false (err : χ) : reject false err = .ok () := rfl

variable {err : χ}

@[simp] theorem reject_eq_ok {bad : Bool} {u : Unit} : reject bad err = .ok u ↔ bad = false := by
  cases bad <;> simp [reject]

@[simp] theorem orElse_eq_ok {x : Option α} {a : α} : orElse x err = .ok a ↔ x = some a := by
  cases x <;> simp [orElse]

variable {first : Except χ α}

/-- A step that ends well is followed by a rest that does. -/
@[simp] theorem bind_ok_iff {rest : α → Except χ β} {b : β} :
    first >>= rest = .ok b ↔ ∃ a, first = .ok a ∧ rest a = .ok b := by
  rcases first with err | a
  · show Except.error err = _ ↔ _
    simp
  · show rest a = _ ↔ _
    simp

/-- The rest of a computation only matters after a step that ends well. -/
theorem bind_congr_ok {f g : α → Except χ β} (h : ∀ a, first = .ok a → f a = g a) :
    first >>= f = first >>= g := by
  rcases first with err | a
  · rfl
  · exact h a rfl

/-- A check that passes is followed by a rest that ends well. -/
theorem then_ok_iff {check : Except χ Unit} {rest : Unit → Except χ β} {b : β} :
    check >>= rest = .ok b ↔ check = .ok () ∧ rest () = .ok b := by
  rw [bind_ok_iff]
  constructor
  · rintro ⟨⟨⟩, hcheck, hrest⟩
    exact ⟨hcheck, hrest⟩
  · rintro ⟨hcheck, hrest⟩
    exact ⟨(), hcheck, hrest⟩

/-- A guard written as a branch. -/
theorem ite_error_ok_iff {c : Prop} [Decidable c] {x : Except χ α} {a : α} :
    (if c then .error err else x) = .ok a ↔ ¬c ∧ x = .ok a := by
  split
  · simp [*]
  · simp [*]

@[simp] theorem map_ok_iff {f : α → β} {b : β} : first.map f = .ok b ↔ ∃ a, first = .ok a ∧ f a = b := by
  rcases first with err | a <;> simp [Except.map]

theorem forM_ok_iff {xs : List α} {f : α → Except χ Unit} : xs.forM f = .ok () ↔ ∀ x ∈ xs, f x = .ok () := by
  induction xs with
  | nil => simp [List.forM, pure, Except.pure]
  | cons x xs ih =>
    show (f x >>= fun _ => xs.forM f) = .ok () ↔ _
    rw [then_ok_iff, ih, List.forall_mem_cons]

/-! ## Which failures are possible -/

/-- The computation fails, if at all, with an error in `p`. -/
def FailsOnly (p : χ → Prop) (x : Except χ α) : Prop := ∀ err, x = .error err → p err

variable {p : χ → Prop}

theorem failsOnly_ok (a : α) : FailsOnly p (.ok a) := fun _ h => (nomatch h)

theorem failsOnly_reject {bad : Bool} (h : bad = true → p err) : FailsOnly p (reject bad err) := by
  intro err' herr
  unfold reject at herr
  split at herr
  · rename_i hbad
    exact Except.error.inj herr ▸ h hbad
  · cases herr

theorem failsOnly_orElse {x : Option α} (h : p err) : FailsOnly p (orElse x err) := by
  intro err' herr
  cases x with
  | some => cases herr
  | none => exact Except.error.inj herr ▸ h

theorem FailsOnly.bind {x : Except χ α} {f : α → Except χ β} (hx : FailsOnly p x)
    (hf : ∀ a, x = .ok a → FailsOnly p (f a)) : FailsOnly p (x >>= f) := by
  cases x with
  | error => exact fun _ h => hx _ (Except.error.inj h ▸ rfl)
  | ok a => exact hf a rfl

end Checks
