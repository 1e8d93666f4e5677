import Mathlib.Data.List.Perm.Basic

/-!
# `Foundation.Handles` — handles that have to be ended once

Handles are numbered as they are given out, and `ends` counts how often each was ended. The owned ones
have not been ended, all others once. Giving one out adds to the owned, ending one takes away; what
owns nothing any more has ended everything exactly once.
-/

namespace Handles

/-- The handles of `owned` are open, every other one was ended once. -/
structure Owns (owned ends : List Nat) : Prop where
  nodup : owned.Nodup
  given : ∀ i ∈ owned, i < ends.length
  ends_eq : ∀ i n, ends[i]? = some n → n = if i ∈ owned then 0 else 1

variable {owned owned' ends : List Nat} {i : Nat}

theorem owns_nil : Owns [] [] := ⟨List.nodup_nil, List.forall_mem_nil _, fun _ _ h => nomatch h⟩

theorem Owns.perm (h : Owns owned ends) (hperm : owned.Perm owned') : Owns owned' ends := by
  refine ⟨hperm.nodup_iff.mp h.nodup, fun i hi => h.given i (hperm.mem_iff.mpr hi), fun i n hn => ?_⟩
  rw [h.ends_eq i n hn]
  simp [hperm.mem_iff]

/-- A new handle is given out. -/
theorem Owns.start (h : Owns owned ends) : Owns (ends.length :: owned) (ends ++ [0]) := by
  have hnew : ends.length ∉ owned := fun hmem => absurd (h.given _ hmem) (Nat.lt_irrefl _)
  refine ⟨List.nodup_cons.mpr ⟨hnew, h.nodup⟩, ?_, ?_⟩
  · intro i hi
    rw [List.length_append, List.length_singleton]
    rcases List.mem_cons.mp hi with rfl | hi
    · exact Nat.lt_succ_self _
    · exact Nat.lt_succ_of_lt (h.given i hi)
  · intro i n hn
    rcases Nat.lt_trichotomy i ends.length with hlt | rfl | hgt
    · rw [List.getElem?_append_left hlt] at hn
      rw [h.ends_eq i n hn]
      simp [Nat.ne_of_lt hlt]
    · rw [List.getElem?_concat_length] at hn
      rw [if_pos List.mem_cons_self, Option.some.inj hn]
    · rw [List.getElem?_eq_none (by rw [List.length_append]; exact hgt)] at hn
      cases hn

/-- An owned handle is ended. -/
theorem Owns.finish (h : Owns (i :: owned) ends) : Owns owned (ends.modify i (· + 1)) := by
  obtain ⟨hnot, hnodup⟩ := List.nodup_cons.mp h.nodup
  refine ⟨hnodup, fun j hj => ?_, fun j n hn => ?_⟩
  · rw [List.length_modify]
    exact h.given j (List.mem_cons_of_mem _ hj)
  · rw [List.getElem?_modify] at hn
    obtain ⟨m, hm, rfl⟩ := Option.map_eq_some_iff.mp hn
    have hends := h.ends_eq j m hm
    by_cases hji : i = j
    · subst hji
      rw [if_pos List.mem_cons_self] at hends
      rw [if_pos rfl, if_neg hnot, hends]
    · rw [if_neg hji, hends]
      simp [Ne.symm hji]

/-- Everything that is owned is ended. -/
theorem Owns.finishAll (h : Owns owned ends) : Owns [] (owned.foldl (fun ends i => ends.modify i (· + 1)) ends) := by
  induction owned generalizing ends with
  | nil => exact h
  | cons i owned ih => exact ih h.finish

theorem Owns.all_ended (h : Owns [] ends) : ∀ n ∈ ends, n = 1 := by
  intro n hn
  obtain ⟨i, hi⟩ := List.mem_iff_getElem?.mp hn
  exact (h.ends_eq i n hi).trans (if_neg List.not_mem_nil)

end Handles
