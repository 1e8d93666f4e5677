import Mathlib.Data.Finset.Card
import Mathlib.Data.List.Pairwise

/-!
# `Foundation.Table` — relational tables with unique constraints

A table is a list of rows together with the proof that no two rows clash on a unique constraint, so a
table that violates its own schema cannot be built. The row type says which pairs clash
(`Record.Conflict`: the primary key and every other `UNIQUE` column at once). `insert` is `INSERT … ON
CONFLICT DO NOTHING`, `update` is for assignments that leave the unique columns alone.
-/

namespace Relational

/-- A row type with its unique constraints: `Conflict a b` when `a` and `b` agree on some unique key. -/
class Record (ρ : Type) where
  Conflict : ρ → ρ → Prop
  decidableConflict : DecidableRel Conflict
  conflict_refl : ∀ a, Conflict a a
  conflict_symm : ∀ {a b}, Conflict a b → Conflict b a

open Record

instance {ρ : Type} [Record ρ] : DecidableRel (Conflict : ρ → ρ → Prop) := decidableConflict

/-- Rows in insertion order, no two of which clash. -/
structure Table (ρ : Type) [Record ρ] where
  rows : List ρ
  unique : rows.Pairwise fun a b => ¬ Conflict a b

namespace Table

variable {ρ : Type} [Record ρ]

instance : Membership ρ (Table ρ) := ⟨fun t a => a ∈ t.rows⟩

instance [DecidableEq ρ] (t : Table ρ) (a : ρ) : Decidable (a ∈ t) := inferInstanceAs (Decidable (a ∈ t.rows))

variable {t : Table ρ} {a : ρ}

theorem mem_def : a ∈ t ↔ a ∈ t.rows := Iff.rfl

/-- The table without rows. -/
def empty : Table ρ := ⟨[], List.Pairwise.nil⟩

@[simp] theorem rows_empty : (empty : Table ρ).rows = [] := rfl

@[simp] theorem not_mem_empty : a ∉ (empty : Table ρ) := by simp [mem_def]

variable {b : ρ}

/-- **Unique constraints.** Two stored rows that clash are the same row. -/
theorem eq_of_conflict (t : Table ρ) (ha : a ∈ t) (hb : b ∈ t) (h : Conflict a b) : a = b := by
  by_contra hne
  have : Std.Symm fun a b : ρ => ¬ Conflict a b := ⟨fun _ _ hn hc => hn (conflict_symm hc)⟩
  exact t.unique.forall ha hb hne h

/-! ## `INSERT … ON CONFLICT DO NOTHING` -/

variable {t' : Table ρ}

/-- Append `a` unless it clashes with a stored row. -/
def insert (t : Table ρ) (a : ρ) : Option (Table ρ) :=
  if h : ∀ b ∈ t.rows, ¬ Conflict b a then
    some ⟨t.rows ++ [a], by
      rw [List.pairwise_append]
      exact ⟨t.unique, List.pairwise_singleton _ _, fun b hb c hc => by
        rw [List.mem_singleton] at hc
        exact hc ▸ h b hb⟩⟩
  else none

/-- The statement's effect when the caller ignores whether a row went in. -/
def insertIgnore (t : Table ρ) (a : ρ) : Table ρ := (t.insert a).getD t

theorem insert_eq_none_iff : t.insert a = none ↔ ∃ b ∈ t, Conflict b a := by
  unfold insert
  split
  · rename_i h
    simp only [reduceCtorEq, false_iff, not_exists, not_and]
    exact h
  · rename_i h
    push Not at h
    simpa [mem_def] using h

theorem rows_of_insert (h : t.insert a = some t') : t'.rows = t.rows ++ [a] := by
  unfold insert at h
  split at h
  · exact (Option.some.inj h) ▸ rfl
  · exact absurd h (by simp)

theorem mem_of_insert (h : t.insert a = some t') : b ∈ t' ↔ b ∈ t ∨ b = a := by
  rw [mem_def, rows_of_insert h, List.mem_append, List.mem_singleton]
  exact Iff.rfl

/-- A row that went in clashes with nothing that was there. -/
theorem not_conflict_of_insert (h : t.insert a = some t') (hb : b ∈ t) : ¬ Conflict b a := by
  intro hc
  have hnone := insert_eq_none_iff.mpr ⟨b, hb, hc⟩
  rw [h] at hnone
  exact absurd hnone (by simp)

theorem insert_isSome (h : ∀ b ∈ t, ¬ Conflict b a) : ∃ t', t.insert a = some t' := by
  cases hi : t.insert a with
  | some t' => exact ⟨t', rfl⟩
  | none =>
    obtain ⟨b, hb, hc⟩ := insert_eq_none_iff.mp hi
    exact absurd hc (h b hb)

theorem mem_insertIgnore_of_mem (hb : b ∈ t) : b ∈ t.insertIgnore a := by
  unfold insertIgnore
  cases hi : t.insert a with
  | none => exact hb
  | some => exact (mem_of_insert hi).mpr (Or.inl hb)

theorem mem_of_mem_insertIgnore (hb : b ∈ t.insertIgnore a) : b ∈ t ∨ b = a := by
  unfold insertIgnore at hb
  cases hi : t.insert a with
  | none => rw [hi] at hb; exact .inl hb
  | some => rw [hi] at hb; exact (mem_of_insert hi).mp hb

/-- After the statement some row with `a`'s unique keys is stored. -/
theorem exists_conflict_insertIgnore (t : Table ρ) (a : ρ) : ∃ b ∈ t.insertIgnore a, Conflict b a := by
  cases hi : t.insert a with
  | some =>
    refine ⟨a, ?_, conflict_refl a⟩
    simp only [insertIgnore, hi, Option.getD_some]
    exact (mem_of_insert hi).mpr (Or.inr rfl)
  | none =>
    obtain ⟨b, hb, hc⟩ := insert_eq_none_iff.mp hi
    exact ⟨b, mem_insertIgnore_of_mem hb, hc⟩

/-- Nothing changes when the row already clashes. -/
theorem insertIgnore_of_conflict (hb : b ∈ t) (hc : Conflict b a) : t.insertIgnore a = t := by
  have hnone : t.insert a = none := insert_eq_none_iff.mpr ⟨b, hb, hc⟩
  simp [insertIgnore, hnone]

/-! ## `UPDATE … WHERE` and `DELETE … WHERE` -/

variable {p : ρ → Bool} {f : ρ → ρ}

/-- An assignment that leaves the unique columns alone. -/
def KeepsKeys (f : ρ → ρ) : Prop := ∀ a b, Conflict (f a) b → Conflict a b

private theorem conflict_of_updated (hf : KeepsKeys f)
    (h : Conflict (if p a then f a else a) (if p b then f b else b)) : Conflict a b := by
  have hleft : ∀ c, Conflict (if p a then f a else a) c → Conflict a c := by
    intro c hc
    split at hc
    · exact hf a c hc
    · exact hc
  have hb := conflict_symm (hleft _ h)
  split at hb
  · exact conflict_symm (hf b a hb)
  · exact conflict_symm hb

/-- Apply `f` to the rows that satisfy `p`. -/
def update (t : Table ρ) (p : ρ → Bool) (f : ρ → ρ) (hf : KeepsKeys f) : Table ρ :=
  ⟨t.rows.map fun a => if p a then f a else a, by
    rw [List.pairwise_map]
    exact t.unique.imp fun hn hc => hn (conflict_of_updated hf hc)⟩

variable {hf : KeepsKeys f}

theorem mem_update : b ∈ t.update p f hf ↔ ∃ a ∈ t, b = if p a then f a else a := by
  simp only [mem_def, update, List.mem_map]
  constructor
  · rintro ⟨a, ha, rfl⟩; exact ⟨a, ha, rfl⟩
  · rintro ⟨a, ha, rfl⟩; exact ⟨a, ha, rfl⟩

theorem mem_update_of_not (hf : KeepsKeys f) (ha : a ∈ t) (hp : p a = false) : a ∈ t.update p f hf :=
  mem_update.mpr ⟨a, ha, by simp [hp]⟩

theorem mem_update_of (hf : KeepsKeys f) (ha : a ∈ t) (hp : p a = true) : f a ∈ t.update p f hf :=
  mem_update.mpr ⟨a, ha, by simp [hp]⟩

theorem eq_of_rows (h : t.rows = t'.rows) : t = t' := by
  obtain ⟨rows, _⟩ := t
  obtain ⟨rows', _⟩ := t'
  obtain rfl : rows = rows' := h
  rfl

/-- An `UPDATE` changes nothing exactly if it assigns every row it reaches its own values. -/
theorem update_eq_self_iff (hf : KeepsKeys f) : t.update p f hf = t ↔ ∀ a ∈ t, p a = true → f a = a := by
  have hmap : t.update p f hf = t ↔ (t.rows.map fun a => if p a then f a else a) = t.rows.map id := by
    rw [List.map_id]
    exact ⟨fun h => congrArg Table.rows h, fun h => eq_of_rows h⟩
  rw [hmap, List.map_inj_left]
  refine forall₂_congr fun a _ => ?_
  cases p a with
  | false => simp
  | true => simp

/-- Keep the rows that do not satisfy `p`. -/
def delete (t : Table ρ) (p : ρ → Bool) : Table ρ :=
  ⟨t.rows.filter fun a => !p a, t.unique.filter _⟩

theorem mem_delete : a ∈ t.delete p ↔ a ∈ t ∧ p a = false := by
  simp [mem_def, delete, List.mem_filter]

/-! ## `SELECT … WHERE` -/

variable {q : ρ → Bool}

/-- The rows that satisfy `p`. -/
def select (t : Table ρ) (p : ρ → Bool) : List ρ := t.rows.filter p

/-- The first row that satisfies `p` (`QueryRow`). -/
def first? (t : Table ρ) (p : ρ → Bool) : Option ρ := t.rows.find? p

/-- `count(*) FILTER (WHERE p)`. -/
def count (t : Table ρ) (p : ρ → Bool) : Nat := t.rows.countP p

theorem mem_select : a ∈ t.select p ↔ a ∈ t ∧ p a = true := by
  simp [mem_def, select, List.mem_filter]

theorem count_eq_length_select (t : Table ρ) (p : ρ → Bool) : t.count p = (t.select p).length := by
  rw [count, select, List.countP_eq_length_filter]

theorem mem_of_first? (h : t.first? p = some a) : a ∈ t ∧ p a = true :=
  ⟨List.mem_of_find?_eq_some h, List.find?_some h⟩

theorem first?_eq_none : t.first? p = none ↔ ∀ a ∈ t, p a = false := by
  simp [first?, mem_def]

theorem first?_eq_head? (t : Table ρ) (p : ρ → Bool) : t.first? p = (t.select p).head? := by
  rw [first?, select, List.head?_filter]

/-- A conjunction can be counted among the rows that satisfy its first part. -/
theorem count_and (t : Table ρ) (p q : ρ → Bool) : (t.count fun a => p a && q a) = (t.select p).countP q := by
  simp [count, select, List.countP_filter, Bool.and_comm]

/-- An update that brings one row into a selection adds that row. -/
theorem select_update_perm (hf : KeepsKeys f) (ha : a ∈ t) (hp : ∀ b ∈ t, p b = true ↔ b = a)
    (hout : q a = false) (hin : q (f a) = true) :
    ((t.update p f hf).select q).Perm (f a :: t.select q) := by
  obtain ⟨before, after, hrows⟩ := List.append_of_mem (mem_def.mp ha)
  have hunique := t.unique
  rw [hrows, List.pairwise_append] at hunique
  obtain ⟨-, hafter, hbefore⟩ := hunique
  -- rows other than `a` differ from it, so the update passes them by
  have hsame : ∀ l : List ρ, (∀ b ∈ l, b ∈ t ∧ b ≠ a) → (l.map fun b => if p b then f b else b) = l := by
    intro l hl
    conv_rhs => rw [← List.map_id l]
    refine List.map_congr_left fun b hb => ?_
    have hb' : ¬ p b = true := fun h => (hl b hb).2 ((hp b (hl b hb).1).mp h)
    rw [if_neg hb', id]
  have hleft := hsame before fun b hb => ⟨by rw [mem_def, hrows]; exact List.mem_append_left _ hb, fun heq =>
    hbefore b hb a List.mem_cons_self (heq ▸ conflict_refl a)⟩
  have hright := hsame after fun b hb => ⟨by rw [mem_def, hrows]; simp [hb], fun heq =>
    (List.pairwise_cons.mp hafter).1 b hb (heq ▸ conflict_refl a)⟩
  have hself : p a = true := (hp a ha).mpr rfl
  simp only [select, update, hrows, List.map_append, List.map_cons, hleft, hright, hself, if_true, List.filter_append,
    List.filter_cons, hout, hin, Bool.false_eq_true, if_false]
  exact List.perm_middle

/-- A conjunction selects among the rows that satisfy its first part. -/
theorem select_and (t : Table ρ) (p q : ρ → Bool) : (t.select fun a => p a && q a) = (t.select p).filter q := by
  simp [select, List.filter_filter, Bool.and_comm]

/-- A `WHERE` clause that pins a unique key selects at most one row. -/
def Pins (p : ρ → Bool) : Prop := ∀ a b, p a = true → p b = true → Conflict a b

/-- **Keyed lookup.** Reading by a unique key returns the one row that has it. -/
theorem first?_eq_some_iff (hp : Pins p) : t.first? p = some a ↔ a ∈ t ∧ p a = true := by
  constructor
  · exact mem_of_first?
  · rintro ⟨ha, hpa⟩
    cases hf : t.first? p with
    | none =>
      have := first?_eq_none.mp hf a ha
      rw [hpa] at this
      exact absurd this (by simp)
    | some b =>
      obtain ⟨hb, hpb⟩ := mem_of_first? hf
      rw [t.eq_of_conflict hb ha (hp b a hpb hpa)]

/-! ## Frame rules: statements that do not touch the selected rows -/

theorem select_of_insert (h : t.insert a = some t') (hp : p a = false) : t'.select p = t.select p := by
  simp [select, rows_of_insert h, List.filter_append, hp]

theorem select_insertIgnore (hp : p a = false) : (t.insertIgnore a).select p = t.select p := by
  unfold insertIgnore
  cases hi : t.insert a with
  | none => rfl
  | some => exact select_of_insert hi hp

/-- Rows outside the `WHERE` clause are kept, in order, when the assignment moves no row into it. -/
theorem select_update (h : ∀ a ∈ t, p a = true → q a = false ∧ q (f a) = false) :
    (t.update p f hf).select q = t.select q := by
  have aux : ∀ l : List ρ, (∀ a ∈ l, p a = true → q a = false ∧ q (f a) = false) →
      (l.map fun a => if p a then f a else a).filter q = l.filter q := by
    intro l
    induction l with
    | nil => intro _; rfl
    | cons a l ih =>
      intro hl
      have ih' := ih fun b hb => hl b (List.mem_cons_of_mem _ hb)
      rw [List.map_cons, List.filter_cons, List.filter_cons, ih']
      by_cases hpa : p a = true
      · obtain ⟨h1, h2⟩ := hl a List.mem_cons_self hpa
        simp [hpa, h1, h2]
      · simp [hpa]
  exact aux t.rows h

/-- A `WHERE` clause on columns that an `UPDATE` does not assign selects the same rows, updated. -/
theorem select_update_eq_map (hf : KeepsKeys f) (h : ∀ a, q (f a) = q a) :
    (t.update p f hf).select q = (t.select q).map fun a => if p a then f a else a := by
  rw [select, update, List.filter_map, select]
  congr 2
  funext a
  rw [Function.comp_apply]
  split
  · exact h a
  · rfl

/-- An `UPDATE` of rows with other values in a column it does not assign. -/
theorem select_update_of_ne {κ : Type} [DecidableEq κ] (hf : KeepsKeys f) {col : ρ → κ} {k : κ}
    (hcol : ∀ a, col (f a) = col a) (hne : ∀ a ∈ t, p a = true → col a ≠ k) :
    (t.update p f hf).select (fun a => decide (col a = k)) = t.select fun a => decide (col a = k) :=
  select_update fun a ha hp => by simp [hcol, hne a ha hp]

/-- A `WHERE` filter sees an `UPDATE` only through the updated rows. -/
theorem count_update : (t.update p f hf).count q = t.count fun a => q (if p a then f a else a) := by
  simp only [count, update, List.countP_map]
  rfl

theorem count_of_insert (h : t.insert a = some t') : t'.count p = t.count p + if p a then 1 else 0 := by
  simp [count, rows_of_insert h, List.countP_append, List.countP_cons]

theorem count_delete_le (t : Table ρ) (p q : ρ → Bool) : (t.delete p).count q ≤ t.count q :=
  (List.filter_sublist).countP_le

theorem count_mono (h : ∀ a ∈ t, p a = true → q a = true) : t.count p ≤ t.count q :=
  List.countP_mono_left h

theorem count_congr (h : ∀ a ∈ t, p a = q a) : t.count p = t.count q :=
  List.countP_congr fun a ha => by rw [h a ha]

theorem count_pos_iff : 0 < t.count p ↔ ∃ a ∈ t, p a = true :=
  List.countP_pos_iff

/-- Counting a disjoint union. -/
theorem count_or (h : ∀ a ∈ t, p a = true → q a = false) :
    (t.count fun a => p a || q a) = t.count p + t.count q := by
  have aux : ∀ l : List ρ, (∀ a ∈ l, p a = true → q a = false) →
      l.countP (fun a => p a || q a) = l.countP p + l.countP q := by
    intro l
    induction l with
    | nil => intro _; rfl
    | cons a l ih =>
      intro hl
      have ih' := ih fun b hb => hl b (List.mem_cons_of_mem _ hb)
      rw [List.countP_cons, List.countP_cons, List.countP_cons, ih']
      by_cases hpa : p a = true
      · simp [hpa, hl a List.mem_cons_self hpa]
        omega
      · simp [hpa]
        omega
  exact aux t.rows h

/-! ## Rows numbered by a key column -/

/-- The selected rows' `key` values are distinct when `key` is unique among them. -/
theorem nodup_map_select {key : ρ → Nat}
    (hkey : ∀ a ∈ t, ∀ b ∈ t, p a = true → p b = true → key a = key b → Conflict a b) :
    ((t.select p).map key).Nodup := by
  rw [List.Nodup, List.pairwise_map]
  have hmem := List.Pairwise.and_mem.mp (t.unique.filter p)
  refine List.Pairwise.imp ?_ hmem
  rintro a b ⟨ha, hb, hn⟩ he
  obtain ⟨ha1, ha2⟩ := List.mem_filter.mp ha
  obtain ⟨hb1, hb2⟩ := List.mem_filter.mp hb
  exact hn (hkey a ha1 b hb1 ha2 hb2 he)

/-- **Counting numbered rows.** When the selected rows carry distinct numbers below `n`, their count is
    `n` exactly when every number below `n` is carried by one of them. -/
theorem count_eq_iff_covers {key : ρ → Nat} {n : Nat}
    (hkey : ∀ a ∈ t, ∀ b ∈ t, p a = true → p b = true → key a = key b → Conflict a b)
    (hlt : ∀ a ∈ t, p a = true → key a < n) :
    t.count p = n ↔ ∀ i < n, ∃ a ∈ t, p a = true ∧ key a = i := by
  have hnd := nodup_map_select hkey
  have hcard : ((t.select p).map key).toFinset.card = t.count p := by
    rw [List.toFinset_card_of_nodup hnd, List.length_map, count_eq_length_select]
  have hsub : ((t.select p).map key).toFinset ⊆ Finset.range n := by
    intro i hi
    rw [List.mem_toFinset, List.mem_map] at hi
    obtain ⟨a, ha, rfl⟩ := hi
    obtain ⟨ha1, ha2⟩ := mem_select.mp ha
    exact Finset.mem_range.mpr (hlt a ha1 ha2)
  constructor
  · intro hn i hi
    have heq : ((t.select p).map key).toFinset = Finset.range n :=
      Finset.eq_of_subset_of_card_le hsub (by rw [Finset.card_range, hcard, hn])
    have hmem : i ∈ ((t.select p).map key).toFinset := heq ▸ Finset.mem_range.mpr hi
    rw [List.mem_toFinset, List.mem_map] at hmem
    obtain ⟨a, ha, hai⟩ := hmem
    exact ⟨a, (mem_select.mp ha).1, (mem_select.mp ha).2, hai⟩
  · intro hall
    have heq : ((t.select p).map key).toFinset = Finset.range n := by
      apply Finset.Subset.antisymm hsub
      intro i hi
      obtain ⟨a, ha, hpa, hai⟩ := hall i (Finset.mem_range.mp hi)
      rw [List.mem_toFinset, List.mem_map]
      exact ⟨a, mem_select.mpr ⟨ha, hpa⟩, hai⟩
    rw [← hcard, heq, Finset.card_range]

end Table

end Relational
