import Mathlib.Data.List.Basic
import Mathlib.Data.List.Induction

/-!
# `Foundation.Dict` — the dictionary that a list of members builds

Members are stored one after the other; a key that is stored again keeps its place and gets the new value. This is what
reading a JSON object with repeated keys comes to, in Go's maps as in Python's dictionaries. `pop` takes an entry out.
-/

namespace Dict

variable {κ κ' α β : Type} [DecidableEq κ] [DecidableEq κ']

/-- `d[k] = v` -/
def set (k : κ) (v : α) : List (κ × α) → List (κ × α)
  | [] => [(k, v)]
  | (k', v') :: d => if k' = k then (k, v) :: d else (k', v') :: set k v d

/-- `d.pop(k, None)`: the value that is taken out, and what is left. -/
def pop (k : κ) : List (κ × α) → Option α × List (κ × α)
  | [] => (none, [])
  | (k', v') :: d => if k' = k then (some v', d) else ((pop k d).1, (k', v') :: (pop k d).2)

def ofMembers (members : List (κ × α)) : List (κ × α) := members.foldl (fun d member => set member.1 member.2 d) []

theorem ofMembers_concat (members : List (κ × α)) (member : κ × α) :
    ofMembers (members ++ [member]) = set member.1 member.2 (ofMembers members) := by
  rw [ofMembers, List.foldl_append]
  rfl

variable {k : κ} {v : α} {d : List (κ × α)}

theorem mem_set {entry : κ × α} (h : entry ∈ set k v d) : entry = (k, v) ∨ entry ∈ d := by
  induction d with
  | nil => exact .inl (List.mem_singleton.mp h)
  | cons first d ih =>
    unfold set at h
    split at h
    · exact (List.mem_cons.mp h).imp_right (List.mem_cons_of_mem _)
    · rcases List.mem_cons.mp h with rfl | h
      · exact .inr List.mem_cons_self
      · exact (ih h).imp_right (List.mem_cons_of_mem _)

theorem mem_keys_set {k' : κ} : k' ∈ (set k v d).map Prod.fst ↔ k' = k ∨ k' ∈ d.map Prod.fst := by
  induction d with
  | nil => simp [set]
  | cons first d ih =>
    unfold set
    split
    · rename_i heq
      simp [heq]
    · rw [List.map_cons, List.mem_cons, ih, List.map_cons, List.mem_cons]
      exact or_left_comm

theorem lookup_set_ne {k' : κ} (h : k' ≠ k) : (set k v d).lookup k' = d.lookup k' := by
  have hkey : (k' == k) = false := beq_false_of_ne h
  induction d with
  | nil => rw [set, List.lookup_cons, hkey]
  | cons first d ih =>
    unfold set
    split
    · rename_i heq
      rw [List.lookup_cons, List.lookup_cons, heq, hkey]
    · rw [List.lookup_cons, List.lookup_cons, ih]

theorem set_of_not_mem (h : k ∉ d.map Prod.fst) : set k v d = d ++ [(k, v)] := by
  induction d with
  | nil => rfl
  | cons first d ih =>
    rw [List.map_cons, List.mem_cons, not_or] at h
    rw [set, if_neg fun heq => h.1 heq.symm, ih h.2, List.cons_append]

/-- Nothing is taken out for a key that is not there; else one entry is. -/
theorem pop_cases (k : κ) (d : List (κ × α)) :
    ((pop k d).1 = none ∧ (pop k d).2 = d ∧ k ∉ d.map Prod.fst) ∨
      ∃ v, (pop k d).1 = some v ∧ d.Perm ((k, v) :: (pop k d).2) := by
  induction d with
  | nil => exact .inl ⟨rfl, rfl, List.not_mem_nil⟩
  | cons first d ih =>
    obtain ⟨k', v'⟩ := first
    unfold pop
    by_cases heq : k' = k
    · rw [if_pos heq]
      exact .inr ⟨v', rfl, heq ▸ List.Perm.refl _⟩
    · rw [if_neg heq]
      rcases ih with ⟨hnone, hrest, hkey⟩ | ⟨v, hsome, hperm⟩
      · refine .inl ⟨hnone, by rw [hrest], ?_⟩
        rw [List.map_cons, List.mem_cons, not_or]
        exact ⟨fun h => heq h.symm, hkey⟩
      · exact .inr ⟨v, hsome, (hperm.cons _).trans (List.Perm.swap _ _ _)⟩

/-- What was stored last under a new key is taken out again. -/
theorem pop_concat (h : k ∉ d.map Prod.fst) : pop k (d ++ [(k, v)]) = (some v, d) := by
  induction d with
  | nil => exact if_pos rfl
  | cons first d ih =>
    rw [List.map_cons, List.mem_cons, not_or] at h
    rw [List.cons_append, pop, if_neg fun heq => h.1 heq.symm, ih h.2]

/-- What storing a member keeps holds of the whole dictionary. -/
theorem ofMembers_induction {P : List (κ × α) → List (κ × α) → Prop} (hnil : P [] [])
    (hset : ∀ members member d, P members d → P (members ++ [member]) (set member.1 member.2 d))
    (members : List (κ × α)) : P members (ofMembers members) := by
  induction members using List.reverseRecOn with
  | nil => exact hnil
  | append_singleton members member ih =>
    rw [ofMembers_concat]
    exact hset members member _ ih

variable {members : List (κ × α)}

theorem mem_of_mem_ofMembers {entry : κ × α} (h : entry ∈ ofMembers members) : entry ∈ members := by
  revert h
  refine ofMembers_induction (P := fun members d => entry ∈ d → entry ∈ members) id (fun members member d ih h => ?_) members
  rcases mem_set h with rfl | hold
  · exact List.mem_append_right _ (List.mem_singleton_self _)
  · exact List.mem_append_left _ (ih hold)

theorem mem_keys_ofMembers : k ∈ (ofMembers members).map Prod.fst ↔ k ∈ members.map Prod.fst := by
  refine ofMembers_induction (P := fun members d => k ∈ d.map Prod.fst ↔ k ∈ members.map Prod.fst) Iff.rfl
    (fun members member d ih => ?_) members
  rw [mem_keys_set, ih, List.map_append, List.mem_append, List.map_singleton, List.mem_singleton]
  exact or_comm

/-- Keys that are stored once stay in order. -/
theorem ofMembers_of_nodup (h : (members.map Prod.fst).Nodup) : ofMembers members = members := by
  induction members using List.reverseRecOn with
  | nil => rfl
  | append_singleton members member ih =>
    rw [List.map_append, List.nodup_append] at h
    have hnew : member.1 ∉ members.map Prod.fst := fun hmem => h.2.2 _ hmem _ (List.mem_singleton_self _) rfl
    rw [ofMembers_concat, ih h.1, set_of_not_mem hnew]

theorem set_map {f : κ → κ'} {g : α → β} (hf : ∀ k' ∈ d.map Prod.fst, f k' = f k → k' = k) :
    set (f k) (g v) (d.map fun entry => (f entry.1, g entry.2)) = (set k v d).map fun entry => (f entry.1, g entry.2) := by
  induction d with
  | nil => rfl
  | cons first d ih =>
    rw [List.map_cons, List.forall_mem_cons] at hf
    obtain ⟨hfirst, hrest⟩ := hf
    by_cases heq : first.1 = k
    · simp [set, heq]
    · have hne : f first.1 ≠ f k := fun h => heq (hfirst h)
      simp [set, if_neg heq, if_neg hne, ih hrest]

/-- Keys that stay apart and values may be translated before or after. -/
theorem ofMembers_map {f : κ → κ'} {g : α → β}
    (hf : ∀ k ∈ members.map Prod.fst, ∀ k' ∈ members.map Prod.fst, f k = f k' → k = k') :
    ofMembers (members.map fun member => (f member.1, g member.2)) =
      (ofMembers members).map fun entry => (f entry.1, g entry.2) := by
  induction members using List.reverseRecOn with
  | nil => rfl
  | append_singleton members member ih =>
    rw [List.map_append] at hf
    have hold := ih fun k hk k' hk' => hf k (List.mem_append_left _ hk) k' (List.mem_append_left _ hk')
    have hkeys : ∀ k ∈ (ofMembers members).map Prod.fst, f k = f member.1 → k = member.1 := by
      intro k hk
      refine hf k (List.mem_append_left _ (mem_keys_ofMembers.mp hk)) member.1 (List.mem_append_right _ ?_)
      exact List.mem_singleton_self _
    rw [List.map_append, List.map_singleton, ofMembers_concat, ofMembers_concat, hold]
    exact set_map hkeys

end Dict
