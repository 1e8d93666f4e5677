import Mathlib.Data.List.Sort

/-!
# `Foundation.Paging` — reading a table page by page

Keyset pagination: a page is the first rows, in the order of their keys, whose key is beyond a position, and the
position of the next page is the key of the last row handed out. One row more than the page holds is read, to know
whether there is a next page.

`page_step` says that nothing is lost between two pages and nothing is read twice, for rows with distinct keys.
-/

namespace Paging

variable {α κ : Type} [LinearOrder κ] (key : α → κ)

/-- The rows beyond a position, in the order of their keys. Every row is beyond `none`. -/
def following (position : Option κ) (rows : List α) : List α :=
  (rows.filter fun row => position.all fun k => decide (k < key row)).insertionSort fun a b => key a ≤ key b

structure Page (α : Type) where
  items : List α
  /-- The last row of the page, if there are more. -/
  last? : Option α

def page (limit : Nat) (position : Option κ) (rows : List α) : Page α :=
  let found := (following key position rows).take (limit + 1)
  if limit < found.length then ⟨found.take limit, found[limit - 1]?⟩ else ⟨found, none⟩

variable {key} {position : Option κ} {rows : List α}

theorem mem_following {row : α} :
    row ∈ following key position rows ↔ row ∈ rows ∧ ∀ k, position = some k → k < key row := by
  rw [following, List.mem_insertionSort, List.mem_filter, Option.all_eq_true]
  simp

theorem perm_following_none (rows : List α) : (following key none rows).Perm rows := by
  have hall : (rows.filter fun row => (none : Option κ).all fun k => decide (k < key row)) = rows :=
    List.filter_eq_self.mpr fun _ _ => rfl
  rw [following, hall]
  exact List.perm_insertionSort _ _

/-- Rows with distinct keys are in strict order. -/
theorem pairwise_following (hkeys : (rows.map key).Nodup) :
    (following key position rows).Pairwise fun a b => key a < key b := by
  have : Std.Total fun a b : α => key a ≤ key b := ⟨fun a b => le_total (key a) (key b)⟩
  have : IsTrans α fun a b => key a ≤ key b := ⟨fun _ _ _ => le_trans⟩
  have hle := List.pairwise_insertionSort (fun a b : α => key a ≤ key b)
    (rows.filter fun row => position.all fun k => decide (k < key row))
  have hne : ((following key position rows).map key).Nodup := by
    refine ((List.perm_insertionSort _ _).map key).nodup_iff.mpr ?_
    exact hkeys.sublist (List.filter_sublist.map key)
  rw [List.Nodup, List.pairwise_map] at hne
  exact (hle.and hne).imp fun h => lt_of_le_of_ne h.1 h.2

/-- What is beyond a row that was read. -/
theorem following_of_append (hkeys : (rows.map key).Nodup) {before rest : List α} {last : α}
    (h : following key position rows = before ++ last :: rest) : following key (some (key last)) rows = rest := by
  have hsorted : (following key position rows).Pairwise fun a b => key a < key b := pairwise_following hkeys
  rw [h, List.pairwise_append, List.pairwise_cons] at hsorted
  obtain ⟨-, ⟨hrest, hpairs⟩, hbefore⟩ := hsorted
  have : Std.Irrefl fun a b : α => key a < key b := ⟨fun _ => lt_irrefl _⟩
  have : Std.Antisymm fun a b : α => key a < key b := ⟨fun _ _ hab hba => absurd hab (lt_asymm hba)⟩
  refine (pairwise_following hkeys).eq_of_mem_iff hpairs fun row => ?_
  have hmem : row ∈ following key position rows ↔ row ∈ before ∨ row = last ∨ row ∈ rest := by
    rw [h, List.mem_append, List.mem_cons]
  rw [mem_following] at hmem ⊢
  constructor
  · rintro ⟨hrow, hbeyond⟩
    have hlt := hbeyond _ rfl
    have hlast : last ∈ following key position rows := by
      rw [h]
      exact List.mem_append_right _ List.mem_cons_self
    rcases hmem.mp ⟨hrow, fun k hk => lt_trans ((mem_following.mp hlast).2 k hk) hlt⟩ with hold | rfl | hnew
    · exact absurd (hbefore row hold last List.mem_cons_self) (lt_asymm hlt)
    · exact absurd hlt (lt_irrefl _)
    · exact hnew
  · intro hnew
    refine ⟨(hmem.mpr (Or.inr (Or.inr hnew))).1, fun k hk => ?_⟩
    rw [← Option.some.inj hk]
    exact hrest row hnew

/-- A page ends with the row that the next one goes on behind. -/
theorem getLast?_items {limit : Nat} (hlimit : 0 < limit) {last : α}
    (h : (page key limit position rows).last? = some last) :
    (page key limit position rows).items.getLast? = some last ∧ last ∈ rows := by
  unfold page at h ⊢
  dsimp only at h ⊢
  generalize hfound : (following key position rows).take (limit + 1) = found at h ⊢
  split at h
  · rename_i hmore
    rw [if_pos hmore, List.getLast?_eq_getElem?, List.length_take, Nat.min_eq_left hmore.le,
      List.getElem?_take_of_lt (by omega)]
    refine ⟨h, ?_⟩
    have hmem : last ∈ (following key position rows).take (limit + 1) := hfound ▸ List.mem_of_getElem? h
    exact (mem_following.mp (List.mem_of_mem_take hmem)).1
  · cases h

/-- **One page.** It is the last one and holds all that is left, or it ends with a row beyond which the rest is. -/
theorem page_step (hkeys : (rows.map key).Nodup) {limit : Nat} (hlimit : 0 < limit) :
    ((page key limit position rows).last? = none ∧
      (page key limit position rows).items = following key position rows) ∨
    ∃ last, (page key limit position rows).last? = some last ∧ last ∈ following key position rows ∧
      (page key limit position rows).items ≠ [] ∧
      following key position rows =
        (page key limit position rows).items ++ following key (some (key last)) rows := by
  generalize hfound : following key position rows = found
  by_cases hmore : limit < found.length
  · right
    have hlt : limit - 1 < found.length := by omega
    have hpage : page key limit position rows = ⟨found.take limit, some found[limit - 1]⟩ := by
      unfold page
      rw [hfound, if_pos (by rw [List.length_take]; omega), List.take_take, List.getElem?_take_of_lt (by omega),
        List.getElem?_eq_getElem hlt, Nat.min_eq_left (by omega)]
    have hsplit : found = found.take (limit - 1) ++ found[limit - 1] :: found.drop limit := by
      have hdrop := List.drop_eq_getElem_cons hlt
      rw [Nat.sub_add_cancel hlimit] at hdrop
      rw [← hdrop, List.take_append_drop]
    have hrest := following_of_append hkeys (hfound.trans hsplit)
    refine ⟨_, congrArg Page.last? hpage, List.getElem_mem hlt, ?_, ?_⟩
    · rw [hpage]
      exact List.ne_nil_of_length_pos (by rw [List.length_take]; omega)
    · rw [hpage, hrest, List.take_append_drop]
  · left
    have hpage : page key limit position rows = ⟨found, none⟩ := by
      unfold page
      rw [hfound, List.take_of_length_le (by omega), if_neg hmore]
    rw [hpage]
    exact ⟨rfl, rfl⟩

end Paging
