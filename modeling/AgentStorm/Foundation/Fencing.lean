import Mathlib.Data.List.Induction

/-!
# `Foundation.Fencing` — expiring leases under fencing tokens

A lease cell is empty or holds a lease: an owner, a token and the time at which it expires. Operations
leave the cell, grant it anew, extend it while it is unexpired, or clear it (`Move`). A path is a
sequence of moves; its history records the time of each move and what it granted.
-/

namespace Fencing

variable {ω τ : Type}

structure Lease (ω τ : Type) where
  owner : ω
  token : τ
  expiry : Int
  deriving DecidableEq, Repr

/-- The token opens the cell at time `now`: it is the stored one and its lease has not expired. -/
def Live (c : Option (Lease ω τ)) (t : τ) (now : Int) : Prop :=
  ∃ l, c = some l ∧ l.token = t ∧ now < l.expiry

variable {c : Option (Lease ω τ)}

theorem Live.of_le {t : τ} {now later : Int} (h : Live c t later) (hle : now ≤ later) :
    Live c t now := by
  obtain ⟨l, hl, ht, hexp⟩ := h
  exact ⟨l, hl, ht, by omega⟩

/-- What one atomic operation at time `now` may do to a cell, and the owner and token it grants doing so. A grant
    takes over an empty cell, an expired lease, or a lease of the same owner. -/
inductive Move (now : Int) : Option (Lease ω τ) → Option (Lease ω τ) → Option (ω × τ) → Prop
  | keep (c : Option (Lease ω τ)) : Move now c c none
  | grant {c : Option (Lease ω τ)} (l : Lease ω τ)
      (hfree : ∀ old, c = some old → now < old.expiry → old.owner = l.owner) :
      Move now c (some l) (some (l.owner, l.token))
  | extend (l : Lease ω τ) (expiry : Int) (hlive : now < l.expiry) :
      Move now (some l) (some { l with expiry := expiry }) none
  | clear (c : Option (Lease ω τ)) : Move now c none none

/-- A dead token stays dead through a move that does not grant it. -/
theorem not_live_of_move {c' : Option (Lease ω τ)} {t : τ} {g : Option (ω × τ)} {since now : Int}
    (hmove : Move now c c' g) (hnow : since ≤ now) (hdead : ¬ Live c t since) (hg : ∀ w, g ≠ some (w, t)) :
    ¬ Live c' t since := by
  cases hmove with
  | keep => exact hdead
  | grant =>
    rintro ⟨m, hm, rfl, -⟩
    cases hm
    exact hg _ rfl
  | extend l =>
    rintro ⟨m, hm, rfl, -⟩
    cases hm
    exact hdead ⟨l, rfl, rfl, by omega⟩
  | clear =>
    rintro ⟨m, hm, -⟩
    cases hm

/-- A sequence of moves from one cell content to another, with the time and the grant of each. -/
inductive Path (c : Option (Lease ω τ)) : List (Int × Option (ω × τ)) → Option (Lease ω τ) → Prop
  | nil : Path c [] c
  | snoc {c' c'' : Option (Lease ω τ)} {hs : List (Int × Option (ω × τ))} {now : Int} {g : Option (ω × τ)}
      (hpath : Path c hs c') (hmove : Move now c' c'' g) : Path c (hs ++ [(now, g)]) c''

/-- The last grant of a history. -/
def latest {γ : Type} (hs : List (Int × Option γ)) : Option γ := hs.foldl (fun acc h => h.2.or acc) none

@[simp] theorem latest_snoc {γ : Type} (hs : List (Int × Option γ)) (now : Int) (g : Option γ) :
    latest (hs ++ [(now, g)]) = g.or (latest hs) := by
  simp [latest]

theorem mem_of_latest {γ : Type} {hs : List (Int × Option γ)} {g : γ} (h : latest hs = some g) :
    ∃ now, (now, some g) ∈ hs := by
  induction hs using List.reverseRecOn with
  | nil => cases h
  | append_singleton hs e ih =>
    obtain ⟨now, grant⟩ := e
    rw [latest_snoc] at h
    cases grant with
    | none =>
      obtain ⟨now', hmem⟩ := ih h
      exact ⟨now', List.mem_append_left _ hmem⟩
    | some g' =>
      obtain rfl : g' = g := Option.some.inj h
      exact ⟨now, by simp⟩

/-- Renaming what is granted renames the latest grant. -/
theorem latest_map {γ δ : Type} (f : γ → δ) (hs : List (Int × Option γ)) :
    latest (hs.map fun h => (h.1, h.2.map f)) = (latest hs).map f := by
  induction hs using List.reverseRecOn with
  | nil => rfl
  | append_singleton hs h ih =>
    rw [List.map_append, List.map_singleton, latest_snoc, ih, latest_snoc]
    cases h.2 <;> rfl

/-- **The latest grant holds the cell.** -/
theorem held_latest {hs : List (Int × Option (ω × τ))} (hpath : Path none hs c) :
    ∀ l, c = some l → latest hs = some (l.owner, l.token) := by
  induction hpath with
  | nil =>
    intro l hl
    cases hl
  | snoc _ hmove ih =>
    intro l hl
    subst hl
    rw [latest_snoc]
    cases hmove with
    | keep => simpa using ih l rfl
    | grant => rfl
    | extend m => simpa using ih m rfl

/-- **A spent token stays spent.** From the moment `since` at which `t` is not live, no path of moves made
    at or after `since` that does not grant `t` again brings it back. -/
theorem not_live_of_path {hs : List (Int × Option (ω × τ))} {c' : Option (Lease ω τ)} {t : τ}
    {since : Int} (hpath : Path c hs c') (hdead : ¬ Live c t since) :
    (∀ h ∈ hs, since ≤ h.1) → (∀ h ∈ hs, ∀ w, h.2 ≠ some (w, t)) → ¬ Live c' t since := by
  induction hpath with
  | nil => exact fun _ _ => hdead
  | @snoc _ _ hs now g _ hmove ih =>
    intro htimes hgrants
    have hdead' := ih (fun h hh => htimes h (List.mem_append_left _ hh))
      (fun h hh => hgrants h (List.mem_append_left _ hh))
    have hlast : (now, g) ∈ hs ++ [(now, g)] := by simp
    exact not_live_of_move hmove (htimes _ hlast) hdead' (hgrants _ hlast)

end Fencing
