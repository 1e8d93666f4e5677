import Mathlib.Data.List.Induction

/-!
# `Foundation.Machine` — transactional state machines and their runs

A transactional machine executes one event at a time; an event either commits, with an answer and a new
state, or fails and rolls back. Interleavings of concurrent clients are event lists. `run_induction`
packages the induction of every safety proof; what is admissible is a property of the whole past, so
clocks that never go back and tokens that are never reused are stated there.
-/

namespace Machine

/-- A machine over states `σ` and events `ε`, with answers `α` and failures `χ`. -/
structure Transactional (σ ε α χ : Type) where
  exec : ε → σ → Except χ (α × σ)

namespace Transactional

variable {σ ε α χ : Type} (M : Transactional σ ε α χ)

/-- The state after an event; a failed event leaves no trace. -/
def step (s : σ) (e : ε) : σ :=
  match M.exec e s with
  | .ok (_, s') => s'
  | .error _ => s

/-- What the client of an event sees. -/
def answer (s : σ) (e : ε) : Except χ α := (M.exec e s).map Prod.fst

/-- The state after a list of events. -/
def run (s : σ) (es : List ε) : σ := es.foldl M.step s

/-- Every event of a run with its answer, oldest first. -/
def log : σ → List ε → List (ε × Except χ α)
  | _, [] => []
  | s, e :: es => (e, M.answer s e) :: log (M.step s e) es

/-- What `f` sees along a run, oldest first. -/
def trace {β : Type} (f : σ → ε → Option β) : σ → List ε → List β
  | _, [] => []
  | s, e :: es => (f s e).toList ++ trace f (M.step s e) es

variable {M}

variable {s : σ}

variable {e : ε}

theorem step_ok {s' : σ} {a : α} (h : M.exec e s = .ok (a, s')) : M.step s e = s' := by
  simp [step, h]

theorem step_error {c : χ} (h : M.exec e s = .error c) : M.step s e = s := by
  simp [step, h]

theorem answer_ok_iff {a : α} : M.answer s e = .ok a ↔ ∃ s', M.exec e s = .ok (a, s') := by
  unfold answer
  cases h : M.exec e s with
  | error => simp [Except.map]
  | ok r =>
    obtain ⟨b, s'⟩ := r
    simp [Except.map]

/-- A step either rolls back or commits the state its answer came with. -/
theorem step_cases (s : σ) (e : ε) :
    M.step s e = s ∨ ∃ a s', M.exec e s = .ok (a, s') ∧ M.step s e = s' := by
  cases h : M.exec e s with
  | error => exact .inl (step_error h)
  | ok r => exact .inr ⟨r.1, r.2, rfl, step_ok h⟩

@[simp] theorem run_nil (s : σ) : M.run s [] = s := rfl

@[simp] theorem run_cons (s : σ) (e : ε) (es : List ε) : M.run s (e :: es) = M.run (M.step s e) es := rfl

theorem run_append (s : σ) (es fs : List ε) : M.run s (es ++ fs) = M.run (M.run s es) fs :=
  List.foldl_append

theorem run_concat (s : σ) (es : List ε) (e : ε) :
    M.run s (es ++ [e]) = M.step (M.run s es) e := by
  rw [run_append]; rfl

theorem answer_ok {s' : σ} {a : α} (h : M.exec e s = .ok (a, s')) : M.answer s e = .ok a :=
  answer_ok_iff.mpr ⟨s', h⟩

theorem answer_error {c : χ} (h : M.exec e s = .error c) : M.answer s e = .error c := by
  simp [answer, h, Except.map]

theorem log_append (s : σ) (es fs : List ε) :
    M.log s (es ++ fs) = M.log s es ++ M.log (M.run s es) fs := by
  induction es generalizing s with
  | nil => rfl
  | cons e es ih => simp only [List.cons_append, log, ih, run_cons]

theorem log_concat (s : σ) (es : List ε) (e : ε) :
    M.log s (es ++ [e]) = M.log s es ++ [(e, M.answer (M.run s es) e)] := by
  rw [log_append]; rfl

theorem trace_concat {β : Type} (f : σ → ε → Option β) (s : σ) (es : List ε) (e : ε) :
    M.trace f s (es ++ [e]) = M.trace f s es ++ (f (M.run s es) e).toList := by
  induction es generalizing s with
  | nil => simp [trace]
  | cons e' es ih => simp only [List.cons_append, trace, ih, run_cons, List.append_assoc]

theorem mem_of_log {es : List ε} {entry : ε × Except χ α} (h : entry ∈ M.log s es) : entry.1 ∈ es := by
  induction es generalizing s with
  | nil => exact absurd h List.not_mem_nil
  | cons e es ih =>
    rcases List.mem_cons.mp h with rfl | h
    · exact List.mem_cons_self
    · exact List.mem_cons_of_mem _ (ih h)

/-- **Run induction.** `Ok` must be closed under dropping the last event. -/
theorem run_induction {s₀ : σ} (Ok : List ε → Prop) (Inv : List ε → σ → Prop)
    (hdrop : ∀ es e, Ok (es ++ [e]) → Ok es) (hinit : Inv [] s₀)
    (hstep : ∀ es e, Ok (es ++ [e]) → Inv es (M.run s₀ es) →
      Inv (es ++ [e]) (M.step (M.run s₀ es) e)) :
    ∀ es, Ok es → Inv es (M.run s₀ es) := by
  intro es
  induction es using List.reverseRecOn with
  | nil => intro _; exact hinit
  | append_singleton es e ih =>
    intro hok
    rw [run_concat]
    exact hstep es e hok (ih (hdrop es e hok))

/-- Run induction for a property of the state alone, over events that satisfy `Ok`. -/
theorem run_invariant (Ok : ε → Prop) (Inv : σ → Prop) (hstep : ∀ s e, Ok e → Inv s → Inv (M.step s e))
    (hs : Inv s) : ∀ es : List ε, (∀ e ∈ es, Ok e) → Inv (M.run s es) := by
  intro es
  induction es generalizing s with
  | nil => intro _; exact hs
  | cons e es ih =>
    intro hok
    exact ih (hstep s e (hok e List.mem_cons_self) hs) fun f hf => hok f (List.mem_cons_of_mem _ hf)

variable {Inv : σ → Prop}

/-- A relation between states that every step respects relates the ends of a run. -/
theorem run_relates (Ok : ε → Prop) {R : σ → σ → Prop} (hrefl : ∀ s, R s s)
    (htrans : ∀ {s t u}, R s t → R t u → R s u) (hinv : ∀ s e, Ok e → Inv s → Inv (M.step s e))
    (hstep : ∀ s e, Ok e → Inv s → R s (M.step s e)) (hs : Inv s) :
    ∀ es : List ε, (∀ e ∈ es, Ok e) → R s (M.run s es) := by
  intro es
  induction es generalizing s with
  | nil => intro _; exact hrefl s
  | cons e es ih =>
    intro hok
    have he := hok e List.mem_cons_self
    exact htrans (hstep s e he hs)
      (ih (hinv s e he hs) fun f hf => hok f (List.mem_cons_of_mem _ hf))

/-- **First times.** What `f` sees is absent before the event and present after it, and stays present; then nothing is
    seen twice along a run. -/
theorem trace_nodup {β : Type} {f : σ → ε → Option β} {Present : σ → β → Prop}
    (hinv : ∀ s e, Inv s → Inv (M.step s e))
    (hstays : ∀ s e b, Inv s → Present s b → Present (M.step s e) b)
    (hfirst : ∀ s e b, Inv s → f s e = some b → ¬Present s b ∧ Present (M.step s e) b) (hs : Inv s) :
    ∀ es : List ε, (M.trace f s es).Nodup ∧ ∀ b ∈ M.trace f s es, ¬Present s b := by
  intro es
  induction es generalizing s with
  | nil => exact ⟨List.nodup_nil, fun b hb => absurd hb List.not_mem_nil⟩
  | cons e es ih =>
    obtain ⟨hnodup, habsent⟩ := ih (hinv s e hs)
    have hlater : ∀ b ∈ M.trace f (M.step s e) es, ¬Present s b :=
      fun b hb hpresent => habsent b hb (hstays s e b hs hpresent)
    cases hf : f s e with
    | none => simpa only [trace, hf, Option.toList_none, List.nil_append] using ⟨hnodup, hlater⟩
    | some b =>
      obtain ⟨hbefore, hafter⟩ := hfirst s e b hs hf
      simp only [trace, hf, Option.toList_some, List.singleton_append, List.nodup_cons, List.forall_mem_cons]
      exact ⟨⟨fun hb => habsent b hb hafter, hnodup⟩, hbefore, hlater⟩

/-- What `f` sees is present after the event and stays present, so it is present at the end of a run. -/
theorem mem_trace_present {β : Type} {f : σ → ε → Option β} {Present : σ → β → Prop}
    (hinv : ∀ s e, Inv s → Inv (M.step s e))
    (hstays : ∀ s e b, Inv s → Present s b → Present (M.step s e) b)
    (hafter : ∀ s e b, Inv s → f s e = some b → Present (M.step s e) b) (hs : Inv s) :
    ∀ es : List ε, ∀ b ∈ M.trace f s es, Present (M.run s es) b := by
  have hkeeps : ∀ (es : List ε) {s : σ} {b : β}, Inv s → Present s b → Present (M.run s es) b := by
    intro es
    induction es with
    | nil => exact fun _ h => h
    | cons e es ih => exact fun hs h => ih (hinv _ e hs) (hstays _ e _ hs h)
  intro es
  induction es generalizing s with
  | nil => exact fun b hb => absurd hb List.not_mem_nil
  | cons e es ih =>
    intro b hb
    rcases List.mem_append.mp hb with hnow | hlater
    · exact hkeeps es (hinv s e hs) (hafter s e b hs (Option.mem_toList.mp hnow))
    · exact ih (hinv s e hs) b hlater

end Transactional

end Machine
