import AgentStorm.Worker.Breaker

/-!
# `Worker.Circuit` — the breaker under arbitrary calls

`Worker.Breaker` follows the permits of a session. The class itself asks for less: here every call is
allowed at every time, with any permit, and the two numbers of the configuration are any integers.
`Coupled` says that the flag stands for the half-open state, and that a closed breaker is below its
threshold; every call keeps it. The breaker of a session goes through such a run (`breaker_run`).
-/

namespace AgentStorm.Worker.Circuit

open Machine Machine.Transactional

/-! ## Calls -/

/-- A call, with whatever permit. -/
inductive Call
  | acquire
  | record (permit : CircuitPermit) (providerSucceeded : Bool) (failureCategory : Option FailureCategory)

structure Event where
  now : ℚ
  call : Call

inductive Answer
  | admitted (permit : CircuitPermit)
  | rejected (error : ExecutionError)
  | recorded (events : List CircuitEvent)

/-- A call that raises has an answer too: the fields are what it leaves them. -/
def machine (config : CircuitBreakerConfig) : Transactional CircuitBreaker Event Answer Empty where
  exec e b :=
    match e.call with
    | .acquire =>
      match acquire (some config) e.now b with
      | (.ok permit, b') => .ok (.admitted permit, b')
      | (.error error, b') => .ok (.rejected error, b')
    | .record permit providerSucceeded failureCategory =>
      let (events, b') := recordTerminal (some config) e.now permit providerSucceeded failureCategory b
      .ok (.recorded events, b')

variable {config : CircuitBreakerConfig} {b : CircuitBreaker}

theorem step_eq (config : CircuitBreakerConfig) (b : CircuitBreaker) (e : Event) :
    (machine config).step b e =
      match e.call with
      | .acquire => (acquire (some config) e.now b).2
      | .record permit ok category => (recordTerminal (some config) e.now permit ok category b).2 := by
  cases hcall : e.call with
  | acquire =>
    cases hacquire : acquire (some config) e.now b with
    | mk answer => cases answer <;> simp [Transactional.step, machine, hcall, hacquire]
  | record => simp [Transactional.step, machine, hcall]

/-! ## One call -/

/-- What the fields of a breaker have to do with each other. -/
structure Coupled (config : CircuitBreakerConfig) (b : CircuitBreaker) : Prop where
  halfOpen_iff : b.state = .halfOpen ↔ b.probeInFlight = true
  below : b.state = .closed → (b.consecutiveFailures : Int) < config.failureThreshold

theorem Coupled.free (h : Coupled config b) (hstate : b.state ≠ .halfOpen) : b.probeInFlight = false := by
  rw [← Bool.not_eq_true]
  exact fun hflight => hstate (h.halfOpen_iff.mpr hflight)

/-- An open breaker has nothing to show but that no probe is running. -/
theorem coupled_opened (hstate : b.state = .opened) (hfree : b.probeInFlight = false) : Coupled config b := by
  refine ⟨?_, fun hclosed => nomatch hstate.symm.trans hclosed⟩
  rw [hstate, hfree]
  exact ⟨nofun, nofun⟩

theorem coupled_closed (hstate : b.state = .closed) (hfree : b.probeInFlight = false)
    (hbelow : (b.consecutiveFailures : Int) < config.failureThreshold) : Coupled config b := by
  refine ⟨?_, fun _ => hbelow⟩
  rw [hstate, hfree]
  exact ⟨nofun, nofun⟩

theorem Coupled.acquire (h : Coupled config b) (now : ℚ) : Coupled config (acquire (some config) now b).2 := by
  unfold Circuit.acquire
  dsimp only
  split
  · exact h
  · split
    · exact ⟨⟨fun _ => rfl, fun _ => rfl⟩, nofun⟩
    · exact h

theorem Coupled.recordTerminal (h : Coupled config b) (hthreshold : 1 ≤ config.failureThreshold) (now : ℚ)
    (permit : CircuitPermit) (ok : Bool) (category : Option FailureCategory) :
    Coupled config (recordTerminal (some config) now permit ok category b).2 := by
  have hzero : ((0 : Nat) : Int) < config.failureThreshold := by omega
  unfold Circuit.recordTerminal
  dsimp only
  split
  · -- a probe ends: the flag is cleared, whatever the state was
    split
    · exact coupled_closed rfl rfl hzero
    · split
      · exact coupled_opened rfl rfl
      · exact coupled_opened rfl rfl
  · split
    · split
      · exact coupled_closed rfl rfl hzero
      · rename_i hstate
        exact coupled_closed (not_not.mp hstate) (h.free fun hhalf => hstate fun hc => nomatch hc.symm.trans hhalf) hzero
    · split
      · exact h
      · -- a provider failure: counted while closed, put off while open, ignored while a probe runs
        split
        · rename_i hstate
          have hfree := h.free fun hhalf => nomatch hstate.symm.trans hhalf
          split
          · exact coupled_opened rfl hfree
          · rename_i hbelow
            exact coupled_closed hstate hfree (not_le.mp hbelow)
        · rename_i hstate
          exact coupled_opened hstate (h.free fun hhalf => nomatch hstate.symm.trans hhalf)
        · exact h

theorem Coupled.step (h : Coupled config b) (hthreshold : 1 ≤ config.failureThreshold) (e : Event) :
    Coupled config ((machine config).step b e) := by
  rw [step_eq]
  cases e.call with
  | acquire => exact h.acquire e.now
  | record permit ok category => exact h.recordTerminal hthreshold e.now permit ok category

/-! ## Every run -/

theorem coupled_run (hthreshold : 1 ≤ config.failureThreshold) (es : List Event) :
    Coupled config ((machine config).run .closed es) := by
  have hstart : Coupled config .closed := coupled_closed rfl rfl (by show (0 : Int) < _; omega)
  exact run_invariant (fun _ => True) (Coupled config) (fun b e _ h => h.step hthreshold e) hstart es
    fun _ _ => trivial

/-- **Representation invariant.** After every sequence of calls, with late, stale and repeated permits and whatever clock,
    the breaker is half-open exactly while its flag is set, and below its threshold while it is closed. In the half-open
    state, and before `openUntil` in the open one, `acquire` raises `circuit_open` and changes no field; once `openUntil` is
    reached it admits a probe. -/
theorem breaker_invariant (config : CircuitBreakerConfig) (hthreshold : 1 ≤ config.failureThreshold) (es : List Event) :
    let b := (machine config).run .closed es
    (b.state = .halfOpen ↔ b.probeInFlight = true) ∧
    (b.state = .closed → (b.consecutiveFailures : Int) < config.failureThreshold) ∧
    (∀ now, b.state = .halfOpen ∨ b.state = .opened ∧ now < b.openUntil →
      acquire (some config) now b = (.error circuitOpenError, b)) ∧
    ∀ now, b.state = .opened → b.openUntil ≤ now →
      ∃ permit b', acquire (some config) now b = (.ok permit, b') ∧ permit.probe = true := by
  intro b
  have hcoupled : Coupled config b := coupled_run hthreshold es
  refine ⟨hcoupled.halfOpen_iff, hcoupled.below, fun now hnot => ?_, fun now hopened hdue => ?_⟩
  · have hclosed : b.state ≠ .closed := by
      intro hclosed
      rcases hnot with hhalf | ⟨hopened, -⟩
      · exact nomatch hclosed.symm.trans hhalf
      · exact nomatch hclosed.symm.trans hopened
    have hdue : ¬(b.state = .opened ∧ b.openUntil ≤ now ∧ b.probeInFlight = false) := by
      rintro ⟨hopened, hdue, -⟩
      rcases hnot with hhalf | ⟨-, hearly⟩
      · exact nomatch hopened.symm.trans hhalf
      · exact not_lt_of_ge hdue hearly
    exact (if_neg hclosed).trans (if_neg hdue)
  · -- no probe is running in the open state, so nothing stands in the way of the next one
    have hfree := hcoupled.free fun hhalf => nomatch hopened.symm.trans hhalf
    have hclosed : b.state ≠ .closed := fun hclosed => nomatch hclosed.symm.trans hopened
    exact ⟨_, _, (if_neg hclosed).trans (if_pos ⟨hopened, hdue, hfree⟩), rfl⟩

/-- A breaker that opens on the first failure; its probe is recorded twice, and the second time it is stale. -/
def staleProbe : List Event :=
  [⟨0, .record ⟨false, []⟩ false (some .provider)⟩, ⟨2, .acquire⟩, ⟨3, .record ⟨true, [.halfOpen]⟩ true none⟩,
    ⟨4, .record ⟨true, [.halfOpen]⟩ false (some .provider)⟩]

theorem breaker_invariant_stale_probe :
    ((machine ⟨1, 1000⟩).run .closed staleProbe).state = .opened ∧
    ((machine ⟨1, 1000⟩).run .closed staleProbe).openUntil = 5 ∧
    ((machine ⟨1, 1000⟩).run .closed staleProbe).probeInFlight = false ∧
    ∃ permit b', acquire (some ⟨1, 1000⟩) 5 ((machine ⟨1, 1000⟩).run .closed staleProbe) = (.ok permit, b') ∧
      permit.probe = true := by
  have hstate : ((machine ⟨1, 1000⟩).run .closed staleProbe).state = .opened := by decide +kernel
  have huntil : ((machine ⟨1, 1000⟩).run .closed staleProbe).openUntil = 5 := by decide +kernel
  obtain ⟨hhalf, -, -, hadmits⟩ := breaker_invariant ⟨1, 1000⟩ (by decide) staleProbe
  refine ⟨hstate, huntil, ?_, hadmits 5 hstate huntil.le⟩
  rw [← Bool.not_eq_true, ← hhalf, hstate]
  decide

/-! ## Sessions -/

/-- A call of a session is a call of the class, or one that leaves the breaker alone. -/
theorem breaker_step (config : Worker.CircuitBreakerConfig) (s : Breaker.Session) (e : Breaker.Event) :
    ∃ calls : List Event, ((Breaker.machine (some config)).step s e).breaker =
      (machine config.numbers).run s.breaker calls := by
  cases hcall : e.call with
  | acquire =>
    refine ⟨[⟨e.now, .acquire⟩], ?_⟩
    show _ = (machine config.numbers).step s.breaker ⟨e.now, .acquire⟩
    rw [step_eq]
    simp only [Transactional.step, Breaker.machine, hcall, Worker.acquire, Circuit.acquire, Option.map_some]
    -- a refused call changes neither the session nor the breaker
    by_cases hclosed : s.breaker.state = .closed
    · simp [if_pos hclosed]
    · by_cases hdue : s.breaker.state = .opened ∧ s.breaker.openUntil ≤ e.now ∧ s.breaker.probeInFlight = false
      · simp [if_neg hclosed, if_pos hdue]
      · simp [if_neg hclosed, if_neg hdue]
  | record place ok category =>
    cases hpermit : s.outstanding[place]? with
    | none =>
      refine ⟨[], ?_⟩
      simp only [Transactional.step, Breaker.machine, hcall, hpermit]
      rfl
    | some permit =>
      refine ⟨[⟨e.now, .record permit ok category⟩], ?_⟩
      simp only [Transactional.step, Breaker.machine, hcall, hpermit]
      rfl

/-- **The breaker of a session goes through a run of calls.** -/
theorem breaker_run (config : Worker.CircuitBreakerConfig) (es : List Breaker.Event) :
    ∃ calls : List Event, ((Breaker.machine (some config)).run Breaker.start es).breaker =
      (machine config.numbers).run .closed calls := by
  induction es using List.reverseRecOn with
  | nil => exact ⟨[], rfl⟩
  | append_singleton es e ih =>
    obtain ⟨calls, hcalls⟩ := ih
    obtain ⟨more, hmore⟩ := breaker_step config ((Breaker.machine (some config)).run Breaker.start es) e
    refine ⟨calls ++ more, ?_⟩
    rw [run_concat, hmore, hcalls, run_append]

/-- The invariant, for the permits of a session. -/
theorem coupled_session (config : Worker.CircuitBreakerConfig) (es : List Breaker.Event) :
    Coupled config.numbers ((Breaker.machine (some config)).run Breaker.start es).breaker := by
  obtain ⟨calls, hcalls⟩ := breaker_run config es
  rw [hcalls]
  exact coupled_run (Int.ofNat_le.mpr config.threshold_pos) calls

end AgentStorm.Worker.Circuit
