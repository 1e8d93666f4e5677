import AgentStorm.Foundation.Machine
import AgentStorm.Worker.Recovery

/-!
# `Worker.Breaker` — the circuit breaker shared by the cases of a shard

`acquire` and `recordTerminal` under any interleaving: permits stay outstanding for as long as their
case takes, and are recorded at most once, in any order (`Session`).

`probeInFlight` stands for the outstanding probe as long as no late success of an ordinary permit
closes the breaker over its head (`single_probe`). `consecutiveFailures` is the number of provider
failures since the last reset whenever the breaker is closed; only the late failure of an old probe
opens it otherwise (`leaves_closed_iff`).
-/

namespace AgentStorm.Worker.Breaker

open Machine Machine.Transactional

/-! ## Sessions -/

/-- A call on the breaker. A record names its permit by the place among those outstanding. -/
inductive Call
  | acquire
  | record (place : Nat) (providerSucceeded : Bool) (failureCategory : Option FailureCategory)
  deriving DecidableEq

structure Event where
  now : ℚ
  call : Call

structure Session where
  breaker : CircuitBreaker
  /-- The permits handed out and not yet recorded, oldest first. -/
  outstanding : List CircuitPermit

def start : Session := ⟨.closed, []⟩

def Session.probes (s : Session) : Nat := s.outstanding.countP (·.probe)

/-- The answer is the events of the call. A refused permit changes nothing, and neither does a permit that is not there. -/
def machine (config : Option CircuitBreakerConfig) :
    Transactional Session Event (List CircuitEvent) (Option ExecutionError) where
  exec e s :=
    match e.call with
    | .acquire =>
      match acquire config e.now s.breaker with
      | (.ok permit, breaker) => .ok (permit.events, ⟨breaker, s.outstanding ++ [permit]⟩)
      | (.error error, _) => .error (some error)
    | .record place providerSucceeded failureCategory =>
      match s.outstanding[place]? with
      | none => .error none
      | some permit =>
        let (events, breaker) := recordTerminal config e.now permit providerSucceeded failureCategory s.breaker
        .ok (events, ⟨breaker, s.outstanding.eraseIdx place⟩)

/-- The clock does not go back. -/
def Ordered (es : List Event) : Prop := (es.map (·.now)).Pairwise (· ≤ ·)

instance (es : List Event) : Decidable (Ordered es) := inferInstanceAs (Decidable (List.Pairwise _ _))

/-! ## One call -/

/-- What recording a permit does to the breaker. -/
inductive Recorded (config : Option CircuitBreakerConfig) (permit : CircuitPermit) (providerSucceeded : Bool)
    (failureCategory : Option FailureCategory) (b : CircuitBreaker) : CircuitBreaker → Prop
  | unconfigured (hconfig : config = none) : Recorded config permit providerSucceeded failureCategory b b
  | probeSucceeded (hprobe : permit.probe = true) (hok : providerSucceeded = true) :
      Recorded config permit providerSucceeded failureCategory b
        { b with state := .closed, consecutiveFailures := 0, probeInFlight := false }
  | probeFailed (hprobe : permit.probe = true) (hok : providerSucceeded = false) (hconfig : config.isSome = true)
      (openUntil : ℚ) :
      Recorded config permit providerSucceeded failureCategory b { b with state := .opened, openUntil, probeInFlight := false }
  | kept (hprobe : permit.probe = false) (hok : providerSucceeded = true) (hstate : b.state = .closed) :
      Recorded config permit providerSucceeded failureCategory b { b with consecutiveFailures := 0 }
  | closed (hprobe : permit.probe = false) (hok : providerSucceeded = true) (hstate : b.state ≠ .closed) :
      Recorded config permit providerSucceeded failureCategory b
        { b with state := .closed, consecutiveFailures := 0, probeInFlight := false }
  | ignored (hprobe : permit.probe = false) (hok : providerSucceeded = false)
      (hother : failureCategory ≠ some .provider ∨ b.state = .halfOpen) :
      Recorded config permit providerSucceeded failureCategory b b
  | counted (c : CircuitBreakerConfig) (hconfig : config = some c) (hprobe : permit.probe = false)
      (hok : providerSucceeded = false) (hprovider : failureCategory = some .provider) (hstate : b.state = .closed)
      (hbelow : b.consecutiveFailures + 1 < c.failureThreshold) :
      Recorded config permit providerSucceeded failureCategory b
        { b with consecutiveFailures := b.consecutiveFailures + 1 }
  | tripped (c : CircuitBreakerConfig) (hconfig : config = some c) (hprobe : permit.probe = false)
      (hok : providerSucceeded = false) (hprovider : failureCategory = some .provider) (hstate : b.state = .closed)
      (hreached : c.failureThreshold ≤ b.consecutiveFailures + 1) (openUntil : ℚ) :
      Recorded config permit providerSucceeded failureCategory b
        { b with state := .opened, consecutiveFailures := b.consecutiveFailures + 1, openUntil }
  | extended (hprobe : permit.probe = false) (hok : providerSucceeded = false) (hstate : b.state = .opened)
      (openUntil : ℚ) : Recorded config permit providerSucceeded failureCategory b { b with openUntil }

theorem recorded (config : Option CircuitBreakerConfig) (now : ℚ) (permit : CircuitPermit) (providerSucceeded : Bool)
    (failureCategory : Option FailureCategory) (b : CircuitBreaker) :
    Recorded config permit providerSucceeded failureCategory b
      (recordTerminal config now permit providerSucceeded failureCategory b).2 := by
  cases config with
  | none => exact .unconfigured rfl
  | some c =>
    by_cases hprobe : permit.probe = true
    · cases providerSucceeded with
      | true =>
        simp only [recordTerminal, Circuit.recordTerminal, Option.map_some, hprobe, if_true]
        exact .probeSucceeded hprobe rfl
      | false =>
        simp only [recordTerminal, Circuit.recordTerminal, Option.map_some, hprobe, if_true, Bool.false_eq_true, if_false]
        split
        · exact .probeFailed hprobe rfl rfl _
        · exact .probeFailed hprobe rfl rfl _
    · rw [Bool.not_eq_true] at hprobe
      cases providerSucceeded with
      | true =>
        simp only [recordTerminal, Circuit.recordTerminal, Option.map_some, hprobe, if_true, Bool.false_eq_true, if_false]
        split
        · rename_i hstate
          exact .closed hprobe rfl hstate
        · rename_i hstate
          exact .kept hprobe rfl (not_not.mp hstate)
      | false =>
        simp only [recordTerminal, Circuit.recordTerminal, Option.map_some, hprobe, Bool.false_eq_true, if_false]
        split
        · rename_i hother
          exact .ignored hprobe rfl (Or.inl hother)
        · rename_i hprovider
          rw [not_not] at hprovider
          split
          · rename_i hstate
            split
            · rename_i hreached
              exact .tripped c rfl hprobe rfl hprovider hstate (Int.ofNat_le.mp hreached) _
            · rename_i hbelow
              exact .counted c rfl hprobe rfl hprovider hstate (Int.ofNat_lt.mp (not_le.mp hbelow))
          · rename_i hstate
            exact .extended hprobe rfl hstate _
          · rename_i hstate
            exact .ignored hprobe rfl (Or.inr hstate)

/-- What a call does. -/
inductive Change (config : Option CircuitBreakerConfig) (s : Session) (e : Event) : Session → Prop
  | refused (hcall : e.call = .acquire) : Change config s e s
  | granted (hcall : e.call = .acquire) : Change config s e ⟨s.breaker, s.outstanding ++ [⟨false, []⟩]⟩
  | probing (hcall : e.call = .acquire) (hconfig : config.isSome = true) (hstate : s.breaker.state = .opened)
      (hfree : s.breaker.probeInFlight = false) :
      Change config s e ⟨{ s.breaker with state := .halfOpen, probeInFlight := true },
        s.outstanding ++ [⟨true, [.halfOpen]⟩]⟩
  | absent {place : Nat} {providerSucceeded : Bool} {failureCategory : Option FailureCategory}
      (hcall : e.call = .record place providerSucceeded failureCategory) (hnone : s.outstanding[place]? = none) :
      Change config s e s
  | recorded {place : Nat} {providerSucceeded : Bool} {failureCategory : Option FailureCategory} {permit : CircuitPermit}
      {b : CircuitBreaker} (hcall : e.call = .record place providerSucceeded failureCategory)
      (hpermit : s.outstanding[place]? = some permit)
      (hrecorded : Recorded config permit providerSucceeded failureCategory s.breaker b) :
      Change config s e ⟨b, s.outstanding.eraseIdx place⟩

theorem change (config : Option CircuitBreakerConfig) (s : Session) (e : Event) :
    Change config s e ((machine config).step s e) := by
  cases hcall : e.call with
  | acquire =>
    simp only [Transactional.step, machine, hcall]
    cases config with
    | none => exact .granted hcall
    | some =>
      simp only [acquire, Circuit.acquire, Option.map_some]
      by_cases hclosed : s.breaker.state = .closed
      · simp only [hclosed, if_true]
        exact .granted hcall
      · by_cases hdue : s.breaker.state = .opened ∧ s.breaker.openUntil ≤ e.now ∧ s.breaker.probeInFlight = false
        · simp only [if_neg hclosed, if_pos hdue]
          exact .probing hcall rfl hdue.1 hdue.2.2
        · simp only [if_neg hclosed, if_neg hdue]
          exact .refused hcall
  | record place =>
    cases hpermit : s.outstanding[place]? with
    | none =>
      simp only [Transactional.step, machine, hcall, hpermit]
      exact .absent hcall hpermit
    | some =>
      simp only [Transactional.step, machine, hcall, hpermit]
      exact .recorded hcall hpermit (recorded _ _ _ _ _ _)

/-! ## One probe -/

variable {s : Session}

theorem probes_eraseIdx {place : Nat} {permit : CircuitPermit} (h : s.outstanding[place]? = some permit) :
    (s.outstanding.eraseIdx place).countP (·.probe) + (if permit.probe then 1 else 0) = s.probes := by
  obtain ⟨hlt, rfl⟩ := List.getElem?_eq_some_iff.mp h
  have hperm := (List.getElem_cons_eraseIdx_perm hlt).countP_eq (·.probe)
  rw [List.countP_cons] at hperm
  exact hperm

/-- A success is recorded for an ordinary permit while a probe is outstanding. -/
def Lapse (s : Session) (e : Event) : Prop :=
  match e.call with
  | .record place true _ => s.outstanding[place]?.map (·.probe) = some false ∧ 0 < s.probes
  | _ => False

/-- No step of the run is a lapse. -/
def Steady (config : Option CircuitBreakerConfig) : Session → List Event → Prop
  | _, [] => True
  | s, e :: es => ¬Lapse s e ∧ Steady config ((machine config).step s e) es

variable {e : Event}

theorem lapse_of_record {place : Nat} {failureCategory : Option FailureCategory} {permit : CircuitPermit}
    (hcall : e.call = .record place true failureCategory) (hpermit : s.outstanding[place]? = some permit)
    (hordinary : permit.probe = false) (hprobe : 0 < s.probes) : Lapse s e := by
  unfold Lapse
  rw [hcall]
  exact ⟨by rw [hpermit, Option.map_some, hordinary], hprobe⟩

theorem of_lapse (h : Lapse s e) :
    ∃ place failureCategory permit, e.call = .record place true failureCategory ∧
      s.outstanding[place]? = some permit ∧ permit.probe = false ∧ 0 < s.probes := by
  unfold Lapse at h
  split at h
  · rename_i place failureCategory hcall
    obtain ⟨permit, hpermit, hordinary⟩ := Option.map_eq_some_iff.mp h.1
    exact ⟨place, failureCategory, permit, hcall, hpermit, hordinary, h.2⟩
  · exact h.elim

/-- The flag stands for the outstanding probe, and a probe runs in the half-open state. -/
structure Tracked (config : Option CircuitBreakerConfig) (s : Session) : Prop where
  probes : s.probes = if s.breaker.probeInFlight then 1 else 0
  halfOpen : s.breaker.probeInFlight = true → s.breaker.state = .halfOpen
  configured : s.breaker.probeInFlight = true → config.isSome = true

section Tracked

variable {config : Option CircuitBreakerConfig} {s s' : Session} {e : Event}

theorem tracked_start (config : Option CircuitBreakerConfig) : Tracked config start := ⟨rfl, nofun, nofun⟩

theorem Tracked.free (h : Tracked config s) (hstate : s.breaker.state ≠ .halfOpen) : s.breaker.probeInFlight = false := by
  cases hflight : s.breaker.probeInFlight with
  | false => rfl
  | true => exact absurd (h.halfOpen hflight) hstate

theorem Tracked.probes_le (h : Tracked config s) : s.probes ≤ 1 := by
  rw [h.probes]
  split <;> decide

theorem Tracked.inFlight (h : Tracked config s) (hprobes : 0 < s.probes) : s.breaker.probeInFlight = true := by
  by_contra hflight
  rw [h.probes, if_neg hflight] at hprobes
  exact Nat.not_lt_zero 0 hprobes

/-- Recording an ordinary permit removes no probe; recording a probe removes the only one. -/
theorem Tracked.recorded {place : Nat} {ok : Bool} {category : Option FailureCategory} {permit : CircuitPermit}
    {b : CircuitBreaker} (h : Tracked config s) (hpermit : s.outstanding[place]? = some permit)
    (hlapse : ok = true → permit.probe = false → s.probes = 0)
    (hrecorded : Recorded config permit ok category s.breaker b) :
    Tracked config ⟨b, s.outstanding.eraseIdx place⟩ := by
  have hcount := probes_eraseIdx hpermit
  have hordinary : permit.probe = false → (s.outstanding.eraseIdx place).countP (·.probe) = s.probes := by
    intro hprobe
    rw [hprobe] at hcount
    exact hcount
  have hlast : permit.probe = true → (s.outstanding.eraseIdx place).countP (·.probe) = 0 := by
    intro hprobe
    rw [hprobe, if_pos rfl] at hcount
    have hle := h.probes_le
    omega
  cases hrecorded with
  | unconfigured hconfig =>
    have hnone : s.breaker.probeInFlight = false := by
      rw [← Bool.not_eq_true]
      intro hflight
      have hsome := h.configured hflight
      rw [hconfig] at hsome
      cases hsome
    have hprobes : s.probes = 0 := by rw [h.probes, hnone]; rfl
    refine ⟨?_, h.halfOpen, h.configured⟩
    rw [hnone]
    exact (Nat.add_eq_zero_iff.mp (hcount.trans hprobes)).1
  | probeSucceeded hprobe | probeFailed hprobe => exact ⟨hlast hprobe, nofun, nofun⟩
  | closed hprobe hok => exact ⟨(hordinary hprobe).trans (hlapse hok hprobe), nofun, nofun⟩
  | kept hprobe | ignored hprobe | extended hprobe | counted _ _ hprobe =>
    exact ⟨(hordinary hprobe).trans h.probes, h.halfOpen, h.configured⟩
  | tripped _ _ hprobe _ _ hstate =>
    refine ⟨(hordinary hprobe).trans h.probes, fun hflight => ?_, h.configured⟩
    rw [h.free (by rw [hstate]; decide)] at hflight
    cases hflight

theorem Tracked.change (h : Tracked config s) (hlapse : ¬Lapse s e) (hchange : Change config s e s') :
    Tracked config s' := by
  cases hchange with
  | refused | absent => exact h
  | granted =>
    refine ⟨?_, h.halfOpen, h.configured⟩
    rw [← h.probes]
    simp [Session.probes]
  | probing hcall hconfig hstate hfree =>
    have hprobes := h.probes
    rw [hfree] at hprobes
    refine ⟨?_, fun _ => rfl, fun _ => hconfig⟩
    simpa [Session.probes] using hprobes
  | recorded hcall hpermit hrecorded =>
    refine h.recorded hpermit (fun hok hordinary => ?_) hrecorded
    subst hok
    by_contra hprobes
    exact hlapse (lapse_of_record hcall hpermit hordinary (Nat.pos_of_ne_zero hprobes))

theorem tracked_run {es : List Event} (h : Tracked config s) (hes : Steady config s es) :
    Tracked config ((machine config).run s es) := by
  induction es generalizing s with
  | nil => exact h
  | cons e es ih => exact ih (h.change hes.1 (Breaker.change config s e)) hes.2

end Tracked

/-! ## From a lapse to a second probe -/

section SecondProbe

variable {c : CircuitBreakerConfig} {s : Session}

/-- One more provider failure at `now`: a permit is taken and its case fails at the provider. -/
def failure (now : ℚ) (s : Session) : List Event :=
  [⟨now, .acquire⟩, ⟨now, .record s.outstanding.length false (some .provider)⟩]

theorem run_failure (hstate : s.breaker.state = .closed) (now : ℚ) :
    (machine (some c)).run s (failure now s) =
      ⟨(recordTerminal (some c) now ⟨false, []⟩ false (some .provider) s.breaker).2, s.outstanding⟩ := by
  have hacquire : (machine (some c)).step s ⟨now, .acquire⟩ = ⟨s.breaker, s.outstanding ++ [⟨false, []⟩]⟩ := by
    simp [Transactional.step, machine, acquire, Circuit.acquire, hstate]
  have herase : (s.outstanding ++ [(⟨false, []⟩ : CircuitPermit)]).eraseIdx s.outstanding.length = s.outstanding := by
    rw [List.eraseIdx_append_of_length_le (Nat.le_refl _), Nat.sub_self]
    exact List.append_nil _
  show (machine (some c)).step ((machine (some c)).step s ⟨now, .acquire⟩) _ = _
  rw [hacquire]
  simp [Transactional.step, machine, herase]

/-- Enough failures in a row open a closed breaker. -/
theorem exists_opened (now : ℚ) {n : Nat} (hstate : s.breaker.state = .closed)
    (hn : s.breaker.consecutiveFailures + n + 1 = c.failureThreshold) :
    ∃ es : List Event, es.map (·.now) = List.replicate es.length now ∧
      (∀ e ∈ es, e.call = .acquire ∨ ∃ place, e.call = .record place false (some .provider)) ∧
      (machine (some c)).run s es =
        ⟨⟨.opened, c.failureThreshold, now + c.openDurationMS / 1000, s.breaker.probeInFlight⟩, s.outstanding⟩ := by
  have hcalls : ∀ s : Session, ∀ e ∈ failure now s,
      e.call = .acquire ∨ ∃ place, e.call = .record place false (some .provider) := by
    intro s e he
    simp only [failure, List.mem_cons, List.not_mem_nil, or_false] at he
    rcases he with rfl | rfl
    · exact .inl rfl
    · exact .inr ⟨_, rfl⟩
  induction n generalizing s with
  | zero =>
    refine ⟨failure now s, rfl, hcalls s, ?_⟩
    rw [run_failure hstate]
    simp only [recordTerminal, Circuit.recordTerminal, Option.map_some, hstate,
      CircuitBreakerConfig.numbers_threshold_le, CircuitBreakerConfig.numbers_duration, ← hn, le_refl,
      if_true, Bool.false_eq_true, if_false, ne_eq, not_true_eq_false, Nat.add_zero]
  | succ n ih =>
    have hbelow : ¬c.failureThreshold ≤ s.breaker.consecutiveFailures + 1 := by omega
    have hrun := run_failure (c := c) hstate now
    simp only [recordTerminal, Circuit.recordTerminal, Option.map_some, hstate,
      CircuitBreakerConfig.numbers_threshold_le, if_neg hbelow, Bool.false_eq_true, if_false, ne_eq,
      not_true_eq_false] at hrun
    obtain ⟨es, hnow, hes, hend⟩ := ih (s := (machine (some c)).run s (failure now s)) (by rw [hrun])
      (by rw [hrun]; show s.breaker.consecutiveFailures + 1 + n + 1 = _; omega)
    refine ⟨failure now s ++ es, ?_, fun e he => (List.mem_append.mp he).elim (hcalls s e) (hes e), ?_⟩
    · rw [List.map_append, hnow, List.length_append, List.replicate_add]
      rfl
    · rw [run_append, hend, hrun]

theorem steady_of_calls {config : Option CircuitBreakerConfig} {es : List Event}
    (hes : ∀ e ∈ es, e.call = .acquire ∨ ∃ place, e.call = .record place false (some .provider)) (s : Session) :
    Steady config s es := by
  induction es generalizing s with
  | nil => trivial
  | cons e es ih =>
    refine ⟨fun hlapse => ?_, ih (fun e' he' => hes e' (List.mem_cons_of_mem _ he')) _⟩
    obtain ⟨_, _, _, hcall, -⟩ := of_lapse hlapse
    rcases hes e List.mem_cons_self with hacquire | ⟨_, hfailed⟩
    · exact nomatch hacquire.symm.trans hcall
    · exact nomatch hfailed.symm.trans hcall

/-- A closed breaker that has lost sight of its probes hands out one more. -/
theorem exists_second_probe (now : ℚ) (hstate : s.breaker.state = .closed)
    (hfailures : s.breaker.consecutiveFailures = 0) (hfree : s.breaker.probeInFlight = false) :
    ∃ later : List Event, (later.map (·.now)).Pairwise (· ≤ ·) ∧ (∀ e ∈ later, now ≤ e.now) ∧
      Steady (some c) s later ∧ ((machine (some c)).run s later).probes = s.probes + 1 := by
  have hthreshold := c.threshold_pos
  obtain ⟨es, hnow, hes, hrun⟩ := exists_opened (c := c) now (n := c.failureThreshold - 1) hstate (by omega)
  have hdue : now ≤ now + (c.openDurationMS : ℚ) / 1000 := le_add_of_nonneg_right (by positivity)
  have hall : ∀ e ∈ es, e.now = now := fun e he =>
    List.eq_of_mem_replicate (hnow ▸ List.mem_map_of_mem (f := Event.now) he)
  refine ⟨es ++ [⟨now + c.openDurationMS / 1000, .acquire⟩], ?_, ?_, ?_, ?_⟩
  · rw [List.map_append, hnow, List.pairwise_append]
    refine ⟨List.pairwise_replicate.mpr (Or.inr le_rfl), List.pairwise_singleton _ _, ?_⟩
    intro a ha b hb
    rw [List.eq_of_mem_replicate ha, List.mem_singleton.mp hb]
    exact hdue
  · intro e he
    rcases List.mem_append.mp he with he | he
    · exact (hall e he).ge
    · rw [List.mem_singleton.mp he]
      exact hdue
  · refine steady_of_calls (fun e he => ?_) s
    rcases List.mem_append.mp he with he | he
    · exact hes e he
    · rw [List.mem_singleton.mp he]
      exact .inl rfl
  · rw [run_concat, hrun]
    simp [Transactional.step, machine, acquire, Circuit.acquire, hfree, Session.probes]

end SecondProbe

variable {config : Option CircuitBreakerConfig}

theorem tracked_of_steady {es : List Event} (hes : Steady config start es) :
    Tracked config ((machine config).run start es) :=
  tracked_run (tracked_start config) hes

/-- What a lapse leaves: a closed breaker that has lost sight of the probe. -/
theorem step_lapse (h : Tracked config s) (hlapse : Lapse s e) :
    config.isSome = true ∧ ((machine config).step s e).breaker.state = .closed ∧
    ((machine config).step s e).breaker.consecutiveFailures = 0 ∧
    ((machine config).step s e).breaker.probeInFlight = false ∧ ((machine config).step s e).probes = s.probes := by
  obtain ⟨_, _, _, hcall, hpermit, hordinary, hprobes⟩ := of_lapse hlapse
  have hflight := h.inFlight hprobes
  have hhalfOpen := h.halfOpen hflight
  obtain ⟨c, rfl⟩ := Option.isSome_iff_exists.mp (h.configured hflight)
  have hcount := probes_eraseIdx hpermit
  rw [hordinary] at hcount
  refine ⟨rfl, ?_⟩
  simp only [Transactional.step, machine, hcall, hpermit, recordTerminal, Circuit.recordTerminal, hordinary,
    hhalfOpen]
  exact ⟨rfl, rfl, rfl, hcount⟩

/-- **At most one probe.** In every run without a lapse at most one probe is outstanding, and so at every moment of it,
    as its beginnings are such runs. And no lapse can be allowed: after the first one the run can be continued, with no
    further lapse, until two probes are outstanding. -/
theorem single_probe (config : Option CircuitBreakerConfig) :
    (∀ es, Steady config start es → ((machine config).run start es).probes ≤ 1) ∧
    ∀ es e, Ordered (es ++ [e]) → Steady config start es → Lapse ((machine config).run start es) e →
      ∃ later, Ordered (es ++ e :: later) ∧ Steady config ((machine config).run start (es ++ [e])) later ∧
        1 < ((machine config).run start (es ++ e :: later)).probes := by
  refine ⟨fun es hes => (tracked_of_steady hes).probes_le, fun es e hordered hes hlapse => ?_⟩
  obtain ⟨-, -, -, -, -, -, hprobes⟩ := of_lapse hlapse
  obtain ⟨hconfig, hstate, hfailures, hfree, hkept⟩ := step_lapse (tracked_of_steady hes) hlapse
  obtain ⟨c, rfl⟩ := Option.isSome_iff_exists.mp hconfig
  rw [← run_concat] at hstate hfailures hfree hkept
  obtain ⟨later, hlater, hafter, hsteady, hsecond⟩ := exists_second_probe (c := c) e.now hstate hfailures hfree
  refine ⟨later, ?_, hsteady, ?_⟩
  · -- the clock of the continuation starts where the lapse was
    rw [Ordered, List.map_append, List.pairwise_append] at hordered ⊢
    obtain ⟨hes', -, hbefore⟩ := hordered
    have hbound : ∀ a ∈ es.map Event.now, a ≤ e.now := fun a ha => hbefore a ha e.now List.mem_cons_self
    have hrest : ∀ b ∈ later.map Event.now, e.now ≤ b := by
      intro b hb
      obtain ⟨e', he', rfl⟩ := List.mem_map.mp hb
      exact hafter e' he'
    refine ⟨hes', List.pairwise_cons.mpr ⟨hrest, hlater⟩, fun a ha b hb => ?_⟩
    rcases List.mem_cons.mp hb with rfl | hb
    · exact hbound a ha
    · exact (hbound a ha).trans (hrest b hb)
  · rw [List.append_cons, run_append, hsecond, hkept]
    omega

/-- A breaker that opens on the first failure, for one second. -/
def touchy : CircuitBreakerConfig := ⟨1, 1000, by decide, by decide⟩

/-- Two permits are out when the second one's failure opens the breaker; then the probe is handed out. -/
def untilProbe : List Event :=
  [⟨0, .acquire⟩, ⟨0, .acquire⟩, ⟨1, .record 1 false (some .provider)⟩, ⟨2, .acquire⟩]

/-- The first permit succeeds late and closes the breaker over the probe. -/
def lateSuccess : Event := ⟨3, .record 0 true none⟩

theorem single_probe_untilProbe :
    Steady (some touchy) start untilProbe ∧ ((machine (some touchy)).run start untilProbe).probes ≤ 1 := by
  have hsteady : Steady (some touchy) start untilProbe := by
    refine ⟨?_, ?_, ?_, ?_, trivial⟩
    all_goals exact id
  exact ⟨hsteady, (single_probe (some touchy)).1 untilProbe hsteady⟩

/-- The breaker opens again while the first probe is still running, and a second one starts. -/
theorem single_probe_late_success :
    Ordered (untilProbe ++ [lateSuccess, ⟨3, .acquire⟩, ⟨4, .record 1 false (some .provider)⟩, ⟨5, .acquire⟩]) ∧
    ((machine (some touchy)).run start
      (untilProbe ++ [lateSuccess, ⟨3, .acquire⟩, ⟨4, .record 1 false (some .provider)⟩, ⟨5, .acquire⟩])).probes = 2 := by
  decide +kernel

/-! ## Leaving closed -/

/-- What a step means for counting failures: the count starts again, or one is added. -/
inductive Mark
  | reset
  | failed
  deriving DecidableEq

/-- The count starts again when the breaker becomes closed and when a success is recorded. -/
def mark (config : Option CircuitBreakerConfig) (s : Session) (e : Event) : Option Mark :=
  if s.breaker.state ≠ .closed ∧ ((machine config).step s e).breaker.state = .closed then some .reset
  else
    match e.call with
    | .record place providerSucceeded failureCategory =>
      if s.outstanding[place]?.isNone then none
      else if providerSucceeded then some .reset
      else if failureCategory = some .provider then some .failed
      else none
    | .acquire => none

/-- The failures after the last reset. -/
def failuresSince (marks : List Mark) : Nat := (marks.reverse.takeWhile (· = .failed)).length

/-- The provider failures recorded since the breaker last became closed or last recorded a provider success. -/
def failures (config : Option CircuitBreakerConfig) (es : List Event) : Nat :=
  failuresSince ((machine config).trace (mark config) start es)

theorem failures_concat (config : Option CircuitBreakerConfig) (es : List Event) (e : Event) :
    failures config (es ++ [e]) =
      match mark config ((machine config).run start es) e with
      | some .reset => 0
      | some .failed => failures config es + 1
      | none => failures config es := by
  unfold failures failuresSince
  rw [trace_concat]
  split
  · rename_i hmark
    simp [hmark]
  · rename_i hmark
    simp [hmark]
  · rename_i hmark
    simp [hmark]

section Counting

variable {config : Option CircuitBreakerConfig} {s s' : Session} {e : Event} {place : Nat} {ok : Bool}
  {category : Option FailureCategory} {permit : CircuitPermit}

theorem mark_none (hsame : ((machine config).step s e).breaker = s.breaker)
    (hcall : ∀ place ok category, e.call = .record place ok category → s.outstanding[place]? = none) :
    mark config s e = none := by
  unfold mark
  rw [hsame, if_neg fun h => h.1 h.2]
  split
  · rename_i place ok category hrecord
    rw [hcall place ok category hrecord]
    rfl
  · rfl

theorem mark_success (hcall : e.call = .record place true category) (hpermit : s.outstanding[place]? = some permit) :
    mark config s e = some .reset := by
  unfold mark
  split
  · rfl
  · simp [hcall, hpermit]

theorem mark_failure (hcall : e.call = .record place false category) (hpermit : s.outstanding[place]? = some permit)
    (hclosed : s.breaker.state = .closed) :
    mark config s e = if category = some .provider then some .failed else none := by
  unfold mark
  rw [if_neg fun h => h.1 hclosed]
  simp [hcall, hpermit]

/-- While a configured breaker is closed its counter is exact, and below the threshold. -/
def Exact (config : Option CircuitBreakerConfig) (n : Nat) (b : CircuitBreaker) : Prop :=
  b.state = .closed → ∀ c ∈ config, b.consecutiveFailures = n ∧ n < c.failureThreshold

theorem exact_zero {b : CircuitBreaker} (h : b.consecutiveFailures = 0) : Exact config 0 b :=
  fun _ c _ => ⟨h, c.threshold_pos⟩

theorem Exact.opened {n : Nat} {b : CircuitBreaker} (h : b.state ≠ .closed) : Exact config n b :=
  fun hclosed => absurd hclosed h

theorem exact_concat {es : List Event} (h : Exact config (failures config es) ((machine config).run start es).breaker) :
    Exact config (failures config (es ++ [e])) ((machine config).step ((machine config).run start es) e).breaker := by
  rw [failures_concat]
  have hchange := change config ((machine config).run start es) e
  have hsame := @mark_none config ((machine config).run start es) e
  generalize (machine config).run start es = s at h hchange hsame ⊢
  generalize (machine config).step s e = s' at hchange hsame ⊢
  cases hchange with
  | refused hcall | granted hcall =>
    rw [hsame rfl fun place ok category hrecord => nomatch hcall.symm.trans hrecord]
    exact h
  | absent hcall hnone =>
    rw [hsame rfl fun place ok category hrecord => (Call.record.inj (hcall.symm.trans hrecord)).1 ▸ hnone]
    exact h
  | probing => exact Exact.opened nofun
  -- the count is only claimed while the breaker is closed, so a step that ends elsewhere has nothing to show
  | recorded hcall hpermit hrecorded =>
    cases hrecorded with
    | unconfigured hconfig =>
      rintro - c hc
      rw [hconfig] at hc
      cases hc
    | probeSucceeded _ hok | kept _ hok | closed _ hok =>
      subst hok
      rw [mark_success hcall hpermit]
      exact exact_zero rfl
    | probeFailed | tripped => exact Exact.opened nofun
    | extended _ _ hstate => exact Exact.opened fun hclosed => nomatch hstate.symm.trans hclosed
    | ignored _ hok hother =>
      -- closed, so it was ignored for its category and neither side counts it
      subst hok
      intro hclosed
      have hcategory := hother.resolve_right fun hhalf => nomatch hhalf.symm.trans hclosed
      rw [mark_failure hcall hpermit hclosed, if_neg hcategory]
      exact h hclosed
    | counted c hconfig _ hok hprovider hstate hbelow =>
      subst hok
      rintro - c' hc'
      cases hconfig.symm.trans hc'
      rw [mark_failure hcall hpermit hstate, if_pos hprovider]
      obtain ⟨hcount, -⟩ := h hstate c hconfig
      exact ⟨congrArg (· + 1) hcount, hcount ▸ hbelow⟩

theorem exact_run (config : Option CircuitBreakerConfig) (es : List Event) :
    Exact config (failures config es) ((machine config).run start es).breaker := by
  induction es using List.reverseRecOn with
  | nil => exact exact_zero rfl
  | append_singleton es e ih =>
    rw [run_concat]
    exact exact_concat ih

end Counting

theorem opened_of_failed_probe {c : CircuitBreakerConfig} {place : Nat}
    {category : Option FailureCategory} {permit : CircuitPermit} (hc : c ∈ config)
    (hcall : e.call = .record place false category) (hpermit : s.outstanding[place]? = some permit)
    (hprobe : permit.probe = true) : ((machine config).step s e).breaker.state = .opened := by
  obtain rfl : config = some c := hc
  simp only [Transactional.step, machine, hcall, hpermit, recordTerminal, Circuit.recordTerminal, Option.map_some,
    hprobe, if_true, Bool.false_eq_true, if_false]
  split <;> rfl

/-- The step `e` after the run `es` opens a closed breaker on the threshold only. -/
def LeavesOnThreshold (config : Option CircuitBreakerConfig) (es : List Event) (e : Event) : Prop :=
  ((machine config).run start es).breaker.state = .closed →
  ((machine config).run start (es ++ [e])).breaker.state = .opened →
  (∃ place permit, e.call = .record place false (some .provider) ∧
    ((machine config).run start es).outstanding[place]? = some permit) ∧
  ∃ c ∈ config, failures config (es ++ [e]) = c.failureThreshold

/-- A probe is recorded as failed while the breaker is closed, other than as the failure that reaches the threshold. -/
def StaleProbe (config : Option CircuitBreakerConfig) (s : Session) (e : Event) : Prop :=
  ∃ place category permit, e.call = .record place false category ∧ s.outstanding[place]? = some permit ∧
    permit.probe = true ∧ s.breaker.state = .closed ∧
    ∃ c ∈ config, ¬(category = some .provider ∧ s.breaker.consecutiveFailures + 1 = c.failureThreshold)

/-- **When a closed breaker opens.** After every run, the next step leaves the closed state on the threshold only, exactly
    if it does not record the failure of an old probe. -/
theorem leaves_closed_iff (config : Option CircuitBreakerConfig) (es : List Event) (e : Event) :
    LeavesOnThreshold config es e ↔ ¬StaleProbe config ((machine config).run start es) e := by
  have hexact := exact_run config es
  -- a provider failure recorded while closed is counted
  have hfailed : ∀ {place permit}, e.call = .record place false (some .provider) →
      ((machine config).run start es).outstanding[place]? = some permit →
      ((machine config).run start es).breaker.state = .closed → failures config (es ++ [e]) = failures config es + 1 := by
    intro place permit hcall hpermit hclosed
    rw [failures_concat, mark_failure hcall hpermit hclosed, if_pos rfl]
  constructor
  · -- a probe that is still out opens a closed breaker when it fails, whatever the count is
    rintro hleaves ⟨place, category, permit, hcall, hpermit, hprobe, hclosed, c, hc, hother⟩
    have hopened : ((machine config).run start (es ++ [e])).breaker.state = .opened := by
      rw [run_concat]
      exact opened_of_failed_probe hc hcall hpermit hprobe
    obtain ⟨⟨place', permit', hcall', -⟩, c', hc', hcount⟩ := hleaves hclosed hopened
    cases hc.symm.trans hc'
    obtain ⟨rfl, -, rfl⟩ := Call.record.inj (hcall.symm.trans hcall')
    rw [hfailed hcall hpermit hclosed, ← (hexact hclosed c hc).1] at hcount
    exact hother ⟨rfl, hcount⟩
  · -- only a failed probe and the failure that reaches the threshold open a breaker
    intro hstale hclosed hopened
    rw [run_concat] at hopened
    have hchange := change config ((machine config).run start es) e
    generalize (machine config).run start es = s at *
    generalize (machine config).step s e = s' at hchange hopened
    cases hchange with
    | refused | granted | absent => exact nomatch hclosed.symm.trans hopened
    | probing => cases hopened
    | @recorded place ok category permit b hcall hpermit hrecorded =>
      cases hrecorded with
      | unconfigured | ignored | extended | counted => exact nomatch hclosed.symm.trans hopened
      | probeSucceeded | closed => cases hopened
      | kept => exact nomatch hclosed.symm.trans hopened
      | probeFailed hprobe hok hconfig =>
        subst hok
        obtain ⟨c, hc⟩ := Option.isSome_iff_exists.mp hconfig
        have hthreshold : category = some .provider ∧ s.breaker.consecutiveFailures + 1 = c.failureThreshold := by
          by_contra hother
          exact hstale ⟨place, category, permit, hcall, hpermit, hprobe, hclosed, c, hc, hother⟩
        obtain ⟨rfl, hcount⟩ := hthreshold
        refine ⟨⟨place, permit, hcall, hpermit⟩, c, hc, ?_⟩
        rw [hfailed hcall hpermit hclosed, ← (hexact hclosed c hc).1, hcount]
      | tripped c hc _ hok hprovider =>
        subst hok hprovider
        obtain ⟨hcount, hbelow⟩ := hexact hclosed c hc
        refine ⟨⟨place, permit, hcall, hpermit⟩, c, hc, ?_⟩
        rw [hfailed hcall hpermit hclosed]
        omega

/-- The old probe fails in a tool after the late success has closed the breaker. -/
theorem leaves_closed_old_probe :
    Ordered (untilProbe ++ [lateSuccess, ⟨4, .record 0 false (some .tool)⟩]) ∧
    ((machine (some touchy)).run start (untilProbe ++ [lateSuccess])).breaker.state = .closed ∧
    ((machine (some touchy)).run start (untilProbe ++ [lateSuccess, ⟨4, .record 0 false (some .tool)⟩])).breaker.state =
      .opened ∧
    ¬LeavesOnThreshold (some touchy) (untilProbe ++ [lateSuccess]) ⟨4, .record 0 false (some .tool)⟩ := by
  have hclosed : ((machine (some touchy)).run start (untilProbe ++ [lateSuccess])).breaker.state = .closed := by
    decide +kernel
  have hopened : ((machine (some touchy)).run start
      (untilProbe ++ [lateSuccess] ++ [⟨4, .record 0 false (some .tool)⟩])).breaker.state = .opened := by
    decide +kernel
  refine ⟨by decide +kernel, hclosed, hopened, fun hleaves => ?_⟩
  obtain ⟨⟨_, _, hcall, -⟩, -⟩ := hleaves hclosed hopened
  cases hcall

end AgentStorm.Worker.Breaker
