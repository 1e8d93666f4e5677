import AgentStorm.Foundation.Machine
import Mathlib.Data.List.Perm.Basic
import Mathlib.Data.List.Nodup
import Mathlib.Data.List.Range
import Mathlib.Algebra.GroupWithZero.Nat

/-!
# `Foundation.Pool` — tasks that share an index into a list of work

A fixed number of tasks take items off a list by advancing a shared index under a lock, work on them
outside the lock and append what they got to a shared list. A stop flag ends the tasks at their next
look at it, and they may be cancelled where they are. An interleaving is a list of events; one that is
not possible in a state has no effect there.

`Accounted` is the invariant: the indices handed out are those with a result, those being worked on and
those that were lost, each once. Without stop and errors nothing is lost (`Settled`).
-/

namespace Pool

open Machine Machine.Transactional

variable {α ω ρ : Type}

/-- Where a task stands: at the loop head, before the lock, working on an item, or over. -/
inductive Task
  | looping
  | locking
  | running (index : Nat)
  | ended
  | failed
  deriving DecidableEq

namespace Task

def index? : Task → Option Nat
  | .running index => some index
  | _ => none

def finished : Task → Bool
  | .ended => true
  | .failed => true
  | _ => false

end Task

structure State (ρ : Type) where
  tasks : List Task
  next : Nat
  stopped : Bool
  /-- The results in the order they came, each with the index of its item. -/
  results : List (Nat × ρ)

/-- `ω` is what the outside contributes to the result of an item. -/
inductive Event (ω : Type)
  | enter (task : Nat)
  | take (task : Nat)
  | finish (task : Nat) (world : ω)
  | fail (task : Nat)
  | stop
  | cancel (task : Nat)

namespace State

def set (s : State ρ) (task : Nat) (t : Task) : State ρ := { s with tasks := s.tasks.set task t }

/-- The loop head: `while not stop.is_set()`. -/
def enter (s : State ρ) (task : Nat) : State ρ := s.set task (if s.stopped then .ended else .locking)

/-- The critical section: look at the flag again, then take the next item if there is one. -/
def take (length : Nat) (s : State ρ) (task : Nat) : State ρ :=
  if s.stopped ∨ length ≤ s.next then s.set task .ended
  else { s.set task (.running s.next) with next := s.next + 1 }

def finish (s : State ρ) (task index : Nat) (result : ρ) : State ρ :=
  { s.set task .looping with results := s.results ++ [(index, result)] }

end State

/-- `perform` is what working on an item yields, if it yields anything. -/
def exec (work : List α) (perform : α → ω → Option ρ) (e : Event ω) (s : State ρ) : Option (State ρ) :=
  match e with
  | .enter task =>
    match s.tasks[task]? with
    | some .looping => some (s.enter task)
    | _ => none
  | .take task =>
    match s.tasks[task]? with
    | some .locking => some (s.take work.length task)
    | _ => none
  | .finish task world =>
    match s.tasks[task]? with
    | some (.running index) => (work[index]?.bind (perform · world)).map (s.finish task index)
    | _ => none
  | .fail task =>
    match s.tasks[task]? with
    | some (.running _) => some (s.set task .failed)
    | _ => none
  | .stop => if s.stopped then none else some { s with stopped := true }
  | .cancel task =>
    match s.tasks[task]? with
    | some t => if s.stopped && !t.finished then some (s.set task .ended) else none
    | none => none

def machine (work : List α) (perform : α → ω → Option ρ) : Transactional (State ρ) (Event ω) Unit Unit where
  exec e s :=
    match exec work perform e s with
    | some s' => .ok ((), s')
    | none => .error ()

def start (tasks : Nat) : State ρ := ⟨List.replicate tasks .looping, 0, false, []⟩

/-- Nothing but the tasks' own steps: no stop, no cancellation, no error. -/
def Event.undisturbed : Event ω → Bool
  | .enter _ => true
  | .take _ => true
  | .finish _ _ => true
  | _ => false

/-! ## One event -/

/-- What an event does: one task moves on, or the flag is set. -/
inductive Move (work : List α) (perform : α → ω → Option ρ) (e : Event ω) (s : State ρ) : State ρ → Prop
  | enter (task : Nat) (he : e = .enter task) (htask : s.tasks[task]? = some .looping) :
      Move work perform e s (s.enter task)
  | take (task : Nat) (he : e = .take task) (htask : s.tasks[task]? = some .locking) :
      Move work perform e s (s.take work.length task)
  | finish (task index : Nat) (world : ω) (a : α) (result : ρ) (he : e = .finish task world)
      (htask : s.tasks[task]? = some (.running index)) (ha : work[index]? = some a)
      (hresult : perform a world = some result) : Move work perform e s (s.finish task index result)
  | fail (task index : Nat) (he : e = .fail task) (htask : s.tasks[task]? = some (.running index)) :
      Move work perform e s (s.set task .failed)
  | stop (he : e = .stop) (hstopped : s.stopped = false) : Move work perform e s { s with stopped := true }
  | cancel (task : Nat) (t : Task) (he : e = .cancel task) (htask : s.tasks[task]? = some t) (hfinished : t.finished = false)
      (hstopped : s.stopped = true) : Move work perform e s (s.set task .ended)

theorem move_of_exec {work : List α} {perform : α → ω → Option ρ} {e : Event ω} {s s' : State ρ}
    (h : exec work perform e s = some s') : Move work perform e s s' := by
  unfold exec at h
  split at h
  · rename_i task
    split at h
    · rename_i htask
      exact (Option.some.inj h) ▸ .enter task rfl htask
    · cases h
  · rename_i task
    split at h
    · rename_i htask
      exact (Option.some.inj h) ▸ .take task rfl htask
    · cases h
  · rename_i task world
    split at h
    · rename_i index htask
      obtain ⟨result, hresult, rfl⟩ := Option.map_eq_some_iff.mp h
      obtain ⟨a, ha, hresult⟩ := Option.bind_eq_some_iff.mp hresult
      exact .finish task index world a result rfl htask ha hresult
    · cases h
  · rename_i task
    split at h
    · rename_i index htask
      exact (Option.some.inj h) ▸ .fail task index rfl htask
    · cases h
  · split at h
    · cases h
    · rename_i hstopped
      exact (Option.some.inj h) ▸ .stop rfl (Bool.not_eq_true _ ▸ hstopped)
  · rename_i task
    split at h
    · rename_i t htask
      split at h
      · rename_i hcond
        simp only [Bool.and_eq_true, Bool.not_eq_true'] at hcond
        exact (Option.some.inj h) ▸ .cancel task t rfl htask hcond.2 hcond.1
      · cases h
    · cases h

theorem step_cases (work : List α) (perform : α → ω → Option ρ) (s : State ρ) (e : Event ω) :
    (machine work perform).step s e = s ∨ Move work perform e s ((machine work perform).step s e) := by
  cases h : exec work perform e s with
  | none =>
    left
    simp [Transactional.step, machine, h]
  | some s' =>
    right
    have hstep : (machine work perform).step s e = s' := by simp [Transactional.step, machine, h]
    rw [hstep]
    exact move_of_exec h

/-! ## What is handed out -/

variable {t : Task}

theorem set_split {tasks : List Task} {i : Nat} (h : tasks[i]? = some t) :
    ∃ before after, tasks = before ++ t :: after ∧ ∀ t', tasks.set i t' = before ++ t' :: after := by
  obtain ⟨hi, rfl⟩ := List.getElem?_eq_some_iff.mp h
  refine ⟨tasks.take i, tasks.drop (i + 1), ?_, fun t' => ?_⟩
  · rw [← List.drop_eq_getElem_cons hi, List.take_append_drop]
  · rw [List.set_eq_take_append_cons_drop, if_pos hi]

/-- The indices that have a result or are being worked on. -/
def State.handed (s : State ρ) : List Nat := s.results.map Prod.fst ++ s.tasks.filterMap Task.index?

/-- The part of the handed indices that does not depend on one task. -/
theorem handed_set {s : State ρ} {task : Nat} (h : s.tasks[task]? = some t) :
    ∃ rest, s.handed.Perm (t.index?.toList ++ rest) ∧ ∀ t', (s.set task t').handed.Perm (t'.index?.toList ++ rest) := by
  obtain ⟨before, after, htasks, hset⟩ := set_split h
  have hperm : ∀ t' : Task, (s.results.map Prod.fst ++ (before ++ t' :: after).filterMap Task.index?).Perm
      (t'.index?.toList ++ (s.results.map Prod.fst ++ (before.filterMap Task.index? ++ after.filterMap Task.index?))) := by
    intro t'
    cases hindex : t'.index? with
    | none => simp [List.filterMap_append, hindex]
    | some =>
      simp only [List.filterMap_append, List.filterMap_cons, hindex, Option.toList_some, List.singleton_append]
      refine (List.Perm.append_left _ List.perm_middle).trans ?_
      exact List.perm_middle
  refine ⟨s.results.map Prod.fst ++ (before.filterMap Task.index? ++ after.filterMap Task.index?), ?_, fun t' => ?_⟩
  · unfold State.handed
    rw [htasks]
    exact hperm t
  · unfold State.handed State.set
    rw [hset t']
    exact hperm t'

/-- An event keeps what is handed out, hands out the next index, or loses one. -/
inductive Handing (length : Nat) (e : Event ω) (s s' : State ρ) : Prop
  | kept (hnext : s'.next = s.next) (hperm : s'.handed.Perm s.handed)
  | next (hnext : s'.next = s.next + 1) (hlt : s.next < length) (hperm : s'.handed.Perm (s.next :: s.handed))
  | lost (index : Nat) (hnext : s'.next = s.next) (hperm : s.handed.Perm (index :: s'.handed))
      (hdisturbed : e.undisturbed = false)

variable {work : List α} {perform : α → ω → Option ρ} {e : Event ω} {s s' : State ρ}

theorem Move.handing (h : Move work perform e s s') : Handing work.length e s s' := by
  cases h with
  | enter task he htask =>
    obtain ⟨rest, hold, hnew⟩ := handed_set htask
    refine .kept rfl ((hnew _).trans (?_ : List.Perm _ _))
    split
    · exact hold.symm
    · exact hold.symm
  | take task he htask =>
    obtain ⟨rest, hold, hnew⟩ := handed_set htask
    unfold State.take
    split
    · exact .kept rfl ((hnew .ended).trans hold.symm)
    · rename_i hcond
      rw [not_or, not_le] at hcond
      exact .next rfl hcond.2 ((hnew (.running s.next)).trans (List.Perm.cons _ hold.symm))
  | finish task index _ _ result _ htask =>
    obtain ⟨rest, hold, hnew⟩ := handed_set htask
    refine .kept rfl ?_
    have hmoved : (s.finish task index result).handed.Perm (index :: (s.set task .looping).handed) := by
      simp only [State.handed, State.finish, State.set, List.map_append, List.map_singleton, List.append_assoc,
        List.singleton_append]
      exact List.perm_middle
    exact hmoved.trans ((List.Perm.cons _ (hnew .looping)).trans hold.symm)
  | fail task index he htask =>
    obtain ⟨rest, hold, hnew⟩ := handed_set htask
    exact .lost index rfl (hold.trans (List.Perm.cons _ (hnew .failed).symm)) (he ▸ rfl)
  | stop => exact .kept rfl (List.Perm.refl _)
  | cancel _ t he htask =>
    obtain ⟨_, hold, hnew⟩ := handed_set htask
    cases hindex : t.index? with
    | none =>
      rw [hindex] at hold
      exact .kept rfl ((hnew .ended).trans hold.symm)
    | some index =>
      rw [hindex] at hold
      exact .lost index rfl (hold.trans (List.Perm.cons _ (hnew .ended).symm)) (he ▸ rfl)

/-- What holds of a pool whatever happens to it. -/
structure Accounted (work : List α) (perform : α → ω → Option ρ) (tasks : Nat) (s : State ρ) : Prop where
  length : s.tasks.length = tasks
  next_le : s.next ≤ work.length
  handed : s.handed.Nodup
  handed_lt : ∀ index ∈ s.handed, index < s.next
  results : ∀ r ∈ s.results, ∃ a world, work[r.1]? = some a ∧ perform a world = some r.2

theorem accounted_start (work : List α) (perform : α → ω → Option ρ) (tasks : Nat) :
    Accounted work perform tasks (start tasks) := by
  have hnone : (List.replicate tasks Task.looping).filterMap Task.index? = [] :=
    List.filterMap_eq_nil_iff.mpr fun t ht => by rw [List.eq_of_mem_replicate ht]; rfl
  have hhanded : (start tasks : State ρ).handed = [] := hnone
  refine ⟨List.length_replicate, Nat.zero_le _, ?_, ?_, fun _ hr => absurd hr List.not_mem_nil⟩
  · rw [hhanded]
    exact List.nodup_nil
  · rw [hhanded]
    exact List.forall_mem_nil _

theorem Move.length_eq (h : Move work perform e s s') : s'.tasks.length = s.tasks.length := by
  cases h with
  | enter | finish | fail | cancel => exact List.length_set
  | stop => rfl
  | take =>
    unfold State.take
    split
    · exact List.length_set
    · exact List.length_set

theorem Move.results_back (h : Move work perform e s s') {r : Nat × ρ} (hr : r ∈ s'.results) :
    r ∈ s.results ∨ ∃ a world, work[r.1]? = some a ∧ perform a world = some r.2 := by
  cases h with
  | enter | fail | stop | cancel => exact .inl hr
  | take =>
    unfold State.take at hr
    split at hr
    · exact .inl hr
    · exact .inl hr
  | finish _ _ world a _ _ _ ha hresult =>
    rcases List.mem_append.mp hr with hr | hr
    · exact .inl hr
    · rw [List.mem_singleton.mp hr]
      exact .inr ⟨a, world, ha, hresult⟩

theorem Accounted.move {tasks : Nat} (h : Accounted work perform tasks s) (hmove : Move work perform e s s') :
    Accounted work perform tasks s' := by
  have hresults : ∀ r ∈ s'.results, ∃ a world, work[r.1]? = some a ∧ perform a world = some r.2 :=
    fun r hr => (hmove.results_back hr).elim (h.results r) id
  have hlength := hmove.length_eq.trans h.length
  cases hmove.handing with
  | kept hnext hperm =>
    refine ⟨hlength, hnext ▸ h.next_le, hperm.nodup_iff.mpr h.handed, fun index hindex => ?_, hresults⟩
    rw [hnext]
    exact h.handed_lt index (hperm.mem_iff.mp hindex)
  | next hnext hlt hperm =>
    refine ⟨hlength, by omega, hperm.nodup_iff.mpr (List.nodup_cons.mpr ⟨?_, h.handed⟩), fun index hindex => ?_, hresults⟩
    · exact fun hmem => Nat.lt_irrefl _ (h.handed_lt _ hmem)
    · rw [hnext]
      rcases List.mem_cons.mp (hperm.mem_iff.mp hindex) with rfl | hold
      · exact Nat.lt_succ_self _
      · exact Nat.lt_succ_of_lt (h.handed_lt index hold)
  | lost index hnext hperm =>
    refine ⟨hlength, hnext ▸ h.next_le, (List.nodup_cons.mp (hperm.nodup_iff.mp h.handed)).2, fun other hother => ?_,
      hresults⟩
    rw [hnext]
    exact h.handed_lt other (hperm.mem_iff.mpr (List.mem_cons_of_mem _ hother))

theorem accounted_run (work : List α) (perform : α → ω → Option ρ) (tasks : Nat) (es : List (Event ω)) :
    Accounted work perform tasks ((machine work perform).run (start tasks) es) := by
  refine run_invariant (M := machine work perform) (fun _ => True) (Accounted work perform tasks) ?_
    (accounted_start work perform tasks) es fun _ _ => trivial
  intro s e _ h
  rcases step_cases work perform s e with heq | hmove
  · rw [heq]
    exact h
  · exact h.move hmove

/-! ## Without stop and errors -/

/-- What holds of a pool that is left alone. -/
structure Settled (length : Nat) (s : State ρ) : Prop where
  running : s.stopped = false
  handed : s.handed.Perm (List.range s.next)
  /-- No task fails, and none ends before the list is exhausted. -/
  tasks : ∀ t ∈ s.tasks, t ≠ .failed ∧ (t = .ended → length ≤ s.next)

theorem settled_start (length tasks : Nat) : Settled length (start tasks : State ρ) := by
  have hnone : (List.replicate tasks Task.looping).filterMap Task.index? = [] :=
    List.filterMap_eq_nil_iff.mpr fun t ht => by rw [List.eq_of_mem_replicate ht]; rfl
  refine ⟨rfl, ?_, fun t ht => ?_⟩
  · show (List.filterMap Task.index? _).Perm _
    rw [start, hnone]
    exact List.Perm.refl _
  · rw [List.eq_of_mem_replicate ht]
    exact ⟨nofun, nofun⟩

theorem Settled.move (h : Settled work.length s) (hmove : Move work perform e s s') (he : e.undisturbed = true) :
    Settled work.length s' := by
  have hhanded : s'.handed.Perm (List.range s'.next) := by
    cases hmove.handing with
    | kept hnext hperm =>
      rw [hnext]
      exact hperm.trans h.handed
    | next hnext hlt hperm =>
      rw [hnext, List.range_succ]
      exact hperm.trans ((List.Perm.cons _ h.handed).trans (List.perm_append_singleton _ _).symm)
    | lost index hnext hperm hdisturbed =>
      rw [he] at hdisturbed
      cases hdisturbed
  cases hmove with
  | enter =>
    refine ⟨h.running, hhanded, fun t ht => ?_⟩
    rcases List.mem_or_eq_of_mem_set ht with hold | rfl
    · exact h.tasks t hold
    · rw [if_neg (by rw [h.running]; exact Bool.false_ne_true)]
      exact ⟨nofun, nofun⟩
  | take =>
    unfold State.take at hhanded ⊢
    split
    · rename_i hcond
      -- the flag is down, so the list is exhausted
      have hlength : work.length ≤ s.next := hcond.resolve_left (by rw [h.running]; exact Bool.false_ne_true)
      rw [if_pos hcond] at hhanded
      refine ⟨h.running, hhanded, fun t ht => ?_⟩
      rcases List.mem_or_eq_of_mem_set ht with hold | rfl
      · exact h.tasks t hold
      · exact ⟨nofun, fun _ => hlength⟩
    · rename_i hcond
      rw [if_neg hcond] at hhanded
      refine ⟨h.running, hhanded, fun t ht => ?_⟩
      rcases List.mem_or_eq_of_mem_set ht with hold | rfl
      · exact ⟨(h.tasks t hold).1, fun hended => le_trans ((h.tasks t hold).2 hended) (Nat.le_succ _)⟩
      · exact ⟨nofun, nofun⟩
  | finish =>
    refine ⟨h.running, hhanded, fun t ht => ?_⟩
    rcases List.mem_or_eq_of_mem_set ht with hold | rfl
    · exact h.tasks t hold
    · exact ⟨nofun, nofun⟩
  | fail task index heq | stop heq | cancel task t heq =>
    rw [heq] at he
    cases he

theorem settled_run (work : List α) (perform : α → ω → Option ρ) (tasks : Nat) (es : List (Event ω))
    (hes : ∀ e ∈ es, e.undisturbed = true) :
    Settled work.length ((machine work perform).run (start tasks) es) := by
  refine run_invariant (M := machine work perform) (fun e => e.undisturbed = true) (Settled work.length) ?_
    (settled_start work.length tasks) es hes
  intro s e he h
  rcases step_cases work perform s e with heq | hmove
  · rw [heq]
    exact h
  · exact h.move hmove he

/-- **Exactly once.** When all tasks of an undisturbed pool are over, every item has one result. -/
theorem Settled.complete {tasks : Nat} (h : Settled work.length s) (hacc : Accounted work perform tasks s)
    (htasks : work ≠ [] → 0 < tasks) (hfinished : ∀ t ∈ s.tasks, t.finished = true) :
    (s.results.map Prod.fst).Perm (List.range work.length) := by
  have hended : ∀ t ∈ s.tasks, t = .ended := by
    intro t ht
    have hnot := (h.tasks t ht).1
    have hdone := hfinished t ht
    cases t with
    | ended => rfl
    | failed => exact absurd rfl hnot
    | looping | locking | running => cases hdone
  have hbusy : s.tasks.filterMap Task.index? = [] :=
    List.filterMap_eq_nil_iff.mpr fun t ht => by rw [hended t ht]; rfl
  have hnext : s.next = work.length := by
    refine le_antisymm hacc.next_le ?_
    by_cases hwork : work = []
    · rw [hwork]
      exact Nat.zero_le _
    · have hpos : 0 < s.tasks.length := hacc.length ▸ htasks hwork
      obtain ⟨t, ht⟩ := List.exists_mem_of_length_pos hpos
      exact (h.tasks t ht).2 (hended t ht)
  have hhanded := h.handed
  rw [State.handed, hbusy, List.append_nil, hnext] at hhanded
  exact hhanded

/-! ## The results in terms of the work list -/

section Keys

variable {κ : Type} {itemKey : α → κ} {key : ρ → κ}

/-- A result that can be told from its item lists the item of its index. -/
theorem Accounted.map_results {tasks : Nat} (h : Accounted work perform tasks s)
    (hkey : ∀ a world r, perform a world = some r → key r = itemKey a) :
    s.results.map (fun r => key r.2) = (s.results.map Prod.fst).filterMap fun index => (work.map itemKey)[index]? := by
  have hresults := h.results
  generalize s.results = results at hresults ⊢
  induction results with
  | nil => rfl
  | cons r results ih =>
    obtain ⟨a, world, ha, hr⟩ := hresults r List.mem_cons_self
    have hget : (work.map itemKey)[r.1]? = some (key r.2) := by
      rw [List.getElem?_map, ha, hkey a world r.2 hr]
      rfl
    rw [List.map_cons, List.map_cons, List.filterMap_cons, hget, ih fun r' hr' => hresults r' (List.mem_cons_of_mem _ hr')]

/-- **Each item at most once**, and only items that were taken. -/
theorem Accounted.at_most_once {tasks : Nat} (h : Accounted work perform tasks s)
    (hkey : ∀ a world r, perform a world = some r → key r = itemKey a) (hwork : (work.map itemKey).Nodup) :
    (s.results.map fun r => key r.2).Nodup ∧
    ∀ r ∈ s.results, key r.2 ∈ (work.take s.next).map itemKey := by
  refine ⟨?_, fun r hr => ?_⟩
  · rw [h.map_results hkey]
    refine List.Nodup.filterMap (fun i j k hi hj => ?_) (List.nodup_append.mp h.handed).1
    have hlt : i < (work.map itemKey).length := (List.getElem?_eq_some_iff.mp hi).1
    exact (List.getElem?_inj hlt hwork).mp (hi.trans hj.symm)
  · obtain ⟨a, world, ha, hresult⟩ := h.results r hr
    have hlt : r.1 < s.next :=
      h.handed_lt r.1 (List.mem_append_left _ (List.mem_map_of_mem hr))
    rw [hkey a world r.2 hresult]
    refine List.mem_map_of_mem (List.mem_of_getElem? (i := r.1) ?_)
    rw [List.getElem?_take_of_lt hlt, ha]

theorem filterMap_range_getElem? {β : Type} (l : List β) : (List.range l.length).filterMap (l[·]?) = l := by
  induction l using List.reverseRecOn with
  | nil => rfl
  | append_singleton l b ih =>
    rw [List.length_append, List.length_singleton, List.range_succ, List.filterMap_append]
    have hfront : (List.range l.length).filterMap ((l ++ [b])[·]?) = (List.range l.length).filterMap (l[·]?) :=
      List.filterMap_congr fun i hi => List.getElem?_append_left (List.mem_range.mp hi)
    rw [hfront, ih]
    simp

/-- **Each item exactly once**, when a pool that was left alone is over. -/
theorem Settled.exactly_once {tasks : Nat} (h : Settled work.length s) (hacc : Accounted work perform tasks s)
    (htasks : work ≠ [] → 0 < tasks) (hfinished : ∀ t ∈ s.tasks, t.finished = true)
    (hkey : ∀ a world r, perform a world = some r → key r = itemKey a) :
    (s.results.map fun r => key r.2).Perm (work.map itemKey) := by
  have hcomplete := h.complete hacc htasks hfinished
  rw [← List.length_map itemKey] at hcomplete
  rw [hacc.map_results hkey]
  exact (hcomplete.filterMap _).trans (List.Perm.of_eq (filterMap_range_getElem? _))

end Keys

/-! ## Progress -/

def Task.weight : Task → Nat
  | .looping => 2
  | .locking => 1
  | .running _ => 3
  | .ended => 0
  | .failed => 0

/-- How many steps a pool that is left alone may still take. -/
def State.left (length : Nat) (s : State ρ) : Nat := 3 * (length - s.next) + (s.tasks.map Task.weight).sum

theorem sum_weight_set {tasks : List Task} {i : Nat} (h : tasks[i]? = some t) (t' : Task) :
    ((tasks.set i t').map Task.weight).sum + t.weight = (tasks.map Task.weight).sum + t'.weight := by
  obtain ⟨_, _, htasks, hset⟩ := set_split h
  rw [hset t', htasks]
  simp only [List.map_append, List.map_cons, List.sum_append, List.sum_cons]
  omega

theorem Move.left_lt (h : Move work perform e s s') (he : e.undisturbed = true) :
    s'.left work.length < s.left work.length := by
  cases h with
  | enter task _ htask =>
    have hsum := sum_weight_set htask (if s.stopped then .ended else .locking)
    have hweight : (if s.stopped then Task.ended else Task.locking).weight ≤ 1 := by split <;> decide
    have hlooping : Task.looping.weight = 2 := rfl
    simp only [State.left, State.enter, State.set] at hsum ⊢
    omega
  | take task _ htask =>
    unfold State.take
    split
    · have hsum := sum_weight_set htask .ended
      simp only [State.left, State.set, Task.weight] at hsum ⊢
      omega
    · rename_i hcond
      have hsum := sum_weight_set htask (.running s.next)
      simp only [State.left, State.set, Task.weight] at hsum ⊢
      omega
  | finish _ _ _ _ _ _ htask =>
    have hsum := sum_weight_set htask .looping
    simp only [State.left, State.finish, State.set, Task.weight] at hsum ⊢
    omega
  | fail task index heq | stop heq | cancel task t heq =>
    rw [heq] at he
    cases he

theorem Move.stopped (h : Move work perform e s s') (hs : s.stopped = true) : s'.stopped = true := by
  cases h with
  | enter | finish | fail | cancel => exact hs
  | stop => rfl
  | take =>
    unfold State.take
    split
    · exact hs
    · exact hs

theorem stopped_run (es : List (Event ω)) (hs : s.stopped = true) : ((machine work perform).run s es).stopped = true := by
  refine run_invariant (M := machine work perform) (fun _ => True) (fun s => s.stopped = true) ?_ hs es
    fun _ _ => trivial
  intro s e _ h
  rcases step_cases work perform s e with heq | hmove
  · rw [heq]
    exact h
  · exact hmove.stopped h

/-- A task that is not over can move, given that its item can be performed. -/
theorem exists_move {tasks : Nat} (hacc : Accounted work perform tasks s)
    (hperform : ∀ a ∈ work, ∃ world, (perform a world).isSome = true) (ht : t ∈ s.tasks)
    (hfinished : t.finished = false) :
    ∃ e : Event ω, e.undisturbed = true ∧ Move work perform e s ((machine work perform).step s e) := by
  obtain ⟨i, hi⟩ := List.mem_iff_getElem?.mp ht
  have hstep : ∀ (e : Event ω) (s₁ : State ρ), exec work perform e s = some s₁ →
      Move work perform e s ((machine work perform).step s e) := by
    intro e s₁ hexec
    have hstep : (machine work perform).step s e = s₁ := by simp [Transactional.step, machine, hexec]
    rw [hstep]
    exact move_of_exec hexec
  cases t with
  | looping => exact ⟨.enter i, rfl, hstep _ (s.enter i) (by simp [exec, hi])⟩
  | locking => exact ⟨.take i, rfl, hstep _ (s.take work.length i) (by simp [exec, hi])⟩
  | running index =>
    have hbusy : index ∈ s.handed :=
      List.mem_append_right _ (List.mem_filterMap.mpr ⟨.running index, ht, rfl⟩)
    have hlt : index < work.length := lt_of_lt_of_le (hacc.handed_lt index hbusy) hacc.next_le
    obtain ⟨world, hworld⟩ := hperform work[index] (List.getElem_mem hlt)
    obtain ⟨result, hresult⟩ := Option.isSome_iff_exists.mp hworld
    exact ⟨.finish i world, rfl, hstep _ (s.finish i index result)
      (by simp [exec, hi, List.getElem?_eq_getElem hlt, hresult])⟩
  | ended | failed => cases hfinished

/-- **The pool finishes.** From any state it can run on, left alone, until all tasks are over. -/
theorem exists_finished {tasks : Nat} (hperform : ∀ a ∈ work, ∃ world, (perform a world).isSome = true)
    (s : State ρ) (hacc : Accounted work perform tasks s) :
    ∃ es : List (Event ω), (∀ e ∈ es, e.undisturbed = true) ∧
      ∀ t ∈ ((machine work perform).run s es).tasks, t.finished = true := by
  induction hn : s.left work.length using Nat.strong_induction_on generalizing s with
  | h n ih =>
    by_cases hall : ∀ t ∈ s.tasks, t.finished = true
    · exact ⟨[], fun _ he => absurd he List.not_mem_nil, hall⟩
    · simp only [not_forall, Bool.not_eq_true] at hall
      obtain ⟨t, ht, hfinished⟩ := hall
      obtain ⟨e, he, hmove⟩ := exists_move hacc hperform ht hfinished
      obtain ⟨es, hes, hend⟩ := ih _ (hn ▸ hmove.left_lt he) _ (hacc.move hmove) rfl
      refine ⟨e :: es, ?_, hend⟩
      intro e' he'
      rcases List.mem_cons.mp he' with rfl | he'
      · exact he
      · exact hes e' he'

end Pool
