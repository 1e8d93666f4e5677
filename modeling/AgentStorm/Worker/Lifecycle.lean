import AgentStorm.Foundation.Dict
import AgentStorm.Foundation.Handles
import AgentStorm.Foundation.Machine
import AgentStorm.Worker.Runner

/-!
# `Worker.Lifecycle` — the tool spans of an attempt

`_CaseLifecycle` of `runner.py` keeps a detached span for each tool that is running, and ends what is
left when the attempt is over. The events are the adapter's, so an id may be started twice, finished
without a start, or used again. A span belongs to whoever holds it: the dictionary `tools`, or the
method that has just taken it out (`Balanced`).
-/

namespace AgentStorm.Worker.Lifecycle

open Machine

/-! ## Spans -/

/-- A detached span and what was done to it. -/
structure DetachedSpan where
  name : String
  attributes : List (String × String)
  errors : List String := []
  /-- How often `end` was called. -/
  ends : Nat := 0
  deriving DecidableEq, Repr

namespace DetachedSpan

def setAttribute (name value : String) (span : DetachedSpan) : DetachedSpan :=
  { span with attributes := Dict.set name value span.attributes }

def setError (errorType : String) (span : DetachedSpan) : DetachedSpan :=
  { span with errors := span.errors ++ [errorType] }

def endSpan (span : DetachedSpan) : DetachedSpan := { span with ends := span.ends + 1 }

def isTool (span : DetachedSpan) : Bool := decide (span.name = "gen_ai.execute_tool")

/-- The name of the tool a span is about. -/
def toolName (span : DetachedSpan) : Option String := span.attributes.lookup "gen_ai.tool.name"

end DetachedSpan

/-! ## Events -/

section Events

-- arguments and results are whatever the adapter passes on
variable {α : Type}

structure ToolLifecycleEvent (α : Type) where
  invocationID : String
  name : String
  toolType : String := "function"
  callID : Option String := none
  agentName : Option String := none
  arguments : Option α := none
  result : Option α := none

structure HandoffLifecycleEvent where
  sourceAgent : String
  targetAgent : String

inductive Event (α : Type)
  | toolStarted (event : ToolLifecycleEvent α)
  | toolFinished (event : ToolLifecycleEvent α) (errorType : String)
  | handedOff (event : HandoffLifecycleEvent)

/-- `ContentSanitizer.content` of a value, if there is a sanitizer and a value. -/
def sanitized (sanitizer : Option (α → Option String)) (value : Option α) : Option String :=
  sanitizer.bind fun content => value.bind content

def toolAttributes (sanitizer : Option (α → Option String)) (event : ToolLifecycleEvent α) : List (String × String) :=
  [("gen_ai.operation.name", "execute_tool"), ("gen_ai.tool.name", event.name), ("gen_ai.tool.type", event.toolType)] ++
    (event.callID.map fun id => ("gen_ai.tool.call.id", id)).toList ++
    (event.agentName.map fun name => ("gen_ai.agent.name", name)).toList ++
    ((sanitized sanitizer event.arguments).map fun text => ("agentstorm.content.tool.arguments", text)).toList

/-! ## The lifecycle -/

structure CaseLifecycle where
  /-- The spans the client was asked for, oldest first. A span is known by its place. -/
  spans : List DetachedSpan
  /-- The running tools by invocation id. -/
  tools : List (String × Nat)
  toolPath : List String

def CaseLifecycle.new : CaseLifecycle := ⟨[], [], []⟩

namespace CaseLifecycle

def startDetachedSpan (name : String) (attributes : List (String × String)) (s : CaseLifecycle) : Nat × CaseLifecycle :=
  (s.spans.length, { s with spans := s.spans ++ [{ name, attributes }] })

/-- Calls on one span. -/
def onSpan (span : Nat) (calls : DetachedSpan → DetachedSpan) (s : CaseLifecycle) : CaseLifecycle :=
  { s with spans := s.spans.modify span calls }

/-- `self._tools.pop(id, None)` -/
def popTool (id : String) (s : CaseLifecycle) : Option Nat × CaseLifecycle :=
  ((Dict.pop id s.tools).1, { s with tools := (Dict.pop id s.tools).2 })

def toolStarted (sanitizer : Option (α → Option String)) (event : ToolLifecycleEvent α) (s : CaseLifecycle) :
    CaseLifecycle :=
  let s := { s with toolPath := s.toolPath ++ [event.name] }
  let (previous, s) := s.popTool event.invocationID
  let s := match previous with
    | some span => s.onSpan span fun span => (span.setError "duplicate_tool_start").endSpan
    | none => s
  let (span, s) := s.startDetachedSpan "gen_ai.execute_tool" (toolAttributes sanitizer event)
  { s with tools := Dict.set event.invocationID span s.tools }

/-- What `tool_finished` does with the span. -/
def finished (sanitizer : Option (α → Option String)) (event : ToolLifecycleEvent α) (errorType : String)
    (span : DetachedSpan) : DetachedSpan :=
  let span := if errorType ≠ "" then span.setError errorType else span
  let span := match sanitized sanitizer event.result with
    | some result => span.setAttribute "agentstorm.content.tool.result" result
    | none => span
  span.endSpan

/-- The second `pop` has no default: it raises if there is no such key. -/
def toolFinished (sanitizer : Option (α → Option String)) (event : ToolLifecycleEvent α) (errorType : String)
    (s : CaseLifecycle) : Except Python.Error CaseLifecycle :=
  match s.popTool event.invocationID with
  | (some span, s) => .ok (s.onSpan span (finished sanitizer event errorType))
  | (none, s) =>
    match (s.toolStarted sanitizer event).popTool event.invocationID with
    | (some span, s) => .ok (s.onSpan span (finished sanitizer event errorType))
    | (none, _) => .error .key

def handedOff (event : HandoffLifecycleEvent) (s : CaseLifecycle) : CaseLifecycle :=
  let (span, s) := s.startDetachedSpan "agentstorm.handoff"
    [("agentstorm.handoff.source_agent", event.sourceAgent), ("agentstorm.handoff.target_agent", event.targetAgent)]
  s.onSpan span (·.endSpan)

def close (errorType : String) (s : CaseLifecycle) : CaseLifecycle :=
  let closed := (s.tools.map Prod.snd).foldl
    (fun spans span => spans.modify span fun span => (span.setError errorType).endSpan) s.spans
  { s with spans := closed, tools := [] }

/-- The tool spans, in the order in which they were started. -/
def toolSpans (s : CaseLifecycle) : List DetachedSpan := s.spans.filter (·.isTool)

end CaseLifecycle

def machine (sanitizer : Option (α → Option String)) : Transactional CaseLifecycle (Event α) Unit Python.Error where
  exec e s :=
    match e with
    | .toolStarted event => .ok ((), s.toolStarted sanitizer event)
    | .toolFinished event errorType => (s.toolFinished sanitizer event errorType).map fun s => ((), s)
    | .handedOff event => .ok ((), s.handedOff event)

end Events

/-! ## Calls on a span -/

/-- The calls end the span, which stays the one it is. -/
structure Ends (calls : DetachedSpan → DetachedSpan) : Prop where
  name_eq : ∀ span, (calls span).name = span.name
  toolName_eq : ∀ span, (calls span).toolName = span.toolName
  ends_eq : ∀ span, (calls span).ends = span.ends + 1

theorem ends_endSpan : Ends (·.endSpan) := ⟨fun _ => rfl, fun _ => rfl, fun _ => rfl⟩

theorem ends_error (errorType : String) : Ends fun span => (span.setError errorType).endSpan :=
  ⟨fun _ => rfl, fun _ => rfl, fun _ => rfl⟩

theorem ends_finished {α : Type} (sanitizer : Option (α → Option String)) (event : ToolLifecycleEvent α) (errorType : String) :
    Ends (CaseLifecycle.finished sanitizer event errorType) := by
  -- the error and the result touch neither the name nor the count
  have herror : ∀ span : DetachedSpan, (if errorType ≠ "" then span.setError errorType else span).name = span.name ∧
      (if errorType ≠ "" then span.setError errorType else span).toolName = span.toolName ∧
      (if errorType ≠ "" then span.setError errorType else span).ends = span.ends := by
    intro span
    split
    · exact ⟨rfl, rfl, rfl⟩
    · exact ⟨rfl, rfl, rfl⟩
  have hresult : ∀ (span : DetachedSpan) (result : String),
      (span.setAttribute "agentstorm.content.tool.result" result).toolName = span.toolName :=
    fun span result => Dict.lookup_set_ne (by decide)
  unfold CaseLifecycle.finished
  cases sanitized sanitizer event.result with
  | none =>
    exact ⟨fun span => (herror span).1, fun span => (herror span).2.1, fun span => congrArg (· + 1) (herror span).2.2⟩
  | some result =>
    refine ⟨fun span => (herror span).1, fun span => ?_, fun span => congrArg (· + 1) (herror span).2.2⟩
    exact (hresult _ result).trans (herror span).2.1

section Spans

variable {calls : DetachedSpan → DetachedSpan} (h : Ends calls)
include h

theorem Ends.map_ends (spans : List DetachedSpan) (i : Nat) :
    (spans.modify i calls).map (·.ends) = (spans.map (·.ends)).modify i (· + 1) := by
  refine List.ext_getElem? fun j => ?_
  rw [List.getElem?_map, List.getElem?_modify, List.getElem?_modify, List.getElem?_map]
  cases spans[j]? with
  | none => rfl
  | some =>
    by_cases hij : i = j
    · simp [hij, h.ends_eq]
    · simp [hij]

theorem Ends.toolNames (spans : List DetachedSpan) (i : Nat) :
    ((spans.modify i calls).filter (·.isTool)).map (·.toolName) = (spans.filter (·.isTool)).map (·.toolName) := by
  have hkeeps : ∀ span, (calls span).isTool = span.isTool := fun span => by
    rw [DetachedSpan.isTool, h.name_eq, DetachedSpan.isTool]
  induction spans generalizing i with
  | nil => rw [List.modify_nil]
  | cons span spans ih =>
    cases i with
    | zero =>
      rw [List.modify_zero_cons, List.filter_cons, List.filter_cons, hkeeps]
      split
      · rw [List.map_cons, List.map_cons, h.toolName_eq]
      · rfl
    | succ i =>
      rw [List.modify_succ_cons, List.filter_cons, List.filter_cons]
      split
      · rw [List.map_cons, List.map_cons, ih]
      · exact ih i

end Spans

/-! ## Who holds a span -/

/-- The spans in `held` and those in the dictionary are open, all others were ended once; the path names the tool spans. -/
structure Balanced (held : List Nat) (s : CaseLifecycle) : Prop where
  keys : (s.tools.map Prod.fst).Nodup
  owns : Handles.Owns (held ++ s.tools.map Prod.snd) (s.spans.map (·.ends))
  path : s.toolSpans.map (·.toolName) = s.toolPath.map some

theorem balanced_new : Balanced [] .new := ⟨List.nodup_nil, Handles.owns_nil, rfl⟩

variable {α : Type} {sanitizer : Option (α → Option String)} {held : List Nat} {s : CaseLifecycle} {span : Nat} {id : String}

/-- A span that is held is ended. -/
theorem Balanced.onSpan (h : Balanced (span :: held) s) {calls : DetachedSpan → DetachedSpan} (hcalls : Ends calls) :
    Balanced held (s.onSpan span calls) := by
  refine ⟨h.keys, ?_, (hcalls.toolNames s.spans span).trans h.path⟩
  show Handles.Owns _ ((s.spans.modify span calls).map (·.ends))
  rw [hcalls.map_ends]
  exact h.owns.finish

/-- Taking out what is not there does nothing; a span that is taken out is held. -/
theorem Balanced.popTool (h : Balanced held s) (id : String) :
    (s.popTool id = (none, s) ∧ id ∉ s.tools.map Prod.fst) ∨
      ∃ span s', s.popTool id = (some span, s') ∧ Balanced (span :: held) s' ∧ id ∉ s'.tools.map Prod.fst := by
  unfold CaseLifecycle.popTool
  rcases Dict.pop_cases id s.tools with ⟨hnone, hrest, hkey⟩ | ⟨span, hsome, hperm⟩
  · rw [hnone, hrest]
    exact .inl ⟨rfl, hkey⟩
  · have hkeys := (hperm.map Prod.fst).nodup_iff.mp h.keys
    rw [List.map_cons, List.nodup_cons] at hkeys
    have hvalues : (held ++ s.tools.map Prod.snd).Perm (span :: held ++ (Dict.pop id s.tools).2.map Prod.snd) :=
      ((hperm.map Prod.snd).append_left held).trans List.perm_middle
    rw [hsome]
    exact .inr ⟨span, _, rfl, ⟨hkeys.2, h.owns.perm hvalues, h.path⟩, hkeys.1⟩

/-- A tool span is started, and its name put on the path. -/
theorem Balanced.start (h : Balanced held s) (sanitizer : Option (α → Option String)) (event : ToolLifecycleEvent α) :
    Balanced (s.spans.length :: held)
      ⟨s.spans ++ [⟨"gen_ai.execute_tool", toolAttributes sanitizer event, [], 0⟩], s.tools, s.toolPath ++ [event.name]⟩ := by
  have howns := h.owns.start
  rw [List.length_map] at howns
  refine ⟨h.keys, ?_, ?_⟩
  · rw [List.map_append]
    exact howns
  · have hname : (toolAttributes sanitizer event).lookup "gen_ai.tool.name" = some event.name := rfl
    simp only [CaseLifecycle.toolSpans, List.filter_append, List.map_append]
    exact congrArg₂ (· ++ ·) h.path (congrArg (fun name => [name]) hname)

/-- A span that is held is stored under a new id. -/
theorem Balanced.store (h : Balanced (span :: held) s) (hid : id ∉ s.tools.map Prod.fst) :
    Balanced held { s with tools := s.tools ++ [(id, span)] } := by
  refine ⟨?_, h.owns.perm ?_, h.path⟩
  · rw [List.map_append]
    exact (List.perm_append_singleton _ _).nodup_iff.mpr (List.nodup_cons.mpr ⟨hid, h.keys⟩)
  · rw [List.map_append, ← List.append_assoc]
    exact (List.perm_append_singleton _ _).symm

/-! ## One event -/

/-- The state in which `tool_started` starts its span: an earlier one under the same id has been ended. -/
def CaseLifecycle.cleared (id : String) (s : CaseLifecycle) : CaseLifecycle :=
  match s.popTool id with
  | (some span, s) => s.onSpan span fun span => (span.setError "duplicate_tool_start").endSpan
  | (none, s) => s

theorem toolStarted_eq (event : ToolLifecycleEvent α) (s : CaseLifecycle) :
    s.toolStarted sanitizer event =
      let t := s.cleared event.invocationID
      ⟨t.spans ++ [⟨"gen_ai.execute_tool", toolAttributes sanitizer event, [], 0⟩],
        Dict.set event.invocationID t.spans.length t.tools, t.toolPath ++ [event.name]⟩ := by
  unfold CaseLifecycle.toolStarted CaseLifecycle.cleared CaseLifecycle.popTool
  dsimp only
  cases (Dict.pop event.invocationID s.tools).1 with
  | none => rfl
  | some => rfl

theorem Balanced.cleared (h : Balanced [] s) (id : String) :
    Balanced [] (s.cleared id) ∧ id ∉ (s.cleared id).tools.map Prod.fst := by
  unfold CaseLifecycle.cleared
  rcases h.popTool id with ⟨hpop, hid⟩ | ⟨_, s', hpop, hheld, hid⟩
  · rw [hpop]
    exact ⟨h, hid⟩
  · rw [hpop]
    exact ⟨hheld.onSpan (ends_error _), hid⟩

theorem Balanced.toolStarted (h : Balanced [] s) (event : ToolLifecycleEvent α) :
    Balanced [] (s.toolStarted sanitizer event) := by
  obtain ⟨hcleared, hid⟩ := h.cleared event.invocationID
  rw [toolStarted_eq]
  dsimp only
  rw [Dict.set_of_not_mem hid]
  exact (hcleared.start sanitizer event).store hid

/-- The span that was started last is taken out again, so the second `pop` does not raise. -/
theorem Balanced.popTool_toolStarted (h : Balanced [] s) (event : ToolLifecycleEvent α) :
    ∃ span s', (s.toolStarted sanitizer event).popTool event.invocationID = (some span, s') ∧ Balanced [span] s' := by
  obtain ⟨hcleared, hid⟩ := h.cleared event.invocationID
  refine ⟨_, _, ?_, hcleared.start sanitizer event⟩
  rw [toolStarted_eq]
  dsimp only
  rw [Dict.set_of_not_mem hid, CaseLifecycle.popTool, Dict.pop_concat hid]

theorem Balanced.toolFinished (h : Balanced [] s) (event : ToolLifecycleEvent α) (errorType : String) :
    ∃ s', s.toolFinished sanitizer event errorType = .ok s' ∧ Balanced [] s' := by
  have hfinished := ends_finished sanitizer event errorType
  unfold CaseLifecycle.toolFinished
  rcases h.popTool event.invocationID with ⟨hpop, -⟩ | ⟨span, s', hpop, hheld, -⟩
  · obtain ⟨_, s', hagain, hheld⟩ := @Balanced.popTool_toolStarted α sanitizer s h event
    rw [hpop]
    dsimp only
    rw [hagain]
    exact ⟨_, rfl, hheld.onSpan hfinished⟩
  · rw [hpop]
    exact ⟨_, rfl, hheld.onSpan hfinished⟩

/-- A handoff is a span of its own, and not one of a tool. -/
theorem Balanced.handedOff (h : Balanced [] s) (event : HandoffLifecycleEvent) : Balanced [] (s.handedOff event) := by
  have howns := h.owns.start
  rw [List.length_map] at howns
  have hheld : Balanced [s.spans.length] (s.startDetachedSpan "agentstorm.handoff"
      [("agentstorm.handoff.source_agent", event.sourceAgent), ("agentstorm.handoff.target_agent", event.targetAgent)]).2 := by
    refine ⟨h.keys, ?_, ?_⟩
    · simp only [CaseLifecycle.startDetachedSpan, List.map_append]
      exact howns
    · simp only [CaseLifecycle.startDetachedSpan, CaseLifecycle.toolSpans, List.filter_append, List.map_append]
      exact (List.append_nil _).trans h.path
  exact hheld.onSpan ends_endSpan

/-- No event raises. -/
theorem Balanced.exec (h : Balanced [] s) (e : Event α) :
    ∃ s', (machine sanitizer).exec e s = .ok ((), s') ∧ Balanced [] s' := by
  cases e with
  | toolStarted event => exact ⟨_, rfl, h.toolStarted event⟩
  | toolFinished event errorType =>
    obtain ⟨s', hs', hbalanced⟩ := @Balanced.toolFinished α sanitizer s h event errorType
    refine ⟨s', ?_, hbalanced⟩
    show (s.toolFinished sanitizer event errorType).map _ = _
    rw [hs']
    rfl
  | handedOff event => exact ⟨_, rfl, h.handedOff event⟩

/-! ## Every attempt -/

theorem balanced_run (sanitizer : Option (α → Option String)) (events : List (Event α)) :
    Balanced [] ((machine sanitizer).run .new events) := by
  refine Transactional.run_invariant (fun _ => True) (Balanced []) ?_ balanced_new events fun _ _ => trivial
  intro s e _ h
  obtain ⟨s', hexec, hbalanced⟩ := @Balanced.exec α sanitizer s h e
  rw [Transactional.step_ok hexec]
  exact hbalanced

/-- `close` ends what the dictionary holds, and nothing else. -/
theorem Balanced.close (h : Balanced [] s) (errorType : String) : Balanced [] (s.close errorType) := by
  have hcalls := ends_error errorType
  have hspans : ∀ (values : List Nat) (spans : List DetachedSpan),
      (values.foldl (fun spans i => spans.modify i fun span => (span.setError errorType).endSpan) spans).map (·.ends) =
        values.foldl (fun ends i => ends.modify i (· + 1)) (spans.map (·.ends)) ∧
      ((values.foldl (fun spans i => spans.modify i fun span => (span.setError errorType).endSpan) spans).filter
        (·.isTool)).map (·.toolName) = (spans.filter (·.isTool)).map (·.toolName) := by
    intro values
    induction values with
    | nil => exact fun spans => ⟨rfl, rfl⟩
    | cons i values ih =>
      intro spans
      obtain ⟨hends, hnames⟩ := ih (spans.modify i fun span => (span.setError errorType).endSpan)
      rw [hcalls.map_ends] at hends
      rw [hcalls.toolNames] at hnames
      exact ⟨hends, hnames⟩
  obtain ⟨hends, hnames⟩ := hspans (s.tools.map Prod.snd) s.spans
  have howns : Handles.Owns (s.tools.map Prod.snd) (s.spans.map (·.ends)) := h.owns
  have hended := howns.finishAll
  rw [← hends] at hended
  exact ⟨List.nodup_nil, hended, hnames.trans h.path⟩

/-- **Tool spans are balanced.** Whatever events an attempt sees, with repeated and unknown ids, none of them raises; after
    `close` every tool span was ended exactly once, and the path has one entry for each, in the order of their starts and
    with their names. If there is a path, the attempt reports as many tool calls as there are tool spans. -/
theorem tool_spans_balanced (sanitizer : Option (α → Option String)) (events : List (Event α)) (errorType : String) :
    let s := ((machine sanitizer).run .new events).close errorType
    (∀ past e, past ++ [e] <+: events → ∃ s', (machine sanitizer).exec e ((machine sanitizer).run .new past) = .ok ((), s')) ∧
    (∀ span ∈ s.toolSpans, span.ends = 1) ∧
    s.toolSpans.map (·.toolName) = s.toolPath.map some ∧
    ∀ number latencyMS ending, s.toolPath ≠ [] →
      (invokeAttempt number latencyMS s.toolPath ending).toolCallCount = s.toolSpans.length := by
  intro s
  have hclosed : Balanced [] s := (balanced_run sanitizer events).close errorType
  refine ⟨fun past e _ => ?_, fun span hspan => ?_, hclosed.path, fun number latencyMS ending hpath => ?_⟩
  · obtain ⟨s', hexec, -⟩ := (balanced_run sanitizer past).exec e
    exact ⟨s', hexec⟩
  · -- nothing is left in the dictionary
    have howns : Handles.Owns [] (s.spans.map (·.ends)) := hclosed.owns
    exact howns.all_ended span.ends (List.mem_map_of_mem (List.mem_filter.mp hspan).1)
  · have hlength := congrArg List.length hclosed.path
    rw [List.length_map, List.length_map] at hlength
    have hnonempty : s.toolPath.isEmpty = false := List.isEmpty_eq_false_iff.mpr hpath
    show (if s.toolPath.isEmpty = true then _ else s.toolPath.length) = _
    rw [if_neg (by rw [hnonempty]; decide), hlength]

/-- A call that is started twice and finished once, one that is only finished, and one that is never finished. -/
def unruly : List (Event String) :=
  [.toolStarted { invocationID := "a", name := "search" }, .toolStarted { invocationID := "a", name := "fetch" },
    .toolFinished { invocationID := "a", name := "fetch", result := some "page" } "",
    .toolFinished { invocationID := "b", name := "notify" } "ValueError", .handedOff ⟨"triage", "expert"⟩,
    .toolStarted { invocationID := "a", name := "search" }]

theorem tool_spans_balanced_unruly :
    let s := ((machine (some some)).run .new unruly).close "TimeoutError"
    s.toolPath = ["search", "fetch", "notify", "search"] ∧ s.spans.length = 5 ∧
      s.toolSpans.map (·.errors) = [["duplicate_tool_start"], [], ["ValueError"], ["TimeoutError"]] ∧
      (invokeAttempt 1 fiveMillis s.toolPath (.ok ⟨"", none, none, none, none, "", none⟩)).toolCallCount =
        s.toolSpans.length := by
  have hpath : (((machine (some some)).run .new unruly).close "TimeoutError").toolPath =
      ["search", "fetch", "notify", "search"] := by decide
  obtain ⟨-, -, -, hcount⟩ := tool_spans_balanced (some some) unruly "TimeoutError"
  refine ⟨hpath, by decide, by decide, hcount 1 fiveMillis _ ?_⟩
  rw [hpath]
  exact List.cons_ne_nil _ _

end AgentStorm.Worker.Lifecycle
