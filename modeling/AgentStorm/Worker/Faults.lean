import AgentStorm.Worker.Compatible
import AgentStorm.Worker.Payload
import AgentStorm.Worker.Retries

/-!
# `Worker.Faults` — what is left of an injected fault

A rule leaves its mark in the metadata of the response, or on the error the middleware raises.
`_invoke_attempt` reads the second when the attempt failed and the first when it did not. A delayed
adapter that then fails by itself has no response to carry the mark, and its error is not the
middleware's (`injection_recorded_iff`). `compatibleUnder` is the middleware around the compatible
adapter; `measured_tokens_iff` says when an attempt that fails keeps what was measured.
-/

namespace AgentStorm.Worker

open Compatible Python Results

/-! ## Marks -/

variable {rule : FaultRuleConfig} {latencyMS : ℚ≥0} {toolPath : List String}

/-- The attempt names the rule and its fault, and the aggregate counts it among the injected ones. -/
structure Recorded (rule : FaultRuleConfig) (attempt : AttemptResult) : Prop where
  name : attempt.injectedRule = rule.name
  fault : attempt.injectedFault = some rule.fault
  counted : (attemptPayload attempt).injectedFault ≠ ""

theorem Fault.text_ne_empty (fault : Fault) : fault.text ≠ "" := by
  cases fault <;> decide

theorem recorded_iff {attempt : AttemptResult} :
    Recorded rule attempt ↔ attempt.injectedRule = rule.name ∧ attempt.injectedFault = some rule.fault := by
  constructor
  · intro h
    exact ⟨h.name, h.fault⟩
  · rintro ⟨hname, hfault⟩
    refine ⟨hname, hfault, ?_⟩
    have hsent : (attemptPayload attempt).injectedFault = rule.fault.text := by
      change (attempt.injectedFault.map (·.text)).getD "" = rule.fault.text
      rw [hfault]
      rfl
    rw [hsent]
    exact rule.fault.text_ne_empty

variable {number : Nat}

/-- An attempt that failed is marked by its error. -/
theorem recorded_error_iff {error : ExecutionError} :
    Recorded rule (invokeAttempt number latencyMS toolPath (.error error)) ↔
      error.injectedRule = rule.name ∧ error.injectedFault = some rule.fault := recorded_iff

/-- An attempt that succeeded is marked by its response. -/
theorem recorded_ok_iff {response : AdapterResponse} :
    Recorded rule (invokeAttempt number latencyMS toolPath (.ok response)) ↔
      response.injectedRule = rule.name ∧ response.injectedFault = some rule.fault := recorded_iff

section Case

variable {draw : String → ℚ} {reliability : Option ReliabilityConfig} {caseID : Python.Text}
  {iteration number : Nat}

/-- An attempt that ends by itself in time ends as the middleware does. -/
theorem attemptEnd_ran {invocation : Invocation} {run : AdapterRun} {rule : Option FaultRuleConfig}
    (htime : 0 < invocation.remaining) (hran : invocation.work = .ran run)
    (hrule : selectFaultRule draw (reliability.bind (·.scenario)) (reliability.bind (·.seed)) caseID iteration number =
      .ok rule) :
    attemptEnd draw reliability caseID iteration number invocation =
      ((faultsRun rule run).1, (faultsRun rule run).2.mapError classifyAdapterException) := by
  rw [attemptEnd, if_neg (not_le.mpr htime), hran]
  simp [hrule]

/-- **A selected fault is recorded** on every attempt that ends by itself in time, unless the rule's delay is no float,
    or the rule only delays the adapter and the adapter then raises an error that does not happen to carry the same
    mark. -/
theorem injection_recorded_iff {invocation : Invocation} {run : AdapterRun} {rule : FaultRuleConfig}
    (htime : 0 < invocation.remaining) (hran : invocation.work = .ran run)
    (hrule : selectFaultRule draw (reliability.bind (·.scenario)) (reliability.bind (·.seed)) caseID iteration number =
      .ok (some rule))
    (hfault : rule.fault ∈ [.latency, .timeout, .rateLimit, .httpError]) :
    let ended := attemptEnd draw reliability caseID iteration number invocation
    Recorded rule (invokeAttempt number invocation.latencyMS ended.1 ended.2) ↔
      (rule.fault ∈ [.latency, .timeout] → rule.sleeps = true) ∧
      (rule.fault = .latency → ∀ exception, run.ending = .error exception →
        (classifyAdapterException exception).injectedRule = rule.name ∧
        (classifyAdapterException exception).injectedFault = some rule.fault) := by
  rw [attemptEnd_ran htime hran hrule]
  cases hkind : rule.fault with
  | latency =>
    cases hsleeps : rule.sleeps with
    | false =>
      -- the exception is not the middleware's, so it has no mark
      refine iff_of_false (fun hrecorded => ?_) fun h => nomatch h.1 (by decide)
      simp only [faultsRun, hkind, hsleeps] at hrecorded
      exact nomatch (recorded_error_iff.mp hrecorded).2
    | true =>
      simp only [faultsRun, hkind, hsleeps, true_implies, implies_true, true_and]
      cases hending : run.ending with
      | error exception =>
        -- the middleware lets the exception pass as it is
        refine recorded_error_iff.trans ⟨?_, ?_⟩
        · rintro ⟨hname, hmark⟩ raised hraised
          obtain rfl := Except.error.inj hraised
          exact ⟨hname, hmark.trans (congrArg some hkind)⟩
        · intro h
          obtain ⟨hname, hmark⟩ := h exception rfl
          exact ⟨hname, hmark.trans (congrArg some hkind.symm)⟩
      | ok =>
        exact iff_of_true (recorded_ok_iff.mpr ⟨rfl, rfl⟩) fun _ h => nomatch h
  | timeout =>
    cases hsleeps : rule.sleeps with
    | false =>
      refine iff_of_false (fun hrecorded => ?_) fun h => nomatch h.1 (by decide)
      simp only [faultsRun, hkind, hsleeps] at hrecorded
      exact nomatch (recorded_error_iff.mp hrecorded).2
    | true =>
      simp only [faultsRun, hkind, hsleeps]
      exact iff_of_true (recorded_error_iff.mpr ⟨rfl, rfl⟩) ⟨fun _ => trivial, nofun⟩
  | rateLimit =>
    simp only [faultsRun, hkind]
    exact iff_of_true (recorded_error_iff.mpr ⟨rfl, rfl⟩) ⟨fun h => absurd h (by decide), nofun⟩
  | httpError =>
    simp only [faultsRun, hkind]
    exact iff_of_true (recorded_error_iff.mpr ⟨rfl, rfl⟩) ⟨fun h => absurd h (by decide), nofun⟩
  | malformedResponse =>
    rw [hkind] at hfault
    exact absurd hfault (by decide)
  | toolError =>
    rw [hkind] at hfault
    exact absurd hfault (by decide)

end Case

theorem selectFaultRule_delay :
    selectFaultRule (fun _ => 0) ((some (ReliabilityConfig.single .delay)).bind (·.scenario))
      ((some (ReliabilityConfig.single .delay)).bind (·.seed)) (text "case") 0 1 = .ok (some .delay) := by
  rfl

theorem sleeps_delay : FaultRuleConfig.delay.sleeps = true := by decide +kernel

theorem faultsRun_delay (run : AdapterRun) :
    faultsRun (some .delay) run = (run.started, run.ending.map (withInjection .delay)) := if_pos sleeps_delay

/-- A delayed adapter that answers is marked. -/
theorem injection_recorded_answered :
    let invocation : Invocation := { Invocation.crashing with work := .ran ⟨[], .ok { output := "done" }⟩ }
    let ended := attemptEnd (fun _ => 0) (some (.single .delay)) (text "case") 0 1 invocation
    Recorded .delay (invokeAttempt 1 invocation.latencyMS ended.1 ended.2) := by
  have htime : (0 : ℚ) < 1 := zero_lt_one
  exact (injection_recorded_iff htime rfl selectFaultRule_delay (by decide)).mpr
    ⟨fun _ => sleeps_delay, fun _ _ h => nomatch h⟩

/-- A delayed adapter that raises is not. -/
theorem injection_recorded_crashing :
    selectFaultRule (fun _ => 0) ((some (ReliabilityConfig.single .delay)).bind (·.scenario))
      ((some (ReliabilityConfig.single .delay)).bind (·.seed)) (text "case") 0 1 = .ok (some .delay) ∧
    let ended := attemptEnd (fun _ => 0) (some (.single .delay)) (text "case") 0 1 .crashing
    ¬Recorded .delay (invokeAttempt 1 Invocation.crashing.latencyMS ended.1 ended.2) := by
  refine ⟨selectFaultRule_delay, ?_⟩
  have htime : (0 : ℚ) < Invocation.crashing.remaining := zero_lt_one
  intro ended hrecorded
  have hname : (invokeAttempt 1 Invocation.crashing.latencyMS ended.1 ended.2).injectedRule = "" := by
    simp only [ended, attemptEnd_ran htime rfl selectFaultRule_delay, faultsRun_delay]
    rfl
  exact absurd (hname.symm.trans hrecorded.name) (by decide)

/-! ## The compatible adapter under the middleware -/

/-- The exception as the caller of the adapter sees it. -/
def Compatible.Raised.exception : Raised → AdapterException
  | .built error => .execution error
  | .passed exception => exception

/-- A run as the middleware sees it. -/
def Compatible.Ran.adapterRun (ran : Ran) : AdapterRun :=
  ⟨ran.exchange.started, ran.ending.mapError Raised.exception⟩

def injectedToolError (rule : FaultRuleConfig) : ExecutionError :=
  { injectedError rule .tool .injectedToolError .tool with ambiguous := true }

/-- `_ToolFaultLifecycle.tool_started`: the wrapped lifecycle comes first. The flag that keeps the fault from being raised
    twice is never read again, since the run ends with it. -/
def Compatible.Endpoint.failing (endpoint : Endpoint) (rule : FaultRuleConfig) : Endpoint :=
  { endpoint with
    started := fun name => (endpoint.started name).or
      (if rule.toolName = "" ∨ rule.toolName = name then some (.execution (injectedToolError rule)) else none) }

/-- The outside of the adapter's run, with the lifecycle the rule gives it. -/
def Compatible.Endpoint.under (endpoint : Endpoint) : Option FaultRuleConfig → Endpoint
  | none => endpoint
  | some rule => if rule.fault = .toolError then endpoint.failing rule else endpoint

/-- The adapter's own run. -/
def adapterUnder (config : CompatibleConfig) (endpoint : Endpoint) (rule : Option FaultRuleConfig) : Ran :=
  compatibleRun config (endpoint.under rule)

/-- `FaultInjectionMiddleware.run` around the adapter: what the adapter did, if it was called, and how the call ends. -/
def compatibleUnder (config : CompatibleConfig) (endpoint : Endpoint) (rule : Option FaultRuleConfig) :
    Exchange × Except AdapterException AdapterResponse :=
  let ran := adapterUnder config endpoint rule
  match rule with
  | none => (ran.exchange, ran.adapterRun.ending)
  | some rule =>
    match rule.fault with
    | .toolError => (ran.exchange, ran.adapterRun.ending)
    | .latency => (if rule.sleeps then ran.exchange else {}, (faultsRun (some rule) ran.adapterRun).2)
    | .malformedResponse => (ran.exchange, (faultsRun (some rule) ran.adapterRun).2)
    | .timeout | .rateLimit | .httpError => ({}, (faultsRun (some rule) ran.adapterRun).2)

section Refinement

variable {config : CompatibleConfig} {endpoint : Endpoint} {rule : FaultRuleConfig}

theorem toolFault_append (rule : FaultRuleConfig) (names more : List String) :
    toolFault rule (names ++ more) = (toolFault rule names).or ((toolFault rule more).map (names ++ ·)) := by
  induction names with
  | nil => simp [toolFault]
  | cons name names ih =>
    rw [List.cons_append, toolFault, toolFault, ih]
    split
    · rfl
    · cases toolFault rule names <;> cases toolFault rule more <;> rfl

theorem postWithRetry_failing (ledger : Ledger) (left : Nat) (seen : List Reply) :
    postWithRetry config (endpoint.failing rule) ledger left seen = postWithRetry config endpoint ledger left seen := by
  induction left generalizing seen with
  | zero =>
    rw [postWithRetry, postWithRetry]
    rfl
  | succ left ih =>
    rw [postWithRetry, postWithRetry]
    simp only [ih]
    rfl

theorem failing_started (hquiet : endpoint.started = fun _ => none) (tool : String) :
    (endpoint.failing rule).started tool =
      if rule.toolName = "" ∨ rule.toolName = tool then some (.execution (injectedToolError rule)) else none := by
  change (endpoint.started tool).or _ = _
  rw [hquiet]
  rfl

/-- What the failing lifecycle makes of a stretch of the run that started the tools `names`: the same, unless one of them
    is to fail. -/
def Cut (rule : FaultRuleConfig) (names : List String) (same : Prop) (short : List String → Prop) : Prop :=
  (toolFault rule names = none → same) ∧ ∀ started, toolFault rule names = some started → short started

variable {short : List String → Prop}

theorem cut_nil {same : Prop} (h : same) : Cut rule [] same short :=
  ⟨fun _ => h, fun _ hfault => nomatch hfault⟩

variable {names : List String}

/-- The first tool is the one that fails. -/
theorem cut_match {tool : String} {same : Prop} (hmatch : rule.toolName = "" ∨ rule.toolName = tool)
    (h : short [tool]) : Cut rule (tool :: names) same short := by
  have hfault : toolFault rule (tool :: names) = some [tool] := if_pos hmatch
  refine ⟨fun hnone => ?_, fun started hstarted => ?_⟩
  · exact nomatch hfault.symm.trans hnone
  · cases hfault.symm.trans hstarted
    exact h

/-- The first tool is not the one that fails. -/
theorem cut_cons {tool : String} {same same' : Prop} {short' : List String → Prop}
    (hmatch : ¬(rule.toolName = "" ∨ rule.toolName = tool)) (h : Cut rule names same short)
    (hsame : same → same') (hshort : ∀ started, short started → short' (tool :: started)) :
    Cut rule (tool :: names) same' short' := by
  have hfault : toolFault rule (tool :: names) = (toolFault rule names).map (tool :: ·) := if_neg hmatch
  refine ⟨fun hnone => hsame (h.1 ?_), fun started hstarted => ?_⟩
  · exact Option.map_eq_none_iff.mp (hfault.symm.trans hnone)
  · obtain ⟨later, hlater, rfl⟩ := Option.map_eq_some_iff.mp (hfault.symm.trans hstarted)
    exact hshort later (h.2 later hlater)

/-- A stretch is followed by another. -/
theorem cut_append {more : List String} {same same' : Prop} {short' : List String → Prop}
    (h : Cut rule names same short)
    (hmore : same → Cut rule more same' fun started => short' (names ++ started))
    (hshort : ∀ started, short started → short' started) : Cut rule (names ++ more) same' short' := by
  have hfault := toolFault_append rule names more
  cases hnames : toolFault rule names with
  | none =>
    have hcut := hmore (h.1 hnames)
    rw [hnames, Option.none_or] at hfault
    refine ⟨fun hnone => hcut.1 ?_, fun started hstarted => ?_⟩
    · exact Option.map_eq_none_iff.mp (hfault.symm.trans hnone)
    · obtain ⟨later, hlater, rfl⟩ := Option.map_eq_some_iff.mp (hfault.symm.trans hstarted)
      exact hcut.2 later hlater
  | some first =>
    rw [hnames, Option.some_or] at hfault
    refine ⟨fun hnone => ?_, fun started hstarted => ?_⟩
    · exact nomatch hfault.symm.trans hnone
    · cases hfault.symm.trans hstarted
      exact hshort first (h.2 first hnames)

/-- One call under the failing lifecycle. -/
theorem callTool_failing (hquiet : endpoint.started = fun _ => none) (ledger : Ledger) (tool : String)
    (exchange : Exchange) :
    callTool (endpoint.failing rule) ledger tool exchange =
      if rule.toolName = "" ∨ rule.toolName = tool then
        (.error (.passed (.execution (injectedToolError rule))),
          { exchange with started := exchange.started ++ [tool] })
      else callTool endpoint ledger tool exchange := by
  by_cases hmatch : rule.toolName = "" ∨ rule.toolName = tool
  · rw [if_pos hmatch, callTool, failing_started hquiet, if_pos hmatch]
  · rw [if_neg hmatch, callTool, callTool, failing_started hquiet, if_neg hmatch, hquiet]
    rfl

theorem callTool_started (endpoint : Endpoint) (ledger : Ledger) (tool : String) (exchange : Exchange) :
    (callTool endpoint ledger tool exchange).2.started = exchange.started ++ [tool] := by
  unfold callTool
  dsimp only
  split
  · rfl
  · split <;> rfl

/-- The tool calls of one completion under the failing lifecycle. -/
theorem executeTools_failing (hquiet : endpoint.started = fun _ => none) (ledger : Ledger) (calls : List Value)
    (exchange : Exchange) :
    ∃ names, (executeTools config endpoint ledger calls exchange).2.started = exchange.started ++ names ∧
      Cut rule names
        (executeTools config (endpoint.failing rule) ledger calls exchange =
          executeTools config endpoint ledger calls exchange)
        (fun started =>
          (executeTools config (endpoint.failing rule) ledger calls exchange).1 =
            .error (.passed (.execution (injectedToolError rule))) ∧
          (executeTools config (endpoint.failing rule) ledger calls exchange).2.started = exchange.started ++ started) := by
  induction calls generalizing exchange with
  | nil =>
    rw [executeTools, executeTools]
    exact ⟨[], (List.append_nil _).symm, cut_nil rfl⟩
  | cons call calls ih =>
    have hfind : findTool config (endpoint.failing rule) ledger call = findTool config endpoint ledger call := rfl
    rw [executeTools, executeTools, hfind]
    cases findTool config endpoint ledger call with
    | error => exact ⟨[], (List.append_nil _).symm, cut_nil rfl⟩
    | ok tool =>
      have hstarted := callTool_started endpoint ledger tool exchange
      dsimp only
      rw [callTool_failing hquiet]
      rcases hcalled : callTool endpoint ledger tool exchange with ⟨result, exchange'⟩
      rw [hcalled] at hstarted
      cases result with
      | error =>
        refine ⟨[tool], hstarted, ?_⟩
        by_cases hmatch : rule.toolName = "" ∨ rule.toolName = tool
        · rw [if_pos hmatch]
          exact cut_match hmatch ⟨rfl, rfl⟩
        · rw [if_neg hmatch]
          exact cut_cons hmatch (cut_nil trivial) (fun _ => rfl) fun _ h => h
      | ok =>
        obtain ⟨names, hnames, hcut⟩ := ih exchange'
        refine ⟨tool :: names, ?_, ?_⟩
        · dsimp only
          rw [hnames, hstarted, List.append_assoc]
          rfl
        · by_cases hmatch : rule.toolName = "" ∨ rule.toolName = tool
          · rw [if_pos hmatch]
            exact cut_match hmatch ⟨rfl, rfl⟩
          · rw [if_neg hmatch]
            refine cut_cons hmatch hcut (fun hsame => ?_) fun started hshort => ⟨?_, ?_⟩
            · dsimp only
              rw [hsame]
            · dsimp only
              rw [hshort.1]
              rfl
            · dsimp only
              rw [hshort.2, hstarted, List.append_assoc]
              rfl

/-- The loop under the failing lifecycle. -/
theorem turns_failing (hquiet : endpoint.started = fun _ => none) (left : Nat) (ledger : Ledger) (toolCount : Nat)
    (exchange : Exchange) :
    ∃ names, (turns config endpoint left ledger toolCount exchange).exchange.started = exchange.started ++ names ∧
      Cut rule names
        (turns config (endpoint.failing rule) left ledger toolCount exchange =
          turns config endpoint left ledger toolCount exchange)
        (fun started =>
          (turns config (endpoint.failing rule) left ledger toolCount exchange).ending =
            .error (.passed (.execution (injectedToolError rule))) ∧
          (turns config (endpoint.failing rule) left ledger toolCount exchange).exchange.started =
            exchange.started ++ started) := by
  induction left generalizing ledger toolCount exchange with
  | zero =>
    rw [turns, turns]
    exact ⟨[], (List.append_nil _).symm, cut_nil rfl⟩
  | succ left ih =>
    rw [turns, turns, postWithRetry_failing]
    dsimp only
    -- a turn that ends the run starts no tool
    split
    · exact ⟨[], (List.append_nil _).symm, cut_nil rfl⟩
    split
    · exact ⟨[], (List.append_nil _).symm, cut_nil rfl⟩
    split
    · exact ⟨[], (List.append_nil _).symm, cut_nil rfl⟩
    rename_i completion _
    generalize Ledger.addUsage { ledger with modelCalls := ledger.modelCalls + 1 } completion.usage = ledger'
    split
    · split
      · exact ⟨[], (List.append_nil _).symm, cut_nil rfl⟩
      · generalize hbefore : Exchange.mk _ exchange.started exchange.invoked = before
        have hstarted : before.started = exchange.started := hbefore ▸ rfl
        obtain ⟨names, hnames, hcut⟩ := @executeTools_failing config endpoint rule hquiet ledger' completion.toolCalls before
        rw [hstarted] at hnames
        rcases hplain : executeTools config endpoint ledger' completion.toolCalls before with ⟨result, after⟩
        rw [hplain] at hnames hcut
        cases result with
        | error =>
          refine ⟨names ++ [], ?_, cut_append hcut (fun hsame => cut_nil ?_) fun started hshort => ⟨?_, ?_⟩⟩
          · rw [List.append_nil]
            exact hnames
          · rw [hsame]
          · rw [hshort.1]
          · rw [hshort.1, ← hstarted]
            exact hshort.2
        | ok executed =>
          obtain ⟨more, hmore, hlater⟩ := ih ledger' (toolCount + executed) after
          refine ⟨names ++ more, ?_, cut_append hcut (fun hsame => ?_) fun started hshort => ⟨?_, ?_⟩⟩
          · rw [← List.append_assoc, ← hnames]
            exact hmore
          · rw [hsame]
            refine ⟨hlater.1, fun started hfault => ⟨(hlater.2 started hfault).1, ?_⟩⟩
            rw [← List.append_assoc, ← hnames]
            exact (hlater.2 started hfault).2
          · rw [hshort.1]
          · rw [hshort.1, ← hstarted]
            exact hshort.2
    · exact ⟨[], (List.append_nil _).symm, cut_nil rfl⟩

/-- **The middleware is the one of `faultsRun`**: around the compatible adapter, under a lifecycle that does not raise
    itself, it starts the same tools and ends in the same way. -/
theorem compatibleUnder_refines (hquiet : endpoint.started = fun _ => none) (rule : Option FaultRuleConfig) :
    ((compatibleUnder config endpoint rule).1.started, (compatibleUnder config endpoint rule).2) =
      faultsRun rule (compatibleRun config endpoint).adapterRun := by
  cases rule with
  | none => rfl
  | some rule =>
    unfold compatibleUnder faultsRun adapterUnder Endpoint.under
    dsimp only
    cases hfault : rule.fault with
    | latency => cases rule.sleeps <;> rfl
    | timeout => cases rule.sleeps <;> rfl
    | toolError =>
      obtain ⟨names, hnames, hcut⟩ := @turns_failing config endpoint rule hquiet config.maxModelCalls {} 0 {}
      have hstarted : (compatibleRun config endpoint).adapterRun.started = names := hnames
      dsimp only
      rw [if_pos rfl, hstarted]
      cases htool : toolFault rule names with
      | none =>
        have hsame : compatibleRun config (endpoint.failing rule) = compatibleRun config endpoint := hcut.1 htool
        rw [hsame]
        exact Prod.ext hnames rfl
      | some started =>
        obtain ⟨hending, hshort⟩ := hcut.2 started htool
        refine Prod.ext hshort ?_
        change (compatibleRun config (endpoint.failing rule)).ending.mapError Raised.exception = _
        rw [show (compatibleRun config (endpoint.failing rule)).ending = _ from hending]
        rfl
    | _ => rfl

end Refinement

/-! ## Measured tokens -/

variable {seen : List Reply}

/-- The attempt reports at least the usages that were received, and a number of model calls. -/
structure KeepsTotals (seen : List Reply) (attempt : AttemptResult) : Prop where
  input : ∃ tokens, attempt.inputTokens = some tokens ∧ usageSum Prod.fst seen ≤ tokens
  output : ∃ tokens, attempt.outputTokens = some tokens ∧ usageSum Prod.snd seen ≤ tokens
  calls : attempt.modelCallCount ≠ none

/-- The response of an error reports at least the usages that were received, or there is none and nothing to report. -/
def CarriesTotals (seen : List Reply) (error : ExecutionError) : Prop :=
  match error.response with
  | some response =>
    (∃ tokens, response.inputTokens = some tokens ∧ usageSum Prod.fst seen ≤ tokens) ∧
    (∃ tokens, response.outputTokens = some tokens ∧ usageSum Prod.snd seen ≤ tokens) ∧ response.modelCallCount ≠ none
  | none =>
    error.usageComplete = true ∧ usageSum Prod.fst seen = 0 ∧ usageSum Prod.snd seen = 0 ∧
    error.injectedFault ∈ [some .timeout, some .rateLimit, some .httpError]

theorem keepsTotals_iff {error : ExecutionError} :
    KeepsTotals seen (invokeAttempt number latencyMS toolPath (.error error)) ↔ CarriesTotals seen error := by
  unfold CarriesTotals
  cases hresponse : error.response with
  | some =>
    constructor
    · rintro ⟨hinput, houtput, hcalls⟩
      simp only [invokeAttempt, answered, hresponse] at hinput houtput hcalls
      exact ⟨hinput, houtput, hcalls⟩
    · rintro ⟨hinput, houtput, hcalls⟩
      refine ⟨?_, ?_, ?_⟩ <;> simpa only [invokeAttempt, answered, hresponse]
  | none =>
    have hinput : (invokeAttempt number latencyMS toolPath (.error error)).inputTokens =
        if error.usageComplete then some 0 else none := by
      simp [invokeAttempt, answered, hresponse]
    have houtput : (invokeAttempt number latencyMS toolPath (.error error)).outputTokens =
        if error.usageComplete then some 0 else none := by
      simp [invokeAttempt, answered, hresponse]
    have hcalls : (invokeAttempt number latencyMS toolPath (.error error)).modelCallCount =
        if error.injectedFault ∈ [some .timeout, some .rateLimit, some .httpError] then some 0 else none := by
      simp [invokeAttempt, answered, hresponse]
    constructor
    · rintro ⟨⟨input, hin, hinle⟩, ⟨output, hout, houtle⟩, hknown⟩
      rw [hinput] at hin
      rw [houtput] at hout
      rw [hcalls] at hknown
      cases hcomplete : error.usageComplete with
      | false =>
        rw [hcomplete] at hin
        cases hin
      | true =>
        rw [hcomplete] at hin hout
        obtain rfl : 0 = input := Option.some.inj hin
        obtain rfl : 0 = output := Option.some.inj hout
        refine ⟨rfl, Nat.le_zero.mp hinle, Nat.le_zero.mp houtle, ?_⟩
        by_contra hfault
        rw [if_neg hfault] at hknown
        exact hknown rfl
    · rintro ⟨hcomplete, hin, hout, hfault⟩
      refine ⟨⟨0, ?_, hin.le⟩, ⟨0, ?_, hout.le⟩, ?_⟩
      · rw [hinput, hcomplete]
        rfl
      · rw [houtput, hcomplete]
        rfl
      · rw [hcalls, if_pos hfault]
        exact Option.some_ne_none 0

/-- A response the ledger accounts for carries the totals exactly if every completion was measured. -/
theorem carriesTotals_iff_measured {config : CompatibleConfig} {error : ExecutionError}
    {response : AdapterResponse} (hresponse : error.response = some response)
    (h : Accounted config seen response) :
    CarriesTotals seen error ↔ seen.all Reply.measured = true := by
  unfold CarriesTotals
  rw [hresponse]
  constructor
  · rintro ⟨⟨_, htokens, -⟩, -, -⟩
    by_contra hunmeasured
    obtain ⟨hnone, -⟩ := h.unmeasured (Bool.eq_false_iff.mpr hunmeasured)
    exact nomatch hnone.symm.trans htokens
  · intro hmeasured
    obtain ⟨hinput, houtput⟩ := h.measured hmeasured
    refine ⟨⟨_, hinput, Nat.le_add_right _ _⟩, ⟨_, houtput, Nat.le_add_right _ _⟩, ?_⟩
    rw [h.calls]
    exact Option.some_ne_none _

theorem all_measured_iff (husage : ∀ reply ∈ seen, reply.wellFormed = true → reply.usage?.isSome = true) :
    seen.all Reply.measured = true ↔ WellFormed seen := by
  have hformed : ∀ reply : Reply, reply.usage?.isSome = true → reply.wellFormed = true := by
    intro reply hsome
    cases reply with
    | answered status body =>
      simp only [Reply.usage?, Reply.wellFormed] at hsome ⊢
      split at hsome
      · rename_i hstatus
        cases hparse : parseCompletion body with
        | none =>
          rw [hparse] at hsome
          cases hsome
        | some =>
          rw [decide_eq_true hstatus]
          rfl
      · cases hsome
    | _ => exact absurd hsome Bool.false_ne_true
  rw [List.all_eq_true]
  refine forall₂_congr fun reply hreply => ?_
  rw [Reply.measured, Bool.or_eq_true, Bool.not_eq_true', ← Bool.not_eq_true, ← imp_iff_not_or]
  exact imp_congr_right fun _ => ⟨hformed reply, husage reply hreply⟩

section Totals

variable {config : CompatibleConfig} {endpoint : Endpoint} {rule : Option FaultRuleConfig} {error : ExecutionError}

/-- Where the error of a call that received a reply comes from: the middleware took the response for malformed, the adapter
    built it, or it passed through the adapter. -/
theorem compatibleUnder_error (hended : (compatibleUnder config endpoint rule).2 = .error (.execution error))
    (hseen : (compatibleUnder config endpoint rule).1.seen ≠ []) :
    (compatibleUnder config endpoint rule).1 = (adapterUnder config endpoint rule).exchange ∧
    ((∃ response, (adapterUnder config endpoint rule).ending = .ok response ∧ error.response = some response) ∨
      (adapterUnder config endpoint rule).ending = .error (.built error) ∨
      (adapterUnder config endpoint rule).ending = .error (.passed (.execution error))) := by
  have hplain (ran : Ran) (h : ran.adapterRun.ending = .error (.execution error)) :
      ran.ending = .error (.built error) ∨ ran.ending = .error (.passed (.execution error)) := by
    change ran.ending.mapError Raised.exception = _ at h
    cases hran : ran.ending with
    | ok =>
      rw [hran] at h
      cases h
    | error raised =>
      rw [hran] at h
      cases raised with
      | built built =>
        obtain rfl : built = error := AdapterException.execution.inj (Except.error.inj h)
        exact .inl rfl
      | passed exception =>
        obtain rfl : exception = .execution error := Except.error.inj h
        exact .inr rfl
  cases rule with
  | none => exact ⟨rfl, Or.inr (hplain _ hended)⟩
  | some rule =>
    unfold compatibleUnder at hended hseen ⊢
    generalize adapterUnder config endpoint (some rule) = ran at hended hseen ⊢
    cases hfault : rule.fault with
    | toolError =>
      simp only [hfault] at hended ⊢
      exact ⟨trivial, Or.inr (hplain ran hended)⟩
    | latency =>
      cases hsleeps : rule.sleeps with
      | false =>
        simp only [hfault, hsleeps] at hseen
        exact absurd rfl hseen
      | true =>
        simp only [hfault, faultsRun, hsleeps, if_true] at hended ⊢
        refine ⟨trivial, Or.inr (hplain ran ?_)⟩
        cases hending : ran.adapterRun.ending with
        | ok =>
          rw [hending] at hended
          cases hended
        | error =>
          rw [hending] at hended
          exact congrArg Except.error (Except.error.inj hended)
    | malformedResponse =>
      simp only [hfault, faultsRun] at hended ⊢
      refine ⟨trivial, ?_⟩
      cases hending : ran.adapterRun.ending with
      | ok response =>
        rw [hending] at hended
        have herror := AdapterException.execution.inj (Except.error.inj hended)
        refine .inl ⟨response, ?_, by rw [← herror]⟩
        change ran.ending.mapError Raised.exception = _ at hending
        cases hran : ran.ending with
        | ok =>
          rw [hran] at hending
          exact congrArg Except.ok (Except.ok.inj hending)
        | error =>
          rw [hran] at hending
          cases hending
      | error =>
        rw [hending] at hended
        exact .inr (hplain ran (hending.trans (congrArg Except.error (Except.error.inj hended))))
    | _ =>
      simp only [hfault] at hseen
      exact absurd rfl hseen

theorem adapterUnder_reports (config : CompatibleConfig) (endpoint : Endpoint) (rule : Option FaultRuleConfig) :
    Reports config (adapterUnder config endpoint rule) := (turns_spec (atHead_start config)).1

/-- Nothing outside the adapter keeps the measured tokens from the error of a call: every 200 response parses, the rule
    fails no tool that the lifecycle lets start, and an error that a tool or the lifecycle raises itself carries them. -/
structure Harmless (endpoint : Endpoint) (rule : Option FaultRuleConfig) (exchange : Exchange) : Prop where
  formed : WellFormed exchange.seen
  spared : ∀ r, rule = some r → r.fault = .toolError → ∀ tool ∈ exchange.started, endpoint.started tool = none →
    r.toolName ≠ "" ∧ r.toolName ≠ tool
  carried : ∀ raised, Raises endpoint exchange raised → CarriesTotals exchange.seen raised

theorem not_carriesTotals_injected (seen : List Reply) (rule : FaultRuleConfig) :
    ¬CarriesTotals seen (injectedToolError rule) :=
  fun h => nomatch h.1

/-- A failing lifecycle raises what it raised before, and its own error at a tool that would have started. -/
theorem raises_failing_iff {rule : FaultRuleConfig} {exchange : Exchange} {raised : ExecutionError} :
    Raises (endpoint.failing rule) exchange raised ↔
      Raises endpoint exchange raised ∨
      raised = injectedToolError rule ∧ ∃ tool ∈ exchange.started, endpoint.started tool = none ∧
        (rule.toolName = "" ∨ rule.toolName = tool) := by
  have hstarted (tool : String) : (endpoint.failing rule).started tool = some (.execution raised) ↔
      endpoint.started tool = some (.execution raised) ∨
      raised = injectedToolError rule ∧ endpoint.started tool = none ∧ (rule.toolName = "" ∨ rule.toolName = tool) := by
    change (endpoint.started tool).or _ = _ ↔ _
    cases endpoint.started tool with
    | some => simp
    | none =>
      by_cases hmatch : rule.toolName = "" ∨ rule.toolName = tool
      · simp [hmatch, @eq_comm _ raised]
      · simp [hmatch]
  constructor
  · rintro (⟨tool, htool, hraised⟩ | hcalled)
    · rcases (hstarted tool).mp hraised with hraised | ⟨rfl, hnone, hmatch⟩
      · exact .inl (Or.inl ⟨tool, htool, hraised⟩)
      · exact .inr ⟨rfl, tool, htool, hnone, hmatch⟩
    · exact .inl (Or.inr hcalled)
  · rintro ((⟨tool, htool, hraised⟩ | hcalled) | ⟨rfl, tool, htool, hnone, hmatch⟩)
    · exact .inl ⟨tool, htool, (hstarted tool).mpr (Or.inl hraised)⟩
    · exact .inr hcalled
    · exact .inl ⟨tool, htool, (hstarted tool).mpr (Or.inr ⟨rfl, hnone, hmatch⟩)⟩

/-- What the adapter's run raises under the rule carries the totals exactly if the rule fails no tool and what is raised
    without it carries them. -/
theorem harmless_iff {exchange : Exchange} :
    Harmless endpoint rule exchange ↔
      WellFormed exchange.seen ∧
      ∀ raised, Raises (endpoint.under rule) exchange raised → CarriesTotals exchange.seen raised := by
  cases rule with
  | none => exact ⟨fun h => ⟨h.formed, h.carried⟩, fun h => ⟨h.1, nofun, h.2⟩⟩
  | some r =>
    by_cases hfault : r.fault = .toolError
    · rw [Endpoint.under, if_pos hfault]
      constructor
      · rintro ⟨hformed, hspared, hcarried⟩
        refine ⟨hformed, fun raised hraises => ?_⟩
        rcases raises_failing_iff.mp hraises with hraises | ⟨-, tool, htool, hnone, hmatch⟩
        · exact hcarried raised hraises
        · obtain ⟨hany, hother⟩ := hspared r rfl hfault tool htool hnone
          exact absurd hmatch (not_or.mpr ⟨hany, hother⟩)
      · rintro ⟨hformed, hcarried⟩
        refine ⟨hformed, fun r' hr' _ tool htool hnone => not_or.mp fun hmatch => ?_, fun raised hraises => ?_⟩
        · cases hr'
          exact not_carriesTotals_injected _ r
            (hcarried _ (raises_failing_iff.mpr (Or.inr ⟨rfl, tool, htool, hnone, hmatch⟩)))
        · exact hcarried raised (raises_failing_iff.mpr (Or.inl hraises))
    · rw [Endpoint.under, if_neg hfault]
      refine ⟨fun h => ⟨h.formed, h.carried⟩, fun h => ⟨h.1, fun r' hr' htool => ?_, h.2⟩⟩
      cases hr'
      exact absurd htool hfault

/-- **Measured tokens are kept** by a call that fails after some completions with usage exactly if nothing outside the
    adapter drops them: no later completion is malformed, no tool is failed by the rule, and no tool and no lifecycle
    raises an error of its own that does not carry them. -/
theorem measured_tokens_iff {number : Nat} {latencyMS : ℚ≥0}
    (hended : (compatibleUnder config endpoint rule).2 = .error (.execution error))
    (hsome : ∃ reply ∈ (compatibleUnder config endpoint rule).1.seen, reply.wellFormed = true)
    (husage : ∀ reply ∈ (compatibleUnder config endpoint rule).1.seen,
      reply.wellFormed = true → reply.usage?.isSome = true) :
    KeepsTotals (compatibleUnder config endpoint rule).1.seen
        (invokeAttempt number latencyMS (compatibleUnder config endpoint rule).1.started (.error error)) ↔
      Harmless endpoint rule (compatibleUnder config endpoint rule).1 := by
  obtain ⟨_, hreply, -⟩ := hsome
  obtain ⟨hexchange, horigin⟩ := compatibleUnder_error hended (List.ne_nil_of_mem hreply)
  have hblamed : Blamed (endpoint.under rule) (adapterUnder config endpoint rule) := run_blamed config _
  rw [keepsTotals_iff, harmless_iff, hexchange]
  rw [hexchange] at husage
  have hbuilt (hnot : ∀ raised, (adapterUnder config endpoint rule).ending ≠ .error (.passed (.execution raised)))
      (response : AdapterResponse) (hresponse : error.response = some response)
      (haccounted : Accounted config (adapterUnder config endpoint rule).exchange.seen response) :
      CarriesTotals (adapterUnder config endpoint rule).exchange.seen error ↔
        WellFormed (adapterUnder config endpoint rule).exchange.seen ∧
        ∀ raised, Raises (endpoint.under rule) (adapterUnder config endpoint rule).exchange raised →
          CarriesTotals (adapterUnder config endpoint rule).exchange.seen raised := by
    rw [carriesTotals_iff_measured hresponse haccounted, all_measured_iff husage]
    refine ⟨fun h => ⟨h, fun raised hraises => ?_⟩, fun h => h.1⟩
    exact absurd ((hblamed.raises raised).mp hraises) (hnot raised)
  have hreports := adapterUnder_reports config endpoint rule
  unfold Reports at hreports
  rcases horigin with ⟨response, hok, hresponse⟩ | hmade | hpassed
  · rw [hok] at hreports
    exact hbuilt (fun _ h => nomatch hok.symm.trans h) response hresponse hreports
  · rw [hmade] at hreports
    obtain ⟨response, hresponse, haccounted, -⟩ := hreports.reported
    exact hbuilt (fun _ h => nomatch Except.error.inj (hmade.symm.trans h)) response hresponse haccounted
  · -- the error that passed is the one error that was raised
    refine ⟨fun h => ⟨hblamed.formed error hpassed, fun raised hraises => ?_⟩, fun h => ?_⟩
    · have hsame := Except.error.inj (hpassed.symm.trans ((hblamed.raises raised).mp hraises))
      exact AdapterException.execution.inj (Raised.passed.inj hsame) ▸ h
    · exact h.2 error ((hblamed.raises error).mpr hpassed)

end Totals

def FaultRuleConfig.failTool : FaultRuleConfig := { name := "tools", fault := .toolError, probability := 1 }

/-- The tool that is asked for is the one that fails. -/
theorem compatibleUnder_refines_failTool :
    let called := compatibleUnder .searching .searching (some .failTool)
    (called.1.started, called.2) = faultsRun (some .failTool) (compatibleRun .searching .searching).adapterRun ∧
      called.1.started = ["search"] :=
  ⟨compatibleUnder_refines rfl (some .failTool), by rfl⟩

theorem searches_wellFormed : Reply.searches.wellFormed = true := by rfl

theorem searches_usage? : Reply.searches.usage? = some (10, 5) := by rfl

/-- The tool fails by itself: the adapter reports what it has measured. -/
theorem measured_tokens_toolError :
    KeepsTotals (compatibleUnder .searching .searching none).1.seen
      (invokeAttempt 1 fiveMillis (compatibleUnder .searching .searching none).1.started
        (.error (Ledger.error { modelCalls := 1, inputTokens := 10, outputTokens := 5 } .toolError true .tool .tool))) := by
  have hseen : (compatibleUnder .searching .searching none).1.seen = [.searches] := by rfl
  have hended : (compatibleUnder .searching .searching none).2 = .error (.execution
      (Ledger.error { modelCalls := 1, inputTokens := 10, outputTokens := 5 } .toolError true .tool .tool)) := by rfl
  have hall : ∀ reply ∈ (compatibleUnder .searching .searching none).1.seen, reply = .searches := by
    rw [hseen]
    exact fun reply hreply => List.mem_singleton.mp hreply
  refine (measured_tokens_iff hended ⟨.searches, ?_, searches_wellFormed⟩ fun reply hreply _ => ?_).mpr
    ⟨fun reply hreply _ => ?_, nofun, fun raised hraises => ?_⟩
  · rw [hseen]
    exact List.mem_singleton.mpr rfl
  · rw [hall reply hreply, searches_usage?]
    rfl
  · rw [hall reply hreply, searches_wellFormed]
  · -- the lifecycle raises nothing, and the tool no `ExecutionError`
    rcases hraises with ⟨_, -, hraised⟩ | ⟨_, -, hraised⟩ <;> cases hraised

/-- The lifecycle fails the tool: its error says nothing of the fifteen tokens. -/
theorem measured_tokens_failTool :
    let called := compatibleUnder .searching .searching (some .failTool)
    called.2 = .error (.execution (injectedToolError .failTool)) ∧
    called.1.seen = [.searches] ∧ Reply.searches.wellFormed = true ∧ Reply.searches.usage? = some (10, 5) ∧
    ¬KeepsTotals called.1.seen
      (invokeAttempt 1 fiveMillis called.1.started (.error (injectedToolError .failTool))) := by
  refine ⟨by rfl, by rfl, searches_wellFormed, searches_usage?, fun hkeeps => ?_⟩
  obtain ⟨_, htokens, -⟩ := hkeeps.input
  have hnone : (invokeAttempt 1 fiveMillis (compatibleUnder .searching .searching (some .failTool)).1.started
      (.error (injectedToolError .failTool))).inputTokens = none := rfl
  exact nomatch hnone.symm.trans htokens

end AgentStorm.Worker
