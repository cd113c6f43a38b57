/-
A bundle on its way to the fake substrate (`_bundle_requests` of `mininet_ai/agents/bounded.py`,
`_bounded_proposal` of `mininet_ai/capabilities/engine.py` and `SubstrateActionProvider` of
`mininet_ai/capabilities/adapters.py`).

A step that is executed is recorded with every field as the bundle has it, but for the timeout,
which is cut to the action timeout of the agent. The inspection compares the timeout too, so what
has been executed is found to be wrong when it was cut.
-/
import Mathlib.Data.List.Indexes
import MininetAi.Agents.BoundedRun
import MininetAi.Capabilities.EngineContract
import MininetAi.Lib.IntegerText
import MininetAi.Substrates.FakeRuntime

set_option autoImplicit false

namespace MininetAi

open List

/-! ## Requests -/

/-- The request of a step, as the bounded agent builds it. -/
def bundle_request (index : ℕ) (step : BundleStep) : ActionRequest where
  id := "bounded-" ++ toString (index + 1)
  name := step.capability
  target := step.target
  parameters := step.arguments

def bundle_requests (bundle : List BundleStep) : List ActionRequest := bundle.mapIdx bundle_request

/-- The timeout of a proposal that is given none. -/
def default_timeout : ℚ := 30

/-! ## The path of a proposal -/

/-- An engine whose providers are `SubstrateActionProvider`s of a fake substrate, for an agent with an
action timeout. What a rollback returns, and what it does to the substrate, may be anything. -/
structure FakePath where
  catalog : CompiledCatalog
  providers : List String
  schema : JsonValue → OutputValue → SchemaVerdict
  verifier : Option (ℕ → Polling)
  rollback : ScopedAgentContext → ActionProposal → ReturnedOutcome → Except RaisedException RawOutcome
  undone : FakeSubstrateRuntime → FakeSubstrateRuntime
  action_timeout : ℚ
  action_timeout_is_positive : 0 < action_timeout

namespace FakePath

variable (path : FakePath)

/-- The timeout of a proposal behind `_bounded_proposal`. -/
def bounded_timeout : ℚ := min default_timeout path.action_timeout

/-- The request of a proposal. -/
def request (capability : DeclaredCapability) (proposal : ActionProposal) : ActionRequest where
  id := proposal.id
  name := capability.name
  target := proposal.target
  parameters := proposal.arguments
  timeout_seconds := path.bounded_timeout

/-- The result of the fake substrate. -/
def action_result (run_id : String) (request : ActionRequest) : CapabilityResult where
  run_id := run_id
  request_id := request.id
  status := .succeeded
  changed := true
  effects := .changed
  output := some [("action", .str request.name), ("target", .str request.target), ("parameters", .obj request.parameters)]
  issue_matches_status := success_has_no_issue

/-- `CapabilityProviderError(str(error), code=error.code)`. -/
def provider_error (e : RaisedError) : RaisedException :=
  .mk (.capability_provider_error .failed) "CapabilityProviderError" (some e.code) (.ok e.text)

/-- `SubstrateActionProvider`. -/
def provider (runtime : FakeSubstrateRuntime) (capability : DeclaredCapability) : CapabilityProvider where
  execute context proposal :=
    match runtime.execute context.run_id (path.request capability proposal) with
    | .error e => .error (provider_error e)
    | .ok _ => .ok (.result { action_result context.run_id (path.request capability proposal) with })
  rollback := some path.rollback

/-- The engine over a state of the substrate. -/
def engine (runtime : FakeSubstrateRuntime) : CapabilityEngine where
  catalog := path.catalog
  plugins := path.providers.map fun name => (name, fun capability => .provider (path.provider runtime capability))
  schema := path.schema
  verifier := path.verifier

/-- What a call of the provider does to the substrate. -/
def after_call (context : ScopedAgentContext) (proposal : ActionProposal) (capability : DeclaredCapability)
    (runtime : FakeSubstrateRuntime) : ProviderCall → FakeSubstrateRuntime
  | .execute => (runtime.execute context.run_id (path.request capability proposal)).toOption.getD runtime
  | .rollback => path.undone runtime

/-- The substrate behind an execution. -/
def after (context : ScopedAgentContext) (proposal : ActionProposal) (runtime : FakeSubstrateRuntime) : FakeSubstrateRuntime :=
  match (path.engine runtime).admit_request context proposal with
  | .error _ => runtime
  | .ok admitted =>
    ((path.engine runtime).execute context proposal).calls.foldl (path.after_call context proposal admitted.2) runtime

end FakePath

/-- A step is executed, and succeeds. -/
structure StepExecuted (path : FakePath) (context : ScopedAgentContext) (index : ℕ) (step : BundleStep)
    (runtime left : FakeSubstrateRuntime) : Prop where
  succeeded : ∃ result, ((path.engine runtime).execute context (bounded_proposal index step)).result = .ok result ∧
    result.status = .succeeded
  behind : left = path.after context (bounded_proposal index step) runtime

/-- Steps are executed one after the other, and succeed. -/
inductive BundleExecuted (path : FakePath) (context : ScopedAgentContext) (runtime : FakeSubstrateRuntime) :
    List BundleStep → FakeSubstrateRuntime → Prop where
  | nothing : BundleExecuted path context runtime [] runtime
  | step {steps : List BundleStep} {step : BundleStep} {reached left : FakeSubstrateRuntime}
      (before : BundleExecuted path context runtime steps reached)
      (last : StepExecuted path context steps.length step reached left) :
      BundleExecuted path context runtime (steps ++ [step]) left

/-! ## What is recorded -/

section Recorded

variable {path : FakePath} {context : ScopedAgentContext} {runtime left : FakeSubstrateRuntime}

/-- The request of a step that is executed. -/
def FakePath.executed_request (path : FakePath) (index : ℕ) (step : BundleStep) : ActionRequest :=
  { bundle_request index step with timeout_seconds := path.bounded_timeout }

variable {proposal : ActionProposal} {capability : DeclaredCapability} {engine : CapabilityEngine}

theorem authorize_name {definition : AgentExecutionDefinition}
    (h : CapabilityEngine.authorize definition context proposal = .ok capability) :
    capability.name = proposal.capability := by
  rw [CapabilityEngine.authorize] at h
  cases hfind : definition.capabilities.reverse.find? fun item => item.name = proposal.capability with
  | none =>
    rw [hfind] at h
    cases h
  | some found =>
    rw [hfind] at h
    obtain ⟨_, -, h⟩ := Except.bind_ok_iff.mp h
    obtain ⟨_, -, h⟩ := Except.bind_ok_iff.mp h
    obtain ⟨_, -, h⟩ := Except.bind_ok_iff.mp h
    obtain ⟨_, -, h⟩ := Except.bind_ok_iff.mp h
    rw [← Except.ok.inj h]
    have hname := find?_some hfind
    exact of_decide_eq_true hname

theorem admitted_name {admitted : AgentExecutionDefinition × DeclaredCapability}
    (h : engine.admit_request context proposal = .ok admitted) :
    admitted.2.name = proposal.capability := by
  obtain ⟨definition, -, h⟩ := Except.bind_ok_iff.mp h
  obtain ⟨capability, hcapability, h⟩ := Except.bind_ok_iff.mp h
  obtain ⟨_, -, h⟩ := Except.bind_ok_iff.mp h
  obtain ⟨_, -, h⟩ := Except.bind_ok_iff.mp h
  rw [← Except.ok.inj h]
  exact authorize_name (CapabilityEngine.raising_ok_iff.mp hcapability)

/-- Every provider of the engine is that of the substrate. -/
theorem FakePath.create_provider {found : CapabilityProvider}
    (h : (path.engine runtime).create_provider capability = .ok found) :
    found = path.provider runtime capability := by
  rw [CapabilityEngine.create_provider] at h
  cases hname : capability.provider with
  | none =>
    rw [hname] at h
    cases h
  | some name =>
    rw [hname] at h
    cases hfactory : (path.engine runtime).plugins.lookup name with
    | none =>
      simp only [hfactory] at h
      cases h
    | some factory =>
      have hsame : factory = fun capability => .provider (path.provider runtime capability) := by
        obtain ⟨before, after, hplugins, -⟩ := List.lookup_eq_some_iff.mp hfactory
        have hmem : (name, factory) ∈ (path.engine runtime).plugins := by
          rw [hplugins]
          exact mem_append_right _ mem_cons_self
        obtain ⟨_, -, hentry⟩ := mem_map.mp hmem
        exact (Prod.mk.inj hentry).2.symm
      rw [hsame] at hfactory
      simp only [hfactory] at h
      exact (Except.ok.inj h).symm

/-- An execution that succeeds has called the provider once, and the call has returned. -/
theorem execute_succeeded {result : CapabilityResult}
    (h : (engine.execute context proposal).result = .ok result)
    (hsucceeded : result.status = .succeeded) :
    ∃ admitted found raw, engine.admit_request context proposal = .ok admitted ∧
      engine.create_provider admitted.2 = .ok found ∧ found.execute context proposal = .ok raw ∧
      (engine.execute context proposal).calls = [.execute] := by
  have hreport : ∀ e, CapabilityEngine.report context proposal e ≠ .ok result := fun e hreported =>
    (CapabilityEngine.report_ok hreported).2.2 hsucceeded
  rw [CapabilityEngine.execute] at h ⊢
  cases hadmitted : engine.admit_request context proposal with
  | error e =>
    rw [hadmitted] at h
    exact absurd h (hreport e)
  | ok admitted =>
    obtain ⟨definition, capability⟩ := admitted
    rw [hadmitted] at h
    simp only at h ⊢
    cases hfound : engine.create_provider capability with
    | error e =>
      rw [hfound] at h
      exact absurd h (hreport e)
    | ok found =>
      rw [hfound] at h
      simp only at h ⊢
      cases hreply : found.execute context proposal >>= engine.read_reply capability context proposal with
      | error e =>
        rw [hreply] at h
        exact absurd h (hreport e)
      | ok reply =>
        obtain ⟨raw, hraw, hread⟩ := Except.bind_ok_iff.mp hreply
        rw [hreply] at h
        refine ⟨_, found, raw, rfl, hfound, hraw, ?_⟩
        rcases CapabilityEngine.read_reply_cases hread with ⟨r, rfl, -, -, hfails⟩ | ⟨outcome, rfl, -⟩
        · rfl
        · simp only at h ⊢
          cases hbuilt : CapabilityEngine.result_to_verify context proposal raw.as_result outcome with
          | error e => rfl
          | ok built =>
            rw [hbuilt] at h
            -- what succeeds is verified, so nothing is rolled back
            have hspec := @CapabilityEngine.verify_effect_spec engine definition capability found context proposal outcome
              built
            rcases hspec.calls with hnone | ⟨-, hverifies, hnot, -⟩
            · exact congrArg (List.cons ProviderCall.execute) hnone
            · exact absurd (hspec.verified result h hsucceeded hverifies) hnot

/-- A step that is executed is recorded. -/
theorem StepExecuted.records {index : ℕ} {step : BundleStep} (h : StepExecuted path context index step runtime left) :
    runtime.execute context.run_id (path.executed_request index step) = .ok left := by
  obtain ⟨⟨result, hresult, hsucceeded⟩, hbehind⟩ := h
  obtain ⟨admitted, found, raw, hadmitted, hfound, hraw, hcalls⟩ := execute_succeeded hresult hsucceeded
  have hrequest : path.request admitted.2 (bounded_proposal index step) = path.executed_request index step := by
    rw [FakePath.request, admitted_name hadmitted]
    rfl
  rw [FakePath.create_provider hfound, FakePath.provider] at hraw
  simp only [hrequest] at hraw
  cases hexecute : runtime.execute context.run_id (path.executed_request index step) with
  | error e =>
    rw [hexecute] at hraw
    cases hraw
  | ok reached =>
    rw [hbehind, FakePath.after, hadmitted]
    simp only [hcalls, foldl_cons, foldl_nil, FakePath.after_call, hrequest, hexecute]
    rfl

/-- What a bundle that is executed leaves: its requests are recorded, with the timeout of the agent. -/
theorem BundleExecuted.records {steps : List BundleStep} (h : BundleExecuted path context runtime steps left) :
    left.runs = runtime.runs ∧
      left.recorded context.run_id = runtime.recorded context.run_id ++ steps.mapIdx path.executed_request := by
  induction h with
  | nothing => exact ⟨rfl, by rw [mapIdx_nil, append_nil]⟩
  | step before last ih =>
    obtain ⟨hruns, hrecorded⟩ := FakeSubstrateRuntime.execute_ok last.records
    refine ⟨hruns.trans ih.1, ?_⟩
    rw [hrecorded, ih.2, mapIdx_concat, append_assoc]

end Recorded

/-! ## What is found -/

/-- The steps of a bundle have cookies, if any, and matches that differ pairwise. -/
structure DistinctSteps (bundle : List BundleStep) : Prop where
  cookies : ∀ (i j : ℕ) (step other : BundleStep), bundle[i]? = some step → bundle[j]? = some other → i ≠ j →
    py_get step.arguments "cookie" ≠ .null →
    (py_get other.arguments "cookie").py_eq (py_get step.arguments "cookie") = false
  match_fields : ∀ (i j : ℕ) (step other : BundleStep), bundle[i]? = some step → bundle[j]? = some other → i ≠ j →
    (py_get other.arguments "match").py_eq (py_get step.arguments "match") = false

section Found

variable {path : FakePath} {bundle : List BundleStep}

variable {i : ℕ} {step : BundleStep}

theorem DistinctSteps.not_for_step (h : DistinctSteps bundle) {j : ℕ} {other : BundleStep}
    (hi : bundle[i]? = some step) (hj : bundle[j]? = some other) (hne : i ≠ j) :
    ¬ FakeSubstrateRuntime.ForStep (bundle_request i step) (path.executed_request j other) := by
  rintro ⟨-, -, ⟨hcookie, hsame⟩ | hsame⟩
  · have hother := h.cookies i j step other hi hj hne hcookie
    exact Bool.noConfusion (hsame.symm.trans hother)
  · have hother := h.match_fields i j step other hi hj hne
    exact Bool.noConfusion (hsame.symm.trans hother)

theorem for_step_self (h : JsonValue.KeyedFields step.arguments) :
    FakeSubstrateRuntime.ForStep (bundle_request i step) (path.executed_request i step) :=
  ⟨rfl, rfl, Or.inr (h.py_get "match").py_eq_self⟩

/-- A record is exact when the timeout has not been cut. -/
theorem exact_self_iff (h : (JsonValue.obj step.arguments).Keyed) :
    FakeSubstrateRuntime.Exact (bundle_request i step) (path.executed_request i step) ↔
      default_timeout ≤ path.action_timeout := by
  constructor
  · rintro ⟨-, -, -, htimeout⟩
    exact min_eq_left_iff.mp htimeout
  · exact fun htimeout => ⟨rfl, rfl, h.py_eq_self, min_eq_left htimeout⟩

theorem mem_executed_iff {k : ℕ} {item : ActionRequest} :
    item ∈ (bundle.take k).mapIdx path.executed_request ↔
      ∃ j step, j < k ∧ bundle[j]? = some step ∧ item = path.executed_request j step := by
  rw [mem_mapIdx]
  constructor
  · rintro ⟨j, hj, rfl⟩
    rw [length_take, lt_min_iff] at hj
    exact ⟨j, bundle[j], hj.1, getElem?_eq_getElem hj.2, by rw [getElem_take]⟩
  · rintro ⟨j, step, hj, hstep, rfl⟩
    obtain ⟨hlength, rfl⟩ := List.getElem?_eq_some_iff.mp hstep
    exact ⟨j, by rw [length_take, lt_min_iff]; exact ⟨hj, hlength⟩, by rw [getElem_take]⟩

/-- What the inspection says of a step when the first steps are recorded. -/
theorem state_of_step (hdistinct : DistinctSteps bundle)
    (hkeyed : ∀ step ∈ bundle, (JsonValue.obj step.arguments).Keyed) (hi : bundle[i]? = some step)
    (k : ℕ) :
    FakeSubstrateRuntime.step_state ((bundle.take k).mapIdx path.executed_request) (bundle_request i step) =
      if i < k then if default_timeout ≤ path.action_timeout then "present" else "wrong" else "missing" := by
  by_cases hk : i < k
  · rw [if_pos hk, FakeSubstrateRuntime.step_state_found (mem_executed_iff.mpr ⟨i, step, hk, hi, rfl⟩)]
    · simp only [exact_self_iff (hkeyed step (mem_of_getElem? hi))]
    · intro item hitem
      obtain ⟨j, other, -, hj, rfl⟩ := mem_executed_iff.mp hitem
      by_cases hsame : i = j
      · subst hsame
        rw [Option.some.inj (hj.symm.trans hi)]
        exact iff_of_true (for_step_self (hkeyed step (mem_of_getElem? hi)).2) rfl
      · refine iff_of_false (hdistinct.not_for_step hi hj hsame) fun heq => ?_
        have hself : FakeSubstrateRuntime.ForStep (bundle_request i step) (path.executed_request i step) :=
          for_step_self (hkeyed step (mem_of_getElem? hi)).2
        exact hdistinct.not_for_step hi hj hsame (heq ▸ hself)
  · rw [if_neg hk]
    refine FakeSubstrateRuntime.step_state_missing fun item hitem => ?_
    obtain ⟨j, other, hj, hother, rfl⟩ := mem_executed_iff.mp hitem
    have hne : i ≠ j := by omega
    refine ⟨hdistinct.not_for_step hi hother hne, fun hid => hne ?_⟩
    have hnumber : toString (j + 1) = toString (i + 1) := by
      have hlists := congrArg String.toList hid
      simp only [FakePath.executed_request, bundle_request, String.toList_append] at hlists
      exact String.ext (append_cancel_left hlists)
    have hsucc := Text.toString_inj hnumber
    omega

/-- What is found of a bundle of which the first steps have been executed, in a run that nothing else is
recorded of: exactly these steps are present, unless one was executed and its timeout was cut. -/
theorem executed_steps_found_iff {context : ScopedAgentContext} {runtime left : FakeSubstrateRuntime} {run : FakeRun} {k : ℕ}
    (hdistinct : DistinctSteps bundle) (hkeyed : ∀ step ∈ bundle, (JsonValue.obj step.arguments).Keyed)
    (hrunning : runtime.require_running context.run_id = .ok run) (hfresh : runtime.recorded context.run_id = [])
    (hk : k ≤ bundle.length) (hexecuted : BundleExecuted path context runtime (bundle.take k) left) :
    left.inspect_scenario_actions context.run_id (bundle_requests bundle) =
        .ok (replicate k "present" ++ replicate (bundle.length - k) "missing") ↔
      k = 0 ∨ default_timeout ≤ path.action_timeout := by
  obtain ⟨hruns, hrecorded⟩ := hexecuted.records
  have hleft : left.require_running context.run_id = .ok run := by
    rw [FakeSubstrateRuntime.require_running_ok_iff, hruns]
    exact FakeSubstrateRuntime.require_running_ok_iff.mp hrunning
  rw [FakeSubstrateRuntime.inspect_running hleft, hrecorded, hfresh, nil_append, Except.ok.injEq]
  have hstate : ∀ i step, bundle[i]? = some step →
      ((bundle_requests bundle).map (FakeSubstrateRuntime.step_state ((bundle.take k).mapIdx path.executed_request)))[i]? =
        some (if i < k then if default_timeout ≤ path.action_timeout then "present" else "wrong" else "missing") := by
    intro i step hi
    rw [getElem?_map, bundle_requests, getElem?_mapIdx, hi, Option.map_some, Option.map_some,
      state_of_step hdistinct hkeyed hi]
  constructor
  · intro h
    rcases Nat.eq_zero_or_pos k with hzero | hpos
    · exact Or.inl hzero
    · refine Or.inr (not_not.mp fun hcut => ?_)
      obtain ⟨step, hstep⟩ : ∃ step, bundle[0]? = some step :=
        ⟨_, getElem?_eq_getElem (show 0 < bundle.length by omega)⟩
      have hfirst := hstate 0 step hstep
      rw [h, getElem?_append_left (by rw [length_replicate]; exact hpos), getElem?_replicate_of_lt hpos,
        if_pos hpos, if_neg hcut] at hfirst
      exact absurd (Option.some.inj hfirst) (by decide)
  · intro h
    refine ext_getElem? fun i => ?_
    cases hi : bundle[i]? with
    | none =>
      have hlength := List.getElem?_eq_none_iff.mp hi
      rw [getElem?_eq_none, getElem?_eq_none]
      · rw [length_append, length_replicate, length_replicate]
        omega
      · rw [length_map, bundle_requests, length_mapIdx]
        exact hlength
    | some step =>
      obtain ⟨hlength, -⟩ := List.getElem?_eq_some_iff.mp hi
      rw [hstate i step hi]
      by_cases hik : i < k
      · have htimeout : default_timeout ≤ path.action_timeout := h.resolve_left (by omega)
        rw [if_pos hik, if_pos htimeout, getElem?_append_left (by rw [length_replicate]; exact hik),
          getElem?_replicate_of_lt hik]
      · rw [if_neg hik, getElem?_append_right (by rw [length_replicate]; omega), length_replicate,
          getElem?_replicate_of_lt (by omega)]

end Found

/-! ## One step -/

/-- A step that drops what comes in at a port. -/
def drop_bundle : List BundleStep :=
  [{ capability := "openflow.flow.install"
     target := "s1"
     arguments := [("cookie", .num 7), ("match", .obj [("in_port", .num 1)]), ("actions", .str "drop")] }]

/-- An agent that may install flows on a switch. -/
def flow_definition : AgentExecutionDefinition where
  agent :=
    { id := "a"
      deployment := "a"
      blueprint := "b"
      attachment :=
        { layer := .data
          custom_layer := none
          targets := ["s1"]
          target_kind := .switch
          runtime := "builtin" }
      capabilities := ["openflow.flow.install"] }
  blueprint := { name := "b" }
  capabilities :=
    [{ name := "openflow.flow.install", targets := [.switch], layers := ["data"], provider := some "substrate" }]
  require_postcondition_check := false

def flow_context : ScopedAgentContext where
  invocation_id := "i"
  run_id := "r"
  agent_id := "a"
  deployment := "a"
  layer := .data
  custom_layer := none
  target_kind := .switch
  targets := ["s1"]
  capabilities := ["openflow.flow.install"]
  intent := "recover"
  ids_nonempty := by decide
  custom_layer_given := by decide
  custom_layer_only := by decide
  targets_nonempty := by decide
  targets_unique := by decide
  capabilities_unique := by decide

/-- The path of this agent, with an action timeout. -/
def flow_path (action_timeout : ℚ) (h : 0 < action_timeout) : FakePath where
  catalog := { definitions := [flow_definition] }
  providers := ["substrate"]
  schema _ _ := .valid
  verifier := none
  rollback _ _ _ := .ok .other
  undone runtime := runtime
  action_timeout := action_timeout
  action_timeout_is_positive := h

/-- A run with one switch. -/
def switch_run : FakeRun where
  state := .running
  resources := ["s1"]

def running_substrate : FakeSubstrateRuntime where
  runs := AList.singleton "r" switch_run
  scenario_actions := ∅

/-- Whether an execution succeeds. -/
def succeeds (path : FakePath) (proposal : ActionProposal) : Bool :=
  ((path.engine running_substrate).execute flow_context proposal).result.toOption.any fun result => result.status = .succeeded

theorem drop_executed {path : FakePath} (h : drop_bundle.all fun step => succeeds path (bounded_proposal 0 step)) :
    ∃ left, BundleExecuted path flow_context running_substrate drop_bundle left := by
  obtain ⟨hsucceeds, -⟩ := forall_mem_cons.mp (all_eq_true.mp h)
  obtain ⟨result, hresult, hstatus⟩ := (Option.any_eq_true _ _).mp hsucceeds
  exact ⟨_, .step .nothing ⟨⟨result, Except.toOption_some_iff.mp hresult, of_decide_eq_true hstatus⟩, rfl⟩⟩

theorem drop_distinct : DistinctSteps drop_bundle := by
  have hone : ∀ (i j : ℕ) (step other : BundleStep), drop_bundle[i]? = some step → drop_bundle[j]? = some other → i = j := by
    intro i j step other hi hj
    obtain ⟨hi, -⟩ := List.getElem?_eq_some_iff.mp hi
    obtain ⟨hj, -⟩ := List.getElem?_eq_some_iff.mp hj
    have hlength : drop_bundle.length = 1 := rfl
    omega
  constructor
  · exact fun i j step other hi hj hne => absurd (hone i j step other hi hj) hne
  · exact fun i j step other hi hj hne => absurd (hone i j step other hi hj) hne

theorem drop_keyed : ∀ step ∈ drop_bundle, (JsonValue.obj step.arguments).Keyed := by
  intro step hstep
  rw [mem_singleton.mp hstep]
  exact ⟨by decide, True.intro, ⟨by decide, True.intro, True.intro⟩, True.intro, True.intro⟩

/-- The step is found when the agent has a minute for its actions. -/
theorem executed_step_found :
    ∃ left, BundleExecuted (flow_path 60 (by decide)) flow_context running_substrate drop_bundle left ∧
      left.inspect_scenario_actions "r" (bundle_requests drop_bundle) = .ok ["present"] := by
  obtain ⟨left, hexecuted⟩ := @drop_executed (flow_path 60 (by decide)) (by decide +kernel)
  refine ⟨left, hexecuted, ?_⟩
  exact (executed_steps_found_iff drop_distinct drop_keyed (FakeSubstrateRuntime.require_running_ok_iff.mpr ⟨rfl, rfl⟩) rfl
    le_rfl hexecuted).mpr (Or.inr (by decide))

/-- The step is executed, and is found to be wrong, when the agent has ten seconds for its actions. -/
theorem executed_step_wrong : DistinctSteps drop_bundle ∧
      ∃ left, BundleExecuted (flow_path 10 (by decide)) flow_context running_substrate drop_bundle left ∧
        left.inspect_scenario_actions "r" (bundle_requests drop_bundle) = .ok ["wrong"] := by
  obtain ⟨left, hexecuted⟩ := @drop_executed (flow_path 10 (by decide)) (by decide +kernel)
  obtain ⟨hruns, hrecorded⟩ := hexecuted.records
  refine ⟨drop_distinct, left, hexecuted, ?_⟩
  have hleft : left.require_running "r" = .ok switch_run := by
    rw [FakeSubstrateRuntime.require_running_ok_iff, hruns]
    exact ⟨rfl, rfl⟩
  have hactual : left.recorded "r" = drop_bundle.mapIdx (flow_path 10 (by decide)).executed_request := hrecorded
  rw [FakeSubstrateRuntime.inspect_running hleft, hactual, Except.ok.injEq]
  decide

end MininetAi
