/-
Resolution and authorization of a proposal (`_resolve` and `_authorize` in
`mininet_ai/capabilities/engine.py`), and their agreement with the compiler's grants.

The engine decides from three things: the context, which the runtime has built from the
definition of an instance; the definition, which the catalog has put together from the
plan; and the definition of the capability in the plan's snapshot. For a compiled plan
the first two repeat the instance, and the compiler has checked of each capability it
granted what the engine checks again, so of all checks only the two on the proposal
itself are left.
-/
import MininetAi.Agents.Context
import MininetAi.Compiler.CoordinationRunnable

set_option autoImplicit false

namespace MininetAi

open List Except

structure CapabilityError where
  status : ActionStatus
  code : String
  message : String
  deriving DecidableEq

def CapabilityError.reject (code message : String) : CapabilityError where
  status := .rejected
  code := code
  message := message

def CapabilityError.fail (code message : String) : CapabilityError where
  status := .failed
  code := code
  message := message

namespace CapabilityEngine

/-! ## The checks -/

/-- `set(a) == set(b)`. -/
def same_set (a b : List String) : Prop :=
  (∀ x ∈ a, x ∈ b) ∧ ∀ x ∈ b, x ∈ a

instance (a b : List String) : Decidable (same_set a b) :=
  inferInstanceAs (Decidable (_ ∧ _))

def resolve (catalog : CompiledCatalog) (context : ScopedAgentContext) :
    Except CapabilityError AgentExecutionDefinition :=
  match catalog.resolve context.agent_id with
  | .error e => .error (.reject e.code e.message)
  | .ok definition =>
    let attachment := definition.agent.attachment
    if context.deployment ≠ definition.agent.deployment ∨ context.layer ≠ attachment.layer ∨
        context.custom_layer ≠ attachment.custom_layer ∨
        context.target_kind ≠ attachment.target_kind ∨
        ¬ same_set context.targets attachment.targets ∨
        ¬ same_set context.capabilities definition.agent.capabilities then
      .error (.reject "capability.context.invalid"
        (worded "agent context for "
          [quoted context.agent_id, " does not match its compiled scope"]))
    else .ok definition

def authorize (definition : AgentExecutionDefinition) (context : ScopedAgentContext)
    (proposal : ActionProposal) : Except CapabilityError DeclaredCapability :=
  match definition.capabilities.reverse.find? fun item => item.name = proposal.capability with
  | none => .error (.reject "capability.not-assigned"
      (worded "capability "
        [quoted proposal.capability, " is not assigned to agent ", quoted context.agent_id]))
  | some capability => do
      let layer := layer_name context.layer context.custom_layer
      let missing_effects := sorted_set
        (capability.effects.filter fun effect => effect ∉ definition.agent.privileges)
      refuse_if (proposal.target ∉ definition.agent.attachment.targets)
        (.reject "capability.target.out-of-scope"
          (worded "target "
            [quoted proposal.target, " is outside agent ", quoted context.agent_id,
              "'s compiled scope"]))
      refuse_if (context.target_kind ∉ capability.targets)
        (.reject "capability.target-kind.denied"
          (worded "capability "
            [quoted proposal.capability, " cannot target ", quoted context.target_kind.value]))
      refuse_if (layer ∉ capability.layers)
        (.reject "capability.layer.denied"
          (worded "capability "
            [quoted proposal.capability, " is unavailable at layer ", quoted layer]))
      refuse_if (missing_effects ≠ [])
        (.reject "capability.effects.denied"
          (worded "agent "
            [quoted context.agent_id, " lacks compiled effects: ", ", ".intercalate missing_effects]))
      pure capability

/-! ## What passes -/

variable {context : ScopedAgentContext} {definition : AgentExecutionDefinition}

theorem resolve_ok {catalog : CompiledCatalog}
    (h : catalog.resolve context.agent_id = .ok definition) (hscope : ScopeOf definition context) :
    resolve catalog context = .ok definition := by
  rw [resolve, h]
  simp only
  refine if_neg ?_
  have hset : ∀ l : List String, same_set l l := fun l => ⟨fun _ hx => hx, fun _ hx => hx⟩
  rw [hscope.deployment_eq, hscope.layer_eq, hscope.custom_layer_eq, hscope.target_kind_eq,
    hscope.targets_eq, hscope.capabilities_eq]
  rintro (hne | hne | hne | hne | hne | hne)
  · exact hne rfl
  · exact hne rfl
  · exact hne rfl
  · exact hne rfl
  · exact hne (hset _)
  · exact hne (hset _)

/-- A definition whose capabilities pass every check on the capability itself. -/
structure AllGranted (definition : AgentExecutionDefinition) : Prop where
  names : ∀ name, name ∈ definition.agent.capabilities ↔
    ∃ capability ∈ definition.capabilities, capability.name = name
  granted : ∀ capability ∈ definition.capabilities,
    Granted (layer_name definition.agent.attachment.layer definition.agent.attachment.custom_layer)
      definition.agent.attachment.target_kind definition.agent.privileges capability

/-- Of such a definition only the two checks on the proposal are left. -/
theorem authorize_ok_iff (hall : AllGranted definition) (hscope : ScopeOf definition context)
    (proposal : ActionProposal) :
    (∃ capability, authorize definition context proposal = .ok capability) ↔
      proposal.capability ∈ definition.agent.capabilities ∧
        proposal.target ∈ definition.agent.attachment.targets := by
  unfold authorize
  cases hfind : definition.capabilities.reverse.find?
      (fun item => item.name = proposal.capability) with
  | none =>
    refine iff_of_false (fun ⟨_, h⟩ => by cases h) fun ⟨hname, _⟩ => ?_
    obtain ⟨capability, hmem, hname⟩ := (hall.names _).mp hname
    have hno := find?_eq_none.mp hfind capability (mem_reverse.mpr hmem)
    exact hno (decide_eq_true hname)
  | some capability =>
    have hmem := mem_reverse.mp (mem_of_find?_eq_some hfind)
    have hname := find?_some hfind
    have hcapability : proposal.capability ∈ definition.agent.capabilities :=
      (hall.names _).mpr ⟨capability, hmem, of_decide_eq_true hname⟩
    have hgranted := hall.granted capability hmem
    rw [and_iff_right hcapability]
    constructor
    · rintro ⟨found, h⟩
      obtain ⟨_, htarget, -⟩ := bind_ok_iff.mp h
      exact not_not.mp (refuse_if_ok_iff.mp htarget)
    · intro htarget
      have heffects : sorted_set (capability.effects.filter fun effect =>
          effect ∉ definition.agent.privileges) = [] := by
        refine eq_nil_iff_forall_not_mem.mpr fun effect heffect => ?_
        obtain ⟨hin, hout⟩ := mem_filter.mp (mem_sorted_set.mp heffect)
        exact of_decide_eq_true hout (hgranted.effects_allowed effect hin)
      refine ⟨capability, ?_⟩
      rw [hscope.layer_eq, hscope.custom_layer_eq, hscope.target_kind_eq]
      refine bind_ok_iff.mpr ⟨(), refuse_if_ok_iff.mpr (not_not.mpr htarget), ?_⟩
      refine bind_ok_iff.mpr
        ⟨(), refuse_if_ok_iff.mpr (not_not.mpr hgranted.target_kind_allowed), ?_⟩
      refine bind_ok_iff.mpr
        ⟨(), refuse_if_ok_iff.mpr (not_not.mpr hgranted.layer_allowed), ?_⟩
      exact bind_ok_iff.mpr ⟨(), refuse_if_ok_iff.mpr (not_not.mpr heffects), rfl⟩

end CapabilityEngine

/-! ## Compiled plans -/

variable {loaded : LoadedExperiment} {plan : DeploymentPlan} {agent : CompiledAgent}
  {definition : AgentExecutionDefinition}

/-- A compiled plan has a catalog. -/
theorem Compiled.catalog (h : Compiled loaded plan) :
    ∃ catalog, CompiledCatalog.build plan = .ok catalog := by
  have hblueprints := (h.blueprints_perm.map AgentBlueprint.name).nodup_iff.mpr h.blueprints_nodup
  have hcapabilities :=
    (h.capabilities_perm.map DeclaredCapability.name).nodup_iff.mpr h.capabilities_nodup
  have hmodels : CompiledCatalog.require_models plan.blueprints = .ok () :=
    CompiledCatalog.require_models_of_resolved fun blueprint hmem =>
      loaded.models_resolved blueprint (h.blueprints_perm.mem_iff.mp hmem)
  have hfound : ∃ definitions,
      CompiledCatalog.definitions_of plan plan.agents = .ok definitions :=
    CompiledCatalog.definitions_of_found
      (fun agent hagent => by
        obtain ⟨deployment, -, hok⟩ := h.instances_ok.each agent hagent
        exact (h.blueprints_perm.map _).mem_iff.mpr hok.blueprint_known)
      (fun agent hagent name hname => by
        obtain ⟨deployment, -, hok⟩ := h.instances_ok.each agent hagent
        obtain ⟨capability, hfind, -⟩ := hok.granted name hname
        have heq := find?_some hfind
        refine mem_map.mpr ⟨capability, ?_, of_decide_eq_true heq⟩
        exact h.capabilities_perm.mem_iff.mpr (mem_of_find?_eq_some hfind))
  obtain ⟨definitions, hdefinitions⟩ := hfound
  have hunseen : ∀ names : List String, ∀ name ∈ names, name ∉ ([] : List String) :=
    fun _ _ _ => not_mem_nil
  refine ⟨{ definitions := definitions }, bind_ok_iff.mpr ⟨_, hmodels, ?_⟩⟩
  refine bind_ok_iff.mpr
    ⟨_, refuse_repeats_of_nodup hblueprints (hunseen _), ?_⟩
  refine bind_ok_iff.mpr
    ⟨_, refuse_repeats_of_nodup hcapabilities (hunseen _), ?_⟩
  refine bind_ok_iff.mpr
    ⟨_, refuse_repeats_of_nodup h.instances_ok.ids_nodup (hunseen _), ?_⟩
  exact bind_ok_iff.mpr ⟨_, hdefinitions, rfl⟩

/-- The definition of a compiled instance has just the capabilities the compiler checked. -/
theorem Compiled.all_granted (h : Compiled loaded plan) (hagent : agent ∈ plan.agents)
    (hdefinition : CompiledCatalog.DefinitionOk plan agent definition) :
    CapabilityEngine.AllGranted definition := by
  obtain ⟨deployment, -, hok⟩ := h.instances_ok.each agent hagent
  have hnodup := (h.capabilities_perm.map DeclaredCapability.name).nodup_iff.mpr h.capabilities_nodup
  refine ⟨fun name => ?_, fun capability hmem => ?_⟩
  · rw [hdefinition.agent_eq, hdefinition.capabilities_eq]
    constructor
    · intro hname
      obtain ⟨capability, hfound⟩ := hdefinition.found name hname
      exact ⟨capability, mem_filterMap.mpr ⟨name, hname, hfound⟩,
        (CompiledCatalog.find_capability_name hfound).2⟩
    · rintro ⟨capability, hmem, rfl⟩
      obtain ⟨name, hname, hfound⟩ := mem_filterMap.mp hmem
      rw [(CompiledCatalog.find_capability_name hfound).2]
      exact hname
  · rw [hdefinition.capabilities_eq] at hmem
    obtain ⟨name, hname, hfound⟩ := mem_filterMap.mp hmem
    obtain ⟨hin, heq⟩ := CompiledCatalog.find_capability_name hfound
    -- the compiler has looked the name up in the unsorted definitions
    obtain ⟨checked, hfind, hgranted⟩ := hok.granted name hname
    have hchecked := h.capabilities_perm.mem_iff.mpr (mem_of_find?_eq_some hfind)
    have hname' := find?_some hfind
    have hsame := inj_on_of_nodup_map hnodup hin hchecked
      (heq.trans (of_decide_eq_true hname').symm)
    rw [hdefinition.agent_eq, hsame]
    exact hgranted

/-- The context of a compiled instance is valid, whatever the invocation. -/
theorem Compiled.context_valid (h : Compiled loaded plan) (hagent : agent ∈ plan.agents)
    (hdefinition : definition.agent = agent) {invocation : InvocationArguments}
    (hinvocation : invocation.invocation_id ≠ "") (hrun : invocation.run_id ≠ "")
    (hintent : invocation.intent ≠ "") : ContextValid definition invocation := by
  obtain ⟨deployment, -, hok⟩ := h.instances_ok.each agent hagent
  rw [← hdefinition] at hok
  have hname : definition.agent.deployment ≠ "" := by
    rw [hok.deployment_eq]
    exact deployment.name_nonempty
  refine ⟨⟨hinvocation, hrun, hok.id_nonempty, hname, hintent⟩, ?_, ?_, hok.targeted,
    hok.targets_nodup, hok.capabilities_nodup⟩
  · rw [hok.layer_eq, hok.custom_layer_eq]
    exact deployment.placement.custom_layer_given
  · rw [hok.layer_eq, hok.custom_layer_eq]
    exact deployment.placement.custom_layer_only

/-- Grants and authorization agree: every compiled instance resolves to a definition, every
invocation of it with an id, a run and an intent has a context, and with any context built
for it the engine lets a proposal pass exactly when the instance has its capability and is
attached to its target. -/
theorem grants_agree {driver : SubstrateDriver} {checks : ScenarioChecks}
    {loaded : LoadedExperiment} {plan : DeploymentPlan}
    (hplan : compile_experiment driver checks loaded = .ok plan) {agent : CompiledAgent}
    (hagent : agent ∈ plan.agents) :
    ∃ catalog definition, CompiledCatalog.build plan = .ok catalog ∧
      catalog.resolve agent.id = .ok definition ∧ definition.agent = agent ∧
      (∀ invocation : InvocationArguments, invocation.invocation_id ≠ "" → invocation.run_id ≠ "" →
        invocation.intent ≠ "" → ∃ context, agent_context definition invocation = some context) ∧
      ∀ invocation context, agent_context definition invocation = some context →
        ∀ proposal : ActionProposal,
          (∃ resolved capability, CapabilityEngine.resolve catalog context = .ok resolved ∧
              CapabilityEngine.authorize resolved context proposal = .ok capability) ↔
            proposal.capability ∈ agent.capabilities ∧
              proposal.target ∈ agent.attachment.targets := by
  have hcompiled := compile_experiment_ok hplan
  obtain ⟨catalog, hcatalog⟩ := hcompiled.catalog
  obtain ⟨definition, hresolve, hdefinition⟩ := CompiledCatalog.resolve_agent hcatalog hagent
  refine ⟨catalog, definition, hcatalog, hresolve, hdefinition.agent_eq, ?_, ?_⟩
  · intro invocation hinvocation hrun hintent
    exact agent_context_isSome
      (hcompiled.context_valid hagent hdefinition.agent_eq hinvocation hrun hintent)
  · intro invocation context hcontext proposal
    have hscope := agent_context_eq_some hcontext
    have hid : context.agent_id = agent.id := by rw [hscope.agent_id_eq, hdefinition.agent_eq]
    have hok : CapabilityEngine.resolve catalog context = .ok definition :=
      CapabilityEngine.resolve_ok (by rw [hid]; exact hresolve) hscope
    have hauthorize := CapabilityEngine.authorize_ok_iff
      (hcompiled.all_granted hagent hdefinition) hscope proposal
    rw [hdefinition.agent_eq] at hauthorize
    rw [← hauthorize]
    constructor
    · rintro ⟨resolved, capability, hresolved, h⟩
      rw [hok] at hresolved
      cases hresolved
      exact ⟨capability, h⟩
    · rintro ⟨capability, h⟩
      exact ⟨definition, capability, hok, h⟩

/-- A capability of hosts. -/
def probe_capability : DeclaredCapability where
  name := "probe"
  targets := [.host]
  layers := ["host"]
  effects := ["probe.sent"]

/-- The two hosts, with an agent on the first that may probe. -/
def one_prober : LoadedExperiment :=
  { two_agents [] with
    agents := [{ host_agent "a" "h1" name_a_nonempty with capabilities := ["probe"] }]
    capabilities := [probe_capability]
    coordination := {} }

/-- There is an instance on the first host with the capability. -/
def has_prober (plan : DeploymentPlan) : Bool :=
  plan.agents.any fun agent =>
    agent.capabilities = ["probe"] ∧ agent.attachment.targets = ["h1"]

/-- It may probe its own host and not the other. -/
theorem grants_agree_probe : ∃ plan agent catalog context,
      compile_experiment any_driver any_scenario one_prober = .ok plan ∧ agent ∈ plan.agents ∧
      CompiledCatalog.build plan = .ok catalog ∧
      (∃ resolved capability, CapabilityEngine.resolve catalog context = .ok resolved ∧
        CapabilityEngine.authorize resolved context
          { id := "1", capability := "probe", target := "h1" } = .ok capability) ∧
      ¬ ∃ resolved capability, CapabilityEngine.resolve catalog context = .ok resolved ∧
        CapabilityEngine.authorize resolved context
          { id := "2", capability := "probe", target := "h2" } = .ok capability := by
  have hcompiles : (compile_experiment any_driver any_scenario one_prober).toOption.any
      has_prober = true := by decide
  obtain ⟨plan, hplan, hprober⟩ := (Option.any_eq_true _ _).mp hcompiles
  have hok := toOption_some_iff.mp hplan
  obtain ⟨agent, hagent, hboth⟩ := any_eq_true.mp hprober
  obtain ⟨hcapabilities, htargets⟩ := of_decide_eq_true hboth
  obtain ⟨catalog, definition, hcatalog, -, -, hcontext, hpasses⟩ := grants_agree hok hagent
  obtain ⟨context, hcontext⟩ := hcontext
    { invocation_id := "i", run_id := "r", intent := "probe" } (by decide) (by decide) (by decide)
  have hiff := hpasses _ context hcontext
  rw [hcapabilities, htargets] at hiff
  refine ⟨plan, agent, catalog, context, hok, hagent, hcatalog, (hiff _).mpr (by decide), ?_⟩
  exact fun hpass => absurd ((hiff _).mp hpass) (by decide)

end MininetAi
