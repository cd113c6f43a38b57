/-
The context of an invocation (`AgentContext` in `mininet_ai/sdk/contracts.py`, `_context`
in `mininet_ai/agents/runtime.py`), with the scope that capabilities are checked against.

Observations, the coordination context and the clock reading are left out.
-/
import MininetAi.Sdk.Catalog

set_option autoImplicit false

namespace MininetAi

/-- An `AgentContext` with its scope. The last fields are what pydantic checks. -/
structure ScopedAgentContext extends AgentContext where
  layer : AttachmentLayer
  custom_layer : Option String
  target_kind : ResourceKind
  targets : List String
  capabilities : List String
  intent : String
  ids_nonempty : invocation_id ≠ "" ∧ run_id ≠ "" ∧ agent_id ≠ "" ∧ deployment ≠ "" ∧ intent ≠ ""
  custom_layer_given : layer = .custom → custom_layer ≠ none
  custom_layer_only : layer ≠ .custom → custom_layer = none
  targets_nonempty : targets ≠ []
  targets_unique : targets.Nodup
  capabilities_unique : capabilities.Nodup

/-- What the context of an invocation is built from, besides the definition. -/
structure InvocationArguments where
  invocation_id : String
  run_id : String
  intent : String
  shared_state : SharedStateSnapshot := {}

/-- What pydantic checks of a context of the definition. -/
structure ContextValid (definition : AgentExecutionDefinition) (invocation : InvocationArguments) :
    Prop where
  ids_nonempty : invocation.invocation_id ≠ "" ∧ invocation.run_id ≠ "" ∧ definition.agent.id ≠ "" ∧
    definition.agent.deployment ≠ "" ∧ invocation.intent ≠ ""
  custom_layer_given : definition.agent.attachment.layer = .custom →
    definition.agent.attachment.custom_layer ≠ none
  custom_layer_only : definition.agent.attachment.layer ≠ .custom →
    definition.agent.attachment.custom_layer = none
  targets_nonempty : definition.agent.attachment.targets ≠ []
  targets_unique : definition.agent.attachment.targets.Nodup
  capabilities_unique : definition.agent.capabilities.Nodup

variable {definition : AgentExecutionDefinition} {invocation : InvocationArguments}

theorem context_valid_iff :
    ((invocation.invocation_id ≠ "" ∧ invocation.run_id ≠ "" ∧ definition.agent.id ≠ "" ∧
        definition.agent.deployment ≠ "" ∧ invocation.intent ≠ "") ∧
      (definition.agent.attachment.layer = .custom →
        definition.agent.attachment.custom_layer ≠ none) ∧
      (definition.agent.attachment.layer ≠ .custom →
        definition.agent.attachment.custom_layer = none) ∧
      definition.agent.attachment.targets ≠ [] ∧ definition.agent.attachment.targets.Nodup ∧
      definition.agent.capabilities.Nodup) ↔ ContextValid definition invocation :=
  ⟨fun ⟨hids, hgiven, honly, hsome, htargets, hcapabilities⟩ =>
      ⟨hids, hgiven, honly, hsome, htargets, hcapabilities⟩,
    fun h => ⟨h.ids_nonempty, h.custom_layer_given, h.custom_layer_only, h.targets_nonempty,
      h.targets_unique, h.capabilities_unique⟩⟩

instance (definition : AgentExecutionDefinition) (invocation : InvocationArguments) :
    Decidable (ContextValid definition invocation) :=
  decidable_of_iff _ context_valid_iff

/-- `_context`; `none` is the validation error. -/
def agent_context (definition : AgentExecutionDefinition) (invocation : InvocationArguments) :
    Option ScopedAgentContext :=
  if h : ContextValid definition invocation then
    some
      { invocation_id := invocation.invocation_id
        run_id := invocation.run_id
        agent_id := definition.agent.id
        deployment := definition.agent.deployment
        shared_state := invocation.shared_state
        priority := definition.agent.priority
        layer := definition.agent.attachment.layer
        custom_layer := definition.agent.attachment.custom_layer
        target_kind := definition.agent.attachment.target_kind
        targets := definition.agent.attachment.targets
        capabilities := definition.agent.capabilities
        intent := invocation.intent
        ids_nonempty := h.ids_nonempty
        custom_layer_given := h.custom_layer_given
        custom_layer_only := h.custom_layer_only
        targets_nonempty := h.targets_nonempty
        targets_unique := h.targets_unique
        capabilities_unique := h.capabilities_unique }
  else none

/-- The scope of a context is that of the definition it is built from. -/
structure ScopeOf (definition : AgentExecutionDefinition) (context : ScopedAgentContext) : Prop where
  agent_id_eq : context.agent_id = definition.agent.id
  deployment_eq : context.deployment = definition.agent.deployment
  layer_eq : context.layer = definition.agent.attachment.layer
  custom_layer_eq : context.custom_layer = definition.agent.attachment.custom_layer
  target_kind_eq : context.target_kind = definition.agent.attachment.target_kind
  targets_eq : context.targets = definition.agent.attachment.targets
  capabilities_eq : context.capabilities = definition.agent.capabilities

theorem agent_context_eq_some {context : ScopedAgentContext}
    (h : agent_context definition invocation = some context) : ScopeOf definition context := by
  unfold agent_context at h
  split at h
  · cases h
    exact ⟨rfl, rfl, rfl, rfl, rfl, rfl, rfl⟩
  · cases h

theorem agent_context_isSome (h : ContextValid definition invocation) :
    ∃ context, agent_context definition invocation = some context :=
  ⟨_, dif_pos h⟩

end MininetAi
