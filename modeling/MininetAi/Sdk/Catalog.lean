/-
The execution catalog of a deployment plan (`mininet_ai/sdk/catalog.py`).

The catalog looks every name of an instance up again, in the definitions of the plan's
snapshot, and refuses a plan where one is missing. An instance of a catalog therefore has
exactly the definitions that the plan has under the names of its capabilities.

The snapshot of a plan has its definitions resolved; reading it back is left out.
-/
import MininetAi.Compiler.Instances

set_option autoImplicit false

namespace MininetAi

open List Except

/-! ## Errors -/

/-- An error of the catalog, with what its message is formatted from. -/
inductive CatalogError where
  | unresolved_model (blueprint : String)
  | duplicate (kind name : String)
  | blueprint_missing (agent blueprint : String)
  | capability_missing (agent : String) (missing : List String)
  | unknown_instance (agent : String)
  deriving DecidableEq

def CatalogError.code : CatalogError → String
  | .unresolved_model _ => "agent.catalog.unresolved-reference"
  | .duplicate _ _ => "agent.catalog.duplicate"
  | .blueprint_missing _ _ => "agent.catalog.blueprint-missing"
  | .capability_missing _ _ => "agent.catalog.capability-missing"
  | .unknown_instance _ => "agent.instance.unknown"

def CatalogError.message : CatalogError → String
  | .unresolved_model blueprint =>
    worded "deployment plan blueprint " [quoted blueprint, " contains an unresolved model reference"]
  | .duplicate kind name =>
    worded "duplicate " [kind, " name ", quoted name, " in deployment plan"]
  | .blueprint_missing agent blueprint =>
    worded "agent " [quoted agent, " references missing blueprint ", quoted blueprint]
  | .capability_missing agent missing =>
    worded "agent "
      [quoted agent, " references missing capabilities: ", ", ".intercalate missing]
  | .unknown_instance agent => worded "unknown compiled agent instance " [quoted agent]

/-! ## The catalog -/

/-- `AgentExecutionDefinition`; of the policy, whether postconditions are checked. -/
structure AgentExecutionDefinition where
  agent : CompiledAgent
  blueprint : AgentBlueprint
  capabilities : List DeclaredCapability
  require_postcondition_check : Bool
  deriving DecidableEq

/-- `ExecutionCatalog`: the definitions of a plan, by the ids of their instances. -/
structure CompiledCatalog where
  definitions : List AgentExecutionDefinition

namespace CompiledCatalog

/-- The check for model references. -/
def require_models : List AgentBlueprint → Except CatalogError Unit
  | [] => .ok ()
  | blueprint :: blueprints => do
      refuse_if (blueprint.model_reference = true) (.unresolved_model blueprint.name)
      require_models blueprints

/-- `capabilities[name]`. -/
def find_capability (plan : DeploymentPlan) (name : String) : Option DeclaredCapability :=
  plan.capability_definitions.find? fun capability => capability.name = name

/-- One iteration of the loop over the instances. -/
def definition_of (plan : DeploymentPlan) (agent : CompiledAgent) :
    Except CatalogError AgentExecutionDefinition :=
  match plan.blueprints.find? fun blueprint => blueprint.name = agent.blueprint with
  | none => .error (.blueprint_missing agent.id agent.blueprint)
  | some blueprint => do
      let missing := agent.capabilities.filter fun name => (find_capability plan name).isNone
      refuse_if (missing ≠ [])
        (.capability_missing agent.id (missing.insertionSort (· ≤ ·)))
      pure
        { agent := agent
          blueprint := blueprint
          capabilities := agent.capabilities.filterMap (find_capability plan)
          require_postcondition_check := plan.require_postcondition_check }

/-- The loop over the instances. -/
def definitions_of (plan : DeploymentPlan) :
    List CompiledAgent → Except CatalogError (List AgentExecutionDefinition)
  | [] => .ok []
  | agent :: agents => do
      let definition ← definition_of plan agent
      let definitions ← definitions_of plan agents
      pure (definition :: definitions)

/-- The constructor. -/
def build (plan : DeploymentPlan) : Except CatalogError CompiledCatalog := do
  require_models plan.blueprints
  refuse_repeats (.duplicate "blueprint") [] (plan.blueprints.map AgentBlueprint.name)
  refuse_repeats (.duplicate "capability") []
    (plan.capability_definitions.map DeclaredCapability.name)
  refuse_repeats (.duplicate "agent instance") [] (plan.agents.map CompiledAgent.id)
  let definitions ← definitions_of plan plan.agents
  pure { definitions := definitions }

def resolve (catalog : CompiledCatalog) (agent_id : String) :
    Except CatalogError AgentExecutionDefinition :=
  match catalog.definitions.find? fun definition => definition.agent.id = agent_id with
  | none => .error (.unknown_instance agent_id)
  | some definition => .ok definition

/-! ## What a catalog has -/

/-- The definition of an instance: its capabilities are those of the plan under the names
it was given, and there is one for each name. -/
structure DefinitionOk (plan : DeploymentPlan) (agent : CompiledAgent)
    (definition : AgentExecutionDefinition) : Prop where
  agent_eq : definition.agent = agent
  capabilities_eq : definition.capabilities = agent.capabilities.filterMap (find_capability plan)
  found : ∀ name ∈ agent.capabilities, ∃ capability, find_capability plan name = some capability
  require_eq : definition.require_postcondition_check = plan.require_postcondition_check

variable {plan : DeploymentPlan} {agent : CompiledAgent} {agents : List CompiledAgent}

theorem find_capability_name {name : String} {capability : DeclaredCapability}
    (h : find_capability plan name = some capability) :
    capability ∈ plan.capability_definitions ∧ capability.name = name := by
  have hname := find?_some h
  exact ⟨mem_of_find?_eq_some h, of_decide_eq_true hname⟩

theorem definition_of_ok {definition : AgentExecutionDefinition}
    (h : definition_of plan agent = .ok definition) : DefinitionOk plan agent definition := by
  unfold definition_of at h
  split at h
  · cases h
  · obtain ⟨_, hmissing, h⟩ := bind_ok_iff.mp h
    cases h
    refine ⟨rfl, rfl, fun name hname => ?_, rfl⟩
    have hall := filter_eq_nil_iff.mp (not_not.mp (refuse_if_ok_iff.mp hmissing))
    exact Option.ne_none_iff_exists'.mp fun hnone => hall name hname (by rw [hnone]; rfl)

/-- The loop keeps one definition for every instance, in their order. -/
theorem definitions_of_ok {definitions : List AgentExecutionDefinition}
    (h : definitions_of plan agents = .ok definitions) :
    definitions.map AgentExecutionDefinition.agent = agents ∧
      ∀ definition ∈ definitions, DefinitionOk plan definition.agent definition := by
  induction agents generalizing definitions with
  | nil =>
    cases h
    exact ⟨rfl, fun _ hmem => absurd hmem not_mem_nil⟩
  | cons agent agents ih =>
    obtain ⟨definition, hone, h⟩ := bind_ok_iff.mp h
    obtain ⟨rest, hrest, h⟩ := bind_ok_iff.mp h
    cases h
    have hok := definition_of_ok hone
    obtain ⟨hagents, hall⟩ := ih hrest
    refine ⟨by rw [map_cons, hok.agent_eq, hagents], fun other hother => ?_⟩
    rcases mem_cons.mp hother with rfl | hother
    · rw [hok.agent_eq]
      exact hok
    · exact hall other hother

theorem require_models_of_resolved {blueprints : List AgentBlueprint}
    (h : ∀ blueprint ∈ blueprints, blueprint.model_reference = false) :
    require_models blueprints = .ok () := by
  induction blueprints with
  | nil => rfl
  | cons blueprint blueprints ih =>
    have hone := h blueprint mem_cons_self
    refine bind_ok_iff.mpr ⟨(), refuse_if_ok_iff.mpr ?_, ?_⟩
    · rw [hone]
      exact Bool.false_ne_true
    · exact ih fun other hother => h other (mem_cons_of_mem _ hother)

/-- Instances whose names are all found have definitions. -/
theorem definitions_of_found
    (hblueprint : ∀ agent ∈ agents, agent.blueprint ∈ plan.blueprints.map AgentBlueprint.name)
    (hcapability : ∀ agent ∈ agents, ∀ name ∈ agent.capabilities,
      name ∈ plan.capability_definitions.map DeclaredCapability.name) :
    ∃ definitions, definitions_of plan agents = .ok definitions := by
  induction agents with
  | nil => exact ⟨[], rfl⟩
  | cons agent agents ih =>
    obtain ⟨rest, hrest⟩ := ih
      (fun other hother => hblueprint other (mem_cons_of_mem _ hother))
      (fun other hother => hcapability other (mem_cons_of_mem _ hother))
    have hone : ∃ definition, definition_of plan agent = .ok definition := by
      obtain ⟨blueprint, hmem, hname⟩ :=
        mem_map.mp (hblueprint agent mem_cons_self)
      have hfound : (plan.blueprints.find?
          (fun blueprint => blueprint.name = agent.blueprint)).isSome := by
        rw [find?_isSome]
        exact ⟨blueprint, hmem, decide_eq_true hname⟩
      obtain ⟨found, hfind⟩ := Option.isSome_iff_exists.mp hfound
      have hmissing : (agent.capabilities.filter fun name =>
          (find_capability plan name).isNone) = [] := by
        refine filter_eq_nil_iff.mpr fun name hname hnone => ?_
        obtain ⟨capability, hin, heq⟩ :=
          mem_map.mp (hcapability agent mem_cons_self name hname)
        rw [Option.isNone_iff_eq_none] at hnone
        exact find?_eq_none.mp hnone capability hin (decide_eq_true heq)
      rw [definition_of, hfind]
      exact ⟨_, bind_ok_iff.mpr
        ⟨(), refuse_if_ok_iff.mpr (not_not.mpr hmissing), rfl⟩⟩
    obtain ⟨definition, hone⟩ := hone
    exact ⟨definition :: rest, bind_ok_iff.mpr
      ⟨_, hone, bind_ok_iff.mpr ⟨_, hrest, rfl⟩⟩⟩

/-- An instance of the plan resolves to its own definition. -/
theorem resolve_agent {catalog : CompiledCatalog} (h : build plan = .ok catalog)
    (hagent : agent ∈ plan.agents) :
    ∃ definition, catalog.resolve agent.id = .ok definition ∧ DefinitionOk plan agent definition := by
  obtain ⟨_, -, h⟩ := bind_ok_iff.mp h
  obtain ⟨_, -, h⟩ := bind_ok_iff.mp h
  obtain ⟨_, -, h⟩ := bind_ok_iff.mp h
  obtain ⟨_, hids, h⟩ := bind_ok_iff.mp h
  obtain ⟨definitions, hdefinitions, h⟩ := bind_ok_iff.mp h
  cases h
  have hnodup := (refuse_repeats_ok hids).1
  obtain ⟨hagents, hall⟩ := definitions_of_ok hdefinitions
  have hfound : ∃ definition, definitions.find?
      (fun definition => definition.agent.id = agent.id) = some definition := by
    rw [← Option.isSome_iff_exists, find?_isSome]
    rw [← hagents] at hagent
    obtain ⟨definition, hmem, rfl⟩ := mem_map.mp hagent
    exact ⟨definition, hmem, decide_eq_true rfl⟩
  obtain ⟨definition, hfind⟩ := hfound
  have hmem := mem_of_find?_eq_some hfind
  have hid := find?_some hfind
  have hin : definition.agent ∈ plan.agents := by
    rw [← hagents]
    exact mem_map_of_mem hmem
  have heq := inj_on_of_nodup_map hnodup hin hagent (of_decide_eq_true hid)
  refine ⟨definition, by rw [resolve, hfind], ?_⟩
  rw [← heq]
  exact hall definition hmem

end CompiledCatalog

end MininetAi
