/-
Expansion of authored coordination into instance edges (`_coordination` and
`compile_experiment` in `mininet_ai/compiler/compiler.py`).

The compiler checks the deployments a relationship names, the graph the edges between
their instances. A relationship between two deployments becomes an edge between every
instance of the one and every instance of the other, so the edges have a cycle exactly
when the relationships have one; nothing on the compiler's side looks for it.

The driver's options and resources are checked by the parameters of
`MininetAi.Compiler.Instances`; the resources are those of the loaded experiment.
-/
import Mathlib.Data.Prod.Lex
import MininetAi.Compiler.Instances
import MininetAi.Coordination.GraphHierarchy

set_option autoImplicit false

namespace MininetAi

/-! ## Edges -/

/-- `known`. -/
def known_deployments (instances : List CompiledAgent) : List String :=
  instances.map CompiledAgent.deployment

/-- `by_deployment[deployment]`. -/
def of_deployment (instances : List CompiledAgent) (deployment : String) : List CompiledAgent :=
  instances.filter fun agent => agent.deployment = deployment

/-- The branch of centralized coordination. -/
def centralized_edges (spec : CoordinationSpec) (instances : List CompiledAgent) :
    Except CompilationError (List CoordinationEdge) :=
  match spec.coordinator with
  | none => .error (.unknown_coordinator none)
  | some deployment => do
      Except.refuse_if (deployment ∉ known_deployments instances)
        (.unknown_coordinator (some deployment))
      match of_deployment instances deployment with
      | [coordinator] =>
        pure ((instances.filter fun target => target.id ≠ coordinator.id).map fun target =>
          { source := coordinator.id, target := target.id, relationship := .coordinates })
      | _ => .error .coordinator_instances

/-- The edges of the two inner loops of the hierarchical branch. -/
def parent_edges (sources targets : List CompiledAgent) : List CoordinationEdge :=
  sources.flatMap fun source => targets.map fun target =>
    { source := source.id, target := target.id, relationship := .parent }

/-- The loop over the targets of a relationship. -/
def target_edges (instances : List CompiledAgent) (source : String) :
    List String → Except CompilationError (List CoordinationEdge)
  | [] => .ok []
  | target :: targets => do
      Except.refuse_if (target ∉ known_deployments instances) (.unknown_target target)
      let edges ← target_edges instances source targets
      pure (parent_edges (of_deployment instances source) (of_deployment instances target) ++ edges)

/-- The branch of hierarchical coordination. -/
def hierarchical_edges (instances : List CompiledAgent) :
    List DeploymentRelationship → Except CompilationError (List CoordinationEdge)
  | [] => .ok []
  | relationship :: relationships => do
      Except.refuse_if (relationship.source ∉ known_deployments instances)
        (.unknown_source relationship.source)
      let first ← target_edges instances relationship.source relationship.targets
      let edges ← hierarchical_edges instances relationships
      pure (first ++ edges)

/-- Every instance with every later one. -/
def pairs_of : List CompiledAgent → List (CompiledAgent × CompiledAgent)
  | [] => []
  | source :: instances => instances.map (Prod.mk source) ++ pairs_of instances

/-- The node an endpoint of a link belongs to. -/
def endpoint_node (resources : List PlannedResource) (endpoint : String) :
    Except CompilationError String :=
  match resources.reverse.find? fun resource => resource.name = endpoint with
  | none => .error (.unknown_endpoint endpoint)
  | some resource => .ok (resource.parent.getD resource.name)

/-- `neighbors`: the nodes that each link joins. -/
def link_neighbors (resources : List PlannedResource) :
    List PlannedResource → Except CompilationError (List (String × String))
  | [] => .ok []
  | link :: links => match link.endpoints with
    | none => link_neighbors resources links
    | some (left, right) => do
        let left ← endpoint_node resources left
        let right ← endpoint_node resources right
        let neighbors ← link_neighbors resources links
        pure ((left, right) :: neighbors)

/-- Some targets of the two instances are joined by a link. -/
def are_neighbors (neighbors : List (String × String)) (pair : CompiledAgent × CompiledAgent) :
    Bool :=
  pair.1.attachment.targets.any fun left => pair.2.attachment.targets.any fun right =>
    neighbors.any fun nodes => nodes = (left, right) ∨ nodes = (right, left)

/-- The edges between the two instances of a pair. -/
def peer_edges (pair : CompiledAgent × CompiledAgent) : List CoordinationEdge :=
  [{ source := pair.1.id, target := pair.2.id, relationship := .peer },
    { source := pair.2.id, target := pair.1.id, relationship := .peer }]

/-- The branch of distributed coordination. -/
def distributed_edges (spec : CoordinationSpec) (resources : List PlannedResource)
    (instances : List CompiledAgent) : Except CompilationError (List CoordinationEdge) :=
  if spec.peers = some .all then .ok ((pairs_of instances).flatMap peer_edges)
  else do
    let neighbors ← link_neighbors resources resources
    pure (((pairs_of instances).filter (are_neighbors neighbors)).flatMap peer_edges)

/-- The text of a relationship. -/
def CoordinationRelationship.value : CoordinationRelationship → String
  | .coordinates => "coordinates"
  | .parent => "parent"
  | .peer => "peer"

/-- The key that edges are sorted by. -/
def CoordinationEdge.key (edge : CoordinationEdge) : String ×ₗ String ×ₗ String :=
  toLex (edge.source, toLex (edge.target, edge.relationship.value))

/-- The edges of an experiment, with those that occur more than once. -/
def authored_edges (loaded : LoadedExperiment) (instances : List CompiledAgent) :
    Except CompilationError (List CoordinationEdge) :=
  match loaded.coordination.mode with
  | .independent => .ok []
  | .centralized => centralized_edges loaded.coordination instances
  | .hierarchical => hierarchical_edges instances loaded.coordination.relationships
  | .distributed => distributed_edges loaded.coordination loaded.resources instances

/-- `_coordination`: the set of the edges, sorted. -/
def coordination (loaded : LoadedExperiment) (instances : List CompiledAgent) :
    Except CompilationError (List CoordinationEdge) := do
  let edges ← authored_edges loaded instances
  pure (edges.dedup.insertionSort fun a b => a.key ≤ b.key)

/-- `sorted(definitions, key=name)`. -/
def sorted_by_name {α : Type} (name : α → String) (definitions : List α) : List α :=
  definitions.insertionSort fun a b => name a ≤ name b

/-- `compile_experiment`. The snapshot has the definitions sorted. -/
def compile_experiment (driver : SubstrateDriver) (checks : ScenarioChecks)
    (loaded : LoadedExperiment) : Except CompilationError DeploymentPlan := do
  unique_by_name "blueprint" (loaded.blueprints.map AgentBlueprint.name)
  unique_by_name "capability" (loaded.capabilities.map DeclaredCapability.name)
  let instances ← compile_instances driver checks loaded
  let edges ← coordination loaded instances
  pure
    { resources := loaded.resources
      agents := instances
      mode := loaded.coordination.mode
      edges := edges
      require_postcondition_check := loaded.require_postcondition_check
      blueprints := sorted_by_name AgentBlueprint.name loaded.blueprints
      capability_definitions := sorted_by_name DeclaredCapability.name loaded.capabilities }

end MininetAi
