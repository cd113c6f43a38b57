/-
The parts of an environment specification that placement, grants and coordination read
(`mininet_ai/specification/models.py`, `mininet_ai/compiler/models.py`).

Fields that only other parts of a plan read (addresses, models, triggers, sessions) are
left out.
-/
import MininetAi.Coordination.Graph
import MininetAi.Sdk.Contracts

set_option autoImplicit false

namespace MininetAi

/-- How a message quotes a name. -/
def quoted (name : String) : String := "'" ++ name ++ "'"

/-- A message: its first words, and what follows them. -/
def worded (first : String) (rest : List String) : String := first ++ String.join rest

theorem worded_nonempty {first : String} (h : first ≠ "") (rest : List String) :
    worded first rest ≠ "" :=
  fun hempty => h (String.append_eq_empty_iff.mp hempty).1

/-! ## Resources -/

inductive ResourceKind where
  | network
  | region
  | controller
  | controller_domain
  | switch
  | host
  | port
  | link
  | flow
  deriving DecidableEq

/-- The text of a kind. -/
def ResourceKind.value : ResourceKind → String
  | .network => "network"
  | .region => "region"
  | .controller => "controller"
  | .controller_domain => "controller-domain"
  | .switch => "switch"
  | .host => "host"
  | .port => "port"
  | .link => "link"
  | .flow => "flow"

/-- A planned resource. A link has the two adapters it joins. -/
structure PlannedResource where
  name : String
  kind : ResourceKind
  labels : Dict String String := ∅
  parent : Option String := none
  endpoints : Option (String × String) := none

/-! ## Capabilities -/

inductive PostconditionOperator where
  | eq
  | ne
  | gt
  | gte
  | lt
  | lte
  deriving DecidableEq

/-- A declared postcondition; its timing is left out. -/
structure PostconditionDefinition where
  observation : String
  path : String
  operator : PostconditionOperator
  expected : JsonValue
  deriving DecidableEq

/-- `CapabilityDefinition`, with its scope. `rollback` says whether one is configured. -/
structure DeclaredCapability where
  name : String
  targets : List ResourceKind
  layers : List String
  effects : List String := []
  input_schema : JsonValue := .obj []
  output_schema : JsonValue := .obj []
  provider : Option String := none
  postconditions : List PostconditionDefinition := []
  rollback : Bool := false
  deriving DecidableEq

/-! ## Deployments -/

inductive AttachmentLayer where
  | global
  | management
  | control
  | data
  | host
  | observer
  | custom
  deriving DecidableEq

/-- The text of a layer. -/
def AttachmentLayer.value : AttachmentLayer → String
  | .global => "global"
  | .management => "management"
  | .control => "control"
  | .data => "data"
  | .host => "host"
  | .observer => "observer"
  | .custom => "custom"

inductive Cardinality where
  | singleton
  | per_target
  | per_group
  deriving DecidableEq

structure Selector where
  kind : ResourceKind
  names : List String := []
  match_labels : List (String × String) := []

/-- A placement. The last two fields are what its validator checks of the layer. -/
structure Placement where
  layer : AttachmentLayer
  custom_layer : Option String := none
  targets : Selector
  cardinality : Cardinality := .per_target
  runtime : String
  group_by : Option String := none
  custom_layer_given : layer = .custom → custom_layer ≠ none
  custom_layer_only : layer ≠ .custom → custom_layer = none

/-- The name a capability knows the layer by, `custom_layer or layer.value`. -/
def layer_name (layer : AttachmentLayer) (custom_layer : Option String) : String :=
  custom_layer.getD layer.value

structure AgentDeployment where
  name : String
  blueprint : String
  placement : Placement
  observe : List String := []
  capabilities : List String := []
  priority : ℤ := 0
  /-- The observations of its policies. -/
  observation_policies : List String := []
  name_nonempty : name ≠ ""

/-- A blueprint; `model_reference` says that its model is still a reference. -/
structure AgentBlueprint where
  name : String
  model_reference : Bool := false
  deriving DecidableEq

/-! ## Coordination -/

structure DeploymentRelationship where
  source : String
  targets : List String

inductive PeerSelection where
  | all
  | topology_neighbors
  deriving DecidableEq

structure CoordinationSpec where
  mode : CoordinationMode := .independent
  coordinator : Option String := none
  peers : Option PeerSelection := none
  relationships : List DeploymentRelationship := []

/-! ## Plans -/

/-- An experiment with its references resolved and its resources built. The last fields are
what `_build_resources` checks of their names and `resolve_models` leaves of the models. -/
structure LoadedExperiment where
  agents : List AgentDeployment
  blueprints : List AgentBlueprint
  capabilities : List DeclaredCapability
  resources : List PlannedResource
  coordination : CoordinationSpec := {}
  max_instances : ℕ := 256
  require_postcondition_check : Bool := false
  resources_unique : (resources.map PlannedResource.name).Nodup
  models_resolved : ∀ blueprint ∈ blueprints, blueprint.model_reference = false

structure Attachment where
  layer : AttachmentLayer
  custom_layer : Option String
  targets : List String
  target_kind : ResourceKind
  runtime : String
  deriving DecidableEq

/-- `AgentInstance`. -/
structure CompiledAgent where
  id : String
  deployment : String
  blueprint : String
  attachment : Attachment
  observes : List String := []
  capabilities : List String := []
  privileges : List String := []
  priority : ℤ := 0
  deriving DecidableEq

/-- A deployment plan. The definitions of its snapshot are kept as they are read back. -/
structure DeploymentPlan where
  resources : List PlannedResource
  agents : List CompiledAgent
  mode : CoordinationMode
  edges : List CoordinationEdge
  require_postcondition_check : Bool
  blueprints : List AgentBlueprint
  capability_definitions : List DeclaredCapability

/-- The part of the plan its coordination graph is built from. -/
def DeploymentPlan.coordination (plan : DeploymentPlan) : CoordinationPlan where
  agent_ids := plan.agents.map CompiledAgent.id
  mode := plan.mode
  edges := plan.edges

end MininetAi
