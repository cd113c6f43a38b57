/-
Expansion of agent deployments into agent instances (`_select`, `_target_groups` and
`_compile_instances` in `mininet_ai/compiler/compiler.py`).

The substrate driver and the checks of bounded-decision scenarios are parameters: both
only refuse. What the expansion guarantees of an instance is in `InstanceOk`; every
instance of a plan has its own id.

An error keeps what its message is formatted from.
-/
import MininetAi.Lib.Results
import MininetAi.Specification.Models

set_option autoImplicit false

namespace MininetAi

open List Except

/-! ## Parameters and errors -/

/-- The driver: the issues it finds, formatted. -/
structure SubstrateDriver where
  validate_attachment : AttachmentLayer → Option String → ResourceKind → String → List String
  validate_observation : AttachmentLayer → Option String → String → List String

inductive CompilationError where
  | duplicate_name (category name : String)
  | unknown_blueprint (agent blueprint : String)
  | unknown_capabilities (agent : String) (missing : List String)
  | scenario (message : String)
  | duplicate_policies (agent : String) (observations : List String)
  | undeclared_policy (observation : String)
  | invalid_names (agent : String) (kind : ResourceKind) (names : List String)
  | nothing_selected (agent : String) (kind : ResourceKind)
  | observer_capabilities (agent : String)
  | not_singleton (agent : String) (matched : ℕ)
  | missing_label (agent : String) (label : Option String) (resource : String)
  | duplicate_agent (id : String)
  | empty_group (id : String)
  | attachment_issues (agent : String) (issues : List String)
  | observation_issues (agent : String) (issues : List String)
  | capability_target (agent capability : String) (kind : ResourceKind)
  | capability_layer (agent capability layer : String)
  | postcondition_issues (agent capability observation : String) (issues : List String)
  | too_many_instances (compiled limit : ℕ)
  | unknown_coordinator (coordinator : Option String)
  | coordinator_instances
  | unknown_source (deployment : String)
  | unknown_target (deployment : String)
  | unknown_endpoint (resource : String)
  deriving DecidableEq

/-- The checks of the bounded-decision scenarios: of the experiment, of a deployment, of
its groups, and of the targets of an instance. -/
structure ScenarioChecks where
  check_experiment : LoadedExperiment → Except CompilationError Unit
  check_deployment : LoadedExperiment → AgentDeployment → Except CompilationError Unit
  check_groups : LoadedExperiment → AgentDeployment → List (String × List PlannedResource) →
    Except CompilationError Unit
  check_targets : LoadedExperiment → AgentDeployment → List PlannedResource →
    Except CompilationError Unit

def unique_by_name (category : String) (names : List String) : Except CompilationError Unit :=
  refuse_repeats (.duplicate_name category) [] names

/-- `tuple(sorted(set(names)))`. -/
def sorted_set (names : List String) : List String :=
  names.dedup.insertionSort (· ≤ ·)

/-! ## Placement -/

def select (deployment : AgentDeployment) (resources : List PlannedResource) :
    Except CompilationError (List PlannedResource) := do
  let selector := deployment.placement.targets
  let of_kind := resources.filter fun resource => resource.kind = selector.kind
  let invalid := selector.names.filter fun name => name ∉ of_kind.map PlannedResource.name
  refuse_if (invalid ≠ [])
    (.invalid_names deployment.name selector.kind (sorted_set invalid))
  let named := if selector.names = [] then of_kind
    else of_kind.filter fun resource => resource.name ∈ selector.names
  let selected := named.filter fun resource =>
    selector.match_labels.all fun label => resource.labels.lookup label.1 = some label.2
  refuse_if (selected = []) (.nothing_selected deployment.name selector.kind)
  pure (selected.insertionSort fun a b => a.name ≤ b.name)

/-- A character `_slug` keeps. -/
def slug_character (c : Char) : Bool :=
  c.isAlphanum || c == '_' || c == '.' || c == '-'

/-- Every run of other characters becomes one dash. -/
def replace_runs : Bool → List Char → List Char
  | _, [] => []
  | in_run, c :: cs =>
    if slug_character c then c :: replace_runs false cs
    else if in_run then replace_runs true cs
    else '-' :: replace_runs true cs

def slug (value : String) : String :=
  String.ofList ((((replace_runs false value.toList).dropWhile (· == '-')).reverse.dropWhile
    (· == '-')).reverse)

/-- The label every selected resource must have. -/
def group_labels (deployment : AgentDeployment) (label : String) :
    List PlannedResource → Except CompilationError (List String)
  | [] => .ok []
  | resource :: resources => match resource.labels.lookup label with
    | none => .error (.missing_label deployment.name (some label) resource.name)
    | some value => do
        let values ← group_labels deployment label resources
        pure (value :: values)

/-- `_target_groups`: the instance ids with their targets. -/
def target_groups (deployment : AgentDeployment) (selected : List PlannedResource) :
    Except CompilationError (List (String × List PlannedResource)) :=
  match deployment.placement.cardinality with
  | .singleton => match selected with
    | [resource] => .ok [(deployment.name, [resource])]
    | _ => .error (.not_singleton deployment.name selected.length)
  | .per_target =>
    .ok (selected.map fun resource => (deployment.name ++ "@" ++ resource.name, [resource]))
  | .per_group => match deployment.placement.group_by with
    | none => .error (.missing_label deployment.name none "")
    | some label => do
        let values ← group_labels deployment label selected
        pure ((sorted_set values).map fun value =>
          (deployment.name ++ "@" ++ label ++ "-" ++ slug value,
            (selected.filter fun resource => resource.labels.lookup label = some value).insertionSort
              fun a b => a.name ≤ b.name))

/-! ## Grants -/

/-- The checks of one observation of a deployment or a capability. -/
def check_observation (driver : SubstrateDriver) (deployment : AgentDeployment) (name : String)
    (failure : List String → CompilationError) : Except CompilationError Unit :=
  let issues := driver.validate_observation deployment.placement.layer
    deployment.placement.custom_layer name
  refuse_if (issues ≠ []) (failure issues)

/-- The checks of all observations in their order. -/
def check_observations (driver : SubstrateDriver) (deployment : AgentDeployment)
    (failure : String → List String → CompilationError) : List String → Except CompilationError Unit
  | [] => .ok ()
  | name :: names => do
      check_observation driver deployment name (failure name)
      check_observations driver deployment failure names

/-- One iteration of the loop over the capabilities of a deployment: its effects. -/
def grant_capability (driver : SubstrateDriver) (deployment : AgentDeployment)
    (target_kind : ResourceKind) (capability : DeclaredCapability) :
    Except CompilationError (List String) := do
  let layer := layer_name deployment.placement.layer deployment.placement.custom_layer
  refuse_if (target_kind ∉ capability.targets)
    (.capability_target deployment.name capability.name target_kind)
  refuse_if (layer ∉ capability.layers)
    (.capability_layer deployment.name capability.name layer)
  check_observations driver deployment
    (.postcondition_issues deployment.name capability.name)
    (capability.postconditions.map PostconditionDefinition.observation)
  pure capability.effects

/-- The loop over the capabilities: the privileges it collects. -/
def grant_capabilities (driver : SubstrateDriver) (capabilities : List DeclaredCapability)
    (deployment : AgentDeployment) (target_kind : ResourceKind) :
    List String → Except CompilationError (List String)
  | [] => .ok []
  | name :: names => match capabilities.find? fun capability => capability.name = name with
    | none => .error (.unknown_capabilities deployment.name [name])
    | some capability => do
        let effects ← grant_capability driver deployment target_kind capability
        let privileges ← grant_capabilities driver capabilities deployment target_kind names
        pure (effects ++ privileges)

/-! ## Instances -/

/-- `targets[0]`. -/
def first_target (group : String × List PlannedResource) :
    Except CompilationError PlannedResource :=
  match group.2 with
  | [] => .error (.empty_group group.1)
  | first :: _ => .ok first

/-- The instance of a group. -/
def agent_instance (deployment : AgentDeployment) (group : String × List PlannedResource)
    (target_kind : ResourceKind) (privileges : List String) : CompiledAgent where
  id := group.1
  deployment := deployment.name
  blueprint := deployment.blueprint
  attachment :=
    { layer := deployment.placement.layer
      custom_layer := deployment.placement.custom_layer
      targets := group.2.map PlannedResource.name
      target_kind := target_kind
      runtime := deployment.placement.runtime }
  observes := sorted_set deployment.observe
  capabilities := sorted_set deployment.capabilities
  privileges := sorted_set privileges
  priority := deployment.priority

/-- One iteration of the loop over the groups of a deployment. -/
def compile_group (driver : SubstrateDriver) (checks : ScenarioChecks) (loaded : LoadedExperiment)
    (deployment : AgentDeployment) (instances : List CompiledAgent)
    (group : String × List PlannedResource) : Except CompilationError (List CompiledAgent) := do
  checks.check_targets loaded deployment group.2
  refuse_if (group.1 ∈ instances.map CompiledAgent.id) (.duplicate_agent group.1)
  let first ← first_target group
  let placement := deployment.placement
  let issues := driver.validate_attachment placement.layer placement.custom_layer first.kind
    placement.runtime
  refuse_if (issues ≠ []) (.attachment_issues deployment.name issues)
  check_observations driver deployment (fun _ => .observation_issues deployment.name)
    deployment.observe
  let privileges ← grant_capabilities driver loaded.capabilities deployment first.kind
    deployment.capabilities
  pure (instances ++ [agent_instance deployment group first.kind privileges])

/-- The loop over the groups. -/
def compile_groups (driver : SubstrateDriver) (checks : ScenarioChecks) (loaded : LoadedExperiment)
    (deployment : AgentDeployment) :
    List CompiledAgent → List (String × List PlannedResource) →
      Except CompilationError (List CompiledAgent)
  | instances, [] => .ok instances
  | instances, group :: groups => do
      let instances ← compile_group driver checks loaded deployment instances group
      compile_groups driver checks loaded deployment instances groups

/-- The checks of a deployment before it is expanded. -/
def check_deployment (checks : ScenarioChecks) (loaded : LoadedExperiment)
    (deployment : AgentDeployment) : Except CompilationError Unit := do
  refuse_if (deployment.blueprint ∉ loaded.blueprints.map AgentBlueprint.name)
    (.unknown_blueprint deployment.name deployment.blueprint)
  let missing := deployment.capabilities.filter fun name =>
    name ∉ loaded.capabilities.map DeclaredCapability.name
  refuse_if (missing ≠ [])
    (.unknown_capabilities deployment.name (missing.insertionSort (· ≤ ·)))
  checks.check_deployment loaded deployment
  let observations := deployment.observation_policies
  let duplicates := sorted_set (observations.filter fun name => 1 < observations.count name)
  refuse_if (duplicates ≠ []) (.duplicate_policies deployment.name duplicates)
  match sorted_set (observations.filter fun name => name ∉ deployment.observe) with
  | [] => pure ()
  | undeclared :: _ => throw (.undeclared_policy undeclared)

/-- One iteration of the loop over the deployments. -/
def compile_deployment (driver : SubstrateDriver) (checks : ScenarioChecks)
    (loaded : LoadedExperiment) (instances : List CompiledAgent) (deployment : AgentDeployment) :
    Except CompilationError (List CompiledAgent) := do
  check_deployment checks loaded deployment
  let selected ← select deployment loaded.resources
  refuse_if (deployment.placement.layer = .observer ∧ deployment.capabilities ≠ [])
    (.observer_capabilities deployment.name)
  let groups ← target_groups deployment selected
  checks.check_groups loaded deployment groups
  compile_groups driver checks loaded deployment instances groups

/-- The loop over the deployments. -/
def compile_deployments (driver : SubstrateDriver) (checks : ScenarioChecks)
    (loaded : LoadedExperiment) :
    List CompiledAgent → List AgentDeployment → Except CompilationError (List CompiledAgent)
  | instances, [] => .ok instances
  | instances, deployment :: deployments => do
      let instances ← compile_deployment driver checks loaded instances deployment
      compile_deployments driver checks loaded instances deployments

def compile_instances (driver : SubstrateDriver) (checks : ScenarioChecks)
    (loaded : LoadedExperiment) : Except CompilationError (List CompiledAgent) := do
  unique_by_name "agent deployment" (loaded.agents.map AgentDeployment.name)
  checks.check_experiment loaded
  let instances ← compile_deployments driver checks loaded [] loaded.agents
  refuse_if (loaded.max_instances < instances.length)
    (.too_many_instances instances.length loaded.max_instances)
  pure (instances.insertionSort fun a b => a.id ≤ b.id)

/-! ## What an instance is granted -/

variable {names privileges : List String} {capability : DeclaredCapability}
  {resources selected : List PlannedResource} {group : String × List PlannedResource}
  {groups : List (String × List PlannedResource)}

theorem mem_sorted_set {name : String} : name ∈ sorted_set names ↔ name ∈ names := by
  rw [sorted_set, mem_insertionSort, mem_dedup]

theorem sorted_set_nodup (names : List String) : (sorted_set names).Nodup := by
  rw [sorted_set, (perm_insertionSort _ _).nodup_iff]
  exact names.nodup_dedup

/-- What the checks of a capability leave of it. -/
structure Granted (layer : String) (target_kind : ResourceKind) (privileges : List String)
    (capability : DeclaredCapability) : Prop where
  target_kind_allowed : target_kind ∈ capability.targets
  layer_allowed : layer ∈ capability.layers
  effects_allowed : ∀ effect ∈ capability.effects, effect ∈ privileges

variable {driver : SubstrateDriver} {deployment : AgentDeployment} {target_kind : ResourceKind}
  {checks : ScenarioChecks} {loaded : LoadedExperiment} {instances after : List CompiledAgent}
  {deployments : List AgentDeployment}

theorem grant_capability_ok {effects : List String}
    (h : grant_capability driver deployment target_kind capability = .ok effects) :
    Granted (layer_name deployment.placement.layer deployment.placement.custom_layer) target_kind
      effects capability := by
  obtain ⟨_, htarget, h⟩ := bind_ok_iff.mp h
  obtain ⟨_, hlayer, h⟩ := bind_ok_iff.mp h
  obtain ⟨_, -, h⟩ := bind_ok_iff.mp h
  cases h
  exact ⟨not_not.mp (refuse_if_ok_iff.mp htarget),
    not_not.mp (refuse_if_ok_iff.mp hlayer), fun _ heffect => heffect⟩

theorem Granted.mono {layer : String} {more : List String}
    (h : Granted layer target_kind privileges capability) (hsub : privileges ⊆ more) :
    Granted layer target_kind more capability :=
  ⟨h.target_kind_allowed, h.layer_allowed,
    fun effect heffect => hsub (h.effects_allowed effect heffect)⟩

/-- Every capability of the loop is defined and granted. -/
theorem grant_capabilities_ok {capabilities : List DeclaredCapability}
    (h : grant_capabilities driver capabilities deployment target_kind names = .ok privileges) :
    ∀ name ∈ names, ∃ capability,
      capabilities.find? (fun capability => capability.name = name) = some capability ∧
      Granted (layer_name deployment.placement.layer deployment.placement.custom_layer) target_kind
        privileges capability := by
  induction names generalizing privileges with
  | nil => exact fun _ hmem => by cases hmem
  | cons name names ih =>
    rw [grant_capabilities] at h
    cases hfind : capabilities.find? (fun capability => capability.name = name) with
    | none =>
      rw [hfind] at h
      cases h
    | some capability =>
      rw [hfind] at h
      obtain ⟨effects, hone, h⟩ := bind_ok_iff.mp h
      obtain ⟨rest, hrest, h⟩ := bind_ok_iff.mp h
      cases h
      intro other hother
      rcases mem_cons.mp hother with rfl | hother
      · exact ⟨capability, hfind,
          (grant_capability_ok hone).mono (subset_append_left _ _)⟩
      · obtain ⟨found, hfound, hgranted⟩ := ih hrest other hother
        exact ⟨found, hfound, hgranted.mono (subset_append_right _ _)⟩

/-! ## Instances of a plan -/

/-- What the compiler guarantees of an instance of a deployment. -/
structure InstanceOk (loaded : LoadedExperiment) (deployment : AgentDeployment)
    (agent : CompiledAgent) : Prop where
  id_nonempty : agent.id ≠ ""
  deployment_eq : agent.deployment = deployment.name
  blueprint_eq : agent.blueprint = deployment.blueprint
  blueprint_known : agent.blueprint ∈ loaded.blueprints.map AgentBlueprint.name
  layer_eq : agent.attachment.layer = deployment.placement.layer
  custom_layer_eq : agent.attachment.custom_layer = deployment.placement.custom_layer
  targeted : agent.attachment.targets ≠ []
  targets_known : agent.attachment.targets ⊆ loaded.resources.map PlannedResource.name
  targets_nodup : agent.attachment.targets.Nodup
  capabilities_nodup : agent.capabilities.Nodup
  granted : ∀ name ∈ agent.capabilities, ∃ capability,
    loaded.capabilities.find? (fun capability => capability.name = name) = some capability ∧
    Granted (layer_name agent.attachment.layer agent.attachment.custom_layer)
      agent.attachment.target_kind agent.privileges capability

/-- A group of targets: it has an id, and its targets are resources, each once. -/
structure GroupOk (resources : List PlannedResource) (group : String × List PlannedResource) :
    Prop where
  id_nonempty : group.1 ≠ ""
  targets : group.2.Subperm resources

theorem GroupOk.names_nodup (h : GroupOk resources group)
    (hunique : (resources.map PlannedResource.name).Nodup) :
    (group.2.map PlannedResource.name).Nodup := by
  obtain ⟨targets, hperm, hsublist⟩ := h.targets
  exact (hperm.map _).nodup_iff.mp (hunique.sublist (hsublist.map _))

/-- A group adds one instance, with an id of its own. -/
theorem compile_group_ok (hgroup : GroupOk loaded.resources group)
    (hblueprint : deployment.blueprint ∈ loaded.blueprints.map AgentBlueprint.name)
    (h : compile_group driver checks loaded deployment instances group = .ok after) :
    ∃ agent, after = instances ++ [agent] ∧ agent.id ∉ instances.map CompiledAgent.id ∧
      InstanceOk loaded deployment agent := by
  obtain ⟨_, -, h⟩ := bind_ok_iff.mp h
  obtain ⟨_, hnew, h⟩ := bind_ok_iff.mp h
  obtain ⟨first, hfirst, h⟩ := bind_ok_iff.mp h
  obtain ⟨_, -, h⟩ := bind_ok_iff.mp h
  obtain ⟨_, -, h⟩ := bind_ok_iff.mp h
  obtain ⟨privileges, hprivileges, h⟩ := bind_ok_iff.mp h
  cases h
  have htargets : group.2.map PlannedResource.name ≠ [] := by
    intro hnone
    rw [first_target, map_eq_nil_iff.mp hnone] at hfirst
    cases hfirst
  refine ⟨_, rfl, refuse_if_ok_iff.mp hnew, hgroup.id_nonempty, rfl, rfl, hblueprint,
    rfl, rfl, htargets, map_subset _ hgroup.targets.subset,
    hgroup.names_nodup loaded.resources_unique, sorted_set_nodup _, fun name hname => ?_⟩
  obtain ⟨capability, hfound, hgranted⟩ :=
    grant_capabilities_ok hprivileges name (mem_sorted_set.mp hname)
  exact ⟨capability, hfound, hgranted.mono fun effect heffect => mem_sorted_set.mpr heffect⟩

/-- The instances of an accepted list: each is in order, and no two have one id. -/
structure InstancesOk (loaded : LoadedExperiment) (deployments : List AgentDeployment)
    (instances : List CompiledAgent) : Prop where
  ids_nodup : (instances.map CompiledAgent.id).Nodup
  each : ∀ agent ∈ instances, ∃ deployment ∈ deployments, InstanceOk loaded deployment agent

theorem InstancesOk.append (h : InstancesOk loaded deployments instances)
    (hdeployment : deployment ∈ deployments) {agent : CompiledAgent}
    (hid : agent.id ∉ instances.map CompiledAgent.id)
    (hagent : InstanceOk loaded deployment agent) :
    InstancesOk loaded deployments (instances ++ [agent]) := by
  refine ⟨?_, fun other hother => ?_⟩
  · rw [map_append, map_singleton]
    refine nodup_append.mpr ⟨h.ids_nodup, nodup_singleton _, ?_⟩
    rintro id hold _ hnew rfl
    rw [mem_singleton] at hnew
    exact hid (hnew ▸ hold)
  · rcases mem_append.mp hother with hold | hnew
    · exact h.each other hold
    · rw [mem_singleton.mp hnew]
      exact ⟨deployment, hdeployment, hagent⟩

theorem compile_groups_ok (hdeployment : deployment ∈ deployments)
    (hblueprint : deployment.blueprint ∈ loaded.blueprints.map AgentBlueprint.name)
    (hgroups : ∀ group ∈ groups, GroupOk loaded.resources group)
    (hinstances : InstancesOk loaded deployments instances)
    (h : compile_groups driver checks loaded deployment instances groups = .ok after) :
    InstancesOk loaded deployments after := by
  induction groups generalizing instances with
  | nil =>
    cases h
    exact hinstances
  | cons group groups ih =>
    obtain ⟨between, hone, h⟩ := bind_ok_iff.mp h
    obtain ⟨agent, rfl, hid, hagent⟩ :=
      compile_group_ok (hgroups group mem_cons_self) hblueprint hone
    exact ih (fun other hother => hgroups other (mem_cons_of_mem _ hother))
      (hinstances.append hdeployment hid hagent) h

/-- What is selected are resources of the experiment. -/
theorem select_subperm (h : select deployment resources = .ok selected) :
    selected.Subperm resources := by
  obtain ⟨_, -, h⟩ := bind_ok_iff.mp h
  obtain ⟨_, -, h⟩ := bind_ok_iff.mp h
  cases h
  refine (perm_insertionSort _ _).subperm.trans (Sublist.subperm ?_)
  refine filter_sublist.trans ?_
  split
  · exact filter_sublist
  · exact filter_sublist.trans filter_sublist

theorem group_id_nonempty (deployment : AgentDeployment) (rest : String) :
    deployment.name ++ rest ≠ "" :=
  fun h => deployment.name_nonempty (String.append_eq_empty_iff.mp h).1

/-- The targets of a group are among those selected. -/
theorem target_groups_ok (h : target_groups deployment selected = .ok groups) :
    ∀ group ∈ groups, GroupOk selected group := by
  unfold target_groups at h
  split at h
  · split at h
    · cases h
      intro group hgroup
      rw [mem_singleton.mp hgroup]
      exact ⟨deployment.name_nonempty, .refl _⟩
    · cases h
  · cases h
    intro group hgroup
    obtain ⟨resource, hresource, rfl⟩ := mem_map.mp hgroup
    refine ⟨?_, singleton_subperm_iff.mpr hresource⟩
    rw [String.append_assoc]
    exact group_id_nonempty deployment _
  · split at h
    · cases h
    · obtain ⟨values, -, h⟩ := bind_ok_iff.mp h
      cases h
      intro group hgroup
      obtain ⟨value, -, rfl⟩ := mem_map.mp hgroup
      refine ⟨?_, (perm_insertionSort _ _).subperm.trans filter_sublist.subperm⟩
      simp only [String.append_assoc]
      exact group_id_nonempty deployment _

theorem compile_deployments_ok {all : List AgentDeployment} (hall : deployments ⊆ all)
    (hinstances : InstancesOk loaded all instances)
    (h : compile_deployments driver checks loaded instances deployments = .ok after) :
    InstancesOk loaded all after := by
  induction deployments generalizing instances with
  | nil =>
    cases h
    exact hinstances
  | cons deployment deployments ih =>
    obtain ⟨between, hone, h⟩ := bind_ok_iff.mp h
    refine ih (fun other hother => hall (mem_cons_of_mem _ hother)) ?_ h
    obtain ⟨_, hcheck, hone⟩ := bind_ok_iff.mp hone
    obtain ⟨_, hblueprint, -⟩ := bind_ok_iff.mp hcheck
    obtain ⟨selected, hselected, hone⟩ := bind_ok_iff.mp hone
    obtain ⟨_, -, hone⟩ := bind_ok_iff.mp hone
    obtain ⟨groups, hgroups, hone⟩ := bind_ok_iff.mp hone
    obtain ⟨_, -, hone⟩ := bind_ok_iff.mp hone
    refine compile_groups_ok (hall mem_cons_self)
      (not_not.mp (refuse_if_ok_iff.mp hblueprint)) (fun group hgroup => ?_) hinstances hone
    have hgroup_ok := target_groups_ok hgroups group hgroup
    exact ⟨hgroup_ok.id_nonempty, hgroup_ok.targets.trans (select_subperm hselected)⟩

/-- The instances of an accepted experiment. -/
theorem compile_instances_ok (h : compile_instances driver checks loaded = .ok instances) :
    InstancesOk loaded loaded.agents instances := by
  obtain ⟨_, -, h⟩ := bind_ok_iff.mp h
  obtain ⟨_, -, h⟩ := bind_ok_iff.mp h
  obtain ⟨unsorted, hunsorted, h⟩ := bind_ok_iff.mp h
  obtain ⟨_, -, h⟩ := bind_ok_iff.mp h
  cases h
  have hempty : InstancesOk loaded loaded.agents [] :=
    ⟨nodup_nil, fun _ hmem => by cases hmem⟩
  have hok := compile_deployments_ok (Subset.refl _) hempty hunsorted
  have hperm := perm_insertionSort (fun a b : CompiledAgent => a.id ≤ b.id) unsorted
  exact ⟨(hperm.map CompiledAgent.id).nodup_iff.mpr hok.ids_nodup,
    fun agent hagent => hok.each agent (hperm.mem_iff.mp hagent)⟩

end MininetAi
