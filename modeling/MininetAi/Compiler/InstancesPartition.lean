/-
The expansion of a deployment is a partition of what it selects.

The targets of all groups, one after the other, are the selected resources in another
order, whatever the cardinality; as resources have names of their own, that is what makes
the groups disjoint and leaves no resource out. Two labels may become one slug: the ids
then collide, and the plan is refused.
-/
import MininetAi.Compiler.CoordinationRunnable
import MininetAi.Compiler.ResourcesReproducible

set_option autoImplicit false

namespace MininetAi

open List Except

/-! ## What is selected -/

section Selection

variable {deployment : AgentDeployment} {resources selected : List PlannedResource}

/-- The resource meets the selector of the deployment. -/
structure Selected (deployment : AgentDeployment) (resource : PlannedResource) : Prop where
  kind : resource.kind = deployment.placement.targets.kind
  named : deployment.placement.targets.names = [] ∨ resource.name ∈ deployment.placement.targets.names
  labelled : ∀ label ∈ deployment.placement.targets.match_labels, resource.labels.lookup label.1 = some label.2

/-- `select` returns what meets the selector. -/
theorem mem_select {resource : PlannedResource} (h : select deployment resources = .ok selected) :
    resource ∈ selected ↔ resource ∈ resources ∧ Selected deployment resource := by
  obtain ⟨_, -, h⟩ := bind_ok_iff.mp h
  obtain ⟨_, -, h⟩ := bind_ok_iff.mp h
  rw [← Except.ok.inj h, mem_insertionSort, mem_filter, all_eq_true]
  by_cases hnames : deployment.placement.targets.names = []
  · rw [if_pos hnames, mem_filter, decide_eq_true_eq]
    constructor
    · rintro ⟨⟨hmem, hkind⟩, hlabels⟩
      exact ⟨hmem, hkind, Or.inl hnames, fun label hlabel => of_decide_eq_true (hlabels label hlabel)⟩
    · rintro ⟨hmem, hselected⟩
      exact ⟨⟨hmem, hselected.kind⟩, fun label hlabel => decide_eq_true (hselected.labelled label hlabel)⟩
  · rw [if_neg hnames, mem_filter, mem_filter, decide_eq_true_eq, decide_eq_true_eq]
    constructor
    · rintro ⟨⟨⟨hmem, hkind⟩, hnamed⟩, hlabels⟩
      exact ⟨hmem, hkind, Or.inr hnamed, fun label hlabel => of_decide_eq_true (hlabels label hlabel)⟩
    · rintro ⟨hmem, hselected⟩
      exact ⟨⟨⟨hmem, hselected.kind⟩, hselected.named.resolve_left hnames⟩,
        fun label hlabel => decide_eq_true (hselected.labelled label hlabel)⟩

theorem select_names_nodup (hunique : (resources.map PlannedResource.name).Nodup)
    (h : select deployment resources = .ok selected) : (selected.map PlannedResource.name).Nodup := by
  obtain ⟨targets, hperm, hsublist⟩ := select_subperm h
  exact (hperm.map _).nodup_iff.mp (hunique.sublist (hsublist.map _))

end Selection

/-! ## Groups -/

section Groups

variable {deployment : AgentDeployment} {selected : List PlannedResource}
  {groups : List (String × List PlannedResource)}

variable {label : String} {values : List String}

/-- The labels are those of the selected resources. -/
theorem group_labels_ok (h : group_labels deployment label selected = .ok values) :
    ∀ resource ∈ selected, ∃ value ∈ values, resource.labels.lookup label = some value := by
  induction selected generalizing values with
  | nil => exact fun resource hmem => absurd hmem not_mem_nil
  | cons resource selected ih =>
    rw [group_labels] at h
    cases hlabel : resource.labels.lookup label with
    | none =>
      simp only [hlabel] at h
      cases h
    | some value =>
      simp only [hlabel] at h
      obtain ⟨rest, hrest, h⟩ := bind_ok_iff.mp h
      rw [← Except.ok.inj h]
      intro other hother
      rcases mem_cons.mp hother with rfl | hother
      · exact ⟨value, mem_cons_self, hlabel⟩
      · obtain ⟨found, hfound, hvalue⟩ := ih hrest other hother
        exact ⟨found, mem_cons_of_mem _ hfound, hvalue⟩

/-- The resources with one value of a label. -/
def group_of (label : String) (selected : List PlannedResource) (value : String) : List PlannedResource :=
  (selected.filter fun resource => resource.labels.lookup label = some value).insertionSort fun a b => a.name ≤ b.name

theorem mem_group_of {value : String} {resource : PlannedResource} :
    resource ∈ group_of label selected value ↔ resource ∈ selected ∧ resource.labels.lookup label = some value := by
  rw [group_of, mem_insertionSort, mem_filter, decide_eq_true_eq]

/-- The groups of a label split what is selected, when every resource has the label. -/
theorem groups_of_perm (hnodup : selected.Nodup) (hvalues : values.Nodup)
    (hall : ∀ resource ∈ selected, ∃ value ∈ values, resource.labels.lookup label = some value) :
    (values.flatMap (group_of label selected)).Perm selected := by
  have hgroups : (values.flatMap (group_of label selected)).Nodup := by
    refine nodup_flatMap.mpr ⟨fun value _ => ?_, hvalues.imp fun hne => ?_⟩
    · exact ((perm_insertionSort _ _).nodup_iff).mpr (hnodup.filter _)
    · intro resource hfirst hsecond
      have hone := (mem_group_of.mp hfirst).2
      rw [(mem_group_of.mp hsecond).2] at hone
      exact hne (Option.some.inj hone).symm
  refine (perm_ext_iff_of_nodup hgroups hnodup).mpr fun resource => ?_
  rw [mem_flatMap]
  constructor
  · rintro ⟨value, -, hmem⟩
    exact (mem_group_of.mp hmem).1
  · intro hmem
    obtain ⟨value, hvalue, hlabel⟩ := hall resource hmem
    exact ⟨value, hvalue, mem_group_of.mpr ⟨hmem, hlabel⟩⟩

/-- The groups, one after the other, are what is selected. -/
theorem target_groups_perm (hnames : (selected.map PlannedResource.name).Nodup)
    (h : target_groups deployment selected = .ok groups) : (groups.flatMap Prod.snd).Perm selected := by
  unfold target_groups at h
  split at h
  · split at h
    · rw [← Except.ok.inj h]
      exact Perm.refl _
    · cases h
  · rw [← Except.ok.inj h, flatMap_map]
    refine Perm.of_eq ?_
    exact flatMap_singleton' selected
  · split at h
    · cases h
    · next label _ =>
        obtain ⟨values, hvalues, h⟩ := bind_ok_iff.mp h
        rw [← Except.ok.inj h, flatMap_map]
        refine groups_of_perm (Nodup.of_map _ hnames) (sorted_set_nodup values) fun resource hmem => ?_
        obtain ⟨value, hvalue, hlabel⟩ := group_labels_ok hvalues resource hmem
        exact ⟨value, mem_sorted_set.mpr hvalue, hlabel⟩

end Groups

/-! ## Instances -/

section Expansion

variable {driver : SubstrateDriver} {checks : ScenarioChecks} {loaded : LoadedExperiment}
  {deployment : AgentDeployment} {instances after : List CompiledAgent}

/-- The names of the targets of instances, one after the other. -/
def covered (agents : List CompiledAgent) : List String := agents.flatMap fun agent => agent.attachment.targets

/-- A group becomes one instance, with its targets. -/
theorem compile_group_added {group : String × List PlannedResource}
    (h : compile_group driver checks loaded deployment instances group = .ok after) :
    ∃ agent, after = instances ++ [agent] ∧ agent.deployment = deployment.name ∧
      agent.attachment.targets = group.2.map PlannedResource.name := by
  obtain ⟨_, -, h⟩ := bind_ok_iff.mp h
  obtain ⟨_, -, h⟩ := bind_ok_iff.mp h
  obtain ⟨first, -, h⟩ := bind_ok_iff.mp h
  obtain ⟨_, -, h⟩ := bind_ok_iff.mp h
  obtain ⟨_, -, h⟩ := bind_ok_iff.mp h
  obtain ⟨privileges, -, h⟩ := bind_ok_iff.mp h
  exact ⟨_, (Except.ok.inj h).symm, rfl, rfl⟩

theorem compile_groups_added {groups : List (String × List PlannedResource)}
    (h : compile_groups driver checks loaded deployment instances groups = .ok after) :
    ∃ added, after = instances ++ added ∧ (∀ agent ∈ added, agent.deployment = deployment.name) ∧
      covered added = (groups.flatMap Prod.snd).map PlannedResource.name := by
  induction groups generalizing instances with
  | nil =>
    rw [← Except.ok.inj h]
    exact ⟨[], (append_nil _).symm, fun agent hagent => absurd hagent not_mem_nil, rfl⟩
  | cons group groups ih =>
    obtain ⟨between, hone, h⟩ := bind_ok_iff.mp h
    obtain ⟨agent, rfl, hdeployment, htargets⟩ := compile_group_added hone
    obtain ⟨added, hafter, hall, hcovered⟩ := ih h
    refine ⟨agent :: added, ?_, fun other hother => ?_, ?_⟩
    · rw [hafter, append_assoc, singleton_append]
    · rcases mem_cons.mp hother with rfl | hother
      · exact hdeployment
      · exact hall other hother
    · rw [flatMap_cons, map_append, ← hcovered, ← htargets]
      rfl

/-- The instances of a deployment cover what it selects, each resource once. -/
def Expanded (loaded : LoadedExperiment) (deployment : AgentDeployment) (agents : List CompiledAgent) : Prop :=
  ∃ selected, select deployment loaded.resources = .ok selected ∧
    (covered agents).Perm (selected.map PlannedResource.name)

theorem compile_deployment_added
    (h : compile_deployment driver checks loaded instances deployment = .ok after) :
    ∃ added, after = instances ++ added ∧ (∀ agent ∈ added, agent.deployment = deployment.name) ∧
      Expanded loaded deployment added := by
  obtain ⟨_, -, h⟩ := bind_ok_iff.mp h
  obtain ⟨selected, hselected, h⟩ := bind_ok_iff.mp h
  obtain ⟨_, -, h⟩ := bind_ok_iff.mp h
  obtain ⟨groups, hgroups, h⟩ := bind_ok_iff.mp h
  obtain ⟨_, -, h⟩ := bind_ok_iff.mp h
  obtain ⟨added, hafter, hall, hcovered⟩ := compile_groups_added h
  refine ⟨added, hafter, hall, selected, hselected, ?_⟩
  rw [hcovered]
  exact (target_groups_perm (select_names_nodup loaded.resources_unique hselected) hgroups).map _

/-- The run lemma: the instances of a deployment are those of its own turn. -/
theorem compile_deployments_added {deployments : List AgentDeployment}
    (hnames : (deployments.map AgentDeployment.name).Nodup)
    (h : compile_deployments driver checks loaded instances deployments = .ok after) :
    ∃ added, after = instances ++ added ∧
      (∀ agent ∈ added, agent.deployment ∈ deployments.map AgentDeployment.name) ∧
      ∀ deployment ∈ deployments, Expanded loaded deployment (of_deployment added deployment.name) := by
  induction deployments generalizing instances with
  | nil =>
    rw [← Except.ok.inj h]
    exact ⟨[], (append_nil _).symm, fun agent hagent => absurd hagent not_mem_nil,
      fun deployment hdeployment => absurd hdeployment not_mem_nil⟩
  | cons deployment deployments ih =>
    obtain ⟨hnew, hrest⟩ := List.nodup_cons.mp hnames
    obtain ⟨between, hone, h⟩ := bind_ok_iff.mp h
    obtain ⟨added, rfl, hmine, hexpanded⟩ := compile_deployment_added hone
    obtain ⟨later, hafter, hothers, hall⟩ := ih hrest h
    refine ⟨added ++ later, ?_, fun agent hagent => ?_, fun other hother => ?_⟩
    · rw [hafter, append_assoc]
    · rcases mem_append.mp hagent with hagent | hagent
      · rw [hmine agent hagent]
        exact mem_cons_self
      · exact mem_cons_of_mem _ (hothers agent hagent)
    · rw [of_deployment, filter_append]
      rcases mem_cons.mp hother with rfl | hother
      · -- what comes later has other deployments
        have hkept : added.filter (fun agent => agent.deployment = other.name) = added :=
          filter_eq_self.mpr fun agent hagent => decide_eq_true (hmine agent hagent)
        have hnone : later.filter (fun agent => agent.deployment = other.name) = [] := by
          refine filter_eq_nil_iff.mpr fun agent hagent hsame => ?_
          rw [← of_decide_eq_true hsame] at hnew
          exact hnew (hothers agent hagent)
        rw [hkept, hnone, append_nil]
        exact hexpanded
      · have hnone : added.filter (fun agent => agent.deployment = other.name) = [] := by
          refine filter_eq_nil_iff.mpr fun agent hagent hsame => ?_
          rw [hmine agent hagent] at hsame
          rw [of_decide_eq_true hsame] at hnew
          exact hnew (mem_map_of_mem hother)
        rw [hnone, nil_append]
        exact hall other hother

/-- The instances split the resources that a deployment selects. -/
structure Partition (loaded : LoadedExperiment) (deployment : AgentDeployment) (agents : List CompiledAgent) : Prop where
  disjoint : agents.Pairwise fun first second => List.Disjoint first.attachment.targets second.attachment.targets
  targets_once : ∀ agent ∈ agents, agent.attachment.targets.Nodup
  exact : ∀ name, (∃ agent ∈ agents, name ∈ agent.attachment.targets) ↔
    ∃ resource ∈ loaded.resources, Selected deployment resource ∧ resource.name = name
  once : ∀ resource ∈ loaded.resources, Selected deployment resource →
    ∃! agent, agent ∈ agents ∧ resource.name ∈ agent.attachment.targets

variable {agents : List CompiledAgent}

theorem Expanded.partition (h : Expanded loaded deployment agents) :
    Partition loaded deployment agents := by
  obtain ⟨selected, hselected, hperm⟩ := h
  have hnodup : (covered agents).Nodup :=
    hperm.nodup_iff.mpr (select_names_nodup loaded.resources_unique hselected)
  obtain ⟨honce, hdisjoint⟩ := nodup_flatMap.mp hnodup
  have hexact : ∀ name, (∃ agent ∈ agents, name ∈ agent.attachment.targets) ↔
      ∃ resource ∈ loaded.resources, Selected deployment resource ∧ resource.name = name := by
    intro name
    rw [← mem_flatMap, ← covered, hperm.mem_iff, mem_map]
    constructor
    · rintro ⟨resource, hmem, hname⟩
      obtain ⟨hresource, hmeets⟩ := (mem_select hselected).mp hmem
      exact ⟨resource, hresource, hmeets, hname⟩
    · rintro ⟨resource, hresource, hmeets, hname⟩
      exact ⟨resource, (mem_select hselected).mpr ⟨hresource, hmeets⟩, hname⟩
  refine ⟨hdisjoint, honce, hexact, fun resource hresource hmeets => ?_⟩
  obtain ⟨agent, hagent, htarget⟩ := (hexact resource.name).mpr ⟨resource, hresource, hmeets, rfl⟩
  refine ⟨agent, ⟨hagent, htarget⟩, fun other ⟨hother, htarget'⟩ => ?_⟩
  by_contra hne
  have hsymm : Std.Symm (Function.onFun List.Disjoint fun agent : CompiledAgent => agent.attachment.targets) :=
    ⟨fun _ _ hapart => List.Disjoint.symm hapart⟩
  exact hdisjoint.forall hother hagent hne htarget' htarget

/-- An order of its own changes nothing. -/
theorem Expanded.perm {agents' : List CompiledAgent} (h : Expanded loaded deployment agents)
    (hperm : agents.Perm agents') : Expanded loaded deployment agents' := by
  obtain ⟨selected, hselected, hcovered⟩ := h
  exact ⟨selected, hselected, (hperm.symm.flatMap_right _).trans hcovered⟩

/-- The instances of a plan. -/
structure PlanExpanded (loaded : LoadedExperiment) (instances : List CompiledAgent) : Prop where
  partition : ∀ deployment ∈ loaded.agents, Partition loaded deployment (of_deployment instances deployment.name)
  deployed : ∀ agent ∈ instances, agent.deployment ∈ loaded.agents.map AgentDeployment.name
  ids_unique : (instances.map CompiledAgent.id).Nodup
  limited : instances.length ≤ loaded.max_instances

theorem deployments_partition (h : compile_instances driver checks loaded = .ok instances) :
    PlanExpanded loaded instances := by
  have hids := (compile_instances_ok h).ids_nodup
  obtain ⟨_, hnames, h⟩ := bind_ok_iff.mp h
  obtain ⟨_, -, h⟩ := bind_ok_iff.mp h
  obtain ⟨unsorted, hunsorted, h⟩ := bind_ok_iff.mp h
  obtain ⟨_, hlimit, h⟩ := bind_ok_iff.mp h
  rw [← Except.ok.inj h] at hids ⊢
  obtain ⟨added, hadded, hdeployed, hexpanded⟩ := compile_deployments_added (refuse_repeats_ok hnames).1 hunsorted
  rw [nil_append] at hadded
  rw [← hadded] at hdeployed hexpanded
  have hperm := perm_insertionSort (fun a b : CompiledAgent => a.id ≤ b.id) unsorted
  refine ⟨fun deployment hdeployment => ?_, fun agent hagent => ?_, hids, ?_⟩
  · exact ((hexpanded deployment hdeployment).perm (hperm.symm.filter _)).partition
  · exact hdeployed agent (hperm.mem_iff.mp hagent)
  · rw [hperm.length_eq]
    exact Nat.le_of_not_lt (refuse_if_ok_iff.mp hlimit)

/-- An experiment, with the resources that are built of its topology. -/
def LoadedExperiment.over (loaded : LoadedExperiment) {sha256 : String → ℕ} {topology : Topology}
    {planned : List ResourcePlan} (h : build_resources sha256 topology = .ok planned) : LoadedExperiment :=
  { loaded with
    resources := planned.map ResourcePlan.toPlannedResource
    resources_unique := by
      rw [map_map]
      exact build_resources_unique h }

/-- The agents of an experiment are attached to resources that are built of its topology. -/
theorem attached_to_planned {sha256 : String → ℕ} {topology : Topology} {planned : List ResourcePlan}
    (hbuilt : build_resources sha256 topology = .ok planned)
    (h : compile_instances driver checks (loaded.over hbuilt) = .ok instances) :
    ∀ agent ∈ instances, ∀ target ∈ agent.attachment.targets, ∃ plan ∈ planned, plan.name = target := by
  intro agent hagent target htarget
  obtain ⟨_, -, hok⟩ := (compile_instances_ok h).each agent hagent
  obtain ⟨resource, hresource, hname⟩ := mem_map.mp (hok.targets_known htarget)
  obtain ⟨plan, hplan, rfl⟩ := mem_map.mp hresource
  exact ⟨plan, hplan, hname⟩

/-- The racks of three hosts. -/
def rack (value : String) : Dict String String := (∅ : Dict String String).insert "rack" value

theorem three_hosts_nodup : (([{ name := "h1", kind := .host, labels := rack "a" },
    { name := "h2", kind := .host, labels := rack "b c" }, { name := "h3", kind := .host, labels := rack "a" }] :
      List PlannedResource).map PlannedResource.name).Nodup := by decide

/-- An agent for each rack, and one for each host. -/
def racks : LoadedExperiment where
  agents :=
    [{ host_agent "a" "h1" name_a_nonempty with
        placement := { (host_agent "a" "h1" name_a_nonempty).placement with
          targets := { kind := .host }
          cardinality := .per_group
          group_by := some "rack" } },
      { host_agent "b" "h2" name_b_nonempty with
        placement := { (host_agent "b" "h2" name_b_nonempty).placement with targets := { kind := .host } } }]
  blueprints := [{ name := "router" }]
  capabilities := []
  resources := [{ name := "h1", kind := .host, labels := rack "a" },
    { name := "h2", kind := .host, labels := rack "b c" }, { name := "h3", kind := .host, labels := rack "a" }]
  resources_unique := three_hosts_nodup
  models_resolved := router_resolved

theorem deployments_partition_racks :
    ∃ instances, compile_instances any_driver any_scenario racks = .ok instances ∧
      instances.map (fun agent => (agent.id, agent.attachment.targets)) =
        [("a@rack-a", ["h1", "h3"]), ("a@rack-b-c", ["h2"]), ("b@h1", ["h1"]), ("b@h2", ["h2"]), ("b@h3", ["h3"])] ∧
      PlanExpanded racks instances := by
  have htargets : ((compile_instances any_driver any_scenario racks).toOption.map fun instances =>
      instances.map fun agent => (agent.id, agent.attachment.targets)) =
        some [("a@rack-a", ["h1", "h3"]), ("a@rack-b-c", ["h2"]), ("b@h1", ["h1"]), ("b@h2", ["h2"]),
          ("b@h3", ["h3"])] := by decide
  cases hcompiled : compile_instances any_driver any_scenario racks with
  | error e =>
    rw [hcompiled] at htargets
    cases htargets
  | ok instances =>
    rw [hcompiled] at htargets
    exact ⟨instances, rfl, Option.some.inj htargets, deployments_partition hcompiled⟩

end Expansion

end MininetAi
