/-
Whether a compiled coordination plan can be run: the edges the compiler emits against
the checks of the graph's constructor.

The compiler's edges always pass the checks of single edges but one, and the shapes of
centralized and distributed graphs. In a hierarchical experiment both what is left, self
edges and cycles, come from cycles of the authored relationships: an instance of a
deployment on such a cycle lies on a cycle of edges, and an edge leads from an instance
of one deployment only to instances of a deployment related to it.
-/
import MininetAi.Compiler.Coordination

set_option autoImplicit false

namespace MininetAi

open List Except

/-! ## Instances of a deployment -/

variable {instances : List CompiledAgent} {deployment : String} {edges : List CoordinationEdge}
  {loaded : LoadedExperiment}

variable {agent : CompiledAgent} {edge : CoordinationEdge} {pair : CompiledAgent × CompiledAgent}
  {spec : CoordinationSpec} {plan : DeploymentPlan}

theorem mem_of_deployment : agent ∈ of_deployment instances deployment ↔
      agent ∈ instances ∧ agent.deployment = deployment := by
  rw [of_deployment, mem_filter, decide_eq_true_eq]

theorem mem_known_deployments :
    deployment ∈ known_deployments instances ↔ of_deployment instances deployment ≠ [] := by
  rw [known_deployments, mem_map]
  constructor
  · rintro ⟨agent, hagent, hdeployment⟩
    exact ne_nil_of_mem (mem_of_deployment.mpr ⟨hagent, hdeployment⟩)
  · intro hsome
    obtain ⟨agent, hagent⟩ := exists_mem_of_ne_nil _ hsome
    exact ⟨agent, mem_of_deployment.mp hagent⟩

/-- The id of some instance of a deployment. -/
def an_instance (instances : List CompiledAgent) (deployment : String) : String :=
  ((of_deployment instances deployment).map CompiledAgent.id).headD ""

/-- The deployment of the instance with an id. -/
def deployment_of (instances : List CompiledAgent) (id : String) : String :=
  ((instances.filter fun agent => agent.id = id).map CompiledAgent.deployment).headD ""

theorem an_instance_spec (h : deployment ∈ known_deployments instances) :
    ∃ agent ∈ of_deployment instances deployment, agent.id = an_instance instances deployment := by
  have hsome := mem_known_deployments.mp h
  unfold an_instance
  cases hall : of_deployment instances deployment with
  | nil => exact absurd hall hsome
  | cons agent rest => exact ⟨agent, mem_cons_self, rfl⟩

theorem deployment_of_eq (hnodup : (instances.map CompiledAgent.id).Nodup)
    (hagent : agent ∈ instances) : deployment_of instances agent.id = agent.deployment := by
  have hmem : agent ∈ instances.filter fun other => other.id = agent.id :=
    mem_filter.mpr ⟨hagent, decide_eq_true rfl⟩
  unfold deployment_of
  cases hall : instances.filter (fun other => other.id = agent.id) with
  | nil =>
    rw [hall] at hmem
    cases hmem
  | cons other rest =>
    have hother : other ∈ instances.filter fun other => other.id = agent.id := by
      rw [hall]
      exact mem_cons_self
    obtain ⟨hin, hid⟩ := mem_filter.mp hother
    have heq := inj_on_of_nodup_map hnodup hin hagent (of_decide_eq_true hid)
    rw [heq]
    rfl

/-! ## Edges of the compiler -/

/-- One deployment is authored above another. -/
def Relates (relationships : List DeploymentRelationship) (a b : String) : Prop :=
  ∃ relationship ∈ relationships, relationship.source = a ∧ b ∈ relationship.targets

theorem mem_parent_edges {sources targets : List CompiledAgent} :
    edge ∈ parent_edges sources targets ↔ ∃ source ∈ sources, ∃ target ∈ targets,
      edge = { source := source.id, target := target.id, relationship := .parent } := by
  simp only [parent_edges, mem_flatMap, mem_map, eq_comm]

/-- What the loop over the targets adds, when it has found each of them. -/
theorem target_edges_ok {source : String} {targets : List String}
    (h : target_edges instances source targets = .ok edges) :
    (∀ target ∈ targets, target ∈ known_deployments instances) ∧
      ∀ edge, edge ∈ edges ↔ ∃ target ∈ targets, edge ∈
        parent_edges (of_deployment instances source) (of_deployment instances target) := by
  induction targets generalizing edges with
  | nil =>
    cases h
    exact ⟨fun _ hmem => absurd hmem not_mem_nil, fun edge => by simp⟩
  | cons target targets ih =>
    obtain ⟨_, hknown, h⟩ := bind_ok_iff.mp h
    obtain ⟨rest, hrest, h⟩ := bind_ok_iff.mp h
    cases h
    obtain ⟨hall, hedges⟩ := ih hrest
    have hfirst : target ∈ known_deployments instances :=
      not_not.mp (refuse_if_ok_iff.mp hknown)
    refine ⟨fun other hother => ?_, fun edge => ?_⟩
    · rcases mem_cons.mp hother with rfl | hother
      · exact hfirst
      · exact hall other hother
    · rw [mem_append, hedges, exists_mem_cons_iff]

/-- What the hierarchical branch adds, when it has found every deployment. -/
theorem hierarchical_edges_ok {relationships : List DeploymentRelationship}
    (h : hierarchical_edges instances relationships = .ok edges) :
    (∀ a b, Relates relationships a b →
        a ∈ known_deployments instances ∧ b ∈ known_deployments instances) ∧
      ∀ edge, edge ∈ edges ↔ ∃ a b, Relates relationships a b ∧
        edge ∈ parent_edges (of_deployment instances a) (of_deployment instances b) := by
  induction relationships generalizing edges with
  | nil =>
    cases h
    refine ⟨?_, fun edge => iff_of_false not_mem_nil ?_⟩
    · rintro a b ⟨_, hmem, -⟩
      cases hmem
    · rintro ⟨a, b, ⟨_, hmem, -⟩, -⟩
      cases hmem
  | cons relationship relationships ih =>
    obtain ⟨_, hknown, h⟩ := bind_ok_iff.mp h
    obtain ⟨first, hfirst, h⟩ := bind_ok_iff.mp h
    obtain ⟨rest, hrest, h⟩ := bind_ok_iff.mp h
    cases h
    obtain ⟨htargets, hfirst⟩ := target_edges_ok hfirst
    obtain ⟨hall, hrest⟩ := ih hrest
    have hsource : relationship.source ∈ known_deployments instances :=
      not_not.mp (refuse_if_ok_iff.mp hknown)
    have hsplit : ∀ a b, Relates (relationship :: relationships) a b ↔
        (relationship.source = a ∧ b ∈ relationship.targets) ∨ Relates relationships a b :=
      fun a b => exists_mem_cons_iff _ _ _
    refine ⟨fun a b hab => ?_, fun edge => ?_⟩
    · rcases (hsplit a b).mp hab with ⟨rfl, hb⟩ | hab
      · exact ⟨hsource, htargets b hb⟩
      · exact hall a b hab
    · rw [mem_append, hfirst, hrest]
      constructor
      · rintro (⟨b, hb, hedge⟩ | ⟨a, b, hab, hedge⟩)
        · exact ⟨_, b, (hsplit _ b).mpr (Or.inl ⟨rfl, hb⟩), hedge⟩
        · exact ⟨a, b, (hsplit a b).mpr (Or.inr hab), hedge⟩
      · rintro ⟨a, b, hab, hedge⟩
        rcases (hsplit a b).mp hab with ⟨rfl, hb⟩ | hab
        · exact Or.inl ⟨b, hb, hedge⟩
        · exact Or.inr ⟨a, b, hab, hedge⟩

theorem pairs_of_mem (h : pair ∈ pairs_of instances) : pair.1 ∈ instances ∧ pair.2 ∈ instances := by
  induction instances with
  | nil => cases h
  | cons source instances ih =>
    rcases mem_append.mp h with hhead | htail
    · obtain ⟨target, htarget, rfl⟩ := mem_map.mp hhead
      exact ⟨mem_cons_self, mem_cons_of_mem _ htarget⟩
    · obtain ⟨hfirst, hsecond⟩ := ih htail
      exact ⟨mem_cons_of_mem _ hfirst, mem_cons_of_mem _ hsecond⟩

/-- The two instances of a pair are not one. -/
theorem pairs_of_ne (hnodup : (instances.map CompiledAgent.id).Nodup)
    (h : pair ∈ pairs_of instances) : pair.1.id ≠ pair.2.id := by
  induction instances with
  | nil => cases h
  | cons source instances ih =>
    rw [map_cons, List.nodup_cons] at hnodup
    rcases mem_append.mp h with hhead | htail
    · obtain ⟨target, htarget, rfl⟩ := mem_map.mp hhead
      intro heq
      exact hnodup.1 (heq ▸ mem_map_of_mem htarget)
    · exact ih hnodup.2 htail

/-! ## Edges of a plan -/

/-- What the constructor of the graph checks of one edge, and that no edge is a self edge. -/
structure EdgeOk (mode : CoordinationMode) (instances : List CompiledAgent)
    (edge : CoordinationEdge) : Prop where
  relationship_eq : expected_relationship mode = some edge.relationship
  source_known : edge.source ∈ instances.map CompiledAgent.id
  target_known : edge.target ∈ instances.map CompiledAgent.id

theorem EdgeOk.validate {mode : CoordinationMode} {instances : List CompiledAgent}
    {edge : CoordinationEdge} (h : EdgeOk mode instances edge) (hself : edge.source ≠ edge.target) :
    CoordinationGraph.validate_edge mode (instances.map CompiledAgent.id) edge = .ok () := by
  rw [CoordinationGraph.validate_edge, h.relationship_eq]
  simp only
  rw [if_neg (not_not.mpr rfl), if_neg (not_not.mpr h.source_known),
    if_neg (not_not.mpr h.target_known), if_neg hself]

/-- Two edges that a mode allows are one when their ends are. -/
theorem EdgeOk.ends_inj {mode : CoordinationMode} {other : CoordinationEdge}
    (h : EdgeOk mode instances edge) (hother : EdgeOk mode instances other)
    (hends : edge.ends = other.ends) : edge = other := by
  have hrelationship := Option.some.inj (h.relationship_eq.symm.trans hother.relationship_eq)
  obtain ⟨hsource, htarget⟩ := Prod.mk.inj hends
  cases edge
  cases other
  cases hrelationship
  cases hsource
  cases htarget
  rfl

theorem centralized_edges_ok (h : centralized_edges spec instances = .ok edges) :
    ∃ coordinator ∈ instances, ∀ edge, edge ∈ edges ↔ ∃ target ∈ instances,
      target.id ≠ coordinator.id ∧
      edge = { source := coordinator.id, target := target.id, relationship := .coordinates } := by
  unfold centralized_edges at h
  cases hspec : spec.coordinator with
  | none =>
    rw [hspec] at h
    cases h
  | some deployment =>
    rw [hspec] at h
    obtain ⟨_, -, h⟩ := bind_ok_iff.mp h
    split at h
    · rename_i coordinator honly
      cases h
      have hcoordinator : coordinator ∈ of_deployment instances deployment := by
        rw [honly]
        exact mem_cons_self
      refine ⟨coordinator, (mem_of_deployment.mp hcoordinator).1, fun edge => ?_⟩
      rw [mem_map]
      constructor
      · rintro ⟨target, htarget, rfl⟩
        obtain ⟨hmem, hne⟩ := mem_filter.mp htarget
        exact ⟨target, hmem, of_decide_eq_true hne, rfl⟩
      · rintro ⟨target, hmem, hne, rfl⟩
        exact ⟨target, mem_filter.mpr ⟨hmem, decide_eq_true hne⟩, rfl⟩
    · cases h

theorem distributed_edges_ok {resources : List PlannedResource}
    (h : distributed_edges spec resources instances = .ok edges) :
    ∃ pairs ⊆ pairs_of instances, edges = pairs.flatMap peer_edges := by
  unfold distributed_edges at h
  split at h
  · cases h
    exact ⟨_, Subset.refl _, rfl⟩
  · obtain ⟨neighbors, -, h⟩ := bind_ok_iff.mp h
    cases h
    exact ⟨_, filter_subset_self _, rfl⟩

section

variable (h : coordination loaded instances = .ok edges)
include h

/-- The edges of a plan are those the branch of its mode has collected, each once. -/
theorem coordination_ok :
    edges.Nodup ∧ ∃ authored, authored_edges loaded instances = .ok authored ∧
      ∀ edge, edge ∈ edges ↔ edge ∈ authored := by
  obtain ⟨authored, hauthored, h⟩ := bind_ok_iff.mp h
  cases h
  refine ⟨?_, authored, hauthored, fun edge => ?_⟩
  · rw [(perm_insertionSort _ _).nodup_iff]
    exact authored.nodup_dedup
  · rw [mem_insertionSort, mem_dedup]

/-- Every edge of a plan passes the checks of single edges, but for self edges. -/
theorem coordination_edge_ok : ∀ edge ∈ edges, EdgeOk loaded.coordination.mode instances edge := by
  obtain ⟨-, authored, hauthored, hmem⟩ := coordination_ok h
  intro edge hedge
  rw [hmem] at hedge
  unfold authored_edges at hauthored
  have hid : ∀ agent ∈ instances, agent.id ∈ instances.map CompiledAgent.id :=
    fun agent => mem_map_of_mem
  cases hmode : loaded.coordination.mode with
  | independent =>
    rw [hmode] at hauthored
    cases hauthored
    cases hedge
  | centralized =>
    rw [hmode] at hauthored
    obtain ⟨coordinator, hcoordinator, hedges⟩ := centralized_edges_ok hauthored
    obtain ⟨target, htarget, -, rfl⟩ := (hedges edge).mp hedge
    exact ⟨rfl, hid _ hcoordinator, hid _ htarget⟩
  | hierarchical =>
    rw [hmode] at hauthored
    obtain ⟨-, hedges⟩ := hierarchical_edges_ok hauthored
    obtain ⟨a, b, -, hedge⟩ := (hedges edge).mp hedge
    obtain ⟨source, hsource, target, htarget, rfl⟩ := mem_parent_edges.mp hedge
    exact ⟨rfl, hid _ (mem_of_deployment.mp hsource).1, hid _ (mem_of_deployment.mp htarget).1⟩
  | distributed =>
    rw [hmode] at hauthored
    obtain ⟨pairs, hpairs, rfl⟩ := distributed_edges_ok hauthored
    obtain ⟨pair, hpair, hedge⟩ := mem_flatMap.mp hedge
    obtain ⟨hfirst, hsecond⟩ := pairs_of_mem (hpairs hpair)
    rcases mem_pair.mp hedge with rfl | rfl
    · exact ⟨rfl, hid _ hfirst, hid _ hsecond⟩
    · exact ⟨rfl, hid _ hsecond, hid _ hfirst⟩

/-- No two edges of a plan have the same ends. -/
theorem coordination_ends_nodup : (edges.map CoordinationEdge.ends).Nodup := by
  have hok := coordination_edge_ok h
  refine Nodup.map_on ?_ (coordination_ok h).1
  exact fun edge hedge other hother => (hok edge hedge).ends_inj (hok other hother)

end

/-! ## The constructor of the graph -/

namespace CoordinationGraph

variable {edges : List CoordinationEdge}

/-- A star around one of the agents has the shape of a centralized graph. -/
theorem validate_centralized_star {agents : List String}
    {coordinator : String} (hcoordinator : coordinator ∈ agents)
    (hsource : ∀ edge ∈ edges, edge.source = coordinator)
    (hnot_self : ∀ edge ∈ edges, edge.target ≠ coordinator ∧ edge.target ∈ agents)
    (hall : ∀ agent ∈ agents, agent ≠ coordinator → (coordinator, agent) ∈
      edges.map CoordinationEdge.ends) (hagents : agents.Nodup) :
    ∃ found, validate_centralized agents edges = .ok found := by
  rcases agents with _ | ⟨first, _ | ⟨second, rest⟩⟩
  · cases hcoordinator
  · have hnone : edges = [] := by
      refine eq_nil_iff_forall_not_mem.mpr fun edge hedge => ?_
      obtain ⟨hne, hmem⟩ := hnot_self edge hedge
      exact hne ((mem_singleton.mp hmem).trans (mem_singleton.mp hcoordinator).symm)
    exact ⟨first, by rw [validate_centralized, if_neg (not_not.mpr hnone)]⟩
  · have hedges : edges ≠ [] := by
      -- one of the first two agents is not the coordinator
      rintro rfl
      have hne : first ≠ second := fun heq =>
        (List.nodup_cons.mp hagents).1 (heq ▸ mem_cons_self)
      by_cases hfirst : first = coordinator
      · have hmem := hall second (mem_cons_of_mem _ mem_cons_self)
          fun hsecond => hne (hfirst.trans hsecond.symm)
        cases hmem
      · have hmem := hall first mem_cons_self hfirst
        cases hmem
    have hsources : (edges.map CoordinationEdge.source).dedup = [coordinator] := by
      have hreplicate : edges.map CoordinationEdge.source =
          replicate edges.length coordinator := by
        refine eq_replicate_iff.mpr ⟨length_map _, fun source hmem => ?_⟩
        obtain ⟨edge, hedge, rfl⟩ := mem_map.mp hmem
        exact hsource edge hedge
      rw [hreplicate]
      exact replicate_dedup fun hzero => hedges (length_eq_zero_iff.mp hzero)
    refine ⟨coordinator, ?_⟩
    unfold validate_centralized
    simp only [hsources]
    refine if_pos ⟨fun pair hpair => ?_, fun pair hpair => ?_⟩
    · obtain ⟨edge, hedge, rfl⟩ := mem_map.mp hpair
      obtain ⟨hne, hmem⟩ := hnot_self edge hedge
      refine mem_map.mpr ⟨edge.target, mem_filter.mpr ⟨hmem, decide_eq_true hne⟩, ?_⟩
      exact Prod.ext (hsource edge hedge).symm rfl
    · obtain ⟨agent, hagent, rfl⟩ := mem_map.mp hpair
      obtain ⟨hmem, hne⟩ := mem_filter.mp hagent
      exact hall agent hmem (of_decide_eq_true hne)

/-- Edges with all their reverses have the shape of a distributed graph. -/
theorem validate_peers_symmetric
    (h : ∀ edge ∈ edges, (edge.target, edge.source) ∈ edges.map CoordinationEdge.ends) :
    validate_peers edges = .ok () := by
  unfold validate_peers
  cases hfind : edges.find? (fun edge =>
      (edge.target, edge.source) ∉ edges.map CoordinationEdge.ends) with
  | none => rfl
  | some edge =>
    have hmissing := find?_some hfind
    exact absurd (h edge (mem_of_find?_eq_some hfind)) (of_decide_eq_true hmissing)

end CoordinationGraph

/-! ## Shapes of the compiler -/

/-- What lies above what in a hierarchical plan. -/
theorem above_iff (hmode : loaded.coordination.mode = .hierarchical)
    (h : coordination loaded instances = .ok edges) (a b : String) :
    CoordinationGraph.Above edges a b ↔
      ∃ source ∈ instances, ∃ target ∈ instances, source.id = a ∧ target.id = b ∧
        Relates loaded.coordination.relationships source.deployment target.deployment := by
  obtain ⟨-, authored, hauthored, hmem⟩ := coordination_ok h
  rw [authored_edges, hmode] at hauthored
  obtain ⟨-, hedges⟩ := hierarchical_edges_ok hauthored
  rw [CoordinationGraph.Above, mem_map]
  constructor
  · rintro ⟨edge, hedge, hends⟩
    obtain ⟨c, d, hrelates, hedge⟩ := (hedges edge).mp ((hmem edge).mp hedge)
    obtain ⟨source, hsource, target, htarget, rfl⟩ := mem_parent_edges.mp hedge
    obtain ⟨hsource_mem, rfl⟩ := mem_of_deployment.mp hsource
    obtain ⟨htarget_mem, rfl⟩ := mem_of_deployment.mp htarget
    obtain ⟨hfirst, hsecond⟩ := Prod.mk.inj hends
    exact ⟨source, hsource_mem, target, htarget_mem, hfirst, hsecond, hrelates⟩
  · rintro ⟨source, hsource, target, htarget, rfl, rfl, hrelates⟩
    have hedge := mem_parent_edges.mpr ⟨source, mem_of_deployment.mpr ⟨hsource, rfl⟩, target,
      mem_of_deployment.mpr ⟨htarget, rfl⟩, rfl⟩
    exact ⟨_, (hmem _).mpr ((hedges _).mpr ⟨_, _, hrelates, hedge⟩), rfl⟩

/-- The edges of a hierarchical plan have a cycle exactly when the relationships between
deployments have one. Along edges every instance goes to its deployment; along
relationships every deployment goes to one of its instances. -/
theorem hierarchy_acyclic_iff (hmode : loaded.coordination.mode = .hierarchical)
    (hnodup : (instances.map CompiledAgent.id).Nodup)
    (h : coordination loaded instances = .ok edges) : Acyclic (CoordinationGraph.Above edges) ↔
      Acyclic (Relates loaded.coordination.relationships) := by
  constructor
  · refine Acyclic.of_map (an_instance instances) fun a b hrelates => ?_
    obtain ⟨-, authored, hauthored, -⟩ := coordination_ok h
    rw [authored_edges, hmode] at hauthored
    obtain ⟨ha, hb⟩ := (hierarchical_edges_ok hauthored).1 a b hrelates
    obtain ⟨source, hsource, hsource_id⟩ := an_instance_spec ha
    obtain ⟨target, htarget, htarget_id⟩ := an_instance_spec hb
    obtain ⟨hsource_mem, rfl⟩ := mem_of_deployment.mp hsource
    obtain ⟨htarget_mem, rfl⟩ := mem_of_deployment.mp htarget
    exact (above_iff hmode h _ _).mpr
      ⟨source, hsource_mem, target, htarget_mem, hsource_id, htarget_id, hrelates⟩
  · refine Acyclic.of_map (deployment_of instances) fun a b habove => ?_
    obtain ⟨source, hsource, target, htarget, rfl, rfl, hrelates⟩ := (above_iff hmode h a b).mp habove
    rw [deployment_of_eq hnodup hsource, deployment_of_eq hnodup htarget]
    exact hrelates

/-- A centralized plan is a star around its coordinator. -/
theorem centralized_runnable (hmode : loaded.coordination.mode = .centralized)
    (hnodup : (instances.map CompiledAgent.id).Nodup)
    (h : coordination loaded instances = .ok edges) :
    (∀ edge ∈ edges, edge.source ≠ edge.target) ∧
      ∃ coordinator, CoordinationGraph.validate_shape .centralized
        (instances.map CompiledAgent.id) edges = .ok coordinator := by
  obtain ⟨-, authored, hauthored, hmem⟩ := coordination_ok h
  rw [authored_edges, hmode] at hauthored
  obtain ⟨coordinator, hcoordinator, hedges⟩ := centralized_edges_ok hauthored
  have hedge : ∀ edge ∈ edges, ∃ target ∈ instances, target.id ≠ coordinator.id ∧
      edge = { source := coordinator.id, target := target.id, relationship := .coordinates } :=
    fun edge hin => (hedges edge).mp ((hmem edge).mp hin)
  refine ⟨fun edge hin => ?_, ?_⟩
  · obtain ⟨target, -, hne, rfl⟩ := hedge edge hin
    exact fun heq => hne heq.symm
  · have hshape : ∃ found, CoordinationGraph.validate_centralized
        (instances.map CompiledAgent.id) edges = .ok found := by
      refine CoordinationGraph.validate_centralized_star (mem_map_of_mem hcoordinator)
        (fun edge hin => ?_) (fun edge hin => ?_) (fun id hid hne => ?_) hnodup
      · obtain ⟨target, -, -, rfl⟩ := hedge edge hin
        rfl
      · obtain ⟨target, htarget, hne, rfl⟩ := hedge edge hin
        exact ⟨hne, mem_map_of_mem htarget⟩
      · obtain ⟨agent, hagent, rfl⟩ := mem_map.mp hid
        have hin := (hmem _).mpr ((hedges _).mpr ⟨agent, hagent, hne, rfl⟩)
        exact mem_map_of_mem hin
    obtain ⟨found, hfound⟩ := hshape
    exact ⟨some found, by rw [CoordinationGraph.validate_shape, hfound]; rfl⟩

/-- A distributed plan has every edge in both directions. -/
theorem distributed_runnable (hmode : loaded.coordination.mode = .distributed)
    (hnodup : (instances.map CompiledAgent.id).Nodup)
    (h : coordination loaded instances = .ok edges) :
    (∀ edge ∈ edges, edge.source ≠ edge.target) ∧
      ∃ coordinator, CoordinationGraph.validate_shape .distributed
        (instances.map CompiledAgent.id) edges = .ok coordinator := by
  obtain ⟨-, authored, hauthored, hmem⟩ := coordination_ok h
  rw [authored_edges, hmode] at hauthored
  obtain ⟨pairs, hpairs, rfl⟩ := distributed_edges_ok hauthored
  refine ⟨fun edge hin => ?_, none, ?_⟩
  · obtain ⟨pair, hpair, hedge⟩ := mem_flatMap.mp ((hmem edge).mp hin)
    have hne := pairs_of_ne hnodup (hpairs hpair)
    rcases mem_pair.mp hedge with rfl | rfl
    · exact hne
    · exact fun heq => hne heq.symm
  · have hshape : CoordinationGraph.validate_peers edges = .ok () := by
      refine CoordinationGraph.validate_peers_symmetric fun edge hin => ?_
      obtain ⟨pair, hpair, hedge⟩ := mem_flatMap.mp ((hmem edge).mp hin)
      have hboth : ∀ other ∈ peer_edges pair, other ∈ edges :=
        fun other hother => (hmem other).mpr (mem_flatMap.mpr ⟨pair, hpair, hother⟩)
      rcases mem_pair.mp hedge with rfl | rfl
      · exact mem_map.mpr ⟨_, hboth _ (mem_cons_of_mem _ mem_cons_self), rfl⟩
      · exact mem_map.mpr ⟨_, hboth _ mem_cons_self, rfl⟩
    rw [CoordinationGraph.validate_shape, hshape]
    rfl

/-! ## Two agents -/

/-- A driver and checks that refuse nothing. -/
def any_driver : SubstrateDriver where
  validate_attachment _ _ _ _ := []
  validate_observation _ _ _ := []

def any_scenario : ScenarioChecks where
  check_experiment _ := .ok ()
  check_deployment _ _ := .ok ()
  check_groups _ _ _ := .ok ()
  check_targets _ _ _ := .ok ()

/-- An agent on one host. -/
def host_agent (name host : String) (hname : name ≠ "") : AgentDeployment where
  name := name
  name_nonempty := hname
  blueprint := "router"
  placement :=
    { layer := .host
      targets := { kind := .host, names := [host] }
      runtime := "process"
      custom_layer_given := fun heq => by cases heq
      custom_layer_only := fun _ => rfl }

theorem name_a_nonempty : "a" ≠ "" := by decide

theorem name_b_nonempty : "b" ≠ "" := by decide

theorem two_hosts_nodup : (([{ name := "h1", kind := .host }, { name := "h2", kind := .host }] :
    List PlannedResource).map PlannedResource.name).Nodup := by decide

theorem router_resolved : ∀ blueprint ∈ ([{ name := "router" }] : List AgentBlueprint),
    blueprint.model_reference = false := by decide

/-- Two hosts with an agent on each, and the relationships between them. -/
def two_agents (relationships : List DeploymentRelationship) : LoadedExperiment where
  agents := [host_agent "a" "h1" name_a_nonempty, host_agent "b" "h2" name_b_nonempty]
  blueprints := [{ name := "router" }]
  capabilities := []
  resources := [{ name := "h1", kind := .host }, { name := "h2", kind := .host }]
  coordination := { mode := .hierarchical, relationships := relationships }
  resources_unique := two_hosts_nodup
  models_resolved := router_resolved

/-- What becomes of an experiment: the error its graph is refused with, if it compiles. -/
def graph_error (loaded : LoadedExperiment) : Option CoordinationGraphError :=
  match compile_experiment any_driver any_scenario loaded with
  | .error _ => none
  | .ok plan => match CoordinationGraph.build plan.coordination with
    | .error e => some e
    | .ok _ => none

theorem graph_error_spec {e : CoordinationGraphError} (h : graph_error loaded = some e) :
    ∃ plan, compile_experiment any_driver any_scenario loaded = .ok plan ∧
      CoordinationGraph.build plan.coordination = .error e := by
  unfold graph_error at h
  split at h
  · cases h
  · rename_i plan hplan
    refine ⟨plan, hplan, ?_⟩
    split at h
    · rename_i e' herror
      rw [herror, Option.some.inj h]
    · cases h

/-! ## Plans -/

/-- What an accepted experiment leaves of its plan. -/
structure Compiled (loaded : LoadedExperiment) (plan : DeploymentPlan) : Prop where
  instances_ok : InstancesOk loaded loaded.agents plan.agents
  mode_eq : plan.mode = loaded.coordination.mode
  edges_eq : coordination loaded plan.agents = .ok plan.edges
  blueprints_nodup : (loaded.blueprints.map AgentBlueprint.name).Nodup
  blueprints_perm : plan.blueprints.Perm loaded.blueprints
  capabilities_nodup : (loaded.capabilities.map DeclaredCapability.name).Nodup
  capabilities_perm : plan.capability_definitions.Perm loaded.capabilities

theorem compile_experiment_ok {driver : SubstrateDriver} {checks : ScenarioChecks}
    (h : compile_experiment driver checks loaded = .ok plan) : Compiled loaded plan := by
  obtain ⟨_, hblueprints, h⟩ := bind_ok_iff.mp h
  obtain ⟨_, hcapabilities, h⟩ := bind_ok_iff.mp h
  obtain ⟨instances, hinstances, h⟩ := bind_ok_iff.mp h
  obtain ⟨edges, hedges, h⟩ := bind_ok_iff.mp h
  cases h
  exact ⟨compile_instances_ok hinstances, rfl, hedges,
    (refuse_repeats_ok hblueprints).1, perm_insertionSort _ _,
    (refuse_repeats_ok hcapabilities).1, perm_insertionSort _ _⟩

/-- When the graph of a plan is built all is left to self edges and the shape. -/
theorem Compiled.build_ok_iff (h : Compiled loaded plan) :
    (∃ graph, CoordinationGraph.build plan.coordination = .ok graph) ↔
      (∀ edge ∈ plan.edges, edge.source ≠ edge.target) ∧
        ∃ coordinator, CoordinationGraph.validate_shape loaded.coordination.mode
          (plan.agents.map CompiledAgent.id) plan.edges = .ok coordinator := by
  have hok := coordination_edge_ok h.edges_eq
  have hedges : (∀ edge ∈ plan.edges, CoordinationGraph.validate_edge plan.mode
      (plan.agents.map CompiledAgent.id) edge = .ok ()) ↔
      ∀ edge ∈ plan.edges, edge.source ≠ edge.target := by
    refine forall₂_congr fun edge hedge => ?_
    constructor
    · exact fun hcheck => (CoordinationGraph.validate_edge_ok hcheck).2.2
    · rw [h.mode_eq]
      exact (hok edge hedge).validate
  rw [CoordinationGraph.build_ok_iff, DeploymentPlan.coordination, hedges, h.mode_eq,
    and_iff_right h.instances_ok.ids_nodup, and_iff_right (coordination_ends_nodup h.edges_eq)]

/-- The graph of a compiled plan can be built exactly when the relationships of a
hierarchical experiment have no cycle. -/
theorem compiled_graph_iff {driver : SubstrateDriver} {checks : ScenarioChecks}
    {loaded : LoadedExperiment} {plan : DeploymentPlan}
    (h : compile_experiment driver checks loaded = .ok plan) :
    (∃ graph, CoordinationGraph.build plan.coordination = .ok graph) ↔
      (loaded.coordination.mode = .hierarchical →
        Acyclic (Relates loaded.coordination.relationships)) := by
  have hcompiled := compile_experiment_ok h
  have hnodup := hcompiled.instances_ok.ids_nodup
  have hedges := hcompiled.edges_eq
  rw [hcompiled.build_ok_iff]
  cases hmode : loaded.coordination.mode with
  | independent =>
    refine iff_of_true ⟨fun edge hedge => ?_, none, rfl⟩ fun heq => by cases heq
    have hrelationship := (coordination_edge_ok hedges edge hedge).relationship_eq
    rw [hmode] at hrelationship
    cases hrelationship
  | centralized =>
    exact iff_of_true (centralized_runnable hmode hnodup hedges) fun heq => by cases heq
  | distributed =>
    exact iff_of_true (distributed_runnable hmode hnodup hedges) fun heq => by cases heq
  | hierarchical =>
    rw [imp_iff_right rfl, ← hierarchy_acyclic_iff hmode hnodup hedges]
    have hok := coordination_edge_ok hedges
    have hsimple : CoordinationGraph.Simple (plan.agents.map CompiledAgent.id) plan.edges :=
      ⟨hnodup, coordination_ends_nodup hedges, fun edge hedge => (hok edge hedge).source_known,
        fun edge hedge => (hok edge hedge).target_known⟩
    constructor
    · rintro ⟨hself, coordinator, hshape⟩
      refine (CoordinationGraph.validate_hierarchy_iff hsimple hself).mp ?_
      cases hcheck : CoordinationGraph.validate_hierarchy
          (plan.agents.map CompiledAgent.id) plan.edges with
      | ok => rfl
      | error e =>
        rw [CoordinationGraph.validate_shape, hcheck] at hshape
        cases hshape
    · intro hacyclic
      have hself : ∀ edge ∈ plan.edges, edge.source ≠ edge.target := by
        intro edge hedge heq
        refine hacyclic edge.source (.single (mem_map.mpr ⟨edge, hedge, ?_⟩))
        exact Prod.ext rfl heq.symm
      refine ⟨hself, none, ?_⟩
      rw [CoordinationGraph.validate_shape,
        (CoordinationGraph.validate_hierarchy_iff hsimple hself).mpr hacyclic]
      rfl

/-- One agent above the other. -/
theorem compiled_graph_iff_tree : ∃ plan, compile_experiment any_driver any_scenario (two_agents
        [{ source := "a", targets := ["b"] }]) = .ok plan ∧
      ∃ graph, CoordinationGraph.build plan.coordination = .ok graph := by
  have hcompiles : (compile_experiment any_driver any_scenario (two_agents
      [{ source := "a", targets := ["b"] }])).toOption.isSome = true := by decide +kernel
  obtain ⟨plan, hplan⟩ := Option.isSome_iff_exists.mp hcompiles
  have hok := toOption_some_iff.mp hplan
  refine ⟨plan, hok, (compiled_graph_iff hok).mpr fun _ => ?_⟩
  refine Acyclic.of_numbering (fun name => if name = "b" then 1 else 0) ?_
  rintro a b ⟨relationship, hmem, rfl, htarget⟩
  rw [mem_singleton.mp hmem] at htarget ⊢
  rw [mem_singleton.mp htarget]
  decide

/-- Each of two agents above the other, and one above itself: both experiments compile, and
neither plan has a graph. -/
theorem compiled_graph_refused : (∃ plan, compile_experiment any_driver any_scenario (two_agents
        [{ source := "a", targets := ["b"] }, { source := "b", targets := ["a"] }]) = .ok plan ∧
      CoordinationGraph.build plan.coordination = .error .cycle) ∧
    ∃ plan, compile_experiment any_driver any_scenario (two_agents
        [{ source := "a", targets := ["a"] }]) = .ok plan ∧
      CoordinationGraph.build plan.coordination = .error (.self_edge "a@h1") :=
  ⟨graph_error_spec (by decide +kernel), graph_error_spec (by decide +kernel)⟩

end MininetAi
