/-
The compiled coordination graph (`mininet_ai/coordination/graph.py`).

`CoordinationGraph.build` is the constructor with its checks, in the source's
order. What later modules need from it is `CoordinationGraph.Accepted`: the ends of
every edge are two different known agents, no two edges have the same ends, and a
centralized graph has a coordinator.

An error keeps what its message is formatted from.
-/
import Mathlib.Data.List.Dedup
import Mathlib.Data.List.Sort
import Mathlib.Data.String.Basic

set_option autoImplicit false

namespace MininetAi

open List

/-! ## Plans -/

/-- How the agents of a plan are coordinated. -/
inductive CoordinationMode where
  | independent
  | centralized
  | hierarchical
  | distributed
  deriving DecidableEq

inductive CoordinationRelationship where
  | coordinates
  | parent
  | peer
  deriving DecidableEq

/-- One authorized direction of delivery. -/
structure CoordinationEdge where
  source : String
  target : String
  relationship : CoordinationRelationship
  deriving DecidableEq

/-- The key of an edge in `_edges`. -/
def CoordinationEdge.ends (edge : CoordinationEdge) : String × String := (edge.source, edge.target)

/-- The part of a deployment plan the graph is built from. -/
structure CoordinationPlan where
  agent_ids : List String
  mode : CoordinationMode
  edges : List CoordinationEdge := []

/-! ## Errors -/

/-- The role of an unknown agent. -/
inductive AgentRole where
  | requested
  | source
  | target
  deriving DecidableEq

inductive CoordinationGraphError where
  | duplicate_agents
  | independent_edges
  | wrong_relationship (mode : CoordinationMode) (expected found : CoordinationRelationship)
  | unknown_source (agent : String)
  | unknown_target (agent : String)
  | self_edge (agent : String)
  | duplicate_edge (source target : String)
  | no_agent
  | singleton_edges
  | coordinator_sources
  | coordinator_edges
  | cycle
  | no_reverse (source target : String)
  | agent_unknown (role : AgentRole) (agent : String)
  | delivery_denied (source target : String)
  deriving DecidableEq

/-- The code of an error. -/
def CoordinationGraphError.code : CoordinationGraphError → String
  | .agent_unknown _ _ => "coordination.graph.agent-unknown"
  | .delivery_denied _ _ => "coordination.graph.delivery-denied"
  | _ => "coordination.graph.invalid-plan"

/-! ## The graph -/

structure CoordinationGraph where
  mode : CoordinationMode
  agents : List String
  edges : List CoordinationEdge
  coordinator : Option String := none
  deriving DecidableEq

/-- The relationship a mode expects. -/
def expected_relationship : CoordinationMode → Option CoordinationRelationship
  | .centralized => some .coordinates
  | .hierarchical => some .parent
  | .distributed => some .peer
  | .independent => none

namespace CoordinationGraph

def validate_edge (mode : CoordinationMode) (agents : List String) (edge : CoordinationEdge) :
    Except CoordinationGraphError Unit :=
  match expected_relationship mode with
  | none => .error .independent_edges
  | some expected =>
    if edge.relationship ≠ expected then
      .error (.wrong_relationship mode expected edge.relationship)
    else if edge.source ∉ agents then .error (.unknown_source edge.source)
    else if edge.target ∉ agents then .error (.unknown_target edge.target)
    else if edge.source = edge.target then .error (.self_edge edge.source)
    else .ok ()

/-- The loop of the constructor over the edges of the plan. -/
def add_edges (mode : CoordinationMode) (agents : List String) (edges : List CoordinationEdge) :
    List CoordinationEdge → Except CoordinationGraphError (List CoordinationEdge)
  | [] => .ok edges
  | edge :: rest => do
      validate_edge mode agents edge
      if edge.ends ∈ edges.map CoordinationEdge.ends then
        .error (.duplicate_edge edge.source edge.target)
      else add_edges mode agents (edges ++ [edge]) rest

/-- The sorted targets of an agent's edges. -/
def targets (edges : List CoordinationEdge) (source : String) : List String :=
  ((edges.filter fun edge => edge.source = source).map CoordinationEdge.target).insertionSort
    (· ≤ ·)

/-- `_validate_centralized`, with the coordinator it sets. -/
def validate_centralized (agents : List String) (edges : List CoordinationEdge) :
    Except CoordinationGraphError String :=
  match agents with
  | [] => .error .no_agent
  | [agent] => if edges ≠ [] then .error .singleton_edges else .ok agent
  | _ => match (edges.map CoordinationEdge.source).dedup with
    | [coordinator] =>
      let expected := (agents.filter (· ≠ coordinator)).map (Prod.mk coordinator)
      let found := edges.map CoordinationEdge.ends
      if (∀ pair ∈ found, pair ∈ expected) ∧ ∀ pair ∈ expected, pair ∈ found then .ok coordinator
      else .error .coordinator_edges
    | _ => .error .coordinator_sources

/-- The inner loop of `_validate_hierarchy`: the targets lose an incoming edge, and
those that have none left are ready. -/
def release_targets (incoming : String → ℕ) (ready : List String) :
    List String → (String → ℕ) × List String
  | [] => (incoming, ready)
  | target :: rest =>
    let incoming := Function.update incoming target (incoming target - 1)
    release_targets incoming (if incoming target = 0 then ready ++ [target] else ready) rest

/-- The outer loop of `_validate_hierarchy`: how many agents it visits. An agent
becomes ready once, so as many rounds as there are agents are enough. -/
def visit (edges : List CoordinationEdge) : ℕ → (String → ℕ) → List String → ℕ
  | 0, _, _ => 0
  | _, _, [] => 0
  | rounds + 1, incoming, source :: ready =>
    let (incoming, ready) := release_targets incoming ready (targets edges source)
    visit edges rounds incoming ready + 1

def validate_hierarchy (agents : List String) (edges : List CoordinationEdge) :
    Except CoordinationGraphError Unit :=
  let incoming := fun agent => (edges.filter fun edge => edge.target = agent).length
  let ready := (agents.filter fun agent => incoming agent = 0).insertionSort (· ≤ ·)
  if visit edges agents.length incoming ready ≠ agents.length then .error .cycle else .ok ()

def validate_peers (edges : List CoordinationEdge) : Except CoordinationGraphError Unit :=
  match edges.find? fun edge => (edge.target, edge.source) ∉ edges.map CoordinationEdge.ends with
  | some edge => .error (.no_reverse edge.source edge.target)
  | none => .ok ()

/-- `_validate_shape`, with the coordinator it sets. -/
def validate_shape (mode : CoordinationMode) (agents : List String)
    (edges : List CoordinationEdge) : Except CoordinationGraphError (Option String) :=
  match mode with
  | .independent => .ok none
  | .centralized => (validate_centralized agents edges).map some
  | .hierarchical => (validate_hierarchy agents edges).map fun _ => none
  | .distributed => (validate_peers edges).map fun _ => none

/-- The constructor. -/
def build (plan : CoordinationPlan) : Except CoordinationGraphError CoordinationGraph :=
  if ¬ plan.agent_ids.Nodup then .error .duplicate_agents
  else do
    let edges ← add_edges plan.mode plan.agent_ids [] plan.edges
    let coordinator ← validate_shape plan.mode plan.agent_ids edges
    pure
      { mode := plan.mode, agents := plan.agent_ids, edges := edges, coordinator := coordinator }

/-- `hop_limit`: the largest explicit delegation depth. -/
def hop_limit (graph : CoordinationGraph) : ℕ := max 1 (graph.agents.length * 2)

def require_agent (graph : CoordinationGraph) (agent : String) (role : AgentRole) :
    Except CoordinationGraphError Unit :=
  if agent ∉ graph.agents then .error (.agent_unknown role agent) else .ok ()

/-- `entry_agent`. The assertion of the source is `CoordinationGraph.Accepted`. -/
def entry_agent (graph : CoordinationGraph) (requested_agent : String) :
    Except CoordinationGraphError String := do
  graph.require_agent requested_agent .requested
  match graph.mode, graph.coordinator with
  | .centralized, some coordinator => pure coordinator
  | _, _ => pure requested_agent

def destinations (graph : CoordinationGraph) (source : String) :
    Except CoordinationGraphError (List String) := do
  graph.require_agent source .source
  pure (targets graph.edges source)

def authorize (graph : CoordinationGraph) (source target : String) :
    Except CoordinationGraphError CoordinationEdge := do
  graph.require_agent source .source
  graph.require_agent target .target
  match graph.edges.find? fun edge => edge.ends = (source, target) with
  | some edge => pure edge
  | none => .error (.delivery_denied source target)

/-! ## Accepted graphs -/

/-- What the constructor guarantees. -/
structure Accepted (graph : CoordinationGraph) : Prop where
  agents_nodup : graph.agents.Nodup
  source_known : ∀ edge ∈ graph.edges, edge.source ∈ graph.agents
  target_known : ∀ edge ∈ graph.edges, edge.target ∈ graph.agents
  no_self_edge : ∀ edge ∈ graph.edges, edge.source ≠ edge.target
  ends_nodup : (graph.edges.map CoordinationEdge.ends).Nodup
  coordinator_known : ∀ coordinator, graph.coordinator = some coordinator →
    coordinator ∈ graph.agents
  centralized_has_coordinator : graph.mode = .centralized → graph.coordinator ≠ none

variable {agents : List String} {plan : CoordinationPlan} {graph : CoordinationGraph}

variable {mode : CoordinationMode} {edge : CoordinationEdge} {edges : List CoordinationEdge}
  {requested : String}

theorem validate_edge_ok (h : validate_edge mode agents edge = .ok ()) :
    edge.source ∈ agents ∧ edge.target ∈ agents ∧ edge.source ≠ edge.target := by
  unfold validate_edge at h
  split at h
  · cases h
  split at h
  · cases h
  split at h
  · cases h
  rename_i hsource
  split at h
  · cases h
  rename_i htarget
  split at h
  · cases h
  rename_i hself
  exact ⟨not_not.mp hsource, not_not.mp htarget, hself⟩

/-- The edges that were added before stay, and each new one has passed its check. -/
theorem add_edges_ok {before after : List CoordinationEdge}
    (h : add_edges mode agents before edges = .ok after)
    (hnodup : (before.map CoordinationEdge.ends).Nodup) :
    (after.map CoordinationEdge.ends).Nodup ∧
      ∀ edge ∈ after, edge ∈ before ∨ validate_edge mode agents edge = .ok () := by
  induction edges generalizing before with
  | nil =>
    cases h
    exact ⟨hnodup, fun edge hedge => Or.inl hedge⟩
  | cons edge rest ih =>
    unfold add_edges at h
    rcases hcheck : validate_edge mode agents edge with e | ⟨⟨⟩⟩
    · rw [hcheck] at h
      cases h
    rw [hcheck] at h
    by_cases hdup : edge.ends ∈ before.map CoordinationEdge.ends
    · simp [bind, Except.bind, hdup] at h
    have hrest : add_edges mode agents (before ++ [edge]) rest = .ok after := by
      simpa [bind, Except.bind, hdup] using h
    have hnodup' : ((before ++ [edge]).map CoordinationEdge.ends).Nodup := by
      rw [map_append, map_singleton, nodup_append]
      refine ⟨hnodup, nodup_singleton _, ?_⟩
      intro a ha b hb hab
      rw [mem_singleton.mp hb] at hab
      exact hdup (hab ▸ ha)
    obtain ⟨hafter, hchecked⟩ := ih hrest hnodup'
    refine ⟨hafter, fun e he => ?_⟩
    rcases hchecked e he with hmem | hok
    · rcases mem_append.mp hmem with hold | hnew
      · exact Or.inl hold
      · rw [mem_singleton.mp hnew]
        exact Or.inr hcheck
    · exact Or.inr hok

theorem validate_centralized_ok {coordinator : String}
    (h : validate_centralized agents edges = .ok coordinator)
    (hedges : ∀ edge ∈ edges, edge.source ∈ agents) : coordinator ∈ agents := by
  unfold validate_centralized at h
  split at h
  · cases h
  · split at h
    · cases h
    · cases h
      exact mem_cons_self
  · split at h
    · rename_i only hsources
      have hmem : only ∈ (edges.map CoordinationEdge.source).dedup := by
        rw [hsources]
        exact mem_cons_self
      obtain ⟨edge, hedge, rfl⟩ := mem_map.mp (mem_dedup.mp hmem)
      simp only at h
      split at h
      · cases h
        exact hedges edge hedge
      · cases h
    · cases h

/-- What the constructor has done when it did not raise. -/
theorem build_cases (h : build plan = .ok graph) : plan.agent_ids.Nodup ∧ ∃ edges coordinator,
      add_edges plan.mode plan.agent_ids [] plan.edges = .ok edges ∧
      validate_shape plan.mode plan.agent_ids edges = .ok coordinator ∧
      graph = { mode := plan.mode, agents := plan.agent_ids, edges, coordinator } := by
  unfold build at h
  split at h
  · cases h
  rename_i hagents
  rcases hadd : add_edges plan.mode plan.agent_ids [] plan.edges with e | edges
  · rw [hadd] at h
    cases h
  rw [hadd] at h
  rcases hshape : validate_shape plan.mode plan.agent_ids edges with e | coordinator
  · simp [bind, Except.bind, hshape] at h
  simp only [bind, Except.bind, hshape, pure, Except.pure, Except.ok.injEq] at h
  exact ⟨not_not.mp hagents, edges, coordinator, rfl, hshape, h.symm⟩

/-- The agents of a graph are those of its plan. -/
theorem build_agents (h : build plan = .ok graph) : graph.agents = plan.agent_ids := by
  obtain ⟨_, edges, coordinator, _, _, rfl⟩ := build_cases h
  rfl

/-- What `build` returns is accepted. -/
theorem build_ok (h : build plan = .ok graph) : graph.Accepted := by
  obtain ⟨hagents, edges, coordinator, hadd, hshape, rfl⟩ := build_cases h
  obtain ⟨hnodup, hchecked⟩ := add_edges_ok hadd nodup_nil
  have hedge : ∀ edge ∈ edges, edge.source ∈ plan.agent_ids ∧ edge.target ∈ plan.agent_ids ∧
      edge.source ≠ edge.target := by
    intro edge hmem
    rcases hchecked edge hmem with hnil | hok
    · cases hnil
    · exact validate_edge_ok hok
  refine ⟨hagents, fun e he => (hedge e he).1, fun e he => (hedge e he).2.1,
    fun e he => (hedge e he).2.2, hnodup, ?_, ?_⟩
  · intro c hc
    -- only a centralized graph has a coordinator
    cases hmode : plan.mode with
    | centralized =>
      rw [hmode] at hshape
      rcases hvalid : validate_centralized plan.agent_ids edges with e | c'
      · simp [validate_shape, hvalid, Except.map] at hshape
      · have hcc : some c' = coordinator := by
          simpa [validate_shape, hvalid, Except.map] using hshape
        have heq : c' = c := Option.some.inj (hcc.trans hc)
        rw [← heq]
        exact validate_centralized_ok hvalid fun e he => (hedge e he).1
    | independent | hierarchical | distributed =>
      rw [hmode] at hshape
      have hnone : coordinator = none := by
        simp only [validate_shape, Except.map] at hshape
        first
          | (cases hshape; rfl)
          | (split at hshape
             · cases hshape
             · cases hshape; rfl)
      rw [hnone] at hc
      cases hc
  · intro hmode hnone
    simp only at hmode hnone
    rw [hmode, hnone] at hshape
    rcases hvalid : validate_centralized plan.agent_ids edges with e | c
    · simp [validate_shape, hvalid, Except.map] at hshape
    · simp [validate_shape, hvalid, Except.map] at hshape

/-- The first recipient is an agent of the graph. -/
theorem Accepted.entry_known (hgraph : graph.Accepted) {entry : String}
    (h : graph.entry_agent requested = .ok entry) : entry ∈ graph.agents := by
  unfold entry_agent require_agent at h
  by_cases hknown : requested ∈ graph.agents
  · simp only [hknown, not_true_eq_false, if_false, bind, Except.bind, pure, Except.pure] at h
    split at h
    · rename_i coordinator hmode hcoordinator
      cases h
      exact hgraph.coordinator_known _ hcoordinator
    · cases h
      exact hknown
  · simp [hknown, bind, Except.bind] at h

/-- A known agent has a first recipient. -/
theorem entry_agent_defined (graph : CoordinationGraph) (h : requested ∈ graph.agents) :
    ∃ entry, graph.entry_agent requested = .ok entry := by
  unfold entry_agent require_agent
  simp only [h, not_true_eq_false, if_false, bind, Except.bind]
  split
  · exact ⟨_, rfl⟩
  · exact ⟨_, rfl⟩

/-- What is authorized is an edge of the graph. -/
theorem authorize_ok {source target : String} (h : graph.authorize source target = .ok edge) :
    edge ∈ graph.edges ∧ edge.source = source ∧ edge.target = target := by
  unfold authorize require_agent at h
  by_cases hsource : source ∈ graph.agents
  swap
  · simp [hsource, bind, Except.bind] at h
  by_cases htarget : target ∈ graph.agents
  swap
  · simp [hsource, htarget, bind, Except.bind] at h
  simp only [hsource, htarget, not_true_eq_false, if_false, bind, Except.bind, pure,
    Except.pure] at h
  split at h
  · rename_i found hfound
    cases h
    have hends := find?_some hfound
    simp only [CoordinationEdge.ends, decide_eq_true_eq, Prod.mk.injEq] at hends
    exact ⟨mem_of_find?_eq_some hfound, hends⟩
  · cases h

end CoordinationGraph

end MininetAi
