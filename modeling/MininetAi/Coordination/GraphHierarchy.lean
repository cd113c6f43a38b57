/-
The hierarchy check of the coordination graph (`_validate_hierarchy` in
`mininet_ai/coordination/graph.py`).

The loop takes an agent none of whose incoming edges is left, counts it, and takes its
outgoing edges away. What is left of an agent's incoming edges is at every moment the
number of its edges from agents not taken yet, so an agent is taken after all the agents
above it: if all are taken the order in which they are is a numbering along the edges,
and if some are not, each of these has another one above it, which is a cycle.
-/
import MininetAi.Coordination.Graph
import MininetAi.Lib.Acyclic
import MininetAi.Lib.Results

set_option autoImplicit false

namespace MininetAi

open List

namespace CoordinationGraph

/-! ## Edges -/

/-- There is an edge from one agent to the other. -/
def Above (edges : List CoordinationEdge) (a b : String) : Prop :=
  (a, b) ∈ edges.map CoordinationEdge.ends

/-- The edges into an agent from agents that are not in the list. -/
def remaining (edges : List CoordinationEdge) (visited : List String) (agent : String) : ℕ :=
  (edges.filter fun edge => edge.target = agent ∧ edge.source ∉ visited).length

/-- What the checks of the edges leave to the hierarchy check. -/
structure Simple (agents : List String) (edges : List CoordinationEdge) : Prop where
  agents_nodup : agents.Nodup
  ends_nodup : (edges.map CoordinationEdge.ends).Nodup
  source_known : ∀ edge ∈ edges, edge.source ∈ agents
  target_known : ∀ edge ∈ edges, edge.target ∈ agents

variable {edges : List CoordinationEdge} {visited agents ready : List String} {source : String}
  {incoming : String → ℕ}

theorem remaining_eq_zero {agent : String} : remaining edges visited agent = 0 ↔
      ∀ edge ∈ edges, edge.target = agent → edge.source ∈ visited := by
  rw [remaining, length_eq_zero_iff, filter_eq_nil_iff]
  refine forall₂_congr fun edge _ => ?_
  rw [decide_eq_true_eq, not_and, not_not]

theorem mem_targets {target : String} :
    target ∈ targets edges source ↔ Above edges source target := by
  rw [targets, mem_insertionSort, mem_map, Above, mem_map]
  constructor
  · rintro ⟨edge, hedge, rfl⟩
    obtain ⟨hmem, hsource⟩ := mem_filter.mp hedge
    exact ⟨edge, hmem, by rw [CoordinationEdge.ends, of_decide_eq_true hsource]⟩
  · rintro ⟨edge, hmem, hends⟩
    obtain ⟨hsource, htarget⟩ := Prod.mk.inj hends
    exact ⟨edge, mem_filter.mpr ⟨hmem, decide_eq_true hsource⟩, htarget⟩

theorem targets_nodup (h : (edges.map CoordinationEdge.ends).Nodup) (source : String) :
    (targets edges source).Nodup := by
  rw [targets, (perm_insertionSort _ _).nodup_iff]
  refine Nodup.map_on ?_ ((Nodup.of_map _ h).filter _)
  intro edge hedge other hother htarget
  obtain ⟨hmem, hsource⟩ := mem_filter.mp hedge
  obtain ⟨hmem', hsource'⟩ := mem_filter.mp hother
  refine inj_on_of_nodup_map h hmem hmem' (Prod.ext ?_ htarget)
  exact (of_decide_eq_true hsource).trans (of_decide_eq_true hsource').symm

/-- An agent's edges from the agents not visited are those from one of them and those
from the others. -/
theorem remaining_append (edges : List CoordinationEdge) (hsource : source ∉ visited)
    (agent : String) : remaining edges visited agent =
      remaining edges (visited ++ [source]) agent +
        (edges.map CoordinationEdge.ends).count (source, agent) := by
  unfold remaining
  induction edges with
  | nil => rfl
  | cons edge edges ih =>
    rw [map_cons, count_cons]
    by_cases htarget : edge.target = agent
    · by_cases hends : edge.source = source
      · have hkey : edge.ends = (source, agent) := Prod.ext hends htarget
        have hbefore : edge.target = agent ∧ edge.source ∉ visited :=
          ⟨htarget, by rw [hends]; exact hsource⟩
        have hafter : ¬ (edge.target = agent ∧ edge.source ∉ visited ++ [source]) := by
          rintro ⟨-, hnot⟩
          exact hnot (by rw [hends]; simp)
        rw [filter_cons_of_pos (by simpa using hbefore),
          filter_cons_of_neg (by simpa using hafter), length_cons, ih, hkey,
          beq_self_eq_true, if_pos rfl]
        omega
      · have hkey : (edge.ends == (source, agent)) = false :=
          beq_eq_false_iff_ne.mpr fun heq => hends (Prod.mk.inj heq).1
        rw [hkey, if_neg Bool.false_ne_true]
        by_cases hvisited : edge.source ∈ visited
        · rw [filter_cons_of_neg (by simp [hvisited]),
            filter_cons_of_neg (by simp [hvisited]), ih]
          rfl
        · rw [filter_cons_of_pos (by simp [htarget, hvisited]),
            filter_cons_of_pos (by simp [htarget, hvisited, hends]), length_cons,
            length_cons, ih]
          omega
    · have hkey : (edge.ends == (source, agent)) = false :=
        beq_eq_false_iff_ne.mpr fun heq => htarget (Prod.mk.inj heq).2
      rw [hkey, if_neg Bool.false_ne_true, filter_cons_of_neg (by simp [htarget]),
        filter_cons_of_neg (by simp [htarget]), ih]
      rfl

/-- Visiting one more agent takes away the one edge from it, if there is one. -/
theorem remaining_visit (h : (edges.map CoordinationEdge.ends).Nodup) (hsource : source ∉ visited)
    (agent : String) : remaining edges (visited ++ [source]) agent =
      if agent ∈ targets edges source then remaining edges visited agent - 1
      else remaining edges visited agent := by
  have hsplit := remaining_append edges hsource agent
  by_cases hmem : agent ∈ targets edges source
  · rw [if_pos hmem, hsplit, count_eq_one_of_mem h (mem_targets.mp hmem)]
    omega
  · rw [if_neg hmem, hsplit, count_eq_zero_of_not_mem fun habove => hmem (mem_targets.mpr habove)]
    rfl

/-! ## The loop -/

/-- The inner loop over targets without duplicates. -/
theorem release_targets_eq {released : List String} (h : released.Nodup) (incoming : String → ℕ)
    (ready : List String) : (∀ agent, (release_targets incoming ready released).1 agent =
        if agent ∈ released then incoming agent - 1 else incoming agent) ∧
      (release_targets incoming ready released).2 =
        ready ++ released.filter fun agent => incoming agent - 1 = 0 := by
  induction released generalizing incoming ready with
  | nil => exact ⟨fun _ => rfl, (append_nil _).symm⟩
  | cons target rest ih =>
    obtain ⟨hnot, hrest⟩ := List.nodup_cons.mp h
    rw [release_targets]
    obtain ⟨hcount, hready⟩ := ih hrest (Function.update incoming target (incoming target - 1))
      (if Function.update incoming target (incoming target - 1) target = 0 then ready ++ [target]
        else ready)
    refine ⟨fun agent => ?_, ?_⟩
    · rw [hcount]
      by_cases hagent : agent = target
      · subst hagent
        rw [if_neg hnot, if_pos mem_cons_self, Function.update_self]
      · rw [Function.update_of_ne hagent]
        simp only [mem_cons, hagent, false_or]
    · rw [hready, Function.update_self]
      have hfilter : (rest.filter fun agent =>
          Function.update incoming target (incoming target - 1) agent - 1 = 0) =
          rest.filter fun agent => incoming agent - 1 = 0 := by
        refine filter_congr fun agent hagent => ?_
        have hne : agent ≠ target := fun heq => hnot (heq ▸ hagent)
        rw [Function.update_of_ne hne]
      rw [hfilter]
      by_cases hzero : incoming target - 1 = 0
      · rw [if_pos hzero, filter_cons_of_pos (by simpa using hzero), append_assoc]
        rfl
      · rw [if_neg hzero, filter_cons_of_neg (by simpa using hzero)]

/-- The state of the loop: the agents visited so far, in order. -/
structure Visiting (agents : List String) (edges : List CoordinationEdge) (visited : List String)
    (incoming : String → ℕ) (ready : List String) : Prop where
  incoming_eq : ∀ agent, incoming agent = remaining edges visited agent
  nodup : (visited ++ ready).Nodup
  known : ∀ agent ∈ visited ++ ready, agent ∈ agents
  free : ∀ agent ∈ agents, incoming agent = 0 ↔ agent ∈ visited ++ ready
  /-- No edge leads back. -/
  ordered : visited.Pairwise fun a b => ¬ Above edges b a

theorem Visiting.start (h : Simple agents edges) :
    Visiting agents edges [] (fun agent => (edges.filter fun edge => edge.target = agent).length)
      ((agents.filter fun agent =>
        (edges.filter fun edge => edge.target = agent).length = 0).insertionSort (· ≤ ·)) := by
  refine ⟨fun agent => ?_, ?_, ?_, ?_, List.Pairwise.nil⟩
  · unfold remaining
    simp
  · rw [nil_append, (perm_insertionSort _ _).nodup_iff]
    exact h.agents_nodup.filter _
  · intro agent hmem
    rw [nil_append, mem_insertionSort] at hmem
    exact mem_of_mem_filter hmem
  · intro agent hagent
    rw [nil_append, mem_insertionSort, mem_filter, and_iff_right hagent,
      decide_eq_true_eq]

/-- Everything above an agent that is visited or ready has been visited. -/
theorem Visiting.above_visited (h : Visiting agents edges visited incoming ready) {a b : String}
    (hb : b ∈ visited ++ ready) (hab : Above edges a b) : a ∈ visited := by
  have hzero : remaining edges visited b = 0 := by
    rw [← h.incoming_eq]
    exact (h.free b (h.known b hb)).mpr hb
  obtain ⟨edge, hedge, hends⟩ := mem_map.mp hab
  obtain ⟨rfl, rfl⟩ := Prod.mk.inj hends
  exact remaining_eq_zero.mp hzero edge hedge rfl

/-- One round of the outer loop. -/
theorem Visiting.round (hsimple : Simple agents edges)
    (h : Visiting agents edges visited incoming (source :: ready)) :
    Visiting agents edges (visited ++ [source])
      (release_targets incoming ready (targets edges source)).1
      (release_targets incoming ready (targets edges source)).2 := by
  have htargets := targets_nodup hsimple.ends_nodup source
  obtain ⟨hcount, hready⟩ := release_targets_eq htargets incoming ready
  have hparts := nodup_append.mp h.nodup
  have hsource : source ∉ visited :=
    fun hmem => hparts.2.2 source hmem source mem_cons_self rfl
  have hincoming : ∀ agent, (release_targets incoming ready (targets edges source)).1 agent =
      remaining edges (visited ++ [source]) agent := by
    intro agent
    rw [hcount, remaining_visit hsimple.ends_nodup hsource, h.incoming_eq]
  -- a released agent had an edge left, so it was not ready before
  have hpositive : ∀ agent ∈ targets edges source, incoming agent ≠ 0 := by
    intro agent hagent hzero
    rw [h.incoming_eq, remaining_eq_zero] at hzero
    obtain ⟨edge, hedge, hends⟩ := mem_map.mp (mem_targets.mp hagent)
    obtain ⟨rfl, rfl⟩ := Prod.mk.inj hends
    exact hsource (hzero edge hedge rfl)
  have hknown : ∀ agent ∈ targets edges source, agent ∈ agents := by
    intro agent hagent
    obtain ⟨edge, hedge, hends⟩ := mem_map.mp (mem_targets.mp hagent)
    obtain ⟨-, rfl⟩ := Prod.mk.inj hends
    exact hsimple.target_known edge hedge
  have hold : visited ++ [source] ++ ready = visited ++ source :: ready := by
    rw [append_assoc, singleton_append]
  refine ⟨hincoming, ?_, ?_, ?_, ?_⟩
  · rw [hready, ← append_assoc, hold]
    refine nodup_append.mpr ⟨h.nodup, htargets.filter _, ?_⟩
    rintro agent hagent _ hnew rfl
    have hmem := (mem_filter.mp hnew).1
    exact hpositive agent hmem ((h.free agent (hknown agent hmem)).mpr hagent)
  · intro agent hagent
    rw [hready, ← append_assoc, hold] at hagent
    rcases mem_append.mp hagent with hagent | hnew
    · exact h.known agent hagent
    · exact hknown agent (mem_filter.mp hnew).1
  · intro agent hagent
    rw [hready, ← append_assoc, hold, mem_append, ← h.free agent hagent, mem_filter,
      hcount, decide_eq_true_eq]
    by_cases hmem : agent ∈ targets edges source
    · rw [if_pos hmem]
      have hpos := hpositive agent hmem
      constructor
      · exact fun hzero => Or.inr ⟨hmem, hzero⟩
      · rintro (hzero | ⟨-, hzero⟩)
        · exact absurd hzero hpos
        · exact hzero
    · rw [if_neg hmem]
      constructor
      · exact Or.inl
      · rintro (hzero | ⟨hmem', -⟩)
        · exact hzero
        · exact absurd hmem' hmem
  · rw [pairwise_append]
    refine ⟨h.ordered, pairwise_singleton _ _, ?_⟩
    intro a ha b hb habove
    rw [mem_singleton.mp hb] at habove
    exact hsource (h.above_visited (mem_append_left _ ha) habove)

/-- The outer loop: it visits as many agents as it counts, and stops when no agent is
ready or when all rounds are used. -/
theorem Visiting.run (hsimple : Simple agents edges) (rounds : ℕ)
    (h : Visiting agents edges visited incoming ready) :
    ∃ visited' incoming' ready', Visiting agents edges visited' incoming' ready' ∧
      visited'.length = visited.length + visit edges rounds incoming ready ∧
      (ready' = [] ∨ visit edges rounds incoming ready = rounds) := by
  induction rounds generalizing visited ready incoming with
  | zero => exact ⟨visited, incoming, ready, h, rfl, Or.inr rfl⟩
  | succ rounds ih =>
    cases ready with
    | nil => exact ⟨visited, incoming, [], h, rfl, Or.inl rfl⟩
    | cons source ready =>
      obtain ⟨visited', incoming', ready', hafter, hlength, hend⟩ := ih (h.round hsimple)
      rw [length_append, length_singleton] at hlength
      have hvisit : visit edges (rounds + 1) incoming (source :: ready) =
          visit edges rounds (release_targets incoming ready (targets edges source)).1
            (release_targets incoming ready (targets edges source)).2 + 1 := rfl
      refine ⟨visited', incoming', ready', hafter, ?_, ?_⟩
      · rw [hlength, hvisit]
        omega
      · rw [hvisit]
        exact hend.imp id fun hrounds => congrArg (· + 1) hrounds

/-! ## The check -/

/-- When every agent is visited the order of the visits is a numbering along the edges. -/
theorem Visiting.acyclic (hsimple : Simple agents edges)
    (hself : ∀ edge ∈ edges, edge.source ≠ edge.target)
    (h : Visiting agents edges visited incoming ready) (hall : ∀ agent ∈ agents, agent ∈ visited) :
    Acyclic (Above edges) := by
  refine Acyclic.of_numbering visited.idxOf fun a b habove => ?_
  obtain ⟨edge, hedge, hends⟩ := mem_map.mp habove
  obtain ⟨rfl, rfl⟩ := Prod.mk.inj hends
  have ha := hall _ (hsimple.source_known edge hedge)
  have hb := hall _ (hsimple.target_known edge hedge)
  rcases Nat.lt_trichotomy (visited.idxOf edge.source) (visited.idxOf edge.target) with
    hlt | heq | hgt
  · exact hlt
  · exact absurd ((idxOf_inj ha).mp heq) (hself edge hedge)
  · have hback := pairwise_iff_getElem.mp h.ordered _ _ (idxOf_lt_length_of_mem hb)
      (idxOf_lt_length_of_mem ha) hgt
    rw [getElem_idxOf, getElem_idxOf] at hback
    exact absurd habove hback

/-- The hierarchy check passes exactly when the edges have no cycle. -/
theorem validate_hierarchy_iff (hsimple : Simple agents edges)
    (hself : ∀ edge ∈ edges, edge.source ≠ edge.target) :
    validate_hierarchy agents edges = .ok () ↔ Acyclic (Above edges) := by
  obtain ⟨visited, incoming, ready, h, hlength, hend⟩ :=
    (Visiting.start hsimple).run hsimple agents.length
  have hsub : visited ⊆ agents :=
    fun agent hagent => h.known agent (mem_append_left _ hagent)
  have hnodup : visited.Nodup := (nodup_append.mp h.nodup).1
  rw [length_nil, Nat.zero_add] at hlength
  have hcheck : validate_hierarchy agents edges = .ok () ↔ visited.length = agents.length := by
    rw [hlength, validate_hierarchy]
    simp only
    split
    · rename_i hne
      exact iff_of_false nofun hne
    · rename_i heq
      exact iff_of_true rfl (not_not.mp heq)
  rw [hcheck]
  constructor
  · intro heq
    have hperm := (subperm_of_subset hnodup hsub).perm_of_length_le (Nat.le_of_eq heq.symm)
    exact h.acyclic hsimple hself fun agent hagent => hperm.mem_iff.mpr hagent
  · intro hacyclic
    rcases hend with rfl | hrounds
    · by_contra hne
      have hleft : (agents.filter fun agent => agent ∉ visited) ≠ [] := by
        intro hnone
        have hall : agents ⊆ visited := by
          intro agent hagent
          have hin := filter_eq_nil_iff.mp hnone agent hagent
          simpa using hin
        exact hne ((perm_ext_iff_of_nodup hnodup hsimple.agents_nodup).mpr fun agent =>
          ⟨fun hagent => hsub hagent, fun hagent => hall hagent⟩).length_eq
      obtain ⟨a, ha, hfirst⟩ := hacyclic.exists_first hleft
      obtain ⟨hagent, hnot⟩ := mem_filter.mp ha
      have hnot' : a ∉ visited := of_decide_eq_true hnot
      have hincoming : ¬ remaining edges visited a = 0 := by
        rw [← h.incoming_eq, h.free a hagent, append_nil]
        exact hnot'
      rw [remaining_eq_zero] at hincoming
      simp only [not_forall] at hincoming
      obtain ⟨edge, hedge, rfl, hsource⟩ := hincoming
      refine hfirst edge.source ?_ (.single (mem_map.mpr ⟨edge, hedge, rfl⟩))
      exact mem_filter.mpr ⟨hsimple.source_known edge hedge, decide_eq_true hsource⟩
    · rw [hlength, hrounds]

/-! ## The constructor -/

theorem ends_nil_nodup : (([] : List CoordinationEdge).map CoordinationEdge.ends).Nodup :=
  nodup_nil

/-- The loop over the edges returns them all when each passes its check and no two have
the same ends, and only then. -/
theorem add_edges_ok_iff {mode : CoordinationMode} {before after : List CoordinationEdge}
    (h : (before.map CoordinationEdge.ends).Nodup) :
    add_edges mode agents before edges = .ok after ↔
      after = before ++ edges ∧ (∀ edge ∈ edges, validate_edge mode agents edge = .ok ()) ∧
        ((before ++ edges).map CoordinationEdge.ends).Nodup := by
  induction edges generalizing before with
  | nil =>
    rw [add_edges, append_nil]
    constructor
    · intro heq
      cases heq
      exact ⟨rfl, fun _ hmem => absurd hmem not_mem_nil, h⟩
    · rintro ⟨rfl, -, -⟩
      rfl
  | cons edge rest ih =>
    have hassoc : before ++ edge :: rest = before ++ [edge] ++ rest := by
      rw [append_assoc, singleton_append]
    rw [add_edges, Except.bind_ok_iff, forall_mem_cons]
    by_cases hdup : edge.ends ∈ before.map CoordinationEdge.ends
    · rw [if_pos hdup]
      refine iff_of_false (fun ⟨_, _, herror⟩ => by cases herror) ?_
      rintro ⟨-, -, hnodup⟩
      rw [map_append, nodup_append] at hnodup
      exact hnodup.2.2 _ hdup _ mem_cons_self rfl
    · rw [if_neg hdup, hassoc]
      have hnew : ((before ++ [edge]).map CoordinationEdge.ends).Nodup := by
        rw [map_append, map_singleton]
        refine nodup_append.mpr ⟨h, nodup_singleton _, ?_⟩
        rintro ends hends _ hedge rfl
        exact hdup (mem_singleton.mp hedge ▸ hends)
      constructor
      · rintro ⟨⟨⟩, hcheck, hrest⟩
        obtain ⟨hafter, hall, hnodup⟩ := (ih hnew).mp hrest
        exact ⟨hafter, ⟨hcheck, hall⟩, hnodup⟩
      · rintro ⟨hafter, ⟨hcheck, hall⟩, hnodup⟩
        exact ⟨(), hcheck, (ih hnew).mpr ⟨hafter, hall, hnodup⟩⟩

/-- What the constructor asks of a plan. -/
theorem build_ok_iff {plan : CoordinationPlan} : (∃ graph, build plan = .ok graph) ↔
      plan.agent_ids.Nodup ∧
        (∀ edge ∈ plan.edges, validate_edge plan.mode plan.agent_ids edge = .ok ()) ∧
        (plan.edges.map CoordinationEdge.ends).Nodup ∧
        ∃ coordinator, validate_shape plan.mode plan.agent_ids plan.edges = .ok coordinator := by
  rw [build]
  by_cases hagents : plan.agent_ids.Nodup
  · rw [if_neg (not_not.mpr hagents), and_iff_right hagents]
    constructor
    · rintro ⟨graph, h⟩
      obtain ⟨edges, hedges, h⟩ := Except.bind_ok_iff.mp h
      obtain ⟨coordinator, hshape, -⟩ := Except.bind_ok_iff.mp h
      obtain ⟨rfl, hall, hnodup⟩ := (add_edges_ok_iff (ends_nil_nodup)).mp hedges
      exact ⟨hall, hnodup, coordinator, hshape⟩
    · rintro ⟨hall, hnodup, coordinator, hshape⟩
      have hedges := (add_edges_ok_iff (ends_nil_nodup)).mpr ⟨rfl, hall, hnodup⟩
      exact ⟨_, Except.bind_ok_iff.mpr ⟨_, hedges, Except.bind_ok_iff.mpr ⟨_, hshape, rfl⟩⟩⟩
  · rw [if_pos hagents]
    exact iff_of_false (fun ⟨_, h⟩ => by cases h) fun h => hagents h.1

/-- What an edge between two agents is checked for in a hierarchy. -/
theorem validate_parent_edge_iff {edge : CoordinationEdge} (hparent : edge.relationship = .parent) :
    validate_edge .hierarchical agents edge = .ok () ↔
      edge.source ∈ agents ∧ edge.target ∈ agents ∧ edge.source ≠ edge.target := by
  constructor
  · exact validate_edge_ok
  · rintro ⟨hsource, htarget, hself⟩
    rw [validate_edge, expected_relationship]
    simp only
    rw [if_neg (not_not.mpr hparent), if_neg (not_not.mpr hsource), if_neg (not_not.mpr htarget), if_neg hself]

/-- The edges of a list of pairs, each a parent and its child. -/
def pair_edges (pairs : List (String × String)) : List CoordinationEdge :=
  pairs.map fun pair => { source := pair.1, target := pair.2, relationship := .parent }

theorem pair_edges_ends (pairs : List (String × String)) :
    (pair_edges pairs).map CoordinationEdge.ends = pairs := by
  rw [pair_edges, map_map]
  exact map_id pairs

/-- Acceptance of a hierarchy. -/
theorem hierarchy_accepted_iff {agents : List String} (hagents : agents.Nodup) (pairs : List (String × String)) :
    (∃ graph, build { agent_ids := agents, mode := .hierarchical, edges := pair_edges pairs } = .ok graph) ↔
      (∀ pair ∈ pairs, pair.1 ∈ agents ∧ pair.2 ∈ agents) ∧ (∀ pair ∈ pairs, pair.1 ≠ pair.2) ∧
        pairs.Nodup ∧ Acyclic fun parent child => (parent, child) ∈ pairs := by
  have habove : Above (pair_edges pairs) = fun parent child => (parent, child) ∈ pairs := by
    funext parent child
    rw [Above, pair_edges_ends]
  have hedges : (∀ edge ∈ pair_edges pairs, validate_edge .hierarchical agents edge = .ok ()) ↔
      ∀ pair ∈ pairs, pair.1 ∈ agents ∧ pair.2 ∈ agents ∧ pair.1 ≠ pair.2 := by
    rw [pair_edges, forall_mem_map]
    exact forall₂_congr fun pair _ => validate_parent_edge_iff rfl
  have hshape : (∃ coordinator, validate_shape .hierarchical agents (pair_edges pairs) = .ok coordinator) ↔
      validate_hierarchy agents (pair_edges pairs) = .ok () := by
    rw [validate_shape]
    rcases validate_hierarchy agents (pair_edges pairs) with e | ⟨⟨⟩⟩
    · refine iff_of_false ?_ fun h => by cases h
      rintro ⟨_, h⟩
      cases h
    · exact iff_of_true ⟨none, rfl⟩ rfl
  rw [build_ok_iff, hedges, pair_edges_ends, hshape, and_iff_right hagents, ← habove]
  constructor
  · rintro ⟨hall, hnodup, hchecked⟩
    have hsimple : Simple agents (pair_edges pairs) :=
      ⟨hagents, by rwa [pair_edges_ends], forall_mem_map.mpr fun pair h => (hall pair h).1,
        forall_mem_map.mpr fun pair h => (hall pair h).2.1⟩
    have hself : ∀ edge ∈ pair_edges pairs, edge.source ≠ edge.target :=
      forall_mem_map.mpr fun pair h => (hall pair h).2.2
    exact ⟨fun pair h => ⟨(hall pair h).1, (hall pair h).2.1⟩, fun pair h => (hall pair h).2.2, hnodup,
      (validate_hierarchy_iff hsimple hself).mp hchecked⟩
  · rintro ⟨hknown, hdiffer, hnodup, hacyclic⟩
    have hsimple : Simple agents (pair_edges pairs) :=
      ⟨hagents, by rwa [pair_edges_ends], forall_mem_map.mpr fun pair h => (hknown pair h).1,
        forall_mem_map.mpr fun pair h => (hknown pair h).2⟩
    have hself : ∀ edge ∈ pair_edges pairs, edge.source ≠ edge.target := forall_mem_map.mpr hdiffer
    exact ⟨fun pair h => ⟨(hknown pair h).1, (hknown pair h).2, hdiffer pair h⟩, hnodup,
      (validate_hierarchy_iff hsimple hself).mpr hacyclic⟩

/-- The plan of a hierarchy. -/
def family_plan : CoordinationPlan where
  agent_ids := ["a", "b", "c"]
  mode := .hierarchical
  edges := pair_edges [("a", "b"), ("a", "c")]

theorem hierarchy_accepted_iff_family :
    (∃ graph, build family_plan = .ok graph) ∧ Acyclic fun parent child => (parent, child) ∈ [("a", "b"), ("a", "c")] := by
  have hbuilt : ∃ graph, build family_plan = .ok graph := ⟨_, rfl⟩
  exact ⟨hbuilt, ((@hierarchy_accepted_iff ["a", "b", "c"] (by decide) [("a", "b"), ("a", "c")]).mp hbuilt).2.2.2⟩

end CoordinationGraph

end MininetAi
