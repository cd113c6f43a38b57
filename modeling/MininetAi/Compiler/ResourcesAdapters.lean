/-
Adapters and links after they are resolved (`_declare_adapters`,
`_create_automatic_adapter` and `_resolve_links`).

The links are resolved endpoint by endpoint, so the loop over them is one over their
endpoints. What an endpoint can do to the table is said once, in `EndpointResolved`: it
uses the adapter it names, the first one of its node that is free, or a new one. That
adapter names and numbers stay distinct and that no adapter is used twice is read off it.
-/
import MininetAi.Compiler.ResourcesReproducible

set_option autoImplicit false

namespace MininetAi

open List

/-! ## Numbers -/

section Numbers

/-- The ports of a switch. -/
def ports_of : ResourceDetail → List SwitchPort
  | .switch _ _ _ _ _ ports => ports
  | .network | .region | .flow | .controller _ _ _ _ | .controller_domain _ | .host _ _ => []

/-- `port_number_is_positive`, for every port of the topology. -/
def PortsPositive (t : Topology) : Prop :=
  ∀ r ∈ t.resources, ∀ port ∈ ports_of r.detail, ∀ number ∈ port.number, 1 ≤ number

theorem le_first_free (used : List ℕ) (number : ℕ) : number ≤ first_free used number :=
  (first_outside_succ_spec used.length number).1

/-- The numbers of a switch's drafts: those that are given, and others that nothing has. -/
theorem switch_drafts_numbers (owner : String) {used : List ℕ} {next_number : ℕ} {ports : List SwitchPort}
    (hgiven : (explicit_numbers ports).Nodup) (hused : ∀ n ∈ explicit_numbers ports, n ∈ used) :
    ((switch_drafts owner used next_number ports).map AdapterDraft.number).Nodup ∧
      ∀ n ∈ (switch_drafts owner used next_number ports).map AdapterDraft.number,
        n ∈ explicit_numbers ports ∨ n ∉ used ∧ next_number ≤ n := by
  induction ports generalizing used next_number with
  | nil => exact ⟨nodup_nil, fun n hn => absurd hn not_mem_nil⟩
  | cons port ports ih =>
    rw [switch_drafts]
    cases hnumber : port.number with
    | some number =>
      have hexplicit : explicit_numbers (port :: ports) = number :: explicit_numbers ports := by
        rw [explicit_numbers, filterMap_cons_some hnumber]
        rfl
      rw [hexplicit] at hgiven hused ⊢
      obtain ⟨hnew, hrest⟩ := List.nodup_cons.mp hgiven
      obtain ⟨hnodup, hfrom⟩ := @ih used next_number hrest fun n hn => hused n (mem_cons_of_mem _ hn)
      simp only [map_cons]
      refine ⟨List.nodup_cons.mpr ⟨fun hmem => ?_, hnodup⟩, fun n hn => ?_⟩
      · rcases hfrom number hmem with hin | hout
        · exact hnew hin
        · exact hout.1 (hused number mem_cons_self)
      · rcases mem_cons.mp hn with rfl | hn
        · exact Or.inl mem_cons_self
        · exact (hfrom n hn).imp_left (mem_cons_of_mem _)
    | none =>
      have hexplicit : explicit_numbers (port :: ports) = explicit_numbers ports := by
        rw [explicit_numbers, filterMap_cons_none hnumber]
        rfl
      rw [hexplicit] at hgiven hused ⊢
      have hle := le_first_free used next_number
      have hfree := first_free_free used next_number
      have hmore : ∀ n ∈ explicit_numbers ports, n ∈ first_free used next_number :: used :=
        fun n hn => mem_cons_of_mem _ (hused n hn)
      obtain ⟨hnodup, hfrom⟩ := @ih _ (first_free used next_number + 1) hgiven hmore
      simp only [map_cons]
      refine ⟨List.nodup_cons.mpr ⟨fun hmem => ?_, hnodup⟩, fun n hn => ?_⟩
      · rcases hfrom _ hmem with hin | hout
        · exact hfree (hused _ hin)
        · exact hout.1 mem_cons_self
      · rcases mem_cons.mp hn with rfl | hn
        · exact Or.inr ⟨hfree, hle⟩
        · refine (hfrom n hn).imp_right fun hout => ⟨fun hin => hout.1 (mem_cons_of_mem _ hin), ?_⟩
          omega

/-- The numbers of what a resource declares. -/
theorem declared_numbers {r : TopologyResource} (h : check_port_numbers r = .ok ()) :
    ((declared_adapters r).map AdapterDraft.number).Nodup ∧
      (r.kind = .switch → ∀ n ∈ (declared_adapters r).map AdapterDraft.number,
        n ∈ explicit_numbers (ports_of r.detail) ∨ 1 ≤ n) := by
  unfold check_port_numbers at h
  unfold declared_adapters TopologyResource.kind ports_of
  cases hdetail : r.detail with
  | host interfaces route =>
    have hnumbers : (host_drafts r.name interfaces).map AdapterDraft.number = range interfaces.length := by
      rw [host_drafts, map_map, range_eq_range', ← zipIdx_map_snd 0 interfaces]
      rfl
    simp only [hnumbers]
    exact ⟨nodup_range, fun hswitch => by cases hswitch⟩
  | switch dpid fail datapath controllers protocols ports =>
    simp only [hdetail] at h ⊢
    by_cases hnodup : (explicit_numbers ports).Nodup
    · obtain ⟨hnumbers, hfrom⟩ := @switch_drafts_numbers r.name (explicit_numbers ports) 1 ports hnodup fun n hn => hn
      exact ⟨hnumbers, fun _ n hn => (hfrom n hn).imp_right And.right⟩
    · rw [if_neg hnodup] at h
      cases h
  | _ => exact ⟨nodup_nil, fun _ n hn => absurd hn not_mem_nil⟩

end Numbers

/-! ## Endpoints -/

section Endpoints

variable {rs : List TopologyResource} {endpoint : LinkEndpoint} {t t' : AdapterTable} {name : String}

/-- The adapter that is made for a node. -/
def new_adapter (node : TopologyResource) (t : AdapterTable) : AdapterDraft :=
  automatic_adapter node ((t.by_owner node.name).map AdapterDraft.number)

/-- What resolving an endpoint does to the table. -/
inductive EndpointResolved (rs : List TopologyResource) (endpoint : LinkEndpoint) (t : AdapterTable) :
    String → AdapterTable → Prop
  | named {found : AdapterDraft} (hadapter : endpoint.adapter = some found.name) (hfound : found ∈ t.adapters)
      (howner : found.owner = endpoint.node) (hunused : found.name ∉ t.used) :
      EndpointResolved rs endpoint t found.name (t.using [found.name])
  | reused {found : AdapterDraft} (hadapter : endpoint.adapter = none)
      (hfound : (t.by_owner endpoint.node).find? (fun adapter => adapter.name ∉ t.used) = some found) :
      EndpointResolved rs endpoint t found.name (t.using [found.name])
  | created {node : TopologyResource} (hadapter : endpoint.adapter = none) (hnode : node_named rs endpoint.node = some node)
      (hused : ∀ adapter ∈ t.by_owner endpoint.node, adapter.name ∈ t.used)
      (hfree : (new_adapter node t).name ∉ t.reserved) (hunused : (new_adapter node t).name ∉ t.used) :
      EndpointResolved rs endpoint t (new_adapter node t).name
        ((t.add (new_adapter node t)).using [(new_adapter node t).name])

theorem use_adapter_ok {found : AdapterDraft × AdapterTable} {result : String × AdapterTable}
    (h : use_adapter found = .ok result) :
    found.1.name ∉ found.2.used ∧ result = (found.1.name, found.2.using [found.1.name]) := by
  unfold use_adapter at h
  by_cases hmem : found.1.name ∈ found.2.used
  · rw [if_pos hmem] at h
    cases h
  · rw [if_neg hmem] at h
    exact ⟨hmem, (Except.ok.inj h).symm⟩

variable {link : String} {node : TopologyResource}

theorem endpoint_host_ok {node : String} {found : TopologyResource}
    (h : endpoint_host rs link node = .ok found) :
    node_named rs node = some found ∧ (found.kind = .host ∨ found.kind = .switch) := by
  unfold endpoint_host at h
  cases hnamed : node_named rs node with
  | none =>
    simp only [hnamed] at h
    cases h
  | some other =>
    simp only [hnamed] at h
    by_cases hkind : other.kind = .host ∨ other.kind = .switch
    · rw [if_pos hkind] at h
      rw [← Except.ok.inj h]
      exact ⟨rfl, hkind⟩
    · rw [if_neg hkind] at h
      cases h

theorem explicit_adapter_ok {node adapter : String} {found : AdapterDraft}
    (h : explicit_adapter link node adapter t = .ok found) :
    found ∈ t.adapters ∧ found.name = adapter ∧ found.owner = node := by
  have hname := explicit_adapter_name h
  unfold explicit_adapter at h
  cases hnamed : t.named adapter with
  | none =>
    simp only [hnamed] at h
    cases h
  | some other =>
    simp only [hnamed] at h
    by_cases howner : other.owner = node
    · rw [if_pos howner] at h
      have heq := Except.ok.inj h
      rw [← heq]
      exact ⟨(Keyed.find_some hnamed).1, heq ▸ hname, howner⟩
    · rw [if_neg howner] at h
      cases h

theorem node_named_name {name : String} (h : node_named rs name = some node) : node.name = name :=
  (Keyed.find_some h).2

/-- The one inversion of `resolve_endpoint`. -/
theorem resolve_endpoint_ok (h : resolve_endpoint rs link endpoint t = .ok (name, t')) :
    EndpointResolved rs endpoint t name t' := by
  unfold resolve_endpoint at h
  obtain ⟨node, hnode, h⟩ := Except.bind_ok_iff.mp h
  obtain ⟨hnamed, -⟩ := endpoint_host_ok hnode
  cases hadapter : endpoint.adapter with
  | some adapter =>
    simp only [hadapter] at h
    obtain ⟨found, hfound, h⟩ := Except.bind_ok_iff.mp h
    obtain ⟨hmem, hname, howner⟩ := explicit_adapter_ok hfound
    obtain ⟨hunused, hresult⟩ := use_adapter_ok h
    obtain ⟨rfl, rfl⟩ := Prod.mk.inj hresult
    exact .named (by rw [hadapter, hname]) hmem howner hunused
  | none =>
    simp only [hadapter] at h
    obtain ⟨found, hfound, h⟩ := Except.bind_ok_iff.mp h
    obtain ⟨hunused, hresult⟩ := use_adapter_ok h
    obtain ⟨rfl, rfl⟩ := Prod.mk.inj hresult
    unfold implicit_adapter at hfound
    cases hfirst : (t.by_owner node.name).find? fun adapter => adapter.name ∉ t.used with
    | some adapter =>
      simp only [hfirst] at hfound
      rw [← Except.ok.inj hfound]
      rw [node_named_name hnamed] at hfirst
      exact .reused hadapter hfirst
    | none =>
      simp only [hfirst] at hfound
      unfold create_automatic_adapter at hfound
      by_cases hreserved : (new_adapter node t).name ∈ t.reserved
      · rw [new_adapter] at hreserved
        simp only [if_pos hreserved] at hfound
        cases hfound
      · have hreserved' := hreserved
        rw [new_adapter] at hreserved'
        simp only [if_neg hreserved'] at hfound
        rw [← Except.ok.inj hfound] at hunused ⊢
        refine .created hadapter hnamed (fun adapter hadapter => ?_) hreserved hunused
        rw [← node_named_name hnamed] at hadapter
        have hnot := find?_eq_none.mp hfirst adapter hadapter
        rw [decide_eq_true_eq, not_not] at hnot
        exact hnot

section

variable (h : EndpointResolved rs endpoint t name t')
include h

theorem EndpointResolved.unused : name ∉ t.used := by
  cases h with
  | named _ _ _ hunused => exact hunused
  | reused _ hfound => exact of_decide_eq_true (find?_some (p := fun adapter : AdapterDraft => adapter.name ∉ t.used) hfound)
  | created _ _ _ _ hunused => exact hunused

theorem EndpointResolved.used : t'.used = name :: t.used := by
  cases h <;> rfl

/-- Adapters are only added, and the new one takes a name and a number that are free. -/
theorem EndpointResolved.adapters : (t'.adapters = t.adapters ∧ t'.reserved = t.reserved) ∨
      ∃ node, node_named rs endpoint.node = some node ∧ (new_adapter node t).name ∉ t.reserved ∧
        t'.adapters = (t.add (new_adapter node t)).adapters ∧ t'.reserved = (t.add (new_adapter node t)).reserved := by
  cases h with
  | named => exact Or.inl ⟨rfl, rfl⟩
  | reused => exact Or.inl ⟨rfl, rfl⟩
  | created _ hnode _ hfree => exact Or.inr ⟨_, hnode, hfree, rfl, rfl⟩

theorem EndpointResolved.subset : t.adapters ⊆ t'.adapters := by
  rcases h.adapters with ⟨hsame, -⟩ | ⟨node, -, -, hadded, -⟩
  · rw [hsame]
    exact fun _ hmem => hmem
  · rw [hadded]
    exact subset_append_left _ _

theorem EndpointResolved.sound {base : List String} (hsound : t.Sound base) : t'.Sound base := by
  rcases h.adapters with ⟨hsame, hreserved⟩ | ⟨node, -, hfree, hadded, hreserved⟩
  · refine ⟨?_, ?_, ?_⟩
    · rw [hsame]
      exact hsound.unique
    · rw [hsame]
      exact hsound.fresh
    · rw [hsame, hreserved]
      exact hsound.reserved
  · have hafter := hsound.add hfree
    refine ⟨?_, ?_, ?_⟩
    · rw [hadded]
      exact hafter.unique
    · rw [hadded]
      exact hafter.fresh
    · rw [hadded, hreserved]
      exact hafter.reserved

end

/-- The name is that of an adapter of the endpoint's node, the one it names if it names one. -/
structure EndpointOwned (adapters : List AdapterDraft) (endpoint : LinkEndpoint) (name : String) : Prop where
  owned : ∃ adapter ∈ adapters, adapter.name = name ∧ adapter.owner = endpoint.node
  explicit : ∀ adapter ∈ endpoint.adapter, name = adapter

theorem EndpointOwned.mono {adapters adapters' : List AdapterDraft} (h : EndpointOwned adapters endpoint name)
    (hmore : adapters ⊆ adapters') : EndpointOwned adapters' endpoint name :=
  ⟨h.owned.imp fun _ hadapter => ⟨hmore hadapter.1, hadapter.2⟩, h.explicit⟩

theorem EndpointResolved.owned (h : EndpointResolved rs endpoint t name t') :
    EndpointOwned t'.adapters endpoint name := by
  cases h with
  | @named found hadapter hfound howner =>
    refine ⟨⟨found, hfound, rfl, howner⟩, fun adapter hnamed => ?_⟩
    exact Option.some.inj (hadapter.symm.trans hnamed)
  | @reused found hadapter hfound =>
    obtain ⟨hmem, howner⟩ := mem_filter.mp (mem_of_find?_eq_some hfound)
    refine ⟨⟨found, hmem, rfl, of_decide_eq_true howner⟩, fun adapter hnamed => ?_⟩
    rw [hadapter] at hnamed
    cases hnamed
  | @created node hadapter hnode =>
    refine ⟨⟨new_adapter node t, ?_, rfl, node_named_name hnode⟩, fun adapter hnamed => ?_⟩
    · exact mem_append_right _ (mem_singleton_self _)
    · rw [hadapter] at hnamed
      cases hnamed

/-- Adapter numbers are distinct for each owner, and positive on switches. -/
structure AdapterTable.Numbered (rs : List TopologyResource) (t : AdapterTable) : Prop where
  distinct : ∀ owner, ((t.by_owner owner).map AdapterDraft.number).Nodup
  positive : ∀ adapter ∈ t.adapters, ∀ node, node_named rs adapter.owner = some node → node.kind = .switch →
    1 ≤ adapter.number

theorem AdapterTable.Numbered.add (h : t.Numbered rs)
    (hnode : node_named rs node.name = some node) : (t.add (new_adapter node t)).Numbered rs where
  distinct owner := by
    have hsplit : (t.add (new_adapter node t)).by_owner owner =
        t.by_owner owner ++ [new_adapter node t].filter fun adapter => adapter.owner = owner := filter_append _ _
    rw [hsplit, map_append]
    by_cases howner : node.name = owner
    · have hmine : [new_adapter node t].filter (fun adapter => adapter.owner = owner) = [new_adapter node t] :=
        filter_cons_of_pos (decide_eq_true howner)
      have hfree : (new_adapter node t).number ∉ (t.by_owner node.name).map AdapterDraft.number :=
        first_free_free _ _
      rw [hmine, map_singleton, ← howner]
      refine nodup_append'.mpr ⟨h.distinct node.name, nodup_singleton _, fun n hold hnew => ?_⟩
      rw [mem_singleton.mp hnew] at hold
      exact hfree hold
    · have hother : [new_adapter node t].filter (fun adapter => adapter.owner = owner) = [] :=
        filter_cons_of_neg fun hmine => howner (of_decide_eq_true hmine)
      rw [hother, map_nil, append_nil]
      exact h.distinct owner
  positive adapter hadapter other hother hswitch := by
    rcases mem_append.mp hadapter with hold | hnew
    · exact h.positive adapter hold other hother hswitch
    · rw [mem_singleton.mp hnew] at hother ⊢
      have heq : node = other := Option.some.inj (hnode.symm.trans hother)
      have hnothost : node.kind ≠ .host := by
        rw [heq, hswitch]
        exact nofun
      have hle := le_first_free ((t.by_owner node.name).map AdapterDraft.number) 1
      rw [new_adapter, automatic_adapter]
      simp only [if_neg hnothost]
      exact hle

theorem EndpointResolved.numbered (h : EndpointResolved rs endpoint t name t') (hnumbered : t.Numbered rs) :
    t'.Numbered rs := by
  rcases h.adapters with ⟨hsame, -⟩ | ⟨node, hnode, -, hadded, -⟩
  · refine ⟨?_, ?_⟩
    · simp only [AdapterTable.by_owner, hsame]
      exact hnumbered.distinct
    · rw [hsame]
      exact hnumbered.positive
  · rw [← node_named_name hnode] at hnode
    have hafter := hnumbered.add hnode
    refine ⟨?_, ?_⟩
    · simp only [AdapterTable.by_owner, hadded]
      exact hafter.distinct
    · rw [hadded]
      exact hafter.positive

theorem declared_numbered {topology : Topology} {adapters : List AdapterDraft}
    (hunique : (topology.resources.map TopologyResource.name).Nodup)
    (hdeclared : declare_adapters (authored_names topology) topology.resources = .ok adapters)
    (hports : PortsPositive topology) : (declared_table topology adapters).Numbered topology.resources := by
  obtain ⟨hchecks, rfl, -, -⟩ := declare_adapters_iff.mp hdeclared
  have howned : ∀ owner, (declared_table topology (topology.resources.flatMap declared_adapters)).by_owner owner =
      (node_named topology.resources owner).elim [] declared_adapters := owned_declared hunique
  refine ⟨fun owner => ?_, fun adapter hadapter node hnode hswitch => ?_⟩
  · rw [howned]
    cases hnode : node_named topology.resources owner with
    | none => exact nodup_nil
    | some node => exact (declared_numbers (hchecks node (Keyed.find_some hnode).1)).1
  · have hmine : adapter ∈ (declared_table topology (topology.resources.flatMap declared_adapters)).by_owner adapter.owner :=
      mem_filter.mpr ⟨hadapter, decide_eq_true rfl⟩
    rw [howned, hnode, Option.elim_some] at hmine
    have hmem := (Keyed.find_some hnode).1
    rcases (declared_numbers (hchecks node hmem)).2 hswitch adapter.number (mem_map_of_mem hmine) with hgiven | hle
    · obtain ⟨port, hport, hnumber⟩ := mem_filterMap.mp hgiven
      exact hports node hmem port hport adapter.number hnumber
    · exact hle

end Endpoints

/-! ## Links -/

section Links

variable {rs : List TopologyResource} {links : List TopologyLink} {t t' : AdapterTable}

/-- The endpoints of links, each with the name of its link, in the order they are resolved. -/
def link_endpoints (links : List TopologyLink) : List (String × LinkEndpoint) :=
  links.flatMap fun link => [(link.name, link.endpoints.1), (link.name, link.endpoints.2)]

/-- Endpoints one after the other. -/
def resolve_endpoints (rs : List TopologyResource) :
    List (String × LinkEndpoint) → AdapterTable → Except ResourceError (List String × AdapterTable)
  | [], t => .ok ([], t)
  | endpoint :: endpoints, t => do
      let first ← resolve_endpoint rs endpoint.1 endpoint.2 t
      let rest ← resolve_endpoints rs endpoints first.2
      pure (first.1 :: rest.1, rest.2)

/-- The links of adapters, two for each. -/
def pair_up : List TopologyLink → List String → List ResourcePlan
  | link :: links, first :: second :: names => planned_link link (first, second) :: pair_up links names
  | _, _ => []

/-- The loop over the links is one over their endpoints. -/
theorem resolve_links_eq (rs : List TopologyResource) (links : List TopologyLink) (t : AdapterTable) :
    resolve_links rs links t =
      (resolve_endpoints rs (link_endpoints links) t).map fun result => (pair_up links result.1, result.2) := by
  induction links generalizing t with
  | nil => rfl
  | cons link links ih =>
    have hsplit : link_endpoints (link :: links) =
        (link.name, link.endpoints.1) :: (link.name, link.endpoints.2) :: link_endpoints links := rfl
    rw [hsplit, resolve_links, resolve_endpoints]
    cases resolve_endpoint rs link.name link.endpoints.1 t with
    | error e => rfl
    | ok first =>
      simp only [bind, Except.bind]
      rw [resolve_endpoints]
      cases resolve_endpoint rs link.name link.endpoints.2 first.2 with
      | error e => rfl
      | ok second =>
        simp only [bind, Except.bind]
        rw [ih second.2]
        cases resolve_endpoints rs (link_endpoints links) second.2 with
        | error e => rfl
        | ok rest => rfl

/-- What a run over endpoints leaves. -/
structure EndpointsResolved (rs : List TopologyResource) (base : List String)
    (endpoints : List (String × LinkEndpoint)) (t : AdapterTable) (names : List String) (t' : AdapterTable) : Prop where
  sound : t'.Sound base
  numbered : t'.Numbered rs
  grows : t.adapters ⊆ t'.adapters
  once : (names.reverse ++ t.used).Nodup
  used : t'.used = names.reverse ++ t.used
  owned : Forall₂ (fun endpoint name => EndpointOwned t'.adapters endpoint.2 name) endpoints names

variable {names : List String}

/-- The run lemma. The induction is on the endpoints still to come. -/
theorem resolve_endpoints_ok {base : List String} {endpoints : List (String × LinkEndpoint)}
    (hsound : t.Sound base) (hnumbered : t.Numbered rs) (honce : t.used.Nodup)
    (h : resolve_endpoints rs endpoints t = .ok (names, t')) :
    EndpointsResolved rs base endpoints t names t' := by
  induction endpoints generalizing t names with
  | nil =>
    obtain ⟨rfl, rfl⟩ := Prod.mk.inj (Except.ok.inj h)
    exact ⟨hsound, hnumbered, fun _ hmem => hmem, honce, rfl, .nil⟩
  | cons endpoint endpoints ih =>
    rw [resolve_endpoints] at h
    obtain ⟨⟨name, after⟩, hfirst, h⟩ := Except.bind_ok_iff.mp h
    obtain ⟨⟨rest, last⟩, hrest, h⟩ := Except.bind_ok_iff.mp h
    obtain ⟨rfl, rfl⟩ := Prod.mk.inj (Except.ok.inj h)
    have hstep := resolve_endpoint_ok hfirst
    have hnodup : after.used.Nodup := by
      rw [hstep.used]
      exact List.nodup_cons.mpr ⟨hstep.unused, honce⟩
    have hall := ih (hstep.sound hsound) (hstep.numbered hnumbered) hnodup hrest
    have hused : rest.reverse ++ after.used = (name :: rest).reverse ++ t.used := by
      rw [hstep.used, reverse_cons, append_assoc, singleton_append]
    refine ⟨hall.sound, hall.numbered, fun _ hmem => hall.grows (hstep.subset hmem), ?_, hall.used.trans hused, ?_⟩
    · rw [← hused]
      exact hall.once
    · exact .cons (hstep.owned.mono hall.grows) hall.owned

/-- A planned link connects adapters of the two nodes it names. -/
def LinkResolved (adapters : List AdapterDraft) (link : TopologyLink) (plan : ResourcePlan) : Prop :=
  ∃ first second, plan = planned_link link (first, second) ∧
    EndpointOwned adapters link.endpoints.1 first ∧ EndpointOwned adapters link.endpoints.2 second

/-- The adapters of planned links. -/
def plan_ends (plans : List ResourcePlan) : List String :=
  plans.flatMap fun plan => (plan.endpoints.map fun ends => [ends.1, ends.2]).getD []

theorem pair_up_resolved {adapters : List AdapterDraft}
    (h : Forall₂ (fun endpoint name => EndpointOwned adapters endpoint.2 name) (link_endpoints links) names) :
    plan_ends (pair_up links names) = names ∧ Forall₂ (LinkResolved adapters) links (pair_up links names) := by
  induction links generalizing names with
  | nil =>
    rw [forall₂_nil_left_iff.mp h]
    exact ⟨rfl, .nil⟩
  | cons link links ih =>
    have hsplit : link_endpoints (link :: links) =
        (link.name, link.endpoints.1) :: (link.name, link.endpoints.2) :: link_endpoints links := rfl
    rw [hsplit] at h
    obtain ⟨first, later, hfirst, hlater, rfl⟩ := forall₂_cons_left_iff.mp h
    obtain ⟨second, rest, hsecond, hrest, rfl⟩ := forall₂_cons_left_iff.mp hlater
    obtain ⟨hends, hall⟩ := ih hrest
    rw [pair_up]
    refine ⟨?_, .cons ⟨first, second, rfl, hfirst, hsecond⟩ hall⟩
    rw [plan_ends, flatMap_cons, ← plan_ends, hends]
    rfl

/-- What holds of adapters and links once they are resolved. -/
structure AdaptersResolved (topology : Topology) (plans : List ResourcePlan) (table : AdapterTable) : Prop where
  names_unique : (adapter_names table.adapters).Nodup
  names_fresh : ∀ name ∈ adapter_names table.adapters, name ∉ authored_names topology
  numbers_distinct : ∀ owner, ((table.by_owner owner).map AdapterDraft.number).Nodup
  switch_numbers : ∀ adapter ∈ table.adapters, ∀ node, node_named topology.resources adapter.owner = some node →
    node.kind = .switch → 1 ≤ adapter.number
  used_once : (plan_ends plans).Nodup
  links : Forall₂ (LinkResolved table.adapters) topology.links plans

theorem adapters_and_links_resolved {sha256 : String → ℕ} {topology : Topology} {adapters hosts : List AdapterDraft}
    {resolved : List ResourcePlan × AdapterTable} {owners : Owners ℕ} (hports : PortsPositive topology)
    (h : Built sha256 topology adapters resolved hosts owners) :
    AdaptersResolved topology resolved.1 resolved.2 := by
  have hlinks := h.links
  rw [resolve_links_eq] at hlinks
  cases hrun : resolve_endpoints topology.resources (link_endpoints topology.links) (declared_table topology adapters) with
  | error e =>
    rw [hrun] at hlinks
    cases hlinks
  | ok result =>
    rw [hrun] at hlinks
    rw [← Except.ok.inj hlinks]
    have hall := resolve_endpoints_ok (declared_table_sound h.declared) (declared_numbered h.unique h.declared hports)
      nodup_nil hrun
    obtain ⟨hends, hplans⟩ := pair_up_resolved hall.owned
    refine ⟨hall.sound.unique, hall.sound.fresh, hall.numbered.distinct, hall.numbered.positive, ?_, hplans⟩
    have honce : (result.1.reverse ++ []).Nodup := hall.once
    rw [append_nil, nodup_reverse] at honce
    rw [hends]
    exact honce

/-- A switch of two ports, a host at one of them, and a host without interfaces. -/
def half_wired : Topology :=
  { two_hosts with
    resources :=
      [{ name := "s1", detail := .switch none .secure .kernel [] [.openflow_13] [{ number := some 2 }, {}] },
        { name := "h1", detail := .host [{}] none },
        { name := "h2", detail := .host [] none }]
    links :=
      [{ name := "l1", endpoints := ({ node := "h1" }, { node := "s1", adapter := "s1-eth1" }) },
        { name := "l2", endpoints := ({ node := "h2" }, { node := "s1" }) }] }

theorem adapters_and_links_resolved_half_wired :
    ∃ adapters resolved hosts owners, Built (fun _ => 1) half_wired adapters resolved hosts owners ∧
      plan_ends resolved.1 = ["h1-eth0", "s1-eth1", "h2-eth0", "s1-eth2"] ∧
      AdaptersResolved half_wired resolved.1 resolved.2 := by
  have hbuilds : (build_resources (fun _ => 1) half_wired).toBool = true := by decide
  have hends : ((resolve_links half_wired.resources half_wired.links
      (declared_table half_wired (half_wired.resources.flatMap declared_adapters))).toOption.map fun resolved =>
        plan_ends resolved.1) = some ["h1-eth0", "s1-eth1", "h2-eth0", "s1-eth2"] := by decide
  cases hplanned : build_resources (fun _ => 1) half_wired with
  | error e =>
    rw [hplanned] at hbuilds
    cases hbuilds
  | ok planned =>
    obtain ⟨adapters, resolved, hosts, owners, hbuilt, -⟩ := build_resources_iff.mp hplanned
    refine ⟨adapters, resolved, hosts, owners, hbuilt, ?_, adapters_and_links_resolved ?_ hbuilt⟩
    · have hlinks := hbuilt.links
      obtain ⟨-, rfl, -, -⟩ := declare_adapters_iff.mp hbuilt.declared
      rw [hlinks] at hends
      exact Option.some.inj hends
    · unfold PortsPositive
      decide

end Links

end MininetAi
