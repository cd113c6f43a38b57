/-
Planned resources do not depend on the order in which a topology is written.

Names are unique or the build is refused, so every allocator that sorts by name or looks a
name up works on the same list, whatever the order. What is left to the order is the walk
over the links: it sees the same adapters of each owner in the same order, and it takes the
links in the order they are written. When each endpoint names its adapter, that order does
not matter either: an endpoint then is resolved by itself, and only its being used twice
depends on the others.
-/
import MininetAi.Compiler.Resources

set_option autoImplicit false

namespace MininetAi

open List Except

/-! ## The graph -/

section Graph

variable {rs rs' : List TopologyResource}

/-- The resources in two orders. -/
structure SameResources (rs rs' : List TopologyResource) : Prop where
  perm : rs.Perm rs'
  unique : (rs.map TopologyResource.name).Nodup

section

variable (h : SameResources rs rs')
include h

theorem SameResources.symm : SameResources rs' rs :=
  ⟨h.perm.symm, (h.perm.map _).nodup_iff.mp h.unique⟩

theorem SameResources.node_named (name : String) : node_named rs name = node_named rs' name :=
  Keyed.find_perm h.perm h.unique name

theorem SameResources.parent_of (name : String) : parent_of rs name = parent_of rs' name := by
  unfold MininetAi.parent_of
  rw [h.node_named]

theorem SameResources.climb (fuel : ℕ) (chain : List String) (current : String) :
    climb rs fuel chain current = climb rs' fuel chain current := by
  induction fuel generalizing chain current with
  | zero => rfl
  | succ fuel ih =>
    rw [MininetAi.climb, MininetAi.climb, h.parent_of]
    cases MininetAi.parent_of rs' current with
    | none => rfl
    | some parent => simp only [ih]

theorem SameResources.check_parent (r : TopologyResource) :
    check_parent rs r = check_parent rs' r := by
  unfold MininetAi.check_parent
  cases r.parent with
  | none => rfl
  | some parent => simp only [h.node_named]

theorem SameResources.check_controller (name controller : String) :
    check_controller rs name controller = check_controller rs' name controller := by
  unfold MininetAi.check_controller
  rw [h.node_named]

end

/-- What `_validate_resource_graph` asks. -/
structure GraphValid (t : Topology) : Prop where
  parents : ∀ r ∈ t.resources, check_parent t.resources r = .ok ()
  acyclic : ∀ r ∈ t.resources, climb t.resources (t.resources.length + 1) [] r.name = .ok ()
  links_unique : (t.links.map TopologyLink.name).Nodup
  links_fresh : ∀ name ∈ t.links.map TopologyLink.name, name ∉ t.resources.map TopologyResource.name
  controllers : ∀ r ∈ t.resources, ∀ controller ∈ controllers_of r.detail,
    check_controller t.resources r.name controller = .ok ()

variable {t : Topology}

theorem validate_resource_graph_iff : validate_resource_graph t = .ok () ↔ GraphValid t := by
  unfold validate_resource_graph
  simp only [bind_ok_iff, check_all_ok_iff, refuse_repeats_iff]
  constructor
  · rintro ⟨_, hparents, _, hacyclic, _, ⟨hunique, hfresh⟩, hcontrollers⟩
    exact ⟨hparents, hacyclic, hunique, hfresh, hcontrollers⟩
  · exact fun h => ⟨(), h.parents, (), h.acyclic, (), ⟨h.links_unique, h.links_fresh⟩, h.controllers⟩

/-- The graph of resources in another order, with links in another order. -/
theorem GraphValid.perm {links : List TopologyLink} (h : GraphValid t)
    (hrs : SameResources t.resources rs') (hlinks : t.links.Perm links) :
    GraphValid { t with resources := rs', links := links } where
  parents r hr := by
    rw [← hrs.check_parent]
    exact h.parents r (hrs.perm.mem_iff.mpr hr)
  acyclic r hr := by
    rw [← hrs.climb, ← hrs.perm.length_eq]
    exact h.acyclic r (hrs.perm.mem_iff.mpr hr)
  links_unique := (hlinks.map _).nodup_iff.mp h.links_unique
  links_fresh name hname hmem :=
    h.links_fresh name ((hlinks.map _).mem_iff.mpr hname) ((hrs.perm.map _).mem_iff.mpr hmem)
  controllers r hr controller hcontroller := by
    rw [← hrs.check_controller]
    exact h.controllers r (hrs.perm.mem_iff.mpr hr) controller hcontroller

end Graph

/-! ## Declared adapters -/

section Declared

def adapter_names (adapters : List AdapterDraft) : List String := adapters.map AdapterDraft.name

variable {rs : List TopologyResource}

/-- Adapters are declared when each switch gives a number once, and no name is taken. -/
theorem declare_adapters_iff {reserved : List String} {adapters : List AdapterDraft} :
    declare_adapters reserved rs = .ok adapters ↔
      (∀ r ∈ rs, check_port_numbers r = .ok ()) ∧ adapters = rs.flatMap declared_adapters ∧
        (adapter_names adapters).Nodup ∧ ∀ name ∈ adapter_names adapters, name ∉ reserved := by
  induction rs generalizing reserved adapters with
  | nil =>
    rw [declare_adapters, flatMap_nil]
    constructor
    · intro h
      rw [← ok.inj h]
      exact ⟨fun r hr => absurd hr not_mem_nil, rfl, nodup_nil, fun name hname => absurd hname not_mem_nil⟩
    · rintro ⟨-, rfl, -, -⟩
      rfl
  | cons r rs ih =>
    rw [declare_adapters]
    simp only [bind_ok_iff, refuse_repeats_iff, ih, forall_mem_cons, flatMap_cons]
    constructor
    · rintro ⟨_, hcheck, _, ⟨hnodup, hfresh⟩, rest, ⟨hchecks, rfl, hrest, hothers⟩, hadapters⟩
      rw [← ok.inj hadapters]
      refine ⟨⟨hcheck, hchecks⟩, rfl, ?_, fun name hname => ?_⟩
      · rw [adapter_names, map_append]
        refine nodup_append'.mpr ⟨hnodup, hrest, fun name hfirst hlater => ?_⟩
        exact hothers name hlater (mem_append_left _ hfirst)
      · rw [adapter_names, map_append] at hname
        rcases mem_append.mp hname with hfirst | hlater
        · exact hfresh name hfirst
        · exact fun hmem => hothers name hlater (mem_append_right _ hmem)
    · rintro ⟨⟨hcheck, hchecks⟩, rfl, hnodup, hfresh⟩
      rw [adapter_names, map_append] at hnodup hfresh
      obtain ⟨hfirst, hrest, hdisjoint⟩ := nodup_append'.mp hnodup
      refine ⟨(), hcheck, (), ⟨hfirst, fun name hname => hfresh name (mem_append_left _ hname)⟩,
        rs.flatMap declared_adapters, ⟨hchecks, rfl, hrest, fun name hname hmem => ?_⟩, rfl⟩
      rcases mem_append.mp hmem with hin | hin
      · exact hdisjoint hin hname
      · exact hfresh name (mem_append_right _ hname) hin

theorem switch_drafts_owner {owner : String} {used : List ℕ} {next_number : ℕ} {ports : List SwitchPort} :
    ∀ adapter ∈ switch_drafts owner used next_number ports, adapter.owner = owner := by
  induction ports generalizing used next_number with
  | nil => exact fun adapter h => absurd h not_mem_nil
  | cons port ports ih =>
    intro adapter hadapter
    rw [switch_drafts] at hadapter
    cases hnumber : port.number with
    | some number =>
      simp only [hnumber] at hadapter
      rcases mem_cons.mp hadapter with rfl | hrest
      · rfl
      · exact ih adapter hrest
    | none =>
      simp only [hnumber] at hadapter
      rcases mem_cons.mp hadapter with rfl | hrest
      · rfl
      · exact ih adapter hrest

/-- A resource owns what it declares. -/
theorem declared_owner {r : TopologyResource} : ∀ adapter ∈ declared_adapters r, adapter.owner = r.name := by
  intro adapter hadapter
  unfold declared_adapters at hadapter
  cases hdetail : r.detail with
  | host interfaces route =>
    simp only [hdetail, host_drafts] at hadapter
    obtain ⟨entry, -, rfl⟩ := mem_map.mp hadapter
    rfl
  | switch dpid fail datapath controllers protocols ports =>
    simp only [hdetail] at hadapter
    exact switch_drafts_owner adapter hadapter
  | _ =>
    simp only [hdetail] at hadapter
    exact absurd hadapter not_mem_nil

/-- The adapters of an owner are those its resource declares. -/
theorem owned_declared (hrs : (rs.map TopologyResource.name).Nodup) (owner : String) :
    (rs.flatMap declared_adapters).filter (fun adapter => adapter.owner = owner) =
      (node_named rs owner).elim [] declared_adapters := by
  induction rs with
  | nil => rfl
  | cons r rs ih =>
    rw [map_cons, List.nodup_cons] at hrs
    rw [flatMap_cons, filter_append, ih hrs.2]
    by_cases howner : r.name = owner
    · have hall : (declared_adapters r).filter (fun adapter => adapter.owner = owner) = declared_adapters r :=
        filter_eq_self.mpr fun adapter hadapter =>
          decide_eq_true ((declared_owner adapter hadapter).trans howner)
      have hnone : node_named rs owner = none := by
        refine Keyed.find_none_iff.mpr ?_
        rw [← howner]
        exact hrs.1
      have hthis : node_named (r :: rs) owner = some r := by
        simp only [node_named, Keyed.find, find?_cons, howner, decide_true]
      rw [hall, hnone, hthis]
      exact append_nil _
    · have hnothing : (declared_adapters r).filter (fun adapter => adapter.owner = owner) = [] :=
        filter_eq_nil_iff.mpr fun adapter hadapter hmine =>
          howner ((declared_owner adapter hadapter).symm.trans (of_decide_eq_true hmine))
      have hother : node_named (r :: rs) owner = node_named rs owner := by
        simp only [node_named, Keyed.find, find?_cons, howner, decide_false]
      rw [hnothing, hother]
      rfl

end Declared

/-! ## The tables of two orders -/

section Tables

variable {rs rs' : List TopologyResource} {t t' : AdapterTable} {base : List String}

/-- Adapters are registered under names that nothing else has. -/
structure AdapterTable.Sound (base : List String) (t : AdapterTable) : Prop where
  unique : (adapter_names t.adapters).Nodup
  fresh : ∀ name ∈ adapter_names t.adapters, name ∉ base
  reserved : ∀ name, name ∈ adapter_names t.adapters ∨ name ∈ base → name ∈ t.reserved

/-- One table in two orders: each owner has its adapters in one order. -/
structure SameTable (t t' : AdapterTable) : Prop where
  perm : t.adapters.Perm t'.adapters
  owned : ∀ owner, t.by_owner owner = t'.by_owner owner
  reserved : ∀ name, name ∈ t.reserved ↔ name ∈ t'.reserved
  used : t.used = t'.used

/-- What `_create_automatic_adapter` adds. -/
def AdapterTable.add (t : AdapterTable) (adapter : AdapterDraft) : AdapterTable :=
  { t with adapters := t.adapters ++ [adapter], reserved := adapter.name :: t.reserved }

theorem AdapterTable.Sound.add (h : t.Sound base) {adapter : AdapterDraft} (hfree : adapter.name ∉ t.reserved) :
    (t.add adapter).Sound base where
  unique := by
    have hnew : adapter.name ∉ adapter_names t.adapters := fun hmem => hfree (h.reserved _ (Or.inl hmem))
    rw [AdapterTable.add, adapter_names, map_append, map_singleton]
    refine nodup_append'.mpr ⟨h.unique, nodup_singleton _, fun name hold hname => ?_⟩
    rw [mem_singleton.mp hname] at hold
    exact hnew hold
  fresh name hname := by
    rw [AdapterTable.add, adapter_names, map_append, map_singleton] at hname
    rcases mem_append.mp hname with hold | hmem
    · exact h.fresh name hold
    · rw [mem_singleton.mp hmem]
      exact fun hbase => hfree (h.reserved _ (Or.inr hbase))
  reserved name hname := by
    rw [AdapterTable.add, adapter_names, map_append, map_singleton, mem_append,
      mem_singleton] at hname
    rcases hname with (hold | rfl) | hbase
    · exact mem_cons_of_mem _ (h.reserved name (Or.inl hold))
    · exact mem_cons_self
    · exact mem_cons_of_mem _ (h.reserved name (Or.inr hbase))

theorem SameTable.add (h : SameTable t t') (adapter : AdapterDraft) :
    SameTable (t.add adapter) (t'.add adapter) where
  perm := h.perm.append_right _
  owned owner := by
    have howned := h.owned owner
    unfold AdapterTable.by_owner at howned ⊢
    simp only [AdapterTable.add, filter_append, howned]
  reserved name := by
    simp only [AdapterTable.add, mem_cons, h.reserved]
  used := h.used

theorem SameTable.named (h : SameTable t t') (hsound : t.Sound base) (name : String) :
    t.named name = t'.named name :=
  Keyed.find_perm h.perm hsound.unique name

/-- Two tables that are the same, the first of them sound. -/
def Alike (base : List String) (t t' : AdapterTable) : Prop := t.Sound base ∧ SameTable t t'

/-- What two orders return: one result, and tables that are alike. -/
def AlikeResult {α : Type} (base : List String) (r r' : α × AdapterTable) : Prop := r.1 = r'.1 ∧ Alike base r.2 r'.2

theorem create_automatic_adapter_follows (h : Alike base t t') (node : TopologyResource) :
    Except.Follows (AlikeResult base) (create_automatic_adapter node t) (create_automatic_adapter node t') := by
  unfold create_automatic_adapter
  rw [← h.2.owned]
  by_cases htaken : (automatic_adapter node ((t.by_owner node.name).map AdapterDraft.number)).name ∈ t.reserved
  · simp only [if_pos htaken]
    exact Except.Follows.error
  · have hfree := fun hmem => htaken ((h.2.reserved _).mpr hmem)
    simp only [if_neg htaken, if_neg hfree]
    exact Except.Follows.ok ⟨rfl, h.1.add htaken, h.2.add _⟩

theorem implicit_adapter_follows (h : Alike base t t') (node : TopologyResource) :
    Except.Follows (AlikeResult base) (implicit_adapter node t) (implicit_adapter node t') := by
  unfold implicit_adapter
  rw [← h.2.owned, ← h.2.used]
  cases (t.by_owner node.name).find? fun adapter => adapter.name ∉ t.used with
  | none => exact create_automatic_adapter_follows h node
  | some adapter => exact Except.Follows.ok ⟨rfl, h⟩

theorem explicit_adapter_alike (h : Alike base t t') (link node adapter : String) :
    explicit_adapter link node adapter t = explicit_adapter link node adapter t' := by
  unfold explicit_adapter
  rw [h.2.named h.1]

theorem use_adapter_follows {found found' : AdapterDraft × AdapterTable} (h : AlikeResult base found found') :
    Except.Follows (AlikeResult base) (use_adapter found) (use_adapter found') := by
  obtain ⟨hadapter, hsound, hsame⟩ := h
  unfold use_adapter
  rw [← hadapter, ← hsame.used]
  by_cases hused : found.1.name ∈ found.2.used
  · simp only [if_pos hused]
    exact Except.Follows.error
  · simp only [if_neg hused]
    refine Except.Follows.ok ⟨rfl, ⟨hsound.unique, hsound.fresh, hsound.reserved⟩, ?_⟩
    exact ⟨hsame.perm, hsame.owned, hsame.reserved, rfl⟩

theorem SameResources.endpoint_host (h : SameResources rs rs') (link node : String) :
    endpoint_host rs link node = endpoint_host rs' link node := by
  unfold MininetAi.endpoint_host
  rw [h.node_named]

theorem resolve_endpoint_follows (hrs : SameResources rs rs') (h : Alike base t t') (link : String)
    (endpoint : LinkEndpoint) :
    Except.Follows (AlikeResult base) (resolve_endpoint rs link endpoint t) (resolve_endpoint rs' link endpoint t') := by
  unfold resolve_endpoint
  rw [hrs.endpoint_host]
  refine Except.Follows.bind (R := Eq) (fun node hnode => ⟨node, hnode, rfl⟩) ?_
  rintro node _ rfl
  cases endpoint.adapter with
  | some adapter =>
    simp only
    rw [explicit_adapter_alike h]
    refine Except.Follows.bind (R := Eq) (fun found hfound => ⟨found, hfound, rfl⟩) ?_
    rintro found _ rfl
    exact use_adapter_follows ⟨rfl, h⟩
  | none => exact Except.Follows.bind (implicit_adapter_follows h node) fun found found' => use_adapter_follows

variable {links : List TopologyLink} {resolved : List ResourcePlan × AdapterTable}

/-- The links of two orders of the resources: the same plans, and tables that are alike. -/
theorem resolve_links_follows (hrs : SameResources rs rs') (h : Alike base t t') :
    Except.Follows (AlikeResult base) (resolve_links rs links t) (resolve_links rs' links t') := by
  induction links generalizing t t' with
  | nil => exact Except.Follows.ok ⟨rfl, h⟩
  | cons link links ih =>
    rw [resolve_links, resolve_links]
    refine Except.Follows.bind (resolve_endpoint_follows hrs h link.name link.endpoints.1) ?_
    intro first first' hfirst
    refine Except.Follows.bind (resolve_endpoint_follows hrs hfirst.2 link.name link.endpoints.2) ?_
    intro second second' hsecond
    refine Except.Follows.bind (ih hsecond.2) ?_
    intro rest rest' hrest
    refine Except.Follows.ok ⟨?_, hrest.2⟩
    rw [hfirst.1, hsecond.1, hrest.1]

theorem SameTable.refl (t : AdapterTable) : SameTable t t :=
  ⟨Perm.refl _, fun _ => rfl, fun _ => Iff.rfl, rfl⟩

/-- The table after the links is sound. -/
theorem resolve_links_sound (h : resolve_links rs links t = .ok resolved)
    (hrs : (rs.map TopologyResource.name).Nodup) (hsound : t.Sound base) : resolved.2.Sound base := by
  have hsame : SameResources rs rs := ⟨Perm.refl _, hrs⟩
  obtain ⟨_, -, -, hafter, -⟩ := resolve_links_follows hsame ⟨hsound, SameTable.refl t⟩ resolved h
  exact hafter

/-- Links keep their names. -/
theorem resolve_links_names (h : resolve_links rs links t = .ok resolved) :
    resolved.1.map (fun plan => plan.name) = links.map TopologyLink.name := by
  induction links generalizing t resolved with
  | nil =>
    rw [resolve_links] at h
    rw [← ok.inj h]
    rfl
  | cons link links ih =>
    rw [resolve_links] at h
    obtain ⟨first, -, h⟩ := bind_ok_iff.mp h
    obtain ⟨second, -, h⟩ := bind_ok_iff.mp h
    obtain ⟨rest, hrest, h⟩ := bind_ok_iff.mp h
    rw [← ok.inj h]
    simp only [map_cons, ih hrest]
    rfl

end Tables

end MininetAi
