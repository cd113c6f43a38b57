/-
Reproducible resources: `_build_resources` on two orders of one topology.

A build is taken apart into what its steps return. From the resources in another order each
step returns the same, up to an order that the sorting at the end removes, since every name
in a plan is unique. The links may stand in another order when their endpoints name their
adapters: then what the links ask is a condition on all of them together.
-/
import MininetAi.Compiler.ResourcesOrder

set_option autoImplicit false

namespace MininetAi

open List

/-! ## The steps of a build -/

section Build

variable {sha256 : String → ℕ} {t : Topology} {rs' : List TopologyResource} {planned : List ResourcePlan}

/-- The names of resources and links. -/
def authored_names (t : Topology) : List String :=
  t.resources.map TopologyResource.name ++ t.links.map TopologyLink.name

/-- The table before the links. -/
def declared_table (t : Topology) (adapters : List AdapterDraft) : AdapterTable where
  adapters := adapters
  reserved := adapters.map AdapterDraft.name ++ authored_names t

/-- The planned resources before they are sorted. -/
def unsorted_plans (t : Topology) (resolved : List ResourcePlan × AdapterTable) (hosts : List AdapterDraft)
    (owners : Owners ℕ) : List ResourcePlan :=
  t.resources.map (planned_node owners) ++
    ((written_drafts hosts resolved.2.adapters).map planned_port ++ resolved.1)

/-- What the steps of a build return. -/
structure Built (sha256 : String → ℕ) (t : Topology) (adapters : List AdapterDraft)
    (resolved : List ResourcePlan × AdapterTable) (hosts : List AdapterDraft) (owners : Owners ℕ) : Prop where
  unique : (t.resources.map TopologyResource.name).Nodup
  graph : GraphValid t
  declared : declare_adapters (authored_names t) t.resources = .ok adapters
  links : resolve_links t.resources t.links (declared_table t adapters) = .ok resolved
  addressed : allocate_addresses t resolved.2.adapters = .ok hosts
  numbered : allocate_switch_dpids sha256 t.resources = .ok owners

theorem build_resources_iff :
    build_resources sha256 t = .ok planned ↔ ∃ adapters resolved hosts owners,
      Built sha256 t adapters resolved hosts owners ∧
        Keyed.sort plan_key (unsorted_plans t resolved hosts owners) = planned := by
  unfold build_resources
  simp only [Except.bind_ok_iff, Except.refuse_repeats_iff, not_mem_nil, not_false_eq_true, implies_true,
    and_true]
  constructor
  · rintro ⟨_, hunique, _, hgraph, adapters, hdeclared, resolved, hlinks, hosts, haddressed, owners, hnumbered,
      hplanned⟩
    exact ⟨adapters, resolved, hosts, owners,
      ⟨hunique, validate_resource_graph_iff.mp hgraph, hdeclared, hlinks, haddressed, hnumbered⟩,
      Except.ok.inj hplanned⟩
  · rintro ⟨adapters, resolved, hosts, owners, h, rfl⟩
    exact ⟨(), h.unique, (), validate_resource_graph_iff.mpr h.graph, adapters, h.declared, resolved, h.links, hosts,
      h.addressed, owners, h.numbered, rfl⟩

variable {adapters hosts : List AdapterDraft} {resolved : List ResourcePlan × AdapterTable}
  {owners : Owners ℕ}

theorem declared_table_sound (h : declare_adapters (authored_names t) t.resources = .ok adapters) :
    (declared_table t adapters).Sound (authored_names t) := by
  obtain ⟨-, -, hunique, hfresh⟩ := declare_adapters_iff.mp h
  exact ⟨hunique, hfresh, fun name hname => mem_append.mpr hname⟩

theorem GraphValid.names_unique (h : GraphValid t) (hunique : (t.resources.map TopologyResource.name).Nodup) :
    (authored_names t).Nodup :=
  nodup_append'.mpr ⟨hunique, h.links_unique, fun name hresource hlink => h.links_fresh name hlink hresource⟩

theorem written_drafts_names (hosts adapters : List AdapterDraft) :
    adapter_names (written_drafts hosts adapters) = adapter_names adapters := by
  rw [written_drafts, adapter_names, adapter_names, map_map]
  refine map_congr_left fun adapter _ => ?_
  rw [Function.comp_apply]
  cases hfind : Keyed.find AdapterDraft.name hosts adapter.name with
  | none => rfl
  | some written => exact (Keyed.find_some hfind).2

/-- No two planned resources have one name. -/
theorem Built.names_unique (h : Built sha256 t adapters resolved hosts owners) :
    ((unsorted_plans t resolved hosts owners).map fun plan => plan.name).Nodup := by
  have hsound := resolve_links_sound h.links h.unique (declared_table_sound h.declared)
  have hnodes : (t.resources.map (planned_node owners)).map (fun plan => plan.name) =
      t.resources.map TopologyResource.name := by
    rw [map_map]
    rfl
  have hports : ((written_drafts hosts resolved.2.adapters).map planned_port).map (fun plan => plan.name) =
      adapter_names resolved.2.adapters := by
    rw [map_map, ← written_drafts_names hosts]
    rfl
  rw [unsorted_plans, map_append, map_append, hnodes, hports, resolve_links_names h.links]
  -- the ports stand between the names that the author gives
  have hperm : (t.resources.map TopologyResource.name ++
      (adapter_names resolved.2.adapters ++ t.links.map TopologyLink.name)).Perm
      (adapter_names resolved.2.adapters ++ authored_names t) := by
    rw [← append_assoc, authored_names, ← append_assoc]
    exact perm_append_comm.append_right _
  refine hperm.nodup_iff.mpr (nodup_append'.mpr ⟨hsound.unique, h.graph.names_unique h.unique, ?_⟩)
  exact fun name hadapter => hsound.fresh name hadapter

theorem Built.keys_unique (h : Built sha256 t adapters resolved hosts owners) :
    ((unsorted_plans t resolved hosts owners).map plan_key).Nodup := by
  refine Nodup.of_map (fun key => (ofLex key).2) ?_
  rw [map_map]
  exact h.names_unique

theorem build_resources_unique (h : build_resources sha256 t = .ok planned) :
    (planned.map fun plan => plan.name).Nodup := by
  obtain ⟨adapters, resolved, hosts, owners, hbuilt, rfl⟩ := build_resources_iff.mp h
  exact ((Keyed.perm_sort _).map _).nodup_iff.mpr hbuilt.names_unique

theorem build_resources_names (h : build_resources sha256 t = .ok planned) :
    (t.resources.map TopologyResource.name).Nodup := by
  obtain ⟨adapters, resolved, hosts, owners, hbuilt, -⟩ := build_resources_iff.mp h
  exact hbuilt.unique

end Build

/-! ## Resources in another order -/

section ResourceOrder

variable {sha256 : String → ℕ} {t : Topology} {rs' : List TopologyResource} {planned : List ResourcePlan}

theorem SameResources.sorted_switches {rs : List TopologyResource} (h : SameResources rs rs') :
    sorted_switches rs = sorted_switches rs' :=
  Keyed.sort_perm (h.perm.filter _) (h.unique.sublist ((filter_sublist).map _))

theorem SameResources.authored_names (h : SameResources t.resources rs') (name : String) :
    name ∈ authored_names { t with resources := rs' } ↔ name ∈ authored_names t :=
  ((h.perm.map _).append_right _).mem_iff.symm

variable {adapters : List AdapterDraft}

/-- The adapters of hosts, in two orders of all adapters. -/
theorem host_adapters_perm {adapters' : List AdapterDraft} (h : adapters.Perm adapters')
    (hunique : (adapter_names adapters).Nodup) : host_adapters adapters = host_adapters adapters' :=
  Keyed.sort_perm (h.filter _) (hunique.sublist ((filter_sublist).map _))

/-- The declared tables of two orders are alike. -/
theorem declared_alike (h : SameResources t.resources rs')
    (hdeclared : declare_adapters (authored_names t) t.resources = .ok adapters) :
    declare_adapters (authored_names { t with resources := rs' }) rs' = .ok (rs'.flatMap declared_adapters) ∧
      Alike (authored_names t) (declared_table t adapters)
        (declared_table { t with resources := rs' } (rs'.flatMap declared_adapters)) := by
  have hsound := declared_table_sound hdeclared
  obtain ⟨hnumbers, rfl, hunique, hfresh⟩ := declare_adapters_iff.mp hdeclared
  have hperm := h.perm.flatMap_right declared_adapters
  constructor
  · refine declare_adapters_iff.mpr ⟨fun r hr => hnumbers r (h.perm.mem_iff.mpr hr), rfl, ?_, fun name hname => ?_⟩
    · exact (hperm.map _).nodup_iff.mp hunique
    · rw [h.authored_names]
      exact hfresh name ((hperm.map _).mem_iff.mpr hname)
  · refine ⟨hsound, hperm, fun owner => ?_, fun name => ?_, rfl⟩
    · unfold AdapterTable.by_owner declared_table
      rw [owned_declared h.unique, owned_declared h.symm.unique, h.node_named]
    · unfold declared_table
      rw [mem_append, mem_append, h.authored_names, (hperm.map _).mem_iff]

/-- What a build returns it returns for every order of the resources. -/
theorem build_resources_reordered (h : SameResources t.resources rs')
    (hbuild : build_resources sha256 t = .ok planned) :
    build_resources sha256 { t with resources := rs' } = .ok planned := by
  obtain ⟨adapters, resolved, hosts, owners, hbuilt, rfl⟩ := build_resources_iff.mp hbuild
  obtain ⟨hdeclared, halike⟩ := declared_alike h hbuilt.declared
  obtain ⟨resolved', hlinks, hplans, hsound, hsame⟩ :=
    resolve_links_follows h halike resolved hbuilt.links
  have haddressed : allocate_addresses { t with resources := rs' } resolved'.2.adapters = .ok hosts := by
    rw [← hbuilt.addressed]
    unfold allocate_addresses
    rw [host_adapters_perm hsame.perm hsound.unique]
  have hnumbered : allocate_switch_dpids sha256 rs' = .ok owners := by
    rw [← hbuilt.numbered]
    unfold allocate_switch_dpids
    rw [h.sorted_switches]
  refine build_resources_iff.mpr ⟨_, resolved', hosts, owners,
    ⟨h.symm.unique, hbuilt.graph.perm h (Perm.refl _), hdeclared, hlinks, haddressed, hnumbered⟩, ?_⟩
  refine (Keyed.sort_perm ?_ hbuilt.keys_unique).symm
  refine Perm.append (h.perm.map _) (Perm.append ?_ (hplans ▸ Perm.refl _))
  exact (hsame.perm.map _).map _

end ResourceOrder

/-! ## Links in another order -/

section LinkOrder

variable {sha256 : String → ℕ} {rs : List TopologyResource} {table : AdapterTable}

/-- Both endpoints of a link name their adapters. -/
def Explicit (link : TopologyLink) : Prop :=
  link.endpoints.1.adapter.isSome = true ∧ link.endpoints.2.adapter.isSome = true

instance (link : TopologyLink) : Decidable (Explicit link) := by
  unfold Explicit
  infer_instance

/-- The adapters that the endpoints name. -/
def named_endpoints (link : TopologyLink) : String × String :=
  (link.endpoints.1.adapter.getD "", link.endpoints.2.adapter.getD "")

/-- The adapters of links, the last used first. -/
def links_adapters (links : List TopologyLink) : List String :=
  links.flatMap fun link => [(named_endpoints link).1, (named_endpoints link).2]

/-- An endpoint is that of a host or switch, and its adapter is there. -/
def EndpointValid (rs : List TopologyResource) (table : AdapterTable) (link : String) (endpoint : LinkEndpoint) : Prop :=
  (∃ node, endpoint_host rs link endpoint.node = .ok node) ∧
    ∃ found, explicit_adapter link endpoint.node (endpoint.adapter.getD "") table = .ok found

variable {adapter : String} {table' : AdapterTable} {endpoint : LinkEndpoint}
  {links : List TopologyLink}

theorem explicit_adapter_name {link node : String} {found : AdapterDraft}
    (h : explicit_adapter link node adapter table = .ok found) : found.name = adapter := by
  unfold explicit_adapter at h
  cases hnamed : table.named adapter with
  | none =>
    simp only [hnamed] at h
    cases h
  | some other =>
    simp only [hnamed] at h
    by_cases howner : other.owner = node
    · rw [if_pos howner] at h
      rw [← Except.ok.inj h]
      exact (Keyed.find_some hnamed).2
    · rw [if_neg howner] at h
      cases h

/-- Only the adapters matter to an endpoint. -/
theorem EndpointValid.congr (h : table.adapters = table'.adapters) {link : String} :
    EndpointValid rs table link endpoint ↔ EndpointValid rs table' link endpoint := by
  unfold EndpointValid explicit_adapter AdapterTable.named
  rw [h]

/-- The names are used from now on. -/
def AdapterTable.using (table : AdapterTable) (names : List String) : AdapterTable :=
  { table with used := names ++ table.used }

theorem resolve_endpoint_explicit {link : String} (hadapter : endpoint.adapter = some adapter)
    {result : String × AdapterTable} : resolve_endpoint rs link endpoint table = .ok result ↔
      EndpointValid rs table link endpoint ∧ adapter ∉ table.used ∧ (adapter, table.using [adapter]) = result := by
  unfold resolve_endpoint EndpointValid
  simp only [hadapter, Option.getD_some, Except.bind_ok_iff]
  constructor
  · rintro ⟨node, hnode, found, hfound, hused⟩
    have hname := explicit_adapter_name hfound
    unfold use_adapter at hused
    by_cases hmem : found.name ∈ table.used
    · rw [if_pos hmem] at hused
      cases hused
    · rw [if_neg hmem] at hused
      rw [hname] at hmem hused
      exact ⟨⟨⟨node, hnode⟩, found, hfound⟩, hmem, Except.ok.inj hused⟩
  · rintro ⟨⟨⟨node, hnode⟩, found, hfound⟩, hmem, rfl⟩
    refine ⟨node, hnode, found, hfound, ?_⟩
    rw [use_adapter, explicit_adapter_name hfound, if_neg hmem]
    rfl

/-- Both endpoints of a link. -/
theorem resolve_link_explicit {link : TopologyLink} (hlink : Explicit link) {first second : String × AdapterTable} :
    (resolve_endpoint rs link.name link.endpoints.1 table = .ok first ∧
        resolve_endpoint rs link.name link.endpoints.2 first.2 = .ok second) ↔
      (EndpointValid rs table link.name link.endpoints.1 ∧ EndpointValid rs table link.name link.endpoints.2) ∧
        (named_endpoints link).1 ∉ table.used ∧
        (named_endpoints link).2 ∉ (named_endpoints link).1 :: table.used ∧
        ((named_endpoints link).1, table.using [(named_endpoints link).1]) = first ∧
        ((named_endpoints link).2, table.using [(named_endpoints link).2, (named_endpoints link).1]) = second := by
  obtain ⟨one, hone⟩ := Option.isSome_iff_exists.mp hlink.1
  obtain ⟨two, htwo⟩ := Option.isSome_iff_exists.mp hlink.2
  have hnames : named_endpoints link = (one, two) := by
    rw [named_endpoints, hone, htwo]
    rfl
  rw [hnames, resolve_endpoint_explicit hone]
  constructor
  · rintro ⟨⟨hfirst, hfresh, rfl⟩, hsecond⟩
    obtain ⟨hvalid, hother, rfl⟩ := (resolve_endpoint_explicit htwo).mp hsecond
    exact ⟨⟨hfirst, (EndpointValid.congr rfl).mp hvalid⟩, hfresh, hother, rfl, rfl⟩
  · rintro ⟨⟨hfirst, hvalid⟩, hfresh, hother, rfl, rfl⟩
    exact ⟨⟨hfirst, hfresh, rfl⟩, (resolve_endpoint_explicit htwo).mpr ⟨(EndpointValid.congr rfl).mp hvalid, hother, rfl⟩⟩

/-- What links with explicit endpoints ask of the table, all of them together. -/
structure LinksValid (rs : List TopologyResource) (table : AdapterTable) (links : List TopologyLink) : Prop where
  endpoints : ∀ link ∈ links,
    EndpointValid rs table link.name link.endpoints.1 ∧ EndpointValid rs table link.name link.endpoints.2
  once : (links_adapters links).Nodup
  unused : ∀ name ∈ links_adapters links, name ∉ table.used

/-- The links are resolved when they are valid together, and each then is planned by itself. -/
theorem resolve_links_explicit (rs : List TopologyResource) (table : AdapterTable)
    (hlinks : ∀ link ∈ links, Explicit link) :
    (∀ resolved, resolve_links rs links table = .ok resolved → LinksValid rs table links) ∧
      (LinksValid rs table links → ∃ used, resolve_links rs links table =
        .ok (links.map fun link => planned_link link (named_endpoints link), table.using used)) := by
  induction links generalizing table with
  | nil =>
    refine ⟨fun _ _ => ⟨?_, nodup_nil, ?_⟩, fun _ => ⟨[], rfl⟩⟩
    · exact fun link hlink => absurd hlink not_mem_nil
    · exact fun name hname => absurd hname not_mem_nil
  | cons link links ih =>
    have hthis := hlinks link mem_cons_self
    have hothers := fun other hother => hlinks other (mem_cons_of_mem _ hother)
    have hcons : links_adapters (link :: links) =
        (named_endpoints link).1 :: (named_endpoints link).2 :: links_adapters links := rfl
    constructor
    · intro resolved h
      rw [resolve_links] at h
      obtain ⟨first, hfirst, h⟩ := Except.bind_ok_iff.mp h
      obtain ⟨second, hsecond, h⟩ := Except.bind_ok_iff.mp h
      obtain ⟨rest, hrest, -⟩ := Except.bind_ok_iff.mp h
      obtain ⟨hvalid, hfresh, hother, rfl, rfl⟩ := (resolve_link_explicit hthis).mp ⟨hfirst, hsecond⟩
      obtain ⟨hendpoints, honce, hunused⟩ := (ih _ hothers).1 rest hrest
      refine ⟨forall_mem_cons.mpr ⟨hvalid, fun other hmem => ?_⟩, ?_, ?_⟩
      · obtain ⟨hone, htwo⟩ := hendpoints other hmem
        exact ⟨(EndpointValid.congr rfl).mp hone, (EndpointValid.congr rfl).mp htwo⟩
      · rw [hcons]
        refine List.nodup_cons.mpr ⟨fun hmem => ?_, List.nodup_cons.mpr ⟨fun hmem => ?_, honce⟩⟩
        · rcases mem_cons.mp hmem with hsame | hlater
          · exact hother (hsame ▸ mem_cons_self)
          · exact hunused _ hlater (mem_cons_of_mem _ mem_cons_self)
        · exact hunused _ hmem mem_cons_self
      · rw [hcons]
        refine forall_mem_cons.mpr ⟨hfresh, forall_mem_cons.mpr ⟨fun hmem => ?_, fun name hname hmem => ?_⟩⟩
        · exact hother (mem_cons_of_mem _ hmem)
        · exact hunused name hname (mem_cons_of_mem _ (mem_cons_of_mem _ hmem))
    · rintro ⟨hendpoints, honce, hunused⟩
      rw [hcons] at honce hunused
      obtain ⟨hvalid, hendpoints⟩ := forall_mem_cons.mp hendpoints
      obtain ⟨hfresh, hunused⟩ := forall_mem_cons.mp hunused
      obtain ⟨hother, hunused⟩ := forall_mem_cons.mp hunused
      obtain ⟨hfirst, honce⟩ := List.nodup_cons.mp honce
      obtain ⟨hsecond, honce⟩ := List.nodup_cons.mp honce
      have hdistinct : (named_endpoints link).2 ∉ (named_endpoints link).1 :: table.used := fun hmem => by
        rcases mem_cons.mp hmem with hsame | hold
        · exact hfirst (hsame ▸ mem_cons_self)
        · exact hother hold
      obtain ⟨hone, htwo⟩ := (resolve_link_explicit hthis).mpr ⟨hvalid, hfresh, hdistinct, rfl, rfl⟩
      have hrest : LinksValid rs (table.using [(named_endpoints link).2, (named_endpoints link).1]) links := by
        refine ⟨fun other hmem => ?_, honce, fun name hname hmem => ?_⟩
        · obtain ⟨hleft, hright⟩ := hendpoints other hmem
          exact ⟨(EndpointValid.congr rfl).mp hleft, (EndpointValid.congr rfl).mp hright⟩
        · rcases mem_cons.mp hmem with hsame | hmem
          · exact hsecond (hsame ▸ hname)
          rcases mem_cons.mp hmem with hsame | hmem
          · exact hfirst (mem_cons_of_mem _ (hsame ▸ hname))
          · exact hunused name hname hmem
      obtain ⟨used, hused⟩ := (ih _ hothers).2 hrest
      refine ⟨used ++ [(named_endpoints link).2, (named_endpoints link).1], ?_⟩
      rw [resolve_links]
      refine Except.bind_ok_iff.mpr ⟨_, hone, Except.bind_ok_iff.mpr ⟨_, htwo, Except.bind_ok_iff.mpr ⟨_, hused, ?_⟩⟩⟩
      unfold AdapterTable.using
      rw [append_assoc]
      rfl

/-- The order of the links does not matter to what they ask together. -/
theorem LinksValid.perm {links' : List TopologyLink} (h : LinksValid rs table links)
    (hperm : links.Perm links') (hadapters : table.adapters = table'.adapters)
    (hused : table.used = table'.used) : LinksValid rs table' links' where
  endpoints link hlink := by
    obtain ⟨hone, htwo⟩ := h.endpoints link (hperm.mem_iff.mpr hlink)
    exact ⟨(EndpointValid.congr hadapters).mp hone, (EndpointValid.congr hadapters).mp htwo⟩
  once := (hperm.flatMap_right _).nodup_iff.mp h.once
  unused name hname := by
    rw [← hused]
    exact h.unused name ((hperm.flatMap_right _).mem_iff.mpr hname)

variable {t : Topology} {links' : List TopologyLink} {planned : List ResourcePlan}

theorem authored_names_links (h : t.links.Perm links') (name : String) :
    name ∈ authored_names { t with links := links' } ↔ name ∈ authored_names t :=
  ((h.map _).append_left _).mem_iff.symm

/-- What a build returns it returns for every order of links with explicit endpoints. -/
theorem build_resources_relinked (hexplicit : ∀ link ∈ t.links, Explicit link) (h : t.links.Perm links')
    (hbuild : build_resources sha256 t = .ok planned) :
    build_resources sha256 { t with links := links' } = .ok planned := by
  obtain ⟨adapters, resolved, hosts, owners, hbuilt, rfl⟩ := build_resources_iff.mp hbuild
  have hdeclared : declare_adapters (authored_names { t with links := links' }) t.resources = .ok adapters := by
    obtain ⟨hnumbers, hadapters, hunique, hfresh⟩ := declare_adapters_iff.mp hbuilt.declared
    refine declare_adapters_iff.mpr ⟨hnumbers, hadapters, hunique, fun name hname => ?_⟩
    rw [authored_names_links h]
    exact hfresh name hname
  obtain ⟨hasked, hanswered⟩ := resolve_links_explicit t.resources (declared_table t adapters) hexplicit
  have hvalid := hasked resolved hbuilt.links
  obtain ⟨used, hresolved⟩ := hanswered hvalid
  have hsame : resolved = _ := Except.ok.inj (hbuilt.links.symm.trans hresolved)
  have hexplicit' : ∀ link ∈ links', Explicit link := fun link hlink => hexplicit link (h.mem_iff.mpr hlink)
  obtain ⟨used', hlinks⟩ := (resolve_links_explicit t.resources
    (declared_table { t with links := links' } adapters) hexplicit').2 (hvalid.perm h rfl rfl)
  have hadapters : resolved.2.adapters = adapters := by
    rw [hsame]
    rfl
  have haddressed : allocate_addresses { t with links := links' } adapters = .ok hosts := by
    rw [← hbuilt.addressed, hadapters]
    rfl
  have hgraph := hbuilt.graph.perm ⟨Perm.refl _, hbuilt.unique⟩ h
  refine build_resources_iff.mpr ⟨adapters, _, hosts, owners,
    ⟨hbuilt.unique, hgraph, hdeclared, hlinks, haddressed, hbuilt.numbered⟩, ?_⟩
  refine (Keyed.sort_perm ?_ hbuilt.keys_unique).symm
  refine Perm.append (Perm.refl _) (Perm.append ?_ ?_)
  · rw [hadapters]
    exact Perm.refl _
  · rw [hsame]
    exact h.map _

end LinkOrder

/-! ## Authoring order -/

/-- The order in which a topology is written does not matter: a build of the resources in
another order returns the same planned resources or stops as well, and so does a build of the
links in another order when every endpoint names its adapter. -/
theorem resources_reproducible (sha256 : String → ℕ) (t : Topology) (planned : List ResourcePlan) :
    (∀ resources, t.resources.Perm resources → (build_resources sha256 t = .ok planned ↔
        build_resources sha256 { t with resources := resources } = .ok planned)) ∧
    ((∀ link ∈ t.links, Explicit link) → ∀ links, t.links.Perm links →
      (build_resources sha256 t = .ok planned ↔
        build_resources sha256 { t with links := links } = .ok planned)) := by
  refine ⟨fun resources hperm => ⟨fun h => ?_, fun h => ?_⟩, fun hexplicit links hperm => ⟨fun h => ?_, fun h => ?_⟩⟩
  · exact build_resources_reordered ⟨hperm, build_resources_names h⟩ h
  · exact build_resources_reordered (t := { t with resources := resources }) ⟨hperm.symm, build_resources_names h⟩ h
  · exact build_resources_relinked hexplicit hperm h
  · exact build_resources_relinked (t := { t with links := links })
      (fun link hlink => hexplicit link (hperm.mem_iff.mpr hlink)) hperm.symm h

/-- Two hosts at a switch. -/
def two_hosts : Topology where
  subnet := { network_address := 10 * 2 ^ 24, prefixlen := 24 }
  mac_prefix := "02:00:00"
  resources :=
    [{ name := "s1", detail := .switch none .secure .kernel [] [.openflow_13] [{}, {}] },
      { name := "h1", detail := .host [{}] none },
      { name := "h2", detail := .host [{}] none }]
  links :=
    [{ name := "l1", endpoints := ({ node := "h1", adapter := "h1-eth0" }, { node := "s1", adapter := "s1-eth1" }) },
      { name := "l2", endpoints := ({ node := "h2", adapter := "h2-eth0" }, { node := "s1", adapter := "s1-eth2" }) }]

theorem resources_reproducible_two_hosts :
    ∃ planned, build_resources (fun _ => 1) two_hosts = .ok planned ∧
      build_resources (fun _ => 1) { two_hosts with resources := two_hosts.resources.reverse } = .ok planned ∧
      build_resources (fun _ => 1) { two_hosts with links := two_hosts.links.reverse } = .ok planned := by
  have hbuilds : (build_resources (fun _ => 1) two_hosts).toBool = true := by decide
  cases hplanned : build_resources (fun _ => 1) two_hosts with
  | error e =>
    rw [hplanned] at hbuilds
    cases hbuilds
  | ok planned =>
    obtain ⟨hresources, hlinks⟩ := resources_reproducible (fun _ => 1) two_hosts planned
    refine ⟨planned, rfl, (hresources _ (reverse_perm _).symm).mp hplanned, ?_⟩
    exact (hlinks (by decide) _ (reverse_perm _).symm).mp hplanned

end MininetAi
