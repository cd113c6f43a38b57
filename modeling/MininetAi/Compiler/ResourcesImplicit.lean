/-
Endpoints that name no adapter (`_resolve_links`).

The links are resolved in one pass, and an endpoint given only as a node takes the first
adapter of the node that is free so far: also one that a later link names, which then is
refused. `RoomForImplicit` says on the topology alone when that does not happen. Up to the
first such endpoint the adapters that no link names are taken in turn, so the table is
known from how many endpoints given only as its node stand before; `Fair` is that state.
-/
import MininetAi.Compiler.ResourcesAdapters
import MininetAi.Lib.FirstFit
import MininetAi.Lib.IntegerText
import MininetAi.Lib.Separator

set_option autoImplicit false

namespace MininetAi

open List

/-! ## What the topology says -/

section Conditions

variable (topology : Topology) (adapters : List AdapterDraft) (endpoints : List (String × LinkEndpoint))

/-- The adapters that endpoints name. -/
def named_adapters (endpoints : List (String × LinkEndpoint)) : List String :=
  endpoints.filterMap fun endpoint => endpoint.2.adapter

/-- How many endpoints are given only as the node. -/
def implicit_at (endpoints : List (String × LinkEndpoint)) (node : String) : ℕ :=
  endpoints.countP fun endpoint => decide (endpoint.2.adapter = none ∧ endpoint.2.node = node)

/-- The adapters of a node. -/
def owned_by (adapters : List AdapterDraft) (node : String) : List AdapterDraft :=
  adapters.filter fun adapter => adapter.owner = node

/-- The names of the adapters that a node declares. -/
def declared_names (node : String) : List String := adapter_names (owned_by adapters node)

/-- No link names the adapter. -/
def nowhere_named (name : String) : Bool := decide (name ∉ named_adapters endpoints)

/-- The adapters of a node that no link names. -/
def unnamed (node : String) : List String := (declared_names adapters node).filter (nowhere_named endpoints)

/-- How many of them are declared before an adapter. -/
def unnamed_before (node name : String) : ℕ :=
  List.slots_before (nowhere_named endpoints) (declared_names adapters node) name

/-- Adapters of a node, with new ones behind them. -/
def with_new (node : TopologyResource) (declared : List AdapterDraft) : ℕ → List AdapterDraft
  | 0 => declared
  | k + 1 => with_new node declared k ++
      [automatic_adapter node ((with_new node declared k).map AdapterDraft.number)]

/-- The adapters of a node behind some endpoints: those that no link names are taken first. -/
def owned_after (node : TopologyResource) (before : List (String × LinkEndpoint)) : List AdapterDraft :=
  with_new node (owned_by adapters node.name)
    (implicit_at before node.name - (unnamed adapters endpoints node.name).length)

/-- The adapter that would be made for a node behind some endpoints. -/
def next_adapter (node : TopologyResource) (before : List (String × LinkEndpoint)) : AdapterDraft :=
  automatic_adapter node ((owned_after adapters endpoints node before).map AdapterDraft.number)

/-- Every adapter that a node declares is taken behind some endpoints. -/
def AllTaken (before : List (String × LinkEndpoint)) (node : String) : Prop :=
  (unnamed adapters endpoints node).length ≤ implicit_at before node ∧
    ∀ name ∈ declared_names adapters node, name ∈ named_adapters endpoints → name ∈ named_adapters before

/-- The resolution stops at an endpoint for a reason of its own: its node is no host or
switch, or it needs a new adapter whose name is in use. -/
def Stops (before : List (String × LinkEndpoint)) (endpoint : String × LinkEndpoint) : Prop :=
  (¬ ∃ node, endpoint_host topology.resources endpoint.1 endpoint.2.node = .ok node) ∨
    endpoint.2.adapter = none ∧ AllTaken adapters endpoints before endpoint.2.node ∧
      ∃ node, node_named topology.resources endpoint.2.node = some node ∧
        (next_adapter adapters endpoints node before).name ∈ adapter_names adapters ++ authored_names topology

/-- The resolution does not stop in the part for such a reason. -/
def Reached (part : List (String × LinkEndpoint)) : Prop :=
  ∀ before endpoint after, part = before ++ endpoint :: after → ¬ Stops topology adapters endpoints before endpoint

/-- Every adapter that a later link names has more adapters before it that no link names
than endpoints that are given only as its node have stood before. -/
def RoomForImplicit : Prop :=
  ∀ before endpoint after, endpoints = before ++ endpoint :: after → endpoint.2.adapter = none →
    Reached topology adapters endpoints (before ++ [endpoint]) →
    ∀ name ∈ declared_names adapters endpoint.2.node, name ∈ named_adapters after →
      implicit_at before endpoint.2.node < unnamed_before adapters endpoints endpoint.2.node name

/-- An endpoint given only as a node is resolved to an adapter that no link names. -/
def ImplicitApart : Prop :=
  ∀ before endpoint after, endpoints = before ++ endpoint :: after → endpoint.2.adapter = none →
    ∀ names name table, resolve_endpoints topology.resources (before ++ [endpoint]) (declared_table topology adapters)
      = .ok (names ++ [name], table) → name ∉ named_adapters endpoints

end Conditions

/-! ## Names and counts -/

section Names

variable {adapters : List AdapterDraft} {endpoints : List (String × LinkEndpoint)}

theorem no_h_in_number (number : ℕ) : 'h' ∉ (toString number).toList := by
  rw [Nat.toString_eq_repr, Nat.toList_repr]
  intro hmem
  obtain ⟨d, hd, hchar⟩ := @Text.digit_of_mem_toDigits 10 number (by decide) (by decide) 'h' hmem
  have hdigits : ∀ d < 10, 'h' ≠ Nat.digitChar d := by decide
  exact hdigits d hd hchar

/-- A generated name says whose adapter it is, and its number. -/
theorem adapter_name_inj {owner owner' : String} {number number' : ℕ}
    (h : adapter_name owner number = adapter_name owner' number') : owner = owner' ∧ number = number' := by
  have hlist := congrArg String.toList h
  simp only [adapter_name, String.toList_append, append_assoc] at hlist
  have hsplit := (List.append_separator_inj (s := "-et".toList) (no_h_in_number number) (no_h_in_number number')).mp hlist
  exact ⟨String.toList_injective hsplit.1, Text.toString_inj (String.toList_injective hsplit.2)⟩

theorem named_adapters_append (before after : List (String × LinkEndpoint)) :
    named_adapters (before ++ after) = named_adapters before ++ named_adapters after := filterMap_append

variable {name : String}

variable {endpoint : String × LinkEndpoint} {node : String} (before : List (String × LinkEndpoint))

theorem named_adapters_explicit (h : endpoint.2.adapter = some name) :
    named_adapters (before ++ [endpoint]) = named_adapters before ++ [name] := by
  rw [named_adapters_append]
  have hlast : named_adapters [endpoint] = [name] := by
    rw [named_adapters, filterMap_cons, h]
    rfl
  rw [hlast]

theorem named_adapters_implicit (h : endpoint.2.adapter = none) :
    named_adapters (before ++ [endpoint]) = named_adapters before := by
  rw [named_adapters_append]
  have hnothing : named_adapters [endpoint] = [] := by
    rw [named_adapters, filterMap_cons, h]
    rfl
  rw [hnothing, append_nil]

theorem implicit_at_append (endpoint : String × LinkEndpoint) (node : String) :
    implicit_at (before ++ [endpoint]) node =
      implicit_at before node + if endpoint.2.adapter = none ∧ endpoint.2.node = node then 1 else 0 := by
  rw [implicit_at, countP_append, countP_singleton, implicit_at]
  by_cases h : endpoint.2.adapter = none ∧ endpoint.2.node = node
  · rw [if_pos h, if_pos (decide_eq_true h)]
  · rw [if_neg h, if_neg (by rwa [decide_eq_true_eq])]

theorem mem_declared_names :
    name ∈ declared_names adapters node ↔ ∃ adapter ∈ adapters, adapter.name = name ∧ adapter.owner = node := by
  rw [declared_names, adapter_names, owned_by]
  simp only [mem_map, mem_filter, decide_eq_true_eq]
  constructor
  · rintro ⟨a, ⟨hmem, howner⟩, hname⟩
    exact ⟨a, hmem, hname, howner⟩
  · rintro ⟨a, hmem, hname, howner⟩
    exact ⟨a, ⟨hmem, howner⟩, hname⟩

theorem declared_names_nodup (h : (adapter_names adapters).Nodup) (node : String) :
    (declared_names adapters node).Nodup :=
  h.sublist (filter_sublist.map _)

/-- An adapter belongs to one node. -/
theorem declared_names_owner (h : (adapter_names adapters).Nodup) {node' : String}
    (hname : name ∈ declared_names adapters node) (hname' : name ∈ declared_names adapters node') :
    node = node' := by
  obtain ⟨a, ha, haname, rfl⟩ := mem_declared_names.mp hname
  obtain ⟨b, hb, hbname, rfl⟩ := mem_declared_names.mp hname'
  rw [Keyed.eq_of_key h ha hb (haname.trans hbname.symm)]

theorem with_new_prefix (node : TopologyResource) (declared : List AdapterDraft) (k : ℕ) :
    ∃ new, with_new node declared k = declared ++ new := by
  induction k with
  | zero => exact ⟨[], (append_nil _).symm⟩
  | succ k ih =>
    obtain ⟨new, hnew⟩ := ih
    rw [with_new, hnew, append_assoc]
    exact ⟨_, rfl⟩

end Names

/-! ## The table while the adapters are taken in turn -/

section Fair

variable {topology : Topology} {adapters : List AdapterDraft} {endpoints before : List (String × LinkEndpoint)}
  {t : AdapterTable}

/-- The table behind the endpoints `before`, none of which took an adapter that another names. -/
structure Fair (topology : Topology) (adapters : List AdapterDraft) (endpoints before : List (String × LinkEndpoint))
    (t : AdapterTable) : Prop where
  sound : t.Sound (authored_names topology)
  kept : adapters ⊆ t.adapters
  owned : ∀ name node, node_named topology.resources name = some node →
    t.by_owner node.name = owned_after adapters endpoints node before
  reserved : ∀ name ∈ t.reserved, name ∈ adapter_names adapters ++ authored_names topology ∨
    ∃ adapter ∈ t.adapters, name = adapter_name adapter.owner adapter.number
  reserves : ∀ name ∈ adapter_names adapters ++ authored_names topology, name ∈ t.reserved
  taken : ∀ node, ∀ name ∈ declared_names adapters node, name ∈ t.used ↔
    name ∈ named_adapters before ∨ name ∈ (unnamed adapters endpoints node).take (implicit_at before node)
  used_new : ∀ node, ∀ adapter ∈ (t.by_owner node).drop (owned_by adapters node).length, adapter.name ∈ t.used
  used_known : ∀ name ∈ t.used, name ∈ adapter_names t.adapters

theorem fair_start (hdeclared : declare_adapters (authored_names topology) topology.resources = .ok adapters) :
    Fair topology adapters endpoints [] (declared_table topology adapters) where
  sound := declared_table_sound hdeclared
  kept _ hmem := hmem
  owned name node _ := by
    rw [owned_after, implicit_at, countP_nil, Nat.zero_sub]
    rfl
  reserved name hname := Or.inl hname
  reserves name hname := hname
  taken node name _ := by
    rw [implicit_at, countP_nil, take_zero]
    exact iff_of_false not_mem_nil fun h => h.elim not_mem_nil not_mem_nil
  used_new node adapter hadapter := by
    have hnothing : ((declared_table topology adapters).by_owner node).drop (owned_by adapters node).length = [] :=
      drop_length
    rw [hnothing] at hadapter
    exact absurd hadapter not_mem_nil
  used_known name hname := absurd hname not_mem_nil

/-- The unnamed adapters of a node are taken in turn. -/
theorem Fair.turn (h : Fair topology adapters endpoints before t)
    (hbefore : ∀ name ∈ named_adapters before, name ∈ named_adapters endpoints) (node : String) :
    List.TakenInTurn (fun name => decide (name ∉ t.used)) (nowhere_named endpoints) (declared_names adapters node)
      (implicit_at before node) := by
  intro name hname hunnamed
  have hnot : name ∉ named_adapters before := fun hmem => of_decide_eq_true hunnamed (hbefore name hmem)
  have hused := h.taken node name hname
  simp only [hnot, false_or] at hused
  rw [decide_eq_false_iff_not, not_not]
  exact hused

variable {endpoint : String × LinkEndpoint} {name : String} {node : TopologyResource}

section

variable (h : Fair topology adapters endpoints before t)
include h

/-- An adapter is used: it is the one an endpoint names, or the next unnamed one of its node. -/
theorem Fair.use (hnodup : (adapter_names adapters).Nodup)
    (hname : name ∈ declared_names adapters endpoint.2.node)
    (htaken : ∀ other ∈ declared_names adapters endpoint.2.node,
      other ∈ named_adapters (before ++ [endpoint]) ∨
        other ∈ (unnamed adapters endpoints endpoint.2.node).take (implicit_at (before ++ [endpoint]) endpoint.2.node) ↔
      other = name ∨ other ∈ named_adapters before ∨
        other ∈ (unnamed adapters endpoints endpoint.2.node).take (implicit_at before endpoint.2.node))
    (howned : ∀ node, node_named topology.resources endpoint.2.node = some node →
      owned_after adapters endpoints node (before ++ [endpoint]) = owned_after adapters endpoints node before)
    (hnamed : ∀ adapter ∈ endpoint.2.adapter, adapter = name) :
    Fair topology adapters endpoints (before ++ [endpoint]) (t.using [name]) where
  sound := ⟨h.sound.unique, h.sound.fresh, h.sound.reserved⟩
  kept := h.kept
  owned other node hnode := by
    by_cases hother : other = endpoint.2.node
    · rw [hother] at hnode
      rw [howned node hnode]
      exact h.owned _ node hnode
    · have hne : ¬ (endpoint.2.adapter = none ∧ endpoint.2.node = node.name) :=
        fun heq => hother ((node_named_name hnode).symm.trans heq.2.symm)
      have hcount : implicit_at (before ++ [endpoint]) node.name = implicit_at before node.name := by
        rw [implicit_at_append, if_neg hne, Nat.add_zero]
      rw [owned_after, hcount]
      exact h.owned other node hnode
  reserved := h.reserved
  reserves := h.reserves
  taken node other hother := by
    have hcons : other ∈ (t.using [name]).used ↔ other = name ∨ other ∈ t.used := mem_cons
    rw [hcons, h.taken node other hother]
    by_cases hnode : endpoint.2.node = node
    · subst hnode
      exact (htaken other hother).symm
    · -- the adapters of other nodes stay as they are
      have hne : other ≠ name := by
        rintro rfl
        exact hnode (declared_names_owner hnodup hname hother)
      have hcount : implicit_at (before ++ [endpoint]) node = implicit_at before node := by
        rw [implicit_at_append, if_neg fun heq => hnode heq.2, Nat.add_zero]
      have hmem : other ∈ named_adapters (before ++ [endpoint]) ↔ other ∈ named_adapters before := by
        rw [named_adapters_append, mem_append, or_iff_left]
        intro hsingle
        obtain ⟨e, he, hadapter⟩ := mem_filterMap.mp hsingle
        rw [mem_singleton.mp he] at hadapter
        exact hne (hnamed other hadapter)
      rw [hcount, hmem]
      exact or_iff_right hne
  used_new node adapter hadapter := mem_cons_of_mem _ (h.used_new node adapter hadapter)
  used_known other hother := by
    rcases mem_cons.mp hother with rfl | hold
    · obtain ⟨adapter, hadapter, rfl, -⟩ := mem_declared_names.mp hname
      exact mem_map_of_mem (h.kept hadapter)
    · exact h.used_known other hold

/-- The adapter that an endpoint names is free. -/
theorem Fair.named_step
    (hnodup : (adapter_names adapters).Nodup) (hadapter : endpoint.2.adapter = some name)
    (hhost : ∃ node, endpoint_host topology.resources endpoint.1 endpoint.2.node = .ok node)
    (hname : name ∈ declared_names adapters endpoint.2.node) (hnew : name ∉ named_adapters before)
    (hin : name ∈ named_adapters endpoints) :
    resolve_endpoint topology.resources endpoint.1 endpoint.2 t = .ok (name, t.using [name]) ∧
      Fair topology adapters endpoints (before ++ [endpoint]) (t.using [name]) := by
  obtain ⟨adapter, hmem, hadaptername, howner⟩ := mem_declared_names.mp hname
  have hunused : name ∉ t.used := by
    rw [h.taken _ name hname]
    rintro (hold | htake)
    · exact hnew hold
    · have hunnamed := (mem_filter.mp (mem_of_mem_take htake)).2
      exact of_decide_eq_true hunnamed hin
  have hexplicit : ¬ (endpoint.2.adapter = none ∧ endpoint.2.node = endpoint.2.node) := by
    rw [hadapter]
    exact fun hnone => by cases hnone.1
  have hcount : implicit_at (before ++ [endpoint]) endpoint.2.node = implicit_at before endpoint.2.node := by
    rw [implicit_at_append, if_neg hexplicit, Nat.add_zero]
  have hlast := named_adapters_explicit before hadapter
  constructor
  · refine (resolve_endpoint_explicit hadapter).mpr ⟨⟨hhost, adapter, ?_⟩, hunused, rfl⟩
    have hfound : t.named name = some adapter :=
      (Keyed.find_eq_some_iff h.sound.unique).mpr ⟨h.kept hmem, hadaptername⟩
    rw [hadapter, Option.getD_some, explicit_adapter, hfound]
    exact if_pos howner
  · refine h.use hnodup hname (fun other _ => ?_) (fun node hnode => ?_) fun other hother => ?_
    · rw [hcount, hlast, mem_append, mem_singleton]
      tauto
    · rw [owned_after, node_named_name hnode, hcount, owned_after, node_named_name hnode]
    · exact Option.some.inj (hother.symm.trans hadapter)

/-- The first free adapter of a node is one that the node declares. -/
theorem Fair.first_free (hnode : node_named topology.resources name = some node) :
    ((t.by_owner name).find? fun adapter => adapter.name ∉ t.used).map AdapterDraft.name =
      (declared_names adapters name).find? fun other => decide (other ∉ t.used) := by
  have howned := h.owned name node hnode
  rw [node_named_name hnode] at howned
  obtain ⟨new, hnew⟩ := with_new_prefix node (owned_by adapters node.name)
    (implicit_at before node.name - (unnamed adapters endpoints node.name).length)
  rw [owned_after, hnew, node_named_name hnode] at howned
  have hnone : (new.find? fun adapter => decide (adapter.name ∉ t.used)) = none := by
    refine find?_eq_none.mpr fun adapter hadapter => ?_
    have hused := h.used_new name adapter
    rw [howned, drop_left] at hused
    rw [decide_eq_true_eq, not_not]
    exact hused hadapter
  rw [howned, find?_append, hnone, Option.or_none, declared_names, adapter_names, find?_map]
  rfl

end

/-- An endpoint given only as a node. -/
theorem resolve_implicit (hadapter : endpoint.2.adapter = none)
    (hhost : endpoint_host topology.resources endpoint.1 endpoint.2.node = .ok node) :
    resolve_endpoint topology.resources endpoint.1 endpoint.2 t = implicit_adapter node t >>= use_adapter := by
  rw [resolve_endpoint, hhost, hadapter]
  rfl

section

variable (h : Fair topology adapters endpoints before t)
include h

/-- It takes the first free adapter that its node declares. -/
theorem Fair.reuse_step (hadapter : endpoint.2.adapter = none)
    (hhost : endpoint_host topology.resources endpoint.1 endpoint.2.node = .ok node)
    (hfirst : (declared_names adapters endpoint.2.node).find? (fun other => decide (other ∉ t.used)) = some name) :
    resolve_endpoint topology.resources endpoint.1 endpoint.2 t = .ok (name, t.using [name]) := by
  have hnode := (endpoint_host_ok hhost).1
  rw [← h.first_free hnode] at hfirst
  obtain ⟨adapter, hfound, hname⟩ := Option.map_eq_some_iff.mp hfirst
  have hunused : adapter.name ∉ t.used :=
    of_decide_eq_true (find?_some (p := fun adapter : AdapterDraft => decide (adapter.name ∉ t.used)) hfound)
  rw [← node_named_name hnode] at hfound
  rw [resolve_implicit hadapter hhost, implicit_adapter, hfound, ← hname]
  exact if_neg hunused

/-- An unnamed one is the next in turn. -/
theorem Fair.reuse_fair (hnodup : (adapter_names adapters).Nodup)
    (hbefore : ∀ name ∈ named_adapters before, name ∈ named_adapters endpoints)
    (hadapter : endpoint.2.adapter = none)
    (hfirst : (declared_names adapters endpoint.2.node).find? (fun other => decide (other ∉ t.used)) = some name)
    (hunnamed : name ∉ named_adapters endpoints) :
    Fair topology adapters endpoints (before ++ [endpoint]) (t.using [name]) := by
  obtain ⟨htake, hlt, -⟩ := (h.turn hbefore endpoint.2.node).next (declared_names_nodup hnodup _) hfirst
    (decide_eq_true hunnamed)
  have hcount : implicit_at (before ++ [endpoint]) endpoint.2.node = implicit_at before endpoint.2.node + 1 := by
    rw [implicit_at_append, if_pos ⟨hadapter, rfl⟩]
  have hlast := named_adapters_implicit before hadapter
  refine h.use hnodup (mem_of_find?_eq_some hfirst) (fun other _ => ?_) (fun node hnode => ?_) fun other hother => ?_
  · rw [hcount, hlast, unnamed, htake, mem_append, mem_singleton]
    tauto
  · have hnone : implicit_at before endpoint.2.node + 1 - (unnamed adapters endpoints endpoint.2.node).length =
        implicit_at before endpoint.2.node - (unnamed adapters endpoints endpoint.2.node).length := by
      rw [unnamed]
      omega
    rw [owned_after, node_named_name hnode, hcount, hnone, owned_after, node_named_name hnode]
  · rw [hadapter] at hother
    cases hother

/-- Without a free adapter a new one is made. -/
theorem Fair.new_eq (hnode : node_named topology.resources name = some node) :
    new_adapter node t = next_adapter adapters endpoints node before := by
  rw [new_adapter, h.owned name node hnode]
  rfl

/-- Whether its name is in use can be seen from what is declared. -/
theorem Fair.new_reserved_iff (hnode : node_named topology.resources name = some node) :
    (new_adapter node t).name ∈ t.reserved ↔
      (next_adapter adapters endpoints node before).name ∈ adapter_names adapters ++ authored_names topology := by
  rw [← h.new_eq hnode]
  refine ⟨fun hmem => ?_, h.reserves _⟩
  rcases h.reserved _ hmem with hbase | ⟨adapter, hadapter, hname⟩
  · exact hbase
  · -- a generated name says its owner and number, and the number is new there
    obtain ⟨howner, hnumber⟩ := adapter_name_inj hname
    have hmine : adapter ∈ t.by_owner node.name := mem_filter.mpr ⟨hadapter, decide_eq_true howner.symm⟩
    have hfree : (new_adapter node t).number ∉ (t.by_owner node.name).map AdapterDraft.number := first_free_free _ _
    refine absurd ?_ hfree
    have hsame : (new_adapter node t).number = adapter.number := hnumber
    rw [hsame]
    exact mem_map_of_mem hmine

/-- The new adapter is used at once. -/
theorem Fair.create_step (hadapter : endpoint.2.adapter = none)
    (hhost : endpoint_host topology.resources endpoint.1 endpoint.2.node = .ok node)
    (hnone : (declared_names adapters endpoint.2.node).find? (fun other => decide (other ∉ t.used)) = none) :
    resolve_endpoint topology.resources endpoint.1 endpoint.2 t =
      if (new_adapter node t).name ∈ t.reserved then .error (.generated_name_in_use (new_adapter node t).name)
      else .ok ((new_adapter node t).name, (t.add (new_adapter node t)).using [(new_adapter node t).name]) := by
  have hnode := (endpoint_host_ok hhost).1
  rw [← h.first_free hnode, Option.map_eq_none_iff, ← node_named_name hnode] at hnone
  rw [resolve_implicit hadapter hhost, implicit_adapter, hnone]
  simp only
  unfold create_automatic_adapter
  by_cases hreserved : (new_adapter node t).name ∈ t.reserved
  · rw [if_pos hreserved]
    rw [new_adapter] at hreserved ⊢
    simp only [if_pos hreserved]
    rfl
  · have hunused : (new_adapter node t).name ∉ (t.add (new_adapter node t)).used := fun hmem =>
      hreserved (h.sound.reserved _ (Or.inl (h.used_known _ hmem)))
    rw [if_neg hreserved]
    rw [new_adapter] at hreserved hunused ⊢
    simp only [if_neg hreserved]
    exact if_neg hunused

/-- No adapter that the node declares is free. -/
theorem Fair.all_taken_iff (hnodup : (adapter_names adapters).Nodup)
    (hbefore : ∀ name ∈ named_adapters before, name ∈ named_adapters endpoints) (node : String) :
    AllTaken adapters endpoints before node ↔
      (declared_names adapters node).find? (fun other => decide (other ∉ t.used)) = none := by
  constructor
  · rintro ⟨hlength, hnamed⟩
    refine find?_eq_none.mpr fun name hname => ?_
    rw [decide_eq_true_eq, not_not, h.taken node name hname]
    by_cases hin : name ∈ named_adapters endpoints
    · exact Or.inl (hnamed name hname hin)
    · rw [take_of_length_le hlength]
      exact Or.inr (mem_filter.mpr ⟨hname, decide_eq_true hin⟩)
  · intro hnone
    refine ⟨(h.turn hbefore node).exhausted (declared_names_nodup hnodup node) hnone, fun name hname hin => ?_⟩
    have hused := find?_eq_none.mp hnone name hname
    rw [decide_eq_true_eq, not_not, h.taken node name hname] at hused
    refine hused.resolve_right fun htake => ?_
    exact of_decide_eq_true (mem_filter.mp (mem_of_mem_take htake)).2 hin

theorem Fair.create_fair (hadapter : endpoint.2.adapter = none)
    (hnode : node_named topology.resources endpoint.2.node = some node)
    (hall : (unnamed adapters endpoints endpoint.2.node).length ≤ implicit_at before endpoint.2.node)
    (hfree : (new_adapter node t).name ∉ t.reserved) :
    Fair topology adapters endpoints (before ++ [endpoint])
      ((t.add (new_adapter node t)).using [(new_adapter node t).name]) := by
  have hname := node_named_name hnode
  have hlast := named_adapters_implicit before hadapter
  have hsplit : ∀ owner, (t.add (new_adapter node t)).by_owner owner =
      t.by_owner owner ++ if node.name = owner then [new_adapter node t] else [] := by
    intro owner
    have hfilter : (t.add (new_adapter node t)).by_owner owner =
        t.by_owner owner ++ [new_adapter node t].filter fun adapter => adapter.owner = owner := filter_append _ _
    rw [hfilter]
    by_cases howner : node.name = owner
    · rw [if_pos howner]
      exact congrArg _ (filter_cons_of_pos (decide_eq_true howner))
    · rw [if_neg howner]
      exact congrArg _ (filter_cons_of_neg fun hmine => howner (of_decide_eq_true hmine))
  have hafter := h.sound.add hfree
  refine ⟨⟨hafter.unique, hafter.fresh, hafter.reserved⟩, ?_, ?_, ?_, ?_, ?_, ?_, ?_⟩
  · exact fun adapter hmem => mem_append_left _ (h.kept hmem)
  · intro other node' hnode'
    have howned := h.owned other node' hnode'
    have hby : ((t.add (new_adapter node t)).using [(new_adapter node t).name]).by_owner node'.name =
        (t.add (new_adapter node t)).by_owner node'.name := rfl
    rw [hby, hsplit]
    by_cases hsame : node.name = node'.name
    · -- one more new adapter for this node
      have heq : node = node' := by
        rw [hname, node_named_name hnode'] at hsame
        rw [hsame] at hnode
        exact Option.some.inj (hnode.symm.trans hnode')
      subst heq
      have hcount : implicit_at (before ++ [endpoint]) node.name - (unnamed adapters endpoints node.name).length =
          implicit_at before node.name - (unnamed adapters endpoints node.name).length + 1 := by
        rw [implicit_at_append, if_pos ⟨hadapter, hname.symm⟩, hname]
        omega
      rw [if_pos rfl, owned_after, hcount, with_new, ← owned_after, howned]
      rw [new_adapter, howned]
    · have hne : ¬ (endpoint.2.adapter = none ∧ endpoint.2.node = node'.name) :=
        fun heq => hsame (hname.trans heq.2)
      rw [if_neg hsame, append_nil, howned, owned_after, owned_after, implicit_at_append, if_neg hne, Nat.add_zero]
  · intro other hother
    rcases mem_cons.mp hother with rfl | hold
    · exact Or.inr ⟨new_adapter node t, mem_append_right _ (mem_singleton_self _), rfl⟩
    · refine (h.reserved other hold).imp_right fun hadapted => ?_
      obtain ⟨adapter, hmem, heq⟩ := hadapted
      exact ⟨adapter, mem_append_left _ hmem, heq⟩
  · exact fun other hother => mem_cons_of_mem _ (h.reserves other hother)
  · intro other declared hdeclared
    have hne : declared ≠ (new_adapter node t).name := by
      rintro rfl
      obtain ⟨adapter, hmem, heq, -⟩ := mem_declared_names.mp hdeclared
      refine hfree (h.reserves _ (mem_append_left _ ?_))
      rw [← heq]
      exact mem_map_of_mem hmem
    have hcons : declared ∈ ((t.add (new_adapter node t)).using [(new_adapter node t).name]).used ↔ declared ∈ t.used :=
      mem_cons.trans (or_iff_right hne)
    rw [hcons, h.taken other declared hdeclared, hlast]
    by_cases hsame : endpoint.2.node = other
    · subst hsame
      rw [implicit_at_append, if_pos ⟨hadapter, rfl⟩, take_of_length_le hall,
        take_of_length_le (hall.trans (Nat.le_succ _))]
    · rw [implicit_at_append, if_neg fun heq => hsame heq.2, Nat.add_zero]
  · intro other adapter hmem
    have hby : ((t.add (new_adapter node t)).using [(new_adapter node t).name]).by_owner other =
        (t.add (new_adapter node t)).by_owner other := rfl
    rw [hby, hsplit, drop_append] at hmem
    rcases mem_append.mp hmem with hold | hnew
    · exact mem_cons_of_mem _ (h.used_new other adapter hold)
    · have hin := mem_of_mem_drop hnew
      by_cases hsame : node.name = other
      · rw [if_pos hsame, mem_singleton] at hin
        rw [hin]
        exact mem_cons_self
      · rw [if_neg hsame] at hin
        exact absurd hin not_mem_nil
  · intro other hother
    have hnames : adapter_names (t.add (new_adapter node t)).adapters =
        adapter_names t.adapters ++ [(new_adapter node t).name] := map_append
    have hsame : adapter_names ((t.add (new_adapter node t)).using [(new_adapter node t).name]).adapters =
        adapter_names (t.add (new_adapter node t)).adapters := rfl
    rw [hsame, hnames]
    rcases mem_cons.mp hother with rfl | hold
    · exact mem_append_right _ (mem_singleton_self _)
    · exact mem_append_left _ (h.used_known other hold)

end

end Fair

/-! ## The run -/

section Run

variable {topology : Topology} {adapters : List AdapterDraft} {endpoints before rest : List (String × LinkEndpoint)}
  {endpoint : String × LinkEndpoint} {t : AdapterTable}

/-- No adapter is used twice in the rest of a run, and its endpoints given only as a node
are resolved to adapters that no link names. -/
structure RunsApart (topology : Topology) (endpoints rest : List (String × LinkEndpoint)) (t : AdapterTable) : Prop where
  once : ∀ adapter, resolve_endpoints topology.resources rest t ≠ .error (.adapter_used_twice adapter)
  apart : ∀ part endpoint after, rest = part ++ endpoint :: after → endpoint.2.adapter = none →
    ∀ names name t', resolve_endpoints topology.resources (part ++ [endpoint]) t = .ok (names ++ [name], t') →
      name ∉ named_adapters endpoints

/-- What the topology says of the endpoints behind `before`. -/
def RoomBehind (topology : Topology) (adapters : List AdapterDraft)
    (endpoints before rest : List (String × LinkEndpoint)) : Prop :=
  ∀ part endpoint after, rest = part ++ endpoint :: after → endpoint.2.adapter = none →
    Reached topology adapters endpoints (before ++ part ++ [endpoint]) →
    ∀ name ∈ declared_names adapters endpoint.2.node, name ∈ named_adapters after →
      implicit_at (before ++ part) endpoint.2.node < unnamed_before adapters endpoints endpoint.2.node name

variable {name : String} {t' : AdapterTable}

theorem resolve_endpoints_cons
    (h : resolve_endpoint topology.resources endpoint.1 endpoint.2 t = .ok (name, t'))
    (rest : List (String × LinkEndpoint)) :
    resolve_endpoints topology.resources (endpoint :: rest) t =
      (resolve_endpoints topology.resources rest t').map fun result => (name :: result.1, result.2) := by
  rw [resolve_endpoints, h]
  simp only [bind, Except.bind]
  cases resolve_endpoints topology.resources rest t' <;> rfl

theorem runs_apart_nil : RunsApart topology endpoints [] t where
  once adapter h := by cases h
  apart part endpoint after h := by
    cases part <;> cases h

theorem resolve_endpoints_length {result : List String × AdapterTable}
    (h : resolve_endpoints topology.resources rest t = .ok result) : result.1.length = rest.length := by
  induction rest generalizing t result with
  | nil =>
    rw [← Except.ok.inj h]
    rfl
  | cons endpoint rest ih =>
    rw [resolve_endpoints] at h
    obtain ⟨first, -, h⟩ := Except.bind_ok_iff.mp h
    obtain ⟨later, hlater, h⟩ := Except.bind_ok_iff.mp h
    rw [← Except.ok.inj h, length_cons, length_cons, ih hlater]

/-- A run that stops for another reason. -/
theorem runs_apart_of_error {e : ResourceError}
    (h : resolve_endpoint topology.resources endpoint.1 endpoint.2 t = .error e)
    (he : ∀ adapter, e ≠ .adapter_used_twice adapter) : RunsApart topology endpoints (endpoint :: rest) t := by
  have hstops : ∀ more, resolve_endpoints topology.resources (endpoint :: more) t = .error e := by
    intro more
    rw [resolve_endpoints, h]
    rfl
  refine ⟨fun adapter htwice => ?_, fun part other after hsplit _ names name t' hrun => ?_⟩
  · rw [hstops rest] at htwice
    exact he adapter (Except.error.inj htwice)
  · cases part with
    | nil =>
      obtain ⟨rfl, -⟩ := List.cons.inj hsplit
      rw [nil_append, hstops []] at hrun
      cases hrun
    | cons first part =>
      obtain ⟨rfl, -⟩ := List.cons.inj hsplit
      rw [cons_append, hstops] at hrun
      cases hrun

/-- One step, and then the rest. -/
theorem runs_apart_cons_iff
    (h : resolve_endpoint topology.resources endpoint.1 endpoint.2 t = .ok (name, t')) :
    RunsApart topology endpoints (endpoint :: rest) t ↔
      (endpoint.2.adapter = none → name ∉ named_adapters endpoints) ∧ RunsApart topology endpoints rest t' := by
  have hrun := resolve_endpoints_cons h
  constructor
  · intro hapart
    refine ⟨fun hadapter => hapart.apart [] endpoint rest rfl hadapter [] name t' ?_, fun adapter htwice => ?_, ?_⟩
    · rw [nil_append, hrun]
      rfl
    · refine hapart.once adapter ?_
      rw [hrun, htwice]
      rfl
    · intro part other after hsplit hadapter names last t'' hpart
      refine hapart.apart (endpoint :: part) other after (by rw [hsplit]; rfl) hadapter (name :: names) last t'' ?_
      rw [cons_append, hrun, hpart]
      rfl
  · rintro ⟨hfirst, hrest⟩
    refine ⟨fun adapter htwice => ?_, fun part other after hsplit hadapter names last t'' hpart => ?_⟩
    · rw [hrun] at htwice
      cases hresult : resolve_endpoints topology.resources rest t' with
      | error e =>
        rw [hresult] at htwice
        exact hrest.once adapter (hresult.trans (congrArg _ (Except.error.inj htwice)))
      | ok result =>
        rw [hresult] at htwice
        cases htwice
    · cases part with
      | nil =>
        obtain ⟨rfl, -⟩ := List.cons.inj hsplit
        rw [nil_append, hrun] at hpart
        have hlist : [] ++ [name] = names ++ [last] := congrArg Prod.fst (Except.ok.inj hpart)
        have hlast := append_inj_right' hlist rfl
        rw [← (List.cons.inj hlast).1]
        exact hfirst hadapter
      | cons first part =>
        obtain ⟨rfl, hrestsplit⟩ := List.cons.inj hsplit
        rw [cons_append, hrun] at hpart
        cases hresult : resolve_endpoints topology.resources (part ++ [other]) t' with
        | error e =>
          rw [hresult] at hpart
          cases hpart
        | ok result =>
          rw [hresult] at hpart
          have heq := Except.ok.inj hpart
          have hnames : name :: result.1 = names ++ [last] := congrArg Prod.fst heq
          cases names with
          | nil =>
            -- the run of `part ++ [other]` returns a name for each endpoint
            have hempty : result.1 = [] := (List.cons.inj hnames).2
            have hlength := resolve_endpoints_length hresult
            rw [hempty, length_append] at hlength
            cases hlength
          | cons _ names =>
            obtain ⟨rfl, hresultnames⟩ := List.cons.inj hnames
            refine hrest.apart part other after hrestsplit hadapter names last result.2 ?_
            have hpair : result = (names ++ [last], result.2) := Prod.ext hresultnames rfl
            rw [hresult]
            exact congrArg Except.ok hpair

theorem room_behind_cons_iff : RoomBehind topology adapters endpoints before (endpoint :: rest) ↔
      (endpoint.2.adapter = none → Reached topology adapters endpoints (before ++ [endpoint]) →
        ∀ name ∈ declared_names adapters endpoint.2.node, name ∈ named_adapters rest →
          implicit_at before endpoint.2.node < unnamed_before adapters endpoints endpoint.2.node name) ∧
      RoomBehind topology adapters endpoints (before ++ [endpoint]) rest := by
  have hregroup : ∀ part, before ++ endpoint :: part = before ++ [endpoint] ++ part :=
    fun part => append_cons before endpoint part
  constructor
  · intro hroom
    refine ⟨fun hadapter hreached name hname hlater => ?_, fun part other after hsplit hadapter hreached => ?_⟩
    · have hfirst := hroom [] endpoint rest rfl hadapter
      rw [append_nil] at hfirst
      exact hfirst hreached name hname hlater
    · have hlater := hroom (endpoint :: part) other after (by rw [hsplit]; rfl) hadapter
      rw [hregroup part] at hlater
      exact hlater hreached
  · rintro ⟨hfirst, hlater⟩ part other after hsplit hadapter
    cases part with
    | nil =>
      obtain ⟨rfl, rfl⟩ := List.cons.inj hsplit
      rw [append_nil]
      exact hfirst hadapter
    | cons first part =>
      obtain ⟨rfl, hrest⟩ := List.cons.inj hsplit
      rw [hregroup part]
      exact hlater part other after hrest hadapter

/-- Where the resolution stops nothing is asked of what comes later. -/
theorem room_behind_of_stops (h : Stops topology adapters endpoints before endpoint) :
    RoomBehind topology adapters endpoints before (endpoint :: rest) := by
  refine room_behind_cons_iff.mpr ⟨fun _ hreached => ?_, fun part other after _ _ hreached => ?_⟩
  · exact absurd h (hreached before endpoint [] rfl)
  · refine absurd h (hreached before endpoint (part ++ [other]) ?_)
    simp only [append_assoc, cons_append, nil_append]

theorem Reached.concat (h : Reached topology adapters endpoints before)
    (hgoes : ¬ Stops topology adapters endpoints before endpoint) :
    Reached topology adapters endpoints (before ++ [endpoint]) := by
  intro first other after hsplit
  rcases eq_nil_or_concat after with rfl | ⟨after, last, rfl⟩
  · obtain ⟨rfl, hlast⟩ := append_inj' hsplit rfl
    rw [← (List.cons.inj hlast).1]
    exact hgoes
  · have hregroup : before ++ [endpoint] = (first ++ other :: after) ++ [last] := by
      rw [hsplit, append_assoc, concat_eq_append, cons_append]
    exact h first other after (append_inj' hregroup rfl).1

/-- The error of an endpoint where the resolution stops. -/
theorem Fair.stops_error (h : Fair topology adapters endpoints before t) (hnodup : (adapter_names adapters).Nodup)
    (hbefore : ∀ name ∈ named_adapters before, name ∈ named_adapters endpoints)
    (hstops : Stops topology adapters endpoints before endpoint) :
    ∃ e, resolve_endpoint topology.resources endpoint.1 endpoint.2 t = .error e ∧
      ∀ adapter, e ≠ .adapter_used_twice adapter := by
  cases hhost : endpoint_host topology.resources endpoint.1 endpoint.2.node with
  | error e =>
    refine ⟨e, by rw [resolve_endpoint, hhost]; rfl, ?_⟩
    rintro adapter rfl
    unfold endpoint_host at hhost
    cases hnode : node_named topology.resources endpoint.2.node with
    | none =>
      simp only [hnode] at hhost
      cases hhost
    | some node =>
      simp only [hnode] at hhost
      by_cases hkind : node.kind = .host ∨ node.kind = .switch
      · rw [if_pos hkind] at hhost
        cases hhost
      · rw [if_neg hkind] at hhost
        cases hhost
  | ok node =>
    obtain ⟨hadapter, htaken, other, hother, hreserved⟩ := hstops.resolve_left fun hno => hno ⟨node, hhost⟩
    have hnode := (endpoint_host_ok hhost).1
    have heq : node = other := Option.some.inj (hnode.symm.trans hother)
    rw [← heq] at hreserved
    have hnone := (h.all_taken_iff hnodup hbefore _).mp htaken
    refine ⟨.generated_name_in_use (new_adapter node t).name, ?_, fun adapter htwice => by cases htwice⟩
    rw [h.create_step hadapter hhost hnone, if_pos ((h.new_reserved_iff hnode).mpr hreserved)]

/-- No two endpoints name one adapter, and each names one that its node declares. -/
structure NamesDeclared (adapters : List AdapterDraft) (endpoints : List (String × LinkEndpoint)) : Prop where
  once : (named_adapters endpoints).Nodup
  declared : ∀ endpoint ∈ endpoints, ∀ name ∈ endpoint.2.adapter, name ∈ declared_names adapters endpoint.2.node

/-- The induction is on the endpoints still to come, and `Fair` carries the table along. -/
theorem Fair.runs_apart_iff (h : Fair topology adapters endpoints before t) (hnodup : (adapter_names adapters).Nodup)
    (hnames : NamesDeclared adapters endpoints) (hreached : Reached topology adapters endpoints before)
    (hsplit : endpoints = before ++ rest) :
    RunsApart topology endpoints rest t ↔ RoomBehind topology adapters endpoints before rest := by
  induction rest generalizing before t with
  | nil =>
    refine iff_of_true runs_apart_nil fun part endpoint after hnil => ?_
    cases part <;> cases hnil
  | cons endpoint rest ih =>
    have hparts : named_adapters endpoints = named_adapters before ++ named_adapters (endpoint :: rest) := by
      rw [hsplit, named_adapters_append]
    have hbefore : ∀ name ∈ named_adapters before, name ∈ named_adapters endpoints := by
      intro name hname
      rw [hparts]
      exact mem_append_left _ hname
    by_cases hstops : Stops topology adapters endpoints before endpoint
    · obtain ⟨e, herror, hother⟩ := h.stops_error hnodup hbefore hstops
      exact iff_of_true (runs_apart_of_error herror hother) (room_behind_of_stops hstops)
    have hafter := hreached.concat hstops
    have hnext : endpoints = before ++ [endpoint] ++ rest := by rw [hsplit, append_cons]
    obtain ⟨node, hhost⟩ := not_not.mp (not_or.mp hstops).1
    have honce := hnames.once
    rw [hparts] at honce
    cases hadapter : endpoint.2.adapter with
    | some name =>
      have hhead : named_adapters (endpoint :: rest) = name :: named_adapters rest := by
        rw [named_adapters, filterMap_cons, hadapter]
        rfl
      have hnew : name ∉ named_adapters before := fun hmem =>
        (nodup_append.mp honce).2.2 name hmem name (by rw [hhead]; exact mem_cons_self) rfl
      have hin : name ∈ named_adapters endpoints := by
        rw [hparts, hhead]
        exact mem_append_right _ mem_cons_self
      have hdeclared : name ∈ declared_names adapters endpoint.2.node := by
        refine hnames.declared endpoint ?_ name hadapter
        rw [hsplit]
        exact mem_append_right _ mem_cons_self
      obtain ⟨hstep, hfair⟩ := h.named_step hnodup hadapter ⟨node, hhost⟩ hdeclared hnew hin
      have hexplicit : endpoint.2.adapter ≠ none := by
        rw [hadapter]
        exact Option.some_ne_none name
      rw [runs_apart_cons_iff hstep, room_behind_cons_iff, ih hfair hafter hnext]
      exact and_congr_left' (iff_of_true (fun hnone => absurd hnone hexplicit) fun hnone => absurd hnone hexplicit)
    | none =>
      have htail : named_adapters (endpoint :: rest) = named_adapters rest := by
        rw [named_adapters, filterMap_cons, hadapter]
        rfl
      rw [htail] at hparts honce
      -- an adapter that is still to be named is free
      have hwaiting : ∀ name ∈ declared_names adapters endpoint.2.node, name ∈ named_adapters rest →
          name ∉ t.used ∧ nowhere_named endpoints name = false := by
        intro name hname hlater
        have hin : name ∈ named_adapters endpoints := by
          rw [hparts]
          exact mem_append_right _ hlater
        refine ⟨?_, decide_eq_false (not_not_intro hin)⟩
        rw [h.taken _ name hname]
        rintro (hold | htake)
        · exact (nodup_append.mp honce).2.2 name hold name hlater rfl
        · exact of_decide_eq_true (mem_filter.mp (mem_of_mem_take htake)).2 hin
      cases hfirst : (declared_names adapters endpoint.2.node).find? fun other => decide (other ∉ t.used) with
      | some name =>
        have hstep := h.reuse_step hadapter hhost hfirst
        have hname := mem_of_find?_eq_some hfirst
        by_cases hnamed : name ∈ named_adapters endpoints
        · -- it takes an adapter that a later endpoint names
          have hunused : name ∉ t.used :=
            of_decide_eq_true (find?_some (p := fun other => decide (other ∉ t.used)) hfirst)
          have hlater : name ∈ named_adapters rest := by
            rw [hparts] at hnamed
            refine (mem_append.mp hnamed).resolve_left fun hold => hunused ?_
            exact (h.taken _ name hname).mpr (Or.inl hold)
          have hfew := (h.turn hbefore endpoint.2.node).overtaken (declared_names_nodup hnodup _) hfirst
          refine iff_of_false (fun hapart => ?_) fun hroom => ?_
          · exact ((runs_apart_cons_iff hstep).mp hapart).1 hadapter hnamed
          · have hlt := (room_behind_cons_iff.mp hroom).1 hadapter hafter name hname hlater
            rw [unnamed_before] at hlt
            omega
        · have hfair := h.reuse_fair hnodup hbefore hadapter hfirst hnamed
          obtain ⟨-, -, hbehind⟩ := (h.turn hbefore endpoint.2.node).next (declared_names_nodup hnodup _) hfirst
            (decide_eq_true hnamed)
          rw [runs_apart_cons_iff hstep, room_behind_cons_iff, ih hfair hafter hnext]
          refine and_congr_left' (iff_of_true (fun _ => hnamed) fun _ _ other hother hlater => ?_)
          obtain ⟨hunused, hreserved⟩ := hwaiting other hother hlater
          exact hbehind other hother (decide_eq_true hunused) hreserved
      | none =>
        have hnode := (endpoint_host_ok hhost).1
        have htaken := (h.all_taken_iff hnodup hbefore _).mpr hfirst
        have hfree : (new_adapter node t).name ∉ t.reserved := by
          rw [h.new_reserved_iff hnode]
          exact fun hmem => hstops (Or.inr ⟨hadapter, htaken, node, hnode, hmem⟩)
        have hstep := h.create_step hadapter hhost hfirst
        rw [if_neg hfree] at hstep
        have hfair := h.create_fair hadapter hnode htaken.1 hfree
        rw [runs_apart_cons_iff hstep, room_behind_cons_iff, ih hfair hafter hnext]
        refine and_congr_left' (iff_of_true (fun _ hmem => hfree ?_) fun _ _ other hother hlater => ?_)
        · obtain ⟨named, hnamedmem, hnamed⟩ := mem_filterMap.mp hmem
          obtain ⟨adapter, hmine, hname, -⟩ := mem_declared_names.mp (hnames.declared named hnamedmem _ hnamed)
          refine h.reserves _ (mem_append_left _ ?_)
          rw [← hname]
          exact mem_map_of_mem hmine
        · have hall := find?_eq_none.mp hfirst other hother
          rw [decide_eq_true_eq] at hall
          exact absurd (hwaiting other hother hlater).1 hall

end Run

/-! ## Links -/

/-- When endpoints given only as a node keep clear of the adapters that links name. -/
theorem implicit_endpoints_apart_iff {topology : Topology} {adapters : List AdapterDraft}
    (hdeclared : declare_adapters (authored_names topology) topology.resources = .ok adapters)
    (hnames : NamesDeclared adapters (link_endpoints topology.links)) :
    ((∀ adapter, resolve_links topology.resources topology.links (declared_table topology adapters) ≠
        .error (.adapter_used_twice adapter)) ∧
      ImplicitApart topology adapters (link_endpoints topology.links)) ↔
    RoomForImplicit topology adapters (link_endpoints topology.links) := by
  have hnodup : (adapter_names adapters).Nodup := (declare_adapters_iff.mp hdeclared).2.2.1
  have hstart : Reached topology adapters (link_endpoints topology.links) [] := by
    intro before endpoint after hnil
    cases before <;> cases hnil
  have hrun : RunsApart topology (link_endpoints topology.links) (link_endpoints topology.links)
        (declared_table topology adapters) ↔ RoomForImplicit topology adapters (link_endpoints topology.links) :=
    (fair_start hdeclared).runs_apart_iff hnodup hnames hstart rfl
  rw [← hrun]
  have herror : ∀ adapter, resolve_links topology.resources topology.links (declared_table topology adapters) =
      .error (.adapter_used_twice adapter) ↔
      resolve_endpoints topology.resources (link_endpoints topology.links) (declared_table topology adapters) =
        .error (.adapter_used_twice adapter) := by
    intro adapter
    rw [resolve_links_eq]
    cases resolve_endpoints topology.resources (link_endpoints topology.links) (declared_table topology adapters) with
    | error e =>
      exact ⟨fun h => congrArg Except.error (Except.error.inj h), fun h => congrArg Except.error (Except.error.inj h)⟩
    | ok result => exact iff_of_false (fun h => by cases h) fun h => by cases h
  constructor
  · rintro ⟨honce, hapart⟩
    exact ⟨fun adapter htwice => honce adapter ((herror adapter).mpr htwice), hapart⟩
  · intro h
    exact ⟨fun adapter htwice => h.once adapter ((herror adapter).mp htwice), h.apart⟩

/-- One port of a switch, and two links to it: the second names the port. -/
def overtaken : Topology :=
  { two_hosts with
    resources :=
      [{ name := "s1", detail := .switch none .secure .kernel [] [.openflow_13] [{}] },
        { name := "h1", detail := .host [{}] none },
        { name := "h2", detail := .host [{}] none }]
    links :=
      [{ name := "l1", endpoints := ({ node := "h1" }, { node := "s1" }) },
        { name := "l2", endpoints := ({ node := "h2" }, { node := "s1", adapter := "s1-eth1" }) }] }

theorem overtaken_names_declared :
    NamesDeclared (overtaken.resources.flatMap declared_adapters) (link_endpoints overtaken.links) := by
  refine ⟨by decide, ?_⟩
  decide

theorem overtaken_declared : declare_adapters (authored_names overtaken) overtaken.resources =
    .ok (overtaken.resources.flatMap declared_adapters) :=
  declare_adapters_iff.mpr ⟨by decide, rfl, by decide, by decide⟩

/-- The first link takes the port that the second one names. -/
theorem overtaken_refused :
    NamesDeclared (overtaken.resources.flatMap declared_adapters) (link_endpoints overtaken.links) ∧
    build_resources (fun _ => 1) overtaken = .error (.adapter_used_twice "s1-eth1") ∧
    resolve_links overtaken.resources overtaken.links
      (declared_table overtaken (overtaken.resources.flatMap declared_adapters)) =
        .error (.adapter_used_twice "s1-eth1") :=
  ⟨overtaken_names_declared, rfl, rfl⟩

theorem implicit_endpoints_apart_iff_overtaken :
    ¬ RoomForImplicit overtaken (overtaken.resources.flatMap declared_adapters) (link_endpoints overtaken.links) := by
  intro hroom
  have happart := (implicit_endpoints_apart_iff overtaken_declared overtaken_names_declared).mpr hroom
  exact happart.1 "s1-eth1" rfl

end MininetAi
