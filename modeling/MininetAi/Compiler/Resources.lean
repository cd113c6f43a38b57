/-
Planned resources (`_build_resources` in `mininet_ai/compiler/compiler.py` and what it
calls): the adapters of hosts and switches, the endpoints of links, addresses and DPIDs.

An address is the number of its 32 bits, and `"auto"` and `"none"` are settings of their
own. Adapters are values: what a later allocator writes into one replaces it. `sha256` is a
parameter, and nothing is assumed of it. An error keeps what its message is formatted from.
-/
import Mathlib.Data.Nat.ModEq
import Mathlib.Data.Prod.Lex
import MininetAi.Lib.Keyed
import MininetAi.Lib.Results
import MininetAi.Specification.Models

set_option autoImplicit false

namespace MininetAi

/-! ## Topologies -/

inductive ControllerType where
  | builtin
  | remote
  deriving DecidableEq

inductive ControllerProtocol where
  | tcp
  | ssl
  deriving DecidableEq

inductive OpenFlowProtocol where
  | openflow_10
  | openflow_11
  | openflow_12
  | openflow_13
  | openflow_14
  | openflow_15
  deriving DecidableEq

inductive SwitchFailMode where
  | standalone
  | secure
  deriving DecidableEq

inductive SwitchDatapath where
  | kernel
  | userspace
  deriving DecidableEq

/-- `SwitchPort`: no number is `"auto"`. -/
structure SwitchPort where
  name : Option String := none
  number : Option ℕ := none
  mtu : ℕ := 1500

structure IPv4Interface where
  ip : ℕ
  prefixlen : ℕ
  deriving DecidableEq

/-- `IPv4Interface | Literal["auto", "none"]`. -/
inductive IPv4Setting where
  | auto
  | unset
  | fixed (interface : IPv4Interface)
  deriving DecidableEq

structure HostInterface where
  name : Option String := none
  ipv4 : IPv4Setting := .auto
  mac : String := "auto"
  mtu : ℕ := 1500

/-- What the kinds of resources have besides. -/
inductive ResourceDetail where
  | network
  | region
  | flow
  | controller (type : ControllerType) (address : Option String) (protocol : ControllerProtocol) (port : ℕ)
  | controller_domain (controllers : List String)
  | switch (dpid : Option String) (fail_mode : SwitchFailMode) (datapath : SwitchDatapath)
      (controllers : List String) (protocols : List OpenFlowProtocol) (ports : List SwitchPort)
  | host (interfaces : List HostInterface) (default_route : Option String)

structure TopologyResource where
  name : String
  labels : Dict String String := ∅
  parent : Option String := none
  attributes : Dict String JsonValue := ∅
  detail : ResourceDetail

/-- `resource.kind`. -/
def TopologyResource.kind (r : TopologyResource) : ResourceKind :=
  match r.detail with
  | .network => .network
  | .region => .region
  | .flow => .flow
  | .controller _ _ _ _ => .controller
  | .controller_domain _ => .controller_domain
  | .switch _ _ _ _ _ _ => .switch
  | .host _ _ => .host

structure LinkEndpoint where
  node : String
  adapter : Option String := none

/-- `Link`. -/
structure TopologyLink where
  name : String
  endpoints : LinkEndpoint × LinkEndpoint
  labels : Dict String String := ∅
  attributes : Dict String JsonValue := ∅
  bandwidth : Option ℚ := none
  delay : Option String := none
  jitter : Option String := none
  loss : ℚ := 0
  max_queue_size : Option ℕ := none

structure IPv4Network where
  network_address : ℕ
  prefixlen : ℕ

structure Topology where
  subnet : IPv4Network
  mac_prefix : String
  resources : List TopologyResource
  links : List TopologyLink := []

/-! ## Plans -/

inductive AdapterRole where
  | host_interface
  | switch_port
  deriving DecidableEq

/-- What the kinds of planned resources have besides. -/
inductive PlannedDetail where
  | plain
  | controller (type : ControllerType) (address : Option String) (protocol : ControllerProtocol) (port : ℕ)
  | controller_domain (controllers : List String)
  | switch (dpid : String) (fail_mode : SwitchFailMode) (datapath : SwitchDatapath)
      (controllers : List String) (protocols : List OpenFlowProtocol)
  | host (default_route : Option String)
  | port (role : AdapterRole) (number : ℕ) (ipv4 mac : Option String) (mtu : ℕ)
  | link (bandwidth : Option ℚ) (delay jitter : Option String) (loss : ℚ) (max_queue_size : Option ℕ)

/-- A planned resource with all its fields. -/
structure ResourcePlan extends PlannedResource where
  attributes : Dict String JsonValue := ∅
  detail : PlannedDetail

inductive ResourceError where
  | duplicate_resource (name : String)
  | unknown_parent (resource parent : String)
  | parent_cycle (resource : String)
  | unknown_controller (resource controller : String)
  | not_a_controller (resource controller : String)
  | duplicate_adapter (name : String)
  | duplicate_port_numbers (switch : String)
  | generated_name_in_use (adapter : String)
  | unknown_endpoint_node (link node : String)
  | not_host_or_switch (link node : String)
  | unknown_adapter (link adapter : String)
  | foreign_adapter (adapter node : String)
  | adapter_used_twice (adapter : String)
  | address_outside (adapter : String) (address : ℕ)
  | address_reserved (adapter : String) (address : ℕ)
  | address_shared (first second : String) (address : ℕ)
  | addresses_exhausted
  | mac_shared (first second mac : String)
  | macs_exhausted
  | dpid_shared (first second : String) (dpid : ℕ)
  deriving DecidableEq

/-! ## The graph of the resources -/

/-- `nodes.get(name)`. -/
def node_named (resources : List TopologyResource) (name : String) : Option TopologyResource :=
  Keyed.find TopologyResource.name resources name

/-- `parents[name]`. -/
def parent_of (resources : List TopologyResource) (name : String) : Option String :=
  (node_named resources name).bind TopologyResource.parent

/-- The walk from a resource to its ancestors; a chain is no longer than there are resources. -/
def climb (resources : List TopologyResource) : ℕ → List String → String → Except ResourceError Unit
  | 0, _, _ => .ok ()
  | fuel + 1, chain, current => match parent_of resources current with
    | none => .ok ()
    | some parent =>
      if current ∈ chain then .error (.parent_cycle current)
      else climb resources fuel (current :: chain) parent

/-- `resource.controllers`, if it has that field. -/
def controllers_of : ResourceDetail → List String
  | .controller_domain controllers => controllers
  | .switch _ _ _ controllers _ _ => controllers
  | .network | .region | .flow | .controller _ _ _ _ | .host _ _ => []

/-- The parent of a resource is there. -/
def check_parent (resources : List TopologyResource) (resource : TopologyResource) : Except ResourceError Unit :=
  match resource.parent with
  | none => .ok ()
  | some parent => (node_named resources parent).elim (.error (.unknown_parent resource.name parent)) fun _ => .ok ()

/-- A controller of a resource is there, and is one. -/
def check_controller (resources : List TopologyResource) (resource controller : String) :
    Except ResourceError Unit :=
  match node_named resources controller with
  | none => .error (.unknown_controller resource controller)
  | some node => if node.kind = .controller then .ok () else .error (.not_a_controller resource controller)

def validate_resource_graph (topology : Topology) : Except ResourceError Unit := do
  Except.check_all (check_parent topology.resources) topology.resources
  Except.check_all (fun resource : TopologyResource =>
    climb topology.resources (topology.resources.length + 1) [] resource.name) topology.resources
  Except.refuse_repeats .duplicate_resource (topology.resources.map TopologyResource.name)
    (topology.links.map TopologyLink.name)
  Except.check_all (fun resource : TopologyResource =>
    Except.check_all (check_controller topology.resources resource.name) (controllers_of resource.detail))
    topology.resources

/-! ## Adapters -/

structure AdapterDraft where
  name : String
  owner : String
  role : AdapterRole
  number : ℕ
  mtu : ℕ
  ipv4_setting : Option IPv4Setting := none
  mac_setting : Option String := none
  ipv4 : Option String := none
  mac : Option String := none

/-- `f"{name}-eth{number}"`. -/
def adapter_name (owner : String) (number : ℕ) : String := owner ++ "-eth" ++ toString number

/-- The interfaces of a host. -/
def host_drafts (owner : String) (interfaces : List HostInterface) : List AdapterDraft :=
  interfaces.zipIdx.map fun entry =>
    { name := entry.1.name.getD (adapter_name owner entry.2)
      owner := owner
      role := .host_interface
      number := entry.2
      mtu := entry.1.mtu
      ipv4_setting := some entry.1.ipv4
      mac_setting := some entry.1.mac }

/-- `while number in used: number += 1`. -/
def first_free (used : List ℕ) (number : ℕ) : ℕ :=
  first_outside (fun n => decide (n ∈ used)) Nat.succ used.length number

/-- A port of a switch. -/
def port_draft (owner : String) (port : SwitchPort) (number : ℕ) : AdapterDraft where
  name := port.name.getD (adapter_name owner number)
  owner := owner
  role := .switch_port
  number := number
  mtu := port.mtu

/-- The ports of a switch. -/
def switch_drafts (owner : String) : List ℕ → ℕ → List SwitchPort → List AdapterDraft
  | _, _, [] => []
  | used, next_number, port :: ports => match port.number with
    | some number => port_draft owner port number :: switch_drafts owner used next_number ports
    | none =>
      let number := first_free used next_number
      port_draft owner port number :: switch_drafts owner (number :: used) (number + 1) ports

/-- The numbers that are given. -/
def explicit_numbers (ports : List SwitchPort) : List ℕ := ports.filterMap SwitchPort.number

/-- The adapters a resource declares. -/
def declared_adapters (resource : TopologyResource) : List AdapterDraft :=
  match resource.detail with
  | .host interfaces _ => host_drafts resource.name interfaces
  | .switch _ _ _ _ _ ports => switch_drafts resource.name (explicit_numbers ports) 1 ports
  | .network | .region | .flow | .controller _ _ _ _ | .controller_domain _ => []

/-- A switch gives every number once. -/
def check_port_numbers (resource : TopologyResource) : Except ResourceError Unit :=
  match resource.detail with
  | .switch _ _ _ _ _ ports =>
    if (explicit_numbers ports).Nodup then .ok () else .error (.duplicate_port_numbers resource.name)
  | .network | .region | .flow | .controller _ _ _ _ | .controller_domain _ | .host _ _ => .ok ()

/-- `_declare_adapters`: the adapters in the order they are registered, by their names. -/
def declare_adapters : List String → List TopologyResource → Except ResourceError (List AdapterDraft)
  | _, [] => .ok []
  | reserved, resource :: resources => do
      check_port_numbers resource
      let names := (declared_adapters resource).map AdapterDraft.name
      Except.refuse_repeats .duplicate_adapter reserved names
      let adapters ← declare_adapters (names ++ reserved) resources
      pure (declared_adapters resource ++ adapters)

/-! ## Links -/

/-- `adapters` with `by_owner`, `reserved_names` and `used_adapters`. -/
structure AdapterTable where
  adapters : List AdapterDraft
  reserved : List String
  used : List String := []

namespace AdapterTable

/-- `adapters.get(name)`. -/
def named (table : AdapterTable) (name : String) : Option AdapterDraft :=
  Keyed.find AdapterDraft.name table.adapters name

/-- `by_owner[owner]`. -/
def by_owner (table : AdapterTable) (owner : String) : List AdapterDraft :=
  table.adapters.filter fun adapter => adapter.owner = owner

end AdapterTable

/-- The adapter `_create_automatic_adapter` makes. -/
def automatic_adapter (node : TopologyResource) (numbers : List ℕ) : AdapterDraft :=
  let number := first_free numbers (if node.kind = .host then 0 else 1)
  { name := adapter_name node.name number
    owner := node.name
    role := if node.kind = .host then .host_interface else .switch_port
    number := number
    mtu := 1500
    ipv4_setting := if node.kind = .host then some .auto else none
    mac_setting := if node.kind = .host then some "auto" else none }

def create_automatic_adapter (node : TopologyResource) (table : AdapterTable) :
    Except ResourceError (AdapterDraft × AdapterTable) :=
  let adapter := automatic_adapter node ((table.by_owner node.name).map AdapterDraft.number)
  if adapter.name ∈ table.reserved then .error (.generated_name_in_use adapter.name)
  else .ok (adapter,
    { table with adapters := table.adapters ++ [adapter], reserved := adapter.name :: table.reserved })

/-- The adapter that an endpoint names. -/
def explicit_adapter (link node adapter : String) (table : AdapterTable) : Except ResourceError AdapterDraft :=
  match table.named adapter with
  | none => .error (.unknown_adapter link adapter)
  | some found => if found.owner = node then .ok found else .error (.foreign_adapter found.name node)

/-- The first adapter of a node that is not used yet, or a new one. -/
def implicit_adapter (node : TopologyResource) (table : AdapterTable) :
    Except ResourceError (AdapterDraft × AdapterTable) :=
  match (table.by_owner node.name).find? fun adapter => adapter.name ∉ table.used with
  | some adapter => .ok (adapter, table)
  | none => create_automatic_adapter node table

/-- The adapter is used from now on. -/
def use_adapter (found : AdapterDraft × AdapterTable) : Except ResourceError (String × AdapterTable) :=
  if found.1.name ∈ found.2.used then .error (.adapter_used_twice found.1.name)
  else .ok (found.1.name, { found.2 with used := found.1.name :: found.2.used })

/-- The host or switch of an endpoint. -/
def endpoint_host (resources : List TopologyResource) (link node : String) :
    Except ResourceError TopologyResource :=
  match node_named resources node with
  | none => .error (.unknown_endpoint_node link node)
  | some found =>
    if found.kind = .host ∨ found.kind = .switch then .ok found else .error (.not_host_or_switch link node)

/-- One endpoint of a link. -/
def resolve_endpoint (resources : List TopologyResource) (link : String) (endpoint : LinkEndpoint)
    (table : AdapterTable) : Except ResourceError (String × AdapterTable) := do
  let node ← endpoint_host resources link endpoint.node
  match endpoint.adapter with
  | some adapter => do
      let found ← explicit_adapter link endpoint.node adapter table
      use_adapter (found, table)
  | none => do
      let found ← implicit_adapter node table
      use_adapter found

/-- The link of two adapters. -/
def planned_link (link : TopologyLink) (endpoints : String × String) : ResourcePlan where
  name := link.name
  kind := .link
  labels := link.labels
  endpoints := some endpoints
  attributes := link.attributes
  detail := .link link.bandwidth link.delay link.jitter link.loss link.max_queue_size

def resolve_links (resources : List TopologyResource) :
    List TopologyLink → AdapterTable → Except ResourceError (List ResourcePlan × AdapterTable)
  | [], table => .ok ([], table)
  | link :: links, table => do
      let first ← resolve_endpoint resources link.name link.endpoints.1 table
      let second ← resolve_endpoint resources link.name link.endpoints.2 first.2
      let rest ← resolve_links resources links second.2
      pure (planned_link link (first.1, second.1) :: rest.1, rest.2)

/-! ## Addresses -/

/-- `subnet.broadcast_address`. -/
def IPv4Network.broadcast_address (n : IPv4Network) : ℕ := n.network_address + 2 ^ (32 - n.prefixlen) - 1

/-- `str(IPv4Address(address))`. -/
def address_text (address : ℕ) : String :=
  String.intercalate "." ([24, 16, 8, 0].map fun shift => toString (address / 2 ^ shift % 256))

/-- An address with its prefix. -/
def interface_text (address prefixlen : ℕ) : String := address_text address ++ "/" ++ toString prefixlen

/-- `used_ips` and `used_macs`: who has a value. -/
abbrev Owners (α : Type) := List (α × String)

def Owners.owner {α : Type} [DecidableEq α] (used : Owners α) (value : α) : Option String :=
  (Keyed.find Prod.fst used value).map Prod.snd

/-- The check of an address that is given. -/
def check_address (subnet : IPv4Network) (used : Owners ℕ) (adapter : String) (address : ℕ) :
    Except ResourceError Unit :=
  if address < subnet.network_address ∨ subnet.broadcast_address < address then
    .error (.address_outside adapter address)
  else if address = subnet.network_address ∨ address = subnet.broadcast_address then
    .error (.address_reserved adapter address)
  else (used.owner address).elim (.ok ()) fun first => .error (.address_shared first adapter address)

/-- The addresses that are given, adapter by adapter. -/
def fix_addresses (subnet : IPv4Network) :
    Owners ℕ → List AdapterDraft → Except ResourceError (List AdapterDraft × Owners ℕ)
  | used, [] => .ok ([], used)
  | used, adapter :: adapters => match adapter.ipv4_setting with
    | some (.fixed setting) => do
        check_address subnet used adapter.name setting.ip
        let rest ← fix_addresses subnet ((setting.ip, adapter.name) :: used) adapters
        pure ({ adapter with ipv4 := some (interface_text setting.ip setting.prefixlen) } :: rest.1, rest.2)
    | some .auto | some .unset | none => do
        let rest ← fix_addresses subnet used adapters
        pure (adapter :: rest.1, rest.2)

/-- `while candidate <= last and IPv4Address(candidate) in used_ips: candidate += 1`. -/
def free_address (last : ℕ) (used : Owners ℕ) (candidate : ℕ) : ℕ :=
  first_outside (fun n => decide (n ≤ last) && (used.owner n).isSome) Nat.succ used.length candidate

/-- The other addresses, from a candidate on. -/
def choose_addresses (subnet : IPv4Network) :
    ℕ → Owners ℕ → List AdapterDraft → Except ResourceError (List AdapterDraft)
  | _, _, [] => .ok []
  | candidate, used, adapter :: adapters =>
    if adapter.ipv4_setting = some .unset ∨ adapter.ipv4.isSome = true then do
      let rest ← choose_addresses subnet candidate used adapters
      pure (adapter :: rest)
    else
      let address := free_address (subnet.broadcast_address - 1) used candidate
      if subnet.broadcast_address - 1 < address then .error .addresses_exhausted
      else do
        let rest ← choose_addresses subnet (address + 1) ((address, adapter.name) :: used) adapters
        pure ({ adapter with ipv4 := some (interface_text address subnet.prefixlen) } :: rest)

/-- The MAC addresses that are given. -/
def fix_macs : Owners String → List AdapterDraft → Except ResourceError (List AdapterDraft × Owners String)
  | used, [] => .ok ([], used)
  | used, adapter :: adapters =>
    let setting := adapter.mac_setting.getD ""
    if setting = "" ∨ setting = "auto" then do
      let rest ← fix_macs used adapters
      pure (adapter :: rest.1, rest.2)
    else match used.owner setting.toLower with
      | some first => .error (.mac_shared first adapter.name setting.toLower)
      | none => do
          let rest ← fix_macs ((setting.toLower, adapter.name) :: used) adapters
          pure ({ adapter with mac := some setting.toLower } :: rest.1, rest.2)

/-- A number in hexadecimal digits, with leading zeros. -/
def hex_text (width value : ℕ) : String :=
  let digits := Nat.toDigits 16 value
  String.ofList (List.replicate (width - digits.length) '0' ++ digits)

/-- The candidate of a suffix of three octets. -/
def mac_text (base : String) (suffix : ℕ) : String :=
  base ++ ":" ++ String.intercalate ":" ([16, 8, 0].map fun shift => hex_text 2 (suffix / 2 ^ shift % 256))

/-- The first suffix in `range(1, 0x1000000)` whose address is not used, or the end of the range. -/
def free_suffix (base : String) (used : Owners String) : ℕ :=
  first_outside (fun n => decide (n < 0x1000000) && (used.owner (mac_text base n)).isSome) Nat.succ
    0xffffff 1

/-- The other MAC addresses. -/
def choose_macs (base : String) : Owners String → List AdapterDraft → Except ResourceError (List AdapterDraft)
  | _, [] => .ok []
  | used, adapter :: adapters =>
    if adapter.mac.isSome = true then do
      let rest ← choose_macs base used adapters
      pure (adapter :: rest)
    else
      let suffix := free_suffix base used
      if 0x1000000 ≤ suffix then .error .macs_exhausted
      else do
        let mac := mac_text base suffix
        let rest ← choose_macs base ((mac, adapter.name) :: used) adapters
        pure ({ adapter with mac := some mac } :: rest)

def host_adapters (adapters : List AdapterDraft) : List AdapterDraft :=
  Keyed.sort AdapterDraft.name (adapters.filter fun adapter => adapter.role = .host_interface)

/-- `_allocate_addresses`: the adapters of hosts, with their addresses. -/
def allocate_addresses (topology : Topology) (adapters : List AdapterDraft) :
    Except ResourceError (List AdapterDraft) := do
  let fixed ← fix_addresses topology.subnet [] (host_adapters adapters)
  let addressed ← choose_addresses topology.subnet (topology.subnet.network_address + 1) fixed.2 fixed.1
  let macs ← fix_macs [] addressed
  choose_macs (Topology.mac_prefix topology) macs.2 macs.1

/-- The drafts after the allocation: those of hosts are written to. -/
def written_drafts (hosts adapters : List AdapterDraft) : List AdapterDraft :=
  adapters.map fun adapter => (Keyed.find AdapterDraft.name hosts adapter.name).getD adapter

/-! ## DPIDs -/

/-- `(1 << 64) - 1`. -/
def dpid_maximum : ℕ := 2 ^ 64 - 1

/-- `int(text, base)`. -/
def digits_value (base : ℕ) (digits : List Char) : ℕ :=
  digits.foldl (fun value c => value * base + (if c.isDigit then c.toNat - 48 else c.toLower.toNat - 87)) 0

/-- The number of a name such as `s12`, when it is a DPID. -/
def named_dpid (name : String) : Option ℕ :=
  match name.toList with
  | 's' :: digits =>
    if digits ≠ [] ∧ digits.all Char.isDigit = true ∧ 0 < digits_value 10 digits ∧
        digits_value 10 digits ≤ dpid_maximum then some (digits_value 10 digits)
    else none
  | _ => none

/-- The DPID a switch has without a search. -/
def fixed_dpid (resource : TopologyResource) : Option ℕ :=
  match resource.detail with
  | .switch (some dpid) _ _ _ _ _ => some (digits_value 16 dpid.toList)
  | .switch none _ _ _ _ _ => named_dpid resource.name
  | .network | .region | .flow | .controller _ _ _ _ | .controller_domain _ | .host _ _ => none

/-- The fixed DPIDs. -/
def reserve_dpids : Owners ℕ → List TopologyResource → Except ResourceError (Owners ℕ)
  | owners, [] => .ok owners
  | owners, switch :: switches => match fixed_dpid switch with
    | none => reserve_dpids owners switches
    | some value => match owners.owner value with
      | some first => .error (.dpid_shared first switch.name value)
      | none => reserve_dpids ((value, switch.name) :: owners) switches

/-- `while value in owners: value = value % maximum + 1`. -/
def free_dpid (owners : Owners ℕ) (value : ℕ) : ℕ :=
  first_outside (fun n => (owners.owner n).isSome) (fun n => n % dpid_maximum + 1) owners.length value

/-- The DPIDs that are searched for from a digest of the name, the first eight octets of `sha256`. -/
def search_dpids (sha256 : String → ℕ) : Owners ℕ → List TopologyResource → Owners ℕ
  | owners, [] => owners
  | owners, switch :: switches =>
    if (fixed_dpid switch).isSome = true then search_dpids sha256 owners switches
    else
      let value := free_dpid owners (if sha256 switch.name = 0 then 1 else sha256 switch.name)
      search_dpids sha256 ((value, switch.name) :: owners) switches

/-- The switches, by name. -/
def sorted_switches (resources : List TopologyResource) : List TopologyResource :=
  Keyed.sort TopologyResource.name (resources.filter fun resource => resource.kind = .switch)

/-- `_allocate_switch_dpids`: who has which DPID. -/
def allocate_switch_dpids (sha256 : String → ℕ) (resources : List TopologyResource) :
    Except ResourceError (Owners ℕ) := do
  let owners ← reserve_dpids [] (sorted_switches resources)
  pure (search_dpids sha256 owners (sorted_switches resources))

/-- `switch_dpids[name]`. -/
def switch_dpid (owners : Owners ℕ) (name : String) : String :=
  hex_text 16 (((Keyed.find Prod.snd owners name).map Prod.fst).getD 0)

/-! ## Resources -/

/-- The fields of a kind of nodes. -/
def planned_detail (owners : Owners ℕ) (name : String) : ResourceDetail → PlannedDetail
  | .network | .region | .flow => .plain
  | .controller type address protocol port => .controller type address protocol port
  | .controller_domain controllers => .controller_domain controllers
  | .switch _ fail_mode datapath controllers protocols _ =>
    .switch (switch_dpid owners name) fail_mode datapath controllers protocols
  | .host _ default_route => .host default_route

def planned_node (owners : Owners ℕ) (resource : TopologyResource) : ResourcePlan where
  name := resource.name
  kind := resource.kind
  labels := resource.labels
  parent := resource.parent
  attributes := resource.attributes
  detail := planned_detail owners resource.name resource.detail

def planned_port (adapter : AdapterDraft) : ResourcePlan where
  name := adapter.name
  kind := .port
  parent := some adapter.owner
  detail := .port adapter.role adapter.number adapter.ipv4 adapter.mac adapter.mtu

/-- `(item.kind.value, item.name)`. -/
def plan_key (plan : ResourcePlan) : String ×ₗ String := toLex (plan.kind.value, plan.name)

def build_resources (sha256 : String → ℕ) (topology : Topology) : Except ResourceError (List ResourcePlan) := do
  let names := topology.resources.map TopologyResource.name
  Except.refuse_repeats .duplicate_resource [] names
  validate_resource_graph topology
  let reserved := names ++ topology.links.map TopologyLink.name
  let adapters ← declare_adapters reserved topology.resources
  let resolved ← resolve_links topology.resources topology.links
    { adapters := adapters, reserved := adapters.map AdapterDraft.name ++ reserved }
  let hosts ← allocate_addresses topology resolved.2.adapters
  let owners ← allocate_switch_dpids sha256 topology.resources
  pure (Keyed.sort plan_key
    (topology.resources.map (planned_node owners) ++
      ((written_drafts hosts resolved.2.adapters).map planned_port ++ resolved.1)))

/-! ## The searches end -/

theorem Owners.mem_of_owner {α : Type} [DecidableEq α] {used : Owners α} {value : α}
    (h : (used.owner value).isSome = true) : value ∈ used.map Prod.fst := by
  rw [Owners.owner, Option.isSome_map] at h
  obtain ⟨entry, hentry⟩ := Option.isSome_iff_exists.mp h
  obtain ⟨hmem, hvalue⟩ := Keyed.find_some hentry
  rw [← hvalue]
  exact List.mem_map_of_mem hmem

/-- The number that is found is not used. -/
theorem first_free_free (used : List ℕ) (number : ℕ) : first_free used number ∉ used := by
  have hfree := @first_outside_free ℕ (fun n => decide (n ∈ used)) Nat.succ used used.length number
    (fun n hn => of_decide_eq_true hn) le_rfl fun _ _ _ _ => succ_iterate_inj
  exact of_decide_eq_false hfree

/-- The address that is found is past the last one, or nobody has it. -/
theorem free_address_free (last : ℕ) (used : Owners ℕ) (candidate : ℕ) :
    last < free_address last used candidate ∨ (used.owner (free_address last used candidate)).isSome = false := by
  have hfree := @first_outside_free ℕ (fun n => decide (n ≤ last) && (used.owner n).isSome) Nat.succ
    (used.map Prod.fst) used.length candidate
    (fun n hn => Owners.mem_of_owner ((Bool.and_eq_true _ _).mp hn).2) (List.length_map _).le
    fun _ _ _ _ => succ_iterate_inj
  rcases Bool.and_eq_false_iff.mp hfree with hpast | hnone
  · exact Or.inl (Nat.lt_of_not_le (of_decide_eq_false hpast))
  · exact Or.inr hnone

/-- The suffix that is found is past the range, or nobody has its address. -/
theorem free_suffix_free (base : String) (used : Owners String) :
    0x1000000 ≤ free_suffix base used ∨
      (used.owner (mac_text base (free_suffix base used))).isSome = false := by
  cases hfree : decide (free_suffix base used < 0x1000000) &&
      (used.owner (mac_text base (free_suffix base used))).isSome with
  | true =>
    -- the last candidate is past the range
    have hlast := @taken_of_first_outside ℕ
      (fun n => decide (n < 0x1000000) && (used.owner (mac_text base n)).isSome) Nat.succ 0xffffff 1 hfree
      0xffffff le_rfl
    have hin := of_decide_eq_true ((Bool.and_eq_true _ _).mp hlast).1
    rw [succ_iterate] at hin
    omega
  | false =>
    rcases Bool.and_eq_false_iff.mp hfree with hpast | hnone
    · exact Or.inl (Nat.le_of_not_lt (of_decide_eq_false hpast))
    · exact Or.inr hnone

theorem dpid_iterate {value : ℕ} (hpos : 0 < value) (hmax : value ≤ dpid_maximum) (i : ℕ) :
    (fun n => n % dpid_maximum + 1)^[i] value = (value - 1 + i) % dpid_maximum + 1 := by
  induction i with
  | zero =>
    have hmod := Nat.mod_eq_of_lt (show value - 1 + 0 < dpid_maximum by omega)
    rw [hmod, Function.iterate_zero, id]
    omega
  | succ i ih => rw [Function.iterate_succ_apply', ih, Nat.mod_add_mod, Nat.add_assoc]

/-- The DPID that is found is free, as long as there is one. -/
theorem free_dpid_free {owners : Owners ℕ} {value : ℕ} (hpos : 0 < value) (hmax : value ≤ dpid_maximum)
    (howners : owners.length < dpid_maximum) : (owners.owner (free_dpid owners value)).isSome = false := by
  refine @first_outside_free ℕ (fun n => (owners.owner n).isSome) (fun n => n % dpid_maximum + 1)
    (owners.map Prod.fst) owners.length value (fun n hn => Owners.mem_of_owner hn) (List.length_map _).le ?_
  intro i j hi hj h
  rw [dpid_iterate hpos hmax, dpid_iterate hpos hmax] at h
  have hmod : i ≡ j [MOD dpid_maximum] := Nat.ModEq.add_left_cancel' (value - 1) (Nat.succ.inj h)
  exact hmod.eq_of_lt_of_lt (by omega) (by omega)

end MininetAi
