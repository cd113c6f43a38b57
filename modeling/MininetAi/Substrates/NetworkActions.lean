/-
Actions on links and flows, run on a network (`_set_link_state`, `_install_flow` and
`_remove_flow` of `mininet_ai/substrates/mininet_ovs/actions.py`).

The network is the flow tables of its switches and the state of its interfaces; actions change
it through commands, which may fail, with or without their effect. What `ovs-ofctl` makes of a
text is a parameter.
-/
import MininetAi.Capabilities.Engine
import MininetAi.Lib.FlowTable
import MininetAi.Substrates.FlowActions

set_option autoImplicit false

namespace MininetAi

/-! ## Networks -/

/-- An interface and the node it is on. -/
abbrev LiveInterface := String × String

/-- What `ovs-ofctl` reads: the rule of an addition and the selector of a removal. What it refuses
is `none`, with what it says. -/
structure OvsReading (M A : Type) where
  rule : FlowText → Option (FlowKey M × FlowRule A)
  selector : FlowText → Option (FlowSelector M)
  refusal : FlowText → String

/-- A rule is selected by the fields it was written with. -/
def OvsReading.Consistent {M A : Type} [Preorder M] (ovs : OvsReading M A) : Prop :=
  ∀ (fields : List FlowText) (actions : FlowText) (key : FlowKey M) (rule : FlowRule A) (selector : FlowSelector M),
    ovs.rule (joined (fields ++ [assigned "actions".toList actions])) = some (key, rule) →
    ovs.selector (joined fields) = some selector → selector.Selects false key rule

/-- The flow tables of the switches, and the interfaces that are up. -/
@[ext]
structure LiveNetwork (M A : Type) where
  tables : String → FlowTable (FlowKey M) (FlowRule A)
  up : LiveInterface → Bool

/-- A command of an action. -/
inductive NetworkCommand where
  | show_link (interface : LiveInterface)
  | set_link (interface : LiveInterface) (up : Bool)
  | add_flow (switch : String) (flow : FlowText)
  | del_flows (switch : String) (strict : Bool) (selector : FlowText)

/-- What becomes of a command: it may fail or time out, with its effect or without. -/
inductive CommandAnswer where
  | done
  | failed (error : ActionExecutionError) (effect : Bool)

/-- A network, and the answers to the next commands; later commands are done. -/
structure NetworkWorld (M A : Type) where
  network : LiveNetwork M A
  answers : List CommandAnswer := []

section Commands

variable {M A : Type} [DecidableEq M] [Preorder M] [DecidableLE M]

/-- What a command makes of a network. -/
def LiveNetwork.apply (ovs : OvsReading M A) (network : LiveNetwork M A) :
    NetworkCommand → Except String (LiveNetwork M A)
  | .show_link _ => .ok network
  | .set_link interface up => .ok { network with up := Function.update network.up interface up }
  | .add_flow switch flow => match ovs.rule flow with
    | none => .error (ovs.refusal flow)
    | some rule =>
      .ok { network with tables := Function.update network.tables switch ((network.tables switch).add rule.1 rule.2) }
  | .del_flows switch strict text => match ovs.selector text with
    | none => .error (ovs.refusal text)
    | some selector =>
      .ok { network with
        tables := Function.update network.tables switch ((network.tables switch).delete (selector.Selects strict)) }

def command_failed (detail : String) : ActionExecutionError where
  code := "runtime.action.failed"
  message := worded "command 'ovs-ofctl' failed: " [detail]
  status := .failed

/-- `_run`. -/
def run_command (ovs : OvsReading M A) (command : NetworkCommand) (world : NetworkWorld M A) :
    Except ActionExecutionError Unit × NetworkWorld M A :=
  let answers := world.answers.tail
  match world.network.apply ovs command with
  | .error detail => (.error (command_failed detail), { world with answers := answers })
  | .ok network => match world.answers.head?.getD .done with
    | .done => (.ok (), { network := network, answers := answers })
    | .failed error effect => (.error error, { network := if effect = true then network else world.network, answers := answers })

theorem run_command_ok {ovs : OvsReading M A} {command : NetworkCommand} {world done : NetworkWorld M A}
    (h : run_command ovs command world = (.ok (), done)) : world.network.apply ovs command = .ok done.network := by
  unfold run_command at h
  cases happly : world.network.apply ovs command with
  | error detail =>
    rw [happly] at h
    cases h
  | ok network =>
    rw [happly] at h
    cases hanswer : world.answers.head?.getD .done with
    | failed error effect =>
      rw [hanswer] at h
      cases h
    | done =>
      simp only [hanswer] at h
      obtain ⟨-, rfl⟩ := Prod.mk.inj h
      rfl

/-! ## The plan -/

/-- A planned resource; a link has the ports at its ends, each with its node. -/
inductive PlannedTarget where
  | switch (name : String)
  | link (endpoints : List LiveInterface)
  | other (kind : String)

/-- What the actions read of the plan and of the live network. -/
structure NetworkPlan where
  resources : String → Option PlannedTarget
  interface_is_live : String → Bool
  node_is_live : String → Bool

/-- `_require_kind` refuses another kind. -/
def wrong_kind (target expected actual : String) : ActionExecutionError :=
  .reject (worded "action target '" [target, "' must be a ", expected, ", not ", actual])

/-- The failure of a lookup. -/
def unknown_resource (target : String) : ActionExecutionError where
  code := "runtime.action.failed"
  message := worded "'" [target, "'"]
  status := .failed

/-- `_require_kind` of a switch. -/
def NetworkPlan.require_switch (plan : NetworkPlan) (target : String) : Except ActionExecutionError String :=
  match plan.resources target with
  | none => .error (unknown_resource target)
  | some (.switch name) => .ok name
  | some (.link _) => .error (wrong_kind target "switch" "link")
  | some (.other kind) => .error (wrong_kind target "switch" kind)

/-- The interfaces of `_link_interfaces`. -/
def NetworkPlan.require_live (plan : NetworkPlan) : List LiveInterface → Except ActionExecutionError Unit
  | [] => .ok ()
  | interface :: interfaces =>
    if plan.interface_is_live interface.2 = false then
      .error ⟨"runtime.action.failed", worded "live interface '" [interface.2, "' is unavailable"], .failed⟩
    else if plan.node_is_live interface.1 = false then
      .error ⟨"runtime.action.failed", worded "live node '" [interface.1, "' is unavailable"], .failed⟩
    else plan.require_live interfaces

/-- `_require_kind` of a link, with `_link_interfaces`. -/
def NetworkPlan.link_interfaces (plan : NetworkPlan) (target : String) :
    Except ActionExecutionError (List LiveInterface) :=
  match plan.resources target with
  | none => .error (unknown_resource target)
  | some (.link endpoints) => do
      plan.require_live endpoints
      pure endpoints
  | some (.switch _) => .error (wrong_kind target "link" "switch")
  | some (.other kind) => .error (wrong_kind target "link" kind)

/-! ## Links -/

/-- `_interface_is_up` of each interface. -/
def interface_states (ovs : OvsReading M A) :
    List LiveInterface → NetworkWorld M A → Except ActionExecutionError (List Bool) × NetworkWorld M A
  | [], world => (.ok [], world)
  | interface :: interfaces, world => match run_command ovs (.show_link interface) world with
    | (.error error, next) => (.error error, next)
    | (.ok (), next) => match interface_states ovs interfaces next with
      | (.error error, last) => (.error error, last)
      | (.ok states, last) => (.ok (next.network.up interface :: states), last)

/-- The interfaces that are set before one fails, and the failure. -/
def set_interfaces (ovs : OvsReading M A) (up : Bool) :
    List LiveInterface → NetworkWorld M A → (List LiveInterface × Option ActionExecutionError) × NetworkWorld M A
  | [], world => (([], none), world)
  | interface :: interfaces, world => match run_command ovs (.set_link interface up) world with
    | (.error error, next) => (([], some error), next)
    | (.ok (), next) =>
      let rest := set_interfaces ovs up interfaces next
      ((interface :: rest.1.1, rest.1.2), rest.2)

/-- Interfaces are set back; what fails is left. -/
def reset_interfaces (ovs : OvsReading M A) (up : Bool) : List LiveInterface → NetworkWorld M A → NetworkWorld M A
  | [], world => world
  | interface :: interfaces, world => reset_interfaces ovs up interfaces (run_command ovs (.set_link interface up) world).2

/-- The interfaces that are in the other state. -/
def changed_interfaces (up : Bool) (interfaces : List LiveInterface) (states : List Bool) : List LiveInterface :=
  ((interfaces.zip states).filter fun entry => entry.2 ≠ up).map Prod.fst

def set_link_state (ovs : OvsReading M A) (plan : NetworkPlan) (request : SubstrateRequest) (up : Bool)
    (world : NetworkWorld M A) : Except ActionExecutionError CapabilityOutcome × NetworkWorld M A :=
  if request.parameters.entries ≠ [] then
    (.error (.reject (worded "action '" [request.name, "' does not accept parameters"])), world)
  else match plan.link_interfaces request.target with
  | .error error => (.error error, world)
  | .ok interfaces => match interface_states ovs interfaces world with
    | (.error error, next) => (.error error, next)
    | (.ok states, next) =>
      let changed := changed_interfaces up interfaces states
      let run := set_interfaces ovs up changed next
      match run.1.2 with
      | some error => (.error error, reset_interfaces ovs (!up) run.1.1.reverse run.2)
      | none =>
        (.ok
          { changed := !changed.isEmpty
            output := [("link", .str request.target), ("state", .str (if up = true then "up" else "down")),
              ("interfaces", .arr (interfaces.map fun interface => .str interface.2))] }, run.2)

/-! ## Flows -/

def install_flow (ovs : OvsReading M A) (plan : NetworkPlan) (request : SubstrateRequest) (world : NetworkWorld M A) :
    Except ActionExecutionError CapabilityOutcome × NetworkWorld M A :=
  match plan.require_switch request.target with
  | .error error => (.error error, world)
  | .ok switch => match flow_expression request.parameters true with
    | .error error => (.error error, world)
    | .ok flow => match run_command ovs (.add_flow switch flow) world with
      | (.error error, next) => (.error error, next)
      | (.ok (), next) =>
        (.ok { changed := true, output := [("switch", .str switch), ("flow", .str (String.ofList flow))] }, next)

def remove_flow (ovs : OvsReading M A) (plan : NetworkPlan) (request : SubstrateRequest) (world : NetworkWorld M A) :
    Except ActionExecutionError CapabilityOutcome × NetworkWorld M A :=
  match plan.require_switch request.target with
  | .error error => (.error error, world)
  | .ok switch => match removal_selector request.parameters with
    | .error error => (.error error, world)
    | .ok selected => match run_command ovs (.del_flows switch selected.1 selected.2) world with
      | (.error error, next) => (.error error, next)
      | (.ok (), next) =>
        (.ok
          { changed := true
            output := [("switch", .str switch), ("selector", .str (String.ofList selected.2)),
              ("strict", .bool selected.1)] }, next)

/-- `execute`; the actions on the parameters of links and on processes are others. -/
def execute_action (ovs : OvsReading M A) (plan : NetworkPlan)
    (others : SubstrateRequest → NetworkWorld M A → Except ActionExecutionError CapabilityOutcome × NetworkWorld M A)
    (request : SubstrateRequest) (world : NetworkWorld M A) :
    Except ActionExecutionError CapabilityOutcome × NetworkWorld M A :=
  if request.name = "link.enable" then set_link_state ovs plan request true world
  else if request.name = "link.disable" then set_link_state ovs plan request false world
  else if request.name = "openflow.flow.install" then install_flow ovs plan request world
  else if request.name = "openflow.flow.remove" then remove_flow ovs plan request world
  else if request.name ∈ ["link.configure", "host.process.start", "host.process.stop"] then others request world
  else (.error ⟨"runtime.action.unsupported", worded "action '" [request.name, "' is not implemented"], .rejected⟩, world)

end Commands

end MininetAi
