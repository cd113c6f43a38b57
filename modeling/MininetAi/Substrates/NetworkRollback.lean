/-
What a rollback makes of a network.

An action on a link sets its two interfaces, whatever they were, and its rollback sets both of
them back; so the link is as it was when all of it was in the other state. A flow that is
installed takes the place of a rule, and its removal deletes whatever its match covers; so the
tables are as they were when the key was free and nothing was covered.
-/
import MininetAi.Substrates.NetworkActions

set_option autoImplicit false

namespace MininetAi

open List Function

section Rollback

variable {M A : Type} [DecidableEq M] [Preorder M] [DecidableLE M] {ovs : OvsReading M A}

/-! ## Links -/

theorem interface_lawful : LawfulBEq LiveInterface := inferInstance

instance interface_mem_decidable (interface : LiveInterface) (interfaces : List LiveInterface) :
    Decidable (interface ∈ interfaces) :=
  @instDecidableMemOfLawfulBEq _ _ interface_lawful interface interfaces

/-- The states with some interfaces set. -/
def set_states (up : Bool) (interfaces : List LiveInterface) (states : LiveInterface → Bool) : LiveInterface → Bool :=
  fun interface => if interface ∈ interfaces then up else states interface

variable {world next : NetworkWorld M A} {plan : NetworkPlan} {request : SubstrateRequest}
  {outcome : CapabilityOutcome}

variable {interfaces : List LiveInterface} {up : Bool}

theorem interface_states_ok {states : List Bool}
    (h : interface_states ovs interfaces world = (.ok states, next)) :
    states = interfaces.map world.network.up ∧ next.network = world.network := by
  induction interfaces generalizing world states with
  | nil =>
    rw [interface_states] at h
    obtain ⟨hstates, rfl⟩ := Prod.mk.inj h
    exact ⟨(Except.ok.inj hstates).symm, rfl⟩
  | cons interface interfaces ih =>
    rw [interface_states] at h
    split at h
    · cases (Prod.mk.inj h).1
    · rename_i shown hshow
      split at h
      · cases (Prod.mk.inj h).1
      · rename_i rest last hrest
        obtain ⟨hstates, rfl⟩ := Prod.mk.inj h
        obtain ⟨hrest, hlast⟩ := ih hrest
        have hsame : world.network = shown.network := Except.ok.inj (run_command_ok hshow)
        rw [← Except.ok.inj hstates, hrest, hsame]
        exact ⟨rfl, hlast⟩

theorem set_states_cons (up : Bool) (interface : LiveInterface) (interfaces : List LiveInterface)
    (states : LiveInterface → Bool) :
    set_states up (interface :: interfaces) states = set_states up interfaces (update states interface up) := by
  funext other
  unfold set_states
  by_cases hmem : other ∈ interfaces
  · rw [if_pos hmem, if_pos (mem_cons_of_mem _ hmem)]
  · rw [if_neg hmem]
    by_cases heq : other = interface
    · rw [heq, update_self, if_pos mem_cons_self]
    · rw [update_of_ne heq, if_neg (not_mem_cons_of_ne_of_not_mem heq hmem)]

theorem set_interfaces_ok (h : (set_interfaces ovs up interfaces world).1.2 = none) :
    (set_interfaces ovs up interfaces world).2.network.tables = world.network.tables ∧
      (set_interfaces ovs up interfaces world).2.network.up = set_states up interfaces world.network.up := by
  induction interfaces generalizing world with
  | nil => exact ⟨rfl, rfl⟩
  | cons interface interfaces ih =>
    rw [set_interfaces] at h ⊢
    cases hset : run_command ovs (.set_link interface up) world with
    | mk answer next =>
      rw [hset] at h
      cases answer with
      | error error => cases h
      | ok u =>
        obtain ⟨htables, hup⟩ := ih h
        have happly := Except.ok.inj (run_command_ok hset)
        refine ⟨htables.trans ?_, hup.trans ?_⟩
        · rw [← happly]
        · rw [set_states_cons, ← happly]

theorem changed_interfaces_map (up : Bool) (interfaces : List LiveInterface) (states : LiveInterface → Bool) :
    changed_interfaces up interfaces (interfaces.map states) =
      interfaces.filter fun interface => states interface ≠ up := by
  unfold changed_interfaces
  induction interfaces with
  | nil => rfl
  | cons interface interfaces ih =>
    rw [map_cons, zip_cons_cons, filter_cons, filter_cons]
    by_cases hne : decide (states interface ≠ up) = true
    · rw [if_pos hne, if_pos hne, map_cons, ih]
    · rw [if_neg hne, if_neg hne, ih]

/-- An action on a link that succeeds sets its interfaces, and it has changed something when one of
them was in the other state. -/
theorem set_link_state_ok (h : set_link_state ovs plan request up world = (.ok outcome, next)) :
    ∃ interfaces, plan.link_interfaces request.target = .ok interfaces ∧
      next.network.tables = world.network.tables ∧
      next.network.up = set_states up interfaces world.network.up ∧
      (outcome.changed = true ↔ ∃ interface ∈ interfaces, world.network.up interface ≠ up) := by
  unfold set_link_state at h
  by_cases hparameters : request.parameters.entries ≠ []
  · rw [if_pos hparameters] at h
    cases (Prod.mk.inj h).1
  rw [if_neg hparameters] at h
  cases hinterfaces : plan.link_interfaces request.target with
  | error error =>
    rw [hinterfaces] at h
    cases (Prod.mk.inj h).1
  | ok interfaces =>
    rw [hinterfaces] at h
    cases hstates : interface_states ovs interfaces world with
    | mk answer shown =>
      simp only [hstates] at h
      cases answer with
      | error error => cases (Prod.mk.inj h).1
      | ok states =>
        obtain ⟨rfl, hshown⟩ := interface_states_ok hstates
        simp only at h
        cases hfailed : (set_interfaces ovs up (changed_interfaces up interfaces
            (interfaces.map world.network.up)) shown).1.2 with
        | some error =>
          simp only [hfailed] at h
          cases (Prod.mk.inj h).1
        | none =>
          simp only [hfailed] at h
          obtain ⟨houtcome, rfl⟩ := Prod.mk.inj h
          obtain ⟨htables, hup⟩ := set_interfaces_ok hfailed
          rw [hshown] at htables hup
          refine ⟨interfaces, rfl, htables, hup.trans ?_, ?_⟩
          · -- the others are in the state already
            rw [changed_interfaces_map]
            funext interface
            unfold set_states
            by_cases hmem : interface ∈ interfaces
            · rw [if_pos hmem]
              by_cases hsame : world.network.up interface = up
              · rw [hsame, ite_self]
              · rw [if_pos (mem_filter.mpr ⟨hmem, decide_eq_true hsame⟩)]
            · rw [if_neg hmem, if_neg fun hfilter => hmem (mem_filter.mp hfilter).1]
          · rw [← Except.ok.inj houtcome, changed_interfaces_map]
            simp only [Bool.not_eq_true', isEmpty_eq_false_iff, ne_eq, filter_eq_nil_iff,
              decide_eq_true_eq, not_not, not_forall, exists_prop]

/-- A link is set back to what it was when all of it was in the other state. -/
theorem set_states_back_iff (up : Bool) (interfaces : List LiveInterface) (states : LiveInterface → Bool) :
    set_states (!up) interfaces (set_states up interfaces states) = states ↔
      ∀ interface ∈ interfaces, states interface = !up := by
  have hvalue : ∀ interface, set_states (!up) interfaces (set_states up interfaces states) interface =
      if interface ∈ interfaces then !up else states interface := by
    intro interface
    unfold set_states
    by_cases hmem : interface ∈ interfaces
    · rw [if_pos hmem, if_pos hmem]
    · rw [if_neg hmem, if_neg hmem, if_neg hmem]
  constructor
  · intro hsame interface hmem
    have hback := congrFun hsame interface
    rw [hvalue, if_pos hmem] at hback
    exact hback.symm
  · intro hstates
    funext interface
    rw [hvalue]
    by_cases hmem : interface ∈ interfaces
    · rw [if_pos hmem, hstates interface hmem]
    · rw [if_neg hmem]

/-! ## Flows -/

omit [DecidableEq M] [Preorder M] [DecidableLE M] in
theorem update_same_iff {tables : String → FlowTable (FlowKey M) (FlowRule A)} {switch : String}
    {first last : FlowTable (FlowKey M) (FlowRule A)} :
    update (update tables switch first) switch last = tables ↔ last = tables switch := by
  rw [update_idem, update_eq_iff]
  exact and_iff_left fun _ _ => rfl

/-- A flow that is installed is a rule of its switch. -/
theorem install_flow_ok (h : install_flow ovs plan request world = (.ok outcome, next)) :
    ∃ switch flow rule, plan.require_switch request.target = .ok switch ∧
      flow_expression request.parameters true = .ok flow ∧ ovs.rule flow = some rule ∧
      next.network.up = world.network.up ∧ next.network.tables =
        update world.network.tables switch ((world.network.tables switch).add rule.1 rule.2) := by
  unfold install_flow at h
  cases hswitch : plan.require_switch request.target with
  | error error =>
    rw [hswitch] at h
    cases (Prod.mk.inj h).1
  | ok switch =>
    simp only [hswitch] at h
    cases hflow : flow_expression request.parameters true with
    | error error =>
      simp only [hflow] at h
      cases (Prod.mk.inj h).1
    | ok flow =>
      simp only [hflow] at h
      cases hrun : run_command ovs (.add_flow switch flow) world with
      | mk answer last =>
        simp only [hrun] at h
        cases answer with
        | error error => cases (Prod.mk.inj h).1
        | ok u =>
          obtain ⟨-, rfl⟩ := Prod.mk.inj h
          have happly := run_command_ok hrun
          unfold LiveNetwork.apply at happly
          cases hrule : ovs.rule flow with
          | none =>
            simp only [hrule] at happly
            cases happly
          | some rule =>
            simp only [hrule] at happly
            refine ⟨switch, flow, rule, rfl, rfl, hrule, ?_, ?_⟩
            · rw [← Except.ok.inj happly]
            · rw [← Except.ok.inj happly]

/-- A removal deletes what it selects. -/
theorem remove_flow_ok (h : remove_flow ovs plan request world = (.ok outcome, next)) :
    ∃ switch selected selector, plan.require_switch request.target = .ok switch ∧
      removal_selector request.parameters = .ok selected ∧ ovs.selector selected.2 = some selector ∧
      next.network.up = world.network.up ∧
      next.network.tables = update world.network.tables switch
        ((world.network.tables switch).delete (selector.Selects selected.1)) := by
  unfold remove_flow at h
  cases hswitch : plan.require_switch request.target with
  | error error =>
    rw [hswitch] at h
    cases (Prod.mk.inj h).1
  | ok switch =>
    simp only [hswitch] at h
    cases hselected : removal_selector request.parameters with
    | error error =>
      simp only [hselected] at h
      cases (Prod.mk.inj h).1
    | ok selected =>
      simp only [hselected] at h
      cases hrun : run_command ovs (.del_flows switch selected.1 selected.2) world with
      | mk answer last =>
        simp only [hrun] at h
        cases answer with
        | error error => cases (Prod.mk.inj h).1
        | ok u =>
          obtain ⟨-, rfl⟩ := Prod.mk.inj h
          have happly := run_command_ok hrun
          unfold LiveNetwork.apply at happly
          cases hselector : ovs.selector selected.2 with
          | none =>
            simp only [hselector] at happly
            cases happly
          | some selector =>
            simp only [hselector] at happly
            refine ⟨switch, selected, selector, rfl, rfl, hselector, ?_, ?_⟩
            · rw [← Except.ok.inj happly]
            · rw [← Except.ok.inj happly]

/-! ## What is undone -/

/-- The rule that an installation adds. -/
def installed_rule (ovs : OvsReading M A) (parameters : FlowParameters) : Option (FlowKey M × FlowRule A) :=
  (flow_expression parameters true).toOption.bind ovs.rule

/-- What the rollback of an installation selects, and whether strictly. -/
def rollback_selector (ovs : OvsReading M A) (parameters : FlowParameters) : Option (Bool × FlowSelector M) :=
  (removal_selector (parameters.erase "actions")).toOption.bind fun selected =>
    (ovs.selector selected.2).map fun selector => (selected.1, selector)

/-- The network before an action that its rollback undoes: the key of the rule is free and the rollback
covers no rule, or the interfaces of the link are in the other state. -/
def Undoable (ovs : OvsReading M A) (plan : NetworkPlan) (request : SubstrateRequest) (network : LiveNetwork M A) : Prop :=
  if request.name = "openflow.flow.install" then
    ∀ switch, plan.require_switch request.target = .ok switch →
      (∀ rule ∈ installed_rule ovs request.parameters, network.tables switch rule.1 = none) ∧
        ∀ removal ∈ rollback_selector ovs request.parameters, ∀ key rule,
          network.tables switch key = some rule → ¬ removal.2.Selects removal.1 key rule
  else ∀ interfaces, plan.link_interfaces request.target = .ok interfaces →
    ∀ interface ∈ interfaces, network.up interface = decide (request.name = "link.disable")

section Undo

variable {plan : NetworkPlan} {request undo : SubstrateRequest} {world done restored : NetworkWorld M A}
  {outcome result : CapabilityOutcome}

/-- An installation is undone when its key was free and nothing else is selected. -/
theorem install_undone_iff (hovs : ovs.Consistent) (hname : request.name = "openflow.flow.install")
    (hinstall : install_flow ovs plan request world = (.ok outcome, done))
    (htarget : undo.target = request.target) (hparameters : undo.parameters = request.parameters.erase "actions")
    (hremove : remove_flow ovs plan undo done = (.ok result, restored)) :
    restored.network = world.network ↔ Undoable ovs plan request world.network := by
  obtain ⟨switch, flow, rule, hswitch, hflow, hrule, hup, htables⟩ := install_flow_ok hinstall
  obtain ⟨switch', selected, selector, hswitch', hselected, hselector, hup', htables'⟩ := remove_flow_ok hremove
  rw [htarget, hswitch] at hswitch'
  obtain rfl : switch = switch' := Except.ok.inj hswitch'
  rw [hparameters] at hselected
  -- the removal was accepted, so no timeout was given and the texts have the same fields
  obtain ⟨hidle, hhard⟩ : request.parameters.lookup "idleTimeout" = none ∧ request.parameters.lookup "hardTimeout" = none := by
    obtain ⟨strict, -, hrest⟩ := Except.bind_ok_iff.mp hselected
    obtain ⟨text, htext, -⟩ := Except.bind_ok_iff.mp hrest
    exact (removal_known (flow_expression_parts hflow).1).mp (flow_expression_parts htext).1
  obtain ⟨fields, actions, rfl, hfields⟩ := removal_selector_eq hflow hidle hhard
  obtain rfl : (false, joined fields) = selected := Except.ok.inj (hfields.symm.trans hselected)
  have hselects := hovs fields actions rule.1 rule.2 selector hrule hselector
  have hinstalled : installed_rule ovs request.parameters = some rule := by
    rw [installed_rule, hflow]
    exact hrule
  have hremoval : rollback_selector ovs request.parameters = some (false, selector) := by
    rw [rollback_selector, hselected]
    simp only [Except.toOption, Option.bind_some, hselector, Option.map_some]
  have hsame : restored.network = world.network ↔ restored.network.tables = world.network.tables := by
    refine ⟨fun heq => by rw [heq], fun heq => LiveNetwork.ext heq (hup'.trans hup)⟩
  rw [hsame, htables', htables, update_self, update_same_iff, FlowTable.delete_add_eq_iff hselects, Undoable,
    if_pos hname, hinstalled, hremoval]
  constructor
  · intro hfree other hother
    rw [hswitch] at hother
    obtain rfl := Except.ok.inj hother
    refine ⟨fun added hadded => ?_, fun removal hmem => ?_⟩
    · rw [← Option.some.inj hadded]
      exact hfree.1
    · rw [← Option.some.inj hmem]
      exact hfree.2
  · intro hundoable
    obtain ⟨hfree, hnone⟩ := hundoable switch hswitch
    exact ⟨hfree rule rfl, hnone (false, selector) rfl⟩

/-- An action on a link is undone when all of the link was in the other state. -/
theorem link_undone_iff {up : Bool} (hname : request.name ≠ "openflow.flow.install")
    (hup : decide (request.name = "link.disable") = !up)
    (hset : set_link_state ovs plan request up world = (.ok outcome, done)) (htarget : undo.target = request.target)
    (hback : set_link_state ovs plan undo (!up) done = (.ok result, restored)) :
    restored.network = world.network ↔ Undoable ovs plan request world.network := by
  obtain ⟨interfaces, hinterfaces, htables, hstates, -⟩ := set_link_state_ok hset
  obtain ⟨interfaces', hinterfaces', htables', hstates', -⟩ := set_link_state_ok hback
  rw [htarget, hinterfaces] at hinterfaces'
  obtain rfl := Except.ok.inj hinterfaces'
  have hsame : restored.network = world.network ↔ restored.network.up = world.network.up := by
    refine ⟨fun heq => by rw [heq], fun heq => LiveNetwork.ext (htables'.trans htables) heq⟩
  rw [hsame, hstates', hstates, set_states_back_iff, Undoable, if_neg hname, hup]
  constructor
  · intro hother others hothers
    rw [hinterfaces] at hothers
    obtain rfl := Except.ok.inj hothers
    exact hother
  · exact fun hundoable => hundoable interfaces hinterfaces

end Undo

/-- The network is what it was before an action that was rolled back exactly when the key of its rule
was free and its rollback covers no other rule, or when its link was in the other state at both
ends; and what is reported says that nothing has changed. -/
theorem rollback_restores_iff (hovs : ovs.Consistent) {plan : NetworkPlan}
    {others : SubstrateRequest → NetworkWorld M A → Except ActionExecutionError CapabilityOutcome × NetworkWorld M A}
    {request undo : SubstrateRequest} {world done restored : NetworkWorld M A} {outcome result : CapabilityOutcome}
    {timeout_seconds : ℚ} (hname : request.name ∈ ["openflow.flow.install", "link.enable", "link.disable"])
    (hrun : execute_action ovs plan others request world = (.ok outcome, done))
    (hundo : rollback_request request outcome.output timeout_seconds = .ok undo)
    (hrollback : execute_action ovs plan others undo done = (.ok result, restored))
    {proposal : ActionProposal} {reported report : CapabilityResult} {checks : List PostconditionResult} {message : String}
    {rolled_back : RollbackResult} (hstatus : rolled_back.status = .succeeded)
    (hreport : CapabilityEngine.unsatisfied_result proposal reported checks message (some rolled_back) = .ok report) :
    report.changed = false ∧ (restored.network = world.network ↔ Undoable ovs plan request world.network) := by
  have hunchanged : report.changed = false := by
    obtain ⟨issue, -, hout⟩ := Except.bind_ok_iff.mp hreport
    rw [← Except.ok.inj hout]
    simp only [Option.any_some, hstatus, decide_true, if_true]
  refine ⟨hunchanged, ?_⟩
  obtain ⟨hinverse, htarget⟩ := rollback_request_ok hundo
  simp only [mem_cons, not_mem_nil, or_false] at hname
  unfold execute_action at hrun hrollback
  rcases hname with hname | hname | hname
  · rw [hname, inverse_action, if_pos rfl] at hinverse
    obtain ⟨hundoname, hparameters⟩ := Prod.mk.inj (Except.ok.inj hinverse)
    rw [hname, if_neg (by decide), if_neg (by decide), if_pos rfl] at hrun
    rw [← hundoname, if_neg (by decide), if_neg (by decide), if_neg (by decide), if_pos rfl] at hrollback
    exact install_undone_iff hovs hname hrun htarget hparameters.symm hrollback
  · rw [hname, inverse_action, if_neg (by decide), if_pos rfl] at hinverse
    obtain ⟨hundoname, -⟩ := Prod.mk.inj (Except.ok.inj hinverse)
    rw [hname, if_pos rfl] at hrun
    rw [← hundoname, if_neg (by decide), if_pos rfl] at hrollback
    exact link_undone_iff (by rw [hname]; decide) (by rw [hname]; decide) hrun htarget hrollback
  · rw [hname, inverse_action, if_neg (by decide), if_neg (by decide), if_pos rfl] at hinverse
    obtain ⟨hundoname, -⟩ := Prod.mk.inj (Except.ok.inj hinverse)
    rw [hname, if_neg (by decide), if_pos rfl] at hrun
    rw [← hundoname, if_pos rfl] at hrollback
    exact link_undone_iff (by rw [hname]; decide) (by rw [hname]; decide) hrun htarget hrollback

end Rollback

/-! ## A switch and a link -/

/-- A reading of two texts; a match is the set of its fields, and more fields are more specific. -/
def port_reading : OvsReading (OrderDual (Finset String)) String where
  rule text :=
    if text = "in_port=1,actions=drop".toList then some (⟨0, 32768, OrderDual.toDual {"in_port=1"}⟩, ⟨0, "drop"⟩) else none
  selector text := if text = "in_port=1".toList then some { selection := OrderDual.toDual {"in_port=1"} } else none
  refusal _ := "unknown keyword"

theorem port_reading_consistent : port_reading.Consistent := by
  intro fields actions key rule selector hrule hselector
  unfold port_reading at hrule hselector
  simp only at hrule hselector
  split_ifs at hrule hselector
  obtain ⟨rfl, rfl⟩ := Prod.mk.inj (Option.some.inj hrule)
  rw [← Option.some.inj hselector]
  decide

/-- A switch, and a link between it and a host. -/
def port_plan : NetworkPlan where
  resources target :=
    if target = "s1" then some (.switch "s1")
    else if target = "l1" then some (.link [("h1", "h1-eth0"), ("s1", "s1-eth1")])
    else none
  interface_is_live _ := true
  node_is_live _ := true

def no_other_action (_ : SubstrateRequest) (world : NetworkWorld (OrderDual (Finset String)) String) :
    Except ActionExecutionError CapabilityOutcome × NetworkWorld (OrderDual (Finset String)) String :=
  (.error (.reject "no other action"), world)

/-- A network with one rule, and with the end of the link at the host up. -/
def half_up_network (rule : Option (FlowRule String)) : LiveNetwork (OrderDual (Finset String)) String where
  tables _ key := if key = ⟨0, 32768, OrderDual.toDual {"in_port=1"}⟩ then rule else none
  up interface := decide (interface.1 = "h1")

theorem half_up_network_free (switch : String) (key : FlowKey (OrderDual (Finset String))) :
    (half_up_network none).tables switch key = none := ite_self _

/-- A request for a link. -/
def link_request (name : String) : SubstrateRequest where
  id := "link"
  name := name
  target := "l1"
  parameters := ∅

def undo_request (request : SubstrateRequest) (name : String) : SubstrateRequest where
  id := worded request.id [":rollback"]
  name := name
  target := request.target
  parameters := if name = "openflow.flow.remove" then request.parameters.erase "actions" else ∅
  timeout_seconds := 10

/-- An action on the small network. -/
def small_action (request : SubstrateRequest) (world : NetworkWorld (OrderDual (Finset String)) String) :
    Except ActionExecutionError CapabilityOutcome × NetworkWorld (OrderDual (Finset String)) String :=
  execute_action port_reading port_plan no_other_action request world

/-- The small network after an action and the one that undoes it. -/
def small_undone (request : SubstrateRequest) (name : String) (network : LiveNetwork (OrderDual (Finset String)) String) :
    Except ActionExecutionError CapabilityOutcome × NetworkWorld (OrderDual (Finset String)) String :=
  small_action (undo_request request name) (small_action request { network := network }).2

def succeeded_rollback : RollbackResult where
  status := .succeeded
  issue_matches_status := success_has_no_issue

/-- What is reported after it. -/
theorem small_report : ∃ report, CapabilityEngine.unsatisfied_result ⟨"drop", "openflow.flow.install", "s1", []⟩
    { toActionResult := ActionResult.success "run" "drop", changed := true } [] "postconditions not satisfied: flows:0"
    (some succeeded_rollback) = .ok report :=
  ⟨_, rfl⟩

/-- The installation of a flow under a free key is undone. -/
theorem rollback_restores_free :
    (small_undone (drop_request ∅) "openflow.flow.remove" (half_up_network none)).2.network = half_up_network none := by
  have hrun : small_action (drop_request ∅) { network := half_up_network none } =
      (.ok { changed := true, output := [("switch", .str "s1"), ("flow", .str "in_port=1,actions=drop")] },
        (small_action (drop_request ∅) { network := half_up_network none }).2) := Prod.ext (by decide) rfl
  have hundo := @rollback_request_install (drop_request ∅) rfl
    [("switch", .str "s1"), ("flow", .str "in_port=1,actions=drop")] 10
  have hrollback : small_undone (drop_request ∅) "openflow.flow.remove" (half_up_network none) =
      (.ok { changed := true, output := [("switch", .str "s1"), ("selector", .str "in_port=1"), ("strict", .bool false)] },
        (small_undone (drop_request ∅) "openflow.flow.remove" (half_up_network none)).2) := Prod.ext (by decide +kernel) rfl
  have hundoable : Undoable port_reading port_plan (drop_request ∅) (half_up_network none) := by
    have hname : (drop_request ∅).name = "openflow.flow.install" := rfl
    rw [Undoable, if_pos hname]
    refine fun switch _ => ⟨fun rule _ => half_up_network_free switch rule.1, fun removal _ key rule hrule => ?_⟩
    rw [half_up_network_free] at hrule
    cases hrule
  obtain ⟨report, hreport⟩ := small_report
  exact (rollback_restores_iff port_reading_consistent (by decide) hrun hundo hrollback rfl hreport).2.mpr hundoable

/-- A rule under the key of a flow that is installed is lost with the rollback, and a link that was half
up is down. -/
theorem rollback_loses_rule :
    (small_action (drop_request ∅) { network := half_up_network (some ⟨5, "output:2"⟩) }).1.toOption.any
        CapabilityOutcome.changed = true ∧
      (small_undone (drop_request ∅) "openflow.flow.remove" (half_up_network (some ⟨5, "output:2"⟩))).1.toOption.isSome = true ∧
      (small_undone (drop_request ∅) "openflow.flow.remove" (half_up_network (some ⟨5, "output:2"⟩))).2.network ≠
        half_up_network (some ⟨5, "output:2"⟩) ∧
      (small_action (link_request "link.enable") { network := half_up_network none }).1.toOption.any
        CapabilityOutcome.changed = true ∧
      (small_undone (link_request "link.enable") "link.disable" (half_up_network none)).1.toOption.isSome = true ∧
      (small_undone (link_request "link.enable") "link.disable" (half_up_network none)).2.network ≠ half_up_network none := by
  refine ⟨by decide, by decide, fun hsame => ?_, by decide +kernel, by decide +kernel, fun hsame => ?_⟩
  · have hrule := congrFun (congrFun (congrArg LiveNetwork.tables hsame) "s1") ⟨0, 32768, OrderDual.toDual {"in_port=1"}⟩
    revert hrule
    decide +kernel
  · have hup := congrFun (congrArg LiveNetwork.up hsame) ("h1", "h1-eth0")
    revert hup
    decide +kernel

end MininetAi
