/-
What an event triggers (`ContinuousAgentRuntime._matches` and the small functions
around it in `mininet_ai/runtime/continuous.py`).

An event that is in order is matched with the triggers of the plan's agents: a
manual intent and an elapsed interval name their agent, every other event is
compared with all event triggers. A match is a `WorkItem`, the activation of the
agent that was asked for. The agent that executes it, whose queue it goes to, is
the entry agent of the coordination graph when there is one.

Times are microseconds. A cooldown is compared as in the source, as the double of its
seconds with the double of the seconds that have passed.
-/
import Mathlib.Data.Finset.Basic
import MininetAi.Coordination.Graph
import MininetAi.Durations
import MininetAi.Runtime.Events

set_option autoImplicit false

namespace MininetAi

open List

/-! ## Agents -/

/-- What a full queue does with an activation. -/
inductive Overflow where
  | reject
  | drop_oldest
  | coalesce
  deriving DecidableEq

/-- The part of `ExecutionConfiguration` that is about the queue. -/
structure ExecutionConfiguration where
  queue_capacity : ℕ
  max_concurrency : ℕ
  overflow : Overflow
  queue_capacity_pos : 1 ≤ queue_capacity
  max_concurrency_pos : 1 ≤ max_concurrency

/-- A trigger of an agent. The times of an interval trigger are its thread's. -/
inductive Trigger where
  | manual (name : String)
  | interval (name : String)
  | event (name event : String) (source subject : Option String) (cooldown : Duration)
  deriving DecidableEq

/-- The part of a compiled agent the continuous runtime reads. -/
structure RuntimeAgent where
  id : String
  deployment : String
  /-- `attachment.targets`. -/
  targets : List String
  triggers : List Trigger
  execution : ExecutionConfiguration
  /-- `decision_scenario is not None`. -/
  has_decision_scenario : Bool

/-- What the runtime is built with. `budgeted` says that the invoker is a
`BudgetedCoordinator`, `graph` is `_coordination_graph`, which a `Coordinator`
has. -/
structure ContinuousConfig where
  agents : List RuntimeAgent
  max_queued_events : ℕ
  max_concurrent_invocations : ℕ
  graph : Option CoordinationGraph
  budgeted : Bool
  /-- `str(error)` of a payload that is not what the type of its event says. -/
  payload_error : EventPayload → String
  /-- `str(KeyError(agent_id))`. -/
  key_error : String → String
  graph_built : ∀ g ∈ graph, ∃ plan : CoordinationPlan,
    plan.agent_ids = agents.map RuntimeAgent.id ∧ CoordinationGraph.build plan = .ok g
  budgeted_graph : budgeted = true → graph ≠ none

namespace ContinuousConfig

/-- The keys of `_agents` and `_queues`. -/
def ids (config : ContinuousConfig) : Finset String :=
  (config.agents.map RuntimeAgent.id).toFinset

/-- `_agents.get`: the last agent with an id is the one in the dictionary. -/
def agent (config : ContinuousConfig) (id : String) : Option RuntimeAgent :=
  config.agents.reverse.find? fun agent => agent.id = id

/-- `_execution_agent_id`, for an agent of the plan. -/
def execution_agent_id (config : ContinuousConfig) (requested_agent_id : String) : String :=
  match config.graph with
  | none => requested_agent_id
  | some graph => (graph.entry_agent requested_agent_id).toOption.getD requested_agent_id

def request_capacity (config : ContinuousConfig) : ℕ :=
  config.max_queued_events + config.max_concurrent_invocations

variable {config : ContinuousConfig} {id : String}

/-- What the dictionary has is an agent of the plan, under its id. -/
theorem agent_some {agent : RuntimeAgent} (h : config.agent id = some agent) :
    agent ∈ config.agents ∧ agent.id = id := by
  unfold ContinuousConfig.agent at h
  have hmem := mem_of_find?_eq_some h
  have hid := find?_some h
  exact ⟨mem_reverse.mp hmem, of_decide_eq_true hid⟩

theorem mem_ids : id ∈ config.ids ↔ ∃ agent ∈ config.agents, agent.id = id := by
  unfold ids
  rw [mem_toFinset, mem_map]

/-- Every agent of the plan is in the dictionary. -/
theorem agent_isSome (h : id ∈ config.ids) : ∃ agent, config.agent id = some agent := by
  obtain ⟨agent, hagent, hid⟩ := mem_ids.mp h
  apply Option.isSome_iff_exists.mp
  unfold ContinuousConfig.agent
  rw [find?_isSome]
  exact ⟨agent, mem_reverse.mpr hagent, decide_eq_true hid⟩

theorem ids_of_agent {agent : RuntimeAgent} (h : config.agent id = some agent) : id ∈ config.ids :=
  mem_ids.mpr ⟨agent, agent_some h⟩

/-- The graph refuses no agent of the plan: the id above is what `entry_agent`
returns. -/
theorem entry_agent_eq {graph : CoordinationGraph} (hgraph : config.graph = some graph)
    (hid : id ∈ config.ids) : graph.entry_agent id = .ok (config.execution_agent_id id) := by
  obtain ⟨plan, hplan, hbuilt⟩ := config.graph_built graph hgraph
  have hagents : graph.agents = config.agents.map RuntimeAgent.id :=
    (CoordinationGraph.build_agents hbuilt).trans hplan
  have hknown : id ∈ graph.agents := by
    rw [hagents]
    exact mem_toFinset.mp hid
  obtain ⟨entry, hentry⟩ := graph.entry_agent_defined hknown
  simp only [execution_agent_id, hgraph, hentry, Except.toOption, Option.getD_some]

/-- An agent of the plan is executed by an agent of the plan. -/
theorem execution_agent_known (hid : id ∈ config.ids) :
    config.execution_agent_id id ∈ config.ids := by
  cases hgraph : config.graph with
  | none => simpa only [execution_agent_id, hgraph] using hid
  | some graph =>
    obtain ⟨plan, hplan, hbuilt⟩ := config.graph_built graph hgraph
    have hentry := (CoordinationGraph.build_ok hbuilt).entry_known (entry_agent_eq hgraph hid)
    rw [CoordinationGraph.build_agents hbuilt, hplan] at hentry
    exact mem_toFinset.mpr hentry

end ContinuousConfig

/-! ## Issues -/

/-- The codes of the issues of the runtime. -/
inductive IssueCode where
  | queue_full
  | drop_oldest
  | dropped_on_stop
  | tick_coalesced
  | out_of_order
  | payload_invalid
  | cooldown
  | invocation_failed
  | publish_failed
  deriving DecidableEq

/-- The code as the report has it. -/
def IssueCode.text : IssueCode → String
  | .queue_full => "runtime.queue.full"
  | .drop_oldest => "runtime.queue.drop-oldest"
  | .dropped_on_stop => "runtime.queue.dropped-on-stop"
  | .tick_coalesced => "runtime.bounded-decision.tick-coalesced"
  | .out_of_order => "runtime.event.out-of-order"
  | .payload_invalid => "runtime.event.payload-invalid"
  | .cooldown => "runtime.trigger.cooldown"
  | .invocation_failed => "runtime.invocation.failed"
  | .publish_failed => "runtime.interval.publish-failed"

/-- A `ContinuousRuntimeIssue`. -/
structure ContinuousIssue where
  code : IssueCode
  message : String
  event_id : Option String
  agent_id : Option String := none
  trigger : Option String := none
  deriving DecidableEq

/-! ## Activations -/

/-- What the intent of an activation is made of. -/
inductive WorkIntent where
  | manual (intent : String)
  | interval (trigger : String) (scheduled_at : ℤ)
  | event (type source : String) (payload : EventPayload)
  deriving DecidableEq

/-- One activation. -/
structure WorkItem where
  event : RuntimeEvent
  agent : RuntimeAgent
  trigger : String
  intent : WorkIntent
  coalesce_key : String × Option String
  scheduled_tick : Option ℚ := none

def WorkItem.bounded_tick (item : WorkItem) : Bool :=
  item.scheduled_tick.isSome && item.agent.has_decision_scenario

/-- An issue about an activation. -/
def WorkItem.issue (item : WorkItem) (code : IssueCode) (message : String) : ContinuousIssue where
  code := code
  message := message
  event_id := some item.event.event_id
  agent_id := some item.agent.id
  trigger := some item.trigger

/-! ## Matching -/

/-- `next(item for item in agent.triggers if item.type == "manual")`. -/
def manual_trigger (agent : RuntimeAgent) : Option String :=
  agent.triggers.findSome? fun
    | .manual name => some name
    | _ => none

/-- The interval trigger with a name. -/
def interval_trigger (agent : RuntimeAgent) (trigger : String) : Option String :=
  agent.triggers.findSome? fun
    | .interval name => if name = trigger then some name else none
    | _ => none

/-- The filters of an event trigger. Without a subject of its own it takes the
events about its agent, the deployment or what the agent is attached to. -/
def event_trigger_matches (agent : RuntimeAgent) (type : String) (source subject : Option String)
    (event : RuntimeEvent) : Bool :=
  decide (type = event.type) && source.all (fun source => decide (source = event.source)) &&
    match subject, event.subject with
    | some subject, about => decide (some subject = about)
    | none, none => true
    | none, some about => decide (about ∈ agent.id :: agent.deployment :: agent.targets)

/-- Whether the trigger fired less than its cooldown ago. -/
def in_cooldown (last : Option ℤ) (observed_at : ℤ) (cooldown : Duration) : Bool :=
  match last with
  | none => false
  | some last => total_seconds (observed_at - last) < duration_seconds cooldown

/-- What one trigger of an agent makes of an event: nothing, an issue because it is
in its cooldown, or an activation. -/
def match_trigger (last_triggered : String × String → Option ℤ) (event : RuntimeEvent)
    (agent : RuntimeAgent) : Trigger → Option (ContinuousIssue ⊕ WorkItem)
  | .manual _ | .interval _ => none
  | .event name type source subject cooldown =>
    if ¬ event_trigger_matches agent type source subject event then none
    else if in_cooldown (last_triggered (agent.id, name)) event.observed_at cooldown then
      some (.inl
        { code := .cooldown
          message := "event arrived during trigger cooldown"
          event_id := some event.event_id
          agent_id := some agent.id
          trigger := some name })
    else
      some (.inr
        { event := event
          agent := agent
          trigger := name
          intent := .event event.type event.source event.payload
          coalesce_key := (name, event.subject) })

/-- The two loops of `_matches`. -/
def match_triggers (config : ContinuousConfig) (last_triggered : String × String → Option ℤ)
    (event : RuntimeEvent) : List (ContinuousIssue ⊕ WorkItem) :=
  config.agents.flatMap fun agent =>
    agent.triggers.filterMap (match_trigger last_triggered event agent)

/-- `_matches`: the cooldown issues it reports and the activations it returns, or
the text of the `KeyError` or `ValueError` it raises. -/
def event_matches (config : ContinuousConfig) (last_triggered : String × String → Option ℤ)
    (scheduled_ticks : String → Option ℚ) (event : RuntimeEvent) :
    Except String (List ContinuousIssue × List WorkItem) :=
  if event.type = RuntimeEventType.manual_intent then
    match event.payload with
    | .manual_intent agent_id intent => match config.agent agent_id with
      | none => .error (config.key_error agent_id)
      | some agent => match manual_trigger agent with
        | none => .ok ([], [])
        | some trigger => .ok ([],
            [{ event := event
               agent := agent
               trigger := trigger
               intent := .manual intent
               coalesce_key := (trigger, event.subject)
               scheduled_tick := scheduled_ticks event.event_id }])
    | payload => .error (config.payload_error payload)
  else if event.type = RuntimeEventType.interval_elapsed then
    match event.payload with
    | .interval_elapsed agent_id trigger scheduled_at => match config.agent agent_id with
      | none => .error (config.key_error agent_id)
      | some agent => match interval_trigger agent trigger with
        | none => .ok ([], [])
        | some trigger => .ok ([],
            [{ event := event
               agent := agent
               trigger := trigger
               intent := .interval trigger scheduled_at
               coalesce_key := (trigger, event.subject)
               scheduled_tick := scheduled_ticks event.event_id }])
    | payload => .error (config.payload_error payload)
  else
    let found := match_triggers config last_triggered event
    .ok (found.filterMap Sum.getLeft?, found.filterMap Sum.getRight?)

/-- What is known of an activation: whom it is for, what it is about, and the key
it is coalesced by. -/
structure WorkItem.MatchOf (config : ContinuousConfig) (event : RuntimeEvent) (item : WorkItem) :
    Prop where
  agent_known : item.agent ∈ config.agents
  event_eq : item.event = event
  key_eq : item.coalesce_key = (item.trigger, event.subject)

variable {last_triggered : String × String → Option ℤ} {event : RuntimeEvent}
  {found : ContinuousIssue ⊕ WorkItem}

/-- One trigger makes a match of its event or an issue about its cooldown. -/
theorem match_trigger_cases {agent : RuntimeAgent} {trigger : Trigger}
    (h : match_trigger last_triggered event agent trigger = some found) :
    (∃ issue, found = .inl issue ∧ issue.code = .cooldown) ∨
      ∃ item, found = .inr item ∧ item.agent = agent ∧ item.event = event ∧
        item.coalesce_key = (item.trigger, event.subject) := by
  unfold match_trigger at h
  split at h
  · cases h
  · cases h
  · split at h
    · cases h
    split at h
    · cases h
      exact .inl ⟨_, rfl, rfl⟩
    · cases h
      exact .inr ⟨_, rfl, rfl, rfl, rfl⟩

theorem mem_match_triggers {config : ContinuousConfig}
    (h : found ∈ match_triggers config last_triggered event) :
    ∃ agent ∈ config.agents, ∃ trigger ∈ agent.triggers,
      match_trigger last_triggered event agent trigger = some found := by
  obtain ⟨agent, hagent, hfound⟩ := mem_flatMap.mp h
  obtain ⟨trigger, htrigger, hmatch⟩ := mem_filterMap.mp hfound
  exact ⟨agent, hagent, trigger, htrigger, hmatch⟩

section

variable {config : ContinuousConfig} {last_triggered : String × String → Option ℤ}
  {scheduled_ticks : String → Option ℚ} {event : RuntimeEvent} {issues : List ContinuousIssue}
  {items : List WorkItem}

section

variable (h : event_matches config last_triggered scheduled_ticks event = .ok (issues, items))
include h

/-- A manual intent and an elapsed interval give at most one activation and no
issue; any other event gives what the triggers make of it. -/
theorem event_matches_cases :
    (issues = [] ∧ ∀ item ∈ items, item.MatchOf config event) ∨
      (issues = (match_triggers config last_triggered event).filterMap Sum.getLeft? ∧
        items = (match_triggers config last_triggered event).filterMap Sum.getRight?) := by
  -- the two branches that name their agent end in the same two ways
  have hnone : ([], []) = (issues, items) → issues = [] ∧ ∀ item ∈ items, item.MatchOf config event :=
    fun heq => by
      cases heq
      exact ⟨rfl, fun _ hitem => by cases hitem⟩
  have hone : ∀ found : WorkItem, found.MatchOf config event → ([], [found]) = (issues, items) →
      issues = [] ∧ ∀ item ∈ items, item.MatchOf config event := fun found hfound heq => by
    cases heq
    exact ⟨rfl, fun item hitem => mem_singleton.mp hitem ▸ hfound⟩
  unfold event_matches at h
  split at h
  · split at h
    · split at h
      · cases h
      rename_i agent hagent
      have hknown := (ContinuousConfig.agent_some hagent).1
      split at h
      · exact .inl (hnone (Except.ok.inj h))
      · exact .inl (hone _ ⟨hknown, rfl, rfl⟩ (Except.ok.inj h))
    · cases h
  split at h
  · split at h
    · split at h
      · cases h
      rename_i agent hagent
      have hknown := (ContinuousConfig.agent_some hagent).1
      split at h
      · exact .inl (hnone (Except.ok.inj h))
      · exact .inl (hone _ ⟨hknown, rfl, rfl⟩ (Except.ok.inj h))
    · cases h
  · cases h
    exact .inr ⟨rfl, rfl⟩

/-- Every activation is a match of the event with an agent of the plan. -/
theorem event_matches_items : ∀ item ∈ items, item.MatchOf config event := by
  rcases event_matches_cases h with ⟨_, hitems⟩ | ⟨_, rfl⟩
  · exact hitems
  intro item hitem
  obtain ⟨found, hfound, hright⟩ := mem_filterMap.mp hitem
  obtain ⟨agent, hagent, trigger, _, hmatch⟩ := mem_match_triggers hfound
  rcases match_trigger_cases hmatch with ⟨issue, rfl, _⟩ | ⟨item', rfl, hitem', hevent, hkey⟩
  · cases hright
  · cases hright
    exact ⟨hitem' ▸ hagent, hevent, hkey⟩

/-- Matching reports nothing but cooldowns. -/
theorem event_matches_issues : ∀ issue ∈ issues, issue.code = .cooldown := by
  rcases event_matches_cases h with ⟨rfl, _⟩ | ⟨rfl, _⟩
  · intro issue hissue
    cases hissue
  intro issue hissue
  obtain ⟨found, hfound, hleft⟩ := mem_filterMap.mp hissue
  obtain ⟨agent, _, trigger, _, hmatch⟩ := mem_match_triggers hfound
  rcases match_trigger_cases hmatch with ⟨issue', rfl, hcode⟩ | ⟨item, rfl, _⟩
  · cases hleft
    exact hcode
  · cases hleft

end

end

end MininetAi
