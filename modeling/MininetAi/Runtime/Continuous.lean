/-
The continuous runtime (`ContinuousAgentRuntime` in
`mininet_ai/runtime/continuous.py`): its queues, its threads and its shutdown.

Publishers and interval threads put events on the bus. The dispatcher matches them
and puts the activations into the queues of the executing agents; workers take them
out and process them, themselves or, under a budgeted coordinator, in the pool of
request threads. `stop` closes the stages one after the other. A section is what
one thread does between two points where another can act: the queues and what goes
with them change under `_condition`, the lifecycle and `_drain` under
`_lifecycle_lock`, the bus under its own lock.

The model begins when `start` has returned. What the supervisor and the coordinator
do is the environment's: a wait ends or raises at any time, an invocation ends at
any time with any result or exception. Listeners return, and nobody but `stop`
closes the bus or the coordinator.
-/
import MininetAi.Lib.Transition
import MininetAi.Runtime.Triggers
import MininetAi.Sdk.Contracts

set_option autoImplicit false

namespace MininetAi

/-! ## State -/

inductive ContinuousRuntimeState where
  | running
  | stopping
  | stopped
  deriving DecidableEq

/-- `_counts`. -/
structure ContinuousCounts where
  received : ℕ := 0
  matched : ℕ := 0
  enqueued : ℕ := 0
  coalesced : ℕ := 0
  dropped : ℕ := 0
  rejected : ℕ := 0
  completed : ℕ := 0
  failed : ℕ := 0
  deriving DecidableEq

/-- A `ContinuousInvocationRecord`, with the status of its result. -/
structure InvocationRecord where
  event_id : String
  agent_id : String
  trigger : String
  status : InvocationStatus
  deriving DecidableEq

/-- How `supervisor.execute` ended: with a completion, or with an exception. -/
inductive ProcessOutcome where
  | completed (status : InvocationStatus)
  | raised (text : String)
  deriving DecidableEq

/-- A call of `publish` that has not returned. `interval` is the interval thread it
is made by, `checked` says that the runtime was running. -/
structure Publication where
  event : RuntimeEvent
  interval : Option ℕ
  checked : Bool := false

inductive IntervalPhase where
  | waiting
  | publishing
  | returned
  deriving DecidableEq

/-- An interval thread, with the sequence of its next event. -/
structure IntervalThread where
  agent_id : String
  trigger : String
  sequence : ℕ := 0
  phase : IntervalPhase := .waiting

/-- Where the dispatcher is: what it still has to enqueue is `enqueueing`. -/
inductive DispatcherPhase where
  | receiving
  | received (event : RuntimeEvent)
  | enqueueing (items : List WorkItem)
  | returned

/-- Where a worker is. `closing` to `submitting` are phases of a coordinated
worker. -/
inductive WorkerPhase where
  | waiting
  /-- It waits for `_workers_closed` during a stop that does not drain. -/
  | closing
  /-- It is in `wait_until_running`. -/
  | supervised
  /-- `wait_until_running` has raised. -/
  | refused
  | acquiring
  | reserving
  | reserved
  | submitting (item : WorkItem)
  | processing (item : WorkItem)
  /-- The issue of the failed invocation is recorded, the counter not yet. -/
  | failing (item : WorkItem)
  | processed (item : WorkItem)
  | returned

structure Worker where
  agent_id : String
  phase : WorkerPhase := .waiting

/-- Where a request thread is, from `submit` to the end. -/
inductive RequestPhase where
  | processing
  | failing
  | processed
  | released
  | finished
  deriving DecidableEq

/-- A call of `_process_coordinated_item`. -/
structure Request where
  item : WorkItem
  phase : RequestPhase := .processing

/-- Where a call of `stop` is. -/
inductive StopPhase where
  | waking
  | joining_intervals
  | closing_bus
  | joining_dispatcher
  | joining_workers (n : ℕ)
  | awaiting_requests
  | shutting_down
  | finishing
  | returned
  | raised
  deriving DecidableEq

/-- A call of `stop` with its argument. -/
structure StopCall where
  drain : Bool
  phase : StopPhase
  deriving DecidableEq

/-- What became of an activation in the end. -/
inductive Fate where
  | processed (outcome : ProcessOutcome)
  /-- It was overwritten in its queue. -/
  | replaced (new_item : WorkItem)
  /-- A bounded tick was dropped while these were queued or in flight. -/
  | coalesced (present : List WorkItem)
  | rejected
  | dropped_oldest
  | dropped_on_stop

/-- What became of an event. -/
inductive EventFate where
  | dispatched
  | dropped
  deriving DecidableEq

/-- The runtime and its threads. The last four fields are bookkeeping: what the bus
accepted, what became of the events the dispatcher is done with, all activations
matched, and what became of those. -/
structure ContinuousState where
  lifecycle : ContinuousRuntimeState := .running
  drain : Bool := true
  bus : EventBus
  publications : List Publication := []
  intervals : List IntervalThread
  interval_stop : Bool := false
  scheduled_ticks : String → Option ℚ := fun _ => none
  dispatcher : DispatcherPhase := .receiving
  last_sequences : String → Option ℕ := fun _ => none
  last_triggered : String × String → Option ℤ := fun _ => none
  queues : String → List WorkItem := fun _ => []
  queued : ℤ := 0
  workers_closed : Bool := false
  bounded_active : Finset String := ∅
  workers : List Worker
  requests : List Request := []
  active_requests : ℤ := 0
  request_slots : ℕ
  counts : ContinuousCounts := {}
  invocations : List InvocationRecord := []
  issues : List ContinuousIssue := []
  stops : List StopCall := []
  accepted : List RuntimeEvent := []
  handled : List (RuntimeEvent × EventFate) := []
  activations : List WorkItem := []
  fates : List (WorkItem × Fate) := []

/-- The item a worker holds: taken from its queue and not yet processed. -/
def Worker.held (w : Worker) : Option WorkItem :=
  match w.phase with
  | .submitting item | .processing item => some item
  | _ => none

/-- The item a request thread has still to process. -/
def Request.held (r : Request) : Option WorkItem :=
  if r.phase = .processing then some r.item else none

/-- What the dispatcher has matched and not yet enqueued. -/
def DispatcherPhase.pending : DispatcherPhase → List WorkItem
  | .enqueueing items => items
  | _ => []

/-- The item a worker is concerned with: from taking it out of its queue to the end of
its section. -/
def Worker.handles (w : Worker) : Option WorkItem :=
  match w.phase with
  | .submitting item | .processing item | .failing item | .processed item => some item
  | _ => none

/-- The item a request thread is concerned with. -/
def Request.handles (r : Request) : Option WorkItem :=
  if r.phase = .finished then none else some r.item

/-- The activations in flight. -/
def ContinuousState.in_flight (s : ContinuousState) : List WorkItem :=
  s.workers.filterMap Worker.held ++ s.requests.filterMap Request.held

/-- The activations in flight, and those whose threads have not forgotten them. -/
def ContinuousState.handling (s : ContinuousState) : List WorkItem :=
  s.workers.filterMap Worker.handles ++ s.requests.filterMap Request.handles

/-! ## Start -/

/-- The workers `start` makes for an agent. -/
def start_workers (config : ContinuousConfig) (agent : RuntimeAgent) : List Worker :=
  let worker_count := if config.budgeted then 1 else agent.execution.max_concurrency
  List.replicate worker_count { agent_id := agent.id }

/-- The interval threads `start` makes for an agent. -/
def start_intervals (agent : RuntimeAgent) : List IntervalThread :=
  agent.triggers.filterMap fun
    | .interval name => some { agent_id := agent.id, trigger := name }
    | _ => none

/-- The state `start` leaves, with a bus of the given capacity. -/
def ContinuousState.started (config : ContinuousConfig) (capacity : ℕ) : ContinuousState where
  bus := { capacity := capacity }
  intervals := config.agents.flatMap start_intervals
  workers := config.agents.flatMap (start_workers config)
  request_slots := config.request_capacity

namespace ContinuousState

/-! ## Reports -/

def issue (s : ContinuousState) (issue : ContinuousIssue) (dropped rejected : Bool) :
    ContinuousState :=
  { s with
    issues := s.issues ++ [issue]
    counts := { s.counts with
      dropped := s.counts.dropped + dropped.toNat
      rejected := s.counts.rejected + rejected.toNat } }

/-- An activation comes to its end. -/
def settle (s : ContinuousState) (item : WorkItem) (fate : Fate) : ContinuousState :=
  { s with fates := s.fates ++ [(item, fate)] }

/-- The dispatcher is done with an event. -/
def handle (s : ContinuousState) (event : RuntimeEvent) (fate : EventFate) : ContinuousState :=
  { s with handled := s.handled ++ [(event, fate)] }

/-! ## Queues -/

/-- `queue.popleft()` and the counter. -/
def pop (s : ContinuousState) (id : String) (rest : List WorkItem) : ContinuousState :=
  { s with queues := Function.update s.queues id rest, queued := s.queued - 1 }

theorem pop_queues (s : ContinuousState) (id : String) (rest : List WorkItem) :
    (s.pop id rest).queues id = rest := by
  simp only [pop, Function.update_self]

variable {id : String} {s : ContinuousState} {item : WorkItem} {config : ContinuousConfig}

theorem pop_queues_of_ne (s : ContinuousState) {other : String} (h : other ≠ id)
    (rest : List WorkItem) : (s.pop id rest).queues other = s.queues other := by
  simp only [pop, Function.update_of_ne h]

/-- The end of `_enqueue`. -/
def append (s : ContinuousState) (id : String) (item : WorkItem) : ContinuousState :=
  { s with
    queues := Function.update s.queues id (s.queues id ++ [item])
    queued := s.queued + 1
    last_triggered := Function.update s.last_triggered (item.agent.id, item.trigger)
      (some item.event.observed_at)
    counts := { s.counts with enqueued := s.counts.enqueued + 1 } }

/-- `queue[index] = item`. -/
def replace (s : ContinuousState) (id : String) (index : ℕ) (item : WorkItem) : ContinuousState :=
  { s with
    queues := Function.update s.queues id ((s.queues id).set index item)
    counts := { s.counts with coalesced := s.counts.coalesced + 1 }
    last_triggered := Function.update s.last_triggered (item.agent.id, item.trigger)
      (some item.event.observed_at) }

/-- The index of the first queued activation with the key of `item`. -/
def coalesce_index (s : ContinuousState) (id : String) (item : WorkItem) : Option ℕ :=
  (s.queues id).findIdx? fun queued => queued.coalesce_key = item.coalesce_key

/-- The branch of `_enqueue` that drops a bounded tick. -/
def coalesce_tick (s : ContinuousState) (id : String) (item : WorkItem) : ContinuousState :=
  (({ s with counts := { s.counts with coalesced := s.counts.coalesced + 1 } } :
      ContinuousState).issue
    (item.issue .tick_coalesced
      "bounded decision tick was dropped while an earlier tick was queued or in flight")
    true false).settle item (.coalesced (s.queues id ++ s.handling))

/-- The branch of `_enqueue` that replaces the oldest activation. -/
def drop_oldest (s : ContinuousState) (id : String) (dropped : WorkItem) (rest : List WorkItem) :
    ContinuousState :=
  ((s.pop id rest).issue
    (dropped.issue .drop_oldest "oldest queued invocation was replaced")
    true false).settle dropped .dropped_oldest

/-- The branch of `_enqueue` that finds the queue full. -/
def reject (s : ContinuousState) (item : WorkItem) : ContinuousState :=
  (s.issue (item.issue .queue_full "agent invocation queue is full") false true).settle item
    .rejected

/-- `_enqueue` from the lock on. -/
def enqueue_at (config : ContinuousConfig) (s : ContinuousState) (id : String)
    (execution : ExecutionConfiguration) (item : WorkItem) : ContinuousState :=
  if item.bounded_tick ∧ (id ∈ s.bounded_active ∨ (s.queues id).length ≠ 0) then
    s.coalesce_tick id item
  else
    match (if execution.overflow = .coalesce then s.coalesce_index id item else none) with
    | some index =>
      match (s.queues id)[index]? with
      | some old => (s.replace id index item).settle old (.replaced item)
      | none => s
    | none =>
      let at_agent_limit := execution.queue_capacity ≤ (s.queues id).length
      let at_global_limit := (config.max_queued_events : ℤ) ≤ s.queued
      if at_agent_limit ∨ at_global_limit then
        match execution.overflow, s.queues id with
        | .drop_oldest, dropped :: rest => (s.drop_oldest id dropped rest).append id item
        | _, _ => s.reject item
      else s.append id item

/-- `_enqueue`; `none` is the `KeyError` of an agent that is not in the plan. -/
def enqueue (config : ContinuousConfig) (s : ContinuousState) (item : WorkItem) :
    Option ContinuousState :=
  let execution_agent_id := config.execution_agent_id item.agent.id
  (config.agent execution_agent_id).map fun agent =>
    s.enqueue_at config execution_agent_id agent.execution item

/-- The execution agent is free for a bounded tick. -/
def TickIdle (s : ContinuousState) (id : String) (item : WorkItem) : Prop :=
  item.bounded_tick = true → id ∉ s.bounded_active ∧ s.queues id = []

/-- `_enqueue` does not coalesce the activation. -/
structure Uncoalesced (s : ContinuousState) (id : String) (execution : ExecutionConfiguration)
    (item : WorkItem) : Prop where
  idle : TickIdle s id item
  fresh : execution.overflow = .coalesce →
    ∀ queued ∈ s.queues id, queued.coalesce_key ≠ item.coalesce_key

/-- The five ways `_enqueue` ends. -/
inductive Enqueued (config : ContinuousConfig) (s : ContinuousState) (id : String)
    (execution : ExecutionConfiguration) (item : WorkItem) : ContinuousState → Prop
  | tick_coalesced (htick : item.bounded_tick = true)
      (hbusy : id ∈ s.bounded_active ∨ s.queues id ≠ []) :
      Enqueued config s id execution item (s.coalesce_tick id item)
  | replaced {index : ℕ} {old : WorkItem} (hpolicy : execution.overflow = .coalesce)
      (hold : (s.queues id)[index]? = some old) (hkey : old.coalesce_key = item.coalesce_key)
      (hfirst : ∀ j < index, ∀ queued, (s.queues id)[j]? = some queued →
        queued.coalesce_key ≠ item.coalesce_key) (hidle : TickIdle s id item) :
      Enqueued config s id execution item
        ((s.replace id index item).settle old (.replaced item))
  | oldest_dropped {dropped : WorkItem} {rest : List WorkItem}
      (hpolicy : execution.overflow = .drop_oldest) (hqueue : s.queues id = dropped :: rest)
      (hfull : execution.queue_capacity ≤ (s.queues id).length ∨
        (config.max_queued_events : ℤ) ≤ s.queued)
      (hplain : Uncoalesced s id execution item) :
      Enqueued config s id execution item ((s.drop_oldest id dropped rest).append id item)
  | rejected
      (hfull : execution.queue_capacity ≤ (s.queues id).length ∨
        (config.max_queued_events : ℤ) ≤ s.queued)
      (hplain : Uncoalesced s id execution item) :
      Enqueued config s id execution item (s.reject item)
  | appended (hroom : (s.queues id).length < execution.queue_capacity)
      (hglobal : s.queued < config.max_queued_events)
      (hplain : Uncoalesced s id execution item) :
      Enqueued config s id execution item (s.append id item)

/-- The index `_enqueue` overwrites is the first one with the key. -/
theorem coalesce_index_some {index : ℕ} (h : s.coalesce_index id item = some index) :
    ∃ old, (s.queues id)[index]? = some old ∧ old.coalesce_key = item.coalesce_key ∧
      ∀ j < index, ∀ queued, (s.queues id)[j]? = some queued →
        queued.coalesce_key ≠ item.coalesce_key := by
  obtain ⟨hlt, hkey, hbefore⟩ := List.findIdx?_eq_some_iff_getElem.mp h
  refine ⟨(s.queues id)[index], List.getElem?_eq_getElem hlt, of_decide_eq_true hkey, ?_⟩
  intro j hj queued hqueued
  obtain ⟨hjlt, rfl⟩ := List.getElem?_eq_some_iff.mp hqueued
  have hfalse := hbefore j hj
  simpa using hfalse

theorem coalesce_index_none (h : s.coalesce_index id item = none) :
    ∀ queued ∈ s.queues id, queued.coalesce_key ≠ item.coalesce_key := by
  intro queued hqueued
  have hfalse := List.findIdx?_eq_none_iff.mp h queued hqueued
  simpa using hfalse

theorem enqueue_at_cases (config : ContinuousConfig) (s : ContinuousState) (id : String)
    (execution : ExecutionConfiguration) (item : WorkItem) :
    Enqueued config s id execution item (s.enqueue_at config id execution item) := by
  unfold enqueue_at
  split
  · rename_i htick
    refine .tick_coalesced htick.1 (htick.2.imp_right fun hlength hnil => hlength ?_)
    rw [hnil, List.length_nil]
  rename_i hbusy
  have hidle : TickIdle s id item := by
    intro htick
    rw [not_and, not_or, not_not, List.length_eq_zero_iff] at hbusy
    exact hbusy htick
  split
  · rename_i index hindex
    rw [Option.ite_none_right_eq_some] at hindex
    obtain ⟨old, hold, hkey, hfirst⟩ := coalesce_index_some hindex.2
    rw [hold]
    exact .replaced hindex.1 hold hkey hfirst hidle
  · rename_i hindex
    have hplain : Uncoalesced s id execution item := by
      refine ⟨hidle, fun hpolicy => coalesce_index_none ?_⟩
      rwa [if_pos hpolicy] at hindex
    dsimp only
    split
    · rename_i hfull
      split
      · rename_i dropped rest hpolicy hqueue
        exact .oldest_dropped hpolicy hqueue hfull hplain
      · exact .rejected hfull hplain
    · rename_i hroom
      rw [not_or, not_le, not_le] at hroom
      exact .appended hroom.1 hroom.2 hplain

/-- `_enqueue` gets as far as the lock for every agent of the plan. -/
theorem enqueue_defined (s : ContinuousState) (h : item.agent ∈ config.agents) :
    ∃ s', s.enqueue config item = some s' := by
  have hid : item.agent.id ∈ config.ids := ContinuousConfig.mem_ids.mpr ⟨item.agent, h, rfl⟩
  obtain ⟨agent, hagent⟩ :=
    ContinuousConfig.agent_isSome (ContinuousConfig.execution_agent_known hid)
  exact ⟨_, Option.map_eq_some_iff.mpr ⟨agent, hagent, rfl⟩⟩

theorem enqueue_cases {s' : ContinuousState} (h : s.enqueue config item = some s') :
    ∃ agent, config.agent (config.execution_agent_id item.agent.id) = some agent ∧
      Enqueued config s (config.execution_agent_id item.agent.id) agent.execution item s' := by
  obtain ⟨agent, hagent, rfl⟩ := Option.map_eq_some_iff.mp h
  exact ⟨agent, hagent, enqueue_at_cases config s _ agent.execution item⟩

/-! ## The dispatcher -/

/-- `_dispatch` up to the loop that enqueues. -/
def dispatch (config : ContinuousConfig) (s : ContinuousState) (event : RuntimeEvent) :
    ContinuousState :=
  let s := { s with counts := { s.counts with received := s.counts.received + 1 } }
  if ¬ in_order (s.last_sequences event.source) event.sequence then
    { s.issue
        { code := .out_of_order
          message := "source sequence " ++ toString event.sequence ++ " did not follow " ++
            toString ((s.last_sequences event.source).getD 0)
          event_id := some event.event_id } false true with
      dispatcher := .receiving }
  else
    let s := { s with last_sequences := record_sequence s.last_sequences event }
    match event_matches config s.last_triggered s.scheduled_ticks event with
    | .error text =>
      { s.issue
          { code := .payload_invalid, message := text, event_id := some event.event_id }
          false true with
        dispatcher := .receiving }
    | .ok (cooldowns, items) =>
      { s with
        issues := s.issues ++ cooldowns
        counts := { s.counts with matched := s.counts.matched + items.length }
        activations := s.activations ++ items
        dispatcher := .enqueueing items }

/-- The event of the dispatcher during a stop that does not drain. -/
def drop_event (s : ContinuousState) (event : RuntimeEvent) : ContinuousState :=
  s.issue
    { code := .dropped_on_stop
      message := "event dropped during non-draining stop"
      event_id := some event.event_id }
    true false

/-- The inner loop of the `finally` section of `_dispatch_loop`. -/
def drop_items (s : ContinuousState) (id : String) : List WorkItem → ContinuousState
  | [] => s
  | item :: rest =>
    drop_items
      (((s.pop id rest).issue
        (item.issue .dropped_on_stop "queued invocation dropped during stop")
        true false).settle item .dropped_on_stop)
      id rest

/-- The outer loop. -/
def drop_queues (s : ContinuousState) : List String → ContinuousState
  | [] => s
  | id :: ids => drop_queues (s.drop_items id (s.queues id)) ids

/-- The `finally` section of `_dispatch_loop`. -/
def close_workers (config : ContinuousConfig) (s : ContinuousState) : ContinuousState :=
  let s := if s.drain then s else s.drop_queues (config.agents.map RuntimeAgent.id)
  { s with workers_closed := true, dispatcher := .returned }

/-- The next section of the dispatcher. -/
def dispatcher_section (config : ContinuousConfig) (s : ContinuousState) : Option ContinuousState :=
  match s.dispatcher with
  | .receiving => match s.bus.receive with
    | some (event, bus) => some { s with bus := bus, dispatcher := .received event }
    | none => if s.bus.closed then some (s.close_workers config) else none
  | .received event =>
    if s.drain then some ((s.dispatch config event).handle event .dispatched)
    else some { (s.drop_event event).handle event .dropped with dispatcher := .receiving }
  | .enqueueing [] => some { s with dispatcher := .receiving }
  | .enqueueing (item :: items) =>
    (s.enqueue config item).map fun s => { s with dispatcher := .enqueueing items }
  | .returned => none

/-! ## Processing -/

/-- The end of `_process_item`: what it appends to the report. -/
def record (s : ContinuousState) (item : WorkItem) : ProcessOutcome → ContinuousState
  | .completed status =>
    { s with
      invocations := s.invocations ++
        [{ event_id := item.event.event_id
           agent_id := item.agent.id
           trigger := item.trigger
           status := status }]
      counts := { s.counts with
        completed := s.counts.completed + 1
        failed := s.counts.failed + (decide (status ≠ .succeeded)).toNat } }
  | .raised text => s.issue (item.issue .invocation_failed text) false false

/-- `self._counts["failed"] += 1` after an exception. -/
def count_failure (s : ContinuousState) : ContinuousState :=
  { s with counts := { s.counts with failed := s.counts.failed + 1 } }

/-- `_bounded_active.add`, for a bounded tick. -/
def mark (s : ContinuousState) (id : String) (item : WorkItem) : ContinuousState :=
  if item.bounded_tick then { s with bounded_active := insert id s.bounded_active } else s

/-- `_bounded_active.discard`, for a bounded tick. -/
def unmark (s : ContinuousState) (id : String) (item : WorkItem) : ContinuousState :=
  if item.bounded_tick then { s with bounded_active := s.bounded_active.erase id } else s

/-- The next section of a worker that calls the invoker itself: the shared state
and the worker's phase after it. -/
def plain_section (s : ContinuousState) (w : Worker) (outcome : ProcessOutcome) :
    Option (ContinuousState × WorkerPhase) :=
  match w.phase with
  | .waiting => match s.queues w.agent_id with
    | item :: rest => some ((s.pop w.agent_id rest).mark w.agent_id item, .processing item)
    | [] => if s.workers_closed then some (s, .returned) else none
  | .processing item => match outcome with
    | .completed _ => some ((s.record item outcome).settle item (.processed outcome), .processed item)
    | .raised _ => some ((s.record item outcome).settle item (.processed outcome), .failing item)
  | .failing item => some (s.count_failure, .processed item)
  | .processed item => some (s.unmark w.agent_id item, .waiting)
  | _ => none

/-- The next section of a worker under a budgeted coordinator; `running` says how
`wait_until_running` ends. What it submits is a new request thread. -/
def coordinated_section (s : ContinuousState) (w : Worker) (running : Bool)
    (outcome : ProcessOutcome) : Option (ContinuousState × WorkerPhase) :=
  match w.phase with
  | .waiting =>
    if s.queues w.agent_id = [] ∧ ¬ s.workers_closed then none
    else if ¬ s.drain ∧ s.lifecycle ≠ .running then some (s, .closing)
    else if s.queues w.agent_id = [] then some (s, .returned)
    else some (s, .supervised)
  | .closing => if s.workers_closed then some (s, .returned) else none
  | .supervised => some (s, if running then .acquiring else .refused)
  | .refused => match s.queues w.agent_id with
    | [] => some (s, .waiting)
    | item :: rest => some (s.pop w.agent_id rest, .processing item)
  | .acquiring =>
    if s.request_slots = 0 then none
    else some ({ s with request_slots := s.request_slots - 1 }, .reserving)
  | .reserving => some (s, .reserved)
  | .reserved => match s.queues w.agent_id with
    | [] => some ({ s with request_slots := s.request_slots + 1 }, .waiting)
    | item :: rest =>
      some (({ s.pop w.agent_id rest with active_requests := s.active_requests + 1 } :
        ContinuousState).mark w.agent_id item, .submitting item)
  | .submitting item => some ({ s with requests := s.requests ++ [{ item := item }] }, .waiting)
  | .processing item => match outcome with
    | .completed _ => some ((s.record item outcome).settle item (.processed outcome), .processed item)
    | .raised _ => some ((s.record item outcome).settle item (.processed outcome), .failing item)
  | .failing item => some (s.count_failure, .processed item)
  | .processed _ => some (s, .waiting)
  | .returned => none

/-- The next section of a worker. -/
def worker_section (config : ContinuousConfig) (s : ContinuousState) (w : Worker) (running : Bool)
    (outcome : ProcessOutcome) : Option (ContinuousState × WorkerPhase) :=
  if config.budgeted then s.coordinated_section w running outcome else s.plain_section w outcome

/-- The next section of a request thread. -/
def request_section (config : ContinuousConfig) (s : ContinuousState) (r : Request)
    (outcome : ProcessOutcome) : Option (ContinuousState × RequestPhase) :=
  match r.phase with
  | .processing => match outcome with
    | .completed _ => some ((s.record r.item outcome).settle r.item (.processed outcome), .processed)
    | .raised _ => some ((s.record r.item outcome).settle r.item (.processed outcome), .failing)
  | .failing => some (s.count_failure, .processed)
  | .processed => some ({ s with request_slots := s.request_slots + 1 }, .released)
  | .released =>
    some (({ s with active_requests := s.active_requests - 1 } : ContinuousState).unmark
      (config.execution_agent_id r.item.agent.id) r.item, .finished)
  | .finished => none

/-! ## Producers -/

/-- The event of an interval thread. -/
def interval_event (t : IntervalThread) (event_id : String) (scheduled_at : ℤ) : RuntimeEvent where
  event_id := event_id
  type := RuntimeEventType.interval_elapsed
  source := "interval:" ++ t.agent_id ++ ":" ++ t.trigger
  subject := some t.agent_id
  observed_at := scheduled_at
  sequence := t.sequence
  payload := .interval_elapsed t.agent_id t.trigger scheduled_at

def publish_error_text : PublishError → String
  | .bus message _ => message
  | .sink text => text

/-- A publication is over: its interval thread waits again. -/
def publication_over (s : ContinuousState) (k : ℕ) (p : Publication) : ContinuousState :=
  { s with
    publications := s.publications.eraseIdx k
    intervals := match p.interval with
      | some i => s.intervals.modify i fun t => { t with phase := .waiting }
      | none => s.intervals }

/-- The issue of an interval thread whose publication raised. -/
def publish_failed (s : ContinuousState) (p : Publication) (text : String) : ContinuousState :=
  match p.interval.bind fun i => s.intervals[i]? with
  | some t => s.issue
      { code := .publish_failed
        message := text
        event_id := some p.event.event_id
        agent_id := some t.agent_id
        trigger := some t.trigger } false true
  | none => s

/-- The next section of `publish`: the state check, then the bus. -/
def publish_section (s : ContinuousState) (k : ℕ) (p : Publication) (sink : Option String) :
    ContinuousState :=
  if ¬ p.checked then
    if s.lifecycle = .running then
      { s with publications := s.publications.set k { p with checked := true } }
    else
      (s.publish_failed p "continuous runtime is not accepting events").publication_over k p
  else match s.bus.publish p.event sink with
    | .ok bus =>
      ({ s with bus := bus, accepted := s.accepted ++ [p.event] } :
        ContinuousState).publication_over k p
    | .error e => (s.publish_failed p (publish_error_text e)).publication_over k p

/-! ## Stop -/

/-- The section of `stop` under `_lifecycle_lock`. -/
def begin_stop (s : ContinuousState) (drain : Bool) : ContinuousState :=
  match s.lifecycle with
  | .running =>
    { s with
      lifecycle := .stopping
      drain := drain
      stops := s.stops ++ [{ drain := drain, phase := .waking }] }
  | .stopping => { s with stops := s.stops ++ [{ drain := drain, phase := .waking }] }
  | .stopped => { s with stops := s.stops ++ [{ drain := drain, phase := .returned }] }

/-- A worker thread has ended. -/
def worker_returned (w : Worker) : Bool :=
  match w.phase with
  | .returned => true
  | _ => false

/-- The dispatcher thread has ended. -/
def dispatcher_returned (s : ContinuousState) : Bool :=
  match s.dispatcher with
  | .returned => true
  | _ => false

/-- The next section of a call of `stop`. -/
def stop_section (s : ContinuousState) : StopPhase → Option (ContinuousState × StopPhase)
  | .waking => some ({ s with interval_stop := true }, .joining_intervals)
  | .joining_intervals =>
    if ∀ t ∈ s.intervals, t.phase = .returned then some (s, .closing_bus) else none
  | .closing_bus => some ({ s with bus := s.bus.close }, .joining_dispatcher)
  | .joining_dispatcher =>
    if s.dispatcher_returned then some (s, .joining_workers 0) else none
  | .joining_workers n => match s.workers[n]? with
    | some w => if worker_returned w then some (s, .joining_workers (n + 1)) else none
    | none => some (s, .awaiting_requests)
  | .awaiting_requests => if s.active_requests = 0 then some (s, .shutting_down) else none
  | .shutting_down =>
    if ∀ r ∈ s.requests, r.phase = .finished then some (s, .finishing) else none
  | .finishing => some ({ s with lifecycle := .stopped }, .returned)
  | .returned | .raised => none

end ContinuousState

/-! ## The system -/

/-- The sections of all threads. -/
inductive ContinuousEvent where
  /-- Somebody calls `publish` with an event of this run. -/
  | offer (event : RuntimeEvent)
  /-- An interval thread makes its next event. -/
  | interval (i : ℕ) (event_id : String) (scheduled_at : ℤ) (scheduled_tick : ℚ)
  | interval_return (i : ℕ)
  /-- `sink` is what the sink of the bus raises. -/
  | publish (k : ℕ) (sink : Option String)
  | dispatcher
  | worker (i : ℕ) (running : Bool) (outcome : ProcessOutcome)
  | request (j : ℕ) (outcome : ProcessOutcome)
  | stop (drain : Bool)
  | stop_section (k : ℕ)
  /-- A call of `stop` runs out of time, or `resume_paused` raises. -/
  | stop_raise (k : ℕ)

namespace ContinuousState

/-- One section. -/
def step (config : ContinuousConfig) (s : ContinuousState) : ContinuousEvent → Option ContinuousState
  | .offer event => some { s with publications := s.publications ++ [{ event, interval := none }] }
  | .interval i event_id scheduled_at scheduled_tick => match s.intervals[i]? with
    | some t =>
      if t.phase = .waiting ∧ ¬ s.interval_stop then
        some { s with
          scheduled_ticks := Function.update s.scheduled_ticks event_id (some scheduled_tick)
          publications := s.publications ++
            [{ event := interval_event t event_id scheduled_at, interval := some i }]
          intervals := s.intervals.set i
            { t with phase := .publishing, sequence := t.sequence + 1 } }
      else none
    | none => none
  | .interval_return i => match s.intervals[i]? with
    | some t =>
      if t.phase = .waiting ∧ s.interval_stop then
        some { s with intervals := s.intervals.set i { t with phase := .returned } }
      else none
    | none => none
  | .publish k sink => s.publications[k]?.map fun p => s.publish_section k p sink
  | .dispatcher => s.dispatcher_section config
  | .worker i running outcome => match s.workers[i]? with
    | some w => (s.worker_section config w running outcome).map fun (s', phase) =>
      { s' with workers := s.workers.set i { w with phase := phase } }
    | none => none
  | .request j outcome => match s.requests[j]? with
    | some r => (s.request_section config r outcome).map fun (s', phase) =>
      { s' with requests := s.requests.set j { r with phase := phase } }
    | none => none
  | .stop drain => some (s.begin_stop drain)
  | .stop_section k => match s.stops[k]? with
    | some c => (s.stop_section c.phase).map fun (s', phase) =>
      { s' with stops := s.stops.set k { c with phase := phase } }
    | none => none
  | .stop_raise k => match s.stops[k]? with
    | some c =>
      if c.phase = .returned ∨ c.phase = .raised then none
      else some { s with stops := s.stops.set k { c with phase := .raised } }
    | none => none

end ContinuousState

/-- The runtime from the return of `start` on, with a bus no larger than the plan
allows. -/
def continuous_system (config : ContinuousConfig) : System ContinuousState ContinuousEvent where
  init s := ∃ capacity, 0 < capacity ∧ capacity ≤ config.max_queued_events ∧
    s = .started config capacity
  step := ContinuousState.step config

end MininetAi
