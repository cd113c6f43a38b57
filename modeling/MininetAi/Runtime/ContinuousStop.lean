/-
The shutdown of the continuous runtime.

`stop` closes the stages in their order: the bus, then the dispatcher ends, which
closes the queues, then every worker ends, then every request thread. What makes
this an order is that a stage that has ended stays so (`Persists`) and that it ends
only with nothing left in it: the dispatcher with an empty bus, a worker with an
empty queue that nobody fills any more, and the count of active requests is the
number of request threads that are not finished. A call of `stop` knows what it has
passed (`StopPhase.Reached`), so the last stage is reached in a state with nothing
queued and nothing in flight, and no section can run after it.
-/
import MininetAi.Runtime.ContinuousWork

set_option autoImplicit false

namespace MininetAi

open List

open ContinuousState

variable {config : ContinuousConfig} {s s' : ContinuousState} {e : ContinuousEvent}

/-! ## What does not come back -/

/-- What one section leaves as it was once it has come to its end. -/
structure Persists (s s' : ContinuousState) : Prop where
  closed : s.bus.closed = true → s'.bus.closed = true
  dispatcher : s.dispatcher = .returned → s'.dispatcher = .returned
  workers_length : s'.workers.length = s.workers.length
  worker : ∀ (i : ℕ) (w : Worker), s.workers[i]? = some w → w.phase = .returned →
    s'.workers[i]? = some w
  agents : s'.workers.map Worker.agent_id = s.workers.map Worker.agent_id
  stopping : s.lifecycle ≠ .running → s'.lifecycle ≠ .running
  stopped : s.lifecycle = .stopped → s'.lifecycle = .stopped
  drain : s.lifecycle ≠ .running → s'.drain = s.drain

/-- Sections that touch none of this. -/
theorem Persists.of_eq (hbus : s'.bus.closed = s.bus.closed) (hdispatcher : s'.dispatcher = s.dispatcher)
    (hworkers : s'.workers = s.workers) (hlifecycle : s'.lifecycle = s.lifecycle)
    (hdrain : s'.drain = s.drain) : Persists s s' where
  closed hclosed := by rw [hbus]; exact hclosed
  dispatcher hreturned := by rw [hdispatcher]; exact hreturned
  workers_length := by rw [hworkers]
  worker i w hw _ := by rw [hworkers]; exact hw
  agents := by rw [hworkers]
  stopping hstate := by rw [hlifecycle]; exact hstate
  stopped hstate := by rw [hlifecycle]; exact hstate
  drain _ := hdrain

/-- A section of the dispatcher leaves the workers and the lifecycle alone, and the
dispatcher has not returned before it. -/
structure DispatcherFrame (s s' : ContinuousState) : Prop where
  not_returned : s.dispatcher ≠ .returned
  closed_eq : s'.bus.closed = s.bus.closed
  workers_eq : s'.workers = s.workers
  requests_eq : s'.requests = s.requests
  active_eq : s'.active_requests = s.active_requests
  lifecycle_eq : s'.lifecycle = s.lifecycle
  drain_eq : s'.drain = s.drain
  stops_eq : s'.stops = s.stops
  accepted_eq : s'.accepted = s.accepted

theorem dispatcher_frame (h : DispatcherStep config s s') : DispatcherFrame s s' := by
  cases h with
  | receive hphase hbus =>
    obtain ⟨_, _, hclosed⟩ := EventBus.receive_some hbus
    exact ⟨by rw [hphase]; rintro ⟨⟩, hclosed, rfl, rfl, rfl, rfl, rfl, rfl, rfl⟩
  | close hphase hempty hclosed =>
    obtain ⟨s₁, hdropped, _, _, hs₁⟩ := close_workers_spec config s
    obtain ⟨queues, queued, counts, issues, fates, rfl⟩ := hdropped.frame
    rw [hs₁]
    exact ⟨by rw [hphase]; rintro ⟨⟩, rfl, rfl, rfl, rfl, rfl, rfl, rfl, rfl⟩
  | dispatch hphase hdrain hdispatched =>
    have hnot : s.dispatcher ≠ .returned := by rw [hphase]; rintro ⟨⟩
    cases hdispatched
    · exact ⟨hnot, rfl, rfl, rfl, rfl, rfl, rfl, rfl, rfl⟩
    · exact ⟨hnot, rfl, rfl, rfl, rfl, rfl, rfl, rfl, rfl⟩
  | drop hphase hdrain => exact ⟨by rw [hphase]; rintro ⟨⟩, rfl, rfl, rfl, rfl, rfl, rfl, rfl, rfl⟩
  | @enqueue item items agent s₁ hphase hagent henqueued =>
    have hthreads := henqueued.threads
    have hactive : s₁.active_requests = s.active_requests := henqueued.active_eq
    refine ⟨by rw [hphase]; rintro ⟨⟩, ?_, hthreads.workers_eq, hthreads.requests_eq, hactive,
      hthreads.lifecycle_eq, hthreads.drain_eq, hthreads.stops_eq, hthreads.accepted_eq⟩
    exact congrArg EventBus.closed hthreads.bus_eq
  | all_enqueued hphase =>
    exact ⟨by rw [hphase]; rintro ⟨⟩, rfl, rfl, rfl, rfl, rfl, rfl, rfl, rfl⟩

/-- A publication changes the bus and what the publishers have, and may be reported. -/
structure PublishFrame (s s' : ContinuousState) : Prop where
  closed_eq : s'.bus.closed = s.bus.closed
  dispatcher_eq : s'.dispatcher = s.dispatcher
  workers_eq : s'.workers = s.workers
  requests_eq : s'.requests = s.requests
  active_eq : s'.active_requests = s.active_requests
  lifecycle_eq : s'.lifecycle = s.lifecycle
  drain_eq : s'.drain = s.drain
  stops_eq : s'.stops = s.stops
  queues_eq : s'.queues = s.queues
  workers_closed_eq : s'.workers_closed = s.workers_closed
  fates_eq : s'.fates = s.fates
  handled_eq : s'.handled = s.handled
  invocations_eq : s'.invocations = s.invocations
  activations_eq : s'.activations = s.activations
  bounded_active_eq : s'.bounded_active = s.bounded_active
  scheduled_ticks_eq : s'.scheduled_ticks = s.scheduled_ticks

variable {k : ℕ} {w : Worker} {s₁ : ContinuousState} {phase : WorkerPhase}

theorem publish_frame {p : Publication} (h : PublishStep s k p s') : PublishFrame s s' := by
  cases h with
  | checked => exact ⟨rfl, rfl, rfl, rfl, rfl, rfl, rfl, rfl, rfl, rfl, rfl, rfl, rfl, rfl, rfl, rfl⟩
  | accepted hchecked hbus =>
    obtain ⟨_, _, rfl⟩ := EventBus.publish_ok hbus
    exact ⟨rfl, rfl, rfl, rfl, rfl, rfl, rfl, rfl, rfl, rfl, rfl, rfl, rfl, rfl, rfl, rfl⟩
  | failed text =>
    rcases publish_failed_cases s p text with hsame | ⟨notice, _, hissue⟩
    · rw [hsame]
      exact ⟨rfl, rfl, rfl, rfl, rfl, rfl, rfl, rfl, rfl, rfl, rfl, rfl, rfl, rfl, rfl, rfl⟩
    · rw [hissue]
      exact ⟨rfl, rfl, rfl, rfl, rfl, rfl, rfl, rfl, rfl, rfl, rfl, rfl, rfl, rfl, rfl, rfl⟩

theorem Persists.step (hs : ContinuousStep config s e s') : Persists s s' := by
  cases hs with
  | offer | interval | interval_return | stop_raise => exact .of_eq rfl rfl rfl rfl rfl
  | publish hp hstep =>
    have hframe := publish_frame hstep
    exact .of_eq hframe.closed_eq hframe.dispatcher_eq hframe.workers_eq hframe.lifecycle_eq
      hframe.drain_eq
  | dispatcher hstep =>
    have hframe := dispatcher_frame hstep
    refine ⟨?_, fun hreturned => absurd hreturned hframe.not_returned, ?_, ?_, ?_, ?_, ?_,
      fun _ => hframe.drain_eq⟩
    · rw [hframe.closed_eq]; exact id
    · rw [hframe.workers_eq]
    · rw [hframe.workers_eq]; exact fun i w hw _ => hw
    · rw [hframe.workers_eq]
    · rw [hframe.lifecycle_eq]; exact id
    · rw [hframe.lifecycle_eq]; exact id
  | @worker i running outcome w s₁ phase hw hstep =>
    have hstages := hstep.stages
    refine ⟨?_, ?_, length_set, ?_, ?_, ?_, ?_, fun _ => hstages.drain_eq⟩
    · rw [hstages.bus_eq]; exact id
    · rw [hstages.dispatcher_eq]; exact id
    · intro j w' hw' hreturned
      -- a worker that has returned has no further section
      have hne : i ≠ j := by
        rintro rfl
        rw [hw] at hw'
        cases hw'
        exact hstep.not_returned hreturned
      rw [getElem?_set_ne hne]
      exact hw'
    · exact List.map_set_of_eq Worker.agent_id hw rfl
    · rw [hstages.lifecycle_eq]; exact id
    · rw [hstages.lifecycle_eq]; exact id
  | request hr hstep =>
    have hstages := hstep.threads.toSameStages
    exact .of_eq (congrArg EventBus.closed hstages.bus_eq) hstages.dispatcher_eq
      hstages.workers_eq hstages.lifecycle_eq hstages.drain_eq
  | stop drain =>
    rcases begin_stop_cases s drain with ⟨hstate, heq⟩ | ⟨_, heq⟩ | ⟨_, heq⟩
    · rw [heq]
      exact ⟨id, id, rfl, fun i w hw _ => hw, rfl, fun hne => absurd hstate hne,
        fun hstopped => (by rw [hstate] at hstopped; cases hstopped),
        fun hne => absurd hstate hne⟩
    · rw [heq]
      exact .of_eq rfl rfl rfl rfl rfl
    · rw [heq]
      exact .of_eq rfl rfl rfl rfl rfl
  | @stop_section k c s₁ phase hc hstep =>
    generalize c.phase = before at hstep
    cases hstep with
    | close_bus =>
      exact ⟨fun _ => rfl, id, rfl, fun i w hw _ => hw, rfl, id, id, fun _ => rfl⟩
    | finish =>
      exact ⟨id, id, rfl, fun i w hw _ => hw, rfl, fun _ => (by rintro ⟨⟩), fun _ => rfl,
        fun _ => rfl⟩
    | _ => exact .of_eq rfl rfl rfl rfl rfl

/-! ## The stages -/

/-- The worker has taken an item for a request thread it has not started. -/
def Worker.submits (w : Worker) : Bool :=
  match w.phase with
  | .submitting _ => true
  | _ => false

/-- The request thread counts as active. -/
def Request.active (r : Request) : Bool := r.phase ≠ .finished

/-- Everything but `stop` has ended. -/
structure Quiet (s : ContinuousState) : Prop where
  dispatcher : s.dispatcher = .returned
  workers : ∀ w ∈ s.workers, w.phase = .returned
  active : s.active_requests = 0

/-- What a call of `stop` knows in a phase. -/
def StopPhase.Reached (s : ContinuousState) : StopPhase → Prop
  | .waking | .joining_intervals | .closing_bus | .raised => True
  | .joining_dispatcher => s.bus.closed = true
  | .joining_workers n => s.dispatcher = .returned ∧
      ∀ i < n, ∃ w, s.workers[i]? = some w ∧ w.phase = .returned
  | .awaiting_requests => s.dispatcher = .returned ∧ ∀ w ∈ s.workers, w.phase = .returned
  | .shutting_down | .finishing => Quiet s
  | .returned => s.lifecycle = .stopped

/-- The order of the stages. -/
structure ShutdownOrder (config : ContinuousConfig) (s : ContinuousState) : Prop where
  closed_stopping : s.bus.closed = true → s.lifecycle ≠ .running
  discard_stopping : s.drain = false → s.lifecycle ≠ .running
  closed_iff : s.workers_closed = true ↔ s.dispatcher = .returned
  returned_closed : s.dispatcher = .returned → s.bus.closed = true ∧ s.bus.events = []
  emptied : s.workers_closed = true → s.drain = false → ∀ id ∈ config.ids, s.queues id = []
  closing : ∀ w ∈ s.workers, w.phase = .closing → s.drain = false
  returned : ∀ w ∈ s.workers, w.phase = .returned →
    s.workers_closed = true ∧ s.queues w.agent_id = []
  served : ∀ id ∈ config.ids, id ∈ s.workers.map Worker.agent_id
  active_eq : s.active_requests =
    (s.workers.countP Worker.submits : ℤ) + s.requests.countP Request.active

/-- The calls of `stop`. -/
structure StopInv (s : ContinuousState) : Prop where
  reached : ∀ c ∈ s.stops, c.phase.Reached s
  stopped : s.lifecycle = .stopped → Quiet s
  first : s.lifecycle = .running → s.stops = []
  called : s.lifecycle ≠ .running → s.stops ≠ []
  first_drain : ∀ c, s.stops[0]? = some c → s.drain = c.drain

/-! ## Nothing happens after the last stage -/

/-- The request threads have ended when none is active. -/
theorem ShutdownOrder.requests_finished (h : ShutdownOrder config s) (hquiet : Quiet s) :
    ∀ r ∈ s.requests, r.phase = .finished := by
  have hsubmits : s.workers.countP Worker.submits = 0 := by
    apply countP_eq_zero.mpr
    intro w hw
    simp [Worker.submits, hquiet.workers w hw]
  have hactive := h.active_eq
  rw [hquiet.active, hsubmits] at hactive
  have hnone : s.requests.countP Request.active = 0 := by omega
  intro r hr
  have hr := countP_eq_zero.mp hnone r hr
  simpa [Request.active] using hr

/-- Nothing is in flight then. -/
theorem ShutdownOrder.flight_empty (h : ShutdownOrder config s) (hquiet : Quiet s) : s.in_flight = [] := by
  refine append_eq_nil_iff.mpr ⟨?_, ?_⟩
  · apply filterMap_eq_nil_iff.mpr
    intro w hw
    rw [Worker.held, hquiet.workers w hw]
  · apply filterMap_eq_nil_iff.mpr
    intro r hr
    simp [Request.held, h.requests_finished hquiet r hr]

/-- Nothing is queued then. -/
theorem ShutdownOrder.queues_empty (h : ShutdownOrder config s) (hquiet : Quiet s) :
    ∀ id ∈ config.ids, s.queues id = [] := by
  intro id hid
  obtain ⟨w, hw, rfl⟩ := mem_map.mp (h.served id hid)
  exact (h.returned w hw (hquiet.workers w hw)).2

/-- What a section leaves alone when everything but `stop` has ended. -/
structure Frozen (s s' : ContinuousState) : Prop where
  fates_eq : s'.fates = s.fates
  handled_eq : s'.handled = s.handled
  invocations_eq : s'.invocations = s.invocations
  accepted_eq : s'.accepted = s.accepted
  activations_eq : s'.activations = s.activations
  workers_eq : s'.workers = s.workers
  requests_eq : s'.requests = s.requests
  active_eq : s'.active_requests = s.active_requests
  dispatcher_eq : s'.dispatcher = s.dispatcher

theorem ShutdownOrder.frozen (h : ShutdownOrder config s) (hquiet : Quiet s)
    (hs : ContinuousStep config s e s') : Frozen s s' := by
  cases hs with
  | offer | interval | interval_return | stop_raise =>
    exact ⟨rfl, rfl, rfl, rfl, rfl, rfl, rfl, rfl, rfl⟩
  | @publish k p sink s' hp hstep =>
    have hframe := publish_frame hstep
    refine ⟨hframe.fates_eq, hframe.handled_eq, hframe.invocations_eq, ?_,
      hframe.activations_eq, hframe.workers_eq, hframe.requests_eq, hframe.active_eq,
      hframe.dispatcher_eq⟩
    cases hstep with
    | checked => rfl
    | accepted hchecked hbus =>
      -- the bus is closed
      obtain ⟨hopen, _, _⟩ := EventBus.publish_ok hbus
      rw [(h.returned_closed hquiet.dispatcher).1] at hopen
      cases hopen
    | failed text =>
      rcases publish_failed_cases s p text with hsame | ⟨notice, _, hissue⟩
      · rw [hsame]
        rfl
      · rw [hissue]
        rfl
  | dispatcher hstep => exact absurd hquiet.dispatcher (dispatcher_frame hstep).not_returned
  | worker hw hstep =>
    exact absurd (hquiet.workers _ (mem_of_getElem? hw)) hstep.not_returned
  | @request j outcome r s₁ phase hr hstep =>
    have hfinished := h.requests_finished hquiet r (mem_of_getElem? hr)
    cases hstep with
    | process hphase | count_failure hphase | release hphase | finish hphase =>
      rw [hfinished] at hphase
      cases hphase
  | stop drain =>
    rcases begin_stop_cases s drain with ⟨_, heq⟩ | ⟨_, heq⟩ | ⟨_, heq⟩
    all_goals
      rw [heq]
      exact ⟨rfl, rfl, rfl, rfl, rfl, rfl, rfl, rfl, rfl⟩
  | @stop_section k c s₁ phase hc hstep =>
    generalize c.phase = before at hstep
    cases hstep with
    | _ => exact ⟨rfl, rfl, rfl, rfl, rfl, rfl, rfl, rfl, rfl⟩

theorem ShutdownOrder.quiet_persists (h : ShutdownOrder config s) (hquiet : Quiet s)
    (hs : ContinuousStep config s e s') : Quiet s' := by
  have hfrozen := h.frozen hquiet hs
  refine ⟨?_, ?_, ?_⟩
  · rw [hfrozen.dispatcher_eq]
    exact hquiet.dispatcher
  · rw [hfrozen.workers_eq]
    exact hquiet.workers
  · rw [hfrozen.active_eq]
    exact hquiet.active

/-- What a call of `stop` has passed stays behind it. -/
theorem ShutdownOrder.reached_persists (h : ShutdownOrder config s) (hs : ContinuousStep config s e s')
    {phase : StopPhase} (hreached : phase.Reached s) : phase.Reached s' := by
  have hpersists := Persists.step hs
  cases phase with
  | waking | joining_intervals | closing_bus | raised => trivial
  | joining_dispatcher => exact hpersists.closed hreached
  | joining_workers n =>
    refine ⟨hpersists.dispatcher hreached.1, fun i hi => ?_⟩
    obtain ⟨w, hw, hreturned⟩ := hreached.2 i hi
    exact ⟨w, hpersists.worker i w hw hreturned, hreturned⟩
  | awaiting_requests =>
    refine ⟨hpersists.dispatcher hreached.1, fun w' hw' => ?_⟩
    obtain ⟨i, hi, rfl⟩ := getElem_of_mem hw'
    have hlt : i < s.workers.length := by
      rw [← hpersists.workers_length]
      exact hi
    have hreturned := hreached.2 s.workers[i] (getElem_mem hlt)
    have hsame := hpersists.worker i _ (getElem?_eq_getElem hlt) hreturned
    rw [getElem?_eq_getElem hi] at hsame
    rw [Option.some.inj hsame]
    exact hreturned
  | shutting_down | finishing => exact h.quiet_persists hreached hs
  | returned => exact hpersists.stopped hreached

/-! ## The invariant of the stages -/

/-- Sections that touch nothing the stages are about. -/
theorem ShutdownOrder.of_eq (h : ShutdownOrder config s) (hclosed : s'.bus.closed = s.bus.closed)
    (hevents : s.dispatcher = .returned → s'.bus.events = s.bus.events)
    (hdispatcher : s'.dispatcher = s.dispatcher) (hworkers : s'.workers = s.workers)
    (hrequests : s'.requests = s.requests) (hactive : s'.active_requests = s.active_requests)
    (hlifecycle : s'.lifecycle = s.lifecycle) (hdrain : s'.drain = s.drain)
    (hqueues : s'.queues = s.queues) (hworkers_closed : s'.workers_closed = s.workers_closed) :
    ShutdownOrder config s' where
  closed_stopping := by rw [hclosed, hlifecycle]; exact h.closed_stopping
  discard_stopping := by rw [hdrain, hlifecycle]; exact h.discard_stopping
  closed_iff := by rw [hworkers_closed, hdispatcher]; exact h.closed_iff
  returned_closed := by
    rw [hdispatcher, hclosed]
    intro hreturned
    rw [hevents hreturned]
    exact h.returned_closed hreturned
  emptied := by rw [hworkers_closed, hdrain, hqueues]; exact h.emptied
  closing := by rw [hworkers, hdrain]; exact h.closing
  returned := by rw [hworkers, hworkers_closed, hqueues]; exact h.returned
  served := by rw [hworkers]; exact h.served
  active_eq := by rw [hactive, hworkers, hrequests]; exact h.active_eq

theorem shutdown_order_started (config : ContinuousConfig) (capacity : ℕ) :
    ShutdownOrder config (.started config capacity) := by
  have hworkers : ∀ w ∈ config.agents.flatMap (start_workers config), w.phase = .waiting := by
    intro w hw
    obtain ⟨agent, _, hmem⟩ := mem_flatMap.mp hw
    rw [eq_of_mem_replicate hmem]
  refine ⟨(by rintro ⟨⟩), (by rintro ⟨⟩), ⟨(by rintro ⟨⟩), (by rintro ⟨⟩)⟩, (by rintro ⟨⟩),
    (by rintro ⟨⟩), ?_, ?_, ?_, ?_⟩
  · intro w hw hclosing
    rw [hworkers w hw] at hclosing
    cases hclosing
  · intro w hw hreturned
    rw [hworkers w hw] at hreturned
    cases hreturned
  · intro id hid
    obtain ⟨agent, hagent, rfl⟩ := ContinuousConfig.mem_ids.mp hid
    apply mem_map.mpr
    refine ⟨{ agent_id := agent.id }, mem_flatMap.mpr ⟨agent, hagent, ?_⟩, rfl⟩
    apply mem_replicate.mpr
    refine ⟨?_, rfl⟩
    -- every agent has at least one worker
    have hpos := agent.execution.max_concurrency_pos
    split
    · exact Nat.one_ne_zero
    · omega
  · have hnone : (config.agents.flatMap (start_workers config)).countP Worker.submits = 0 := by
      apply countP_eq_zero.mpr
      intro w hw
      simp [Worker.submits, hworkers w hw]
    simp only [started, hnone, countP_nil]
    rfl

/-- A section of the dispatcher that is not its last. -/
theorem ShutdownOrder.dispatching (h : ShutdownOrder config s) (hframe : DispatcherFrame s s')
    (hafter : s'.dispatcher ≠ .returned) (hclosed : s'.workers_closed = s.workers_closed) :
    ShutdownOrder config s' := by
  have hopen : s.workers_closed ≠ true := fun hc => hframe.not_returned (h.closed_iff.mp hc)
  refine ⟨?_, ?_, ?_, fun hreturned => absurd hreturned hafter, ?_, ?_, ?_, ?_, ?_⟩
  · rw [hframe.closed_eq, hframe.lifecycle_eq]
    exact h.closed_stopping
  · rw [hframe.drain_eq, hframe.lifecycle_eq]
    exact h.discard_stopping
  · rw [hclosed]
    exact ⟨fun hc => absurd hc hopen, fun hreturned => absurd hreturned hafter⟩
  · rw [hclosed]
    exact fun hc => absurd hc hopen
  · rw [hframe.workers_eq, hframe.drain_eq]
    exact h.closing
  · rw [hframe.workers_eq]
    exact fun w hw hreturned => absurd (h.returned w hw hreturned).1 hopen
  · rw [hframe.workers_eq]
    exact h.served
  · rw [hframe.active_eq, hframe.workers_eq, hframe.requests_eq]
    exact h.active_eq

theorem ShutdownOrder.dispatcher (h : ShutdownOrder config s) (hstep : DispatcherStep config s s') :
    ShutdownOrder config s' := by
  have hframe := dispatcher_frame hstep
  cases hstep with
  | receive hphase hbus => exact h.dispatching hframe (by rintro ⟨⟩) rfl
  | close hphase hempty hclosed =>
    have hevents : s.bus.events = [] := by
      unfold EventBus.receive at hempty
      split at hempty
      · assumption
      · cases hempty
    obtain ⟨s₁, hdropped, hemptied, hsame, hs₁⟩ := close_workers_spec config s
    have hqueues := hdropped.queues_eq
    have hopen : s.workers_closed ≠ true := fun hc => hframe.not_returned (h.closed_iff.mp hc)
    rw [hs₁]
    obtain ⟨queues, queued, counts, issues, fates, rfl⟩ := hdropped.frame
    refine ⟨h.closed_stopping, h.discard_stopping, ⟨fun _ => rfl, fun _ => rfl⟩,
      fun _ => ⟨hclosed, hevents⟩, fun _ => hemptied, h.closing, ?_, h.served, h.active_eq⟩
    exact fun w hw hreturned => absurd (h.returned w hw hreturned).1 hopen
  | @dispatch event s₁ hphase hdrain hdispatched =>
    apply h.dispatching hframe
    · cases hdispatched
      · rintro ⟨⟩
      · rintro ⟨⟩
    · cases hdispatched
      · rfl
      · rfl
  | drop hphase hdrain => exact h.dispatching hframe (by rintro ⟨⟩) rfl
  | enqueue hphase hagent henqueued =>
    exact h.dispatching hframe (by rintro ⟨⟩) henqueued.threads.workers_closed_eq
  | all_enqueued hphase => exact h.dispatching hframe (by rintro ⟨⟩) rfl

/-- How the count of active requests moves with a worker. -/
theorem worker_active (hstep : WorkerStep config s w s₁ phase) :
    s₁.active_requests - s₁.requests.countP Request.active + w.submits.toNat =
      s.active_requests - s.requests.countP Request.active +
        (Worker.submits { w with phase := phase }).toNat := by
  cases hstep with
  | @take item rest hconf hphase hqueue =>
    unfold mark
    split
    · simp only [Worker.submits, hphase, pop]
    · simp only [Worker.submits, hphase, pop]
  | @reserved_take item rest hconf hphase hqueue =>
    unfold mark
    split
    · simp only [Worker.submits, hphase, pop, Bool.toNat_true, Bool.toNat_false]
      omega
    · simp only [Worker.submits, hphase, pop, Bool.toNat_true, Bool.toNat_false]
      omega
  | @submit item hconf hphase =>
    have hnew : (s.requests ++ [({ item := item } : Request)]).countP Request.active =
        s.requests.countP Request.active + 1 := by
      rw [countP_append]
      rfl
    simp only [Worker.submits, hphase, hnew, Bool.toNat_true, Bool.toNat_false]
    omega
  | @process item outcome phase hphase hafter =>
    have hnone : Worker.submits { w with phase := phase } = false := by
      rcases hafter with rfl | rfl
      · rfl
      · rfl
    rw [hnone]
    cases outcome
    · simp only [Worker.submits, hphase, record, settle]
    · simp only [Worker.submits, hphase, record, settle,
        ContinuousState.issue]
  | unmark hconf hphase =>
    unfold unmark
    split
    · simp only [Worker.submits, hphase]
    · simp only [Worker.submits, hphase]
  | advance hconf hphases =>
    rcases hphases with ⟨hphase, rfl⟩ | ⟨hphase, rfl | rfl⟩ | ⟨hphase, rfl⟩ | ⟨hphase, rfl⟩ |
      ⟨item, hphase, rfl⟩
    all_goals simp only [Worker.submits, hphase]
  | count_failure hphase | return_empty hphase | close hphase | return_closed hphase =>
    simp only [Worker.submits, hphase, ContinuousState.count_failure]
  | refused_take _ hphase =>
    simp only [Worker.submits, hphase, pop]
  | acquire _ hphase | reserved_empty _ hphase =>
    simp only [Worker.submits, hphase]

theorem ShutdownOrder.worker (h : ShutdownOrder config s) (hknown : ∀ w ∈ s.workers, w.agent_id ∈ config.ids)
    {i : ℕ} {w : Worker} {s₁ : ContinuousState} {phase : WorkerPhase}
    (hw : s.workers[i]? = some w) (hstep : WorkerStep config s w s₁ phase) :
    ShutdownOrder config { s₁ with workers := s.workers.set i { w with phase := phase } } := by
  have hmem := mem_of_getElem? hw
  have hstages := hstep.stages
  refine ⟨?_, ?_, ?_, ?_, ?_, ?_, ?_, ?_, ?_⟩
  · simp only [hstages.bus_eq, hstages.lifecycle_eq]
    exact h.closed_stopping
  · simp only [hstages.drain_eq, hstages.lifecycle_eq]
    exact h.discard_stopping
  · simp only [hstages.workers_closed_eq, hstages.dispatcher_eq]
    exact h.closed_iff
  · simp only [hstages.dispatcher_eq, hstages.bus_eq]
    exact h.returned_closed
  · simp only [hstages.workers_closed_eq, hstages.drain_eq]
    intro hclosed hdrain id hid
    exact hstep.queues_nil (h.emptied hclosed hdrain id hid)
  · simp only [hstages.drain_eq]
    intro w' hw' hclosing
    rcases mem_or_eq_of_mem_set hw' with hold | rfl
    · exact h.closing w' hold hclosing
    · cases hstep with
      | close hphase hdrain hstate => exact hdrain
      | process hphase hafter =>
        rcases hafter with rfl | rfl
        · cases hclosing
        · cases hclosing
      | advance hconf hphases =>
        rcases hphases with ⟨_, rfl⟩ | ⟨_, rfl | rfl⟩ | ⟨_, rfl⟩ | ⟨_, rfl⟩ | ⟨_, _, rfl⟩
        all_goals cases hclosing
      | _ => cases hclosing
  · simp only [hstages.workers_closed_eq]
    intro w' hw' hreturned
    rcases mem_or_eq_of_mem_set hw' with hold | rfl
    · obtain ⟨hclosed, hnil⟩ := h.returned w' hold hreturned
      exact ⟨hclosed, hstep.queues_nil hnil⟩
    · cases hstep with
      | return_empty hphase hqueue hclosed => exact ⟨hclosed, hqueue⟩
      | return_closed hphase hclosed =>
        -- the dispatcher has emptied the queues before it closed them
        have hdrain := h.closing w hmem hphase
        exact ⟨hclosed, h.emptied hclosed hdrain w.agent_id (hknown w hmem)⟩
      | process hphase hafter =>
        rcases hafter with rfl | rfl
        · cases hreturned
        · cases hreturned
      | advance hconf hphases =>
        rcases hphases with ⟨_, rfl⟩ | ⟨_, rfl | rfl⟩ | ⟨_, rfl⟩ | ⟨_, rfl⟩ | ⟨_, _, rfl⟩
        all_goals cases hreturned
      | _ => cases hreturned
  · have hagents : (s.workers.set i { w with phase := phase }).map Worker.agent_id =
        s.workers.map Worker.agent_id := List.map_set_of_eq Worker.agent_id hw rfl
    simp only [hagents]
    exact h.served
  · have hmove := worker_active hstep
    have hactive := h.active_eq
    have hcount := List.countP_set_add Worker.submits { w with phase := phase } hw
    dsimp only
    omega

theorem ShutdownOrder.request (h : ShutdownOrder config s) {j : ℕ} {r : Request} {s₁ : ContinuousState}
    {phase : RequestPhase} (hr : s.requests[j]? = some r)
    (hstep : RequestStep config s r s₁ phase) :
    ShutdownOrder config { s₁ with requests := s.requests.set j { r with phase := phase } } := by
  have hstages := hstep.threads.toSameStages
  have hqueues := hstep.queues_eq
  refine ⟨?_, ?_, ?_, ?_, ?_, ?_, ?_, ?_, ?_⟩
  · simp only [hstages.bus_eq, hstages.lifecycle_eq]
    exact h.closed_stopping
  · simp only [hstages.drain_eq, hstages.lifecycle_eq]
    exact h.discard_stopping
  · simp only [hstages.workers_closed_eq, hstages.dispatcher_eq]
    exact h.closed_iff
  · simp only [hstages.dispatcher_eq, hstages.bus_eq]
    exact h.returned_closed
  · simp only [hstages.workers_closed_eq, hstages.drain_eq, hqueues]
    exact h.emptied
  · simp only [hstages.workers_eq, hstages.drain_eq]
    exact h.closing
  · simp only [hstages.workers_eq, hstages.workers_closed_eq, hqueues]
    exact h.returned
  · simp only [hstages.workers_eq]
    exact h.served
  · have hmove : s₁.active_requests + r.active.toNat =
        s.active_requests + (Request.active { r with phase := phase }).toNat := by
      cases hstep with
      | @process outcome phase hphase hafter =>
        have hactive : Request.active { r with phase := phase } = true := by
          rcases hafter with rfl | rfl
          · rfl
          · rfl
        rw [hactive, Request.active, hphase]
        cases outcome
        · rfl
        · rfl
      | count_failure hphase | release hphase =>
        rw [Request.active, hphase]
        rfl
      | finish hphase =>
        rw [Request.active, hphase]
        unfold unmark
        split
        · simp only [Request.active]
          simp
        · simp only [Request.active]
          simp
    have hactive := h.active_eq
    have hcount := List.countP_set_add Request.active { r with phase := phase } hr
    simp only [hstages.workers_eq]
    omega

theorem ShutdownOrder.step (h : ShutdownOrder config s) (hknown : ∀ w ∈ s.workers, w.agent_id ∈ config.ids)
    (hfirst : s.lifecycle = .running → s.stops = []) (hs : ContinuousStep config s e s') : ShutdownOrder config s' := by
  cases hs with
  | offer | interval | interval_return | stop_raise =>
    exact h.of_eq rfl (fun _ => rfl) rfl rfl rfl rfl rfl rfl rfl rfl
  | publish hp hstep =>
    have hframe := publish_frame hstep
    refine h.of_eq hframe.closed_eq (fun hreturned => ?_) hframe.dispatcher_eq hframe.workers_eq
      hframe.requests_eq hframe.active_eq hframe.lifecycle_eq hframe.drain_eq hframe.queues_eq
      hframe.workers_closed_eq
    cases hstep with
    | checked => rfl
    | accepted hchecked hbus =>
      obtain ⟨hopen, _, _⟩ := EventBus.publish_ok hbus
      rw [(h.returned_closed hreturned).1] at hopen
      cases hopen
    | failed text =>
      rcases publish_failed_cases s _ text with hsame | ⟨notice, _, hissue⟩
      · rw [hsame]
        rfl
      · rw [hissue]
        rfl
  | dispatcher hstep => exact h.dispatcher hstep
  | worker hw hstep => exact h.worker hknown hw hstep
  | request hr hstep => exact h.request hr hstep
  | stop drain =>
    rcases begin_stop_cases s drain with ⟨hstate, heq⟩ | ⟨_, heq⟩ | ⟨_, heq⟩
    · rw [heq]
      have hopen : s.bus.closed ≠ true := fun hc => h.closed_stopping hc hstate
      have hnot : s.dispatcher ≠ .returned := fun hr => hopen (h.returned_closed hr).1
      have hunclosed : s.workers_closed ≠ true := fun hc => hnot (h.closed_iff.mp hc)
      refine ⟨fun _ => (by rintro ⟨⟩), fun _ => (by rintro ⟨⟩), h.closed_iff, h.returned_closed,
        fun hc => absurd hc hunclosed, ?_, h.returned, h.served, h.active_eq⟩
      -- no worker waits for a closure before the first stop
      intro w hw hclosing
      exact absurd hstate (h.discard_stopping (h.closing w hw hclosing))
    · rw [heq]
      exact h.of_eq rfl (fun _ => rfl) rfl rfl rfl rfl rfl rfl rfl rfl
    · rw [heq]
      exact h.of_eq rfl (fun _ => rfl) rfl rfl rfl rfl rfl rfl rfl rfl
  | @stop_section k c s₁ phase hc hstep =>
    have hstopping : s.lifecycle ≠ .running := by
      intro hstate
      rw [hfirst hstate] at hc
      cases hc
    generalize c.phase = before at hstep
    cases hstep with
    | close_bus =>
      exact ⟨fun _ => hstopping, h.discard_stopping, h.closed_iff,
        fun hreturned => ⟨rfl, (h.returned_closed hreturned).2⟩, h.emptied, h.closing,
        h.returned, h.served, h.active_eq⟩
    | finish =>
      exact ⟨fun _ => (by rintro ⟨⟩), fun _ => (by rintro ⟨⟩), h.closed_iff,
        h.returned_closed, h.emptied, h.closing, h.returned, h.served, h.active_eq⟩
    | _ => exact h.of_eq rfl (fun _ => rfl) rfl rfl rfl rfl rfl rfl rfl rfl

/-! ## The calls of `stop` -/

theorem stop_inv_started (config : ContinuousConfig) (capacity : ℕ) :
    StopInv (.started config capacity) :=
  ⟨fun c hc => (by cases hc), (by rintro ⟨⟩), fun _ => rfl, fun hstate => absurd rfl hstate,
    fun c hc => (by cases hc)⟩

/-- What a call knows after its section, from what it knew before. -/
theorem stop_step_reached {before after : StopPhase} (hstep : StopStep s before s₁ after)
    (hbefore : before.Reached s) : after.Reached s₁ := by
  cases hstep with
  | wake | intervals_joined => trivial
  | close_bus => exact rfl
  | dispatcher_joined hjoined => exact ⟨hjoined, fun i hi => absurd hi (Nat.not_lt_zero i)⟩
  | @worker_joined n w hw hjoined =>
    refine ⟨hbefore.1, fun i hi => ?_⟩
    rcases Nat.lt_succ_iff_lt_or_eq.mp hi with hlt | rfl
    · exact hbefore.2 i hlt
    · exact ⟨w, hw, hjoined⟩
  | @workers_joined n hn =>
    refine ⟨hbefore.1, fun w hw => ?_⟩
    obtain ⟨i, hi, rfl⟩ := getElem_of_mem hw
    have hlength := List.getElem?_eq_none_iff.mp hn
    obtain ⟨w', hw', hreturned⟩ := hbefore.2 i (by omega)
    rw [getElem?_eq_getElem hi] at hw'
    rw [Option.some.inj hw']
    exact hreturned
  | requests_ended hactive => exact ⟨hbefore.1, hbefore.2, hactive⟩
  | shut_down hfinished => exact hbefore
  | finish => exact rfl

/-- Sections that are not of `stop`. -/
theorem StopInv.of_eq (h : StopInv s) (hstage : ShutdownOrder config s)
    (hs : ContinuousStep config s e s') (hstops : s'.stops = s.stops)
    (hlifecycle : s'.lifecycle = s.lifecycle) (hdrain : s'.drain = s.drain) : StopInv s' where
  reached := by
    rw [hstops]
    exact fun c hc => hstage.reached_persists hs (h.reached c hc)
  stopped := by
    rw [hlifecycle]
    exact fun hstate => hstage.quiet_persists (h.stopped hstate) hs
  first := by rw [hstops, hlifecycle]; exact h.first
  called := by rw [hstops, hlifecycle]; exact h.called
  first_drain := by rw [hstops, hdrain]; exact h.first_drain

/-- Moving a call keeps what is known of the first one. -/
theorem first_set {c : StopCall} (hc : s.stops[k]? = some c) (phase : StopPhase)
    (h : ∀ c, s.stops[0]? = some c → s.drain = c.drain) :
    ∀ c', (s.stops.set k { c with phase := phase })[0]? = some c' → s.drain = c'.drain := by
  intro c' hc'
  rw [getElem?_set] at hc'
  split at hc'
  · rename_i hk
    subst hk
    split at hc'
    · cases hc'
      exact h c hc
    · cases hc'
  · exact h c' hc'

theorem StopInv.step (h : StopInv s) (hstage : ShutdownOrder config s)
    (hs : ContinuousStep config s e s') : StopInv s' := by
  have hpersists := Persists.step hs
  have hsection := hs
  cases hs with
  | offer event => exact h.of_eq hstage hsection rfl rfl rfl
  | interval event_id scheduled_at scheduled_tick ht hphase hstop =>
    exact h.of_eq hstage hsection rfl rfl rfl
  | interval_return ht hphase hstop =>
    exact h.of_eq hstage hsection rfl rfl rfl
  | publish hp hstep =>
    have hframe := publish_frame hstep
    exact h.of_eq hstage hsection hframe.stops_eq hframe.lifecycle_eq hframe.drain_eq
  | dispatcher hstep =>
    have hframe := dispatcher_frame hstep
    exact h.of_eq hstage hsection hframe.stops_eq hframe.lifecycle_eq hframe.drain_eq
  | worker hw hstep =>
    have hstages := hstep.stages
    exact h.of_eq hstage hsection hstages.stops_eq hstages.lifecycle_eq hstages.drain_eq
  | request hr hstep =>
    have hstages := hstep.threads.toSameStages
    exact h.of_eq hstage hsection hstages.stops_eq hstages.lifecycle_eq hstages.drain_eq
  | stop drain =>
    have hquiet : ∀ hstate : s.lifecycle = .stopped, Quiet (s.begin_stop drain) :=
      fun hstate => hstage.quiet_persists (h.stopped hstate) (.stop drain)
    have hreached : ∀ c ∈ s.stops, c.phase.Reached (s.begin_stop drain) :=
      fun c hc => hstage.reached_persists (.stop drain) (h.reached c hc)
    rcases begin_stop_cases s drain with ⟨hstate, heq⟩ | ⟨hstate, heq⟩ | ⟨hstate, heq⟩
    · rw [heq] at hreached ⊢
      have hnil := h.first hstate
      refine ⟨?_, (by rintro ⟨⟩), (by rintro ⟨⟩), fun _ => by simp, ?_⟩
      · intro c hc
        rcases mem_append.mp hc with hold | hnew
        · exact hreached c hold
        · rw [mem_singleton.mp hnew]
          trivial
      · intro c hc
        rw [hnil] at hc
        cases hc
        rfl
    · rw [heq] at hreached ⊢
      have hne : s.stops ≠ [] := h.called (by rw [hstate]; rintro ⟨⟩)
      refine ⟨?_, ?_, ?_, fun _ => by simp, ?_⟩
      · intro c hc
        rcases mem_append.mp hc with hold | hnew
        · exact hreached c hold
        · rw [mem_singleton.mp hnew]
          trivial
      · intro hstopped
        rw [hstate] at hstopped
        cases hstopped
      · intro hrunning
        rw [hstate] at hrunning
        cases hrunning
      · intro c hc
        rw [getElem?_append_left (length_pos_iff.mpr hne)] at hc
        exact h.first_drain c hc
    · rw [heq] at hreached hquiet ⊢
      have hne : s.stops ≠ [] := h.called (by rw [hstate]; rintro ⟨⟩)
      refine ⟨?_, fun _ => hquiet hstate, ?_, fun _ => by simp, ?_⟩
      · intro c hc
        rcases mem_append.mp hc with hold | hnew
        · exact hreached c hold
        · rw [mem_singleton.mp hnew]
          exact hstate
      · intro hrunning
        rw [hstate] at hrunning
        cases hrunning
      · intro c hc
        rw [getElem?_append_left (length_pos_iff.mpr hne)] at hc
        exact h.first_drain c hc
  | @stop_section k c s₁ phase hc hstep =>
    have hmem := mem_of_getElem? hc
    have hstopping : s.lifecycle ≠ .running := fun hstate => by
      rw [h.first hstate] at hc
      cases hc
    have hmoved := stop_step_reached hstep (h.reached c hmem)
    have hreached : ∀ c' ∈ s.stops, c'.phase.Reached
        ({ s₁ with stops := s.stops.set k { c with phase := phase } } : ContinuousState) :=
      fun c' hc' => hstage.reached_persists (.stop_section hc hstep) (h.reached c' hc')
    have hquiet : Quiet s → Quiet
        ({ s₁ with stops := s.stops.set k { c with phase := phase } } : ContinuousState) :=
      fun hquiet => hstage.quiet_persists hquiet (.stop_section hc hstep)
    have hdrain : s₁.drain = s.drain := hpersists.drain hstopping
    refine ⟨?_, ?_, ?_, ?_, ?_⟩
    · intro c' hc'
      rcases mem_or_eq_of_mem_set hc' with hold | rfl
      · exact hreached c' hold
      · -- the phases are about the state, not about the calls
        cases phase with
        | shutting_down | finishing =>
          exact ⟨hmoved.dispatcher, hmoved.workers, hmoved.active⟩
        | _ => exact hmoved
    · intro hstopped
      apply hquiet
      have hknown := h.reached c hmem
      generalize c.phase = before at hstep hknown
      cases hstep with
      | finish => exact hknown
      | _ => exact h.stopped hstopped
    · intro hrunning
      exact absurd hrunning (hpersists.stopping hstopping)
    · intro _ hnil
      have hlength := congrArg length hnil
      rw [length_set, length_nil, length_eq_zero_iff] at hlength
      rw [hlength] at hc
      cases hc
    · rw [hdrain]
      exact first_set hc phase h.first_drain
  | @stop_raise k c hc hphase =>
    refine ⟨?_, fun hstopped => ?_, fun hrunning => ?_, fun hstate hnil => ?_,
      first_set hc .raised h.first_drain⟩
    · intro c' hc'
      rcases mem_or_eq_of_mem_set hc' with hold | rfl
      · exact hstage.reached_persists (.stop_raise hc hphase) (h.reached c' hold)
      · trivial
    · exact hstage.quiet_persists (h.stopped hstopped) (.stop_raise hc hphase)
    · rw [h.first hrunning] at hc
      cases hc
    · have hlength := congrArg length hnil
      rw [length_set, length_nil, length_eq_zero_iff] at hlength
      rw [hlength] at hc
      cases hc

/-! ## Events -/

/-- The event the dispatcher has received and not yet dispatched. -/
def DispatcherPhase.event : DispatcherPhase → List RuntimeEvent
  | .received event => [event]
  | _ => []

/-- What the runtime reports of an event it drops. -/
def EventFate.report (event : RuntimeEvent) : EventFate → Option ContinuousIssue
  | .dispatched => none
  | .dropped => some
      { code := .dropped_on_stop
        message := "event dropped during non-draining stop"
        event_id := some event.event_id }

/-- The issue is about an event that was dropped. -/
def ContinuousIssue.about_event (issue : ContinuousIssue) : Bool :=
  issue.code = .dropped_on_stop && issue.agent_id.isNone

/-- The issue is about an activation that was dropped by a stop. -/
def ContinuousIssue.about_discarded (issue : ContinuousIssue) : Bool :=
  issue.code = .dropped_on_stop && issue.agent_id.isSome

theorem about_discarded_activation {issue : ContinuousIssue}
    (h : issue.about_discarded = true) : issue.about_activation = true := by
  unfold ContinuousIssue.about_discarded at h
  rw [Bool.and_eq_true] at h
  simp [ContinuousIssue.about_activation, of_decide_eq_true h.1, h.2]

/-- The activation was dropped by a stop. -/
def Fate.discarded : Fate → Bool
  | .dropped_on_stop => true
  | _ => false

/-- What became of the events. -/
structure EventInv (s : ContinuousState) : Prop where
  /-- Every event the bus accepted is on the bus, with the dispatcher, or handled, in
  the order of its acceptance. -/
  conserved : s.accepted = s.handled.map Prod.fst ++ (s.dispatcher.event ++ s.bus.events)
  dispatched : s.drain = true → ∀ f ∈ s.handled, f.2 = .dispatched
  undiscarded : s.drain = true → ∀ f ∈ s.fates, f.2.discarded = false
  reported : s.issues.filter ContinuousIssue.about_event =
    s.handled.filterMap fun f => f.2.report f.1

/-- A section reports no dropped event and discards no activation. -/
structure Spares (s s' : ContinuousState) : Prop where
  issues_eq : s'.issues.filter ContinuousIssue.about_event =
    s.issues.filter ContinuousIssue.about_event
  fates : (∀ f ∈ s.fates, f.2.discarded = false) → ∀ f ∈ s'.fates, f.2.discarded = false

theorem Spares.trans (h : Spares s s₁) (h' : Spares s₁ s') : Spares s s' :=
  ⟨h'.issues_eq.trans h.issues_eq, fun hs => h'.fates (h.fates hs)⟩

theorem Spares.of_eq (hissues : s'.issues = s.issues) (hfates : s'.fates = s.fates) : Spares s s' :=
  ⟨by rw [hissues], by rw [hfates]; exact id⟩

theorem spares_issue (s : ContinuousState) {notice : ContinuousIssue} (dropped rejected : Bool)
    (h : notice.about_event = false) : Spares s (s.issue notice dropped rejected) := by
  refine ⟨?_, id⟩
  have hnone : [notice].filter ContinuousIssue.about_event = [] := by simp [h]
  simp only [ContinuousState.issue, filter_append, hnone, append_nil]

theorem spares_settle (s : ContinuousState) (item : WorkItem) {fate : Fate}
    (h : fate.discarded = false) : Spares s (s.settle item fate) := by
  refine ⟨rfl, fun hs f hf => ?_⟩
  rcases mem_append.mp hf with hold | hnew
  · exact hs f hold
  · rw [mem_singleton.mp hnew]
    exact h

/-- An issue about an activation names its agent. -/
theorem item_issue_about (item : WorkItem) (code : IssueCode) (message : String) :
    (item.issue code message).about_event = false := by
  simp [ContinuousIssue.about_event, WorkItem.issue]

theorem spares_process (s : ContinuousState) (item : WorkItem) (outcome : ProcessOutcome) :
    Spares s ((s.record item outcome).settle item (.processed outcome)) := by
  refine Spares.trans ?_ (spares_settle _ _ rfl)
  cases outcome
  · exact .of_eq rfl rfl
  · exact spares_issue s _ _ (item_issue_about _ _ _)

theorem spares_counts (s : ContinuousState) (counts : ContinuousCounts) :
    Spares s { s with counts := counts } :=
  .of_eq rfl rfl

theorem spares_pop (s : ContinuousState) (id : String) (rest : List WorkItem) :
    Spares s (s.pop id rest) :=
  .of_eq rfl rfl

theorem enqueued_spares {id : String} {execution : ExecutionConfiguration} {item : WorkItem}
    (h : Enqueued config s id execution item s') : Spares s s' := by
  cases h with
  | tick_coalesced =>
    unfold coalesce_tick
    have hissue := (spares_counts s { s.counts with coalesced := s.counts.coalesced + 1 }).trans
      (spares_issue _ true false (item_issue_about item .tick_coalesced
        "bounded decision tick was dropped while an earlier tick was queued or in flight"))
    exact hissue.trans (spares_settle _ _ rfl)
  | @replaced index old =>
    have hreplace : Spares s (s.replace id index item) := .of_eq rfl rfl
    exact hreplace.trans (spares_settle _ _ rfl)
  | @oldest_dropped dropped rest =>
    unfold drop_oldest
    have hissue := (spares_pop s id rest).trans
      (spares_issue _ true false (item_issue_about dropped .drop_oldest
        "oldest queued invocation was replaced"))
    have hsettled := hissue.trans (spares_settle _ dropped (rfl : Fate.dropped_oldest.discarded = _))
    exact hsettled.trans (.of_eq rfl rfl)
  | rejected =>
    exact (spares_issue s _ _ (item_issue_about _ _ _)).trans (spares_settle _ _ rfl)
  | appended => exact .of_eq rfl rfl

theorem mark_spares (s : ContinuousState) (id : String) (item : WorkItem) :
    Spares s (s.mark id item) := by
  unfold mark
  split
  · exact .of_eq rfl rfl
  · exact .of_eq rfl rfl

theorem unmark_spares (s : ContinuousState) (id : String) (item : WorkItem) :
    Spares s (s.unmark id item) := by
  unfold unmark
  split
  · exact .of_eq rfl rfl
  · exact .of_eq rfl rfl

theorem worker_spares (h : WorkerStep config s w s' phase) : Spares s s' := by
  cases h with
  | take => exact (spares_pop s _ _).trans (mark_spares _ _ _)
  | @reserved_take item rest =>
    have hpop : Spares s { s.pop w.agent_id rest with active_requests := s.active_requests + 1 } :=
      .of_eq rfl rfl
    exact hpop.trans (mark_spares _ _ _)
  | unmark => exact unmark_spares s _ _
  | process => exact spares_process s _ _
  | _ => exact .of_eq rfl rfl

theorem request_spares {r : Request} {phase : RequestPhase}
    (h : RequestStep config s r s' phase) : Spares s s' := by
  cases h with
  | finish =>
    have hactive : Spares s { s with active_requests := s.active_requests - 1 } := .of_eq rfl rfl
    exact hactive.trans (unmark_spares _ _ _)
  | process => exact spares_process s _ _
  | _ => exact .of_eq rfl rfl

/-- Dropping what is queued reports activations only. -/
theorem drop_items_issues (id : String) (items : List WorkItem) :
    ∀ s : ContinuousState, (s.drop_items id items).issues.filter ContinuousIssue.about_event =
      s.issues.filter ContinuousIssue.about_event := by
  induction items with
  | nil => exact fun _ => rfl
  | cons item rest ih =>
    intro s
    have hissue := spares_issue (s.pop id rest) true false
      (item_issue_about item .dropped_on_stop "queued invocation dropped during stop")
    exact (ih _).trans hissue.issues_eq

theorem drop_queues_issues (ids : List String) :
    ∀ s : ContinuousState, (s.drop_queues ids).issues.filter ContinuousIssue.about_event =
      s.issues.filter ContinuousIssue.about_event := by
  induction ids with
  | nil => exact fun _ => rfl
  | cons id ids ih => exact fun s => (ih _).trans (drop_items_issues id _ s)

/-- Sections that leave the events where they are. -/
theorem EventInv.of_spares (h : EventInv s) (hspares : Spares s s')
    (haccepted : s'.accepted = s.accepted) (hhandled : s'.handled = s.handled)
    (hevent : s'.dispatcher.event = s.dispatcher.event) (hbus : s'.bus.events = s.bus.events)
    (hdrain : s'.drain = true → s.drain = true) : EventInv s' where
  conserved := by rw [haccepted, hhandled, hevent, hbus]; exact h.conserved
  dispatched hd := by rw [hhandled]; exact h.dispatched (hdrain hd)
  undiscarded hd := hspares.fates (h.undiscarded (hdrain hd))
  reported := by rw [hspares.issues_eq, hhandled]; exact h.reported

theorem EventInv.of_stages (h : EventInv s) (hspares : Spares s s') (hstages : SameStages s s') :
    EventInv s' :=
  h.of_spares hspares hstages.accepted_eq hstages.handled_eq
    (congrArg DispatcherPhase.event hstages.dispatcher_eq)
    (congrArg EventBus.events hstages.bus_eq) (fun hd => hstages.drain_eq ▸ hd)

theorem event_inv_started (config : ContinuousConfig) (capacity : ℕ) :
    EventInv (.started config capacity) :=
  ⟨rfl, fun _ f hf => (by cases hf), fun _ f hf => (by cases hf), rfl⟩

theorem EventInv.publish (h : EventInv s) {k : ℕ} {p : Publication} (hstep : PublishStep s k p s') :
    EventInv s' := by
  cases hstep with
  | checked => exact h.of_spares (.of_eq rfl rfl) rfl rfl rfl rfl id
  | accepted hchecked hbus =>
    obtain ⟨_, _, rfl⟩ := EventBus.publish_ok hbus
    refine ⟨?_, h.dispatched, h.undiscarded, h.reported⟩
    have hconserved := h.conserved
    simp only [publication_over]
    rw [hconserved, append_assoc, append_assoc]
  | failed text =>
    rcases publish_failed_cases s p text with hsame | ⟨notice, hcode, hissue⟩
    · rw [hsame]
      exact h.of_spares (.of_eq rfl rfl) rfl rfl rfl rfl id
    · rw [hissue]
      have hspares : Spares s (s.issue notice false true) :=
        spares_issue s _ _ (by simp [ContinuousIssue.about_event, hcode])
      exact h.of_spares ⟨hspares.issues_eq, hspares.fates⟩ rfl rfl rfl rfl id

/-- `_dispatch` reports the event it has, or the cooldowns of triggers. -/
theorem dispatched_spares {event : RuntimeEvent} (h : Dispatched config s event s') :
    Spares s s' ∧ s'.dispatcher.event = [] ∧ s'.accepted = s.accepted ∧ s'.handled = s.handled ∧
      s'.bus = s.bus ∧ s'.drain = s.drain := by
  cases h with
  | rejected notice received last_sequences hcode hreceived =>
    have habout : notice.about_event = false := by
      rcases hcode with hcode | hcode
      · simp [ContinuousIssue.about_event, hcode]
      · simp [ContinuousIssue.about_event, hcode]
    have hcounts : Spares s { s with counts := received, last_sequences := last_sequences } :=
      .of_eq rfl rfl
    have hissue := hcounts.trans (spares_issue _ false true habout)
    exact ⟨⟨hissue.issues_eq, hissue.fates⟩, rfl, rfl, rfl, rfl, rfl⟩
  | @matched cooldowns items horder hmatches =>
    have hnone : cooldowns.filter ContinuousIssue.about_event = [] := by
      apply filter_eq_nil_iff.mpr
      intro issue hissue
      simp [ContinuousIssue.about_event, event_matches_issues hmatches issue hissue]
    refine ⟨⟨?_, id⟩, rfl, rfl, rfl, rfl, rfl⟩
    simp only [filter_append, hnone, append_nil]

theorem EventInv.dispatcher (h : EventInv s) (hstep : DispatcherStep config s s') :
    EventInv s' := by
  have hconserved := h.conserved
  cases hstep with
  | @receive event bus hphase hbus =>
    obtain ⟨hevents, _, _⟩ := EventBus.receive_some hbus
    refine ⟨?_, h.dispatched, h.undiscarded, h.reported⟩
    rw [hphase, hevents] at hconserved
    exact hconserved
  | close hphase hempty hclosed =>
    have hissues : (s.close_workers config).issues.filter ContinuousIssue.about_event =
        s.issues.filter ContinuousIssue.about_event := by
      unfold close_workers
      split
      · rfl
      · exact drop_queues_issues _ s
    obtain ⟨s₁, hdropped, _, hsame, hs₁⟩ := close_workers_spec config s
    rw [hphase] at hconserved
    rw [hs₁] at hissues ⊢
    cases hdrain : s.drain with
    | true =>
      have heq := hsame hdrain
      subst heq
      exact ⟨hconserved, h.dispatched, h.undiscarded, h.reported⟩
    | false =>
      obtain ⟨queues, queued, counts, issues, fates, rfl⟩ := hdropped.frame
      have hnot : s.drain ≠ true := by
        rw [hdrain]
        rintro ⟨⟩
      exact ⟨hconserved, fun hd => absurd hd hnot, fun hd => absurd hd hnot,
        hissues.trans h.reported⟩
  | @dispatch event s₁ hphase hdrain hdispatched =>
    obtain ⟨hspares, hevent, haccepted, hhandled, hbus, hdrain'⟩ := dispatched_spares hdispatched
    have hreceived : s.dispatcher.event = [event] := by
      rw [hphase]
      rfl
    rw [hreceived] at hconserved
    refine ⟨?_, ?_, ?_, ?_⟩
    · simp only [handle, haccepted, hhandled, hevent, hbus, hconserved,
        map_append, map_cons, map_nil, nil_append, append_assoc]
    · intro hd f hf
      simp only [handle, hhandled] at hf
      rcases mem_append.mp hf with hold | hnew
      · exact h.dispatched hdrain f hold
      · rw [mem_singleton.mp hnew]
    · exact fun _ => hspares.fates (h.undiscarded hdrain)
    · simp only [handle, hspares.issues_eq, hhandled, h.reported,
        filterMap_append]
      exact (append_nil _).symm
  | @drop event hphase hdrain =>
    have hnot : s.drain ≠ true := by
      rw [hdrain]
      rintro ⟨⟩
    rw [hphase] at hconserved
    refine ⟨?_, fun hd => absurd hd hnot, fun hd => absurd hd hnot, ?_⟩
    · simp only [handle, drop_event, ContinuousState.issue, hconserved,
        DispatcherPhase.event, map_append, map_cons, map_nil, nil_append,
        append_assoc]
    · simp only [handle, drop_event, ContinuousState.issue, filter_append,
        h.reported, filterMap_append]
      rfl
  | @enqueue item items agent s₁ hphase hagent henqueued =>
    have hstages := henqueued.threads.toSameStages
    have hinv := h.of_stages (enqueued_spares henqueued) hstages
    refine hinv.of_spares (.of_eq rfl rfl) rfl rfl ?_ rfl id
    rw [hstages.dispatcher_eq, hphase]
    rfl
  | all_enqueued hphase =>
    refine h.of_spares (.of_eq rfl rfl) rfl rfl ?_ rfl id
    rw [hphase]
    rfl

theorem EventInv.step (h : EventInv s) (hstage : ShutdownOrder config s)
    (hs : ContinuousStep config s e s') : EventInv s' := by
  cases hs with
  | offer | interval | interval_return | stop_raise =>
    exact h.of_spares (.of_eq rfl rfl) rfl rfl rfl rfl id
  | publish hp hstep => exact h.publish hstep
  | dispatcher hstep => exact h.dispatcher hstep
  | worker hw hstep =>
    have hinv := h.of_stages (worker_spares hstep) hstep.stages
    exact hinv.of_spares (.of_eq rfl rfl) rfl rfl rfl rfl id
  | request hr hstep =>
    have hinv := h.of_stages (request_spares hstep) hstep.threads.toSameStages
    exact hinv.of_spares (.of_eq rfl rfl) rfl rfl rfl rfl id
  | stop drain =>
    rcases begin_stop_cases s drain with ⟨hstate, heq⟩ | ⟨_, heq⟩ | ⟨_, heq⟩
    · rw [heq]
      -- nothing was dropped before the first stop, whatever it asks for
      have hdrain : s.drain = true := by
        by_contra hnot
        exact hstage.discard_stopping (Bool.not_eq_true _ ▸ hnot) hstate
      exact h.of_spares (.of_eq rfl rfl) rfl rfl rfl rfl fun _ => hdrain
    · rw [heq]
      exact h.of_spares (.of_eq rfl rfl) rfl rfl rfl rfl id
    · rw [heq]
      exact h.of_spares (.of_eq rfl rfl) rfl rfl rfl rfl id
  | @stop_section k c s₁ phase hc hstep =>
    generalize c.phase = before at hstep
    cases hstep with
    | _ => exact h.of_spares (.of_eq rfl rfl) rfl rfl rfl rfl id

/-! ## Reachable states -/

/-- Everything that holds of the shutdown. -/
structure ShutdownInv (config : ContinuousConfig) (s : ContinuousState) : Prop where
  work : WorkInv config s
  stage : ShutdownOrder config s
  calls : StopInv s
  events : EventInv s

theorem shutdown_inv (h : (continuous_system config).Reachable s) : ShutdownInv config s := by
  apply h.invariant
  · rintro _ ⟨capacity, _, _, rfl⟩
    exact ⟨work_inv_started config capacity, shutdown_order_started config capacity,
      stop_inv_started config capacity, event_inv_started config capacity⟩
  · intro s e s' _ hinv hs
    have hstep := continuous_step_cases hs
    exact ⟨hinv.work.step hstep, hinv.stage.step hinv.work.workers_known hinv.calls.first hstep,
      hinv.calls.step hinv.stage hstep, hinv.events.step hinv.stage hstep⟩

end MininetAi
