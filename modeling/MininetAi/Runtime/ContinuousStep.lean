/-
What the sections of the continuous runtime do, one case for each way a section can
end. The invariants are proved from these cases and never from the functions.
-/
import MininetAi.Runtime.Continuous

set_option autoImplicit false

namespace MininetAi

open Option

namespace ContinuousState

/-! ## The dispatcher -/

/-- How `_dispatch` ends. -/
inductive Dispatched (config : ContinuousConfig) (s : ContinuousState) (event : RuntimeEvent) :
    ContinuousState → Prop
  /-- The event is reported: it is out of order, or its payload is invalid. -/
  | rejected (notice : ContinuousIssue) (received : ContinuousCounts)
      (last_sequences : String → Option ℕ)
      (hcode : notice.code = .out_of_order ∨ notice.code = .payload_invalid)
      (hreceived : received = { s.counts with received := s.counts.received + 1 }) :
      Dispatched config s event
        { ({ s with counts := received, last_sequences := last_sequences } :
            ContinuousState).issue notice false true with dispatcher := .receiving }
  | matched {cooldowns : List ContinuousIssue} {items : List WorkItem}
      (horder : in_order (s.last_sequences event.source) event.sequence = true)
      (hmatches : event_matches config s.last_triggered s.scheduled_ticks event =
        .ok (cooldowns, items)) :
      Dispatched config s event
        { s with
          last_sequences := record_sequence s.last_sequences event
          issues := s.issues ++ cooldowns
          counts := { s.counts with
            received := s.counts.received + 1
            matched := s.counts.matched + items.length }
          activations := s.activations ++ items
          dispatcher := .enqueueing items }

theorem dispatch_cases (config : ContinuousConfig) (s : ContinuousState) (event : RuntimeEvent) :
    Dispatched config s event (s.dispatch config event) := by
  unfold dispatch
  dsimp only
  split
  · exact .rejected _ _ s.last_sequences (.inl rfl) rfl
  · rename_i horder
    split
    · exact .rejected _ _ _ (.inr rfl) rfl
    · rename_i cooldowns items hmatches
      exact .matched (not_not.mp horder) hmatches

/-- Dropping what is queued changes the queues, their counter and the report. -/
structure Dropped (s s' : ContinuousState) : Prop where
  frame : ∃ queues queued counts issues fates,
    s' = { s with queues, queued, counts, issues, fates }
  queues_eq : ∀ id, s'.queues id = [] ∨ s'.queues id = s.queues id

theorem Dropped.refl (s : ContinuousState) : Dropped s s :=
  ⟨⟨_, _, _, _, _, rfl⟩, fun _ => .inr rfl⟩

variable {s s' : ContinuousState} {config : ContinuousConfig} {w : Worker}
  {outcome : ProcessOutcome}

theorem Dropped.trans {s₁ : ContinuousState} (h : Dropped s s₁) (h' : Dropped s₁ s') :
    Dropped s s' := by
  obtain ⟨queues, queued, counts, issues, fates, rfl⟩ := h.frame
  obtain ⟨queues', queued', counts', issues', fates', rfl⟩ := h'.frame
  refine ⟨⟨_, _, _, _, _, rfl⟩, fun id => ?_⟩
  rcases h'.queues_eq id with hnil | heq
  · exact .inl hnil
  · rcases h.queues_eq id with hnil | heq'
    · exact .inl (heq.trans hnil)
    · exact .inr (heq.trans heq')

/-- The inner loop empties its queue and leaves the others. -/
theorem drop_items_spec (id : String) (items : List WorkItem) :
    ∀ s : ContinuousState, s.queues id = items →
      Dropped s (s.drop_items id items) ∧ (s.drop_items id items).queues id = [] := by
  induction items with
  | nil => exact fun s hq => ⟨.refl s, hq⟩
  | cons item rest ih =>
    intro s hq
    obtain ⟨hdropped, hempty⟩ := ih
      (((s.pop id rest).issue
        (item.issue .dropped_on_stop "queued invocation dropped during stop")
        true false).settle item .dropped_on_stop) (s.pop_queues id rest)
    refine ⟨⟨?_, ?_⟩, hempty⟩
    · obtain ⟨queues, queued, counts, issues, fates, hframe⟩ := hdropped.frame
      exact ⟨queues, queued, counts, issues, fates, hframe⟩
    · intro other
      by_cases hother : other = id
      · exact .inl (hother ▸ hempty)
      · exact (hdropped.queues_eq other).imp_right fun heq =>
          heq.trans (s.pop_queues_of_ne hother rest)

/-- The outer loop empties the queues of its agents. -/
theorem drop_queues_spec (ids : List String) :
    ∀ s : ContinuousState, Dropped s (s.drop_queues ids) ∧
      ∀ id ∈ ids, (s.drop_queues ids).queues id = [] := by
  induction ids with
  | nil => exact fun s => ⟨.refl s, fun _ hid => by cases hid⟩
  | cons id ids ih =>
    intro s
    obtain ⟨hitems, hempty⟩ := drop_items_spec id (s.queues id) s rfl
    obtain ⟨hqueues, hall⟩ := ih (s.drop_items id (s.queues id))
    refine ⟨hitems.trans hqueues, fun other hother => ?_⟩
    rcases List.mem_cons.mp hother with rfl | hmem
    · rcases hqueues.queues_eq other with hnil | heq
      · exact hnil
      · exact heq.trans hempty
    · exact hall other hmem

/-- The `finally` section drops what is queued, unless the stop drains. -/
theorem close_workers_spec (config : ContinuousConfig) (s : ContinuousState) :
    ∃ s₁, Dropped s s₁ ∧ (s.drain = false → ∀ id ∈ config.ids, s₁.queues id = []) ∧
      (s.drain = true → s₁ = s) ∧
      s.close_workers config = { s₁ with workers_closed := true, dispatcher := .returned } := by
  unfold close_workers
  cases hdrain : s.drain with
  | true => exact ⟨s, .refl s, (by rintro ⟨⟩), fun _ => rfl, rfl⟩
  | false =>
    obtain ⟨hdropped, hempty⟩ := drop_queues_spec (config.agents.map RuntimeAgent.id) s
    refine ⟨_, hdropped, fun _ id hid => hempty id ?_, (by rintro ⟨⟩), rfl⟩
    exact List.mem_toFinset.mp hid

/-- The sections of the dispatcher. -/
inductive DispatcherStep (config : ContinuousConfig) (s : ContinuousState) : ContinuousState → Prop
  | receive {event : RuntimeEvent} {bus : EventBus} (hphase : s.dispatcher = .receiving)
      (hbus : s.bus.receive = some (event, bus)) :
      DispatcherStep config s { s with bus := bus, dispatcher := .received event }
  | close (hphase : s.dispatcher = .receiving) (hempty : s.bus.receive = none)
      (hclosed : s.bus.closed = true) : DispatcherStep config s (s.close_workers config)
  | dispatch {event : RuntimeEvent} {s₁ : ContinuousState} (hphase : s.dispatcher = .received event)
      (hdrain : s.drain = true) (hdispatched : Dispatched config s event s₁) :
      DispatcherStep config s (s₁.handle event .dispatched)
  | drop {event : RuntimeEvent} (hphase : s.dispatcher = .received event)
      (hdrain : s.drain = false) :
      DispatcherStep config s
        { (s.drop_event event).handle event .dropped with dispatcher := .receiving }
  | enqueue {item : WorkItem} {items : List WorkItem} {agent : RuntimeAgent} {s₁ : ContinuousState}
      (hphase : s.dispatcher = .enqueueing (item :: items))
      (hagent : config.agent (config.execution_agent_id item.agent.id) = some agent)
      (henqueued : Enqueued config s (config.execution_agent_id item.agent.id) agent.execution
        item s₁) :
      DispatcherStep config s { s₁ with dispatcher := .enqueueing items }
  | all_enqueued (hphase : s.dispatcher = .enqueueing []) :
      DispatcherStep config s { s with dispatcher := .receiving }

theorem dispatcher_section_cases (h : s.dispatcher_section config = some s') :
    DispatcherStep config s s' := by
  unfold dispatcher_section at h
  split at h
  · rename_i hphase
    split at h
    · rename_i event bus hbus
      cases h
      exact .receive hphase hbus
    · rename_i hempty
      rw [ite_none_right_eq_some] at h
      obtain ⟨hclosed, h⟩ := h
      cases h
      exact .close hphase hempty hclosed
  · rename_i event hphase
    split at h
    · rename_i hdrain
      cases h
      exact .dispatch hphase hdrain (dispatch_cases config s event)
    · rename_i hdrain
      cases h
      exact .drop hphase (Bool.not_eq_true _ ▸ hdrain)
  · rename_i hphase
    cases h
    exact .all_enqueued hphase
  · rename_i item items hphase
    obtain ⟨s₁, hs₁, rfl⟩ := map_eq_some_iff.mp h
    obtain ⟨agent, hagent, henqueued⟩ := enqueue_cases hs₁
    exact .enqueue hphase hagent henqueued
  · cases h

/-! ## Workers -/

/-- The sections of a worker. The phase after `process` depends on the outcome. -/
inductive WorkerStep (config : ContinuousConfig) (s : ContinuousState) (w : Worker) :
    ContinuousState → WorkerPhase → Prop
  | take {item : WorkItem} {rest : List WorkItem} (hconf : config.budgeted = false)
      (hphase : w.phase = .waiting) (hqueue : s.queues w.agent_id = item :: rest) :
      WorkerStep config s w ((s.pop w.agent_id rest).mark w.agent_id item) (.processing item)
  | return_empty (hphase : w.phase = .waiting) (hqueue : s.queues w.agent_id = [])
      (hclosed : s.workers_closed = true) : WorkerStep config s w s .returned
  | process {item : WorkItem} {outcome : ProcessOutcome} {phase : WorkerPhase}
      (hphase : w.phase = .processing item)
      (hafter : phase = .processed item ∨ phase = .failing item) :
      WorkerStep config s w ((s.record item outcome).settle item (.processed outcome)) phase
  | count_failure {item : WorkItem} (hphase : w.phase = .failing item) :
      WorkerStep config s w s.count_failure (.processed item)
  | unmark {item : WorkItem} (hconf : config.budgeted = false) (hphase : w.phase = .processed item) :
      WorkerStep config s w (s.unmark w.agent_id item) .waiting
  | close (hphase : w.phase = .waiting) (hdrain : s.drain = false)
      (hstate : s.lifecycle ≠ .running) : WorkerStep config s w s .closing
  | return_closed (hphase : w.phase = .closing) (hclosed : s.workers_closed = true) :
      WorkerStep config s w s .returned
  /-- The worker moves on and nothing else changes. -/
  | advance {phase : WorkerPhase} (hconf : config.budgeted = true)
      (hphases : (w.phase = .waiting ∧ phase = .supervised) ∨
        (w.phase = .supervised ∧ (phase = .acquiring ∨ phase = .refused)) ∨
        (w.phase = .refused ∧ phase = .waiting) ∨ (w.phase = .reserving ∧ phase = .reserved) ∨
        ∃ item, w.phase = .processed item ∧ phase = .waiting) :
      WorkerStep config s w s phase
  | refused_take {item : WorkItem} {rest : List WorkItem} (hconf : config.budgeted = true)
      (hphase : w.phase = .refused) (hqueue : s.queues w.agent_id = item :: rest) :
      WorkerStep config s w (s.pop w.agent_id rest) (.processing item)
  | acquire (hconf : config.budgeted = true) (hphase : w.phase = .acquiring)
      (hslots : s.request_slots ≠ 0) :
      WorkerStep config s w { s with request_slots := s.request_slots - 1 } .reserving
  | reserved_empty (hconf : config.budgeted = true) (hphase : w.phase = .reserved)
      (hqueue : s.queues w.agent_id = []) :
      WorkerStep config s w { s with request_slots := s.request_slots + 1 } .waiting
  | reserved_take {item : WorkItem} {rest : List WorkItem} (hconf : config.budgeted = true)
      (hphase : w.phase = .reserved) (hqueue : s.queues w.agent_id = item :: rest) :
      WorkerStep config s w
        (({ s.pop w.agent_id rest with active_requests := s.active_requests + 1 } :
          ContinuousState).mark w.agent_id item) (.submitting item)
  | submit {item : WorkItem} (hconf : config.budgeted = true) (hphase : w.phase = .submitting item) :
      WorkerStep config s w { s with requests := s.requests ++ [{ item := item }] } .waiting

theorem plain_section_cases {phase : WorkerPhase} (hconf : config.budgeted = false)
    (h : s.plain_section w outcome = some (s', phase)) : WorkerStep config s w s' phase := by
  unfold plain_section at h
  split at h
  · rename_i hphase
    split at h
    · rename_i item rest hqueue
      cases h
      exact .take hconf hphase hqueue
    · rename_i hqueue
      rw [ite_none_right_eq_some] at h
      obtain ⟨hclosed, h⟩ := h
      cases h
      exact .return_empty hphase hqueue hclosed
  · rename_i item hphase
    split at h
    · cases h
      exact .process hphase (.inl rfl)
    · cases h
      exact .process hphase (.inr rfl)
  · rename_i item hphase
    cases h
    exact .count_failure hphase
  · rename_i item hphase
    cases h
    exact .unmark hconf hphase
  · cases h

variable {running : Bool}

theorem coordinated_section_cases {phase : WorkerPhase} (hconf : config.budgeted = true)
    (h : s.coordinated_section w running outcome = some (s', phase)) :
    WorkerStep config s w s' phase := by
  unfold coordinated_section at h
  split at h
  · rename_i hphase
    split at h
    · cases h
    rename_i hwake
    split at h
    · rename_i hclosing
      cases h
      exact .close hphase (Bool.not_eq_true _ ▸ hclosing.1) hclosing.2
    split at h
    · rename_i hqueue
      cases h
      refine .return_empty hphase hqueue ?_
      by_contra hopen
      exact hwake ⟨hqueue, hopen⟩
    · cases h
      exact .advance hconf (.inl ⟨hphase, rfl⟩)
  · rename_i hphase
    rw [ite_none_right_eq_some] at h
    obtain ⟨hclosed, h⟩ := h
    cases h
    exact .return_closed hphase hclosed
  · rename_i hphase
    cases h
    refine .advance hconf (.inr (.inl ⟨hphase, ?_⟩))
    cases running
    · exact .inr rfl
    · exact .inl rfl
  · rename_i hphase
    split at h
    · cases h
      exact .advance hconf (.inr (.inr (.inl ⟨hphase, rfl⟩)))
    · rename_i item rest hqueue
      cases h
      exact .refused_take hconf hphase hqueue
  · rename_i hphase
    split at h
    · cases h
    · rename_i hslots
      cases h
      exact .acquire hconf hphase hslots
  · rename_i hphase
    cases h
    exact .advance hconf (.inr (.inr (.inr (.inl ⟨hphase, rfl⟩))))
  · rename_i hphase
    split at h
    · rename_i hqueue
      cases h
      exact .reserved_empty hconf hphase hqueue
    · rename_i item rest hqueue
      cases h
      exact .reserved_take hconf hphase hqueue
  · rename_i item hphase
    cases h
    exact .submit hconf hphase
  · rename_i item hphase
    split at h
    · cases h
      exact .process hphase (.inl rfl)
    · cases h
      exact .process hphase (.inr rfl)
  · rename_i item hphase
    cases h
    exact .count_failure hphase
  · rename_i item hphase
    cases h
    exact .advance hconf (.inr (.inr (.inr (.inr ⟨item, hphase, rfl⟩))))
  · cases h

theorem worker_section_cases {phase : WorkerPhase}
    (h : s.worker_section config w running outcome = some (s', phase)) :
    WorkerStep config s w s' phase := by
  unfold worker_section at h
  split at h
  · rename_i hconf
    exact coordinated_section_cases hconf h
  · rename_i hconf
    exact plain_section_cases (Bool.not_eq_true _ ▸ hconf) h

/-! ## Request threads -/

/-- The sections of a request thread. -/
inductive RequestStep (config : ContinuousConfig) (s : ContinuousState) (r : Request) :
    ContinuousState → RequestPhase → Prop
  | process {outcome : ProcessOutcome} {phase : RequestPhase} (hphase : r.phase = .processing)
      (hafter : phase = .processed ∨ phase = .failing) :
      RequestStep config s r ((s.record r.item outcome).settle r.item (.processed outcome)) phase
  | count_failure (hphase : r.phase = .failing) :
      RequestStep config s r s.count_failure .processed
  | release (hphase : r.phase = .processed) :
      RequestStep config s r { s with request_slots := s.request_slots + 1 } .released
  | finish (hphase : r.phase = .released) :
      RequestStep config s r
        (({ s with active_requests := s.active_requests - 1 } : ContinuousState).unmark
          (config.execution_agent_id r.item.agent.id) r.item) .finished

theorem request_section_cases {r : Request} {phase : RequestPhase}
    (h : s.request_section config r outcome = some (s', phase)) :
    RequestStep config s r s' phase := by
  unfold request_section at h
  split at h
  · rename_i hphase
    split at h
    · cases h
      exact .process hphase (.inl rfl)
    · cases h
      exact .process hphase (.inr rfl)
  · rename_i hphase
    cases h
    exact .count_failure hphase
  · rename_i hphase
    cases h
    exact .release hphase
  · rename_i hphase
    cases h
    exact .finish hphase
  · cases h

/-! ## What workers leave alone -/

/-- The stages of the shutdown, the way of the events and the workers. -/
structure SameStages (s s' : ContinuousState) : Prop where
  lifecycle_eq : s'.lifecycle = s.lifecycle
  drain_eq : s'.drain = s.drain
  bus_eq : s'.bus = s.bus
  dispatcher_eq : s'.dispatcher = s.dispatcher
  workers_closed_eq : s'.workers_closed = s.workers_closed
  stops_eq : s'.stops = s.stops
  accepted_eq : s'.accepted = s.accepted
  handled_eq : s'.handled = s.handled
  activations_eq : s'.activations = s.activations
  workers_eq : s'.workers = s.workers

/-- The same, and the request threads. -/
structure SameThreads (s s' : ContinuousState) : Prop extends SameStages s s' where
  requests_eq : s'.requests = s.requests

section Frames

variable {s s₁ s' : ContinuousState} {config : ContinuousConfig} {id : String} {item : WorkItem}

theorem SameStages.trans (h : SameStages s s₁) (h' : SameStages s₁ s') : SameStages s s' where
  lifecycle_eq := h'.lifecycle_eq.trans h.lifecycle_eq
  drain_eq := h'.drain_eq.trans h.drain_eq
  bus_eq := h'.bus_eq.trans h.bus_eq
  dispatcher_eq := h'.dispatcher_eq.trans h.dispatcher_eq
  workers_closed_eq := h'.workers_closed_eq.trans h.workers_closed_eq
  stops_eq := h'.stops_eq.trans h.stops_eq
  accepted_eq := h'.accepted_eq.trans h.accepted_eq
  handled_eq := h'.handled_eq.trans h.handled_eq
  activations_eq := h'.activations_eq.trans h.activations_eq
  workers_eq := h'.workers_eq.trans h.workers_eq

theorem SameThreads.trans (h : SameThreads s s₁) (h' : SameThreads s₁ s') : SameThreads s s' where
  toSameStages := h.toSameStages.trans h'.toSameStages
  requests_eq := h'.requests_eq.trans h.requests_eq

theorem SameThreads.refl (s : ContinuousState) : SameThreads s s :=
  ⟨⟨rfl, rfl, rfl, rfl, rfl, rfl, rfl, rfl, rfl, rfl⟩, rfl⟩

theorem issue_threads (s : ContinuousState) (notice : ContinuousIssue) (dropped rejected : Bool) :
    SameThreads s (s.issue notice dropped rejected) :=
  ⟨⟨rfl, rfl, rfl, rfl, rfl, rfl, rfl, rfl, rfl, rfl⟩, rfl⟩

theorem settle_threads (s : ContinuousState) (item : WorkItem) (fate : Fate) :
    SameThreads s (s.settle item fate) :=
  ⟨⟨rfl, rfl, rfl, rfl, rfl, rfl, rfl, rfl, rfl, rfl⟩, rfl⟩

theorem pop_threads (s : ContinuousState) (id : String) (rest : List WorkItem) :
    SameThreads s (s.pop id rest) :=
  ⟨⟨rfl, rfl, rfl, rfl, rfl, rfl, rfl, rfl, rfl, rfl⟩, rfl⟩

theorem append_threads (s : ContinuousState) (id : String) (item : WorkItem) :
    SameThreads s (s.append id item) :=
  ⟨⟨rfl, rfl, rfl, rfl, rfl, rfl, rfl, rfl, rfl, rfl⟩, rfl⟩

theorem replace_threads (s : ContinuousState) (id : String) (index : ℕ) (item : WorkItem) :
    SameThreads s (s.replace id index item) :=
  ⟨⟨rfl, rfl, rfl, rfl, rfl, rfl, rfl, rfl, rfl, rfl⟩, rfl⟩

theorem counts_threads (s : ContinuousState) (counts : ContinuousCounts) :
    SameThreads s { s with counts := counts } :=
  ⟨⟨rfl, rfl, rfl, rfl, rfl, rfl, rfl, rfl, rfl, rfl⟩, rfl⟩

theorem mark_threads (s : ContinuousState) (id : String) (item : WorkItem) :
    SameThreads s (s.mark id item) := by
  unfold mark
  split
  · exact ⟨⟨rfl, rfl, rfl, rfl, rfl, rfl, rfl, rfl, rfl, rfl⟩, rfl⟩
  · exact .refl s

theorem unmark_threads (s : ContinuousState) (id : String) (item : WorkItem) :
    SameThreads s (s.unmark id item) := by
  unfold unmark
  split
  · exact ⟨⟨rfl, rfl, rfl, rfl, rfl, rfl, rfl, rfl, rfl, rfl⟩, rfl⟩
  · exact .refl s

theorem process_threads (s : ContinuousState) (item : WorkItem) (outcome : ProcessOutcome) :
    SameThreads s ((s.record item outcome).settle item (.processed outcome)) := by
  refine SameThreads.trans ?_ (settle_threads _ _ _)
  cases outcome
  · exact ⟨⟨rfl, rfl, rfl, rfl, rfl, rfl, rfl, rfl, rfl, rfl⟩, rfl⟩
  · exact issue_threads s _ _ _

variable {execution : ExecutionConfiguration} {r : Request}

theorem Enqueued.threads (h : Enqueued config s id execution item s') : SameThreads s s' := by
  cases h with
  | tick_coalesced =>
    unfold coalesce_tick
    exact ((counts_threads s _).trans (issue_threads _ _ _ _)).trans (settle_threads _ _ _)
  | replaced => exact (replace_threads s _ _ _).trans (settle_threads _ _ _)
  | oldest_dropped =>
    unfold drop_oldest
    exact (((pop_threads s _ _).trans (issue_threads _ _ _ _)).trans (settle_threads _ _ _)).trans
      (append_threads _ _ _)
  | rejected => exact (issue_threads s _ _ _).trans (settle_threads _ _ _)
  | appended => exact append_threads s _ _

theorem Enqueued.active_eq (h : Enqueued config s id execution item s') :
    s'.active_requests = s.active_requests := by
  cases h
  all_goals rfl

/-- A section of a request thread leaves the other threads alone. -/
theorem RequestStep.threads {phase : RequestPhase} (h : RequestStep config s r s' phase) :
    SameThreads s s' := by
  cases h with
  | process => exact process_threads s _ _
  | count_failure => exact counts_threads s _
  | release => exact ⟨⟨rfl, rfl, rfl, rfl, rfl, rfl, rfl, rfl, rfl, rfl⟩, rfl⟩
  | finish =>
    refine SameThreads.trans ?_ (unmark_threads _ _ _)
    exact ⟨⟨rfl, rfl, rfl, rfl, rfl, rfl, rfl, rfl, rfl, rfl⟩, rfl⟩

variable {w : Worker}

/-- A section of a worker leaves the other threads alone, except that it starts a
request thread. -/
theorem WorkerStep.threads {phase : WorkerPhase} (h : WorkerStep config s w s' phase) :
    SameThreads s s' ∨ ∃ item, w.phase = .submitting item ∧ phase = .waiting ∧
      s' = { s with requests := s.requests ++ [{ item := item }] } := by
  cases h with
  | take => exact .inl ((pop_threads s _ _).trans (mark_threads _ _ _))
  | process => exact .inl (process_threads s _ _)
  | count_failure => exact .inl (counts_threads s _)
  | unmark => exact .inl (unmark_threads s _ _)
  | refused_take => exact .inl (pop_threads s _ _)
  | reserved_take =>
    refine .inl (SameThreads.trans ?_ (mark_threads _ _ _))
    exact ⟨⟨rfl, rfl, rfl, rfl, rfl, rfl, rfl, rfl, rfl, rfl⟩, rfl⟩
  | acquire | reserved_empty =>
    exact .inl ⟨⟨rfl, rfl, rfl, rfl, rfl, rfl, rfl, rfl, rfl, rfl⟩, rfl⟩
  | return_empty | close | return_closed | advance => exact .inl (.refl s)
  | submit hconf hphase => exact .inr ⟨_, hphase, rfl, rfl⟩

theorem mark_queues (s : ContinuousState) (id : String) (item : WorkItem) :
    (s.mark id item).queues = s.queues := by
  unfold mark
  split
  · rfl
  · rfl

theorem unmark_queues (s : ContinuousState) (id : String) (item : WorkItem) :
    (s.unmark id item).queues = s.queues := by
  unfold ContinuousState.unmark
  split
  · rfl
  · rfl

/-- A worker puts nothing into a queue. -/
theorem WorkerStep.mem_queues {phase : WorkerPhase} (h : WorkerStep config s w s' phase)
    {queued : WorkItem} (hqueued : queued ∈ s'.queues id) : queued ∈ s.queues id := by
  have hpop : ∀ {item : WorkItem} {rest : List WorkItem}, s.queues w.agent_id = item :: rest →
      queued ∈ (s.pop w.agent_id rest).queues id → queued ∈ s.queues id := by
    intro item rest hqueue hmem
    by_cases heq : id = w.agent_id
    · rw [heq, s.pop_queues] at hmem
      rw [heq, hqueue]
      exact List.mem_cons_of_mem item hmem
    · rwa [s.pop_queues_of_ne heq] at hmem
  cases h with
  | take _ _ hqueue =>
    rw [mark_queues] at hqueued
    exact hpop hqueue hqueued
  | reserved_take _ _ hqueue =>
    rw [mark_queues] at hqueued
    exact hpop hqueue hqueued
  | refused_take _ _ hqueue => exact hpop hqueue hqueued
  | unmark => rwa [unmark_queues] at hqueued
  | @process item outcome phase hphase hafter =>
    cases outcome
    · exact hqueued
    · exact hqueued
  | _ => exact hqueued

theorem WorkerStep.queues_nil {phase : WorkerPhase} (h : WorkerStep config s w s' phase)
    (hnil : s.queues id = []) : s'.queues id = [] := by
  apply List.eq_nil_iff_forall_not_mem.mpr
  intro queued hqueued
  have hmem := h.mem_queues hqueued
  rw [hnil] at hmem
  cases hmem

theorem RequestStep.queues_eq {phase : RequestPhase} (h : RequestStep config s r s' phase) :
    s'.queues = s.queues := by
  cases h with
  | @process outcome phase hphase hafter =>
    cases outcome
    · rfl
    · rfl
  | finish => exact unmark_queues _ _ _
  | _ => rfl

/-- A worker that has returned has no section left. -/
theorem WorkerStep.not_returned {phase : WorkerPhase} (h : WorkerStep config s w s' phase) :
    w.phase ≠ .returned := by
  intro hreturned
  cases h with
  | advance hconf hphases =>
    rcases hphases with ⟨hp, _⟩ | ⟨hp, _⟩ | ⟨hp, _⟩ | ⟨hp, _⟩ | ⟨_, hp, _⟩
    all_goals
      rw [hp] at hreturned
      cases hreturned
  | count_failure hp | return_empty hp | close hp | return_closed hp | process hp =>
    rw [hp] at hreturned
    cases hreturned
  | take _ hp | unmark _ hp | refused_take _ hp | acquire _ hp | reserved_empty _ hp
  | reserved_take _ hp | submit _ hp =>
    rw [hp] at hreturned
    cases hreturned

theorem WorkerStep.stages {phase : WorkerPhase} (h : WorkerStep config s w s' phase) :
    SameStages s s' := by
  rcases h.threads with hthreads | ⟨item, _, _, rfl⟩
  · exact hthreads.toSameStages
  · exact ⟨rfl, rfl, rfl, rfl, rfl, rfl, rfl, rfl, rfl, rfl⟩

end Frames

/-! ## Publishers -/

/-- The sections of `publish`. -/
inductive PublishStep (s : ContinuousState) (k : ℕ) (p : Publication) : ContinuousState → Prop
  | checked (hchecked : p.checked = false) (hstate : s.lifecycle = .running) :
      PublishStep s k p { s with publications := s.publications.set k { p with checked := true } }
  | accepted {bus : EventBus} {sink : Option String} (hchecked : p.checked = true)
      (hbus : s.bus.publish p.event sink = .ok bus) :
      PublishStep s k p
        (({ s with bus := bus, accepted := s.accepted ++ [p.event] } :
          ContinuousState).publication_over k p)
  | failed (text : String) : PublishStep s k p ((s.publish_failed p text).publication_over k p)

/-- A publication that raised leaves an issue when an interval thread made it. -/
theorem publish_failed_cases (s : ContinuousState) (p : Publication) (text : String) :
    s.publish_failed p text = s ∨
      ∃ notice : ContinuousIssue, notice.code = .publish_failed ∧
        s.publish_failed p text = s.issue notice false true := by
  unfold publish_failed
  split
  · exact .inr ⟨_, rfl, rfl⟩
  · exact .inl rfl

theorem publish_section_cases (s : ContinuousState) (k : ℕ) (p : Publication)
    (sink : Option String) : PublishStep s k p (s.publish_section k p sink) := by
  unfold publish_section
  split
  · rename_i hchecked
    split
    · rename_i hstate
      exact .checked (Bool.not_eq_true _ ▸ hchecked) hstate
    · exact .failed _
  · rename_i hchecked
    split
    · rename_i bus hbus
      exact .accepted (not_not.mp hchecked) hbus
    · exact .failed _

/-! ## Stop -/

/-- The sections of `stop` after the first one. -/
inductive StopStep (s : ContinuousState) : StopPhase → ContinuousState → StopPhase → Prop
  | wake : StopStep s .waking { s with interval_stop := true } .joining_intervals
  | intervals_joined (hjoined : ∀ t ∈ s.intervals, t.phase = .returned) :
      StopStep s .joining_intervals s .closing_bus
  | close_bus : StopStep s .closing_bus { s with bus := s.bus.close } .joining_dispatcher
  | dispatcher_joined (hjoined : s.dispatcher = .returned) :
      StopStep s .joining_dispatcher s (.joining_workers 0)
  | worker_joined {n : ℕ} {w : Worker} (hw : s.workers[n]? = some w)
      (hjoined : w.phase = .returned) : StopStep s (.joining_workers n) s (.joining_workers (n + 1))
  | workers_joined {n : ℕ} (hn : s.workers[n]? = none) :
      StopStep s (.joining_workers n) s .awaiting_requests
  | requests_ended (hactive : s.active_requests = 0) :
      StopStep s .awaiting_requests s .shutting_down
  | shut_down (hfinished : ∀ r ∈ s.requests, r.phase = .finished) :
      StopStep s .shutting_down s .finishing
  | finish : StopStep s .finishing { s with lifecycle := .stopped } .returned

theorem worker_returned_iff (w : Worker) : worker_returned w = true ↔ w.phase = .returned := by
  unfold worker_returned
  split
  · rename_i hphase
    exact ⟨fun _ => hphase, fun _ => rfl⟩
  · rename_i hphase
    exact ⟨(by rintro ⟨⟩), fun h => absurd h hphase⟩

theorem dispatcher_returned_iff (s : ContinuousState) :
    s.dispatcher_returned = true ↔ s.dispatcher = .returned := by
  unfold dispatcher_returned
  split
  · rename_i hphase
    exact ⟨fun _ => hphase, fun _ => rfl⟩
  · rename_i hphase
    exact ⟨(by rintro ⟨⟩), fun h => absurd h hphase⟩

/-- `begin_stop` moves the lifecycle and adds a call. -/
theorem begin_stop_cases (s : ContinuousState) (drain : Bool) :
    (s.lifecycle = .running ∧ s.begin_stop drain =
        { s with
          lifecycle := .stopping
          drain := drain
          stops := s.stops ++ [{ drain := drain, phase := .waking }] }) ∨
      (s.lifecycle = .stopping ∧ s.begin_stop drain =
        { s with stops := s.stops ++ [{ drain := drain, phase := .waking }] }) ∨
      (s.lifecycle = .stopped ∧ s.begin_stop drain =
        { s with stops := s.stops ++ [{ drain := drain, phase := .returned }] }) := by
  unfold begin_stop
  split
  · rename_i hstate
    exact .inl ⟨hstate, rfl⟩
  · rename_i hstate
    exact .inr (.inl ⟨hstate, rfl⟩)
  · rename_i hstate
    exact .inr (.inr ⟨hstate, rfl⟩)

theorem stop_section_cases {before after : StopPhase}
    (h : s.stop_section before = some (s', after)) : StopStep s before s' after := by
  unfold stop_section at h
  split at h
  · cases h
    exact .wake
  · rw [ite_none_right_eq_some] at h
    obtain ⟨hjoined, h⟩ := h
    cases h
    exact .intervals_joined hjoined
  · cases h
    exact .close_bus
  · rw [ite_none_right_eq_some] at h
    obtain ⟨hjoined, h⟩ := h
    cases h
    exact .dispatcher_joined ((dispatcher_returned_iff s).mp hjoined)
  · split at h
    · rename_i w hw
      rw [ite_none_right_eq_some] at h
      obtain ⟨hjoined, h⟩ := h
      cases h
      exact .worker_joined hw ((worker_returned_iff w).mp hjoined)
    · rename_i hn
      cases h
      exact .workers_joined hn
  · rw [ite_none_right_eq_some] at h
    obtain ⟨hactive, h⟩ := h
    cases h
    exact .requests_ended hactive
  · rw [ite_none_right_eq_some] at h
    obtain ⟨hfinished, h⟩ := h
    cases h
    exact .shut_down hfinished
  · cases h
    exact .finish
  · cases h
  · cases h

end ContinuousState

/-! ## The system -/

open ContinuousState in
/-- The sections of the system. -/
inductive ContinuousStep (config : ContinuousConfig) (s : ContinuousState) :
    ContinuousEvent → ContinuousState → Prop
  | offer (event : RuntimeEvent) :
      ContinuousStep config s (.offer event)
        { s with publications := s.publications ++ [{ event, interval := none }] }
  | interval {i : ℕ} {t : IntervalThread} (event_id : String) (scheduled_at : ℤ)
      (scheduled_tick : ℚ) (ht : s.intervals[i]? = some t) (hphase : t.phase = .waiting)
      (hstop : s.interval_stop = false) :
      ContinuousStep config s (.interval i event_id scheduled_at scheduled_tick)
        { s with
          scheduled_ticks := Function.update s.scheduled_ticks event_id (some scheduled_tick)
          publications := s.publications ++
            [{ event := interval_event t event_id scheduled_at, interval := some i }]
          intervals := s.intervals.set i { t with phase := .publishing, sequence := t.sequence + 1 } }
  | interval_return {i : ℕ} {t : IntervalThread} (ht : s.intervals[i]? = some t)
      (hphase : t.phase = .waiting) (hstop : s.interval_stop = true) :
      ContinuousStep config s (.interval_return i)
        { s with intervals := s.intervals.set i { t with phase := .returned } }
  | publish {k : ℕ} {p : Publication} {sink : Option String} {s' : ContinuousState}
      (hp : s.publications[k]? = some p) (h : PublishStep s k p s') :
      ContinuousStep config s (.publish k sink) s'
  | dispatcher {s' : ContinuousState} (h : DispatcherStep config s s') :
      ContinuousStep config s .dispatcher s'
  | worker {i : ℕ} {running : Bool} {outcome : ProcessOutcome} {w : Worker} {s₁ : ContinuousState}
      {phase : WorkerPhase} (hw : s.workers[i]? = some w) (h : WorkerStep config s w s₁ phase) :
      ContinuousStep config s (.worker i running outcome)
        { s₁ with workers := s.workers.set i { w with phase := phase } }
  | request {j : ℕ} {outcome : ProcessOutcome} {r : Request} {s₁ : ContinuousState}
      {phase : RequestPhase} (hr : s.requests[j]? = some r) (h : RequestStep config s r s₁ phase) :
      ContinuousStep config s (.request j outcome)
        { s₁ with requests := s.requests.set j { r with phase := phase } }
  | stop (drain : Bool) : ContinuousStep config s (.stop drain) (s.begin_stop drain)
  | stop_section {k : ℕ} {c : StopCall} {s₁ : ContinuousState} {phase : StopPhase}
      (hc : s.stops[k]? = some c) (h : StopStep s c.phase s₁ phase) :
      ContinuousStep config s (.stop_section k)
        { s₁ with stops := s.stops.set k { c with phase := phase } }
  | stop_raise {k : ℕ} {c : StopCall} (hc : s.stops[k]? = some c)
      (hphase : c.phase ≠ .returned ∧ c.phase ≠ .raised) :
      ContinuousStep config s (.stop_raise k)
        { s with stops := s.stops.set k { c with phase := .raised } }

theorem continuous_step_cases {config : ContinuousConfig} {s s' : ContinuousState}
    {e : ContinuousEvent} (h : (continuous_system config).step s e = some s') :
    ContinuousStep config s e s' := by
  cases e with
  | offer event =>
    cases h
    exact .offer event
  | interval i event_id scheduled_at scheduled_tick =>
    simp only [continuous_system, ContinuousState.step] at h
    split at h
    · rename_i t ht
      rw [ite_none_right_eq_some] at h
      obtain ⟨⟨hphase, hstop⟩, h⟩ := h
      cases h
      exact .interval event_id scheduled_at scheduled_tick ht hphase (Bool.not_eq_true _ ▸ hstop)
    · cases h
  | interval_return i =>
    simp only [continuous_system, ContinuousState.step] at h
    split at h
    · rename_i t ht
      rw [ite_none_right_eq_some] at h
      obtain ⟨⟨hphase, hstop⟩, h⟩ := h
      cases h
      exact .interval_return ht hphase hstop
    · cases h
  | publish k sink =>
    obtain ⟨p, hp, rfl⟩ := map_eq_some_iff.mp h
    exact .publish hp (ContinuousState.publish_section_cases s k p sink)
  | dispatcher => exact .dispatcher (ContinuousState.dispatcher_section_cases h)
  | worker i running outcome =>
    simp only [continuous_system, ContinuousState.step] at h
    split at h
    · rename_i w hw
      obtain ⟨⟨s₁, phase⟩, hs₁, rfl⟩ := map_eq_some_iff.mp h
      exact .worker hw (ContinuousState.worker_section_cases hs₁)
    · cases h
  | request j outcome =>
    simp only [continuous_system, ContinuousState.step] at h
    split at h
    · rename_i r hr
      obtain ⟨⟨s₁, phase⟩, hs₁, rfl⟩ := map_eq_some_iff.mp h
      exact .request hr (ContinuousState.request_section_cases hs₁)
    · cases h
  | stop drain =>
    cases h
    exact .stop drain
  | stop_section k =>
    simp only [continuous_system, ContinuousState.step] at h
    split at h
    · rename_i c hc
      obtain ⟨⟨s₁, phase⟩, hs₁, rfl⟩ := map_eq_some_iff.mp h
      exact .stop_section hc (ContinuousState.stop_section_cases hs₁)
    · cases h
  | stop_raise k =>
    simp only [continuous_system, ContinuousState.step] at h
    split at h
    · rename_i c hc
      rw [ite_none_left_eq_some, not_or] at h
      obtain ⟨hphase, h⟩ := h
      cases h
      exact .stop_raise hc hphase
    · cases h

/-! ## What only the dispatcher changes -/

section Memory

open ContinuousState

variable {s s' : ContinuousState} {config : ContinuousConfig} {e : ContinuousEvent}

/-- The memory of the sources and of the triggers is the same, and so is what was
matched. -/
def SameMemory (s s' : ContinuousState) : Prop :=
  s'.last_sequences = s.last_sequences ∧ s'.last_triggered = s.last_triggered ∧
    s'.activations = s.activations

theorem mark_memory (s : ContinuousState) (id : String) (item : WorkItem) :
    SameMemory s (s.mark id item) := by
  unfold mark
  split
  · exact ⟨rfl, rfl, rfl⟩
  · exact ⟨rfl, rfl, rfl⟩

theorem unmark_memory (s : ContinuousState) (id : String) (item : WorkItem) :
    SameMemory s (s.unmark id item) := by
  unfold ContinuousState.unmark
  split
  · exact ⟨rfl, rfl, rfl⟩
  · exact ⟨rfl, rfl, rfl⟩

theorem process_memory (s : ContinuousState) (item : WorkItem) (outcome : ProcessOutcome) :
    SameMemory s ((s.record item outcome).settle item (.processed outcome)) := by
  cases outcome
  · exact ⟨rfl, rfl, rfl⟩
  · exact ⟨rfl, rfl, rfl⟩

theorem publish_memory {k : ℕ} {p : Publication} (h : PublishStep s k p s') : SameMemory s s' := by
  cases h with
  | checked | accepted => exact ⟨rfl, rfl, rfl⟩
  | failed text =>
    rcases publish_failed_cases s p text with hsame | ⟨notice, _, hissue⟩
    · rw [hsame]
      exact ⟨rfl, rfl, rfl⟩
    · rw [hissue]
      exact ⟨rfl, rfl, rfl⟩

theorem worker_memory {w : Worker} {phase : WorkerPhase}
    (h : WorkerStep config s w s' phase) : SameMemory s s' := by
  cases h with
  | take => exact mark_memory (s.pop _ _) _ _
  | @reserved_take item rest =>
    exact mark_memory { s.pop w.agent_id rest with active_requests := s.active_requests + 1 } _ _
  | unmark => exact unmark_memory s _ _
  | process => exact process_memory s _ _
  | _ => exact ⟨rfl, rfl, rfl⟩

theorem request_memory {r : Request} {phase : RequestPhase}
    (h : RequestStep config s r s' phase) : SameMemory s s' := by
  cases h with
  | process => exact process_memory s _ _
  | finish => exact unmark_memory { s with active_requests := s.active_requests - 1 } _ _
  | _ => exact ⟨rfl, rfl, rfl⟩

/-- Only the dispatcher matches and remembers. -/
theorem ContinuousStep.memory (hs : ContinuousStep config s e s') (he : e ≠ .dispatcher) :
    SameMemory s s' := by
  cases hs with
  | offer | interval | interval_return | stop_raise => exact ⟨rfl, rfl, rfl⟩
  | publish hp hstep => exact publish_memory hstep
  | dispatcher => exact absurd rfl he
  | worker hw hstep =>
    have hsame := worker_memory hstep
    exact hsame
  | request hr hstep =>
    have hsame := request_memory hstep
    exact hsame
  | stop drain =>
    rcases begin_stop_cases s drain with ⟨_, heq⟩ | ⟨_, heq⟩ | ⟨_, heq⟩
    all_goals
      rw [heq]
      exact ⟨rfl, rfl, rfl⟩
  | @stop_section k c s₁ phase hc hstep =>
    generalize c.phase = before at hstep
    cases hstep with
    | _ => exact ⟨rfl, rfl, rfl⟩

end Memory

end MininetAi
