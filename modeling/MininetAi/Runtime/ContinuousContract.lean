/-
What the continuous runtime keeps account of: the contracts of its queues and of
its shutdown.

In every reachable state the counters and the report agree with what became of the
activations, and the queues with the number that is kept of them. When a call of
`stop` has returned, every event the bus accepted was received, every activation
came to its end, and no section is left that could start an invocation. Both are
read off `shutdown_inv`.
-/
import Mathlib.Algebra.BigOperators.Ring.Finset
import MininetAi.Runtime.ContinuousStop

set_option autoImplicit false

namespace MininetAi

open List

open ContinuousState

variable {config : ContinuousConfig} {s s' : ContinuousState}

/-! ## Conservation -/

namespace ContinuousState

/-- How many activations had a fate of a kind. -/
def fated (s : ContinuousState) (kind : Fate → Bool) : ℕ := s.fates.countP fun f => kind f.2

/-- The activations that had a fate of a kind. -/
def fated_items (s : ContinuousState) (kind : Fate → Bool) : Multiset WorkItem :=
  ((s.fates.filter fun f => kind f.2).map Prod.fst : List WorkItem)

/-- How often an issue was reported. -/
def reported (s : ContinuousState) (code : IssueCode) : ℕ :=
  s.issues.countP fun issue => issue.code = code

end ContinuousState

/-- The oldest activation of a full queue, dropped for a new one. -/
def Fate.evicted : Fate → Bool
  | .dropped_oldest => true
  | _ => false

/-- `_process_item` is done and has a record. -/
def Fate.completed : Fate → Bool
  | .processed (.completed _) => true
  | _ => false

/-- `_process_item` is done and has an issue. -/
def Fate.failed : Fate → Bool
  | .processed (.raised _) => true
  | _ => false

/-- The activation was replaced, dropped or rejected because its queue was in use. -/
def Fate.overflowed (fate : Fate) : Bool := fate.merged || fate.refused || fate.evicted

/-- What the counters and the queues say of the activations. -/
structure ActivationContract (config : ContinuousConfig) (s : ContinuousState) : Prop where
  queued_eq : s.queued = ∑ id ∈ config.ids, ((s.queues id).length : ℤ)
  queued_le : s.queued ≤ config.max_queued_events
  length_le : ∀ id agent, config.agent id = some agent →
    (s.queues id).length ≤ agent.execution.queue_capacity
  /-- The activations matched so far are enqueued, coalesced, rejected or pending. -/
  matched_eq : s.counts.matched = s.counts.enqueued + s.counts.coalesced + s.reported .queue_full +
    s.dispatcher.pending.length
  /-- Besides activations the counter has the events that were rejected. -/
  rejected_eq : s.counts.rejected = s.reported .queue_full + s.reported .out_of_order +
    s.reported .payload_invalid + s.reported .publish_failed
  enqueued_eq : s.counts.enqueued = (∑ id ∈ config.ids, (s.queues id).length) +
    s.in_flight.length + s.fated Fate.done + s.fated Fate.evicted + s.fated Fate.discarded
  processed_eq : s.fated Fate.done = s.counts.completed + s.reported .invocation_failed
  evicted_eq : s.fated Fate.evicted = s.reported .drop_oldest
  discarded_eq : s.fated Fate.discarded = s.issues.countP ContinuousIssue.about_discarded
  stopped_empty : s.lifecycle = .stopped → s.queued = 0 ∧ (∀ id ∈ config.ids, s.queues id = []) ∧
    s.in_flight = [] ∧ s.dispatcher.pending = []

/-- One call of `_enqueue` counts its activation once. Coalesced, the activation is
a bounded tick that is dropped, or it has the slot of one with its key. -/
inductive CountedOnce (s : ContinuousState) (id : String) (item : WorkItem) (s' : ContinuousState) :
    Prop
  | enqueued (henqueued : s'.counts.enqueued = s.counts.enqueued + 1)
      (hcoalesced : s'.counts.coalesced = s.counts.coalesced)
      (hrejected : s'.counts.rejected = s.counts.rejected)
      (hqueue : ∃ kept, (kept = s.queues id ∨ ∃ oldest, s.queues id = oldest :: kept) ∧
        s'.queues = Function.update s.queues id (kept ++ [item]))
  | coalesced (henqueued : s'.counts.enqueued = s.counts.enqueued)
      (hcoalesced : s'.counts.coalesced = s.counts.coalesced + 1)
      (hrejected : s'.counts.rejected = s.counts.rejected)
      (hqueue : (item.bounded_tick = true ∧ s'.queues = s.queues) ∨
        ∃ index old, (s.queues id)[index]? = some old ∧ old.coalesce_key = item.coalesce_key ∧
          s'.queues = Function.update s.queues id ((s.queues id).set index item))
  | rejected (henqueued : s'.counts.enqueued = s.counts.enqueued)
      (hcoalesced : s'.counts.coalesced = s.counts.coalesced)
      (hrejected : s'.counts.rejected = s.counts.rejected + 1)
      (hqueue : s'.queues = s.queues)

variable {item : WorkItem}

theorem counted_once {id : String} {execution : ExecutionConfiguration}
    (h : Enqueued config s id execution item s') : CountedOnce s id item s' := by
  cases h with
  | tick_coalesced htick hbusy => exact .coalesced rfl rfl rfl (.inl ⟨htick, rfl⟩)
  | replaced hpolicy hold hkey hfirst hidle =>
    exact .coalesced rfl rfl rfl (.inr ⟨_, _, hold, hkey, rfl⟩)
  | @oldest_dropped dropped rest hpolicy hqueue hfull hplain =>
    refine .enqueued rfl rfl rfl ⟨rest, .inr ⟨dropped, hqueue⟩, ?_⟩
    have hrest : (s.drop_oldest id dropped rest).queues = Function.update s.queues id rest := rfl
    simp only [ContinuousState.append, hrest, Function.update_self, Function.update_idem]
  | rejected hfull hplain => exact .rejected rfl rfl rfl rfl
  | appended hroom hglobal hplain => exact .enqueued rfl rfl rfl ⟨s.queues id, .inl rfl, rfl⟩

/-- Nothing is left when the runtime has stopped. -/
theorem ShutdownInv.stopped_empty (h : ShutdownInv config s) (hstopped : s.lifecycle = .stopped) :
    s.queued = 0 ∧ (∀ id ∈ config.ids, s.queues id = []) ∧ s.in_flight = [] ∧
      s.dispatcher.pending = [] := by
  have hquiet := h.calls.stopped hstopped
  have hqueues := h.stage.queues_empty hquiet
  refine ⟨?_, hqueues, h.stage.flight_empty hquiet, ?_⟩
  · have hqueued := h.work.kept.books.queued_eq
    have hnone : occupancy config.ids s.queues = 0 := occupancy_eq_zero_iff.mpr hqueues
    simpa only [books, hnone, Nat.cast_zero] using hqueued
  · rw [hquiet.dispatcher]
    rfl

/-- The issues of a code that only activations have. -/
theorem Reported.count_code (h : Reported s.books) {code : IssueCode} {kind : Fate → Bool}
    (hcode : ∀ issue : ContinuousIssue, issue.code = code → issue.about_activation = true)
    (hkind : ∀ item fate, ((Fate.report item fate).map fun issue => decide (issue.code = code)).getD
      false = kind fate) : s.reported code = s.fated kind :=
  h.count_issues kind (fun issue => issue.code = code)
    (fun issue hissue => hcode issue (of_decide_eq_true hissue)) hkind

theorem fated_done (s : ContinuousState) :
    s.fated Fate.done = s.fated Fate.completed + s.fated Fate.failed := by
  unfold ContinuousState.fated
  induction s.fates with
  | nil => rfl
  | cons f fates ih =>
    obtain ⟨item, fate⟩ := f
    simp only [countP_cons, ih]
    rcases fate with (_ | _) | _ | _ | _ | _ | _
    all_goals
      simp only [Fate.done, Fate.completed, Fate.failed, if_true, if_false, Bool.false_eq_true]
      omega

theorem fated_removed (s : ContinuousState) :
    s.fated Fate.removed = s.fated Fate.evicted + s.fated Fate.discarded := by
  unfold ContinuousState.fated
  induction s.fates with
  | nil => rfl
  | cons f fates ih =>
    obtain ⟨item, fate⟩ := f
    simp only [countP_cons, ih]
    rcases fate with _ | _ | _ | _ | _ | _
    all_goals
      simp only [Fate.removed, Fate.evicted, Fate.discarded, if_true, if_false,
        Bool.false_eq_true]
      omega

/-- The records are those of the completed activations. -/
theorem Reported.count_records (h : Reported s.books) :
    s.counts.completed = s.fated Fate.completed := by
  have hcompleted : s.counts.completed = s.invocations.length := h.completed_eq
  have hrecorded : s.invocations = s.fates.filterMap fun f => f.2.record f.1 := h.recorded
  rw [hcompleted, hrecorded, length_filterMap_eq_countP]
  unfold ContinuousState.fated
  apply countP_congr
  intro f _
  rcases f.2 with (_ | _) | _ | _ | _ | _ | _
  all_goals simp [Fate.record, Fate.completed]

/-- The issues that are counted as rejected, by their codes. -/
theorem reported_rejected (issues : List ContinuousIssue) :
    (issues.countP fun issue => issue.code.rejected) =
      (issues.countP fun issue => issue.code = .queue_full) +
        (issues.countP fun issue => issue.code = .out_of_order) +
        (issues.countP fun issue => issue.code = .payload_invalid) +
        issues.countP fun issue => issue.code = .publish_failed := by
  induction issues with
  | nil => rfl
  | cons issue issues ih =>
    simp only [countP_cons, ih]
    cases hcode : issue.code
    all_goals simp [IssueCode.rejected]
    all_goals omega

theorem ShutdownInv.activations_counted (h : ShutdownInv config s) :
    ActivationContract config s := by
  obtain ⟨hbooks, hreported, hcounted⟩ := h.work.kept
  have hrefused : s.reported .queue_full = s.fated Fate.refused :=
    hreported.count_code (fun issue hcode => by simp [ContinuousIssue.about_activation, hcode])
      (fun item fate => by rcases fate with (_ | _) | _ | _ | _ | _ | _ <;> rfl)
  have hfailed : s.reported .invocation_failed = s.fated Fate.failed :=
    hreported.count_code (fun issue hcode => by simp [ContinuousIssue.about_activation, hcode])
      (fun item fate => by rcases fate with (_ | _) | _ | _ | _ | _ | _ <;> rfl)
  have hevicted : s.reported .drop_oldest = s.fated Fate.evicted :=
    hreported.count_code (fun issue hcode => by simp [ContinuousIssue.about_activation, hcode])
      (fun item fate => by rcases fate with (_ | _) | _ | _ | _ | _ | _ <;> rfl)
  have hdiscarded : s.issues.countP ContinuousIssue.about_discarded = s.fated Fate.discarded :=
    hreported.count_issues Fate.discarded ContinuousIssue.about_discarded
      (fun issue hissue => about_discarded_activation hissue)
      (fun item fate => by rcases fate with (_ | _) | _ | _ | _ | _ | _ <;> rfl)
  refine ⟨?_, hbooks.queued_le, hbooks.length_le, ?_, ?_, ?_, ?_, hevicted.symm, hdiscarded.symm,
    h.stopped_empty⟩
  · have hqueued : s.queued = (occupancy config.ids s.queues : ℤ) := hbooks.queued_eq
    rw [hqueued, occupancy, Nat.cast_sum]
  · have hmatched := hbooks.matched_once
    rw [hrefused]
    exact hmatched
  · have hrejected : s.counts.rejected = s.issues.countP fun issue => issue.code.rejected :=
      hcounted.rejected_eq
    rw [hrejected]
    exact reported_rejected s.issues
  · have henqueued := hbooks.enqueued_eq
    have hremoved := fated_removed s
    rw [Multiset.coe_card] at henqueued
    simp only [ContinuousState.fated] at hremoved ⊢
    simp only [books, WorkBooks.count, occupancy, hremoved] at henqueued
    omega
  · rw [fated_done, hreported.count_records, hfailed]

/-- The activations of the runtime are conserved: in every reachable state the
counters and the queues agree with what became of every activation, and `_enqueue`
counts the activation it is given exactly once. -/
theorem activation_contract (config : ContinuousConfig) :
    (∀ s, (continuous_system config).Reachable s → ActivationContract config s) ∧
      ∀ s item items, (continuous_system config).Reachable s →
        s.dispatcher = .enqueueing (item :: items) → ∃ s', s.enqueue config item = some s' ∧
          CountedOnce s (config.execution_agent_id item.agent.id) item s' := by
  refine ⟨fun s hs => (shutdown_inv hs).activations_counted, ?_⟩
  intro s item items hs hphase
  have hknown := (shutdown_inv hs).work.pending_known
  rw [hphase] at hknown
  obtain ⟨s', hs'⟩ := enqueue_defined s (hknown item mem_cons_self)
  obtain ⟨agent, hagent, henqueued⟩ := enqueue_cases hs'
  exact ⟨s', hs', counted_once henqueued⟩

/-! ### A run that overflows, raises and stops -/

/-- An agent with a manual trigger and one worker, whose queue has room for one
activation. -/
def single_slot_agent (id : String) (overflow : Overflow) : RuntimeAgent where
  id := id
  deployment := "d"
  targets := []
  triggers := [.manual "ask"]
  execution :=
    { queue_capacity := 1
      max_concurrency := 1
      overflow := overflow
      queue_capacity_pos := Nat.one_pos
      max_concurrency_pos := Nat.one_pos }
  has_decision_scenario := false

/-- An invoker without a graph. -/
theorem no_graph_built (agents : List RuntimeAgent) :
    ∀ g ∈ (none : Option CoordinationGraph), ∃ plan : CoordinationPlan,
      plan.agent_ids = agents.map RuntimeAgent.id ∧ CoordinationGraph.build plan = .ok g := by
  rintro _ ⟨⟩

theorem not_budgeted : false = true → (none : Option CoordinationGraph) ≠ none := by rintro ⟨⟩

/-- A plan of that agent alone. -/
def single_slot_config : ContinuousConfig where
  agents := [single_slot_agent "a" .drop_oldest]
  max_queued_events := 2
  max_concurrent_invocations := 1
  graph := none
  budgeted := false
  payload_error := fun _ => "invalid payload"
  key_error := fun id => id
  graph_built := no_graph_built [single_slot_agent "a" .drop_oldest]
  budgeted_graph := not_budgeted

/-- A manual intent for that agent. -/
def ask (event_id : String) (sequence : ℕ) : RuntimeEvent where
  event_id := event_id
  type := RuntimeEventType.manual_intent
  source := "operator"
  observed_at := 0
  sequence := sequence
  payload := .manual_intent "a" "look"

/-- From the call of `publish` to the point where the dispatcher has the
activation. -/
def ask_schedule (event : RuntimeEvent) : List ContinuousEvent :=
  [.offer event, .publish 0 none, .publish 0 none, .dispatcher, .dispatcher]

/-- The dispatcher puts it into the queue and waits again. -/
def enqueue_schedule : List ContinuousEvent := [.dispatcher, .dispatcher]

/-- Three intents: the first is being processed and the second fills the queue. -/
def overflow_schedule : List ContinuousEvent :=
  ask_schedule (ask "e1" 1) ++ enqueue_schedule ++ [.worker 0 true (.completed .succeeded)] ++
    ask_schedule (ask "e2" 2) ++ enqueue_schedule ++ ask_schedule (ask "e3" 3)

/-- The third replaces the second, `stop` drains, and the last invocation raises. -/
def drained_schedule : List ContinuousEvent :=
  overflow_schedule ++ enqueue_schedule ++
    [.stop true, .stop_section 0, .stop_section 0, .stop_section 0, .dispatcher] ++
    replicate 3 (.worker 0 true (.completed .succeeded)) ++
    replicate 4 (.worker 0 true (.raised "failed")) ++
    replicate 6 (.stop_section 0)

theorem single_slot_init :
    (continuous_system single_slot_config).init (.started single_slot_config 2) :=
  ⟨2, by decide, by decide, rfl⟩

theorem pending_head {phase : DispatcherPhase} (h : phase.pending.head? = some item) :
    ∃ items, phase = .enqueueing (item :: items) := by
  cases phase with
  | enqueueing items =>
    obtain ⟨rest, hrest⟩ := head?_eq_some_iff.mp h
    exact ⟨rest, congrArg DispatcherPhase.enqueueing hrest⟩
  | _ => cases h

/-- The third intent is enqueued in place of the second, and when the runtime has
stopped three activations are accounted for. -/
theorem activation_contract_single_slot :
    (∃ s item items, (continuous_system single_slot_config).Reachable s ∧
        s.dispatcher = .enqueueing (item :: items) ∧ ∃ s', s.enqueue single_slot_config item = some s' ∧
          CountedOnce s "a" item s') ∧
      ∃ s, (continuous_system single_slot_config).Reachable s ∧ s.lifecycle = .stopped ∧
        s.counts.enqueued = 3 ∧ ActivationContract single_slot_config s := by
  obtain ⟨hcontract, honce⟩ := activation_contract single_slot_config
  constructor
  · have hrun : (((continuous_system single_slot_config).run (.started single_slot_config 2)
        overflow_schedule).any fun s => s.dispatcher.pending.head?.any
          fun item => item.agent.id = "a") = true := by decide
    obtain ⟨s, hs, hstate⟩ := (Option.any_eq_true _ _).mp hrun
    have hreach := System.Reachable.run (.init single_slot_init) hs
    obtain ⟨item, hitem, hid⟩ := (Option.any_eq_true _ _).mp hstate
    obtain ⟨items, hphase⟩ := pending_head hitem
    obtain ⟨s', hs', hcounted⟩ := honce s item items hreach hphase
    rw [of_decide_eq_true hid] at hcounted
    exact ⟨s, item, items, hreach, hphase, s', hs', hcounted⟩
  · have hrun : (((continuous_system single_slot_config).run (.started single_slot_config 2)
        drained_schedule).any fun s => s.lifecycle = .stopped && s.counts.enqueued = 3) = true := by
      decide
    obtain ⟨s, hs, hstate⟩ := (Option.any_eq_true _ _).mp hrun
    rw [Bool.and_eq_true] at hstate
    have hreach := System.Reachable.run (.init single_slot_init) hs
    exact ⟨s, hreach, of_decide_eq_true hstate.1, of_decide_eq_true hstate.2, hcontract s hreach⟩

/-! ## The return of `stop` -/

/-- What holds when a call of `stop` has returned. -/
structure StopContract (s : ContinuousState) : Prop where
  /-- The dispatcher has received what the bus accepted, each event once. -/
  received : s.handled.map Prod.fst = s.accepted
  /-- The first call asked to drain: every event was dispatched, and an activation was
  processed unless its queue was in use. -/
  drained : ∀ c, s.stops[0]? = some c → c.drain = true →
    (∀ f ∈ s.handled, f.2 = .dispatched) ∧
      (s.activations : Multiset WorkItem) = s.fated_items Fate.done + s.fated_items Fate.overflowed
  /-- In any case it was processed, or dropped by the stop. -/
  settled : (s.activations : Multiset WorkItem) =
    s.fated_items Fate.done + s.fated_items Fate.overflowed + s.fated_items Fate.discarded
  /-- What was dropped is reported, each event and each activation once. -/
  events_reported : s.issues.filter ContinuousIssue.about_event =
    s.handled.filterMap fun f => f.2.report f.1
  activations_reported : s.issues.filter ContinuousIssue.about_discarded =
    (s.fates.filter fun f => f.2.discarded).filterMap fun f => f.2.report f.1
  recorded : s.invocations = s.fates.filterMap fun f => f.2.record f.1
  /-- No invocation is running. -/
  idle : s.in_flight = []
  workers : ∀ w ∈ s.workers, w.phase = .returned
  requests : ∀ r ∈ s.requests, r.phase = .finished

/-- Every fate is of one of three kinds. -/
theorem fates_settled (s : ContinuousState) :
    ((s.fates.map Prod.fst : List WorkItem) : Multiset WorkItem) =
      s.fated_items Fate.done + s.fated_items Fate.overflowed + s.fated_items Fate.discarded := by
  unfold ContinuousState.fated_items
  induction s.fates with
  | nil => rfl
  | cons f fates ih =>
    obtain ⟨item, fate⟩ := f
    rw [map_cons, ← Multiset.cons_coe, ih]
    rcases fate with _ | _ | _ | _ | _ | _
    all_goals
      simp only [filter_cons, Fate.done, Fate.overflowed, Fate.merged, Fate.refused,
        Fate.evicted, Fate.discarded, Bool.or_false, Bool.or_true, Bool.false_eq_true, if_true,
        if_false, map_cons, ← Multiset.cons_coe, Multiset.cons_add, Multiset.add_cons]

/-- The discarded activations are reported one by one. -/
theorem Reported.discarded (h : Reported s.books) :
    s.issues.filter ContinuousIssue.about_discarded =
      (s.fates.filter fun f => f.2.discarded).filterMap fun f => f.2.report f.1 := by
  have hreported : s.issues.filter ContinuousIssue.about_activation =
      s.fates.filterMap fun f => f.2.report f.1 := h.reported
  have hnested : s.issues.filter ContinuousIssue.about_discarded =
      (s.issues.filter ContinuousIssue.about_activation).filter ContinuousIssue.about_discarded := by
    rw [filter_filter]
    apply filter_congr
    intro issue _
    cases habout : issue.about_discarded with
    | false => rfl
    | true => rw [about_discarded_activation habout, Bool.and_true]
  rw [hnested, hreported, filter_filterMap, filterMap_filter]
  apply filterMap_congr
  intro f _
  obtain ⟨item, fate⟩ := f
  rcases fate with (_ | _) | _ | _ | _ | _ | _
  all_goals rfl

theorem ShutdownInv.nothing_lost (h : ShutdownInv config s) (hstopped : s.lifecycle = .stopped) :
    StopContract s := by
  have hquiet := h.calls.stopped hstopped
  have hreturned := h.stage.returned_closed hquiet.dispatcher
  obtain ⟨hqueued, hqueues, hflight, hpending⟩ := h.stopped_empty hstopped
  obtain ⟨hbooks, hreported, _⟩ := h.work.kept
  have hsettled : (s.activations : Multiset WorkItem) =
      s.fated_items Fate.done + s.fated_items Fate.overflowed + s.fated_items Fate.discarded := by
    have hconserved := hbooks.conserved
    have hnone : contents config.ids s.queues = 0 := contents_eq_zero hqueues
    rw [hpending, hflight] at hconserved
    simp only [books, hnone, Multiset.coe_nil, zero_add] at hconserved
    rw [hconserved]
    exact fates_settled s
  have hreceived : s.handled.map Prod.fst = s.accepted := by
    have hconserved := h.events.conserved
    rw [hquiet.dispatcher, hreturned.2] at hconserved
    rw [hconserved]
    exact (append_nil _).symm
  refine ⟨hreceived, ?_, hsettled, h.events.reported, hreported.discarded, hreported.recorded,
    hflight, hquiet.workers, h.stage.requests_finished hquiet⟩
  intro c hc hdrain
  have hdrains : s.drain = true := (h.calls.first_drain c hc).trans hdrain
  refine ⟨h.events.dispatched hdrains, ?_⟩
  have hnone : s.fated_items Fate.discarded = 0 := by
    unfold ContinuousState.fated_items
    rw [filter_eq_nil_iff.mpr]
    · rfl
    · intro f hf
      rw [h.events.undiscarded hdrains f hf]
      rintro ⟨⟩
  rw [hsettled, hnone, add_zero]

theorem Frozen.refl (s : ContinuousState) : Frozen s s :=
  ⟨rfl, rfl, rfl, rfl, rfl, rfl, rfl, rfl, rfl⟩

theorem Frozen.trans {s₁ : ContinuousState} (h : Frozen s s₁) (h' : Frozen s₁ s') : Frozen s s' :=
  ⟨h'.fates_eq.trans h.fates_eq, h'.handled_eq.trans h.handled_eq,
    h'.invocations_eq.trans h.invocations_eq, h'.accepted_eq.trans h.accepted_eq,
    h'.activations_eq.trans h.activations_eq, h'.workers_eq.trans h.workers_eq,
    h'.requests_eq.trans h.requests_eq, h'.active_eq.trans h.active_eq,
    h'.dispatcher_eq.trans h.dispatcher_eq⟩

/-- No run gets out of a quiet state. -/
theorem Quiet.frozen_run (hquiet : Quiet s) (hs : (continuous_system config).Reachable s)
    {es : List ContinuousEvent} (hrun : (continuous_system config).run s es = some s') :
    Frozen s s' ∧ Quiet s' := by
  induction es generalizing s with
  | nil =>
    have heq : s = s' := Option.some.inj hrun
    rw [← heq]
    exact ⟨.refl s, hquiet⟩
  | cons e es ih =>
    obtain ⟨s₁, hs₁, hrest⟩ := Option.bind_eq_some_iff.mp hrun
    have hstage := (shutdown_inv hs).stage
    have hstep := continuous_step_cases hs₁
    have hfrozen := hstage.frozen hquiet hstep
    obtain ⟨hfrozen', hquiet'⟩ := ih (hstage.quiet_persists hquiet hstep) (.step hs hs₁) hrest
    exact ⟨hfrozen.trans hfrozen', hquiet'⟩

/-- When a call of `stop` has returned nothing accepted is lost, nothing runs and
nothing starts afterwards, whatever the threads and their callers do. -/
theorem stop_contract (config : ContinuousConfig) {s : ContinuousState}
    (hs : (continuous_system config).Reachable s) {c : StopCall} (hc : c ∈ s.stops)
    (hreturned : c.phase = .returned) :
    StopContract s ∧ ∀ es s', (continuous_system config).run s es = some s' →
      Frozen s s' ∧ s'.in_flight = [] := by
  have hinv := shutdown_inv hs
  have hstopped : s.lifecycle = .stopped := by
    have hreached := hinv.calls.reached c hc
    rw [hreturned] at hreached
    exact hreached
  refine ⟨hinv.nothing_lost hstopped, ?_⟩
  intro es s' hrun
  obtain ⟨hfrozen, hquiet⟩ := (hinv.calls.stopped hstopped).frozen_run hs hrun
  exact ⟨hfrozen, (shutdown_inv (hs.run hrun)).stage.flight_empty hquiet⟩

/-- The run above is drained; nothing is left to run. -/
theorem stop_contract_drained :
    ∃ s, (continuous_system single_slot_config).Reachable s ∧ StopContract s ∧
      s.stops[0]? = some ⟨true, .returned⟩ ∧ s.accepted.length = 3 ∧
      ∀ es s', (continuous_system single_slot_config).run s es = some s' → Frozen s s' := by
  have hrun : (((continuous_system single_slot_config).run (.started single_slot_config 2)
      drained_schedule).any fun s => s.stops[0]? = some ⟨true, .returned⟩ &&
        s.accepted.length = 3) = true := by decide
  obtain ⟨s, hs, hstate⟩ := (Option.any_eq_true _ _).mp hrun
  rw [Bool.and_eq_true] at hstate
  have hfirst : s.stops[0]? = some ⟨true, .returned⟩ := of_decide_eq_true hstate.1
  have hreach := System.Reachable.run (.init single_slot_init) hs
  obtain ⟨hcontract, hafter⟩ :=
    stop_contract single_slot_config hreach (mem_of_getElem? hfirst) rfl
  exact ⟨s, hreach, hcontract, hfirst, of_decide_eq_true hstate.2,
    fun es s' hrun => (hafter es s' hrun).1⟩

end MininetAi
