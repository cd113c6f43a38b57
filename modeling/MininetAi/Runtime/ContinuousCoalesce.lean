/-
Coalescing in the continuous runtime: in whose favour an activation is replaced or
dropped.

`_enqueue` works on the queue of the agent that executes, and it compares less than
the request: the key of an activation has its trigger and its subject, but not the
agent it was requested of, and a bounded tick gives way to whatever is queued. What
that does is read off the state before: `EnqueuesOwn` says that the queue has nothing
of another agent where `_enqueue` looks. Under it an activation gives way only to one
of its own request.

Where every agent executes for itself and an agent with a decision scenario has its
interval trigger alone, all runs are of this kind (`SoleTicks`). A central
coordinator has one queue for all agents, and there they are not.
-/
import MininetAi.Runtime.ContinuousContract
import MininetAi.Runtime.ContinuousPlace

set_option autoImplicit false

namespace MininetAi

open List

open ContinuousState

variable {config : ContinuousConfig} {s s' : ContinuousState} {e : ContinuousEvent}

/-! ## What gives way to what -/

/-- The activations are for the same requested agent, trigger and subject. -/
def WorkItem.SameRequest (a b : WorkItem) : Prop :=
  a.agent.id = b.agent.id ∧ a.trigger = b.trigger ∧ a.event.subject = b.event.subject

instance (a b : WorkItem) : Decidable (a.SameRequest b) := inferInstanceAs (Decidable (_ ∧ _ ∧ _))

/-- The activation was coalesced with one of the same request: the one that replaced
it, or a bounded tick that was queued or in flight. -/
def Fate.InFavour (item : WorkItem) : Fate → Prop
  | .replaced new_item => item.SameRequest new_item
  | .coalesced present =>
    ∃ earlier ∈ present, earlier.bounded_tick = true ∧ earlier.SameRequest item
  | _ => True

instance (item : WorkItem) (fate : Fate) : Decidable (fate.InFavour item) := by
  cases fate
  all_goals
    unfold Fate.InFavour
    infer_instance

/-- The activations that were replaced or dropped by coalescing, with what became of
them. -/
def ContinuousState.coalescings (s : ContinuousState) : List (WorkItem × Fate) :=
  s.fates.filter fun f => f.2.merged

/-- No activation was coalesced but in favour of one of its own request. -/
def CoalesceContract (s : ContinuousState) : Prop := ∀ f ∈ s.coalescings, f.2.InFavour f.1

/-! ## Where `_enqueue` looks -/

/-- The queued activation that has the key of `item`, in a queue that coalesces. -/
def ContinuousState.same_key (config : ContinuousConfig) (s : ContinuousState) (item : WorkItem) :
    Option WorkItem :=
  let execution_agent_id := config.execution_agent_id item.agent.id
  (config.agent execution_agent_id).bind fun agent =>
    if agent.execution.overflow = .coalesce then
      (s.queues execution_agent_id).find? fun queued => queued.coalesce_key = item.coalesce_key
    else none

/-- `_enqueue` finds nothing of another request in its way: a bounded tick that comes
to a queue in use comes after one of its own, and any other activation finds its key
with one of its own agent or not at all. -/
def EnqueuesOwn (config : ContinuousConfig) (s : ContinuousState) (item : WorkItem) : Prop :=
  let execution_agent_id := config.execution_agent_id item.agent.id
  if item.bounded_tick = true ∧
      (execution_agent_id ∈ s.bounded_active ∨ s.queues execution_agent_id ≠ []) then
    ∃ earlier ∈ s.queues execution_agent_id ++ s.handling,
      earlier.bounded_tick = true ∧ earlier.SameRequest item
  else ∀ queued ∈ s.same_key config item, queued.agent.id = item.agent.id

instance (config : ContinuousConfig) (s : ContinuousState) (item : WorkItem) :
    Decidable (EnqueuesOwn config s item) := by
  unfold EnqueuesOwn
  infer_instance

/-- The condition on a section: what the dispatcher is about to enqueue. -/
def CoalescesOwn (config : ContinuousConfig) (s : ContinuousState) : ContinuousEvent → Prop
  | .dispatcher => ∀ item ∈ s.dispatcher.pending.head?, EnqueuesOwn config s item
  | _ => True

instance (config : ContinuousConfig) (s : ContinuousState) :
    DecidablePred (CoalescesOwn config s) := fun e => by
  cases e
  all_goals
    unfold CoalescesOwn
    infer_instance

/-! ## One section -/

variable {item : WorkItem} {agent : RuntimeAgent} {fate : Fate}

theorem same_key_some {old : WorkItem} {index : ℕ}
    (hagent : config.agent (config.execution_agent_id item.agent.id) = some agent)
    (hpolicy : agent.execution.overflow = .coalesce)
    (hold : (s.queues (config.execution_agent_id item.agent.id))[index]? = some old)
    (hkey : old.coalesce_key = item.coalesce_key) (hfirst : ∀ j < index, ∀ queued,
      (s.queues (config.execution_agent_id item.agent.id))[j]? = some queued →
        queued.coalesce_key ≠ item.coalesce_key) : s.same_key config item = some old := by
  obtain ⟨hlt, hval⟩ := List.getElem?_eq_some_iff.mp hold
  simp only [ContinuousState.same_key, hagent, Option.bind_some, hpolicy, if_true]
  refine find?_eq_some_iff_getElem.mpr ⟨decide_eq_true hkey, index, hlt, hval, ?_⟩
  intro j hj
  have hne := hfirst j hj _ (getElem?_eq_getElem (hj.trans hlt))
  simpa using hne

theorem same_key_none
    (hagent : config.agent (config.execution_agent_id item.agent.id) = some agent)
    (hplain : Uncoalesced s (config.execution_agent_id item.agent.id) agent.execution item) :
    s.same_key config item = none := by
  simp only [ContinuousState.same_key, hagent, Option.bind_some]
  split
  · rename_i hpolicy
    apply find?_eq_none.mpr
    intro queued hqueued
    simpa using hplain.fresh hpolicy queued hqueued
  · rfl

/-- What `_enqueue` adds to the coalesced activations, and when that is in favour of
their own request. -/
theorem enqueued_in_favour (hmatched : item.Matched config)
    (hqueued : ∀ queued ∈ s.queues (config.execution_agent_id item.agent.id),
      queued.Matched config)
    (hagent : config.agent (config.execution_agent_id item.agent.id) = some agent)
    (h : Enqueued config s (config.execution_agent_id item.agent.id) agent.execution item s') :
    ∃ ends, s'.coalescings = s.coalescings ++ ends ∧
      ((∀ f ∈ ends, f.2.InFavour f.1) ↔ EnqueuesOwn config s item) := by
  have hnone : ∀ fates : List (WorkItem × Fate), fates = [] → ∀ f ∈ fates, f.2.InFavour f.1 := by
    rintro _ rfl f hf
    cases hf
  have hfree : TickIdle s (config.execution_agent_id item.agent.id) item →
      ¬ (item.bounded_tick = true ∧ (config.execution_agent_id item.agent.id ∈ s.bounded_active ∨
        s.queues (config.execution_agent_id item.agent.id) ≠ [])) := by
    rintro hidle ⟨htick, hbusy⟩
    obtain ⟨hmarker, hqueue⟩ := hidle htick
    exact hbusy.elim hmarker fun hne => hne hqueue
  -- not coalesced, the activation finds nothing in its way
  have hplain : Uncoalesced s (config.execution_agent_id item.agent.id) agent.execution item →
      EnqueuesOwn config s item := by
    intro hplain
    unfold EnqueuesOwn
    rw [if_neg (hfree hplain.idle), same_key_none hagent hplain]
    rintro queued ⟨⟩
  cases h with
  | tick_coalesced htick hbusy =>
    refine ⟨[(item, .coalesced (s.queues (config.execution_agent_id item.agent.id) ++ s.handling))],
      filter_append .., ?_⟩
    unfold EnqueuesOwn
    rw [if_pos ⟨htick, hbusy⟩, forall_mem_singleton]
    exact Iff.rfl
  | @replaced index old hpolicy hold hkey hfirst hidle =>
    refine ⟨[(old, .replaced item)], filter_append .., ?_⟩
    unfold EnqueuesOwn
    rw [if_neg (hfree hidle), same_key_some hagent hpolicy hold hkey hfirst,
      forall_mem_singleton]
    have hsame := hkey
    rw [(hqueued old (mem_of_getElem? hold)).key_eq, hmatched.key_eq, Prod.mk.injEq] at hsame
    constructor
    · rintro ⟨hid, _⟩ queued hsome
      cases hsome
      exact hid
    · intro hid
      exact ⟨hid old rfl, hsame⟩
  | @oldest_dropped dropped rest hpolicy hqueue hfull hidle =>
    refine ⟨[], ?_, iff_of_true (hnone [] rfl) (hplain hidle)⟩
    exact filter_append ..
  | rejected hfull hidle =>
    refine ⟨[], ?_, iff_of_true (hnone [] rfl) (hplain hidle)⟩
    exact filter_append ..
  | appended hroom hglobal hidle =>
    exact ⟨[], (append_nil _).symm, iff_of_true (hnone [] rfl) (hplain hidle)⟩

/-! ## All sections -/

/-- A fate that is not coalescing. -/
theorem coalescings_settle (s : ContinuousState) (item : WorkItem) (h : fate.merged = false) :
    (s.settle item fate).coalescings = s.coalescings := by
  have hnone : [(item, fate)].filter (fun f => f.2.merged) = [] := by simp [h]
  simp only [ContinuousState.coalescings, settle, filter_append, hnone,
    append_nil]

theorem coalescings_process (s : ContinuousState) (item : WorkItem) (outcome : ProcessOutcome) :
    ((s.record item outcome).settle item (.processed outcome)).coalescings = s.coalescings := by
  rw [coalescings_settle _ _ rfl]
  cases outcome
  · rfl
  · rfl

theorem coalescings_drop_items (id : String) (items : List WorkItem) :
    ∀ s : ContinuousState, (s.drop_items id items).coalescings = s.coalescings := by
  induction items with
  | nil => exact fun _ => rfl
  | cons item rest ih =>
    intro s
    rw [drop_items, ih, coalescings_settle _ _ rfl]
    rfl

theorem coalescings_drop_queues (ids : List String) :
    ∀ s : ContinuousState, (s.drop_queues ids).coalescings = s.coalescings := by
  induction ids with
  | nil => exact fun _ => rfl
  | cons id ids ih =>
    intro s
    rw [drop_queues, ih, coalescings_drop_items]

theorem coalescings_close (config : ContinuousConfig) (s : ContinuousState) :
    (s.close_workers config).coalescings = s.coalescings := by
  unfold close_workers
  split
  · rfl
  · exact coalescings_drop_queues _ s

theorem coalescings_mark (s : ContinuousState) (id : String) (item : WorkItem) :
    (s.mark id item).coalescings = s.coalescings := by
  unfold mark
  split
  · rfl
  · rfl

theorem coalescings_unmark (s : ContinuousState) (id : String) (item : WorkItem) :
    (s.unmark id item).coalescings = s.coalescings := by
  unfold ContinuousState.unmark
  split
  · rfl
  · rfl

/-- Only `_enqueue` coalesces. -/
theorem ContinuousStep.coalescings_cases (hs : ContinuousStep config s e s') :
    (s'.coalescings = s.coalescings ∧ (e = .dispatcher → s.dispatcher.pending = [])) ∨
      ∃ item items agent s₁, e = .dispatcher ∧ s.dispatcher = .enqueueing (item :: items) ∧
        config.agent (config.execution_agent_id item.agent.id) = some agent ∧
        Enqueued config s (config.execution_agent_id item.agent.id) agent.execution item s₁ ∧
        s'.coalescings = s₁.coalescings := by
  cases hs with
  | offer | interval | interval_return | stop_raise => exact .inl ⟨rfl, by rintro ⟨⟩⟩
  | publish hp hstep =>
    have hfates := (publish_frame hstep).fates_eq
    exact .inl ⟨by rw [coalescings, hfates, coalescings], by rintro ⟨⟩⟩
  | worker hw hstep =>
    refine .inl ⟨?_, by rintro ⟨⟩⟩
    cases hstep with
    | take => exact coalescings_mark (s.pop _ _) _ _
    | reserved_take => exact coalescings_mark _ _ _
    | unmark => exact coalescings_unmark s _ _
    | process => exact coalescings_process s _ _
    | _ => rfl
  | request hr hstep =>
    refine .inl ⟨?_, by rintro ⟨⟩⟩
    cases hstep with
    | process => exact coalescings_process s _ _
    | finish => exact coalescings_unmark _ _ _
    | _ => rfl
  | stop drain =>
    rcases begin_stop_cases s drain with ⟨_, heq⟩ | ⟨_, heq⟩ | ⟨_, heq⟩
    all_goals
      rw [heq]
      exact .inl ⟨rfl, by rintro ⟨⟩⟩
  | @stop_section k c s₁ phase hc hstep =>
    generalize c.phase = before at hstep
    cases hstep with
    | _ => exact .inl ⟨rfl, by rintro ⟨⟩⟩
  | dispatcher hstep =>
    cases hstep with
    | receive hphase | drop hphase | all_enqueued hphase =>
      exact .inl ⟨rfl, fun _ => by rw [hphase]; rfl⟩
    | close hphase => exact .inl ⟨coalescings_close config s, fun _ => by rw [hphase]; rfl⟩
    | dispatch hphase hdrain hdispatched =>
      refine .inl ⟨?_, fun _ => by rw [hphase]; rfl⟩
      cases hdispatched
      · rfl
      · rfl
    | @enqueue item items agent s₁ hphase hagent henqueued =>
      exact .inr ⟨item, items, agent, s₁, rfl, hphase, hagent, henqueued, rfl⟩

/-- What a section coalesces is in favour of its own request, if and only if it
enqueues own activations. -/
theorem coalesced_in_favour (hs : (continuous_system config).Reachable s)
    (hstep : ContinuousStep config s e s') : ∃ ends, s'.coalescings = s.coalescings ++ ends ∧
      ((∀ f ∈ ends, f.2.InFavour f.1) ↔ CoalescesOwn config s e) := by
  rcases hstep.coalescings_cases with ⟨heq, hpending⟩ |
    ⟨item, items, agent, s₁, rfl, hphase, hagent, henqueued, heq⟩
  · refine ⟨[], by rw [heq, append_nil], iff_of_true (fun f hf => by cases hf) ?_⟩
    cases e with
    | dispatcher =>
      intro item hitem
      rw [hpending rfl] at hitem
      cases hitem
    | _ => trivial
  have hwork := work_inv hs
  have hmatched := matched_inv hs
  have hpending : s.dispatcher.pending = item :: items := by
    rw [hphase]
    rfl
  obtain ⟨ends, hends, hiff⟩ := enqueued_in_favour
    (hmatched item (hwork.pending_matched item (hpending ▸ mem_cons_self)))
    (fun queued hqueued =>
      hmatched queued (hwork.queued_matched (ContinuousConfig.ids_of_agent hagent) queued hqueued))
    hagent henqueued
  have hhead : CoalescesOwn config s .dispatcher ↔ EnqueuesOwn config s item := by
    unfold CoalescesOwn
    rw [hpending]
    exact ⟨fun h => h item rfl, fun h _ hitem => Option.some.inj hitem ▸ h⟩
  exact ⟨ends, heq.trans hends, hiff.trans hhead.symm⟩

theorem CoalesceContract.of_own
    (hs : (continuous_system config).ReachableUnder (CoalescesOwn config) s) :
    CoalesceContract s := by
  refine hs.invariant (P := CoalesceContract) ?_ ?_
  · rintro _ ⟨capacity, _, _, rfl⟩ f hf
    cases hf
  · intro s e s' hreach hinv hown hs
    obtain ⟨ends, hends, hiff⟩ := coalesced_in_favour hreach (continuous_step_cases hs)
    intro f hf
    rw [hends] at hf
    rcases mem_append.mp hf with hold | hnew
    · exact hinv f hold
    · exact hiff.mpr hown f hnew

/-! ## Plans whose ticks are alone -/

/-- Every agent executes for itself, and an agent with a decision scenario has its
interval trigger and no other. -/
structure ContinuousConfig.SoleTicks (config : ContinuousConfig) : Prop where
  ids_nodup : (config.agents.map RuntimeAgent.id).Nodup
  decentralized : ∀ graph ∈ config.graph, graph.mode ≠ .centralized
  sole_interval : ∀ agent ∈ config.agents, agent.has_decision_scenario = true →
    ∃ name, agent.triggers = [.interval name]

/-- Interval events come from the interval threads alone. -/
def OwnIntervals (_ : ContinuousState) : ContinuousEvent → Prop
  | .offer event => event.type ≠ RuntimeEventType.interval_elapsed
  | _ => True

theorem ContinuousConfig.SoleTicks.executes_itself (h : config.SoleTicks) (id : String) :
    config.execution_agent_id id = id := by
  unfold ContinuousConfig.execution_agent_id
  split
  · rfl
  · rename_i graph hgraph
    have hmode := h.decentralized graph hgraph
    unfold CoordinationGraph.entry_agent CoordinationGraph.require_agent
    split
    · rfl
    · split
      · rename_i hcentralized _
        exact absurd hcentralized hmode
      · rfl

/-- The events that are not dispatched yet. -/
def ContinuousState.coming (s : ContinuousState) : List RuntimeEvent :=
  s.publications.map Publication.event ++ (s.bus.events ++ s.dispatcher.event)

/-- An interval event has its tick and is about its agent. -/
def TickEvent (scheduled_ticks : String → Option ℚ) (event : RuntimeEvent) : Prop :=
  event.type = RuntimeEventType.interval_elapsed → (scheduled_ticks event.event_id).isSome = true ∧
    ∃ agent_id trigger scheduled_at, event.payload = .interval_elapsed agent_id trigger scheduled_at ∧
      event.subject = some agent_id

/-- An activation of an agent with a decision scenario is its bounded tick. -/
def WorkItem.SoleTick (item : WorkItem) : Prop :=
  item.agent.has_decision_scenario = true → item.bounded_tick = true ∧
    item.agent.triggers = [.interval item.trigger] ∧ item.event.subject = some item.agent.id

structure TickInv (s : ContinuousState) : Prop where
  events : ∀ event ∈ s.coming, TickEvent s.scheduled_ticks event
  items : ∀ item ∈ s.activations, item.SoleTick

variable {event : RuntimeEvent} {name : String}

/-- A tick stays known when another one is added. -/
theorem TickEvent.update {scheduled_ticks : String → Option ℚ}
    (h : TickEvent scheduled_ticks event) (event_id : String) (scheduled_tick : ℚ) :
    TickEvent (Function.update scheduled_ticks event_id (some scheduled_tick)) event := by
  intro hinterval
  refine ⟨?_, (h hinterval).2⟩
  by_cases heq : event.event_id = event_id
  · rw [heq, Function.update_self]
    rfl
  · rw [Function.update_of_ne heq]
    exact (h hinterval).1

theorem TickInv.of_frame (h : TickInv s) (hcoming : ∀ event ∈ s'.coming, event ∈ s.coming)
    (hticks : s'.scheduled_ticks = s.scheduled_ticks) (hactivations : s'.activations = s.activations) :
    TickInv s' where
  events event hevent := by
    rw [hticks]
    exact h.events event (hcoming event hevent)
  items item hitem := h.items item (hactivations ▸ hitem)

theorem manual_trigger_sole (h : agent.triggers = [.interval name]) :
    manual_trigger agent = none := by
  rw [manual_trigger, h]
  rfl

theorem interval_trigger_sole {trigger found : String} (h : agent.triggers = [.interval name])
    (hfound : interval_trigger agent trigger = some found) : found = name := by
  rw [interval_trigger, h, findSome?_cons, findSome?_nil] at hfound
  split at hfound
  · rename_i hmatch
    rw [Option.ite_none_right_eq_some] at hmatch
    rw [← Option.some.inj hfound, ← Option.some.inj hmatch.2]
  · cases hfound

/-- What an interval event triggers at an agent with a decision scenario is its tick;
nothing else triggers there. -/
theorem sole_tick_matches (hsole : config.SoleTicks) {issues : List ContinuousIssue}
    {items : List WorkItem} (hevent : TickEvent s.scheduled_ticks event)
    (h : event_matches config s.last_triggered s.scheduled_ticks event = .ok (issues, items)) :
    ∀ item ∈ items, item.SoleTick := by
  intro item hitem hscenario
  obtain ⟨name, hname⟩ :=
    hsole.sole_interval item.agent (event_matches_items h item hitem).agent_known hscenario
  unfold event_matches at h
  split at h
  · -- a manual intent needs a manual trigger
    split at h
    · split at h
      · cases h
      rename_i agent hagent
      split at h
      · cases h
        cases hitem
      · rename_i trigger htrigger
        cases h
        rw [mem_singleton.mp hitem] at hname
        rw [manual_trigger_sole hname] at htrigger
        cases htrigger
    · cases h
  split at h
  · rename_i hinterval
    obtain ⟨htick, agent_id', trigger', at', hpayload, hsubject⟩ := hevent hinterval
    split at h
    · rename_i agent_id trigger scheduled_at hpayload'
      rw [hpayload'] at hpayload
      split at h
      · cases h
      rename_i agent hagent
      split at h
      · cases h
        cases hitem
      · rename_i found hfound
        cases h
        have heq := mem_singleton.mp hitem
        subst heq
        have hid := (ContinuousConfig.agent_some hagent).2
        cases hpayload
        refine ⟨?_, ?_, ?_⟩
        · exact Bool.and_eq_true_iff.mpr ⟨htick, hscenario⟩
        · rw [hname, interval_trigger_sole hname hfound]
        · exact hsubject.trans (congrArg some hid.symm)
    · cases h
  · -- an event trigger is no interval trigger
    cases h
    obtain ⟨found, hfound, hright⟩ := mem_filterMap.mp hitem
    obtain ⟨agent, hagent, trigger, htrigger, hmatch⟩ := mem_match_triggers hfound
    rcases match_trigger_cases hmatch with ⟨issue, rfl, _⟩ | ⟨item', rfl, hitem', _⟩
    · cases hright
    · cases hright
      rw [← hitem', hname, mem_singleton] at htrigger
      rw [htrigger] at hmatch
      cases hmatch

/-- The sections of the consumers leave the producers alone. -/
def SameProducers (s s' : ContinuousState) : Prop :=
  s'.publications = s.publications ∧ s'.scheduled_ticks = s.scheduled_ticks

theorem mark_producers (s : ContinuousState) (id : String) (item : WorkItem) :
    SameProducers s (s.mark id item) := by
  unfold mark
  split
  · exact ⟨rfl, rfl⟩
  · exact ⟨rfl, rfl⟩

theorem unmark_producers (s : ContinuousState) (id : String) (item : WorkItem) :
    SameProducers s (s.unmark id item) := by
  unfold ContinuousState.unmark
  split
  · exact ⟨rfl, rfl⟩
  · exact ⟨rfl, rfl⟩

theorem process_producers (s : ContinuousState) (item : WorkItem) (outcome : ProcessOutcome) :
    SameProducers s ((s.record item outcome).settle item (.processed outcome)) := by
  cases outcome
  · exact ⟨rfl, rfl⟩
  · exact ⟨rfl, rfl⟩

theorem worker_producers {w : Worker} {phase : WorkerPhase}
    (h : WorkerStep config s w s' phase) : SameProducers s s' := by
  cases h with
  | take => exact mark_producers (s.pop _ _) _ _
  | @reserved_take item rest =>
    exact mark_producers { s.pop w.agent_id rest with active_requests := s.active_requests + 1 } _ _
  | unmark => exact unmark_producers s _ _
  | process => exact process_producers s _ _
  | _ => exact ⟨rfl, rfl⟩

theorem request_producers {r : Request} {phase : RequestPhase}
    (h : RequestStep config s r s' phase) : SameProducers s s' := by
  cases h with
  | process => exact process_producers s _ _
  | finish => exact unmark_producers { s with active_requests := s.active_requests - 1 } _ _
  | _ => exact ⟨rfl, rfl⟩

theorem enqueued_producers {id : String} {execution : ExecutionConfiguration}
    (h : Enqueued config s id execution item s') : SameProducers s s' := by
  cases h with
  | _ => exact ⟨rfl, rfl⟩

theorem TickInv.publish (h : TickInv s) {k : ℕ} {p : Publication}
    (hp : s.publications[k]? = some p) (hstep : PublishStep s k p s') : TickInv s' := by
  have hframe := publish_frame hstep
  have hevent : p.event ∈ s.publications.map Publication.event :=
    mem_map_of_mem (mem_of_getElem? hp)
  -- a publication that is over leaves the others, and at most its event on the bus
  have hover : (∀ event ∈ s'.publications.map Publication.event,
        event ∈ s.publications.map Publication.event) ∧
      ∀ event ∈ s'.bus.events, event ∈ s.bus.events ∨ event = p.event := by
    cases hstep with
    | checked =>
      have hset : (s.publications.set k { p with checked := true }).map Publication.event =
          s.publications.map Publication.event :=
        List.map_set_of_eq Publication.event hp rfl
      exact ⟨fun event hmem => hset ▸ hmem, fun _ hmem => .inl hmem⟩
    | accepted hchecked hbus =>
      obtain ⟨_, _, rfl⟩ := EventBus.publish_ok hbus
      refine ⟨fun event hevent => ?_, fun event hmem => ?_⟩
      · exact Sublist.mem hevent ((eraseIdx_sublist ..).map _)
      · exact (mem_append.mp hmem).imp_right mem_singleton.mp
    | failed text =>
      have hsame : (s.publish_failed p text).publications = s.publications ∧
          (s.publish_failed p text).bus = s.bus := by
        rcases publish_failed_cases s p text with hsame | ⟨notice, _, hissue⟩
        · rw [hsame]
          exact ⟨rfl, rfl⟩
        · rw [hissue]
          exact ⟨rfl, rfl⟩
      refine ⟨fun event hevent => ?_, fun event hmem => .inl ?_⟩
      · simp only [publication_over, hsame.1] at hevent
        exact Sublist.mem hevent ((eraseIdx_sublist ..).map _)
      · simp only [publication_over, hsame.2] at hmem
        exact hmem
  refine h.of_frame (fun event hmem => ?_) hframe.scheduled_ticks_eq hframe.activations_eq
  unfold ContinuousState.coming at hmem ⊢
  rw [hframe.dispatcher_eq] at hmem
  rcases mem_append.mp hmem with hpub | hrest
  · exact mem_append_left _ (hover.1 event hpub)
  rcases mem_append.mp hrest with hbus | hreceived
  · rcases hover.2 event hbus with hold | rfl
    · exact mem_append_right _ (mem_append_left _ hold)
    · exact mem_append_left _ hevent
  · exact mem_append_right _ (mem_append_right _ hreceived)

theorem TickInv.dispatcher (h : TickInv s) (hsole : config.SoleTicks)
    (hstep : DispatcherStep config s s') : TickInv s' := by
  -- the dispatcher has no event left
  have hsilent : ∀ {s₁ : ContinuousState}, s₁.publications = s.publications →
      s₁.bus = s.bus → s₁.dispatcher.event = [] → ∀ event ∈ s₁.coming, event ∈ s.coming := by
    intro s₁ hpublications hbus hdispatcher event hevent
    unfold ContinuousState.coming at hevent ⊢
    rw [hpublications, hbus, hdispatcher, append_nil] at hevent
    rcases mem_append.mp hevent with hold | hnew
    · exact mem_append_left _ hold
    · exact mem_append_right _ (mem_append_left _ hnew)
  cases hstep with
  | @receive event bus hphase hbus =>
    obtain ⟨hevents, _, _⟩ := EventBus.receive_some hbus
    refine h.of_frame (fun other hother => ?_) rfl rfl
    unfold ContinuousState.coming at hother ⊢
    rw [hevents]
    rcases mem_append.mp hother with hpublished | hmem
    · exact mem_append_left _ hpublished
    refine mem_append_right _ (mem_append_left _ ?_)
    rcases mem_append.mp hmem with hrest | hone
    · exact mem_cons_of_mem event hrest
    · rw [mem_singleton.mp hone]
      exact mem_cons_self
  | close hphase =>
    obtain ⟨s₁, hdropped, _, _, hs₁⟩ := close_workers_spec config s
    obtain ⟨queues, queued, counts, issues, fates, rfl⟩ := hdropped.frame
    rw [hs₁]
    exact h.of_frame (hsilent rfl rfl rfl) rfl rfl
  | drop | all_enqueued => exact h.of_frame (hsilent rfl rfl rfl) rfl rfl
  | @dispatch event s₁ hphase hdrain hdispatched =>
    have hreceived : event ∈ s.coming := by
      unfold ContinuousState.coming
      rw [hphase]
      exact mem_append_right _ (mem_append_right _ mem_cons_self)
    cases hdispatched with
    | rejected => exact h.of_frame (hsilent rfl rfl rfl) rfl rfl
    | @matched cooldowns items horder hmatches =>
      refine ⟨fun other hother => h.events other ?_, fun item hitem => ?_⟩
      · refine hsilent ?_ ?_ ?_ other hother
        all_goals rfl
      · rcases mem_append.mp hitem with hold | hnew
        · exact h.items item hold
        · exact sole_tick_matches hsole (h.events event hreceived) hmatches item hnew
  | @enqueue item items agent s₁ hphase hagent henqueued =>
    have hframe := enqueued_producers henqueued
    exact h.of_frame (hsilent hframe.1 henqueued.threads.bus_eq rfl) hframe.2
      henqueued.threads.activations_eq

theorem TickInv.step (h : TickInv s) (hsole : config.SoleTicks) (hown : OwnIntervals s e)
    (hs : ContinuousStep config s e s') : TickInv s' := by
  cases hs with
  | offer event =>
    refine ⟨fun other hother => ?_, h.items⟩
    unfold ContinuousState.coming at hother
    rw [map_append, append_assoc] at hother
    rcases mem_append.mp hother with hold | hrest
    · exact h.events other (mem_append_left _ hold)
    rcases mem_append.mp hrest with hnew | hold
    · intro hinterval
      rw [mem_singleton.mp hnew] at hinterval
      exact absurd hinterval hown
    · exact h.events other (mem_append_right _ hold)
  | @interval i t event_id scheduled_at scheduled_tick ht hphase hstop =>
    refine ⟨fun other hother => ?_, h.items⟩
    unfold ContinuousState.coming at hother
    rw [map_append, append_assoc] at hother
    rcases mem_append.mp hother with hold | hrest
    · exact (h.events other (mem_append_left _ hold)).update event_id scheduled_tick
    rcases mem_append.mp hrest with hnew | hold
    · rw [mem_singleton.mp hnew]
      intro _
      refine ⟨?_, t.agent_id, t.trigger, scheduled_at, rfl, rfl⟩
      simp only [interval_event, Function.update_self, Option.isSome_some]
    · exact (h.events other (mem_append_right _ hold)).update event_id scheduled_tick
  | interval_return | stop_raise => exact h.of_frame (fun _ hevent => hevent) rfl rfl
  | publish hp hstep => exact h.publish hp hstep
  | dispatcher hstep => exact h.dispatcher hsole hstep
  | worker hw hstep =>
    have hstages := hstep.stages
    obtain ⟨hpublications, hticks⟩ := worker_producers hstep
    refine h.of_frame (fun event hevent => ?_) hticks hstages.activations_eq
    simpa only [ContinuousState.coming, hpublications, hstages.bus_eq, hstages.dispatcher_eq]
      using hevent
  | request hr hstep =>
    have hstages := hstep.threads.toSameStages
    obtain ⟨hpublications, hticks⟩ := request_producers hstep
    refine h.of_frame (fun event hevent => ?_) hticks hstages.activations_eq
    simpa only [ContinuousState.coming, hpublications, hstages.bus_eq, hstages.dispatcher_eq]
      using hevent
  | stop drain =>
    rcases begin_stop_cases s drain with ⟨_, heq⟩ | ⟨_, heq⟩ | ⟨_, heq⟩
    all_goals
      rw [heq]
      exact h.of_frame (fun _ hevent => hevent) rfl rfl
  | @stop_section k c s₁ phase hc hstep =>
    generalize c.phase = before at hstep
    cases hstep with
    | _ => exact h.of_frame (fun _ hevent => hevent) rfl rfl

theorem tick_inv (hsole : config.SoleTicks)
    (h : (continuous_system config).ReachableUnder OwnIntervals s) : TickInv s := by
  refine h.invariant (P := TickInv) ?_ ?_
  · rintro _ ⟨capacity, _, _, rfl⟩
    exact ⟨fun _ hevent => (by cases hevent), fun _ hitem => (by cases hitem)⟩
  · intro s e s' _ hinv hown hs
    exact hinv.step hsole hown (continuous_step_cases hs)

/-- Two activations of one agent whose ticks are alone are of the same request. -/
theorem WorkItem.SoleTick.same_request (hsole : config.SoleTicks) {earlier : WorkItem}
    (hearlier : earlier.agent ∈ config.agents) (hitem : item.agent ∈ config.agents)
    (hid : earlier.agent.id = item.agent.id) (hscenario : item.agent.has_decision_scenario = true)
    (hfirst : earlier.SoleTick) (hsecond : item.SoleTick) :
    earlier.bounded_tick = true ∧ earlier.SameRequest item := by
  have hagent : earlier.agent = item.agent :=
    inj_on_of_nodup_map hsole.ids_nodup hearlier hitem hid
  obtain ⟨htick, htriggers, hsubject⟩ := hfirst (hagent ▸ hscenario)
  obtain ⟨_, htriggers', hsubject'⟩ := hsecond hscenario
  refine ⟨htick, hid, ?_, ?_⟩
  · rw [hagent, htriggers'] at htriggers
    simpa using htriggers.symm
  · rw [hsubject, hsubject', hid]

/-- Without a central coordinator the sections enqueue own activations, whatever the
overflow modes are. -/
theorem ContinuousConfig.SoleTicks.coalesces_own (hsole : config.SoleTicks)
    (h : (continuous_system config).ReachableUnder OwnIntervals s) (e : ContinuousEvent) :
    CoalescesOwn config s e := by
  have hwork := work_inv h.reachable
  have hplace := place_inv h.reachable
  have hmatched := matched_inv h.reachable
  have htick := tick_inv hsole h
  cases e with
  | dispatcher =>
    intro item hitem
    have hactivation : item ∈ s.activations :=
      hwork.pending_matched item (mem_of_mem_head? hitem)
    have hknown := (hmatched item hactivation).agent_known
    have hids : item.agent.id ∈ config.ids := ContinuousConfig.mem_ids.mpr ⟨item.agent, hknown, rfl⟩
    -- what is queued or handled for this agent was requested of it
    have hqueued : ∀ queued ∈ s.queues item.agent.id,
        queued ∈ s.activations ∧ queued.agent.id = item.agent.id := fun queued hmem =>
      ⟨hwork.queued_matched hids queued hmem,
        (hsole.executes_itself queued.agent.id).symm.trans (hplace.queued _ queued hmem)⟩
    have hsame : ∀ earlier ∈ s.activations, earlier.agent.id = item.agent.id →
        item.bounded_tick = true → earlier.bounded_tick = true ∧ earlier.SameRequest item :=
      fun earlier hmem hid hbounded => WorkItem.SoleTick.same_request hsole
        (hmatched earlier hmem).agent_known hknown hid (Bool.and_eq_true_iff.mp hbounded).2
        (htick.items earlier hmem) (htick.items item hactivation)
    unfold EnqueuesOwn
    rw [hsole.executes_itself]
    dsimp only
    split
    · rename_i hbusy
      obtain ⟨hbounded, hmarker | hqueue⟩ := hbusy
      · obtain ⟨earlier, hhandled, hmem, _, hid⟩ := hplace.marker_handled hmarker
        rw [hsole.executes_itself] at hid
        exact ⟨earlier, mem_append_right _ hhandled, hsame earlier hmem hid hbounded⟩
      · obtain ⟨earlier, hearlier⟩ := exists_mem_of_ne_nil _ hqueue
        obtain ⟨hmem, hid⟩ := hqueued earlier hearlier
        exact ⟨earlier, mem_append_left _ hearlier, hsame earlier hmem hid hbounded⟩
    · intro queued hsome
      simp only [ContinuousState.same_key, hsole.executes_itself] at hsome
      obtain ⟨agent, _, hfind⟩ := Option.bind_eq_some_iff.mp hsome
      rw [Option.ite_none_right_eq_some] at hfind
      exact (hqueued queued (mem_of_find?_eq_some hfind.2)).2
  | _ => trivial

/-- Coalescing is in favour of the same requested agent, trigger and subject exactly
in the sections that find nothing else in the queue, so it is in runs of such
sections, and in all runs of a plan whose agents execute for themselves. -/
theorem coalescing_own_iff (config : ContinuousConfig) :
    (∀ s e s', (continuous_system config).Reachable s →
      (continuous_system config).step s e = some s' →
      ∃ ends, s'.coalescings = s.coalescings ++ ends ∧
        ((∀ f ∈ ends, f.2.InFavour f.1) ↔ CoalescesOwn config s e)) ∧
    (∀ s, (continuous_system config).ReachableUnder (CoalescesOwn config) s →
      CoalesceContract s) ∧
    (config.SoleTicks → ∀ s, (continuous_system config).ReachableUnder OwnIntervals s →
      (∀ e, CoalescesOwn config s e) ∧ CoalesceContract s) := by
  refine ⟨fun s e s' hs hstep => coalesced_in_favour hs (continuous_step_cases hstep),
    fun s hs => .of_own hs, fun hsole s hs => ⟨hsole.coalesces_own hs, ?_⟩⟩
  exact .of_own (hs.imp fun s e hs' _ => hsole.coalesces_own hs' e)

/-! ### A queue of one agent, and a queue of three -/

/-- An agent that coalesces, alone. -/
def coalescing_config : ContinuousConfig where
  agents := [single_slot_agent "a" .coalesce]
  max_queued_events := 2
  max_concurrent_invocations := 1
  graph := none
  budgeted := false
  payload_error := fun _ => "invalid payload"
  key_error := fun id => id
  graph_built := no_graph_built [single_slot_agent "a" .coalesce]
  budgeted_graph := not_budgeted

theorem coalescing_sole : coalescing_config.SoleTicks := by
  refine ⟨by decide, ?_, ?_⟩
  · rintro graph ⟨⟩
  · intro agent hagent hscenario
    rw [mem_singleton.mp hagent] at hscenario
    cases hscenario

theorem coalescing_init :
    (continuous_system coalescing_config).init (.started coalescing_config 2) :=
  ⟨2, by decide, by decide, rfl⟩

instance (s : ContinuousState) : DecidablePred (OwnIntervals s) := fun e => by
  cases e
  all_goals
    unfold OwnIntervals
    infer_instance

/-- The second intent of the agent replaces the first. -/
theorem coalescing_own_iff_replaced : ∃ s s', (continuous_system coalescing_config).Reachable s ∧
      (continuous_system coalescing_config).step s .dispatcher = some s' ∧
      (∃ ends, s'.coalescings = s.coalescings ++ ends ∧
        ((∀ f ∈ ends, f.2.InFavour f.1) ↔ CoalescesOwn coalescing_config s .dispatcher)) ∧
      s'.coalescings ≠ [] ∧ CoalescesOwn coalescing_config s .dispatcher ∧ CoalesceContract s' := by
  obtain ⟨hsection, hrun, hsole⟩ := coalescing_own_iff coalescing_config
  have hreplay : (((continuous_system coalescing_config).guarded OwnIntervals).run
      (.started coalescing_config 2)
        (ask_schedule (ask "e1" 1) ++ enqueue_schedule ++ ask_schedule (ask "e2" 2))).any
      (fun s => ((continuous_system coalescing_config).step s .dispatcher).any
        fun s' => s'.coalescings.length = 1) = true := by decide
  obtain ⟨s, hs, hstate⟩ := (Option.any_eq_true _ _).mp hreplay
  obtain ⟨s', hs', hlength⟩ := (Option.any_eq_true _ _).mp hstate
  have hguarded : ((continuous_system coalescing_config).guarded OwnIntervals).Reachable s :=
    .run (.init coalescing_init) hs
  have hreach := hguarded.unguarded
  have hown := (hsole coalescing_sole s hreach).1
  have hunder := hreach.imp fun s e hs _ => (hsole coalescing_sole s hs).1 e
  refine ⟨s, s', hreach.reachable, hs', hsection s _ s' hreach.reachable hs', ?_, hown _,
    hrun s' (.step hunder (hown _) hs')⟩
  intro hnil
  rw [hnil] at hlength
  cases of_decide_eq_true hlength

/-- What an activation was replaced by. -/
def Fate.replacement : Fate → Option WorkItem
  | .replaced new_item => some new_item
  | _ => none

/-- What was queued or in flight when a bounded tick was dropped. -/
def Fate.present : Fate → Option (List WorkItem)
  | .coalesced present => some present
  | _ => none

theorem Fate.replacement_eq_some {new_item : WorkItem} :
    fate.replacement = some new_item ↔ fate = .replaced new_item := by
  cases fate <;> simp [Fate.replacement]

theorem Fate.present_eq_some {present : List WorkItem} :
    fate.present = some present ↔ fate = .coalesced present := by
  cases fate <;> simp [Fate.present]

/-- Two agents with an event trigger of one name. -/
def alarmed_agent (id : String) : RuntimeAgent where
  id := id
  deployment := "d"
  targets := []
  triggers := [.event "alarm" "link.down" none none zero_seconds]
  execution :=
    { queue_capacity := 2
      max_concurrency := 1
      overflow := .coalesce
      queue_capacity_pos := Nat.two_pos
      max_concurrency_pos := Nat.one_pos }
  has_decision_scenario := false

/-- An agent that decides at every tick. -/
def ticking_agent (id : String) : RuntimeAgent where
  id := id
  deployment := "d"
  targets := []
  triggers := [.interval "tick"]
  execution :=
    { queue_capacity := 2
      max_concurrency := 1
      overflow := .reject
      queue_capacity_pos := Nat.two_pos
      max_concurrency_pos := Nat.one_pos }
  has_decision_scenario := true

/-- Their coordinator. -/
def centralized_plan : CoordinationPlan where
  agent_ids := ["coordinator", "a", "b", "c"]
  mode := .centralized
  edges :=
    [{ source := "coordinator", target := "a", relationship := .coordinates },
      { source := "coordinator", target := "b", relationship := .coordinates },
      { source := "coordinator", target := "c", relationship := .coordinates }]

def centralized_graph : CoordinationGraph where
  mode := .centralized
  agents := ["coordinator", "a", "b", "c"]
  edges :=
    [{ source := "coordinator", target := "a", relationship := .coordinates },
      { source := "coordinator", target := "b", relationship := .coordinates },
      { source := "coordinator", target := "c", relationship := .coordinates }]
  coordinator := some "coordinator"

theorem centralized_built : CoordinationGraph.build centralized_plan = .ok centralized_graph := by
  decide

def centralized_agents : List RuntimeAgent :=
  [single_slot_agent "coordinator" .coalesce, alarmed_agent "a", alarmed_agent "b",
    ticking_agent "c"]

theorem centralized_graph_built : ∀ g ∈ some centralized_graph, ∃ plan : CoordinationPlan,
    plan.agent_ids = centralized_agents.map RuntimeAgent.id ∧
      CoordinationGraph.build plan = .ok g := by
  rintro graph ⟨⟩
  exact ⟨centralized_plan, rfl, centralized_built⟩

theorem centralized_budgeted : true = true → some centralized_graph ≠ none := by rintro _ ⟨⟩

def centralized_config : ContinuousConfig where
  agents := centralized_agents
  max_queued_events := 4
  max_concurrent_invocations := 1
  graph := some centralized_graph
  budgeted := true
  payload_error := fun _ => "invalid payload"
  key_error := fun id => id
  graph_built := centralized_graph_built
  budgeted_graph := centralized_budgeted

/-- An event both agents are triggered by. -/
def alarm : RuntimeEvent where
  event_id := "e1"
  type := "link.down"
  source := "telemetry"
  observed_at := 0
  sequence := 1

/-- The dispatcher receives an event, matches it and enqueues both activations. -/
def alarm_schedule : List ContinuousEvent :=
  [.offer alarm, .publish 0 none, .publish 0 none, .dispatcher, .dispatcher, .dispatcher,
    .dispatcher, .dispatcher]

/-- A tick comes while the coordinator's queue has the alarm. -/
def alarmed_tick_schedule : List ContinuousEvent :=
  alarm_schedule ++ [.interval 0 "e2" 0 0, .publish 0 none, .publish 0 none, .dispatcher,
    .dispatcher, .dispatcher]

theorem centralized_init :
    (continuous_system centralized_config).init (.started centralized_config 4) :=
  ⟨4, by decide, by decide, rfl⟩

/-- The alarm of one agent replaces that of the other, and the tick of a third one is
dropped though it has no tick queued or in flight. -/
theorem coalescing_swallows :
    ¬ (∀ config s, (continuous_system config).Reachable s → CoalesceContract s) ∧
      (∃ s old new_item, (continuous_system centralized_config).Reachable s ∧
        (old, .replaced new_item) ∈ s.coalescings ∧ old.agent.id ≠ new_item.agent.id) ∧
      ∃ s item present, (continuous_system centralized_config).Reachable s ∧
        (item, .coalesced present) ∈ s.coalescings ∧
        ∀ earlier ∈ present, earlier.bounded_tick = false := by
  have hreplay : ((continuous_system centralized_config).run (.started centralized_config 4)
      alarmed_tick_schedule).any (fun s =>
        (s.coalescings.any fun f => f.2.replacement.any
          fun new_item => f.1.agent.id ≠ new_item.agent.id) &&
        s.coalescings.any fun f => f.2.present.any
          fun present => present.all fun earlier => ! earlier.bounded_tick) = true := by decide
  obtain ⟨s, hs, hstate⟩ := (Option.any_eq_true _ _).mp hreplay
  have hreach := System.Reachable.run (.init centralized_init) hs
  rw [Bool.and_eq_true, any_eq_true, any_eq_true] at hstate
  obtain ⟨⟨⟨old, fate⟩, hfirst, hreplaced⟩, ⟨item, fate'⟩, hsecond, hdropped⟩ := hstate
  obtain ⟨new_item, hnew, hid⟩ := (Option.any_eq_true _ _).mp hreplaced
  obtain ⟨present, hpresent, hticks⟩ := (Option.any_eq_true _ _).mp hdropped
  have hne : old.agent.id ≠ new_item.agent.id := of_decide_eq_true hid
  have hfate : fate = .replaced new_item := Fate.replacement_eq_some.mp hnew
  have hfate' : fate' = .coalesced present := Fate.present_eq_some.mp hpresent
  rw [hfate] at hfirst
  rw [hfate'] at hsecond
  refine ⟨fun hclaim => ?_, ⟨s, old, new_item, hreach, hfirst, hne⟩,
    s, item, present, hreach, hsecond, fun earlier hearlier => ?_⟩
  · exact hne (hclaim centralized_config s hreach _ hfirst).1
  · simpa using all_eq_true.mp hticks earlier hearlier

end MininetAi
