/-
The way of a sequenced event from its producer to the dispatcher
(`TelemetryPipeline._sample` in `mininet_ai/runtime/telemetry.py`,
`ExperimentRuntime.submit_intent` in `mininet_ai/experiment.py`,
`ContinuousAgentRuntime._dispatch` in `mininet_ai/runtime/continuous.py`).

Three locks are involved, and no two of them are held together: a sample draws
the sequences of its events under `_data_lock` and a manual intent draws its own
under the lock of the experiment; the bus takes one event at a time under its
condition; the dispatcher compares each event with the last one of its source. So
what was drawn first need not be published first. The condition under which it is
published in turn is `InTurn`.

What a sample observes and which detectors fire is the environment's choice.
-/
import Mathlib.Data.Fintype.Basic
import MininetAi.Lib.Tickets
import MininetAi.Lib.Transition
import MininetAi.Runtime.Events

set_option autoImplicit false

namespace MininetAi

open List Function

variable {ι : Type}

/-! ## Producers -/

/-- The source all events of the pipeline carry. -/
def telemetry_source : String := "telemetry"

/-- `_next_sequence`: the sequence and the counter behind it. -/
def next_sequence (sequence : ℕ) : ℕ × ℕ := (sequence, sequence + 1)

/-- An observation a sample recorded. -/
structure Observation where
  event_id : String
  agent_id : String
  observed_at : ℤ

/-- A detector that fired on a sample. -/
structure Detection where
  event_id : String
  event : String
  target : String
  observed_at : ℤ

/-- `_detector_events`, with the counter behind it. -/
def detector_events (sequence : ℕ) : List Detection → List RuntimeEvent × ℕ
  | [] => ([], sequence)
  | d :: ds =>
    let (own, sequence) := next_sequence sequence
    let (events, sequence) := detector_events sequence ds
    ({ event_id := d.event_id
       type := d.event
       source := telemetry_source
       subject := some d.target
       observed_at := d.observed_at
       sequence := own } :: events, sequence)

/-- `_events`: the observation, then what the detectors say about it. -/
def telemetry_events (sequence : ℕ) (observation : Observation) (detections : List Detection) :
    List RuntimeEvent × ℕ :=
  let (own, sequence) := next_sequence sequence
  let (events, sequence) := detector_events sequence detections
  ({ event_id := observation.event_id
     type := RuntimeEventType.observation_recorded
     source := telemetry_source
     subject := some observation.agent_id
     observed_at := observation.observed_at
     sequence := own } :: events, sequence)

/-- The agents an intent can be for. -/
structure IntentConfig where
  agent_ids : List String
  manual_agent_ids : List String

/-- Why `submit_intent` raised before it drew a sequence. -/
inductive IntentError where
  /-- A `ValueError`: agent, intent or source is empty. -/
  | missing
  | unknown_agent (agent_id : String) (valid : List String)
  | no_manual_trigger (agent_id : String)

/-- The code of the error. -/
def IntentError.code : IntentError → Option String
  | .missing => none
  | .unknown_agent _ _ | .no_manual_trigger _ => some "experiment.intent.invalid-agent"

/-- The checks of `submit_intent`. -/
def check_intent (config : IntentConfig) (agent_id intent source : String) :
    Except IntentError Unit :=
  if agent_id = "" ∨ intent = "" ∨ source = "" then .error .missing
  else if agent_id ∉ config.agent_ids then .error (.unknown_agent agent_id config.agent_ids)
  else if agent_id ∉ config.manual_agent_ids then .error (.no_manual_trigger agent_id)
  else .ok ()

/-- The event of a manual intent. -/
def intent_event (event_id agent_id intent source : String) (sequence : ℕ) (occurred_at : ℤ) :
    RuntimeEvent where
  event_id := event_id
  type := RuntimeEventType.manual_intent
  source := source
  subject := some agent_id
  observed_at := occurred_at
  sequence := sequence
  payload := .manual_intent agent_id intent

/-! ## The system -/

/-- The counters, the events drawn and not yet published, the bus and the
dispatcher. `accepted` and `out_of_order` are bookkeeping: what the bus took, and
what the dispatcher rejected. -/
structure DeliveryState (ι : Type) where
  sequence : ℕ := 0
  /-- `_source_sequences.get(source, 0)`. -/
  source_sequences : String → ℕ := fun _ => 0
  /-- What a thread has still to publish, in its order. -/
  pending : ι → List RuntimeEvent := fun _ => []
  bus : EventBus
  drain : Bool := true
  last_sequences : String → Option ℕ := fun _ => none
  accepted : List RuntimeEvent := []
  out_of_order : List RuntimeEvent := []

/-- The sections of all threads. -/
inductive DeliveryEvent (ι : Type) where
  /-- The section of `_sample` under `_data_lock`. -/
  | sample (i : ι) (observation : Observation) (detections : List Detection)
  /-- `submit_intent` up to the lock of the experiment. -/
  | submit_intent (i : ι) (event_id agent_id intent source : String) (occurred_at : ℤ)
  /-- The next event of a thread; `refused` says that the runtime itself, which is
  not running any more, raised before the bus. -/
  | publish (i : ι) (refused : Bool) (sink : Option String)
  /-- A thread raises between its sequence and its publication. -/
  | abandon (i : ι)
  | stop (drain : Bool)
  | close
  | dispatch

section System

variable [DecidableEq ι]

/-- The bus and what a publication leaves of it. -/
def publish_outcome (b : EventBus) (event : RuntimeEvent) (refused : Bool) (sink : Option String) :
    Option EventBus :=
  if refused then none else (b.publish event sink).toOption

/-- `_dispatch` up to the matching of triggers. -/
def dispatch_section (s : DeliveryState ι) (event : RuntimeEvent) : DeliveryState ι :=
  if ¬ s.drain then s
  else if in_order (s.last_sequences event.source) event.sequence then
    { s with last_sequences := record_sequence s.last_sequences event }
  else { s with out_of_order := s.out_of_order ++ [event] }

/-- One pipeline, any number of submitters, one bus and one dispatcher. -/
def delivery_system (config : IntentConfig) :
    System (DeliveryState ι) (DeliveryEvent ι) where
  init s := ∃ capacity, s = { bus := { capacity := capacity } }
  step s
    | .sample i observation detections =>
      if s.pending i = [] then
        let (events, sequence) := telemetry_events s.sequence observation detections
        some { s with
          sequence := sequence
          pending := update s.pending i events }
      else none
    | .submit_intent i event_id agent_id intent source occurred_at =>
      if s.pending i = [] then
        match check_intent config agent_id intent source with
        | .error _ => some s
        | .ok () =>
          let sequence := s.source_sequences source
          some { s with
            source_sequences := update s.source_sequences source (sequence + 1)
            pending := update s.pending i
              [intent_event event_id agent_id intent source sequence occurred_at] }
      else none
    | .publish i refused sink => match s.pending i with
      | [] => none
      | event :: rest => match publish_outcome s.bus event refused sink with
        | some bus => some { s with
            bus := bus
            accepted := s.accepted ++ [event]
            pending := update s.pending i rest }
        | none => some { s with pending := update s.pending i rest }
    | .abandon i => some { s with pending := update s.pending i [] }
    | .stop drain => some { s with drain := drain }
    | .close => some { s with bus := s.bus.close }
    | .dispatch => match s.bus.receive with
      | some (event, bus) => some (dispatch_section ({ s with bus := bus } : DeliveryState ι) event)
      | none => none

/-- Who publishes is next: when the bus takes an event, no other thread holds one
of the same source that was drawn before it; and no manual intent uses the source
of the pipeline. -/
def InTurn (s : DeliveryState ι) : DeliveryEvent ι → Prop
  | .publish i refused sink => ∀ event ∈ (s.pending i).head?,
      (publish_outcome s.bus event refused sink).isSome →
      ∀ j, j ≠ i → ∀ other ∈ s.pending j, other.source = event.source →
        event.sequence ≤ other.sequence
  | .submit_intent _ _ _ _ source _ => source ≠ telemetry_source
  | _ => True

instance [Fintype ι] (s : DeliveryState ι) : DecidablePred (InTurn s)
  | .publish i refused sink => inferInstanceAs <| Decidable <|
      ∀ event ∈ (s.pending i).head?, (publish_outcome s.bus event refused sink).isSome →
        ∀ j, j ≠ i → ∀ other ∈ s.pending j, other.source = event.source →
          event.sequence ≤ other.sequence
  | .submit_intent _ _ _ _ source _ => inferInstanceAs <| Decidable (source ≠ telemetry_source)
  | .sample _ _ _ | .abandon _ | .stop _ | .close | .dispatch => isTrue trivial

end System

/-! ## Tickets -/

/-- The place of an event in its source. -/
def RuntimeEvent.ticket (event : RuntimeEvent) : Ticket String where
  key := event.source
  number := event.sequence

/-- The counter of each source. -/
def DeliveryState.next (s : DeliveryState ι) (source : String) : ℕ :=
  if source = telemetry_source then s.sequence else s.source_sequences source

theorem detector_events_tickets (sequence : ℕ) (detections : List Detection) :
    (detector_events sequence detections).1.map RuntimeEvent.ticket
        = Ticket.batch telemetry_source sequence detections.length ∧
      (detector_events sequence detections).2 = sequence + detections.length := by
  induction detections generalizing sequence with
  | nil => exact ⟨rfl, rfl⟩
  | cons d ds ih =>
    obtain ⟨htickets, hnext⟩ := ih (sequence + 1)
    constructor
    · simp only [detector_events, next_sequence, map_cons, htickets, Ticket.batch,
        length_cons, range'_succ]
      rfl
    · simp only [detector_events, next_sequence, hnext, length_cons]
      omega

/-- A sample draws consecutive numbers. -/
theorem telemetry_events_tickets (sequence : ℕ) (observation : Observation)
    (detections : List Detection) :
    (telemetry_events sequence observation detections).1.map RuntimeEvent.ticket
        = Ticket.batch telemetry_source sequence (detections.length + 1) ∧
      (telemetry_events sequence observation detections).2
        = sequence + (detections.length + 1) := by
  obtain ⟨htickets, hnext⟩ := detector_events_tickets (sequence + 1) detections
  constructor
  · simp only [telemetry_events, next_sequence, map_cons, htickets, Ticket.batch,
      range'_succ]
    rfl
  · simp only [telemetry_events, next_sequence, hnext]
    omega

/-! ## Invariants -/

/-- What holds of the counters, the pending events and the bus. -/
structure DeliveryInv (s : DeliveryState ι) : Prop where
  tickets : Tickets s.next (fun i => (s.pending i).map RuntimeEvent.ticket)
    (s.accepted.map RuntimeEvent.ticket)
  /-- What the dispatcher has received stands before the queue, and its memory is
  of that part. -/
  received : ∃ handled, s.accepted = handled ++ s.bus.events ∧
    ∀ source last, s.last_sequences source = some last →
      ∃ event ∈ handled, event.source = source ∧ event.sequence = last
  none_rejected : s.out_of_order = []

section Safety

variable [DecidableEq ι]

/-- The tickets of the pending events after one thread's have changed. -/
theorem pending_update (pending : ι → List RuntimeEvent) (i : ι) (events : List RuntimeEvent) :
    (fun j => (update pending i events j).map RuntimeEvent.ticket)
      = update (fun j => (pending j).map RuntimeEvent.ticket) i
          (events.map RuntimeEvent.ticket) := by
  funext j
  by_cases hj : j = i
  · subst hj
    rw [update_self, update_self]
  · rw [update_of_ne hj, update_of_ne hj]

variable {s : DeliveryState ι} {i : ι}

/-- A thread without pending events draws the next sequences of a source. -/
theorem DeliveryInv.draw {s' : DeliveryState ι} (h : DeliveryInv s) (hi : s.pending i = [])
    {events : List RuntimeEvent} (source : String) (n : ℕ)
    (htickets : events.map RuntimeEvent.ticket = Ticket.batch source (s.next source) n)
    (hnext : s'.next = update s.next source (s.next source + n))
    (hpending : s'.pending = update s.pending i events) (hbus : s'.bus = s.bus)
    (haccepted : s'.accepted = s.accepted) (hlast : s'.last_sequences = s.last_sequences)
    (hrejected : s'.out_of_order = s.out_of_order) :
    DeliveryInv s' where
  tickets := by
    have hidle : (fun j => (s.pending j).map RuntimeEvent.ticket) i = [] := by
      simp only [hi, map_nil]
    rw [hnext, hpending, haccepted, pending_update, htickets]
    exact h.tickets.draw hidle source n
  received := by
    rw [haccepted, hbus, hlast]
    exact h.received
  none_rejected := hrejected.trans h.none_rejected

/-- A thread gives up some of its events. -/
theorem DeliveryInv.keep (h : DeliveryInv s) (i : ι) {kept : List RuntimeEvent}
    (hkept : kept.Sublist (s.pending i)) :
    DeliveryInv { s with pending := update s.pending i kept } where
  tickets := by
    have hsub := h.tickets.keep i (hkept.map RuntimeEvent.ticket)
    rw [← pending_update] at hsub
    exact hsub
  received := h.received
  none_rejected := h.none_rejected

/-- The bus takes the event whose turn it is. -/
theorem DeliveryInv.accept (h : DeliveryInv s) {event : RuntimeEvent} {rest : List RuntimeEvent}
    (hi : s.pending i = event :: rest)
    (hturn : ∀ j, j ≠ i → ∀ other ∈ s.pending j, other.source = event.source →
      event.sequence ≤ other.sequence) {bus : EventBus}
    (hbus : bus.events = s.bus.events ++ [event]) :
    DeliveryInv
      { s with
        bus := bus
        accepted := s.accepted ++ [event]
        pending := update s.pending i rest } where
  tickets := by
    have hheld : (fun j => (s.pending j).map RuntimeEvent.ticket) i
        = event.ticket :: rest.map RuntimeEvent.ticket := by
      simp only [hi, map_cons]
    have hdone := h.tickets.hand_in hheld ?_
    · rw [← pending_update] at hdone
      show Tickets s.next _ ((s.accepted ++ [event]).map RuntimeEvent.ticket)
      rw [map_append]
      exact hdone
    · intro j hj b hb hkey
      obtain ⟨other, hother, rfl⟩ := mem_map.mp hb
      exact hturn j hj other hother hkey
  received := by
    obtain ⟨handled, heq, hlast⟩ := h.received
    refine ⟨handled, ?_, hlast⟩
    show s.accepted ++ [event] = handled ++ bus.events
    rw [heq, hbus, append_assoc]
  none_rejected := h.none_rejected

omit [DecidableEq ι] in
/-- The dispatcher finds what it receives in order: everything it remembers was
accepted before. -/
theorem DeliveryInv.dispatch {s : DeliveryState ι} (h : DeliveryInv s) {event : RuntimeEvent}
    {bus : EventBus} (hbus : s.bus.events = event :: bus.events) :
    DeliveryInv (dispatch_section ({ s with bus := bus } : DeliveryState ι) event) := by
  obtain ⟨handled, heq, hlast⟩ := h.received
  rw [hbus, ← singleton_append, ← append_assoc] at heq
  -- the event follows all events of its source
  have hfollows : in_order (s.last_sequences event.source) event.sequence = true := by
    rcases hprev : s.last_sequences event.source with _ | last
    · rfl
    obtain ⟨earlier, hmem, hsource, rfl⟩ := hlast event.source last hprev
    have hsorted := h.tickets.done_sorted
    rw [heq, append_assoc, map_append, pairwise_append] at hsorted
    have hlt : earlier.sequence < event.sequence :=
      hsorted.2.2 earlier.ticket (mem_map_of_mem hmem) event.ticket
        (mem_map_of_mem mem_cons_self) hsource
    simpa [in_order] using hlt
  unfold dispatch_section
  by_cases hdrain : s.drain = true
  · rw [if_neg (by simp [hdrain])]
    rw [if_pos hfollows]
    refine ⟨h.tickets, ⟨handled ++ [event], heq, ?_⟩, h.none_rejected⟩
    intro source last hsource
    by_cases hown : source = event.source
    · subst hown
      simp only [record_sequence, update_self, Option.some.injEq] at hsource
      exact ⟨event, mem_append_right _ mem_cons_self, rfl, hsource⟩
    · simp only [record_sequence, update_of_ne hown] at hsource
      obtain ⟨earlier, hmem, hearlier⟩ := hlast source last hsource
      exact ⟨earlier, mem_append_left _ hmem, hearlier⟩
  · -- a stop without draining drops the event
    rw [if_pos (by simpa using hdrain)]
    refine ⟨h.tickets, ⟨handled ++ [event], heq, ?_⟩, h.none_rejected⟩
    intro source last hsource
    obtain ⟨earlier, hmem, hearlier⟩ := hlast source last hsource
    exact ⟨earlier, mem_append_left _ hmem, hearlier⟩

omit [DecidableEq ι] in
/-- The counter of the pipeline moves, the others stay. -/
theorem next_sample (s : DeliveryState ι) (sequence : ℕ) (pending : ι → List RuntimeEvent) :
    ({ s with sequence := sequence, pending := pending } : DeliveryState ι).next
      = update s.next telemetry_source sequence := by
  funext source
  by_cases hsource : source = telemetry_source
  · subst hsource
    simp [DeliveryState.next]
  · simp [DeliveryState.next, hsource]

omit [DecidableEq ι] in
/-- The counter of an intent's source moves, the others stay. -/
theorem next_intent (s : DeliveryState ι) {source : String} (hsource : source ≠ telemetry_source)
    (sequence : ℕ) (pending : ι → List RuntimeEvent) :
    ({ s with
        source_sequences := update s.source_sequences source sequence
        pending := pending } : DeliveryState ι).next
      = update s.next source sequence := by
  funext other
  by_cases hother : other = source
  · subst hother
    simp [DeliveryState.next, hsource]
  · by_cases htelemetry : other = telemetry_source
    · subst htelemetry
      simp [DeliveryState.next, Ne.symm hsource]
    · simp [DeliveryState.next, htelemetry, hother]

theorem DeliveryInv.step {config : IntentConfig} {s s' : DeliveryState ι} {e : DeliveryEvent ι}
    (h : DeliveryInv s) (hturn : InTurn s e) (hs : (delivery_system config).step s e = some s') :
    DeliveryInv s' := by
  rcases e with ⟨i, observation, detections⟩ | ⟨i, event_id, agent_id, intent, source, occurred_at⟩ |
    ⟨i, refused, sink⟩ | i | drain | _ | _
  · simp only [delivery_system] at hs
    split at hs
    · rename_i hi
      obtain rfl := Option.some.inj hs
      obtain ⟨htickets, hnext⟩ := telemetry_events_tickets s.sequence observation detections
      refine h.draw hi telemetry_source (detections.length + 1) ?_ ?_ rfl rfl rfl rfl rfl
      · rw [htickets]
        simp [DeliveryState.next]
      · rw [next_sample, hnext]
        simp [DeliveryState.next]
    · cases hs
  · simp only [delivery_system] at hs
    split at hs
    swap
    · cases hs
    rename_i hi
    split at hs
    · obtain rfl := Option.some.inj hs
      exact h
    · obtain rfl := Option.some.inj hs
      have hsource : source ≠ telemetry_source := hturn
      have hcounter : s.next source = s.source_sequences source := by
        simp [DeliveryState.next, hsource]
      refine h.draw hi source 1 ?_ ?_ rfl rfl rfl rfl rfl
      · rw [hcounter]
        rfl
      · rw [next_intent s hsource, hcounter]
  · simp only [delivery_system] at hs
    split at hs
    · cases hs
    rename_i event rest hi
    split at hs
    · rename_i bus hbus
      obtain rfl := Option.some.inj hs
      have hfirst : event ∈ (s.pending i).head? := by rw [hi]; rfl
      have hother := hturn event hfirst (by rw [hbus]; rfl)
      refine h.accept hi hother ?_
      unfold publish_outcome at hbus
      split at hbus
      · cases hbus
      · cases hpub : s.bus.publish event sink with
        | error _ => rw [hpub] at hbus; cases hbus
        | ok b =>
          rw [hpub] at hbus
          obtain rfl := Option.some.inj hbus
          rw [(EventBus.publish_ok hpub).2.2]
    · obtain rfl := Option.some.inj hs
      refine h.keep i ?_
      rw [hi]
      exact sublist_cons_self event rest
  · obtain rfl := Option.some.inj hs
    exact h.keep i (nil_sublist _)
  · obtain rfl := Option.some.inj hs
    exact ⟨h.tickets, h.received, h.none_rejected⟩
  · obtain rfl := Option.some.inj hs
    exact ⟨h.tickets, h.received, h.none_rejected⟩
  · simp only [delivery_system] at hs
    split at hs
    · rename_i event bus hreceive
      obtain rfl := Option.some.inj hs
      exact h.dispatch (EventBus.receive_some hreceive).1
    · cases hs

theorem delivery_inv {config : IntentConfig}
    (h : (delivery_system config).ReachableUnder InTurn s) : DeliveryInv s := by
  refine h.invariant ?_ fun s e s' _ hinv hturn hs => hinv.step hturn hs
  rintro s ⟨capacity, rfl⟩
  refine ⟨Tickets.empty _, ⟨[], rfl, ?_⟩, rfl⟩
  intro source last hlast
  cases hlast

/-! ## Order of delivery -/

/-- What the bus takes is in increasing sequence per source, and the dispatcher
rejects nothing as out of order. -/
structure DeliveryContract (s : DeliveryState ι) : Prop where
  increasing : s.accepted.Pairwise fun a b => a.source = b.source → a.sequence < b.sequence
  none_rejected : s.out_of_order = []

/-- A plan with one agent that takes manual intents. -/
def one_manual_agent : IntentConfig where
  agent_ids := ["local"]
  manual_agent_ids := ["local"]

/-- An observation of the agent. -/
def local_observation (event_id : String) : Observation where
  event_id := event_id
  agent_id := "local"
  observed_at := 0

/-- Both threads sample. -/
def two_samples : List (DeliveryEvent (Fin 2)) :=
  [.sample 0 (local_observation "a") [], .sample 1 (local_observation "b") []]

/-- Both threads submit. -/
def two_intents : List (DeliveryEvent (Fin 2)) :=
  [.submit_intent 0 "a" "local" "block" "operator" 0,
    .submit_intent 1 "b" "local" "unblock" "operator" 0]

/-- Both events are published and dispatched, the one of `i` first. -/
def first_publishes (i : Fin 2) : List (DeliveryEvent (Fin 2)) :=
  [.publish i false none, .publish (1 - i) false none, .dispatch, .dispatch]

end Safety

end MininetAi
