/-
Runtime events and their in-process bus (`RuntimeEvent` in
`mininet_ai/runtime/contracts.py`, `InMemoryRuntimeEventBus` in
`mininet_ai/runtime/events.py`), and the order check the dispatcher makes on what
it receives (`ContinuousAgentRuntime._dispatch`).

Times are microseconds, the resolution of the timestamps.
-/
import Mathlib.Data.Int.Notation
import Mathlib.Data.List.Basic

set_option autoImplicit false

namespace MininetAi

/-! ## Events -/

/-- The payloads `payload_as` reads. `other` is an object that is neither. -/
inductive EventPayload where
  | manual_intent (agent_id intent : String)
  | interval_elapsed (agent_id trigger : String) (scheduled_at : ℤ)
  | other
  deriving DecidableEq

/-- The types of the events the runtime itself produces. -/
def RuntimeEventType.manual_intent : String := "intent.manual"

def RuntimeEventType.interval_elapsed : String := "trigger.interval.elapsed"

def RuntimeEventType.observation_recorded : String := "observation.recorded"

/-- One event of a run. -/
structure RuntimeEvent where
  event_id : String
  type : String
  source : String
  subject : Option String := none
  observed_at : ℤ
  sequence : ℕ
  payload : EventPayload := .other
  deriving DecidableEq

/-! ## The bus -/

/-- Why `publish` raised. -/
inductive PublishError where
  | bus (message code : String)
  | sink (text : String)
  deriving DecidableEq

/-- `InMemoryRuntimeEventBus`. -/
structure EventBus where
  capacity : ℕ
  events : List RuntimeEvent := []
  closed : Bool := false
  deriving DecidableEq

namespace EventBus

/-- `publish`; `sink` is what the sink raised, if it did. -/
def publish (b : EventBus) (event : RuntimeEvent) (sink : Option String) :
    Except PublishError EventBus :=
  if b.closed then .error (.bus "runtime event bus is closed" "runtime.event-bus.closed")
  else if b.capacity ≤ b.events.length then
    .error (.bus "runtime event bus is full" "runtime.event-bus.full")
  else match sink with
    | some text => .error (.sink text)
    | none => .ok { b with events := b.events ++ [event] }

/-- `receive` when there is an event: it does not wait then. -/
def receive (b : EventBus) : Option (RuntimeEvent × EventBus) :=
  match b.events with
  | [] => none
  | event :: rest => some (event, { b with events := rest })

def close (b : EventBus) : EventBus := { b with closed := true }

variable {b b' : EventBus} {event : RuntimeEvent}

/-- An accepted event is the last one, and there was room for it. -/
theorem publish_ok {sink : Option String} (h : b.publish event sink = .ok b') :
    b.closed = false ∧ b.events.length < b.capacity ∧
      b' = { b with events := b.events ++ [event] } := by
  unfold publish at h
  split at h
  · cases h
  rename_i hopen
  split at h
  · cases h
  rename_i hroom
  split at h
  · cases h
  · cases h
    exact ⟨by simpa using hopen, by omega, rfl⟩

theorem receive_some (h : b.receive = some (event, b')) :
    b.events = event :: b'.events ∧ b'.capacity = b.capacity ∧ b'.closed = b.closed := by
  unfold receive at h
  split at h
  · cases h
  · rename_i e rest hevents
    cases h
    exact ⟨hevents, rfl, rfl⟩

end EventBus

/-! ## The order check -/

/-- Whether `_dispatch` takes an event with this sequence after `previous`. -/
def in_order (previous : Option ℕ) (sequence : ℕ) : Bool :=
  match previous with
  | none => true
  | some previous => ¬ sequence ≤ previous

/-- What `_dispatch` remembers of the sources. -/
def record_sequence (last_sequences : String → Option ℕ) (event : RuntimeEvent) :
    String → Option ℕ :=
  Function.update last_sequences event.source (some event.sequence)

end MininetAi
