/-
Coordination messages (`mininet_ai/coordination/contracts.py`) and the in-memory
channel they are delivered through (`mininet_ai/coordination/channel.py`).

`CoordinationMessage.Consistent` is what the validators of a message check. A
payload is kept as it is built: dumping and validating it again gives it back.
-/
import MininetAi.Sdk.Contracts

set_option autoImplicit false

namespace MininetAi

/-! ## Messages -/

/-- The kinds an invocation takes; the third kind of the source is never sent. -/
inductive CoordinationMessageKind where
  | intent
  | delegation
  deriving DecidableEq

/-- Intent data carried by entry and delegation messages. -/
structure CoordinationIntentPayload where
  intent : String
  requested_agent_id : String
  delegation_id : Option String := none
  metadata : List (String × JsonValue) := []
  deriving DecidableEq

/-- One message of a request. -/
structure CoordinationMessage where
  message_id : String
  run_id : String
  kind : CoordinationMessageKind
  source_agent_id : Option String := none
  target_agent_id : String
  correlation_id : String
  causation_id : Option String := none
  parent_invocation_id : Option String := none
  triggering_event_id : Option String := none
  hop_count : ℕ := 0
  traversed_message_ids : List String := []
  payload : CoordinationIntentPayload
  deriving DecidableEq

/-- The validators `identities_match_message_kind` and `traversal_is_consistent`. -/
structure CoordinationMessage.Consistent (m : CoordinationMessage) : Prop where
  source_present : m.kind ≠ .intent → m.source_agent_id ≠ none
  not_to_source : m.source_agent_id ≠ some m.target_agent_id
  traversed_nodup : m.traversed_message_ids.Nodup
  not_traversed : m.message_id ∉ m.traversed_message_ids
  hop_count_eq : m.hop_count = m.traversed_message_ids.length
  causation_present : 0 < m.hop_count → m.causation_id ≠ none

theorem CoordinationMessage.consistent_iff (m : CoordinationMessage) :
    m.Consistent ↔ (m.kind ≠ .intent → m.source_agent_id ≠ none) ∧
      m.source_agent_id ≠ some m.target_agent_id ∧ m.traversed_message_ids.Nodup ∧
      m.message_id ∉ m.traversed_message_ids ∧ m.hop_count = m.traversed_message_ids.length ∧
      (0 < m.hop_count → m.causation_id ≠ none) :=
  ⟨fun ⟨a, b, c, d, e, f⟩ => ⟨a, b, c, d, e, f⟩, fun ⟨a, b, c, d, e, f⟩ => ⟨a, b, c, d, e, f⟩⟩

instance (m : CoordinationMessage) : Decidable m.Consistent :=
  decidable_of_iff _ m.consistent_iff.symm

/-! ## The channel -/

/-- Why `send` raised. -/
inductive MessageChannelError where
  | closed
  | duplicate (message_id : String)
  | full
  deriving DecidableEq

/-- The code of an error. -/
def MessageChannelError.code : MessageChannelError → String
  | .closed => "coordination.message-channel.closed"
  | .duplicate _ => "coordination.message-channel.duplicate"
  | .full => "coordination.message-channel.full"

/-- Why `send` raised: the channel's reasons, or the sink's. -/
inductive SendError (ε : Type) where
  | rejected (e : MessageChannelError)
  | sink (e : ε)
  deriving DecidableEq

/-- `InMemoryMessageChannel`. -/
structure MessageChannel where
  capacity : ℕ
  messages : List CoordinationMessage := []
  accepted_ids : List String := []
  is_closed : Bool := false

namespace MessageChannel

/-- `send`; `raised` is what `sink.write` raises. -/
def send {ε : Type} (c : MessageChannel) (m : CoordinationMessage) (raised : Option ε) :
    Except (SendError ε) MessageChannel :=
  if c.is_closed then .error (.rejected .closed)
  else if m.message_id ∈ c.accepted_ids then .error (.rejected (.duplicate m.message_id))
  else if c.capacity ≤ c.messages.length then .error (.rejected .full)
  else
    match raised with
    | some e => .error (.sink e)
    | none =>
      .ok { c with
        accepted_ids := c.accepted_ids ++ [m.message_id]
        messages := c.messages ++ [m] }

/-- `receive` of the messages with the given ids, without waiting. -/
def receive (c : MessageChannel) (message_ids : List String) :
    Option (CoordinationMessage × MessageChannel) :=
  (c.messages.find? fun m => m.message_id ∈ message_ids).map fun m =>
    (m, { c with messages := c.messages.erase m })

def close (c : MessageChannel) : MessageChannel := { c with is_closed := true }

variable {ε : Type} {c c' : MessageChannel} {m : CoordinationMessage} {raised : Option ε}
  {ids : List String}

/-- An accepted message is new and the last one. -/
theorem send_ok (h : c.send m raised = .ok c') :
    m.message_id ∉ c.accepted_ids ∧ c.messages.length < c.capacity ∧ c' = { c with
        accepted_ids := c.accepted_ids ++ [m.message_id]
        messages := c.messages ++ [m] } := by
  unfold send at h
  split at h
  · cases h
  split at h
  · cases h
  rename_i hnew
  split at h
  · cases h
  rename_i hroom
  split at h
  · cases h
  · cases h
    exact ⟨hnew, by omega, rfl⟩

/-- The sink is asked about a new message, when the channel is open and has room. -/
theorem send_sink_iff {e : ε} : c.send m raised = .error (.sink e) ↔
    raised = some e ∧ c.is_closed = false ∧ m.message_id ∉ c.accepted_ids ∧
      c.messages.length < c.capacity := by
  unfold send
  split
  · simp_all
  split
  · simp_all
  split
  · simp_all
  · rcases raised with _ | e' <;> simp_all

/-- A received message was queued, under one of the ids asked for. -/
theorem receive_some (h : c.receive ids = some (m, c')) :
    m ∈ c.messages ∧ m.message_id ∈ ids ∧ c' = { c with messages := c.messages.erase m } := by
  obtain ⟨found, hfound, heq⟩ := Option.map_eq_some_iff.mp h
  obtain ⟨rfl, rfl⟩ := Prod.mk.inj heq
  have hid := List.find?_some hfound
  exact ⟨List.mem_of_find?_eq_some hfound, of_decide_eq_true hid, rfl⟩

/-- A queued message whose id is asked for lets `receive` answer. -/
theorem receive_isSome (hm : m ∈ c.messages) (hid : m.message_id ∈ ids) : (c.receive ids).isSome := by
  unfold receive
  rw [Option.isSome_map, List.find?_isSome]
  exact ⟨m, hm, decide_eq_true hid⟩

end MessageChannel

end MininetAi
