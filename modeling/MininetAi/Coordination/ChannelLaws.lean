/-
The in-memory channel among its threads (`mininet_ai/coordination/channel.py`).

`send` and `close` are one section under the condition. A reader looks at the queue, and
when there is nothing for it it waits until it is woken or its deadline has passed, and
looks again; what the clock and the sink answer is the environment's. What was accepted
and what each filter was given is noted beside the channel, where no code reads it.
-/
import Mathlib.Data.Finset.Basic
import MininetAi.Coordination.Channel
import MininetAi.Lib.Mailbox
import MininetAi.Lib.Transition
import MininetAi.Specification.Models

set_option autoImplicit false

namespace MininetAi

/-! ## The sections -/

/-- What the error says. -/
def MessageChannelError.reason : MessageChannelError → String
  | .closed => "coordination message channel is closed"
  | .duplicate message_id => worded "coordination message " [quoted message_id, " was already accepted"]
  | .full => "coordination message channel is full"

/-- A call of `receive` that has not returned. -/
structure Receiving where
  message_ids : Option (Finset String) := none
  has_deadline : Bool := false

/-- What one look at the queue comes to. -/
inductive Look where
  | delivers (m : CoordinationMessage)
  | ends
  | waits

namespace MessageChannel

/-- `__init__`. -/
def create (capacity : ℤ) : Except String MessageChannel :=
  if capacity ≤ 0 then .error "message channel capacity must be positive"
  else .ok { capacity := capacity.toNat }

/-- `send` as a section: what it raises, and the channel behind it. -/
def send_to_sink {ε : Type} (c : MessageChannel) (m : CoordinationMessage) (raised : Option ε) :
    Except (SendError ε) Unit × MessageChannel :=
  match c.send m raised with
  | .error e => (.error e, c)
  | .ok c' => (.ok (), c')

/-- The messages a reader is eligible for. -/
def selects : Option (Finset String) → CoordinationMessage → Bool
  | none, _ => true
  | some message_ids, m => m.message_id ∈ message_ids

/-- One turn of the loop of `receive`. -/
def look (c : MessageChannel) (r : Receiving) (expired : Bool) : Look × MessageChannel :=
  match c.messages.find? (selects r.message_ids) with
  | some m => (.delivers m, { c with messages := c.messages.erase m })
  | none =>
    if c.is_closed || (r.has_deadline && expired) then (.ends, c) else (.waits, c)

/-! ## What they do -/

/-- `send` either raises and changes nothing, or appends a new message where there is room. -/
theorem send_to_sink_cases {ε : Type} (c : MessageChannel) (m : CoordinationMessage) (raised : Option ε) :
    (∃ e, c.send_to_sink m raised = (.error e, c)) ∨
      m.message_id ∉ c.accepted_ids ∧ c.messages.length < c.capacity ∧
        c.send_to_sink m raised = (.ok (),
          { c with
            accepted_ids := c.accepted_ids ++ [m.message_id]
            messages := c.messages ++ [m] }) := by
  unfold send_to_sink
  cases hsend : c.send m raised with
  | error e => exact .inl ⟨e, rfl⟩
  | ok c' =>
    obtain ⟨hnew, hroom, rfl⟩ := send_ok hsend
    exact .inr ⟨hnew, hroom, rfl⟩

/-- A look takes the first eligible message, or leaves the channel alone. -/
theorem look_cases (c : MessageChannel) (r : Receiving) (expired : Bool) :
    (∃ m, c.messages.find? (selects r.message_ids) = some m ∧
        c.look r expired = (.delivers m, { c with messages := c.messages.erase m })) ∨
      c.look r expired = (.ends, c) ∨ c.look r expired = (.waits, c) := by
  unfold look
  cases hfound : c.messages.find? (selects r.message_ids) with
  | some m => exact .inl ⟨m, rfl, rfl⟩
  | none =>
    by_cases hends : (c.is_closed || (r.has_deadline && expired)) = true
    · exact .inr (.inl (if_pos hends))
    · exact .inr (.inr (if_neg hends))

end MessageChannel

/-! ## The system -/

/-- The channel and the readers that have not returned. -/
structure ChannelUse (κ : Type) where
  channel : MessageChannel
  receiving : κ → Option Receiving := fun _ => none

/-- The sections of thread `i`. -/
inductive ChannelEvent (κ ε : Type) where
  | send (i : κ) (m : CoordinationMessage) (raised : Option ε)
  | receive (i : κ) (timeout_seconds : Option ℚ) (message_ids : Option (Finset String))
  | look (i : κ) (expired : Bool)
  | close (i : κ)

section System

variable {κ ε : Type} [DecidableEq κ]

/-- The reader has returned, or waits for its next look. -/
def ChannelUse.looked (s : ChannelUse κ) (i : κ) : Look × MessageChannel → ChannelUse κ
  | (.waits, c) => { s with channel := c }
  | (.delivers _, c) | (.ends, c) => { channel := c, receiving := Function.update s.receiving i none }

/-- A channel and its threads; a negative timeout raises before anything happens. -/
def channel_system (κ ε : Type) [DecidableEq κ] : System (ChannelUse κ) (ChannelEvent κ ε) where
  init s := (∃ capacity, MessageChannel.create capacity = .ok s.channel) ∧ ∀ i, s.receiving i = none
  step s
    | .send i m raised =>
      if (s.receiving i).isNone then some { s with channel := (s.channel.send_to_sink m raised).2 } else none
    | .receive i timeout_seconds message_ids =>
      if (s.receiving i).isNone then
        if timeout_seconds.any (· < 0) then some s
        else
          some { s with
            receiving := Function.update s.receiving i
              (some { message_ids := message_ids, has_deadline := timeout_seconds.isSome }) }
      else none
    | .look i expired => (s.receiving i).map fun r => s.looked i (s.channel.look r expired)
    | .close i => if (s.receiving i).isNone then some { s with channel := s.channel.close } else none

/-- The accepted messages, and what each filter was given. -/
abbrev ChannelMail : Type := Mail CoordinationMessage (Option (Finset String))

/-- What a look delivers. -/
def note_look (h : ChannelMail) (r : Receiving) : Look → ChannelMail
  | .delivers m => h.take r.message_ids m
  | .ends | .waits => h

/-- What is noted of a section. -/
def note_channel (s : ChannelUse κ) (e : ChannelEvent κ ε) (_ : ChannelUse κ) (h : ChannelMail) : ChannelMail :=
  match e with
  | .send _ m raised => if (s.channel.send_to_sink m raised).1.isOk then h.accept m else h
  | .look i expired => ((s.receiving i).map fun r => note_look h r (s.channel.look r expired).1).getD h
  | .receive _ _ _ | .close _ => h

def channel_history (κ ε : Type) [DecidableEq κ] : System (ChannelUse κ × ChannelMail) (ChannelEvent κ ε) :=
  (channel_system κ ε).observed {} note_channel

/-! ## The laws -/

/-- What holds of a channel and of what has been accepted and delivered. -/
structure ChannelLaws (s : ChannelUse κ) (h : ChannelMail) : Prop where
  bounded : s.channel.messages.length ≤ s.channel.capacity
  accepted_once : (h.accepted.map CoordinationMessage.message_id).Nodup
  delivered_once : (h.delivered.map CoordinationMessage.message_id).Nodup
  in_order : ∀ f, (h.delivered_for f).Pairwise fun a b => h.accepted.idxOf a < h.accepted.idxOf b
  queue : s.channel.messages = h.accepted.filter fun m => m ∉ h.delivered
  unchanged : ∀ (ε : Type) (m : CoordinationMessage) (raised : Option ε) (e : SendError ε),
    (s.channel.send_to_sink m raised).1 = .error e →
      (s.channel.send_to_sink m raised).2.messages = s.channel.messages ∧
        (s.channel.send_to_sink m raised).2.accepted_ids = s.channel.accepted_ids

/-- The laws, and that the identifiers are those of the accepted messages. -/
structure ChannelInv (s : ChannelUse κ) (h : ChannelMail) : Prop where
  bounded : s.channel.messages.length ≤ s.channel.capacity
  ids : s.channel.accepted_ids = h.accepted.map CoordinationMessage.message_id
  ids_once : s.channel.accepted_ids.Nodup
  fair : h.Fair MessageChannel.selects
  queue : s.channel.messages = h.pending

variable {s : ChannelUse κ} {h : ChannelMail}

section

omit [DecidableEq κ]

theorem ChannelInv.same {s' : ChannelUse κ} (hinv : ChannelInv s h)
    (hmessages : s'.channel.messages = s.channel.messages)
    (hcapacity : s'.channel.capacity = s.channel.capacity)
    (hids : s'.channel.accepted_ids = s.channel.accepted_ids) : ChannelInv s' h where
  bounded := by
    rw [hmessages, hcapacity]
    exact hinv.bounded
  ids := hids.trans hinv.ids
  ids_once := by
    rw [hids]
    exact hinv.ids_once
  fair := hinv.fair
  queue := hmessages.trans hinv.queue

theorem ChannelInv.laws (hinv : ChannelInv s h) : ChannelLaws s h where
  bounded := hinv.bounded
  accepted_once := by
    rw [← hinv.ids]
    exact hinv.ids_once
  delivered_once := by
    have hids : (h.accepted.map CoordinationMessage.message_id).Nodup := by
      rw [← hinv.ids]
      exact hinv.ids_once
    refine hinv.fair.taken_once.map_on fun a ha b hb heq => ?_
    exact List.inj_on_of_nodup_map hids (hinv.fair.known a ha) (hinv.fair.known b hb) heq
  in_order := hinv.fair.ordered
  queue := hinv.queue
  unchanged ε m raised e he := by
    rcases s.channel.send_to_sink_cases m raised with ⟨e', hsend⟩ | ⟨-, -, hsend⟩
    · rw [hsend]
      exact ⟨rfl, rfl⟩
    · rw [hsend] at he
      cases he

/-- An accepted message has a new identifier. -/
theorem ChannelInv.accept {m : CoordinationMessage} (hinv : ChannelInv s h)
    (hnew : m.message_id ∉ s.channel.accepted_ids)
    (hroom : s.channel.messages.length < s.channel.capacity) (receiving : κ → Option Receiving) :
    ChannelInv
      { channel :=
          { s.channel with
            accepted_ids := s.channel.accepted_ids ++ [m.message_id]
            messages := s.channel.messages ++ [m] }
        receiving := receiving } (h.accept m) := by
  have hunknown : m ∉ h.accepted := by
    intro hm
    rw [hinv.ids] at hnew
    exact hnew (List.mem_map_of_mem hm)
  refine ⟨?_, ?_, ?_, hinv.fair.accept hunknown, ?_⟩
  · simp only [List.length_append, List.length_singleton]
    omega
  · simp [Mail.accept, hinv.ids]
  · exact hinv.ids_once.append (List.nodup_singleton _) (List.disjoint_singleton.mpr hnew)
  · rw [Mail.pending_accept fun hm => hunknown (hinv.fair.known m hm), ← hinv.queue]

/-- A delivered message is the first one its filter selects. -/
theorem ChannelInv.take {s : ChannelUse κ} {h : ChannelMail} {m : CoordinationMessage}
    {f : Option (Finset String)} (hinv : ChannelInv s h)
    (hfound : s.channel.messages.find? (MessageChannel.selects f) = some m) (receiving : κ → Option Receiving) :
    ChannelInv
      { channel := { s.channel with messages := s.channel.messages.erase m }, receiving := receiving }
      (h.take f m) := by
  rw [hinv.queue] at hfound
  refine ⟨?_, hinv.ids, hinv.ids_once, hinv.fair.take hfound, ?_⟩
  · have hless : (s.channel.messages.erase m).length ≤ s.channel.messages.length := List.length_erase_le
    have hbounded := hinv.bounded
    show (s.channel.messages.erase m).length ≤ s.channel.capacity
    omega
  · rw [Mail.pending_take hinv.fair.accepted_once, ← hinv.queue]

end

/-- Every section keeps the invariant. -/
theorem ChannelInv.step {s s' : ChannelUse κ} {h : ChannelMail} {e : ChannelEvent κ ε} (hinv : ChannelInv s h)
    (hs : (channel_system κ ε).step s e = some s') : ChannelInv s' (note_channel s e s' h) := by
  cases e with
  | send i m raised =>
    simp only [channel_system, Option.ite_none_right_eq_some, Option.some.injEq] at hs
    have hnote : note_channel s (.send i m raised) s' h =
        if (s.channel.send_to_sink m raised).1.isOk = true then h.accept m else h := rfl
    rw [hnote, ← hs.2]
    rcases s.channel.send_to_sink_cases m raised with ⟨e, hsend⟩ | ⟨hnew, hroom, hsend⟩
    · rw [hsend]
      exact hinv.same rfl rfl rfl
    · rw [hsend]
      exact hinv.accept hnew hroom s.receiving
  | receive i timeout_seconds message_ids =>
    simp only [channel_system, Option.ite_none_right_eq_some] at hs
    obtain ⟨-, hs⟩ := hs
    by_cases hnegative : timeout_seconds.any (· < 0) = true
    · rw [if_pos hnegative] at hs
      rw [← Option.some.inj hs]
      exact hinv
    · rw [if_neg hnegative] at hs
      rw [← Option.some.inj hs]
      exact hinv.same rfl rfl rfl
  | look i expired =>
    obtain ⟨r, hr, hs⟩ := Option.map_eq_some_iff.mp hs
    have hnote : note_channel s (.look i expired : ChannelEvent κ ε) s' h =
        ((s.receiving i).map fun r => note_look h r (s.channel.look r expired).1).getD h := rfl
    rw [hnote, hr, ← hs, Option.map_some, Option.getD_some]
    rcases s.channel.look_cases r expired with ⟨m, hfound, hlook⟩ | hlook | hlook
    · rw [hlook]
      exact hinv.take hfound _
    · rw [hlook]
      exact hinv.same rfl rfl rfl
    · rw [hlook]
      exact hinv.same rfl rfl rfl
  | close i =>
    simp only [channel_system, Option.ite_none_right_eq_some, Option.some.injEq] at hs
    rw [← hs.2]
    exact hinv.same rfl rfl rfl

theorem create_ok {capacity : ℤ} {c : MessageChannel} (h : MessageChannel.create capacity = .ok c) :
    c = { capacity := capacity.toNat } := by
  unfold MessageChannel.create at h
  by_cases hpositive : capacity ≤ 0
  · rw [if_pos hpositive] at h
    cases h
  · rw [if_neg hpositive] at h
    exact (Except.ok.inj h).symm

theorem channel_inv {p : ChannelUse κ × ChannelMail} (hp : (channel_history κ ε).Reachable p) :
    ChannelInv p.1 p.2 := by
  refine System.Reachable.invariant (P := fun p => ChannelInv p.1 p.2) (fun p hinit => ?_)
    (fun p e p' _ ih hs => ?_) hp
  · obtain ⟨⟨⟨capacity, hcreated⟩, -⟩, hempty⟩ := hinit
    rw [hempty]
    have hchannel := create_ok hcreated
    refine ⟨?_, ?_, ?_, Mail.fair_empty, ?_⟩
    · simp [hchannel]
    · simp [hchannel]
    · simp [hchannel]
    · simp [hchannel, Mail.pending]
  · obtain ⟨s', hstep, rfl⟩ := Option.map_eq_some_iff.mp hs
    exact ih.step hstep

/-- Under every interleaving of senders and readers the channel keeps its laws. -/
theorem channel_keeps_its_laws {p : ChannelUse κ × ChannelMail} (hp : (channel_history κ ε).Reachable p) :
    ChannelLaws p.1 p.2 :=
  (channel_inv hp).laws

end System

/-! ### Two readers -/

/-- A message of a request. -/
def numbered_message (message_id : String) : CoordinationMessage where
  message_id := message_id
  run_id := "run-1"
  kind := .intent
  target_agent_id := "agent-1"
  correlation_id := "request-1"
  payload := { intent := "observe", requested_agent_id := "agent-1" }

/-- Three messages are sent, one of them to a sink that fails, and a reader takes the second. -/
def filtered_schedule : List (ChannelEvent Bool String) :=
  [.receive true none (some {"m-2"}), .look true false, .send false (numbered_message "m-1") none,
    .send false (numbered_message "m-3") (some "disk full"), .send false (numbered_message "m-2") none,
    .look true false]

theorem channel_keeps_its_laws_filtered : ∃ p : ChannelUse Bool × ChannelMail,
    p.1.channel.messages = [numbered_message "m-1"] ∧ ChannelLaws p.1 p.2 := by
  have hrun : (((channel_history Bool String).run ({ channel := { capacity := 2 } }, {}) filtered_schedule).any
      fun p => p.1.channel.messages = [numbered_message "m-1"]) = true := by
    decide
  obtain ⟨p, hp, hmessages⟩ := (Option.any_eq_true _ _).mp hrun
  have hinit : (channel_history Bool String).init ({ channel := { capacity := 2 } }, {}) :=
    ⟨⟨⟨2, rfl⟩, fun _ => rfl⟩, rfl⟩
  exact ⟨p, of_decide_eq_true hmessages, channel_keeps_its_laws (System.Reachable.run (.init hinit) hp)⟩

end MininetAi
