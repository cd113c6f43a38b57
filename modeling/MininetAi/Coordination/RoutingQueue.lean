/-
The queue that the requests of a runtime share (`InMemoryMessageChannel` under
`CoordinationRuntime`), and what a request that is over leaves in it.

A queued message is one that some request has accepted and not submitted, and as
long as a request is in its loop the converse holds too: what it waits for is queued,
apart from the message it holds between taking and submitting it. Two requests have
no message in common, so a request takes its own only.
-/
import MininetAi.Coordination.RoutingDelivery
import MininetAi.Coordination.RoutingLeases

set_option autoImplicit false

namespace MininetAi

open List RoutingRequest

/-! ## The queue -/

/-- The request is in its loop, or on its way there. -/
def RequestStage.live : RequestStage → Bool
  | .refused _ | .exiting _ | .closing _ | .ended _ => false
  | _ => true

/-- What holds of the requests and the channel they share. -/
structure QueueInv (config : RoutingConfig) (s : RoutingState) : Prop where
  requests : ∀ (i : ℕ) (r : RoutingRequest), s.requests[i]? = some r →
    RequestDelivery config s.channel.accepted_ids r
  apart : ∀ (i j : ℕ) (r q : RoutingRequest) (m : CoordinationMessage), s.requests[i]? = some r →
    s.requests[j]? = some q → m ∈ r.messages → m ∈ q.messages → i = j
  queue_nodup : s.channel.messages.Nodup
  queue_owned : ∀ m ∈ s.channel.messages, ∃ (i : ℕ) (r : RoutingRequest),
    s.requests[i]? = some r ∧ m ∈ r.messages
  queue_waits : ∀ (i : ℕ) (r : RoutingRequest) (m : CoordinationMessage),
    s.requests[i]? = some r → m ∈ r.messages → m ∈ s.channel.messages →
      m ∈ r.pending ∧ r.stage.held ≠ some m
  waiting_queued : ∀ (i : ℕ) (r : RoutingRequest) (m : CoordinationMessage),
    s.requests[i]? = some r → r.stage.live = true → m ∈ r.pending →
      m ∈ s.channel.messages ∨ r.stage.held = some m

/-- The channel has accepted the messages of every request. -/
theorem IdentityInv.request {s : RoutingState} (h : IdentityInv s) {i : ℕ} {r : RoutingRequest}
    (hr : s.requests[i]? = some r) : ∀ m ∈ r.messages, m.message_id ∈ s.channel.accepted_ids :=
  fun m hm => h.accepted m (Or.inr ⟨r, mem_of_getElem? hr, hm⟩)

variable {config : RoutingConfig} {s s' base : RoutingState} {i : ℕ} {r r' : RoutingRequest}
  {m : CoordinationMessage} {e : RoutingEvent} {raised : Option SinkError}

/-- An id the channel has not accepted is not submitted. -/
theorem IdentityInv.not_submitted {ids : List String} (h : IdentityInv s)
    (hr : s.requests[i]? = some r) (hreq : RequestDelivery config ids r) {message_id : String}
    (hnew : message_id ∉ s.channel.accepted_ids) : message_id ∉ r.submitted := by
  intro hmem
  obtain ⟨m, hm, hid⟩ := hreq.flow.submitted _ hmem
  exact hnew (hid ▸ h.request hr m hm)

/-- A step of nobody. -/
theorem QueueInv.same (h : QueueInv config s) (hrequests : s'.requests = s.requests)
    (hmessages : s'.channel.messages = s.channel.messages)
    (haccepted : s'.channel.accepted_ids = s.channel.accepted_ids) : QueueInv config s' where
  requests := by rw [hrequests, haccepted]; exact h.requests
  apart := by rw [hrequests]; exact h.apart
  queue_nodup := by rw [hmessages]; exact h.queue_nodup
  queue_owned := by rw [hmessages, hrequests]; exact h.queue_owned
  queue_waits := by rw [hmessages, hrequests]; exact h.queue_waits
  waiting_queued := by rw [hmessages, hrequests]; exact h.waiting_queued

/-- A new request. -/
theorem QueueInv.call (h : QueueInv config s) (request : CoordinationRequest) (lease : Option ℕ)
    (hrequests : s'.requests = s.requests ++ [{ request := request, lease := lease }])
    (hchannel : s'.channel = s.channel) : QueueInv config s' := by
  have hcases : ∀ (i : ℕ) (r : RoutingRequest), s'.requests[i]? = some r →
      s.requests[i]? = some r ∨ r = { request := request, lease := lease } := by
    intro i r hr
    rw [hrequests] at hr
    exact (getElem?_concat_cases hr).imp_right And.right
  have hold : ∀ (i : ℕ) (r : RoutingRequest), s.requests[i]? = some r →
      s'.requests[i]? = some r := by
    intro i r hr
    obtain ⟨hlt, -⟩ := List.getElem?_eq_some_iff.mp hr
    rw [hrequests, getElem?_append_left hlt, hr]
  refine ⟨?_, ?_, by rw [hchannel]; exact h.queue_nodup, ?_, ?_, ?_⟩
  · intro i r hr
    rw [hchannel]
    rcases hcases i r hr with hr | rfl
    · exact h.requests i r hr
    · exact request_delivery_new config _ request lease
  · intro i j r q m hr hq hm hm'
    rcases hcases i r hr with hr | rfl
    · rcases hcases j q hq with hq | rfl
      · exact h.apart i j r q m hr hq hm hm'
      · cases hm'
    · cases hm
  · intro m hm
    rw [hchannel] at hm
    obtain ⟨i, r, hr, hmem⟩ := h.queue_owned m hm
    exact ⟨i, r, hold i r hr, hmem⟩
  · intro i r m hr hm hqueued
    rw [hchannel] at hqueued
    rcases hcases i r hr with hr | rfl
    · exact h.queue_waits i r m hr hm hqueued
    · cases hm
  · intro i r m hr hlive hm
    rw [hchannel]
    rcases hcases i r hr with hr | rfl
    · exact h.waiting_queued i r m hr hlive hm
    · cases hm

/-- The rule for a step of request `i`. -/
theorem QueueInv.put (hids : IdentityInv s) (h : QueueInv config s) (hr : s.requests[i]? = some r)
    (hrequests : base.requests = s.requests)
    (hgrow : ∀ id ∈ s.channel.accepted_ids, id ∈ base.channel.accepted_ids)
    (hself : RequestDelivery config base.channel.accepted_ids r')
    (hmessages : ∀ m ∈ r'.messages, m ∈ r.messages ∨ m.message_id ∉ s.channel.accepted_ids)
    (hkept : ∀ m ∈ r.messages, m ∈ r'.messages) (hnodup : base.channel.messages.Nodup)
    (hqueue : ∀ m ∈ base.channel.messages, m ∈ s.channel.messages ∨ m ∈ r'.messages)
    (hothers : ∀ m ∈ s.channel.messages, m ∈ base.channel.messages ∨ m ∈ r.messages)
    (hwaits : ∀ m ∈ r'.messages, m ∈ base.channel.messages →
      m ∈ r'.pending ∧ r'.stage.held ≠ some m) (hqueued : r'.stage.live = true → ∀ m ∈ r'.pending,
      m ∈ base.channel.messages ∨ r'.stage.held = some m) : QueueInv config (base.put i r') := by
  obtain ⟨hlt, -⟩ := List.getElem?_eq_some_iff.mp hr
  have hat : (base.requests.set i r')[i]? = some r' := by
    rw [hrequests, getElem?_set_self hlt]
  have hcases : ∀ (j : ℕ) (q : RoutingRequest), (base.requests.set i r')[j]? = some q →
      j = i ∧ q = r' ∨ j ≠ i ∧ s.requests[j]? = some q := by
    intro j q hq
    rw [hrequests] at hq
    exact getElem?_set_cases hq
  -- the messages of another request are not among those of this one
  have hdisjoint : ∀ (j : ℕ) (q : RoutingRequest) (m : CoordinationMessage), j ≠ i →
      s.requests[j]? = some q → m ∈ q.messages → m ∉ r'.messages := by
    intro j q m hj hq hm hm'
    rcases hmessages m hm' with hold | hnew
    · exact hj (h.apart j i q r m hq hr hm hold)
    · exact hnew (hids.request hq m hm)
  refine ⟨?_, ?_, hnodup, ?_, ?_, ?_⟩
  · intro j q hq
    rcases hcases j q hq with ⟨rfl, rfl⟩ | ⟨hj, hq⟩
    · exact hself
    · exact (h.requests j q hq).mono hgrow
  · intro j k q p m hq hp hm hm'
    rcases hcases j q hq with ⟨rfl, rfl⟩ | ⟨hj, hold⟩
    · rcases hcases k p hp with ⟨rfl, -⟩ | ⟨hk, hold'⟩
      · rfl
      · exact absurd hm (hdisjoint k p m hk hold' hm')
    · rcases hcases k p hp with ⟨rfl, rfl⟩ | ⟨hk, hold'⟩
      · exact absurd hm' (hdisjoint j q m hj hold hm)
      · exact h.apart j k q p m hold hold' hm hm'
  · intro m hm
    rcases hqueue m hm with hold | hnew
    · obtain ⟨j, q, hq, hmem⟩ := h.queue_owned m hold
      by_cases hj : j = i
      · subst hj
        obtain rfl := Option.some.inj (hr.symm.trans hq)
        exact ⟨j, r', hat, hkept m hmem⟩
      · refine ⟨j, q, ?_, hmem⟩
        show (base.requests.set i r')[j]? = some q
        rw [hrequests, getElem?_set_ne (Ne.symm hj), hq]
    · exact ⟨i, r', hat, hnew⟩
  · intro j q m hq hm hmq
    rcases hcases j q hq with ⟨rfl, rfl⟩ | ⟨hj, hq⟩
    · exact hwaits m hm hmq
    · rcases hqueue m hmq with hold | hnew
      · exact h.queue_waits j q m hq hm hold
      · exact absurd hnew (hdisjoint j q m hj hq hm)
  · intro j q m hq hlive hm
    rcases hcases j q hq with ⟨rfl, rfl⟩ | ⟨hj, hq⟩
    · exact hqueued hlive m hm
    · rcases h.waiting_queued j q m hq hlive hm with hold | hheld
      · rcases hothers m hold with hkeep | hmine
        · exact Or.inl hkeep
        · exact absurd (h.apart j i q r m hq hr (mem_pending.mp hm).1 hmine) hj
      · exact Or.inr hheld

/-- A step of request `i` that neither sends nor receives. -/
theorem QueueInv.put_same (hids : IdentityInv s) (h : QueueInv config s)
    (hr : s.requests[i]? = some r) (hrequests : base.requests = s.requests)
    (hchannel : base.channel = s.channel)
    (hself : RequestDelivery config s.channel.accepted_ids r')
    (hmessages : r'.messages = r.messages)
    (hwaits : ∀ m ∈ r.pending, r.stage.held ≠ some m → m ∈ r'.pending ∧ r'.stage.held ≠ some m)
    (hqueued : r'.stage.live = true → r.stage.live = true ∧
      ∀ m ∈ r'.pending, m ∈ r.pending ∧ (r.stage.held = some m → r'.stage.held = some m)) :
    QueueInv config (base.put i r') := by
  refine h.put hids hr hrequests ?_ ?_ ?_ ?_ ?_ ?_ ?_ ?_ ?_
  · rw [hchannel]
    exact fun id hid => hid
  · rw [hchannel]
    exact hself
  · rw [hmessages]
    exact fun m hm => Or.inl hm
  · rw [hmessages]
    exact fun m hm => hm
  · rw [hchannel]
    exact h.queue_nodup
  · rw [hchannel]
    exact fun m hm => Or.inl hm
  · rw [hchannel]
    exact fun m hm => Or.inl hm
  · rw [hchannel, hmessages]
    intro m hm hmq
    obtain ⟨hpending, hheld⟩ := h.queue_waits i r m hr hm hmq
    exact hwaits m hpending hheld
  · intro hlive m hm
    obtain ⟨hlive', hsub⟩ := hqueued hlive
    obtain ⟨hpending, hheld⟩ := hsub m hm
    rw [hchannel]
    exact (h.waiting_queued i r m hr hlive' hpending).imp_right hheld

/-- A waiting message of request `i` is received. -/
theorem QueueInv.hold (hids : IdentityInv s) (h : QueueInv config s)
    (hr : s.requests[i]? = some r) (hdelegates : r.stage.delegates = false)
    (hending : r.stage.ending = none) (hlive : r.stage.live = true) (hheld : r.stage.held = none)
    (hm : m ∈ r.pending) (ℓ : ℕ) (hrequests : base.requests = s.requests)
    (hchannel : base.channel = { s.channel with messages := s.channel.messages.erase m }) :
    QueueInv config (base.put i { r with stage := .submitting m ℓ }) := by
  refine h.put hids hr hrequests ?_ ?_ (fun m hm => Or.inl hm) (fun m hm => hm) ?_ ?_ ?_ ?_ ?_
  · rw [hchannel]
    exact fun id hid => hid
  · rw [hchannel]
    exact (h.requests i r hr).hold hdelegates hending hm ℓ
  · rw [hchannel]
    exact h.queue_nodup.erase m
  · rw [hchannel]
    exact fun m' hm' => Or.inl (mem_of_mem_erase hm')
  · rw [hchannel]
    intro m' hm'
    by_cases heq : m' = m
    · rw [heq]
      exact Or.inr (mem_pending.mp hm).1
    · exact Or.inl ((mem_erase_of_ne heq).mpr hm')
  · rw [hchannel]
    intro m' hm' hmq
    obtain ⟨hne, hmem⟩ := h.queue_nodup.mem_erase_iff.mp hmq
    refine ⟨(h.queue_waits i r m' hr hm' hmem).1, ?_⟩
    exact fun hc => hne (Option.some.inj hc).symm
  · intro _ m' hm'
    rw [hchannel]
    by_cases heq : m' = m
    · exact Or.inr (heq ▸ rfl)
    · rcases h.waiting_queued i r m' hr hlive hm' with hqueued | hc
      · exact Or.inl ((mem_erase_of_ne heq).mpr hqueued)
      · rw [hheld] at hc
        cases hc

/-- Request `i` sends a message. -/
theorem QueueInv.deliver (hids : IdentityInv s) (h : QueueInv config s)
    (hr : s.requests[i]? = some r) (hlive : r.stage.live = true) (hheld : r.stage.held = none)
    {new : CoordinationMessage} {channel : MessageChannel}
    (hsend : s.channel.send new raised = .ok channel)
    (hself : RequestDelivery config channel.accepted_ids r')
    (hmessages : r'.messages = r.messages ++ [new]) (hsubmitted : r'.submitted = r.submitted)
    (hheld' : r'.stage.held = none) :
    QueueInv config (({ s with channel := channel } : RoutingState).put i r') := by
  obtain ⟨hnew, -, rfl⟩ := MessageChannel.send_ok hsend
  have hpending : ∀ m, m ∈ r'.pending ↔ m ∈ r.pending ∨ m = new := by
    intro m
    rw [pending_append hmessages hsubmitted, mem_append, mem_singleton]
    intro m hm
    rw [mem_singleton.mp hm]
    exact hids.not_submitted hr (h.requests i r hr) hnew
  refine h.put hids hr rfl (fun id hid => mem_append_left _ hid) hself ?_ ?_ ?_ ?_ ?_ ?_ ?_
  · intro m hm
    rw [hmessages, mem_append, mem_singleton] at hm
    rcases hm with hold | rfl
    · exact Or.inl hold
    · exact Or.inr hnew
  · rw [hmessages]
    exact fun m hm => mem_append_left _ hm
  · show (s.channel.messages ++ [new]).Nodup
    rw [nodup_append]
    refine ⟨h.queue_nodup, nodup_singleton _, ?_⟩
    intro a ha b hb hab
    rw [hab, mem_singleton.mp hb] at ha
    exact hnew (hids.accepted new (Or.inl ha))
  · intro m hm
    rcases mem_append.mp hm with hold | hlast
    · exact Or.inl hold
    · rw [hmessages]
      exact Or.inr (mem_append_right _ hlast)
  · exact fun m hm => Or.inl (mem_append_left _ hm)
  · intro m hm hmq
    refine ⟨?_, by rw [hheld']; exact fun hc => by cases hc⟩
    rw [hpending]
    rw [hmessages, mem_append, mem_singleton] at hm
    rcases hm with hmine | rfl
    · rcases mem_append.mp hmq with hold | hlast
      · exact Or.inl (h.queue_waits i r m hr hmine hold).1
      · exact Or.inr (mem_singleton.mp hlast)
    · exact Or.inr rfl
  · intro _ m hm
    refine Or.inl ?_
    rcases (hpending m).mp hm with hold | rfl
    · rcases h.waiting_queued i r m hr hlive hold with hqueued | hc
      · exact mem_append_left _ hqueued
      · rw [hheld] at hc
        cases hc
    · exact mem_append_right _ (mem_singleton_self _)

variable {a : RequestEvent} {stage : RequestStage} {outcome : InvocationOutcome}

/-- A stage at which a request waits and receives. -/
theorem StageMove.held_none (h : StageMove config s r a stage) : stage.held = none := by
  cases h <;> rfl

/-- A move of the stage does not bring a request back into its loop. -/
theorem StageMove.live (h : StageMove config s r a stage) (hlive : stage.live = true) :
    r.stage = .called := by
  cases h with
  | enter hstage => exact hstage
  | _ => cases hlive

theorem queue_inv_step (hids : IdentityInv s) (h : QueueInv config s)
    (hs : RoutingStep config s e s') : QueueInv config s' := by
  rcases hs with ⟨e, hidle, is_closing, is_closed⟩ | ⟨agent_id, hagent, havailable⟩ |
    ⟨closer, ℓ, hcloser, l, hl, hopen⟩ | ⟨ℓ, l, hl, hclosing⟩ | ⟨request⟩ |
    ⟨request, ℓ, l, hl, howner, hopen⟩ | ⟨i, r, hr, a, stage, hmove, sessions⟩ |
    ⟨i, r, hr, root, hstage, raised, channel, hsend⟩ |
    ⟨i, r, hr, root, hstage, ℓ, hlease, l, hl, hown, channel, hchannel⟩ |
    ⟨i, r, hr, hstage, m, channel, hreceive⟩ | ⟨i, r, hr, m, ℓ, hstage⟩ |
    ⟨i, r, hr, k, f, hf, a, stage, hmove⟩ | ⟨i, r, hr, hstage, k, f, hf, outcome, hdone⟩ |
    ⟨i, r, hr, parent, invocation_id, d, rest, hstage, made, raised, issue, hrefused⟩ |
    ⟨i, r, hr, parent, invocation_id, d, rest, hstage, made, raised, child, channel, haccepted⟩
  case flags | reserve | mark | release => exact h.same rfl rfl rfl
  case call => exact h.call request none rfl rfl
  case call_lease => exact h.call request (some ℓ) rfl rfl
  all_goals have hreq := h.requests i r hr
  case restage =>
    have hself := hreq.restage hmove
    refine h.put_same hids hr rfl rfl hself rfl ?_ ?_
    · intro m hm _
      refine ⟨hm, ?_⟩
      show stage.held ≠ some m
      rw [hmove.held_none]
      exact nofun
    · intro hlive
      have hcalled := hmove.live hlive
      refine ⟨by rw [hcalled]; rfl, fun m hm => ?_⟩
      have hnone := (hreq.flow.unsent (by rw [hcalled]; rfl)).1
      have hmem := (mem_pending.mp hm).1
      change m ∈ r.messages at hmem
      rw [hnone] at hmem
      cases hmem
  case send =>
    have hnone := (hreq.flow.unsent (by rw [hstage]; rfl)).1
    refine h.deliver hids hr (by rw [hstage]; rfl) (by rw [hstage]; rfl) hsend
      (hreq.send hstage _) ?_ rfl ?_
    · rw [hnone]
      rfl
    · dsimp only
      split <;> rfl
  case check =>
    obtain ⟨hmessages, hsubmitted⟩ := hreq.checking root hstage
    have hpending : root ∈ r.pending := by
      rw [mem_pending, hmessages, hsubmitted]
      exact ⟨mem_singleton_self root, not_mem_nil⟩
    have hqueued : root ∈ s.channel.messages := by
      rcases h.waiting_queued i r root hr (by rw [hstage]; rfl) hpending with hmem | hc
      · exact hmem
      · rw [hstage] at hc
        cases hc
    refine h.hold hids hr (by rw [hstage]; rfl) (by rw [hstage]; rfl) (by rw [hstage]; rfl)
      (by rw [hstage]; rfl) hpending ℓ rfl ?_
    -- the root is in the queue, and no other message has its id
    rw [hchannel]
    split
    · rename_i m received hreceive
      obtain ⟨hmem, hid, rfl⟩ := MessageChannel.receive_some hreceive
      rw [hids.unique m root (Or.inl hmem) (Or.inl hqueued) (mem_singleton.mp hid)]
    · rename_i hreceive
      have hsome := MessageChannel.receive_isSome hqueued (mem_singleton_self root.message_id)
      rw [hreceive] at hsome
      cases hsome
  case take =>
    obtain ⟨hmem, hid, rfl⟩ := MessageChannel.receive_some hreceive
    obtain ⟨p, hp, hpid⟩ := mem_map.mp hid
    have hpending := (mem_filter.mp hp).1
    have hpm : p = m := by
      refine hids.unique p m (Or.inr ⟨r, mem_of_getElem? hr, ?_⟩) (Or.inl hmem) hpid
      exact (mem_pending.mp hpending).1
    rw [hpm] at hpending
    exact h.hold hids hr (by rw [hstage]; rfl) (by rw [hstage]; rfl) (by rw [hstage]; rfl)
      (by rw [hstage]; rfl) hpending s.leases.length rfl rfl
  case submit =>
    have hheld : r.stage.held = some m := by rw [hstage]; rfl
    have hm := hreq.flow.held m hheld
    -- of the waiting messages only `m` is submitted
    have hpending : ∀ m', m' ∈ RoutingRequest.pending { r with
        futures := r.futures ++ [{ message := m, lease := ℓ }]
        submitted := r.submitted ++ [m.message_id]
        stage := .routing } ↔ m' ∈ r.pending ∧ m' ≠ m := by
      intro m'
      rw [mem_pending, mem_pending]
      simp only [mem_append, mem_singleton, not_or]
      constructor
      · rintro ⟨hmem, hnot, hne⟩
        exact ⟨⟨hmem, hnot⟩, fun heq => hne (heq ▸ rfl)⟩
      · rintro ⟨⟨hmem, hnot⟩, hne⟩
        refine ⟨hmem, hnot, fun hid => hne ?_⟩
        exact inj_on_of_nodup_map hreq.flow.ids_nodup hmem
          (mem_pending.mp hm).1 hid
    refine h.put_same hids hr rfl rfl (hreq.submit hstage) rfl ?_ ?_
    · intro m' hm' hne
      rw [hheld] at hne
      exact ⟨(hpending m').mpr ⟨hm', fun heq => hne (heq ▸ rfl)⟩, fun hc => by cases hc⟩
    · intro _
      refine ⟨by rw [hstage]; rfl, fun m' hm' => ?_⟩
      obtain ⟨hmem, hne⟩ := (hpending m').mp hm'
      rw [hheld]
      exact ⟨hmem, fun hc => absurd (Option.some.inj hc).symm hne⟩
  case future =>
    exact h.put_same hids hr rfl rfl (hreq.future hf hmove) rfl (fun m hm hne => ⟨hm, hne⟩)
      fun hlive => ⟨hlive, fun m hm => ⟨hm, id⟩⟩
  case process =>
    obtain ⟨-, -, hmessages, hsubmitted⟩ :=
      process_outcome_frame { r with futures := r.futures.eraseIdx k } f.message outcome
    have hpending : (process_outcome { r with futures := r.futures.eraseIdx k } f.message
        outcome).pending = r.pending := by
      rw [RoutingRequest.pending, hmessages, hsubmitted]
      rfl
    have hheld : (process_outcome { r with futures := r.futures.eraseIdx k } f.message
        outcome).stage.held = none := by
      rcases process_outcome_stage { r with futures := r.futures.eraseIdx k } f.message outcome
        hstage with heq | ⟨id, rest, heq⟩
      · rw [heq]
        rfl
      · rw [heq]
        exact (delegation_stage_held _ _ _).1
    refine h.put_same hids hr rfl rfl (hreq.process hstage hf hdone) hmessages ?_ ?_
    · intro m hm _
      rw [hpending, hheld]
      exact ⟨hm, fun hc => by cases hc⟩
    · intro _
      rw [hpending]
      refine ⟨by rw [hstage]; rfl, fun m hm => ⟨hm, fun hc => ?_⟩⟩
      rw [hstage] at hc
      cases hc
  case refuse =>
    have hheld := (delegation_stage_held parent invocation_id rest).1
    refine h.put_same hids hr rfl rfl (hreq.refuse hstage issue) rfl ?_ ?_
    · intro m hm _
      exact ⟨hm, fun hc => by cases hheld.symm.trans hc⟩
    · intro _
      refine ⟨by rw [hstage]; rfl, fun m hm => ⟨hm, fun hc => ?_⟩⟩
      rw [hstage] at hc
      cases hc
  case accept =>
    obtain ⟨-, -, -, -, hsend⟩ := delegate_accepted haccepted
    exact h.deliver hids hr (by rw [hstage]; rfl) (by rw [hstage]; rfl) hsend
      (hreq.accept (hids.request hr) hstage haccepted) rfl rfl
      (delegation_stage_held parent invocation_id rest).1

theorem queue_inv (h : (routing_system config).Reachable s) : QueueInv config s := by
  refine h.invariant ?_ fun s e s' hreach hinv hs =>
    queue_inv_step (identity_inv hreach) hinv (routing_step hs)
  rintro s rfl
  refine ⟨?_, ?_, nodup_nil, ?_, ?_, ?_⟩
  · intro i r hr
    cases hr
  · intro i j r q m hr
    cases hr
  · intro m hm
    cases hm
  · intro i r m hr
    cases hr
  · intro i r m hr
    cases hr

/-! ## What a request leaves behind -/

/-- The request does not raise in this step, or nothing of it is queued: the lease it
was given is for its entry agent, the pool refuses a submission only when no other
message waits, and so it is with an exception about which there is no issue and with a
delegation at which `_delegate` raises. -/
def RoutingState.drains (config : RoutingConfig) (s : RoutingState) : RoutingEvent → Bool
  | .request i .check_lease => match s.requests[i]? with
    | some r => match r.stage, r.lease with
      | .checking root, some ℓ => (s.leases[ℓ]?).all fun l => l.agent_id = root.target_agent_id
      | _, _ => true
    | none => true
  | .request i (.submit false) => match s.requests[i]? with
    | some r => r.pending.all fun m => r.stage.held = some m
    | none => true
  | .request i (.process k) => match s.requests[i]? with
    | some r => match r.futures[k]? with
      | some f => match f.stage with
        | .done (.error e) => e.reportable ∨ r.pending = []
        | _ => true
      | none => true
    | none => true
  | .request i (.delegate made raised) => match s.requests[i]? with
    | some r => match r.stage with
      | .delegating parent _ (d :: _) =>
        ¬ delegation_raises config.graph s.channel parent d made raised ∨ r.pending = []
      | _ => true
    | none => true
  | _ => true

/-- Nothing is queued of a request that is not in its loop any more. -/
def DrainInv (s : RoutingState) : Prop :=
  ∀ (i : ℕ) (r : RoutingRequest) (m : CoordinationMessage), s.requests[i]? = some r →
    r.stage.live = false → m ∈ r.messages → m ∉ s.channel.messages

/-- The rule for a step of request `i`. -/
theorem DrainInv.put (h : DrainInv s) (h' : QueueInv config (base.put i r'))
    (hlt : i < s.requests.length) (hrequests : base.requests = s.requests)
    (hqueue : ∀ m ∈ base.channel.messages, m ∈ s.channel.messages ∨ m ∈ r'.messages)
    (hself : r'.stage.live = false → ∀ m ∈ r'.pending, m ∉ base.channel.messages) :
    DrainInv (base.put i r') := by
  have hat : (base.put i r').requests[i]? = some r' := by
    show (base.requests.set i r')[i]? = _
    rw [hrequests, getElem?_set_self hlt]
  intro j q m hq hlive hm hmq
  rcases getElem?_set_cases hq with ⟨rfl, rfl⟩ | ⟨hj, hold⟩
  · exact hself hlive m (h'.queue_waits j q m hat hm hmq).1 hmq
  · rw [hrequests] at hold
    rcases hqueue m hmq with hqueued | hnew
    · exact h j q m hold hlive hm hqueued
    · exact hj (h'.apart j i q r' m hq hat hm hnew)

/-- A routed outcome without an issue is an error about which there is none. -/
theorem route_outcome_unusable (h : route_outcome m outcome = .unusable) :
    ∃ e, outcome = .error e ∧ e.reportable = false := by
  unfold route_outcome at h
  split at h
  · rename_i e
    split at h
    · cases h
    · rename_i hissue
      exact ⟨e, rfl, (e.issue_none_iff m).mp hissue⟩
  · split at h <;> cases h

/-- Behind a look at a finished future a request is in its loop, unless there is no
issue. -/
theorem process_outcome_live (hstage : r.stage = .routing)
    (h : (process_outcome r m outcome).stage.live = false) :
    ∃ e, outcome = .error e ∧ e.reportable = false := by
  unfold process_outcome at h
  split at h
  · change r.stage.live = false at h
    rw [hstage] at h
    cases h
  · rename_i hroute
    exact route_outcome_unusable hroute
  · rename_i result delegations _
    cases delegations with
    | nil => cases h
    | cons d rest => cases h

/-- The delegation that is under way is that of a message which passed its validators. -/
theorem QueueInv.delegating_raises (h : QueueInv config s) (hr : s.requests[i]? = some r)
    {parent : CoordinationMessage} {invocation_id : String} {d : DelegationProposal}
    {rest : List DelegationProposal} (hstage : r.stage = .delegating parent invocation_id (d :: rest))
    {made : Option String} :
    (∃ e, delegate config.graph s.channel parent invocation_id d made raised = .raised e) ↔
      delegation_raises config.graph s.channel parent d made raised = true := by
  have hreq := h.requests i r hr
  have hparent := (hreq.log.delegating parent invocation_id _ hstage).2.1
  exact delegate_raised_iff (CoordinationGraph.build_ok config.accepted) (hreq.sound parent hparent).1

theorem drain_inv_step (hqueue_inv : QueueInv config s) (hqueue_inv' : QueueInv config s')
    (h : DrainInv s) (hdrains : s.drains config e = true) (hs : RoutingStep config s e s') : DrainInv s' := by
  -- a step of nobody, or a new request
  have hsame : ∀ t : RoutingState, t.channel.messages = s.channel.messages →
      (∀ (j : ℕ) (q : RoutingRequest), t.requests[j]? = some q →
        s.requests[j]? = some q ∨ q.messages = []) → DrainInv t := by
    intro t hchannel hrequests j q m hq hlive hm
    rw [hchannel]
    rcases hrequests j q hq with hold | hnone
    · exact h j q m hold hlive hm
    · rw [hnone] at hm
      cases hm
  have hcall : ∀ (t : RoutingState) (p : RoutingRequest), t.channel = s.channel →
      t.requests = s.requests ++ [p] → p.messages = [] → DrainInv t := by
    intro t p hchannel hrequests hp
    refine hsame t (by rw [hchannel]) fun j q hq => ?_
    rw [hrequests] at hq
    exact (getElem?_concat_cases hq).imp_right fun ⟨_, hnew⟩ => hnew ▸ hp
  rcases hs with ⟨e, hidle, is_closing, is_closed⟩ | ⟨agent_id, hagent, havailable⟩ |
    ⟨closer, ℓ, hcloser, l, hl, hopen⟩ | ⟨ℓ, l, hl, hclosing⟩ | ⟨request⟩ |
    ⟨request, ℓ, l, hl, howner, hopen⟩ | ⟨i, r, hr, a, stage, hmove, sessions⟩ |
    ⟨i, r, hr, root, hstage, raised, channel, hsend⟩ |
    ⟨i, r, hr, root, hstage, ℓ, hlease, l, hl, hown, channel, hchannel⟩ |
    ⟨i, r, hr, hstage, m, channel, hreceive⟩ | ⟨i, r, hr, m, ℓ, hstage⟩ |
    ⟨i, r, hr, k, f, hf, a, stage, hmove⟩ | ⟨i, r, hr, hstage, k, f, hf, outcome, hdone⟩ |
    ⟨i, r, hr, parent, invocation_id, d, rest, hstage, made, raised, issue, hrefused⟩ |
    ⟨i, r, hr, parent, invocation_id, d, rest, hstage, made, raised, child, channel, haccepted⟩
  case flags | reserve | mark | release => exact hsame _ rfl fun j q hq => Or.inl hq
  case call => exact hcall _ _ rfl rfl rfl
  case call_lease => exact hcall _ _ rfl rfl rfl
  all_goals
    have hreq := hqueue_inv.requests i r hr
    have hlt := (List.getElem?_eq_some_iff.mp hr).1
  case restage =>
    refine h.put hqueue_inv' hlt rfl (fun m hm => Or.inl hm) fun hlive m hm hmq => ?_
    change m ∈ r.pending at hm
    have hmem := (mem_pending.mp hm).1
    -- a request that is out of its loop already has nothing queued
    by_cases hout : r.stage.live = false
    · exact h i r m hr hout hmem hmq
    cases hmove with
    | enter_failed hstage =>
      rw [(hreq.flow.unsent (by rw [hstage]; rfl)).1] at hmem
      cases hmem
    | enter hstage => cases hlive
    | send_failed root hstage =>
      rw [(hreq.flow.unsent (by rw [hstage]; rfl)).1] at hmem
      cases hmem
    | foreign root hstage ℓ hlease l hl hforeign =>
      simp only [RoutingState.drains, hr, hstage, hlease, hl, Option.all_some,
        decide_eq_true_eq] at hdrains
      exact hforeign hdrains
    | submit_refused held ℓ hstage =>
      -- the only waiting message is the one that is held
      simp only [RoutingState.drains, hr, all_eq_true, decide_eq_true_eq] at hdrains
      exact (hqueue_inv.queue_waits i r m hr hmem hmq).2 (hdrains m hm)
    | settle_refused ℓ hstage => exact hout (by rw [hstage]; rfl)
    | delegate_raised parent invocation_id d rest hstage made raised e hraised =>
      have hraises := (hqueue_inv.delegating_raises hr hstage).mp ⟨e, hraised⟩
      have hnone : r.pending = [] := by
        simpa [RoutingState.drains, hr, hstage, hraises] using hdrains
      rw [hnone] at hm
      cases hm
    | complete hstage hfutures hpending =>
      rw [hpending] at hm
      cases hm
    | exit_session raised hstage => exact hout (by rw [hstage]; rfl)
    | finish_call raised hstage => exact hout (by rw [hstage]; rfl)
  case send =>
    obtain ⟨-, -, rfl⟩ := MessageChannel.send_ok hsend
    refine h.put hqueue_inv' hlt rfl ?_ fun hlive => ?_
    · intro m hm
      rcases mem_append.mp hm with hold | hnew
      · exact Or.inl hold
      · exact Or.inr hnew
    · dsimp only at hlive
      split at hlive <;> cases hlive
  case check =>
    refine h.put hqueue_inv' hlt rfl ?_ nofun
    rw [hchannel]
    intro m hm
    dsimp only at hm
    split at hm
    · rename_i received channel' hreceive
      obtain ⟨-, -, rfl⟩ := MessageChannel.receive_some hreceive
      exact Or.inl (mem_of_mem_erase hm)
    · exact Or.inl hm
  case take =>
    obtain ⟨-, -, rfl⟩ := MessageChannel.receive_some hreceive
    exact h.put hqueue_inv' hlt rfl (fun m' hm' => Or.inl (mem_of_mem_erase hm'))
      nofun
  case submit =>
    exact h.put hqueue_inv' hlt rfl (fun m' hm' => Or.inl hm') nofun
  case future =>
    refine h.put hqueue_inv' hlt rfl (fun m hm => Or.inl hm) fun hlive m hm => ?_
    exact h i r m hr hlive (mem_pending.mp hm).1
  case process =>
    refine h.put hqueue_inv' hlt rfl (fun m hm => Or.inl hm) fun hlive m hm => ?_
    obtain ⟨error, rfl, hcode⟩ :=
      process_outcome_live (r := { r with futures := r.futures.eraseIdx k }) hstage hlive
    have hnone : r.pending = [] := by
      simpa [RoutingState.drains, hr, hf, hdone, hcode] using hdrains
    obtain ⟨-, -, hmessages, hsubmitted⟩ :=
      process_outcome_frame { r with futures := r.futures.eraseIdx k } f.message (.error error)
    rw [RoutingRequest.pending, hmessages, hsubmitted] at hm
    change m ∈ r.pending at hm
    rw [hnone] at hm
    cases hm
  case refuse =>
    refine h.put hqueue_inv' hlt rfl (fun m hm => Or.inl hm) fun hlive => ?_
    rcases rest with _ | ⟨d', rest⟩ <;> cases hlive
  case accept =>
    obtain ⟨-, -, -, -, hsend⟩ := delegate_accepted haccepted
    obtain ⟨-, -, rfl⟩ := MessageChannel.send_ok hsend
    refine h.put hqueue_inv' hlt rfl ?_ fun hlive => ?_
    · intro m hm
      rcases mem_append.mp hm with hold | hnew
      · exact Or.inl hold
      · exact Or.inr (mem_append_right _ hnew)
    · rcases rest with _ | ⟨d', rest⟩ <;> cases hlive

theorem drain_inv (h : (routing_system config).ReachableUnder (fun s e => s.drains config e = true) s) :
    DrainInv s := by
  refine h.invariant ?_ fun s e s' hreach hinv hdrains hs => ?_
  · rintro s rfl i r m hr
    cases hr
  · exact drain_inv_step (queue_inv hreach) (queue_inv (.step hreach hs)) hinv hdrains
      (routing_step hs)

/-- What the queue holds once requests return or raise. -/
structure QueueContract (s : RoutingState) : Prop where
  /-- Nothing of a request that has returned or raised is queued. -/
  returned_clean : ∀ (i : ℕ) (r : RoutingRequest), s.requests[i]? = some r →
    r.stage.is_over = true → ∀ m ∈ r.messages, m ∉ s.channel.messages
  /-- The places it leaves are free: the occupied ones belong to other requests. -/
  places_free : ∀ (i : ℕ) (r : RoutingRequest), s.requests[i]? = some r → r.stage.is_over = true →
    s.channel.messages.countP (fun m => m ∉ r.messages) = s.channel.messages.length
  /-- What is queued belongs to a request that is in its loop. -/
  queued_live : ∀ m ∈ s.channel.messages, ∃ (i : ℕ) (r : RoutingRequest),
    s.requests[i]? = some r ∧ r.stage.live = true ∧ m ∈ r.messages

/-- When no request raises while something of it is queued, a request that is over has
left the queue as it would be without it. -/
theorem finished_request_clean {config : RoutingConfig} {s : RoutingState}
    (h : (routing_system config).ReachableUnder (fun s e => s.drains config e = true) s) :
    QueueContract s := by
  have hinv := drain_inv h
  have hclean : ∀ (i : ℕ) (r : RoutingRequest), s.requests[i]? = some r →
      r.stage.is_over = true → ∀ m ∈ r.messages, m ∉ s.channel.messages := by
    intro i r hr hover m hm
    refine hinv i r m hr ?_ hm
    cases hstage : r.stage <;> simp_all [RequestStage.is_over, RequestStage.live]
  refine ⟨hclean, ?_, ?_⟩
  · intro i r hr hover
    rw [countP_eq_length]
    exact fun m hm => decide_eq_true fun hmine => hclean i r hr hover m hmine hm
  · intro m hm
    obtain ⟨i, r, hr, hmem⟩ := (queue_inv h.reachable).queue_owned m hm
    refine ⟨i, r, hr, ?_, hmem⟩
    by_contra hlive
    exact hinv i r m hr (by simpa using hlive) hmem hm

/-! The first peer is invoked with the lease that was passed and delegates to the
second one, whose invocation raises. -/

/-- The first peer delegates. -/
def delegating_response : AgentResponse where
  delegations := [{ id := "delegation-1", target_agent_id := "b", intent := "verify" }]
  response_has_an_outcome := Or.inr (Or.inr (Or.inl (cons_ne_nil _ _)))
  delegation_ids_unique := nodup_singleton _

/-- The invocation of the first peer succeeds. -/
def delegating_invocation : Invocation :=
  .commits
    { context :=
        { invocation_id := "invocation-1", run_id := "run", agent_id := "a", deployment := "host" }
      response := delegating_response }
    { invocation_id := "invocation-1"
      run_id := "run"
      agent_id := "a"
      status := .succeeded
      response := some delegating_response
      issue_matches_status := iff_of_true rfl rfl
      success_has_response := fun _ => Option.some_ne_none _ }

/-- The invocation of the second peer raises. -/
def raising_invocation : Invocation :=
  .raises { message := some (.text "timeout"), type_name := "TimeoutError" }

/-- From a submission to its outcome, with lease `ℓ`. -/
def invoked_with (ℓ : ℕ) (invocation : Invocation) : List RoutingEvent :=
  [.request 0 (.submit true), .request 0 (.start 0), .request 0 (.finish 0 invocation),
    .close (.future 0 0), .release ℓ, .request 0 (.settle 0), .request 0 (.process 0)]

/-- The whole request. -/
def delegated_run : List RoutingEvent :=
  [.reserve "a", .coordinate peer_request (some 0), .request 0 (.enter (some "message-1")),
    .request 0 (.send_root none), .request 0 .check_lease] ++ invoked_with 0 delegating_invocation ++
  [.request 0 (.delegate (some "message-2") none), .request 0 .take] ++ invoked_with 1 raising_invocation ++
  [.request 0 .complete, .request 0 .exit_session, .close (.entry 0), .request 0 .finish_call]

theorem finished_request_clean_delegated : ∃ s : RoutingState,
      ((routing_system peer_config).guarded fun s e => s.drains peer_config e = true).run
        { channel := { capacity := peer_config.channel_capacity } } delegated_run = some s ∧
      (∃ r ∈ s.requests, r.stage.is_over = true ∧ r.messages.length = 2) ∧ QueueContract s := by
  have hrun : (((routing_system peer_config).guarded fun s e => s.drains peer_config e = true).run
      { channel := { capacity := peer_config.channel_capacity } } delegated_run).any
        (fun s : RoutingState => s.requests.any fun r =>
          r.stage.is_over && r.messages.length = 2) = true := by decide
  obtain ⟨s, hs, hstate⟩ := (Option.any_eq_true _ _).mp hrun
  obtain ⟨r, hr, hover⟩ := any_eq_true.mp hstate
  rw [Bool.and_eq_true, decide_eq_true_eq] at hover
  have hreach : ((routing_system peer_config).guarded fun s e => s.drains peer_config e = true).Reachable s :=
    System.Reachable.run (.init rfl) hs
  exact ⟨s, hs, ⟨r, hr, hover⟩, finished_request_clean hreach.unguarded⟩

/-- The lease of the second peer is passed with an intent for the first one. -/
def foreign_lease_run : List RoutingEvent :=
  [.reserve "b", .coordinate peer_request (some 0), .request 0 (.enter (some "message-1")),
    .request 0 (.send_root none), .request 0 .check_lease, .request 0 .exit_session,
    .close (.entry 0), .release 0, .request 0 .finish_call]

/-- `coordinate` raises, and the root stays queued. -/
theorem foreign_lease_leaves_root : ∃ s : RoutingState,
      (routing_system peer_config).run { channel := { capacity := peer_config.channel_capacity } }
        foreign_lease_run = some s ∧
      (∃ r ∈ s.requests, r.stage.is_over = true ∧ r.messages ≠ [] ∧
        s.channel.messages = r.messages) ∧ ¬ QueueContract s := by
  have hrun : ((routing_system peer_config).run
      { channel := { capacity := peer_config.channel_capacity } } foreign_lease_run).any
        (fun s : RoutingState => s.requests.any fun r =>
          r.stage.is_over && (r.messages ≠ [] ∧ s.channel.messages = r.messages)) = true := by
    decide
  obtain ⟨s, hs, hstate⟩ := (Option.any_eq_true _ _).mp hrun
  obtain ⟨r, hr, hover⟩ := any_eq_true.mp hstate
  rw [Bool.and_eq_true, decide_eq_true_eq] at hover
  obtain ⟨hover, hne, hqueue⟩ := hover
  refine ⟨s, hs, ⟨r, hr, hover, hne, hqueue⟩, fun hcontract => ?_⟩
  obtain ⟨i, hi⟩ := getElem?_of_mem hr
  obtain ⟨m, rest, hm⟩ := exists_cons_of_ne_nil hne
  have hmem : m ∈ r.messages := hm ▸ mem_cons_self
  exact hcontract.returned_clean i r hi hover m hmem (hqueue ▸ hmem)

end MininetAi
