/-
When the control endpoint goes on. The thread of `IntentServer` ends with what neither
`_handle_request` nor the handler around `_send` catches: a `RecursionError` of `json.loads`,
and the `UnicodeEncodeError` of a response that holds a lone surrogate of an accepted intent.
Every other input of a client is answered, or its connection is closed.
-/
import MininetAi.Runtime.Control

set_option autoImplicit false

namespace MininetAi

open List

open Json (Text text)

variable {codec : ControlCodec} {o : Owner} {c : ControlConnection}

/-! ## What a connection does to the server -/

/-- The owner takes an intent of this request. -/
def Owner.Accepts (o : Owner) (submission : Submission) (request : IntentRequest) : Prop :=
  request.run_id = text o.run.id ∧ (∀ digest, request.plan_digest = some digest → digest = text o.run.plan_digest) ∧
    o.running = true ∧ (∃ id ∈ o.manual_agent_ids, text id = request.agent_id) ∧
    ∃ event_id occurred_at, submission = .accepted event_id occurred_at

/-- The frames that a client of the owner's user gets through in time can be parsed within the stack,
and an intent of them that the owner takes has no lone surrogate. -/
def HarmlessConnection (codec : ControlCodec) (o : Owner) (c : ControlConnection) : Prop :=
  c.owner_user = true → ∀ frame, Frames.Delivers max_message_bytes 4096 newline c.incoming frame →
    (∀ message, codec.loads frame ≠ .error (.too_deep message)) ∧
      ∀ payload request, codec.loads frame = .ok payload →
        codec.validate (default_kind payload) = .ok (.submit request) → o.Accepts c.submission request →
        request.intent.any Json.CodePoint.is_surrogate = false

/-! ## Receiving -/

variable {incoming : List (Frames.Arrival UInt8 String)} {agent_id intent : Text} {s' : Server}
  {owner : Owner}

theorem receive_ok_iff {frame : List UInt8} :
    receive incoming = .ok frame ↔ Frames.Delivers max_message_bytes 4096 newline incoming frame := by
  rw [← Frames.receive_iff]
  unfold receive
  split <;> simp_all

variable {e : ControlError} {submission : Submission} {response : Json.Value}
  {failure : Option String} {s : Server} {n : ℕ} {request : ControlRequest}

theorem receive_error_handled (h : receive incoming = .error e) : e.handled = true := by
  unfold receive at h
  split at h <;> cases h <;> rfl

/-- What a client cannot be told while its request is read: that the stack is used up. -/
theorem read_request_unhandled_iff :
    read_request codec c = .error e ∧ e.handled = false ↔ c.owner_user = true ∧
      ∃ frame message, Frames.Delivers max_message_bytes 4096 newline c.incoming frame ∧
        codec.loads frame = .error (.too_deep message) ∧ e = .recursion message := by
  constructor
  · rintro ⟨h, hhandled⟩
    unfold read_request at h
    split at h
    · cases h
      cases hhandled
    rename_i huser
    refine ⟨by simpa using huser, ?_⟩
    split at h
    · rename_i e' hreceive
      cases h
      rw [receive_error_handled hreceive] at hhandled
      cases hhandled
    rename_i frame hreceive
    split at h
    · cases h
      cases hhandled
    · rename_i message hloads
      cases h
      exact ⟨frame, message, receive_ok_iff.mp hreceive, hloads, rfl⟩
    · split at h <;> cases h
      cases hhandled
  · rintro ⟨huser, frame, message, hdelivers, hloads, rfl⟩
    refine ⟨?_, rfl⟩
    unfold read_request
    rw [huser, receive_ok_iff.mpr hdelivers]
    simp only [Bool.true_eq_false, if_false, hloads]

theorem read_request_ok_iff :
    read_request codec c = .ok request ↔ c.owner_user = true ∧
      ∃ frame payload, Frames.Delivers max_message_bytes 4096 newline c.incoming frame ∧
        codec.loads frame = .ok payload ∧ codec.validate (default_kind payload) = .ok request := by
  constructor
  · intro h
    unfold read_request at h
    split at h
    · cases h
    rename_i huser
    refine ⟨by simpa using huser, ?_⟩
    split at h
    · cases h
    rename_i frame hreceive
    split at h
    · cases h
    · cases h
    rename_i payload hloads
    split at h
    · cases h
    rename_i request' hvalidate
    cases h
    exact ⟨frame, payload, receive_ok_iff.mp hreceive, hloads, hvalidate⟩
  · rintro ⟨huser, frame, payload, hdelivers, hloads, hvalidate⟩
    unfold read_request
    rw [huser, receive_ok_iff.mpr hdelivers]
    simp only [Bool.true_eq_false, if_false, hloads, hvalidate]

/-! ## Answering -/

/-- What the owner raises is answered. -/
theorem submit_intent_handled
    (h : (o.submit_intent codec agent_id intent submission).1 = .error e) : e.handled = true := by
  unfold Owner.submit_intent at h
  split_ifs at h
  all_goals try (cases h; rfl)
  cases submission <;> cases h <;> rfl

/-- An intent is accepted for an agent with a manual trigger, while the run goes on, if its event is. -/
theorem submit_intent_ok_iff {event : Json.Value} :
    (o.submit_intent codec agent_id intent submission).1 = .ok event ↔
      (agent_id ≠ [] ∧ intent ≠ []) ∧ o.running = true ∧ (∃ id ∈ o.manual_agent_ids, text id = agent_id) ∧
        ∃ event_id occurred_at, submission = .accepted event_id occurred_at ∧
          event = o.manual_intent event_id occurred_at agent_id intent := by
  -- an agent with a manual trigger is an agent of the plan
  have hmanual : (∃ id ∈ o.manual_agent_ids, text id = agent_id) → ∃ id ∈ o.agent_ids, text id = agent_id := by
    rintro ⟨id, hid, heq⟩
    obtain ⟨agent, hagent, rfl⟩ := mem_map.mp hid
    exact ⟨agent.id, mem_map_of_mem (mem_filter.mp hagent).1, heq⟩
  unfold Owner.submit_intent
  simp only [any_eq_true, decide_eq_true_eq]
  split_ifs with hempty hstopped hknown htrigger
  · simp only [false_iff, not_and]
    intro hne
    exact absurd hempty (by simp [hne])
  · simp [hstopped]
  · rw [not_or] at hempty
    cases submission with
    | accepted event_id occurred_at =>
      constructor
      · intro h
        cases h
        exact ⟨hempty, by simpa using hstopped, htrigger, event_id, occurred_at, rfl, rfl⟩
      · rintro ⟨-, -, -, id, time, hsub, rfl⟩
        cases hsub
        rfl
    | invalid message => simp [Owner.published]
    | refused message code => simp [Owner.published]
  · simp only [false_iff]
    rintro ⟨-, -, hid, -⟩
    exact htrigger hid
  · simp only [false_iff]
    rintro ⟨-, -, hid, -⟩
    exact hknown (hmanual hid)

theorem answer_handled
    (h : (answer codec o submission request).1 = .error e) : e.handled = true := by
  cases request with
  | describe request =>
    rw [answer] at h
    split at h <;> cases h
    rfl
  | submit request =>
    rw [answer] at h
    split_ifs at h
    · cases h
      rfl
    · cases h
      rfl
    · rcases hsubmit : (o.submit_intent codec request.agent_id request.intent submission).1 with e' | event
      · simp only [hsubmit, Except.map, Except.error.injEq] at h
        rw [← h]
        exact submit_intent_handled hsubmit
      · simp only [hsubmit, Except.map, reduceCtorEq] at h

/-! ## Lone surrogates in responses -/

/-- What the server itself says is made of characters. -/
theorem points_error_response (e : ControlError) :
    (Json.points (error_response e)).any Json.CodePoint.is_surrogate = false := by
  simp [error_response, Json.points, Json.points_fields]

theorem points_ids (ids : List String) :
    (Json.points_items (ids.map fun id => .str (text id))).any Json.CodePoint.is_surrogate = false := by
  induction ids with
  | nil => rfl
  | cons id ids ih =>
    rw [map_cons, Json.points_items, any_append, ih, Json.points, Json.any_text]
    rfl

theorem points_describe_response (o : Owner) :
    (Json.points (describe_response o)).any Json.CodePoint.is_surrogate = false := by
  simp only [describe_response, Json.points, Json.points_fields, any_append, Json.any_text, points_ids,
    any_nil, Bool.or_false]

theorem points_event_response (event_id occurred_at : String) (agent_id intent : Text) :
    (Json.points (event_response (o.manual_intent event_id occurred_at agent_id intent))).any
        Json.CodePoint.is_surrogate =
      (agent_id.any Json.CodePoint.is_surrogate || intent.any Json.CodePoint.is_surrogate) := by
  simp only [event_response, Owner.manual_intent, Json.points, Json.points_fields, any_append, Json.any_text,
    any_nil, Bool.or_false, Bool.false_or]
  rw [← Bool.or_assoc, Bool.or_self]

/-- A request to submit is answered with an event if it is for this run and this plan and the owner takes
its intent. -/
theorem answer_submit_ok_iff {request : IntentRequest} :
    (answer codec o submission (.submit request)).1 = .ok response ↔ request.run_id = text o.run.id ∧
      (∀ digest, request.plan_digest = some digest → digest = text o.run.plan_digest) ∧
      ∃ event, (o.submit_intent codec request.agent_id request.intent submission).1 = .ok event ∧
        response = event_response event := by
  have hdigest : request.plan_digest.any (· ≠ text o.run.plan_digest) = false ↔
      ∀ digest, request.plan_digest = some digest → digest = text o.run.plan_digest := by
    rcases request.plan_digest with _ | digest <;> simp
  rw [answer, ← hdigest]
  split_ifs with hrun hplan
  · simp [hrun]
  · rw [hplan]
    simp
  · rw [Bool.not_eq_true] at hplan
    rcases hsubmit : (o.submit_intent codec request.agent_id request.intent submission).1 with e | event
    · simp [Except.map]
    · simp only [Except.map, Except.ok.injEq, exists_eq_left', hplan, true_and, not_not.mp hrun]
      exact eq_comm

/-- A response holds a lone surrogate if the owner took an intent with one, and only then. -/
theorem answer_surrogate_iff : (∃ response, (answer codec o submission request).1 = .ok response ∧
        (Json.points response).any Json.CodePoint.is_surrogate = true) ↔
      ∃ intent, request = .submit intent ∧ o.Accepts submission intent ∧
        intent.intent.any Json.CodePoint.is_surrogate = true := by
  cases request with
  | describe request =>
    constructor
    · rintro ⟨response, h, hsurrogate⟩
      rw [answer] at h
      split at h
      · cases h
      · cases h
        rw [points_describe_response] at hsurrogate
        cases hsurrogate
    · rintro ⟨intent, h, -⟩
      cases h
  | submit request =>
    constructor
    · rintro ⟨response, h, hsurrogate⟩
      obtain ⟨hrun, hplan, event, hevent, rfl⟩ := answer_submit_ok_iff.mp h
      obtain ⟨-, hrunning, ⟨id, hid, hagent⟩, event_id, time, hsub, rfl⟩ := submit_intent_ok_iff.mp hevent
      -- the agent is one of the plan, so its id is made of characters
      rw [points_event_response, ← hagent, Json.any_text, Bool.false_or] at hsurrogate
      exact ⟨request, rfl, ⟨hrun, hplan, hrunning, ⟨id, hid, hagent⟩, event_id, time, hsub⟩, hsurrogate⟩
    · rintro ⟨intent, heq, ⟨hrun, hplan, hrunning, hagent, event_id, time, hsub⟩, hsurrogate⟩
      cases heq
      have hne : request.agent_id ≠ [] ∧ request.intent ≠ [] :=
        ⟨length_pos_iff.mp request.agent_id_length.1, length_pos_iff.mp request.intent_length.1⟩
      have hevent : (o.submit_intent codec request.agent_id request.intent submission).1 = .ok _ :=
        submit_intent_ok_iff.mpr ⟨hne, hrunning, hagent, event_id, time, hsub, rfl⟩
      refine ⟨_, answer_submit_ok_iff.mpr ⟨hrun, hplan, _, hevent, rfl⟩, ?_⟩
      rw [points_event_response, hsurrogate, Bool.or_true]

/-! ## Serving -/

/-- A response that cannot be encoded is the only one whose sending is not forgiven. -/
theorem send_forgiven_iff (h : send failure response = .error e) :
    e.lost_acknowledgement = true ↔ (Json.points response).any Json.CodePoint.is_surrogate = false := by
  rw [← Bool.not_eq_true, ← Json.encode_dumps_eq_none_iff]
  unfold send at h
  split at h
  · rename_i hencode
    cases h
    simp [ControlError.lost_acknowledgement, hencode]
  · rename_i data hencode
    rw [hencode]
    split at h
    · cases h
      simp [control_failed, ControlError.lost_acknowledgement]
    · split at h <;> cases h
      simp [ControlError.lost_acknowledgement]

theorem send_ok {data : List UInt8} (h : send failure response = .ok data) :
    (Json.points response).any Json.CodePoint.is_surrogate = false := by
  rw [← Bool.not_eq_true, ← Json.encode_dumps_eq_none_iff]
  unfold send at h
  split at h
  · cases h
  · rename_i hencode
    simp [hencode]

theorem finish_connection_left_iff :
    (finish_connection failure (.ok response)).2 = none ↔ (Json.points response).any Json.CodePoint.is_surrogate = false := by
  rcases hsend : send failure response with e | data
  · rw [← send_forgiven_iff hsend, finish_connection, hsend]
    by_cases hlost : e.lost_acknowledgement = true <;> simp [hlost]
  · simp only [finish_connection, hsend, send_ok hsend]

/-- Nothing leaves the loop exactly when the connection is harmless. -/
theorem serve_connection_left_iff : (serve_connection codec o c).2 = none ↔ HarmlessConnection codec o c := by
  unfold serve_connection handle_request
  rcases hread : read_request codec c with e | request
  · rcases hhandled : e.handled with _ | _
    · obtain ⟨huser, frame, message, hdelivers, hloads, rfl⟩ := read_request_unhandled_iff.mp ⟨hread, hhandled⟩
      simp only [respond, hhandled, Bool.false_eq_true, if_false, finish_connection, reduceCtorEq, false_iff]
      intro h
      exact (h huser frame hdelivers).1 message hloads
    · simp only [respond, hhandled, if_true, finish_connection_left_iff, points_error_response, true_iff]
      intro huser frame hdelivers
      constructor
      · intro message hloads
        obtain ⟨hdeep, hunhandled⟩ := read_request_unhandled_iff.mpr ⟨huser, frame, message, hdelivers, hloads, rfl⟩
        rw [hread, Except.error.injEq] at hdeep
        rw [hdeep, hunhandled] at hhandled
        cases hhandled
      · intro payload request hloads hvalidate
        have hok := read_request_ok_iff.mpr ⟨huser, frame, payload, hdelivers, hloads, hvalidate⟩
        rw [hread] at hok
        cases hok
  · have hleft : (finish_connection c.send_failure (respond (answer codec o c.submission request).1)).2 = none ↔
        ¬ ∃ response, (answer codec o c.submission request).1 = .ok response ∧
          (Json.points response).any Json.CodePoint.is_surrogate = true := by
      rcases hanswer : (answer codec o c.submission request).1 with e | response
      · simp [respond, answer_handled hanswer, finish_connection_left_iff, points_error_response]
      · simp [respond, finish_connection_left_iff]
    dsimp only
    rw [hleft, answer_surrogate_iff]
    obtain ⟨huser, frame, payload, hdelivers, hloads, hvalidate⟩ := read_request_ok_iff.mp hread
    constructor
    · intro hnone huser' frame' hdelivers'
      -- only one frame is delivered
      have hframe : frame' = frame := by
        have hreceive := receive_ok_iff.mpr hdelivers'
        rw [receive_ok_iff.mpr hdelivers] at hreceive
        exact (Except.ok.inj hreceive).symm
      rw [hframe, hloads]
      refine ⟨fun message => by simp, fun payload' intent hpayload hintent haccepts => ?_⟩
      cases hpayload
      rw [hvalidate] at hintent
      by_contra hsurrogate
      exact hnone ⟨intent, Except.ok.inj hintent, haccepts, by simpa using hsurrogate⟩
    · rintro h ⟨intent, rfl, haccepts, hsurrogate⟩
      rw [(h huser frame hdelivers).2 payload intent hloads hvalidate haccepts] at hsurrogate
      cases hsurrogate

theorem serve_connection_ending : (serve_connection codec o c).1 ≠ .turned_away := by
  unfold serve_connection finish_connection
  split
  · simp
  · split
    · simp
    · split <;> simp

/-! ## Runs of the server -/

/-- What is true of the server's thread in every state it gets into: it has died of a connection that
was not harmless or of none, and it is through with its loop only once it is told to stop. -/
structure Server.Sound (codec : ControlCodec) (s : Server) : Prop where
  died : (∃ e, s.thread = .died e) ↔
    ∃ x ∈ s.ended, x.ending ≠ .turned_away ∧ ¬ HarmlessConnection codec x.owner x.connection
  returned : s.thread = .returned → s.stop = true

/-- A step that ends no connection and starts from a living thread. -/
theorem Server.Sound.moved (h : s.Sound codec) (hlive : ∀ e, s.thread ≠ .died e)
    (hended : s'.ended = s.ended) (hlive' : ∀ e, s'.thread ≠ .died e)
    (hreturned : s'.thread = .returned → s'.stop = true) : s'.Sound codec where
  died := by
    rw [hended, ← h.died]
    exact iff_of_false (fun ⟨e, he⟩ => hlive' e he) fun ⟨e, he⟩ => hlive e he
  returned := hreturned

/-- A step that another thread takes. -/
theorem Server.Sound.beside (h : s.Sound codec) (hended : s'.ended = s.ended)
    (hthread : s'.thread = s.thread) (hstop : s.stop = true → s'.stop = true) : s'.Sound codec where
  died := by
    rw [hended, hthread]
    exact h.died
  returned := by
    rw [hthread]
    exact fun hr => hstop (h.returned hr)

/-- A connection that is served. -/
theorem Server.Sound.served (h : s.Sound codec) (hthread : s.thread = .accepting)
    (c : ControlConnection) : Server.Sound codec { s with
      owner := (handle_request codec s.owner c).2
      thread := (serve_connection codec s.owner c).2.elim .checking .died
      ended := s.ended ++ [⟨s.owner, c, (serve_connection codec s.owner c).1⟩] } := by
  have hnone : ¬ ∃ x ∈ s.ended, x.ending ≠ .turned_away ∧ ¬ HarmlessConnection codec x.owner x.connection := by
    rw [← h.died, hthread]
    simp
  have hlast : (∃ x ∈ s.ended ++ [⟨s.owner, c, (serve_connection codec s.owner c).1⟩],
      x.ending ≠ .turned_away ∧ ¬ HarmlessConnection codec x.owner x.connection) ↔ ¬ HarmlessConnection codec s.owner c := by
    constructor
    · rintro ⟨x, hx, hbad⟩
      rcases mem_append.mp hx with hold | hnew
      · exact absurd ⟨x, hold, hbad⟩ hnone
      · rw [mem_singleton.mp hnew] at hbad
        exact hbad.2
    · intro hbad
      exact ⟨_, mem_append_right _ mem_cons_self, serve_connection_ending, hbad⟩
  constructor
  · rw [hlast, ← serve_connection_left_iff]
    rcases (serve_connection codec s.owner c).2 with _ | e <;> simp
  · intro hreturned
    rcases hleft : (serve_connection codec s.owner c).2 with _ | e <;> simp [hleft] at hreturned

theorem control_sound (h : (control codec owner).Reachable s) : s.Sound codec := by
  refine h.invariant (fun s hs => ?_) fun s step s' _ hinv hstep => ?_
  · rw [hs]
    constructor <;> simp
  · cases step with
    | check =>
      obtain ⟨hthread, hs'⟩ := Option.ite_none_right_eq_some.mp hstep
      obtain rfl := Option.some.inj hs'
      refine hinv.moved (by simp [hthread]) rfl ?_ ?_
      · intro e
        dsimp only
        split <;> simp
      · intro hreturned
        dsimp only at hreturned ⊢
        by_contra hstop
        rw [if_neg hstop] at hreturned
        cases hreturned
    | timeout =>
      obtain ⟨hthread, hs'⟩ := Option.ite_none_right_eq_some.mp hstep
      obtain rfl := Option.some.inj hs'
      exact hinv.moved (by simp [hthread]) rfl (by simp) (by simp)
    | accept c =>
      obtain ⟨hthread, hs'⟩ := Option.ite_none_right_eq_some.mp hstep
      by_cases hstop : s.stop = true
      · rw [if_pos hstop] at hs'
        obtain rfl := Option.some.inj hs'
        constructor
        · have hdied := hinv.died
          rw [hthread] at hdied
          simp only [reduceCtorEq, exists_false, false_iff] at hdied ⊢
          rintro ⟨x, hx, hended, hbad⟩
          rcases mem_append.mp hx with hold | hnew
          · exact hdied ⟨x, hold, hended, hbad⟩
          · rw [mem_singleton.mp hnew] at hended
            exact hended rfl
        · simp
      · rw [if_neg hstop] at hs'
        obtain rfl := Option.some.inj hs'
        exact hinv.served hthread c
    | close =>
      obtain rfl := Option.some.inj hstep
      exact hinv.beside rfl rfl fun _ => rfl
    | running b =>
      obtain rfl := Option.some.inj hstep
      exact hinv.beside rfl rfl id

/-- A server that lives and is not told to stop takes the next connection and ends it, whatever it brings. -/
theorem Server.Sound.goes_on (h : s.Sound codec) (hlive : ∀ e, s.thread ≠ .died e)
    (hstop : s.stop = false) (c : ControlConnection) :
    ∃ steps s' ending, (control codec owner).run s (steps ++ [.accept c]) = some s' ∧ steps ⊆ [.check] ∧
      ending ≠ .turned_away ∧ s'.ended = s.ended ++ [⟨s.owner, c, ending⟩] := by
  have haccept : ∀ t : Server, t.thread = .accepting → t.stop = false → ∃ t', (control codec owner).step t (.accept c) =
      some t' ∧ t'.ended = t.ended ++ [⟨t.owner, c, (serve_connection codec t.owner c).1⟩] := by
    intro t hthread hopen
    refine ⟨{ t with
      owner := (handle_request codec t.owner c).2
      thread := (serve_connection codec t.owner c).2.elim .checking .died
      ended := t.ended ++ [⟨t.owner, c, (serve_connection codec t.owner c).1⟩] }, ?_, rfl⟩
    simp only [control, hthread, hopen, if_true, Bool.false_eq_true, if_false]
  rcases hthread : s.thread with _ | _ | _ | e
  · obtain ⟨s', hs', hended⟩ := haccept { s with thread := .accepting } rfl hstop
    refine ⟨[.check], s', _, ?_, Subset.refl _, serve_connection_ending, hended⟩
    have hcheck : (control codec owner).step s .check = some { s with thread := .accepting } := by
      simp only [control, hthread, hstop, if_true, Bool.false_eq_true, if_false]
    simp only [cons_append, nil_append, System.run, hcheck, Option.bind_some, hs']
  · obtain ⟨s', hs', hended⟩ := haccept s hthread hstop
    refine ⟨[], s', _, ?_, nil_subset _, serve_connection_ending, hended⟩
    simp only [nil_append, System.run, hs', Option.bind_some]
  · rw [h.returned hthread] at hstop
    cases hstop
  · exact absurd hthread (hlive e)

/-- The control endpoint lives on exactly as long as the connections it handles are harmless: in every
state it gets into its thread has not died if and only if no connection so far made `json.loads` run out
of stack or had an intent with a lone surrogate accepted. As long as it lives and is not told to stop it
takes every next connection, and ends it with a response or a close. -/
theorem control_survives {owner : Owner} {s : Server} (h : (control codec owner).Reachable s) :
    ((∀ e, s.thread ≠ .died e) ↔ ∀ x ∈ s.ended, x.ending ≠ .turned_away → HarmlessConnection codec x.owner x.connection) ∧
      ((∀ e, s.thread ≠ .died e) → s.stop = false → ∀ c, ∃ steps s' ending,
        (control codec owner).run s (steps ++ [.accept c]) = some s' ∧ steps ⊆ [.check] ∧
          ending ≠ .turned_away ∧ s'.ended = s.ended ++ [⟨s.owner, c, ending⟩]) := by
  have hsound := control_sound h
  refine ⟨?_, fun hlive hstop c => hsound.goes_on hlive hstop c⟩
  rw [← not_exists, hsound.died]
  simp only [not_exists, not_and, Classical.not_not]

/-! ### A run -/

/-- The character of a code point that has one. -/
def shown : Json.CodePoint → Char
  | .scalar c => c
  | .surrogate _ => '?'

/-- A decoder with the stack for a thousand brackets, which finds no value in anything else. -/
def shallow_codec : ControlCodec where
  loads data :=
    if 1000 < (data.takeWhile (· = 91)).length then .error (.too_deep "maximum recursion depth exceeded")
    else .error (.invalid "Expecting value: line 1 column 1 (char 0)")
  validate _ := .error "Input should be a valid dictionary"
  repr s := "'" ++ String.ofList (s.map shown) ++ "'"

/-- A run with one agent that takes manual intents. -/
def switch_owner : Owner where
  run :=
    { id := "run-1"
      plan_digest := "sha256:0000000000000000000000000000000000000000000000000000000000000000"
      id_length := by decide
      plan_digest_pattern := by decide +kernel }
  agents := [⟨"switch-router@s1", ["manual"]⟩]

/-- `not-json` and a line break. -/
def not_json : ControlConnection where
  owner_user := true
  incoming := [.data 110 [111, 116, 45, 106, 115, 111, 110, 10]]
  submission := .refused "runtime event bus is full" "runtime.event-bus.full"

theorem control_survives_not_json : ∃ s, (control shallow_codec switch_owner).Reachable s ∧ s.ended.length = 1 ∧
    s.thread = .checking ∧ ∀ x ∈ s.ended, x.ending ≠ .turned_away → HarmlessConnection shallow_codec x.owner x.connection := by
  have hrun : ((control shallow_codec switch_owner).run { owner := switch_owner } [.check, .accept not_json]).any
      (fun s => decide (s.ended.length = 1 ∧ s.thread = .checking)) = true := by
    decide +kernel
  obtain ⟨s, hs, hended⟩ := (Option.any_eq_true _ _).mp hrun
  obtain ⟨hlength, hthread⟩ := of_decide_eq_true hended
  have hreach := System.Reachable.run (.init rfl) hs
  refine ⟨s, hreach, hlength, hthread, (control_survives hreach).1.mp ?_⟩
  rw [hthread]
  simp

/-- A line of opening brackets and nothing else. -/
def brackets (n : ℕ) : ControlConnection where
  owner_user := true
  incoming := [.data 91 (replicate n 91 ++ [10])]
  submission := .refused "runtime event bus is full" "runtime.event-bus.full"

theorem brackets_delivers (h : n + 2 ≤ max_message_bytes) :
    Frames.Delivers max_message_bytes 4096 newline (brackets n).incoming (replicate (n + 1) 91) := by
  have hstream : Frames.Arrival.stream (brackets n).incoming = replicate (n + 1) 91 ++ newline :: [] := by
    rw [brackets, replicate_succ]
    simp [Frames.Arrival.stream, newline]
  refine .of_stream (by decide) ?_ hstream ?_
  · simp [newline]
  · rw [length_append, length_replicate, length_singleton]
    exact h

/-- What a line of more brackets than there is stack for raises leaves the loop. -/
theorem serve_connection_brackets (hdeep : 1000 < n + 1) (h : n + 2 ≤ max_message_bytes) :
    serve_connection shallow_codec switch_owner (brackets n) =
      (.closed, some (.recursion "maximum recursion depth exceeded")) := by
  have hloads : shallow_codec.loads (replicate (n + 1) 91) =
      .error (.too_deep "maximum recursion depth exceeded") := by
    have htake : (replicate (n + 1) (91 : UInt8)).takeWhile (· = 91) = replicate (n + 1) 91 :=
      takeWhile_eq_self_iff.mpr fun x hx => decide_eq_true (eq_of_mem_replicate hx)
    rw [shallow_codec]
    simp only [htake, length_replicate, hdeep, if_true]
  have hread := (read_request_unhandled_iff.mpr ⟨rfl, _, _, brackets_delivers h, hloads, rfl⟩).1
  rw [serve_connection, handle_request, hread]
  rfl

theorem brackets_end_server (hdeep : 1000 < n + 1) (h : n + 2 ≤ max_message_bytes) :
    ∃ s, (control shallow_codec switch_owner).Reachable s ∧ s.stop = false ∧
      s.thread = .died (.recursion "maximum recursion depth exceeded") ∧ s.ended.map EndedConnection.connection = [brackets n] := by
  have hserve := serve_connection_brackets hdeep h
  have hrun : (control shallow_codec switch_owner).run { owner := switch_owner } [.check, .accept (brackets n)] =
      some { owner := (handle_request shallow_codec switch_owner (brackets n)).2
             thread := .died (.recursion "maximum recursion depth exceeded")
             ended := [⟨switch_owner, brackets n, .closed⟩] } := by
    simp only [System.run, control, hserve, if_true, Option.bind_some, Bool.false_eq_true, if_false, Option.elim_some,
      nil_append]
  exact ⟨_, System.Reachable.run (.init rfl) hrun, rfl, rfl, rfl⟩

/-- One line of brackets as long as a frame may be, and no connection is accepted any more. -/
theorem brackets_end_the_server : ∃ s, (control shallow_codec switch_owner).Reachable s ∧ s.stop = false ∧
    s.ended.map EndedConnection.connection = [brackets 65534] ∧
    s.thread = .died (.recursion "maximum recursion depth exceeded") ∧
    ∀ c, (control shallow_codec switch_owner).step s (.accept c) = none := by
  obtain ⟨s, hreach, hstop, hthread, hended⟩ := brackets_end_server (n := 65534) (by decide) (by decide)
  refine ⟨s, hreach, hstop, hended, hthread, fun c => ?_⟩
  simp only [control, hthread, reduceCtorEq, if_false]

end MininetAi
