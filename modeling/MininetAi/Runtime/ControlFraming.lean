/-
The frames of the control protocol. A payload that is sent is received as it is, however its
bytes are cut up on the way, and no other payload has its frame. A response is sent if it fits
a frame, and what does not fit are the two responses that list the agents of the plan: a
description lists them twice, and the refusal of an unknown agent once.
-/
import Mathlib.Algebra.GroupWithZero.Nat
import MininetAi.Lib.JsonUnique
import MininetAi.Runtime.ControlSurvival

set_option autoImplicit false

namespace MininetAi

open List

open Json (Text text body_size)

variable {codec : ControlCodec} {o : Owner}

/-! ## Sizes of responses -/

/-- The bytes of an array of ids. -/
def ids_size (ids : List String) : ℕ :=
  (ids.map fun id => body_size (text id) + 2).sum + (ids.length - 1) + 2

/-- The bytes of the frame of a description. -/
def describe_size (o : Owner) : ℕ :=
  64 + (body_size (text o.run.id) + 2) + (body_size (text o.run.plan_digest) + 2) + ids_size o.agent_ids +
    ids_size o.manual_agent_ids

/-- The bytes of the frame of an error. -/
def error_size (code message : String) : ℕ := 31 + (body_size (text code) + 2) + (body_size (text message) + 2)

/-- The bytes of the frame that tells an unknown agent from the agents of the plan. -/
def unknown_agent_size (codec : ControlCodec) (o : Owner) (agent_id : Text) : ℕ :=
  96 + body_size (text (codec.repr agent_id)) + (o.agent_ids.map fun id => body_size (text id)).sum +
    2 * (o.agent_ids.length - 1)

/-- A literal without quotes and backslashes. -/
theorem body_size_text {s : String} (h : s.toList.all Json.is_plain = true) : body_size (text s) = s.length := by
  rw [text, Json.body_size_plain (all_eq_true.mp h), String.length_toList]

theorem body_size_text_append (s t : String) : body_size (text (s ++ t)) = body_size (text s) + body_size (text t) := by
  rw [text, String.toList_append, map_append, Json.body_size_append]
  rfl

theorem size_error_response (e : ControlError) : Json.size (error_response e) + 1 = error_size e.code e.message := by
  have herror : body_size (text "error") = 5 := body_size_text (by decide)
  have hcode : body_size (text "code") = 4 := body_size_text (by decide)
  have hmessage : body_size (text "message") = 7 := body_size_text (by decide)
  simp only [error_response, Json.size, Json.fields_size, herror, hcode, hmessage, error_size]
  omega

theorem items_size_ids (ids : List String) :
    Json.items_size (ids.map fun id => .str (text id)) + 2 = ids_size ids := by
  unfold ids_size
  induction ids with
  | nil => rfl
  | cons id ids ih =>
    cases ids with
    | nil =>
      simp only [map_cons, map_nil, Json.items_size, Json.size, sum_cons, sum_nil,
        length_cons, length_nil]
      omega
    | cons id' ids =>
      simp only [map_cons, Json.items_size, Json.size, sum_cons, length_cons] at ih ⊢
      omega

theorem size_describe_response (o : Owner) : Json.size (describe_response o) + 1 = describe_size o := by
  have hdescribe : body_size (text "describe") = 8 := body_size_text (by decide)
  have hrun : body_size (text "runId") = 5 := body_size_text (by decide)
  have hplan : body_size (text "planDigest") = 10 := body_size_text (by decide)
  have hagents : body_size (text "agents") = 6 := body_size_text (by decide)
  have hmanual : body_size (text "manualAgents") = 12 := body_size_text (by decide)
  have hids := items_size_ids o.agent_ids
  have hmanual_ids := items_size_ids o.manual_agent_ids
  simp only [describe_response, Json.size, Json.fields_size, hdescribe, hrun, hplan, hagents, hmanual, describe_size]
  omega

theorem body_size_intercalate (ids : List String) :
    body_size (text (", ".intercalate ids)) = (ids.map fun id => body_size (text id)).sum + 2 * (ids.length - 1) := by
  have hcomma : body_size (text ", ") = 2 := body_size_text (by decide)
  induction ids with
  | nil => rfl
  | cons id ids ih =>
    cases ids with
    | nil =>
      rw [String.intercalate_singleton, map_singleton, sum_singleton]
      rfl
    | cons id' ids =>
      simp only [String.intercalate_cons_cons, body_size_text_append, hcomma, ih, map_cons, sum_cons,
        length_cons]
      omega

theorem unknown_agent_eq (agent_id : Text) : o.unknown_agent codec agent_id =
    "unknown agent " ++ codec.repr agent_id ++ "; valid agents: " ++ ", ".intercalate o.agent_ids := rfl

theorem error_size_unknown_agent (agent_id : Text) :
    error_size "experiment.intent.invalid-agent" (o.unknown_agent codec agent_id) =
      unknown_agent_size codec o agent_id := by
  have hcode : body_size (text "experiment.intent.invalid-agent") = 31 := body_size_text (by decide)
  have hunknown : body_size (text "unknown agent ") = 14 := body_size_text (by decide)
  have hvalid : body_size (text "; valid agents: ") = 16 := body_size_text (by decide)
  simp only [error_size, unknown_agent_eq, body_size_text_append, hcode, hunknown, hvalid, body_size_intercalate,
    unknown_agent_size]
  omega

/-! ## What is sent -/

variable {response : Json.Value} {submission : Submission} {request : ControlRequest}

/-- The responses that fit a frame. -/
theorem send_ok_iff : (∃ data, send none response = .ok data) ↔
    (Json.points response).any Json.CodePoint.is_surrogate = false ∧ Json.size response + 1 ≤ max_message_bytes := by
  rw [← Bool.not_eq_true, ← Json.encode_dumps_eq_none_iff, ← Json.length_bytes_dumps]
  unfold send
  rcases hencode : Json.encode (Json.dumps response) with _ | data
  · simp
  · obtain ⟨-, hbytes⟩ := Json.encode_eq_some_iff.mp hencode
    rw [hbytes]
    by_cases hlong : max_message_bytes < (data ++ [newline]).length
    · simp only [hlong, if_true, reduceCtorEq, exists_false, not_false_iff, true_and, false_iff]
      rw [length_append, length_singleton] at hlong
      omega
    · simp only [hlong, if_false, Except.ok.injEq, exists_eq', reduceCtorEq, not_false_iff, true_and, true_iff]
      rw [length_append, length_singleton] at hlong
      omega

/-- The response to a request is sent. -/
def Responds (codec : ControlCodec) (o : Owner) (submission : Submission) (request : ControlRequest) : Prop :=
  ∃ response, respond (answer codec o submission request).1 = .ok response ∧ ∃ data, send none response = .ok data

theorem responds_error_iff {e : ControlError}
    (h : (answer codec o submission request).1 = .error e) :
    Responds codec o submission request ↔ error_size e.code e.message ≤ max_message_bytes := by
  have hrespond : respond (answer codec o submission request).1 = .ok (error_response e) := by
    rw [h, respond, if_pos (answer_handled h)]
  simp only [Responds, hrespond, Except.ok.injEq, exists_eq_left', send_ok_iff, points_error_response, true_and,
    size_error_response]

theorem responds_ok_iff (h : (answer codec o submission request).1 = .ok response) :
    Responds codec o submission request ↔ (Json.points response).any Json.CodePoint.is_surrogate = false ∧
      Json.size response + 1 ≤ max_message_bytes := by
  have hrespond : respond (answer codec o submission request).1 = .ok response := by
    rw [h, respond]
  simp only [Responds, hrespond, Except.ok.injEq, exists_eq_left', send_ok_iff]

/-! ## What fits -/

/-- `repr` writes at most ten characters of ASCII for a code point, a backslash among them, and two quotes. -/
def ReprBounded (codec : ControlCodec) : Prop :=
  ∀ s, body_size (text (codec.repr s)) ≤ 11 * s.length + 4

/-- The ids, the times and the numbers that events are given: a `uuid4`, an ISO time, and a number that
counts events. -/
def Stamped (o : Owner) : Submission → Prop
  | .accepted event_id occurred_at => event_id.length ≤ 64 ∧ occurred_at.length ≤ 64 ∧ o.sequence < 10 ^ 64
  | .invalid _ | .refused _ _ => True

/-- What becomes of an intent can be told: its event can be encoded, or the refusal fits a frame. -/
def SubmissionFits (intent : Text) : Submission → Prop
  | .accepted _ _ => intent.any Json.CodePoint.is_surrogate = false
  | .invalid message => error_size "runtime.control.invalid-request" message ≤ max_message_bytes
  | .refused message code => error_size code message ≤ max_message_bytes

/-- The response to a request fits a frame: for a description the ids of the agents, listed twice, and for
an unknown agent its own text with the ids listed once. -/
def ResponseFits (codec : ControlCodec) (o : Owner) (submission : Submission) : ControlRequest → Prop
  | .describe request => request.run_id = text o.run.id → describe_size o ≤ max_message_bytes
  | .submit request => request.run_id = text o.run.id →
      request.plan_digest.any (· ≠ text o.run.plan_digest) = false → o.running = true →
      ((∀ id ∈ o.agent_ids, text id ≠ request.agent_id) →
        unknown_agent_size codec o request.agent_id ≤ max_message_bytes) ∧
      ((∃ id ∈ o.manual_agent_ids, text id = request.agent_id) → SubmissionFits request.intent submission)

/-- An error of few bytes fits. -/
theorem error_size_le {code message : String} (hcode : code.toList.all Json.is_plain = true)
    (hlength : code.length ≤ 100) (hmessage : body_size (text message) ≤ 6000) :
    error_size code message ≤ max_message_bytes := by
  rw [error_size, body_size_text hcode, max_message_bytes]
  omega

/-- The event of an intent fits a frame: the schema bounds its texts, and six bytes a code point are enough. -/
theorem size_event_le {event_id occurred_at : String} {request : IntentRequest}
    (hrun : request.run_id = text o.run.id) (hstamp : Stamped o (.accepted event_id occurred_at)) :
    Json.size (event_response (o.manual_intent event_id occurred_at request.agent_id request.intent)) + 1 ≤
      max_message_bytes := by
  obtain ⟨hid, htime, hsequence⟩ := hstamp
  have hrun_size : body_size (text o.run.id) ≤ 6 * 256 := by
    have hlength := request.run_id_length.2
    rw [← hrun]
    exact (Json.body_size_le _).trans (Nat.mul_le_mul_left 6 hlength)
  have hagent_size : body_size request.agent_id ≤ 6 * 512 :=
    (Json.body_size_le _).trans (Nat.mul_le_mul_left 6 request.agent_id_length.2)
  have hintent_size : body_size request.intent ≤ 6 * 8192 :=
    (Json.body_size_le _).trans (Nat.mul_le_mul_left 6 request.intent_length.2)
  have hid_size : body_size (text event_id) ≤ 6 * 64 := by
    refine (Json.body_size_le _).trans (Nat.mul_le_mul_left 6 ?_)
    rw [Json.length_text]
    exact hid
  have htime_size : body_size (text occurred_at) ≤ 6 * 64 := by
    refine (Json.body_size_le _).trans (Nat.mul_le_mul_left 6 ?_)
    rw [Json.length_text]
    exact htime
  have hdigits : (Json.int_chars o.sequence).length ≤ 64 :=
    (Nat.length_toDigits_le_iff (by decide) (by decide)).mpr hsequence
  -- the keys and the texts that every event has
  have hplain : ∀ s ∈ ["event", "contractVersion", "mininet-ai/runtime-event/v1alpha1", "eventId", "runId", "type",
      "intent.manual", "source", "terminal", "subject", "occurredAt", "observedAt", "sequence", "correlationId",
      "causationId", "payload", "agentId", "intent"], s.toList.all Json.is_plain = true ∧ s.length ≤ 33 := by
    decide
  have hkeys : ∀ s ∈ ["event", "contractVersion", "mininet-ai/runtime-event/v1alpha1", "eventId", "runId", "type",
      "intent.manual", "source", "terminal", "subject", "occurredAt", "observedAt", "sequence", "correlationId",
      "causationId", "payload", "agentId", "intent"], body_size (text s) ≤ 33 := by
    intro s hs
    rw [body_size_text (hplain s hs).1]
    exact (hplain s hs).2
  simp only [forall_mem_cons] at hkeys
  simp only [event_response, Owner.manual_intent, Json.size, Json.fields_size, max_message_bytes]
  omega

/-! ## Requests one by one -/

theorem error_size_run_mismatch : error_size run_mismatch.code run_mismatch.message ≤ max_message_bytes := by
  refine error_size_le (by decide) (by decide) ?_
  rw [body_size_text (by decide)]
  decide

theorem responds_describe_iff {request : DescribeRequest} :
    Responds codec o submission (.describe request) ↔
      (request.run_id = text o.run.id → describe_size o ≤ max_message_bytes) := by
  by_cases hrun : request.run_id = text o.run.id
  · have hanswer : (answer codec o submission (.describe request)).1 = .ok (describe_response o) := by
      rw [answer, if_neg (not_not.mpr hrun)]
    rw [responds_ok_iff hanswer, points_describe_response, size_describe_response]
    simp only [true_and, hrun, forall_const]
  · have hanswer : (answer codec o submission (.describe request)).1 = .error run_mismatch := by
      rw [answer, if_pos hrun]
    rw [responds_error_iff hanswer]
    exact iff_of_true error_size_run_mismatch fun h => absurd h hrun

section Submit

variable {submission : Submission} {request : IntentRequest}

/-- A request for this run and this plan is the owner's to answer. -/
theorem answer_submit (hrun : request.run_id = text o.run.id)
    (hplan : request.plan_digest.any (· ≠ text o.run.plan_digest) = false) :
    (answer codec o submission (.submit request)).1 =
      (o.submit_intent codec request.agent_id request.intent submission).1.map event_response := by
  rw [answer, if_neg (not_not.mpr hrun), if_neg (Bool.eq_false_iff.mp hplan)]

/-- The schema lets no empty text through. -/
theorem request_texts (request : IntentRequest) : ¬ (request.agent_id = [] ∨ request.intent = []) := by
  have hagent := length_pos_iff.mp request.agent_id_length.1
  have hintent := length_pos_iff.mp request.intent_length.1
  rw [not_or]
  exact ⟨hagent, hintent⟩

theorem submit_intent_stopped (h : o.running = false) :
    (o.submit_intent codec request.agent_id request.intent submission).1 =
      .error (.domain "experiment runtime is not running" "experiment.not-running") := by
  unfold Owner.submit_intent
  rw [if_neg (request_texts request), if_pos h]

theorem submit_intent_unknown (hrunning : o.running = true)
    (hunknown : ∀ id ∈ o.agent_ids, text id ≠ request.agent_id) :
    (o.submit_intent codec request.agent_id request.intent submission).1 =
      .error (.domain (o.unknown_agent codec request.agent_id) "experiment.intent.invalid-agent") := by
  have hnone : ¬ o.agent_ids.any (text · = request.agent_id) = true := by
    simpa using hunknown
  unfold Owner.submit_intent
  rw [if_neg (request_texts request), if_neg (by rw [hrunning]; decide), if_pos hnone]

theorem submit_intent_no_trigger (hrunning : o.running = true) (hknown : ∃ id ∈ o.agent_ids, text id = request.agent_id)
    (htrigger : ¬ ∃ id ∈ o.manual_agent_ids, text id = request.agent_id) :
    (o.submit_intent codec request.agent_id request.intent submission).1 =
      .error (.domain ("agent " ++ codec.repr request.agent_id ++ " has no manual trigger")
        "experiment.intent.invalid-agent") := by
  have hsome : o.agent_ids.any (text · = request.agent_id) = true := by
    simpa using hknown
  have hnone : ¬ o.manual_agent_ids.any (text · = request.agent_id) = true := by
    simpa using htrigger
  unfold Owner.submit_intent
  rw [if_neg (request_texts request), if_neg (by rw [hrunning]; decide), if_neg (not_not.mpr hsome),
    if_pos hnone]

theorem submit_intent_manual (hrunning : o.running = true)
    (htrigger : ∃ id ∈ o.manual_agent_ids, text id = request.agent_id) :
    (o.submit_intent codec request.agent_id request.intent submission).1 =
      o.published request.agent_id request.intent submission := by
  have hknown : ∃ id ∈ o.agent_ids, text id = request.agent_id := by
    obtain ⟨id, hid, heq⟩ := htrigger
    obtain ⟨agent, hagent, rfl⟩ := mem_map.mp hid
    exact ⟨agent.id, mem_map_of_mem (mem_filter.mp hagent).1, heq⟩
  have hsome : o.agent_ids.any (text · = request.agent_id) = true := by
    simpa using hknown
  have hmanual : o.manual_agent_ids.any (text · = request.agent_id) = true := by
    simpa using htrigger
  unfold Owner.submit_intent
  rw [if_neg (request_texts request), if_neg (by rw [hrunning]; decide), if_neg (not_not.mpr hsome),
    if_neg (not_not.mpr hmanual)]

/-- What the owner raises is told if it fits. -/
theorem responds_raised_iff (hrun : request.run_id = text o.run.id)
    (hplan : request.plan_digest.any (· ≠ text o.run.plan_digest) = false) {e : ControlError}
    (h : (o.submit_intent codec request.agent_id request.intent submission).1 = .error e) :
    Responds codec o submission (.submit request) ↔ error_size e.code e.message ≤ max_message_bytes := by
  have hanswer : (answer codec o submission (.submit request)).1 = .error e := by
    rw [answer_submit hrun hplan, h]
    rfl
  exact responds_error_iff hanswer

theorem responds_manual_iff (hrun : request.run_id = text o.run.id)
    (hplan : request.plan_digest.any (· ≠ text o.run.plan_digest) = false) (hrunning : o.running = true)
    (htrigger : ∃ id ∈ o.manual_agent_ids, text id = request.agent_id) (hstamp : Stamped o submission) :
    Responds codec o submission (.submit request) ↔ SubmissionFits request.intent submission := by
  have hsubmit : (o.submit_intent codec request.agent_id request.intent submission).1 = _ :=
    submit_intent_manual hrunning htrigger
  cases submission with
  | accepted event_id occurred_at =>
    have hanswer : (answer codec o (.accepted event_id occurred_at) (.submit request)).1 =
        .ok (event_response (o.manual_intent event_id occurred_at request.agent_id request.intent)) := by
      rw [answer_submit hrun hplan, hsubmit]
      rfl
    obtain ⟨id, -, hagent⟩ := htrigger
    have hsize := size_event_le hrun hstamp
    rw [responds_ok_iff hanswer, points_event_response, ← hagent, Json.any_text, Bool.false_or, hagent]
    exact and_iff_left hsize
  | invalid message => rw [responds_raised_iff hrun hplan hsubmit, SubmissionFits, ControlError.code, ControlError.message]
  | refused message code =>
    rw [responds_raised_iff hrun hplan hsubmit, SubmissionFits, ControlError.code, ControlError.message]

theorem responds_submit_iff (hrepr : ReprBounded codec) (hstamp : Stamped o submission) :
    Responds codec o submission (.submit request) ↔ ResponseFits codec o submission (.submit request) := by
  by_cases hrun : request.run_id = text o.run.id
  swap
  · have hanswer : (answer codec o submission (.submit request)).1 = .error run_mismatch := by
      rw [answer, if_pos hrun]
    rw [responds_error_iff hanswer]
    exact iff_of_true error_size_run_mismatch fun h => absurd h hrun
  rcases hplan : request.plan_digest.any (· ≠ text o.run.plan_digest) with _ | _
  swap
  · have hanswer : (answer codec o submission (.submit request)).1 = .error run_mismatch := by
      rw [answer, if_neg (not_not.mpr hrun), if_pos hplan]
    rw [responds_error_iff hanswer]
    refine iff_of_true error_size_run_mismatch fun _ h => ?_
    rw [hplan] at h
    cases h
  rcases hrunning : o.running with _ | _
  · rw [responds_raised_iff hrun hplan (submit_intent_stopped hrunning)]
    refine iff_of_true ?_ fun _ _ h => ?_
    · refine error_size_le (by decide) (by decide) ?_
      rw [ControlError.message, body_size_text (by decide)]
      decide
    · rw [hrunning] at h
      cases h
  by_cases htrigger : ∃ id ∈ o.manual_agent_ids, text id = request.agent_id
  · rw [responds_manual_iff hrun hplan hrunning htrigger hstamp]
    constructor
    · intro hfits _ _ _
      refine ⟨fun hunknown => ?_, fun _ => hfits⟩
      obtain ⟨id, hid, heq⟩ := htrigger
      obtain ⟨agent, hagent, rfl⟩ := mem_map.mp hid
      exact absurd heq (hunknown agent.id (mem_map_of_mem (mem_filter.mp hagent).1))
    · exact fun h => (h hrun hplan hrunning).2 htrigger
  by_cases hknown : ∃ id ∈ o.agent_ids, text id = request.agent_id
  · rw [responds_raised_iff hrun hplan (submit_intent_no_trigger hrunning hknown htrigger)]
    refine iff_of_true ?_ fun _ _ _ => ⟨fun hunknown => ?_, fun h => absurd h htrigger⟩
    · rw [ControlError.code, ControlError.message]
      refine error_size_le (by decide) (by decide) ?_
      have hagent : body_size (text "agent ") = 6 := body_size_text (by decide)
      have htail : body_size (text " has no manual trigger") = 22 := body_size_text (by decide)
      have hbound := hrepr request.agent_id
      have hlength := request.agent_id_length.2
      rw [body_size_text_append, body_size_text_append, hagent, htail]
      omega
    · obtain ⟨id, hid, heq⟩ := hknown
      exact absurd heq (hunknown id hid)
  · have hunknown : ∀ id ∈ o.agent_ids, text id ≠ request.agent_id := fun id hid heq => hknown ⟨id, hid, heq⟩
    rw [responds_raised_iff hrun hplan (submit_intent_unknown hrunning hunknown)]
    rw [ControlError.message, ControlError.code, error_size_unknown_agent]
    constructor
    · exact fun h _ _ _ => ⟨fun _ => h, fun h => absurd h htrigger⟩
    · exact fun h => (h hrun hplan hrunning).1 hunknown

end Submit

/-! ## Payloads -/

/-- What is sent is received as it was sent, however its bytes come in, and stands for no other payload. -/
theorem receive_sent {payload : Json.Value} {frame : List UInt8} (hframe : Json.encode (Json.dumps payload) = some frame)
    (hlimit : frame.length + 1 ≤ max_message_bytes) : send none payload = .ok (frame ++ [newline]) ∧
      ∀ incoming, Frames.Arrival.stream incoming = frame ++ [newline] → receive incoming = .ok frame := by
  constructor
  · have hlong : ¬ max_message_bytes < (frame ++ [newline]).length := by
      rw [length_append, length_singleton]
      omega
    simp only [send, hframe, hlong, if_false]
  · intro incoming hincoming
    obtain ⟨-, hbytes⟩ := Json.encode_eq_some_iff.mp hframe
    have hline : newline ∉ frame := by
      rw [← hbytes]
      exact Json.newline_not_mem_bytes_dumps payload
    refine receive_ok_iff.mpr (.of_stream (by decide) hline hincoming ?_)
    rw [length_append, length_singleton]
    exact hlimit

/-- The control protocol is total but for the size of two responses. A payload whose frame is within the limit
is sent, received as it is under any chunking, and no other payload has that frame. The response to a request
of the schema is sent if and only if it fits (`ResponseFits`): a description or the refusal of an unknown agent
if the ids of the plan's agents do, the event of an intent unless it holds a lone surrogate, and every other
response always. -/
theorem control_frames_total {submission : Submission} (hrepr : ReprBounded codec) (hstamp : Stamped o submission) :
    (∀ payload frame, Json.encode (Json.dumps payload) = some frame → frame.length + 1 ≤ max_message_bytes →
      send none payload = .ok (frame ++ [newline]) ∧
        (∀ incoming, Frames.Arrival.stream incoming = frame ++ [newline] → receive incoming = .ok frame) ∧
        ∀ payload', Json.encode (Json.dumps payload') = some frame → payload' = payload) ∧
      ∀ request, Responds codec o submission request ↔ ResponseFits codec o submission request := by
  constructor
  · intro payload frame hframe hlimit
    obtain ⟨hsend, hreceive⟩ := receive_sent hframe hlimit
    exact ⟨hsend, hreceive, fun payload' hframe' => Json.encode_dumps_inj hframe' hframe⟩
  · intro request
    cases request with
    | describe request => exact responds_describe_iff
    | submit request => exact responds_submit_iff hrepr hstamp

/-- A description of the run of `switch_owner`. -/
def describe_switches : DescribeRequest where
  run_id := text "run-1"
  run_id_length := by decide

theorem repr_bounded_shallow : ReprBounded shallow_codec := by
  intro s
  have hquote : body_size (text "'") = 1 := body_size_text (by decide)
  have hchars := Json.body_size_le (text (String.ofList (s.map shown)))
  rw [Json.length_text, String.length_ofList, length_map] at hchars
  simp only [shallow_codec, body_size_text_append, hquote]
  omega

theorem control_frames_total_switch :
    Responds shallow_codec switch_owner (.accepted "event-1" "2026-01-01T00:00:00Z") (.describe describe_switches) := by
  have hstamp : Stamped switch_owner (.accepted "event-1" "2026-01-01T00:00:00Z") := by
    refine ⟨by decide, by decide, by decide⟩
  exact ((control_frames_total repr_bounded_shallow hstamp).2 (.describe describe_switches)).mpr fun _ => by decide

/-! ### A plan that cannot be described -/

/-- The agent of a deployment with a name of 128 characters on a switch with a name of 128 characters. -/
def wide_agent (i : ℕ) : RunAgent where
  id := String.ofList (replicate 128 'd' ++ '@' :: 's' ::
    (replicate (127 - (Nat.toDigits 10 i).length) '0' ++ Nat.toDigits 10 i))
  trigger_types := ["manual"]

/-- As many agents as the compiler allows by default. -/
def wide_owner : Owner := { switch_owner with agents := (range 256).map wide_agent }

theorem body_size_wide_agent {i : ℕ} (h : i < 256) : body_size (text (wide_agent i).id) = 257 := by
  have hdigits : (Nat.toDigits 10 i).length ≤ 3 := (Nat.length_toDigits_le_iff (by decide) (by decide)).mpr (by omega)
  have hplain : ∀ c ∈ replicate 128 'd' ++ '@' :: 's' ::
      (replicate (127 - (Nat.toDigits 10 i).length) '0' ++ Nat.toDigits 10 i), Json.is_plain c = true := by
    intro c hc
    simp only [mem_append, mem_cons, mem_replicate] at hc
    rcases hc with ⟨-, rfl⟩ | rfl | rfl | ⟨-, rfl⟩ | hdigit
    · decide
    · decide
    · decide
    · decide
    · obtain ⟨d, hd, rfl⟩ := Text.digit_of_mem_toDigits (by decide) (by decide) c hdigit
      have hall : ∀ d < 10, Json.is_plain (Nat.digitChar d) = true := by decide
      exact hall d hd
  rw [text, wide_agent, String.toList_ofList, Json.body_size_plain hplain]
  simp only [length_append, length_cons, length_replicate]
  omega

/-- The description of 256 agents with ids of 257 characters is not sent. -/
theorem wide_plan_is_not_described :
    ¬ Responds shallow_codec wide_owner (.accepted "event-1" "2026-01-01T00:00:00Z") (.describe describe_switches) := by
  have hids : (wide_owner.agent_ids.map fun id => body_size (text id) + 2) = replicate 256 259 := by
    refine eq_replicate_iff.mpr ⟨?_, ?_⟩
    · simp only [wide_owner, Owner.agent_ids, length_map, length_range]
    · intro n hn
      simp only [wide_owner, Owner.agent_ids, map_map, mem_map, mem_range, Function.comp_apply] at hn
      obtain ⟨i, hi, rfl⟩ := hn
      rw [body_size_wide_agent hi]
  have hsize : 256 * 259 ≤ ids_size wide_owner.agent_ids := by
    rw [ids_size, hids, sum_replicate_nat]
    omega
  rw [responds_describe_iff]
  intro h
  have hfits := h rfl
  rw [describe_size, max_message_bytes] at hfits
  omega

end MininetAi
