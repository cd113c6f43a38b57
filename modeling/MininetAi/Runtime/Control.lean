/-
The control endpoint of a run (`mininet_ai/runtime/control.py`): the requests of its
schema, the frames they come in, the answers of the run's owner, and the loop of
`IntentServer` that takes one connection after the other.

`json.loads`, the validation of a request and `repr` are parameters (`ControlCodec`): what
they refuse they refuse with a message of characters. `json.loads` may run out of stack, and
the texts it returns may hold lone surrogates. What an accepted connection brings, and what
the rest of the run answers to it, is a `ControlConnection`.
-/
import MininetAi.Lib.Frames
import MininetAi.Lib.Json
import MininetAi.Lib.Transition

set_option autoImplicit false

namespace MininetAi

open Json (Text text)

/-! ## Errors -/

/-- What is raised while a connection is served, by the classes that are caught. -/
inductive ControlError where
  | control (message code : String)
  | domain (message code : String)
  | value (message : String)
  | os (message : String)
  | recursion (message : String)
  deriving DecidableEq

namespace ControlError

/-- `str(error)`. -/
def message : ControlError → String
  | .control message _ | .domain message _ | .value message | .os message | .recursion message => message

/-- `getattr(error, "code", "runtime.control.invalid-request")`. -/
def code : ControlError → String
  | .control _ code | .domain _ code => code
  | .value _ | .os _ | .recursion _ => "runtime.control.invalid-request"

/-- What `_handle_request` catches: `MininetAIError`, `ValueError` and `OSError`. -/
def handled : ControlError → Bool
  | .control _ _ | .domain _ _ | .value _ | .os _ => true
  | .recursion _ => false

/-- What `_serve` catches around `_send`: `OSError` and `IntentControlError`. -/
def lost_acknowledgement : ControlError → Bool
  | .control _ _ | .os _ => true
  | .domain _ _ | .value _ | .recursion _ => false

end ControlError

/-- An `IntentControlError` with the code it has by default. -/
def control_failed (message : String) : ControlError := .control message "runtime.control.failed"

/-! ## Frames -/

def max_message_bytes : ℕ := 65536

/-- The line break that ends a message. -/
def newline : UInt8 := 10

/-- `_receive`: a deadline that passes and a reset are failures of the stream. -/
def receive (incoming : List (Frames.Arrival UInt8 String)) : Except ControlError (List UInt8) :=
  match Frames.receive max_message_bytes 4096 newline (max_message_bytes + 1) [] incoming with
  | .frame data => .ok data
  | .closed => .error (control_failed "control connection closed before a complete response")
  | .too_long => .error (control_failed "control message exceeds 65536 bytes")
  | .failed message => .error (.os message)

/-- `_send`; `failure` is what `sendall` raises, if it does. -/
def send (failure : Option String) (payload : Json.Value) : Except ControlError (List UInt8) :=
  match Json.encode (Json.dumps payload) with
  | none => .error (.value "'utf-8' codec can't encode character: surrogates not allowed")
  | some data =>
    if max_message_bytes < (data ++ [newline]).length then
      .error (control_failed "control message exceeds 65536 bytes")
    else match failure with
      | some message => .error (.os message)
      | none => .ok (data ++ [newline])

/-! ## Requests -/

/-- The pattern `^sha256:[0-9a-f]{64}$`. -/
def is_plan_digest (s : Text) : Bool :=
  decide (text "sha256:" <+: s) && decide (s.length = 71) &&
    (s.drop 7).all fun p => p ∈ text "0123456789abcdef"

structure IntentRequest where
  run_id : Text
  plan_digest : Option Text := none
  agent_id : Text
  intent : Text
  run_id_length : 1 ≤ run_id.length ∧ run_id.length ≤ 256
  plan_digest_pattern : ∀ digest, plan_digest = some digest → is_plan_digest digest = true
  agent_id_length : 1 ≤ agent_id.length ∧ agent_id.length ≤ 512
  intent_length : 1 ≤ intent.length ∧ intent.length ≤ 8192

structure DescribeRequest where
  run_id : Text
  run_id_length : 1 ≤ run_id.length ∧ run_id.length ≤ 256

/-- A request by its `kind`. -/
inductive ControlRequest where
  | submit (request : IntentRequest)
  | describe (request : DescribeRequest)

/-- How `json.loads` refuses: with a `ValueError`, or with a `RecursionError`. -/
inductive LoadsError where
  | invalid (message : String)
  | too_deep (message : String)
  deriving DecidableEq

/-- The functions of the library that requests are read with. -/
structure ControlCodec where
  loads : List UInt8 → Except LoadsError Json.Value
  validate : Json.Value → Except String ControlRequest
  repr : Text → String

/-- `payload.setdefault("kind", "submit")`, if the payload is an object. -/
def default_kind : Json.Value → Json.Value
  | .obj fields =>
    if fields.any (fun field => field.1 = text "kind") then .obj fields
    else .obj (fields ++ [(text "kind", .str (text "submit"))])
  | payload => payload

/-! ## The owner -/

/-- An agent of the plan with the types of its triggers. -/
structure RunAgent where
  id : String
  trigger_types : List String
  deriving DecidableEq

/-- The `RunInfo` of a started run. -/
structure ControlRun where
  id : String
  plan_digest : String
  id_length : 1 ≤ id.length
  plan_digest_pattern : is_plan_digest (text plan_digest) = true

/-- The experiment runtime that owns the run; `sequence` is the next number of its terminal events. -/
structure Owner where
  run : ControlRun
  agents : List RunAgent
  running : Bool := true
  sequence : ℕ := 0

/-- What becomes of an event once its number is given: it is published under an id and at a time
of the owner's, or what checks or publishes it raises. -/
inductive Submission where
  | accepted (event_id occurred_at : String)
  | invalid (message : String)
  | refused (message code : String)
  deriving DecidableEq

namespace Owner

def agent_ids (o : Owner) : List String := o.agents.map RunAgent.id

def manual_agent_ids (o : Owner) : List String :=
  (o.agents.filter fun agent => agent.trigger_types.any (· = "manual")).map RunAgent.id

/-- The `runtime-event` of a manual intent. -/
def manual_intent (o : Owner) (event_id occurred_at : String) (agent_id intent : Text) : Json.Value :=
  .obj [(text "contractVersion", .str (text "mininet-ai/runtime-event/v1alpha1")),
    (text "eventId", .str (text event_id)),
    (text "runId", .str (text o.run.id)),
    (text "type", .str (text "intent.manual")),
    (text "source", .str (text "terminal")),
    (text "subject", .str agent_id),
    (text "occurredAt", .str (text occurred_at)),
    (text "observedAt", .str (text occurred_at)),
    (text "sequence", .int o.sequence),
    (text "correlationId", .null),
    (text "causationId", .null),
    (text "payload", .obj [(text "agentId", .str agent_id), (text "intent", .str intent)])]

/-- What a request for an agent that the plan does not have is told. -/
def unknown_agent (codec : ControlCodec) (o : Owner) (agent_id : Text) : String :=
  "unknown agent " ++ codec.repr agent_id ++ "; valid agents: " ++ ", ".intercalate o.agent_ids

/-- The end of `submit_intent`: the event is checked and published. -/
def published (o : Owner) (agent_id intent : Text) : Submission → Except ControlError Json.Value
  | .accepted event_id occurred_at => .ok (o.manual_intent event_id occurred_at agent_id intent)
  | .invalid message => .error (.value message)
  | .refused message code => .error (.domain message code)

/-- `submit_intent(agent_id, intent, source="terminal")`: the event, and the owner afterwards. A
number that was given stays given. -/
def submit_intent (codec : ControlCodec) (o : Owner) (agent_id intent : Text) (submission : Submission) :
    Except ControlError Json.Value × Owner :=
  if agent_id = [] ∨ intent = [] then
    (.error (.value "manual intent requires agent, intent, and source"), o)
  else if o.running = false then
    (.error (.domain "experiment runtime is not running" "experiment.not-running"), o)
  else if ¬ o.agent_ids.any (text · = agent_id) then
    (.error (.domain (o.unknown_agent codec agent_id) "experiment.intent.invalid-agent"), o)
  else if ¬ o.manual_agent_ids.any (text · = agent_id) then
    (.error (.domain ("agent " ++ codec.repr agent_id ++ " has no manual trigger") "experiment.intent.invalid-agent"), o)
  else
    (o.published agent_id intent submission, { o with sequence := o.sequence + 1 })

end Owner

/-! ## One connection -/

/-- What an accepted connection brings: whether its client runs as the owner's user, the data as it
comes in, what becomes of an event that is submitted, and what sending the response raises. -/
structure ControlConnection where
  owner_user : Bool
  incoming : List (Frames.Arrival UInt8 String)
  submission : Submission
  send_failure : Option String := none

/-- The response to what was raised. -/
def error_response (e : ControlError) : Json.Value :=
  .obj [(text "error", .obj [(text "code", .str (text e.code)), (text "message", .str (text e.message))])]

/-- The `RunDescription` of the owner's run. What it checks of its ids and its digest holds of every
request for the run and of every run. -/
def describe_response (o : Owner) : Json.Value :=
  .obj [(text "describe", .obj [(text "runId", .str (text o.run.id)),
    (text "planDigest", .str (text o.run.plan_digest)),
    (text "agents", .arr (o.agent_ids.map fun id => .str (text id))),
    (text "manualAgents", .arr (o.manual_agent_ids.map fun id => .str (text id)))])]

def event_response (event : Json.Value) : Json.Value := .obj [(text "event", event)]

/-- The first half of `_handle_request`: the request that the connection brings. -/
def read_request (codec : ControlCodec) (c : ControlConnection) : Except ControlError ControlRequest :=
  if c.owner_user = false then .error (control_failed "intent client must run as the owner user")
  else match receive c.incoming with
    | .error e => .error e
    | .ok data => match codec.loads data with
      | .error (.invalid message) => .error (.value message)
      | .error (.too_deep message) => .error (.recursion message)
      | .ok payload => match codec.validate (default_kind payload) with
        | .error message => .error (.value message)
        | .ok request => .ok request

/-- The request is for another run or for another plan. -/
def run_mismatch : ControlError :=
  .control "intent does not match the owner's run and deployment plan" "runtime.control.run-mismatch"

/-- The second half of `_handle_request`: what the owner answers to a request. What `on_submit`
raises is logged, so it makes no difference. -/
def answer (codec : ControlCodec) (o : Owner) (submission : Submission) :
    ControlRequest → Except ControlError Json.Value × Owner
  | .describe request =>
    if request.run_id ≠ text o.run.id then (.error run_mismatch, o) else (.ok (describe_response o), o)
  | .submit request =>
    if request.run_id ≠ text o.run.id then (.error run_mismatch, o)
    else if request.plan_digest.any (· ≠ text o.run.plan_digest) then (.error run_mismatch, o)
    else
      ((o.submit_intent codec request.agent_id request.intent submission).1.map event_response,
        (o.submit_intent codec request.agent_id request.intent submission).2)

/-- The handler of `_handle_request`. -/
def respond : Except ControlError Json.Value → Except ControlError Json.Value
  | .ok response => .ok response
  | .error e => if e.handled then .ok (error_response e) else .error e

/-- `_handle_request`: the response, or what it does not catch. -/
def handle_request (codec : ControlCodec) (o : Owner) (c : ControlConnection) : Except ControlError Json.Value × Owner :=
  match read_request codec c with
  | .error e => (respond (.error e), o)
  | .ok request => (respond (answer codec o c.submission request).1, (answer codec o c.submission request).2)

/-- How a connection ends: with a response, closed without one, or closed because the server closes. -/
inductive Ending where
  | response (data : List UInt8)
  | closed
  | turned_away
  deriving DecidableEq

/-- What `_serve` does with a response: how the connection ends, and what leaves the loop. -/
def finish_connection (failure : Option String) : Except ControlError Json.Value → Ending × Option ControlError
  | .error e => (.closed, some e)
  | .ok response => match send failure response with
    | .ok data => (.response data, none)
    | .error e => if e.lost_acknowledgement then (.closed, none) else (.closed, some e)

/-- The body of the loop once a connection is accepted. It is closed in any case. -/
def serve_connection (codec : ControlCodec) (o : Owner) (c : ControlConnection) : Ending × Option ControlError :=
  finish_connection c.send_failure (handle_request codec o c).1

/-! ## The server -/

/-- Where the server's thread is: before the test of the stop flag, waiting for a connection, through
with its loop, or ended by what left it. -/
inductive ServerThread where
  | checking
  | accepting
  | returned
  | died (e : ControlError)
  deriving DecidableEq

/-- A connection that has ended, and the owner when it was accepted. -/
structure EndedConnection where
  owner : Owner
  connection : ControlConnection
  ending : Ending

/-- `IntentServer` and its owner. -/
structure Server where
  owner : Owner
  stop : Bool := false
  thread : ServerThread := .checking
  ended : List EndedConnection := []

/-- One step: of the server's thread, of `close`, or of the owner's other threads. -/
inductive ControlStep where
  | check
  | timeout
  | accept (c : ControlConnection)
  | close
  | running (b : Bool)

/-- The loop of `_serve`, with what happens beside it. -/
def control (codec : ControlCodec) (owner : Owner) : System Server ControlStep where
  init s := s = { owner }
  step s
    | .check =>
      if s.thread = .checking then some { s with thread := if s.stop then .returned else .accepting } else none
    | .timeout => if s.thread = .accepting then some { s with thread := .checking } else none
    | .accept c =>
      if s.thread = .accepting then
        if s.stop then some { s with thread := .checking, ended := s.ended ++ [⟨s.owner, c, .turned_away⟩] }
        else
          some { s with
            owner := (handle_request codec s.owner c).2
            thread := (serve_connection codec s.owner c).2.elim .checking .died
            ended := s.ended ++ [⟨s.owner, c, (serve_connection codec s.owner c).1⟩] }
      else none
    | .close => some { s with stop := true }
    | .running b => some { s with owner := { s.owner with running := b } }

end MininetAi
