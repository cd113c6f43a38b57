/-
The completion of an invocation (`complete` of `mininet_ai/agents/runtime.py`).

What `complete` calls is the environment's: the store, the clock, the provider and the audit
recorder return or raise at each place where they are called. The store commits when its `apply`
returns. Between that and the result stand the audit record of the update, the handling of the
results by the provider, a reading of the clock and the audit record of the result. An exception
of the provider is turned into a failed result; nothing turns one of the audit recorder.

The readings of the monotonic clock in front of the commit are one call. The update of the provider
is JSON; what reading another one raises counts as raised by the provider.
-/
import MininetAi.Agents.Runtime
import MininetAi.Capabilities.Exceptions

set_option autoImplicit false

namespace MininetAi

/-! ## Failures of calls -/

/-- What a call raises: a `SharedStateError`, or another exception. -/
inductive CallFailure where
  | shared_state (error : SharedStateError)
  | raised (e : RaisedException)

namespace CallFailure

/-- `getattr(error, "code", None)` when it is a text. -/
def code : CallFailure → Option String
  | .shared_state error => some error.code
  | .raised e => e.code

/-- Whether `except Exception` catches it. -/
def is_caught : CallFailure → Bool
  | .shared_state _ => true
  | .raised e => e.is_caught

def is_timeout : CallFailure → Bool
  | .shared_state _ => false
  | .raised e => e.kind = .timeout_error

def error_code (failure : CallFailure) : String :=
  match failure.code.filter fun code => code ≠ "" with
  | some code => code
  | none => if failure.is_timeout then "agent.invocation.timeout" else "agent.invocation.failed"

def type_name : CallFailure → String
  | .shared_state _ => "SharedStateError"
  | .raised e => e.type_name

/-- `str(error)`. -/
def str : CallFailure → Except CallFailure String
  | .shared_state error => .ok error.message
  | .raised e => e.str.mapError .raised

/-- `str(error) or type(error).__name__`. -/
def message (failure : CallFailure) : Except CallFailure String := do
  let text ← failure.str
  pure (if text = "" then failure.type_name else text)

end CallFailure

/-- An exception of the interpreter. -/
def python_error (type_name text : String) : CallFailure := .raised (.mk .other type_name none (.ok text))

/-- `AgentRuntimeIssue(code=..., message=..., agentId=...)`. -/
def invocation_issue (agent_id code message : String) : Except CallFailure AgentRuntimeIssue :=
  if code = "" ∨ message = "" then .error (.raised (validation_error "AgentRuntimeIssue"))
  else .ok { code := code, message := message, agent_id := some agent_id }

/-! ## The environment -/

/-- Where an audit record is made. -/
inductive AuditSite where
  | shared_state_updated
  | shared_state_failed
  | agent_failed
  | finalized_unstored
  | finalized_incorrect
  | finalized_failed
  | finalized
  deriving DecidableEq

/-- Where the time of a result is read. -/
inductive ClockSite where
  | unstored
  | incorrect
  | failed
  | completed
  deriving DecidableEq

/-- A store: what reading it gives, and what it does with updates. -/
structure StoreCalls where
  snapshot : Except CallFailure SharedStateSnapshot
  apply : SharedStateAccess → List SharedStateUpdate → Except CallFailure (List SharedStateChange)

/-- What a completion meets. -/
structure CompletionEnvironment where
  /-- The token of the invocation is of this runtime. -/
  owned : Bool
  timings : Except CallFailure Unit
  access : Except CallFailure SharedStateAccess
  store : Option StoreCalls
  audit : Option (AuditSite → Except CallFailure Unit)
  started_at : ℚ
  clock : ClockSite → Except CallFailure ℚ
  record_action_results : Except CallFailure (Option (List (String × JsonValue)))

/-- A completion: what the store has committed, and what is returned or raised. -/
structure CompletionOutcome where
  committed : Option (List SharedStateChange)
  result : Except CallFailure AgentInvocationResult

namespace CompletionEnvironment

variable (env : CompletionEnvironment) (prepared : PreparedAgentInvocation)

/-- `self._audit.record`, when there is a recorder. -/
def audit_record (site : AuditSite) : Except CallFailure Unit :=
  match env.audit with
  | none => .ok ()
  | some record => record site

/-- `AgentInvocationResult(..., completedAt=self._clock(), ..., issue=...)`: the time is read before the
issue is built, and may not be before the start. -/
def timed_result {α : Type} (site : ClockSite) (issue : Except CallFailure α) (result : α → AgentInvocationResult) :
    Except CallFailure AgentInvocationResult := do
  let completed_at ← env.clock site
  let issue ← issue
  Except.refuse_if (completed_at < env.started_at) (.raised (validation_error "AgentInvocationResult"))
  pure (result issue)

/-! ## The commit -/

/-- An error of the shared state. -/
def state_error {α : Type} : Except SharedStateError α → Except CallFailure α :=
  Except.mapError .shared_state

/-- `_check_shared_state`, unless there is nothing to check. -/
def check_again : Except CallFailure Unit :=
  if checks_again prepared.response = false then .ok ()
  else match env.store with
  | none =>
    if prepared.response.shared_state_updates ≠ [] then
      .error (.shared_state { message := "no shared-state store is configured", code := "state.store.required" })
    else .ok ()
  | some store => do
      let access ← env.access
      let current ← store.snapshot
      state_error (check_shared_state access (some (.ok current)) prepared)

/-- `_apply_shared_state`: what is committed, and what is returned. -/
def apply_state (access : SharedStateAccess) :
    Option (List SharedStateChange) × Except CallFailure (List SharedStateChange) :=
  if prepared.response.shared_state_updates = [] then (none, .ok [])
  else match env.store with
  | none => (none, .error (.shared_state
      { message := "agent proposed shared-state updates without a configured store", code := "state.store.required" }))
  | some store =>
    match store.apply access (versioned prepared.context prepared.response.shared_state_updates) with
    | .error e => (none, .error e)
    | .ok changes => (some changes, (env.audit_record .shared_state_updated).map fun _ => changes)

/-- The first `try` block. -/
def commit_state : Option (List SharedStateChange) × Except CallFailure (List SharedStateChange) :=
  match env.check_again prepared with
  | .error e => (none, .error e)
  | .ok _ => match env.access with
    | .error e => (none, .error e)
    | .ok access => env.apply_state prepared access

/-- The handler of a `SharedStateError`. -/
def state_failed (error : SharedStateError) (action_results : List ActionResult) : Except CallFailure AgentInvocationResult := do
  env.audit_record .shared_state_failed
  let failure ← env.timed_result .unstored (invocation_issue prepared.context.agent_id error.code error.message)
    fun _ => state_failure prepared error action_results
  env.audit_record .finalized_unstored
  pure failure

/-! ## The results of the provider -/

/-- `fields[key] = value`. -/
def assign (fields : List (String × JsonValue)) (key : String) (value : JsonValue) : List (String × JsonValue) :=
  if key ∈ fields.map Prod.fst then fields.map fun entry => if entry.1 = key then (key, value) else entry
  else fields ++ [(key, value)]

/-- `fields[key] = value`, for any key. One that is no text is looked up by nothing, and left out. -/
def assign_key (fields : List (String × JsonValue)) (value : JsonValue) :
    JsonValue → Except CallFailure (List (String × JsonValue))
  | .str key => .ok (assign fields key value)
  | .null | .bool _ | .num _ => .ok fields
  | .arr _ | .obj _ => .error (python_error "TypeError" "unhashable type")

/-- `key, value = element`, where an array is made a dictionary. -/
def pair_of : JsonValue → Except CallFailure (JsonValue × JsonValue)
  | .arr [key, value] => .ok (key, value)
  | .obj [(key, _), (value, _)] => .ok (.str key, .str value)
  | .str text => match text.toList with
    | [key, value] => .ok (.str (String.singleton key), .str (String.singleton value))
    | _ => .error (python_error "ValueError" "dictionary update sequence element has another length")
  | .arr _ | .obj _ => .error (python_error "ValueError" "dictionary update sequence element has another length")
  | .null | .bool _ | .num _ =>
    .error (python_error "TypeError" "cannot convert dictionary update sequence element to a sequence")

/-- `dict(value)`. -/
def dict_of : JsonValue → Except CallFailure (List (String × JsonValue))
  | .obj fields => .ok fields
  | .arr elements => elements.foldlM (fun fields element => do
      let pair ← pair_of element
      assign_key fields pair.2 pair.1) []
  | .str "" => .ok []
  | .str _ => .error (python_error "ValueError" "dictionary update sequence element has another length")
  | .null | .bool _ | .num _ => .error (python_error "TypeError" "object is not iterable")

/-- What has the method `get`. -/
def mapping_of : JsonValue → Except CallFailure (List (String × JsonValue))
  | .obj fields => .ok fields
  | .null | .bool _ | .num _ | .str _ | .arr _ => .error (python_error "AttributeError" "object has no attribute 'get'")

/-- Whether a value counts as true. -/
def is_true : JsonValue → Bool
  | .null => false
  | .bool b => b
  | .num q => q ≠ 0
  | .str s => s ≠ ""
  | .arr values => ! values.isEmpty
  | .obj fields => ! fields.isEmpty

/-- `fields.get(key, default)`. -/
def get_or (fields : List (String × JsonValue)) (key : String) (value : JsonValue) : JsonValue :=
  (fields.lookup key).getD value

/-- The execution record of a response, with the update of the provider. -/
def execution_record (response : AgentResponse) (update : List (String × JsonValue)) :
    Except CallFailure (List (String × JsonValue)) := do
  let record ← dict_of (get_or response.metadata "executionRecord" (.obj []))
  let record := assign record "runtime" (get_or update "runtime" (.obj []))
  pure (assign record "outcome" (get_or update "outcome" (get_or record "outcome" .null)))

/-- `correctness_failure[key]`, for a text. -/
def failure_text (failure : JsonValue) (key : String) : Except CallFailure String :=
  match failure with
  | .obj fields => match fields.lookup key with
    | none => .error (python_error "KeyError" key)
    | some (.str text) => .ok text
    | some .null | some (.bool _) | some (.num _) | some (.arr _) | some (.obj _) =>
      .error (.raised (validation_error "AgentRuntimeIssue"))
  | .null | .bool _ | .num _ | .str _ | .arr _ => .error (python_error "TypeError" "object is not subscriptable by a text")

/-- The issue of a correctness failure. -/
def correctness_issue (agent_id : String) (failure : JsonValue) : Except CallFailure AgentRuntimeIssue := do
  let code ← failure_text failure "code"
  let message ← failure_text failure "message"
  invocation_issue agent_id code message

/-- A result that failed. -/
def failed_invocation (response : AgentResponse) (action_results : List ActionResult) (changes : List SharedStateChange)
    (issue : AgentRuntimeIssue) : AgentInvocationResult where
  invocation_id := prepared.context.invocation_id
  run_id := prepared.context.run_id
  agent_id := prepared.context.agent_id
  status := .failed
  response := some response
  action_results := action_results
  shared_state_changes := changes
  issue := some issue

/-- The failure that an execution record reports. -/
def reported_failure (record : List (String × JsonValue)) : Except CallFailure (Option JsonValue) := do
  let runtime ← mapping_of (get_or record "runtime" (.obj []))
  let decision ← mapping_of (get_or runtime "boundedDecision" (.obj []))
  let failure := get_or decision "correctnessFailure" .null
  pure (if get_or record "outcome" .null = .str "failed" ∧ is_true failure = true then some failure else none)

/-- The result of an incorrect decision. -/
def incorrect_result (response : AgentResponse) (action_results : List ActionResult) (changes : List SharedStateChange) :
    Option JsonValue → Except CallFailure (Option AgentInvocationResult)
  | none => .ok none
  | some failure => do
      let result ← env.timed_result .incorrect (correctness_issue prepared.context.agent_id failure)
        (failed_invocation prepared response action_results changes)
      env.audit_record .finalized_incorrect
      pure (some result)

/-- The second `try` block: the response behind it, and whether it returns or raises. -/
def handle_results (action_results : List ActionResult) (changes : List SharedStateChange) :
    AgentResponse × Except CallFailure (Option AgentInvocationResult) :=
  match env.record_action_results with
  | .error e => (prepared.response, .error e)
  | .ok none => (prepared.response, .ok none)
  | .ok (some update) => match execution_record prepared.response update with
    | .error e => (prepared.response, .error e)
    | .ok record =>
      let response := { prepared.response with
        metadata := assign prepared.response.metadata "executionRecord" (.obj record) }
      (response, reported_failure record >>= env.incorrect_result prepared response action_results changes)

/-! ## The result -/

/-- `_error_data`, when there is a recorder. -/
def error_data (e : CallFailure) : Except CallFailure String :=
  if env.audit.isSome then e.message else .ok ""

/-- The handler of an exception; it does not catch what is outside `Exception`. -/
def handling_failed (response : AgentResponse) (action_results : List ActionResult) (changes : List SharedStateChange)
    (e : CallFailure) : Except CallFailure AgentInvocationResult := do
  Except.refuse_if (e.is_caught = false) e
  let _ ← env.error_data e
  env.audit_record .agent_failed
  let result ← env.timed_result .failed (e.message >>= invocation_issue prepared.context.agent_id e.error_code)
    (failed_invocation prepared response action_results changes)
  env.audit_record .finalized_failed
  pure result

theorem no_issue_when_succeeded : (none : Option AgentRuntimeIssue) = none ↔ InvocationStatus.succeeded = .succeeded :=
  iff_of_true rfl rfl

/-- `_result` without an unsuccessful action. -/
def succeeded_invocation (response : AgentResponse) (action_results : List ActionResult)
    (changes : List SharedStateChange) : AgentInvocationResult where
  invocation_id := prepared.context.invocation_id
  run_id := prepared.context.run_id
  agent_id := prepared.context.agent_id
  status := .succeeded
  response := some response
  action_results := action_results
  shared_state_changes := changes
  issue_matches_status := no_issue_when_succeeded

/-- `_result` with an unsuccessful action. -/
def unsuccessful_invocation (response : AgentResponse) (action_results : List ActionResult) (changes : List SharedStateChange)
    (unsuccessful : ActionResult) (issue : AgentRuntimeIssue) : AgentInvocationResult :=
  if unsuccessful.status = .rejected then
    { failed_invocation prepared response action_results changes issue with
      status := .rejected
      issue_matches_status := by simp [failed_invocation]
      success_has_response := by simp }
  else failed_invocation prepared response action_results changes issue

/-- The issue of an unsuccessful action. -/
def action_issue (agent_id : String) (unsuccessful : ActionResult) : Except CallFailure AgentRuntimeIssue :=
  match unsuccessful.issue with
  | none => .error (python_error "AssertionError" "unsuccessful action result has no issue")
  | some issue => (invocation_issue agent_id issue.code issue.message).map fun built => { built with target := issue.target }

/-- `_result`. -/
def result_of (response : AgentResponse) (action_results : List ActionResult) (changes : List SharedStateChange) :
    Except CallFailure AgentInvocationResult :=
  match action_results.find? fun result => result.status ≠ .succeeded with
  | none => env.timed_result .completed (.ok ()) fun _ => succeeded_invocation prepared response action_results changes
  | some unsuccessful => env.timed_result .completed (action_issue prepared.context.agent_id unsuccessful)
      (unsuccessful_invocation prepared response action_results changes unsuccessful)

/-- The part of `complete` behind the commit. -/
def finish (action_results : List ActionResult) (changes : List SharedStateChange) : Except CallFailure AgentInvocationResult :=
  match env.handle_results prepared action_results changes with
  | (_, .ok (some result)) => .ok result
  | (response, .error e) => env.handling_failed prepared response action_results changes e
  | (response, .ok none) => do
      let result ← env.result_of prepared response action_results changes
      env.audit_record .finalized
      pure result

/-- The part of `complete` behind the first `try` block. -/
def complete_applied (action_results : List ActionResult) (committed : Option (List SharedStateChange)) :
    Except CallFailure (List SharedStateChange) → CompletionOutcome
  | .ok changes => { committed := committed, result := env.finish prepared action_results changes }
  | .error (.shared_state error) => { committed := committed, result := env.state_failed prepared error action_results }
  | .error (.raised e) => { committed := committed, result := .error (.raised e) }

/-- The part of `complete` behind its checks; `earlier` is what the preparation holds. -/
def complete_checked (action_results : List ActionResult) (earlier : List SharedStateChange) : CompletionOutcome :=
  if all_succeeded action_results then
    env.complete_applied prepared action_results (env.commit_state prepared).1 (env.commit_state prepared).2
  else { committed := none, result := env.finish prepared action_results earlier }

def complete (action_results : List ActionResult) (earlier : List SharedStateChange) : CompletionOutcome :=
  if env.owned = false then
    { committed := none
      result := .error (.raised (.mk .agent_runtime_error "AgentRuntimeError" (some "agent.invocation.invalid-preparation")
        (.ok "prepared invocation does not belong to this agent runtime"))) }
  else if action_results.map ActionResult.request_id ≠ prepared.response.proposals.map ActionProposal.id then
    { committed := none
      result := .error (.raised (.mk .agent_runtime_error "AgentRuntimeError" (some "agent.actions.result-mismatch")
        (.ok "completed action results do not match prepared proposals"))) }
  else match env.timings with
  | .error e => { committed := none, result := .error e }
  | .ok _ => env.complete_checked prepared action_results earlier

end CompletionEnvironment

end MininetAi
