/-
The capability engine (`mininet_ai/capabilities/engine.py`, `create` of
`mininet_ai/plugins/registry.py`).

Factories, providers and observers are the environment's: they return anything and raise
anything. The attributes of a model are not validated when they are assigned, so what a
provider returns may hold any values; only those of a reply that the engine relies on are
kept. A run of the engine has a result, which is an exception when one escapes, and the
calls it has made of the provider.

The validator of JSON schemas is a parameter. `_bounded_proposal` only changes the timeout
of a proposal, which is left out, as are the times in results.
-/
import MininetAi.Capabilities.Authorization
import MininetAi.Capabilities.Verification
import MininetAi.Outcomes

set_option autoImplicit false

namespace MininetAi

/-! ## Results -/

/-- `RollbackResult`: it has an issue exactly when it did not succeed. Output that is not
JSON is `none`. -/
structure RollbackResult where
  status : ActionStatus
  changed : Bool := false
  effects : MutationEffects := .unknown
  output : Option (List (String × JsonValue)) := some []
  issue : Option RuntimeIssue := none
  issue_matches_status : issue = none ↔ status = .succeeded

/-- `ActionResult` with what an execution adds. -/
structure CapabilityResult extends ActionResult where
  changed : Bool := false
  effects : MutationEffects := .unknown
  output : Option (List (String × JsonValue)) := some []
  postconditions : List PostconditionResult := []
  rollback : Option RollbackResult := none

/-- `CapabilityOutcome`, as it is validated. -/
structure CapabilityOutcome where
  changed : Bool := false
  output : List (String × JsonValue) := []
  deriving DecidableEq

theorem failure_has_issue {status : ActionStatus} {issue : RuntimeIssue}
    (h : status ≠ .succeeded) : some issue = none ↔ status = .succeeded :=
  iff_of_false nofun h

theorem failed_ne_succeeded : ActionStatus.failed ≠ .succeeded := by decide

theorem success_has_no_issue :
    (none : Option RuntimeIssue) = none ↔ ActionStatus.succeeded = .succeeded :=
  iff_of_true rfl rfl

/-! ## The environment -/

/-- A value that nothing has validated: what `bool` finds, and what a field makes of it when
it accepts it. -/
structure Unvalidated (α : Type) where
  truth : Except RaisedException Bool
  field : Option α

/-- The output of an outcome: a JSON object, or another value, of which a field may make an
object, with values that are not JSON perhaps. -/
inductive OutputValue where
  | object (fields : List (String × JsonValue))
  | foreign (repr : String) (value : Unvalidated (Option (List (String × JsonValue))))

def OutputValue.value : OutputValue → Unvalidated (Option (List (String × JsonValue)))
  | object fields => { truth := .ok (! fields.isEmpty), field := some (some fields) }
  | foreign _ value => value

/-- `CapabilityOutcome`, as it is returned. -/
structure ReturnedOutcome where
  changed : Unvalidated Bool
  output : OutputValue

/-- An outcome with the values that were validated. -/
def CapabilityOutcome.returned (o : CapabilityOutcome) : ReturnedOutcome where
  changed := { truth := .ok o.changed, field := some o.changed }
  output := .object o.output

/-- `ActionResult`, as it is returned: `changed` is what a field makes of its `changed`, of
which `bool` may find something else. -/
structure ReportedResult extends CapabilityResult where
  changed_truth : Except RaisedException Bool := .ok changed

/-- What a provider returns. A mapping may have values that are not JSON; and reading a reply
may raise. -/
inductive RawOutcome where
  | result (r : ReportedResult)
  | outcome (o : ReturnedOutcome)
  | mapping (fields : List (String × JsonValue))
  | invalid_mapping (text : String)
  | unreadable (e : RaisedException)
  | other

/-- The result, when it is one. -/
def RawOutcome.as_result : RawOutcome → Option ReportedResult
  | .result r => some r
  | _ => none

/-- A provider; one that is not reversible has no rollback. -/
structure CapabilityProvider where
  execute : ScopedAgentContext → ActionProposal → Except RaisedException RawOutcome
  rollback : Option
    (ScopedAgentContext → ActionProposal → ReturnedOutcome → Except RaisedException RawOutcome)

/-- What the factory of a plugin does. -/
inductive FactoryOutcome where
  | raises (e : RaisedException)
  | invalid
  | unsupported (contract_version : String)
  | provider (p : CapabilityProvider)

/-- What the schema validator finds. -/
inductive SchemaVerdict where
  | valid
  | schema_error (message : String)
  | value_error (path message : String)
  | failure (text : String)

/-- The parts of an engine. The pollings of the verifier are those of the request, by the
position of their postcondition. -/
structure CapabilityEngine where
  catalog : CompiledCatalog
  plugins : List (String × (DeclaredCapability → FactoryOutcome))
  schema : JsonValue → OutputValue → SchemaVerdict
  verifier : Option (ℕ → Polling)

inductive ProviderCall where
  | execute
  | rollback
  deriving DecidableEq

/-- A part of an execution: what it returns or raises, and its calls of the provider. -/
structure EngineRun (α : Type) where
  result : Except RaisedException α
  calls : List ProviderCall

/-! ## Errors of the engine -/

/-- `repr` of a status. -/
def ActionStatus.repr : ActionStatus → String
  | .succeeded => "<ActionStatus.SUCCEEDED: 'succeeded'>"
  | .rejected => "<ActionStatus.REJECTED: 'rejected'>"
  | .failed => "<ActionStatus.FAILED: 'failed'>"

/-- The exception; `str` shows its arguments. -/
def CapabilityError.exception (e : CapabilityError) : RaisedException :=
  .mk (.capability_error e.status e.message) "_CapabilityError" (some e.code)
    (.ok (worded "(" [e.status.repr, ", ", quoted e.code, ", ", quoted e.message, ")"]))

/-- Raises the error of a check. -/
def raising {α : Type} : Except CapabilityError α → Except RaisedException α
  | .error e => .error e.exception
  | .ok a => .ok a

/-- `AgentRuntimeError(message, code=code)`. -/
def agent_runtime_error (code message : String) : RaisedException :=
  .mk .agent_runtime_error "AgentRuntimeError" (some code) (.ok message)

namespace CapabilityEngine

/-! ## Admission -/

def validate_schema (engine : CapabilityEngine) (schema : JsonValue) (value : OutputValue)
    (invalid_code : String) (invalid_status : ActionStatus) (label : String) :
    Except RaisedException Unit :=
  match engine.schema schema value with
  | .valid => .ok ()
  | .schema_error message => .error (CapabilityError.fail "capability.schema.invalid"
      (worded "capability " [label, " schema is invalid: ", message])).exception
  | .value_error path message => .error (CapabilityError.exception
      { status := invalid_status
        code := invalid_code
        message := worded "capability " [label, " at ", path, ": ", message] })
  | .failure text => .error (.mk .other "Exception" none (.ok text))

/-- `_admit`. -/
def admit_request (engine : CapabilityEngine) (context : ScopedAgentContext)
    (proposal : ActionProposal) :
    Except RaisedException (AgentExecutionDefinition × DeclaredCapability) := do
  let definition ← raising (resolve engine.catalog context)
  let capability ← raising (authorize definition context proposal)
  engine.validate_schema capability.input_schema (.object proposal.arguments)
    "capability.input.invalid" .rejected "input"
  raising (Except.refuse_if (capability.provider = none) (.fail "capability.provider.missing"
    (worded "capability " [quoted proposal.capability, " has no provider"])))
  pure (definition, capability)

/-- `_result` with an issue. -/
def failed_result (context : ScopedAgentContext) (proposal : ActionProposal)
    (handled : ActionStatus × RuntimeIssue) : Except RaisedException CapabilityResult :=
  if h : handled.1 = .succeeded then .error (validation_error "ActionResult")
  else .ok
    { run_id := context.run_id
      request_id := proposal.id
      status := handled.1
      issue := some handled.2
      effects := if handled.1 = .rejected then .unchanged else .unknown
      issue_matches_status := failure_has_issue h }

/-- A field of a model that is built. -/
def checked_field {α : Type} (model : String) : Option α → Except RaisedException α
  | none => .error (validation_error model)
  | some a => .ok a

/-- `_result` of a success. -/
def succeeded_result (context : ScopedAgentContext) (proposal : ActionProposal)
    (outcome : ReturnedOutcome) : Except RaisedException CapabilityResult := do
  let truth ← outcome.changed.truth
  let full ← outcome.output.value.truth
  let changed ← checked_field "ActionResult" outcome.changed.field
  let output ← checked_field "ActionResult"
    (if full = true then outcome.output.value.field else some (some []))
  pure
    { run_id := context.run_id
      request_id := proposal.id
      status := .succeeded
      changed := changed
      effects := if truth = true then .changed else .unchanged
      output := output
      issue_matches_status := success_has_no_issue }

/-- `validate`: `none` when the proposal is admissible. -/
def validate (engine : CapabilityEngine) (context : ScopedAgentContext)
    (proposal : ActionProposal) : Except RaisedException (Option CapabilityResult) :=
  match engine.admit_request context proposal with
  | .ok _ => .ok none
  | .error e => do
      let handled ← handle_admission proposal.target e
      let result ← failed_result context proposal handled
      pure (some result)

/-! ## Dispatch -/

/-- The names of the registered plugins, as a message lists them. -/
def available (engine : CapabilityEngine) : String :=
  if engine.plugins = [] then "none"
  else ", ".intercalate ((engine.plugins.map Prod.fst).insertionSort (· ≤ ·))

/-- `create` of the registry. -/
def create_provider (engine : CapabilityEngine) (capability : DeclaredCapability) :
    Except RaisedException CapabilityProvider :=
  match capability.provider with
  | none => .error (.mk .other "AssertionError" none (.ok "admitted capability has no provider"))
  | some name => match engine.plugins.lookup name with
    | none => .error (agent_runtime_error "plugin.provider.unknown"
        (worded "unknown capability provider " [quoted name, "; available: ", engine.available]))
    | some factory => match factory capability with
      | .raises e => do
          Except.refuse_if (e.is_caught = false) e
          let text ← e.str
          .error (agent_runtime_error "plugin.factory.failed"
            (worded "capability provider factory " [quoted name, " failed: ", text]))
      | .invalid => .error (agent_runtime_error "plugin.provider.invalid"
          (worded "capability provider " [quoted name, " does not satisfy its SDK protocol"]))
      | .unsupported contract_version => .error (agent_runtime_error "plugin.version.unsupported"
          (worded "capability provider "
            [quoted name, " uses unsupported contract version ", quoted contract_version]))
      | .provider p => .ok p

def provider_result (context : ScopedAgentContext) (proposal : ActionProposal)
    (raw : RawOutcome) : Except CapabilityError (Option ReportedResult) :=
  match raw.as_result with
  | none => .ok none
  | some r => do
      Except.refuse_if (r.run_id ≠ context.run_id ∨ r.request_id ≠ proposal.id)
        (.fail "capability.result.invalid-identity"
          "capability provider returned a result for another run or request")
      pure (some r)

/-- `_normalize_outcome`: an outcome is taken as it is. -/
def normalize_outcome : RawOutcome → Except RaisedException ReturnedOutcome
  | .result r => match r.output with
    | some output => .ok (CapabilityOutcome.returned { changed := r.changed, output := output })
    | none => .error (CapabilityError.fail "capability.output.invalid"
        (worded "capability provider returned invalid JSON output: "
          ["validation error for CapabilityOutcome"])).exception
  | .outcome o => .ok o
  | .mapping fields => .ok (CapabilityOutcome.returned { output := fields })
  | .invalid_mapping text => .error (CapabilityError.fail "capability.output.invalid"
      (worded "capability provider returned invalid JSON output: " [text])).exception
  | .unreadable e => .error e
  | .other => .error (CapabilityError.fail "capability.output.invalid"
      "capability provider returned a non-object result").exception

/-- What the reply of a provider is taken for. -/
inductive Reply where
  | unsuccessful (r : ReportedResult)
  | successful (found : Option ReportedResult) (outcome : ReturnedOutcome)

/-- The part of `execute` between the provider's reply and the end of the `try`. -/
def read_reply (engine : CapabilityEngine) (capability : DeclaredCapability)
    (context : ScopedAgentContext) (proposal : ActionProposal) (raw : RawOutcome) :
    Except RaisedException Reply := do
  let found ← raising (provider_result context proposal raw)
  match found.filter fun r => r.status ≠ .succeeded with
  | some r => pure (.unsuccessful r)
  | none => do
      let outcome ← normalize_outcome raw
      engine.validate_schema capability.output_schema outcome.output "capability.output.invalid"
        .failed "output"
      pure (.successful found outcome)

/-- The result that `execute` verifies: that of the provider, or one that it builds. -/
def result_to_verify (context : ScopedAgentContext) (proposal : ActionProposal)
    (found : Option ReportedResult) (outcome : ReturnedOutcome) :
    Except RaisedException ReportedResult :=
  match found with
  | some r => .ok r
  | none => do
      let r ← succeeded_result context proposal outcome
      pure { r with }

/-! ## Rollback -/

def failed_rollback (issue : RuntimeIssue) : RollbackResult where
  status := .failed
  issue := some issue
  issue_matches_status := failure_has_issue failed_ne_succeeded

/-- The result of a rollback from an outcome. -/
def rolled_back_result (normalized : ReturnedOutcome) : Except RaisedException RollbackResult := do
  let truth ← normalized.changed.truth
  let changed ← checked_field "RollbackResult" normalized.changed.field
  let output ← checked_field "RollbackResult" normalized.output.value.field
  pure
    { status := .succeeded
      changed := changed
      effects := if truth = true then .changed else .unchanged
      output := output
      issue_matches_status := success_has_no_issue }

/-- The result of a rollback from what the provider returned. -/
def rollback_result (context : ScopedAgentContext) (raw : RawOutcome) :
    Except RaisedException RollbackResult :=
  match raw with
  | .result r =>
    if r.run_id ≠ context.run_id then
      .error (.mk .other "ValueError" none (.ok "rollback result changed run identity"))
    else .ok
      { status := r.status
        changed := r.changed
        effects := r.effects
        output := r.output
        issue := r.issue
        issue_matches_status := r.issue_matches_status }
  | raw => normalize_outcome raw >>= rolled_back_result

/-- `_rollback`, of a capability with a rollback configured. -/
def rollback (provider : CapabilityProvider) (context : ScopedAgentContext)
    (proposal : ActionProposal) (outcome : ReturnedOutcome) : EngineRun RollbackResult :=
  match provider.rollback with
  | none =>
    { result := (runtime_issue "capability.rollback.unsupported"
        "capability provider does not support rollback" proposal.target).map failed_rollback
      calls := [] }
  | some undo =>
    { result := match undo context proposal outcome >>= rollback_result context with
        | .ok result => .ok result
        | .error e => (describe "capability.rollback.failed" proposal.target e).map failed_rollback
      calls := [.rollback] }

/-! ## Verification -/

/-- The last part of `_postcondition_failure`. -/
def unsatisfied_result (proposal : ActionProposal) (result : CapabilityResult)
    (checks : List PostconditionResult) (message : String) (rolled_back : Option RollbackResult) :
    Except RaisedException CapabilityResult := do
  let undone := rolled_back.any fun r => r.status = .succeeded
  let failed := rolled_back.any fun r => r.status ≠ .succeeded
  let issue ← runtime_issue
    (if failed then "capability.rollback.failed" else "capability.postcondition.failed")
    (worded message [if undone then "; action was rolled back"
      else if failed then "; rollback failed" else ""]) proposal.target
  pure
    { result with
      status := .failed
      changed := if undone then false else result.changed
      effects := if rolled_back.isSome then .unknown else result.effects
      postconditions := checks
      rollback := rolled_back
      issue := some issue
      issue_matches_status := failure_has_issue failed_ne_succeeded }

def postcondition_failure (capability : DeclaredCapability) (provider : CapabilityProvider)
    (context : ScopedAgentContext) (proposal : ActionProposal) (outcome : ReturnedOutcome)
    (result : ReportedResult) (checks : List PostconditionResult) (message : String) :
    EngineRun CapabilityResult :=
  match result.changed_truth with
  | .error e => { result := .error e, calls := [] }
  | .ok changed =>
    if changed = true ∧ capability.rollback = true then
      let run := rollback provider context proposal outcome
      { result := run.result >>= fun r =>
          unsatisfied_result proposal result.toCapabilityResult checks message (some r)
        calls := run.calls }
    else
      { result := unsatisfied_result proposal result.toCapabilityResult checks message none
        calls := [] }

def verify_effect (engine : CapabilityEngine) (definition : AgentExecutionDefinition)
    (capability : DeclaredCapability) (provider : CapabilityProvider)
    (context : ScopedAgentContext) (proposal : ActionProposal) (outcome : ReturnedOutcome)
    (result : ReportedResult) : EngineRun CapabilityResult :=
  if definition.require_postcondition_check = false ∨ capability.postconditions = [] then
    { result := .ok result.toCapabilityResult, calls := [] }
  else match engine.verifier with
  | none => postcondition_failure capability provider context proposal outcome result []
      "postcondition verification has no observation provider"
  | some pollings =>
    match PostconditionVerifier.verify context.run_id proposal.target pollings 0
        capability.postconditions with
    | .error e => { result := .error e, calls := [] }
    | .ok checks =>
      if checks.all PostconditionResult.satisfied then
        { result := .ok { result.toCapabilityResult with postconditions := checks }, calls := [] }
      else postcondition_failure capability provider context proposal outcome result checks
        (worded "postconditions not satisfied: " [", ".intercalate
          ((checks.filter fun check => ! check.satisfied).map fun check =>
            check.observation ++ ":" ++ check.path)])

/-! ## Execution -/

/-- The handlers of `execute`. -/
def report (context : ScopedAgentContext) (proposal : ActionProposal) (e : RaisedException) :
    Except RaisedException CapabilityResult := do
  let handled ← handle_execution proposal.target e
  failed_result context proposal handled

def execute (engine : CapabilityEngine) (context : ScopedAgentContext)
    (proposal : ActionProposal) : EngineRun CapabilityResult :=
  match engine.admit_request context proposal with
  | .error e => { result := report context proposal e, calls := [] }
  | .ok (definition, capability) => match engine.create_provider capability with
    | .error e => { result := report context proposal e, calls := [] }
    | .ok provider =>
      match provider.execute context proposal >>=
          engine.read_reply capability context proposal with
      | .error e => { result := report context proposal e, calls := [.execute] }
      | .ok (.unsuccessful r) => { result := .ok r.toCapabilityResult, calls := [.execute] }
      | .ok (.successful found outcome) => match result_to_verify context proposal found outcome with
        -- behind the `try`
        | .error e => { result := .error e, calls := [.execute] }
        | .ok result =>
          let run := engine.verify_effect definition capability provider context proposal outcome result
          { result := run.result, calls := .execute :: run.calls }

end CapabilityEngine

end MininetAi
