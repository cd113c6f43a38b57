/-
The owner of one experiment (`ExperimentRuntime` in `mininet_ai/experiment.py`): `start`,
`stop`, and the cleanup inside a start that fails.

The runtime starts two layers, the continuous runtime and the telemetry pipeline. They have
one lifecycle: `start` leaves `created` once, `stop` refuses a layer that was never started
and leaves it `stopped` when everything it waits for has ended. The section under a lock is
one operation, and so is every other access to a field; what the ledger, the substrate, the
constructors and the layers' threads do is the environment's, which answers each call with
an exception or a value.

The history is kept besides: no code reads it.
-/
import MininetAi.Lib.Pool
import MininetAi.Substrates.Runtime

set_option autoImplicit false

namespace MininetAi

open Routine
open MininetOVSRuntime (TeardownResult)

/-! ## Errors -/

/-- What `getattr(error, "code", ...)` finds. -/
inductive FailureCode where
  | absent
  | text (code : String)
  | other
  deriving DecidableEq

structure OperationFailure where
  code : String
  message : String
  run_id : Option String
  operation : OperationOutcome
  effects : MutationEffects
  cleanup : CleanupOutcome

/-- An exception with the attributes that are read: those of a `MininetAIError` are there by
default, those of another class only when it sets them. -/
structure ExperimentError where
  class_name : String
  text : String := ""
  /-- `isinstance(error, Exception)`. -/
  is_exception : Bool := true
  /-- `isinstance(error, MininetAIError)`. -/
  is_mininet_ai : Bool := false
  code : FailureCode := .absent
  run_id : Option String := none
  operation : OperationOutcome := .unknown
  effects : MutationEffects := .unknown
  cleanup : CleanupOutcome := .default
  teardown_error : Option OperationFailure := none

/-- `str(error) or type(error).__name__`. -/
def ExperimentError.message (e : ExperimentError) : String := if e.text = "" then e.class_name else e.text

/-- `ExperimentRuntimeError`. -/
def experiment_error (code text : String) (cleanup : CleanupOutcome := .default) : ExperimentError where
  class_name := "ExperimentRuntimeError"
  text := text
  is_mininet_ai := true
  code := .text code
  operation := .failed
  cleanup := cleanup

/-- The error of pydantic. -/
def invalid_failure : ExperimentError where
  class_name := "ValidationError"
  text := "1 validation error for OperationFailure"

/-- An attribute of `None`. -/
def attribute_error : ExperimentError where
  class_name := "AttributeError"
  text := "'NoneType' object has no attribute 'cleanup'"

/-- `describe_failure`: a code that is not a string fails the validation. -/
def describe_failure (e : ExperimentError) : Except ExperimentError OperationFailure :=
  match e.code with
  | .absent => .ok ⟨"operation.failed", e.message, e.run_id, e.operation, e.effects, e.cleanup⟩
  | .text code => .ok ⟨code, e.message, e.run_id, e.operation, e.effects, e.cleanup⟩
  | .other => .error invalid_failure

structure ExperimentRuntimeIssue where
  phase : String
  code : String
  message : String

/-- `_issue`. -/
def experiment_issue (phase : String) (e : ExperimentError) : ExperimentRuntimeIssue where
  phase := phase
  code :=
    match e.code with
    | .text code => if code = "" then phase ++ ".failed" else code
    | .absent | .other => phase ++ ".failed"
  message := e.message

/-! ## State -/

inductive ExperimentRuntimeState where
  | created
  | starting
  | running
  | stopping
  | stopped
  | failed
  deriving DecidableEq

/-- `state.value`. -/
def ExperimentRuntimeState.value : ExperimentRuntimeState → String
  | created => "created"
  | starting => "starting"
  | running => "running"
  | stopping => "stopping"
  | stopped => "stopped"
  | failed => "failed"

/-- `_telemetry` and `_continuous`. -/
inductive Component where
  | telemetry
  | continuous
  deriving DecidableEq

/-- `TelemetryPipelineState` and `ContinuousRuntimeState`. -/
inductive ComponentState where
  | created
  | running
  | stopping
  | stopped
  deriving DecidableEq

/-- `state.value`. -/
def ComponentState.value : ComponentState → String
  | created => "created"
  | running => "running"
  | stopping => "stopping"
  | stopped => "stopped"

/-- `ContinuousRuntimeReport`: the count that is read. -/
structure ContinuousRuntimeReport where
  failed : ℕ := 0
  deriving DecidableEq

structure ExperimentRuntimeReport where
  run : RunInfo
  state : ExperimentRuntimeState
  continuous : ContinuousRuntimeReport
  teardown : Option TeardownResult
  issues : List ExperimentRuntimeIssue
  operation : OperationOutcome
  cleanup : CleanupOutcome
  teardown_error : Option OperationFailure
  previous_issues : List ExperimentRuntimeIssue

/-- What has happened: who started and who began the last stop, whether the record of the
running run failed, how `deploy` ended, which run each teardown was for and how it ended, the
last one first, and the issues of the cleanup `_writers_stopped` was last set by. -/
structure History (κ : Type) where
  starter : Option κ := none
  stopper : Option κ := none
  unrecorded : Bool := false
  deploy : Option (Except ExperimentError RunInfo) := none
  teardowns : List (String × Except ExperimentError TeardownResult) := []
  issues : List ExperimentRuntimeIssue := []

/-- The fields of an `ExperimentRuntime`; a layer is there with its state. -/
structure Experiment (κ : Type) where
  state : ExperimentRuntimeState := .created
  run : Option RunInfo := none
  component : Component → Option ComponentState := fun _ => none
  started : Component → Bool := fun _ => false
  writers_stopped : Bool := false
  report : Option ExperimentRuntimeReport := none
  cleanup : CleanupOutcome := .default
  start_failed : Bool := false
  operation_failed : Bool := false
  teardown_error : Option OperationFailure := none
  history : History κ := {}

/-- `_ledger is not None` and `_agent_factory is not None`. -/
structure ExperimentConfig where
  ledger : Bool := true
  agents : Bool := true

/-! ## Operations -/

/-- The data of a lifecycle record. -/
structure LifecycleEntry where
  type : String
  state : ExperimentRuntimeState
  retry : Option Bool := none
  issues : Option ℕ := none
  deriving DecidableEq

/-- What `start` constructs. -/
inductive ExperimentPart where
  | event_bus
  | invoker
  | coordinator
  | continuous
  | telemetry
  deriving DecidableEq

inductive ExperimentCall where
  | verify_bounded_startup
  | deploy
  | create_run
  | append (entry : LifecycleEntry)
  | construct (part : ExperimentPart)
  /-- The threads of a layer start. -/
  | launch (c : Component)
  | join_samplers
  | shut_down (drain : Bool)
  | close_agents
  | teardown (run_id : String)
  deriving DecidableEq

def ExperimentCall.Value : ExperimentCall → Type
  | deploy => RunInfo
  | teardown _ => TeardownResult
  | _ => Unit

/-- What the environment answers. -/
structure ExperimentAnswer where
  raised : Option ExperimentError := none
  run : RunInfo := { id := "run-1", state := .running }
  result : TeardownResult :=
    { run := { id := "run-1", state := .stopped }, cleanup := .default, operation := .succeeded }
  report : ContinuousRuntimeReport := {}

/-- The operations: a call, the report of the continuous runtime, the two gates, and an
access to fields. -/
inductive ExperimentOp (κ : Type) where
  | call (c : ExperimentCall)
  | continuous_report
  | begin_start
  | begin_stop
  | update (f : Experiment κ → Experiment κ)

/-- The replies: an access to fields reads what it has found. -/
def ExperimentOp.Reply {κ : Type} : ExperimentOp κ → Type
  | call c => Except ExperimentError c.Value
  | continuous_report => ContinuousRuntimeReport
  | begin_start | begin_stop | update _ => Experiment κ

/-- The routines of the experiment. -/
abbrev ExperimentRoutine (κ α : Type) : Type :=
  Routine (ExperimentOp κ) ExperimentOp.Reply ExperimentError α

section Effects

variable {κ : Type}

/-- A value unless the answer raises. -/
def ExperimentAnswer.reply {α : Type} (a : ExperimentAnswer) (value : α) : Except ExperimentError α :=
  a.raised.elim (.ok value) .error

/-- How a call ends. The errors of the bounded startup check have no cleanup of their own. -/
def ExperimentCall.outcome (a : ExperimentAnswer) : (c : ExperimentCall) → Except ExperimentError c.Value
  | verify_bounded_startup => a.raised.elim (.ok ()) fun e => .error { e with cleanup := .default }
  | deploy => a.reply a.run
  | teardown _ => a.reply a.result
  | create_run | append _ | construct _ | launch _ | join_samplers | shut_down _ | close_agents => a.reply ()

/-- The history after a call. -/
def ExperimentCall.recorded (a : ExperimentAnswer) (c : ExperimentCall) (h : History κ) : History κ :=
  match c with
  | deploy => { h with deploy := some (deploy.outcome a) }
  | teardown id => { h with teardowns := (id, (teardown id).outcome a) :: h.teardowns }
  | append entry =>
    if entry.type = "run.running" ∧ a.raised.isSome = true then { h with unrecorded := true } else h
  | verify_bounded_startup | create_run | construct _ | launch _ | join_samplers | shut_down _
  | close_agents => h

def Experiment.retrying (m : Experiment κ) : Bool :=
  m.state = .failed && m.run.isSome && !m.writers_stopped

/-- The report of a stop that is done. -/
def Experiment.finished (m : Experiment κ) : Option ExperimentRuntimeReport :=
  if m.writers_stopped = true then m.report else none

/-- A stop may go on. -/
def Experiment.stoppable (m : Experiment κ) : Bool :=
  m.finished.isNone && (m.state = .running || m.retrying)

/-- The gate of `start`. -/
def Experiment.begin_start (i : κ) (m : Experiment κ) : Experiment κ :=
  if m.state = .created then
    { m with state := .starting, history := { m.history with starter := some i } }
  else m

/-- The gate of `stop`. -/
def Experiment.begin_stop (i : κ) (m : Experiment κ) : Experiment κ :=
  if m.stoppable = true then
    { m with state := .stopping, history := { m.history with stopper := some i } }
  else m

/-- An operation of the thread `i`. -/
def ExperimentOp.act (i : κ) (a : ExperimentAnswer) : (o : ExperimentOp κ) → Experiment κ →
    o.Reply × Experiment κ
  | call c, m => (c.outcome a, { m with history := c.recorded a m.history })
  | continuous_report, m => (a.report, m)
  | begin_start, m => (m, m.begin_start i)
  | begin_stop, m => (m, m.begin_stop i)
  | update f, m => (m, f m)

end Effects

/-! ## What routines are made of -/

variable {κ : Type}

def experiment_call (c : ExperimentCall) : ExperimentRoutine κ c.Value :=
  Program.perform (.call c) Program.done

/-- Calls that are done for their effects. -/
def call_all : List ExperimentCall → ExperimentRoutine κ Unit
  | [] => pure ()
  | c :: rest => do
      let _ ← experiment_call c
      call_all rest

/-- An access to fields. -/
def access (f : Experiment κ → Experiment κ) : ExperimentRoutine κ (Experiment κ) :=
  Program.perform (.update f) fun m => Program.done (.ok m)

/-- Fields are written. -/
def assign (f : Experiment κ → Experiment κ) : ExperimentRoutine κ Unit :=
  Program.perform (.update f) fun _ => Program.done (.ok ())

/-- Fields are read. -/
def fields : ExperimentRoutine κ (Experiment κ) := access id

/-- Raises unless the check holds. -/
def demand (b : Bool) (e : ExperimentError) : ExperimentRoutine κ Unit := if b = true then pure () else raise e

/-- `except Exception`: what is no exception passes. -/
def excepted {α : Type} : Except ExperimentError α → ExperimentRoutine κ (Except ExperimentError α)
  | .ok a => pure (.ok a)
  | .error e => if e.is_exception = true then pure (.error e) else raise e

/-- `try` with `except Exception`, as a value. -/
def tried {α : Type} (x : ExperimentRoutine κ α) : ExperimentRoutine κ (Except ExperimentError α) :=
  x.attempt >>= excepted

/-- The issues of a result. -/
def issues_of {α : Type} (phase : String) : Except ExperimentError α → List ExperimentRuntimeIssue
  | .ok _ => []
  | .error e => [experiment_issue phase e]

/-! ## The layers -/

/-- How a layer calls itself. -/
def Component.title : Component → String
  | telemetry => "telemetry pipeline"
  | continuous => "continuous runtime"

/-- The code of a call at the wrong time. -/
def Component.lifecycle_invalid : Component → String
  | telemetry => "telemetry.lifecycle.invalid"
  | continuous => "runtime.lifecycle.invalid"

/-- The phase of its issues. -/
def Component.phase : Component → String
  | telemetry => "telemetry"
  | continuous => "continuous"

/-- `TelemetryPipelineError` and `ContinuousRuntimeError`. -/
def Component.error (c : Component) (text : String) : ExperimentError where
  class_name :=
    match c with
    | telemetry => "TelemetryPipelineError"
    | continuous => "ContinuousRuntimeError"
  text := text
  is_mininet_ai := true
  code := .text c.lifecycle_invalid
  operation := .failed

/-- What `stop` of a layer waits for. -/
def Component.wind_down (drain : Bool) : Component → ExperimentCall
  | telemetry => .join_samplers
  | continuous => .shut_down drain

/-- A layer changes. -/
def Experiment.set_component (m : Experiment κ) (c : Component) (s : ComponentState) : Experiment κ :=
  { m with component := Function.update m.component c (some s) }

/-- The flag of a layer changes. -/
def Experiment.set_started (m : Experiment κ) (c : Component) (b : Bool) : Experiment κ :=
  { m with started := Function.update m.started c b }

/-- The section of `start` of a layer. -/
def Experiment.begin_launch (c : Component) (m : Experiment κ) : Experiment κ :=
  if m.component c = some .created then m.set_component c .running else m

/-- The section of `stop` of a layer. -/
def Experiment.begin_wind_down (c : Component) (m : Experiment κ) : Experiment κ :=
  if m.component c = some .running then m.set_component c .stopping else m

/-- The rest of `start` of a layer. -/
def Component.launched (c : Component) : Option ComponentState → ExperimentRoutine κ Unit
  | some .created => experiment_call (.launch c)
  | some s => raise (c.error (worded c.title [" is already ", s.value]))
  | none => raise attribute_error

/-- `ContinuousAgentRuntime.start` and `TelemetryPipeline.start`. -/
def Component.start (c : Component) : ExperimentRoutine κ Unit := do
  let m ← access (Experiment.begin_launch c)
  c.launched (m.component c)

/-- Everything has ended. -/
def Component.wound_down (c : Component) (drain : Bool) : ExperimentRoutine κ Unit := do
  call_all [c.wind_down drain]
  assign fun m => m.set_component c .stopped

/-- The rest of `stop` of a layer. -/
def Component.stopping (c : Component) (drain : Bool) : Option ComponentState → ExperimentRoutine κ Unit
  | some .stopped => pure ()
  | some .running | some .stopping => c.wound_down drain
  | some .created => raise (c.error (worded "cannot stop " [c.title, " from created"]))
  | none => raise attribute_error

/-- `ContinuousAgentRuntime.stop` and `TelemetryPipeline.stop`. -/
def Component.stop (c : Component) (drain : Bool) : ExperimentRoutine κ Unit := do
  let m ← access (Experiment.begin_wind_down c)
  c.stopping drain (m.component c)

/-- `TeardownResult.succeeded`. -/
def MininetOVSRuntime.TeardownResult.succeeded (r : TeardownResult) : Bool :=
  r.operation = .succeeded && r.run.state = .stopped && r.cleanup.verified

namespace ExperimentRuntime

/-! ## Cleaning up -/

/-- `_record_lifecycle`: it raises what the ledger raises. -/
def record_lifecycle (config : ExperimentConfig) (entry : LifecycleEntry) : ExperimentRoutine κ Unit := do
  let m ← fields
  call_all (if config.ledger = true ∧ m.run.isSome = true then [.append entry] else [])

/-- `_record_lifecycle` with a list of issues. -/
def record_issues (config : ExperimentConfig) (entry : LifecycleEntry) :
    ExperimentRoutine κ (List ExperimentRuntimeIssue) := do
  let result ← tried (record_lifecycle config entry)
  pure (issues_of "ledger" result)

/-- A layer is stopped: its flag goes. -/
def stop_and_note (c : Component) (drain : Bool) : ExperimentRoutine κ Unit := do
  c.stop drain
  assign fun m => m.set_started c false

/-- Whether a layer is stopped, with the issues. -/
def stop_result (c : Component) (result : Except ExperimentError Unit) :
    Bool × List ExperimentRuntimeIssue :=
  (result.isOk, issues_of c.phase result)

/-- `_stop_telemetry` and `_stop_continuous`. -/
def stop_layer (c : Component) (drain : Bool) :
    ExperimentRoutine κ (Bool × List ExperimentRuntimeIssue) := do
  let m ← fields
  if (m.component c).isNone = true then
    pure (true, [])
  else do
    let result ← tried (stop_and_note c drain)
    pure (stop_result c result)

/-- The report of the continuous runtime, when there is one. -/
def report_continuous : ExperimentRoutine κ ContinuousRuntimeReport := do
  let m ← fields
  if (m.component .continuous).isNone = true then pure {}
  else Program.perform .continuous_report fun report => Program.done (.ok report)

/-- What the teardown leaves behind. -/
def teardown_settled (issues : List ExperimentRuntimeIssue) :
    Except ExperimentError TeardownResult →
      ExperimentRoutine κ (Option TeardownResult × List ExperimentRuntimeIssue)
  | .ok result => do
      assign fun m => { m with cleanup := result.cleanup }
      pure (some result, issues)
  | .error e => do
      let failure ← conclude (describe_failure e)
      assign fun m => { m with teardown_error := some failure }
      let m ← fields
      -- another thread may have taken the error away
      demand m.teardown_error.isSome attribute_error
      assign fun m' => { m' with cleanup := (m.teardown_error.getD failure).cleanup }
      pure (none, issues ++ [experiment_issue "substrate" e])

/-- `_teardown` once the agents are closed. -/
def teardown_closed (issues : List ExperimentRuntimeIssue) :
    Option RunInfo → ExperimentRoutine κ (Option TeardownResult × List ExperimentRuntimeIssue)
  | none => pure (none, issues)
  | some run => do
      let result ← tried (experiment_call (.teardown run.id))
      teardown_settled issues result

def teardown (config : ExperimentConfig) :
    ExperimentRoutine κ (Option TeardownResult × List ExperimentRuntimeIssue) := do
  assign fun m => { m with teardown_error := none }
  let closing ← tried (call_all (if config.agents = true then [.close_agents] else []))
  let m ← fields
  teardown_closed (issues_of "agents" closing) m.run

/-- `_teardown`, if it is safe. -/
def teardown_if (safe : Bool) (config : ExperimentConfig) :
    ExperimentRoutine κ (Option TeardownResult × List ExperimentRuntimeIssue) :=
  if safe = true then teardown config else pure (none, [])

/-- `with self._lock: self._writers_stopped = ...`, with the issues of the cleanup. -/
def note_cleanup (verdict : Experiment κ → Bool) (issues : List ExperimentRuntimeIssue)
    (m : Experiment κ) : Experiment κ :=
  { m with writers_stopped := verdict m, history := { m.history with issues := issues } }

/-- Whether a teardown is there and has succeeded. -/
def torn_down (teardown : Option TeardownResult) : Bool := teardown.any TeardownResult.succeeded

/-! ## Starting -/

/-- A layer that was started is stopped, with the issues. -/
def stop_started (c : Component) : ExperimentRoutine κ (Bool × List ExperimentRuntimeIssue) := do
  let m ← fields
  let m' ← fields
  if (m.component c).isSome = true ∧ m.started c = true ∧ m'.component c ≠ some .created then do
    let result ← tried (stop_and_note c false)
    pure (stop_result c result)
  else
    pure (true, [])

/-- The verdict of a start that has failed. -/
def start_verdict (issues : List ExperimentRuntimeIssue) (teardown : Option TeardownResult)
    (m : Experiment κ) : Bool :=
  issues.isEmpty && ((m.run.isNone && m.cleanup.verified) || torn_down teardown)

/-- `_cleanup_start_failure`, from the teardown on. -/
def tear_down_start_failure (config : ExperimentConfig) (issues : List ExperimentRuntimeIssue) :
    ExperimentRoutine κ Unit := do
  let result ← teardown config
  assign (note_cleanup (start_verdict (issues ++ result.2) result.1) (issues ++ result.2))

def cleanup_start_failure (config : ExperimentConfig) : ExperimentRoutine κ Unit := do
  let telemetry ← stop_started .telemetry
  let continuous ← stop_started .continuous
  if telemetry.1 = true ∧ continuous.1 = true then
    tear_down_start_failure config (telemetry.2 ++ continuous.2)
  else pure ()

/-- What `start` raises. -/
def start_error (e : ExperimentError) (m : Experiment κ) : ExperimentError :=
  if e.is_mininet_ai = true then { e with cleanup := m.cleanup, teardown_error := m.teardown_error }
  else if e.is_exception = true then
    { experiment_error "experiment.start.failed"
        (worded "could not start experiment runtime: " [e.text]) m.cleanup with
      teardown_error := m.teardown_error }
  else e

/-- The handler of `start`. -/
def start_failed (config : ExperimentConfig) (e : ExperimentError) : ExperimentRoutine κ RunInfo := do
  assign fun m => { m with start_failed := true }
  assign fun m => { m with cleanup := e.cleanup }
  cleanup_start_failure config
  assign fun m => { m with state := .failed }
  let m ← fields
  raise (start_error e m)

/-- The flag of a layer is set, and it starts. -/
def launch (c : Component) : ExperimentRoutine κ Unit := do
  assign fun m => m.set_started c true
  c.start

/-- The two layers are there. -/
def constructed (m : Experiment κ) : Experiment κ :=
  (m.set_component .continuous .created).set_component .telemetry .created

/-- What `start` does before the layers are there. -/
def prepare (config : ExperimentConfig) : ExperimentRoutine κ RunInfo := do
  experiment_call .verify_bounded_startup
  let run ← experiment_call .deploy
  assign fun m => { m with run := some run }
  call_all (if config.ledger = true then [.create_run] else [])
  record_lifecycle config { type := "run.starting", state := .starting }
  call_all ([.event_bus, .invoker, .coordinator, .continuous, .telemetry].map .construct)
  pure run

/-- The body of `start`. -/
def starting (config : ExperimentConfig) : ExperimentRoutine κ RunInfo := do
  let run ← prepare config
  assign constructed
  launch .continuous
  launch .telemetry
  assign fun m => { m with state := .running }
  record_lifecycle config { type := "run.running", state := .running }
  pure run

/-- `start` past its gate. -/
def start_from (config : ExperimentConfig) (m : Experiment κ) : ExperimentRoutine κ RunInfo :=
  if m.state = .created then (starting config).handle (start_failed config)
  else
    raise (experiment_error "experiment.lifecycle.invalid"
      (worded "experiment runtime is already " [m.state.value]))

def start (config : ExperimentConfig) : ExperimentRoutine κ RunInfo := do
  let m ← Program.perform .begin_start fun m => Program.done (.ok m)
  start_from config m

/-! ## Stopping -/

/-- Issues of the phases that fail the experiment. -/
def failing (issues : List ExperimentRuntimeIssue) : Bool :=
  issues.any fun issue => issue.phase = "agents" || issue.phase = "ledger"

/-- `operation`. -/
def operation_of (failed : Bool) : OperationOutcome := if failed = true then .failed else .succeeded

/-- The issue of a cleanup that is not verified. -/
def unverified (teardown : Option TeardownResult) : List ExperimentRuntimeIssue :=
  if torn_down teardown = true then []
  else
    [{ phase := "cleanup"
       code := "experiment.cleanup.unverified"
       message := "cleanup is not verified; inspect run status and seek administrator help " ++
         "for unresolved resources" }]

def final_state (issues : List ExperimentRuntimeIssue) (failed : Bool) : ExperimentRuntimeState :=
  if issues = [] ∧ failed = false then .stopped else .failed

/-- The record of a stop that ends. -/
def stopped_entry (issues : List ExperimentRuntimeIssue) (failed : Bool) : LifecycleEntry where
  type := if final_state issues failed = .failed then "run.failed" else "run.stopped"
  state := final_state issues failed
  issues := some issues.length

/-- The record of a stop that begins. -/
def stopping_entry (retrying : Bool) : LifecycleEntry where
  type := if retrying = true then "run.stop-retrying" else "run.stopping"
  state := .stopping
  retry := some retrying

/-- `_operation_failed` after a stop: what cleanup alone leaves open does not count. -/
def work_failed (issues : List ExperimentRuntimeIssue) (continuous : ContinuousRuntimeReport)
    (m : Experiment κ) : Bool :=
  m.operation_failed || m.start_failed || failing issues || continuous.failed ≠ 0

/-- A ledger issue is among them. -/
def ledger_failed (issues : List ExperimentRuntimeIssue) : Bool :=
  issues.any fun issue => issue.phase = "ledger"

/-- `self.run`, unless the teardown has a run. -/
def report_run (teardown : Option TeardownResult) (m : Experiment κ) : Except ExperimentError RunInfo :=
  match teardown, m.run with
  | some result, _ => .ok result.run
  | none, some run => .ok run
  | none, none => .error (experiment_error "experiment.not-started" "experiment runtime has not started")

/-- What the layers of a stop leave for its end. -/
structure StopOutcome where
  previous : List ExperimentRuntimeIssue
  safe : Bool
  issues : List ExperimentRuntimeIssue
  teardown : Option TeardownResult
  continuous : ContinuousRuntimeReport

def stop_verdict (o : StopOutcome) (issues : List ExperimentRuntimeIssue) : Bool :=
  o.safe && issues.isEmpty && torn_down o.teardown

/-- The section of `stop` that sets the state. -/
def settle_stop (o : StopOutcome) (issues : List ExperimentRuntimeIssue) (failed : Bool)
    (m : Experiment κ) : Experiment κ :=
  { note_cleanup (fun _ => stop_verdict o issues) issues m with state := final_state issues failed }

/-- The report of a stop. -/
def publish (o : StopOutcome) (issues : List ExperimentRuntimeIssue) (failed : Bool) :
    ExperimentRoutine κ ExperimentRuntimeReport := do
  let m ← fields
  let run ← conclude (report_run o.teardown m)
  let report : ExperimentRuntimeReport :=
    { run := run
      state := final_state issues failed
      continuous := o.continuous
      teardown := o.teardown
      issues := issues
      operation := operation_of (failed || ledger_failed issues)
      cleanup := m.cleanup
      teardown_error := m.teardown_error
      previous_issues := o.previous }
  assign fun m => { m with report := some report }
  pure report

/-- The end of `stop`, with the issues of its last record. -/
def settle (o : StopOutcome) (failed : Bool) (issues : List ExperimentRuntimeIssue) :
    ExperimentRoutine κ ExperimentRuntimeReport := do
  assign fun m => { m with operation_failed := m.operation_failed || ledger_failed issues }
  assign (settle_stop o issues failed)
  publish o issues failed

/-- `stop` once the teardown is over. -/
def finish (config : ExperimentConfig) (o : StopOutcome) : ExperimentRoutine κ ExperimentRuntimeReport := do
  let m ← access fun m => { m with operation_failed := work_failed o.issues o.continuous m }
  let failed := work_failed o.issues o.continuous m
  let issues := o.issues ++ unverified o.teardown
  let recorded ← record_issues config (stopped_entry issues failed)
  settle o failed (issues ++ recorded)

/-- The issues of the earlier stops. -/
def previous_issues (m : Experiment κ) : List ExperimentRuntimeIssue :=
  m.report.elim [] fun report => report.previous_issues ++ report.issues

/-- The body of `stop`. -/
def stopping (config : ExperimentConfig) (drain retrying : Bool) :
    ExperimentRoutine κ ExperimentRuntimeReport := do
  let m ← fields
  let recorded ← record_issues config (stopping_entry retrying)
  let telemetry ← stop_layer .telemetry drain
  let continuous ← stop_layer .continuous drain
  let report ← report_continuous
  let result ← teardown_if (telemetry.1 && continuous.1) config
  finish config
    { previous := previous_issues m
      safe := telemetry.1 && continuous.1
      issues := recorded ++ telemetry.2 ++ continuous.2 ++ result.2
      teardown := result.1
      continuous := report }

/-- `stop` past its gate. -/
def stop_from (config : ExperimentConfig) (drain : Bool) (m : Experiment κ) :
    ExperimentRoutine κ ExperimentRuntimeReport :=
  if m.stoppable = true then stopping config drain m.retrying
  else
    conclude (m.finished.elim
      (.error (experiment_error "experiment.lifecycle.invalid"
        (worded "cannot stop experiment runtime from " [m.state.value]))) .ok)

def stop (config : ExperimentConfig) (drain : Bool) (timeout_seconds : ℚ) :
    ExperimentRoutine κ ExperimentRuntimeReport := do
  demand (0 < timeout_seconds)
    { class_name := "ValueError", text := "experiment stop timeout must be positive" }
  let m ← Program.perform .begin_stop fun m => Program.done (.ok m)
  stop_from config drain m

end ExperimentRuntime

/-! ## Calls -/

/-- The calls an owner makes. -/
inductive ExperimentRequest where
  | start
  | stop (drain : Bool) (timeout_seconds : ℚ)

/-- What is kept of a call: nothing but that it has ended. -/
def ExperimentRequest.body (config : ExperimentConfig) :
    ExperimentRequest → Program (ExperimentOp κ) ExperimentOp.Reply Unit
  | start => Program.bind (ExperimentRuntime.start config) fun _ => .done ()
  | stop drain timeout_seconds =>
    Program.bind (ExperimentRuntime.stop config drain timeout_seconds) fun _ => .done ()

/-- Threads that call `start` and `stop` of one runtime. A thread that dies leaves the
fields as they are. -/
def experiment_threads [DecidableEq κ] (config : ExperimentConfig) :
    Threads (ExperimentOp κ) ExperimentOp.Reply (Experiment κ) κ ExperimentRequest ExperimentAnswer where
  init m := m = {}
  body _ := ExperimentRequest.body config
  act i o a := ExperimentOp.act i a o
  die _ m := m

end MininetAi
