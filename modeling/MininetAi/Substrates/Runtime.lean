/-
The Mininet/OVS runtime (`deploy` and `teardown` in
`mininet_ai/substrates/mininet_ovs/runtime.py`).

The driver's validation, the bindings, Mininet, the providers of observations and actions
and the recovery commands are steps of the host. Times, the owner of a record and the
resources of a snapshot are left out, and messages name the error and the run.
-/
import MininetAi.Substrates.State

set_option autoImplicit false

namespace MininetAi

open RunStateStore

/-! ## Errors -/

def legacy_cleanup (plan : DeploymentPlan) : CleanupOutcome where
  status := .unknown
  remaining_resources := []
  unknown_resources := plan.resources.map PlannedResource.name
  evidence := []
  evidence_gaps :=
    ["legacy Mininet cleanup does not verify all owned network artifacts or descendant absence"]
  verification_requires_evidence := cleanup_unknown _ _ _ _

/-- `RuntimeOperationError`. -/
def operation_error (code text : String) (run_id : Option String := none)
    (effects : MutationEffects := .unknown) (cleanup : CleanupOutcome := .default) : RaisedError where
  kind := .operation
  text := text
  code := code
  run_id := run_id
  effects := effects
  cleanup := cleanup

/-- The error of pydantic. -/
def invalid_issue : RaisedError :=
  { kind := .value_error, text := "1 validation error for RuntimeIssue" }

/-- `RuntimeIssue(code=..., message=str(error))`: the message may not be empty. -/
def issue_from (code : String) (e : RaisedError) : HostRoutine RuntimeIssue :=
  if e.text = "" then .raise invalid_issue else pure { code := code, message := e.text }

/-- `_raise_unknown_run`. -/
def unknown_run (run_id : String) : RaisedError :=
  operation_error "runtime.run.unknown" (worded "unknown substrate run " [quoted run_id]) (some run_id)

/-- What `except Exception` makes of a result. -/
def caught : Except RaisedError Unit → HostRoutine (Option RaisedError)
  | .ok _ => pure none
  | .error e => if e.is_exception = true then pure (some e) else .raise e

/-- Raises unless the check holds. -/
def require (b : Bool) (e : RaisedError) : HostRoutine Unit := if b = true then pure () else .raise e

/-- An operation whose exception is kept. -/
def suppressed (x : HostRoutine Unit) : HostRoutine (Option RaisedError) := x.attempt >>= caught

namespace MininetOVSRuntime

/-! ## State -/

def write_state (w : Writing) (info : RunInfo) (plan : DeploymentPlan) (groups : List ℕ) :
    HostRoutine Unit :=
  write w { run := info, plan := plan, process_groups := groups }

def read_state_for_error : HostRoutine (Option PersistedRun) :=
  read.handle fun e => if e.is_store = true then pure none else .raise e

def validate_plan : HostRoutine Unit := do
  let matches_name ← asks .substrate_matches
  if matches_name then
    let valid ← asks .resources_valid
    if valid then pure ()
    else .raise (operation_error "runtime.plan.invalid" "invalid Mininet/OVS deployment plan")
  else .raise (operation_error "runtime.substrate.mismatch" "plan uses another substrate")

def ensure_no_active_run : HostRoutine Unit := do
  let m ← memory
  let active := (m.runs.entries.filter fun e => e.2.info.state ≠ .stopped).map fun e => e.2.info.id
  match active.insertionSort (· ≤ ·) with
  | [] => pure ()
  | id :: _ =>
    .raise (operation_error "runtime.run.active"
      (worded "Mininet/OVS runtime already has an active run: " [quoted id]) (some id))

def new_run_id : HostRoutine String := do
  let run_id : String ← host .run_id
  if run_id = "" then
    .raise (operation_error "runtime.run.invalid-id" "runtime produced an empty run id")
  else do
    let m ← memory
    if run_id ∈ m.runs then
      .raise (operation_error "runtime.run.duplicate" (worded "run id " [quoted run_id, " already exists"])
        (some run_id))
    else
      pure run_id

/-! ## Claiming a run -/

/-- The handlers of `_claim_run`. -/
def claim_failed (info : RunInfo) (e : RaisedError) : HostRoutine Unit :=
  if e.kind = .state_lock_held then do
    let existing ← read_state_for_error
    .raise (operation_error "runtime.run.active" "another process owns the Mininet/OVS runtime"
      (existing.map fun record => record.run.id))
  else if e.is_store = true then do
    release
    .raise (operation_error "runtime.state.failed"
      (worded "could not claim Mininet/OVS runtime state: " [e.text]) (some info.id))
  else
    .raise e

/-- What the claim makes of the record it finds. -/
def claim_found (info : RunInfo) (plan : DeploymentPlan) : Option PersistedRun → HostRoutine Unit
  | some existing => do
      release
      .raise (operation_error "runtime.run.orphaned"
        (worded "Mininet/OVS run " [quoted existing.run.id,
          " was orphaned; tear it down before deploying another run"]) (some existing.run.id))
  | none => do
      clear_stopped
      write_state .claim info plan []

def claim_run (info : RunInfo) (plan : DeploymentPlan) : HostRoutine Unit :=
  Routine.handle
    (do
      acquire
      let existing ← read
      claim_found info plan existing)
    (claim_failed info)

/-! ## Deploying -/

/-- The record of a run that has failed. -/
def failed_info (info : RunInfo) (issue : RuntimeIssue) : RunInfo :=
  { info with state := .failed, issue := some issue }

def rollback (run_id : String) : HostRoutine (Option RaisedError) := do
  let failure ← suppressed (host .stop_network run_id)
  let error ← suppressed (host .remove_owned_artifacts run_id)
  pure (failure.or error)

/-- The body of `_settle_failed_deploy`. -/
def settle_record (info : RunInfo) (plan : DeploymentPlan) (groups : List ℕ) :
    Option RaisedError → HostRoutine Unit
  | none => clear
  | some e => do
      let issue ← issue_from "runtime.rollback.failed" e
      write_state .rollback_failed (failed_info info issue) plan groups

/-- The `except` clause of `_settle_failed_deploy`, as a value. -/
def settled : Except RaisedError Unit → HostRoutine (Option RaisedError)
  | .ok _ => pure none
  | .error e => if e.is_store = true then pure (some e) else .raise e

def settle_failed_deploy (info : RunInfo) (plan : DeploymentPlan) (groups : List ℕ)
    (rollback_error : Option RaisedError) : HostRoutine (Option RaisedError) :=
  Routine.eventually ((settle_record info plan groups rollback_error).attempt >>= settled)
    release

/-- `if network`. -/
def roll_back_network (l : DeployLocals) : HostRoutine (Option RaisedError) := do
  if l.network then
    let truth ← asks .network_truth
    if truth then rollback l.info.id else pure none
  else
    pure none

/-- The locals change. -/
def note (f : DeployLocals → DeployLocals) : HostRoutine Unit := do
  let m ← memory
  remember { m with deploying := f m.deploying }

/-- The info of a run that is up. -/
def running_info (info : RunInfo) : RunInfo :=
  { info with state := .running, operation := .succeeded, effects := .changed }

/-- The body of `deploy` once there is a network. -/
def bring_up (info : RunInfo) (plan : DeploymentPlan) : HostRoutine Unit := do
  host .build_network info.id
  let groups ← lists .network
  note fun l => { l with process_groups := groups }
  write_state .process_groups info plan groups
  perform_all "" [.start_network, .observation_factory, .action_factory]
  let operational ← asks .resources_operational
  require operational { kind := .other, text := "deployed resources are not operational" }
  note fun l => { l with info := running_info info }
  write_state .running (running_info info) plan groups

/-- The body of `deploy`. -/
def deploying (info : RunInfo) (plan : DeploymentPlan) : HostRoutine Unit := do
  host .bindings
  let interfaces_free ← asks .interfaces_free
  require interfaces_free
    (operation_error "runtime.resource.conflict" "refusing to replace existing network interfaces")
  note fun l => { l with mutation_started := true }
  host .create_network
  note fun l => { l with network := true }
  bring_up info plan

/-- The effects a failed deploy reports. -/
def deploy_effects (l : DeployLocals) : MutationEffects :=
  if l.mutation_started = true then .unknown else .unchanged

/-- The text of a failed deploy. -/
def deploy_text (e : RaisedError) (rollback_error state_error : Option RaisedError) : String :=
  worded "could not deploy Mininet/OVS run: " [e.text,
    rollback_error.elim "" fun e => "; rollback also failed: " ++ e.text,
    state_error.elim "" fun e => "; runtime state update also failed: " ++ e.text]

/-- The handler of `deploy`. -/
def deploy_failed (info : RunInfo) (plan : DeploymentPlan) (e : RaisedError) : HostRoutine Unit := do
  let m ← memory
  let l := m.deploying
  let rollback_error ← roll_back_network l
  let state_error ← settle_failed_deploy l.info plan l.process_groups rollback_error
  let undone := rollback_error.isNone && state_error.isNone
  if e.is_exception = false ∧ undone = true then
    .raise e
  else if e.kind = .operation ∧ undone = true then
    .raise { e with cleanup := legacy_cleanup plan, effects := deploy_effects l }
  else
    .raise (operation_error "runtime.deploy.failed" (deploy_text e rollback_error state_error)
      (some info.id) (deploy_effects l) (legacy_cleanup plan))

def deploy (plan : DeploymentPlan) : HostRoutine RunInfo := do
  validate_plan
  ensure_no_active_run
  let run_id ← new_run_id
  host .clock
  let info : RunInfo := { id := run_id, state := .deploying }
  note fun _ => { info := info }
  claim_run info plan
  (deploying info plan).handle (deploy_failed info plan)
  let m ← memory
  remember { m with runs := m.runs.insert run_id { info := running_info info, plan := plan } }
  hand_over run_id
  pure (running_info info)

/-! ## Tearing down -/

structure TeardownResult where
  run : RunInfo
  cleanup : CleanupOutcome
  operation : OperationOutcome
  effects : MutationEffects := .unknown
  already_stopped : Bool := false

/-- `run.info = info`. -/
def set_info (info : RunInfo) (plan : DeploymentPlan) : HostRoutine Unit := do
  let m ← memory
  remember { m with runs := m.runs.insert info.id { info := info, plan := plan } }

/-- The loop over the cleanup operations: the errors it collects. -/
def clean_up (run_id : String) : List HostStep → HostRoutine (List RaisedError)
  | [] => pure []
  | s :: rest => do
      let failure ← suppressed (perform_all run_id [s])
      let errors ← clean_up run_id rest
      pure (failure.toList ++ errors)

/-- The cleanup operations. -/
def cleanup_steps : List HostStep := [.close_actions, .stop_network, .remove_owned_artifacts]

/-- `RuntimeError("; ".join(...))`. -/
def cleanup_failed (errors : List RaisedError) : RaisedError where
  kind := .other
  text := String.intercalate "; " (errors.map RaisedError.text)

/-- The info of a run that is stopped. -/
def stopped_info (info : RunInfo) (plan : DeploymentPlan) : RunInfo :=
  { info with state := .stopped, cleanup := legacy_cleanup plan }

/-- The body of `teardown`. -/
def stopping (info : RunInfo) (plan : DeploymentPlan) : HostRoutine Unit := do
  set_info { info with state := .stopping } plan
  let groups ← lists (.owned .stopping)
  write_state .stopping { info with state := .stopping } plan groups
  let errors ← clean_up info.id cleanup_steps
  require errors.isEmpty (cleanup_failed errors)
  host .clock
  write_stopped { run := stopped_info info plan, plan := plan }
  clear

/-- The handler of `teardown`. -/
def stopping_failed (info : RunInfo) (plan : DeploymentPlan) (e : RaisedError) : HostRoutine Unit :=
  if e.is_exception = true then do
    let issue ← issue_from "runtime.teardown.failed" e
    let failed := { failed_info info issue with cleanup := legacy_cleanup plan }
    set_info failed plan
    Routine.handle
      (do
        let groups ← lists (.owned .teardown_failed)
        write_state .teardown_failed failed plan groups)
      (fun e => if e.is_store = true then pure () else .raise e)
    release
    .raise (operation_error "runtime.teardown.failed"
      (worded "could not tear down Mininet/OVS run " [quoted info.id, ": ", e.text]) (some info.id)
      .unknown (legacy_cleanup plan))
  else
    .raise e

/-- `teardown` of a run of this process. -/
def teardown_run (run : MininetRun) : HostRoutine TeardownResult := do
  if run.info.state = .stopped then
    pure
      { run := run.info
        cleanup := run.info.cleanup
        operation := .succeeded
        effects := .unchanged
        already_stopped := run.info.cleanup.verified }
  else do
    (stopping run.info run.plan).handle (stopping_failed run.info run.plan)
    release
    set_info (stopped_info run.info run.plan) run.plan
    pure
      { run := stopped_info run.info run.plan
        cleanup := legacy_cleanup run.plan
        operation := .succeeded }

/-! ## Recovering -/

/-- The handlers around `acquire` in `_recover_persisted`. -/
def recover_locked_out (run_id : String) (e : RaisedError) : HostRoutine Unit :=
  if e.kind = .state_lock_held then do
    let existing ← read_state_for_error
    .raise (operation_error "runtime.run.active"
      "cannot recover a Mininet/OVS run while its owner is active"
      (some (existing.elim run_id fun record => record.run.id)))
  else if e.is_store = true then
    .raise (operation_error "runtime.state.failed"
      (worded "could not acquire Mininet/OVS runtime state: " [e.text]) (some run_id))
  else
    .raise e

/-- `_recover_persisted` without an active record. -/
def recover_stopped (run_id : String) : HostRoutine TeardownResult := do
  let record ← read_stopped
  match record with
  | none => .raise (unknown_run run_id)
  | some record =>
    if record.run.id = run_id then
      pure
        { run := record.run
          cleanup := record.run.cleanup
          operation := .succeeded
          effects := .unchanged
          already_stopped := record.run.cleanup.verified }
    else .raise (unknown_run run_id)

/-- `_recover_persisted` with one. -/
def recover_record (run_id : String) (record : PersistedRun) : HostRoutine TeardownResult :=
  if record.run.id = run_id then do
    host .plan_from_record
    host .recovery run_id
    host .clock
    let stopped := { stopped_info record.run record.plan with issue := none }
    write_stopped { run := stopped, plan := record.plan }
    clear
    pure { run := stopped, cleanup := stopped.cleanup, operation := .succeeded }
  else
    .raise (unknown_run run_id)

/-- The handlers of the body of `_recover_persisted`. -/
def recover_failed (run_id : String) (e : RaisedError) : HostRoutine TeardownResult :=
  if e.kind = .operation then .raise e
  else if e.is_exception = true then
    .raise (operation_error "runtime.recovery.failed"
      (worded "could not recover Mininet/OVS run " [quoted run_id, ": ", e.text]) (some run_id))
  else
    .raise e

def recover_persisted (run_id : String) : HostRoutine TeardownResult := do
  acquire.handle (recover_locked_out run_id)
  Routine.eventually
    (Routine.handle
      (do
        let record ← read
        match record with
        | none => recover_stopped run_id
        | some record => recover_record run_id record)
      (recover_failed run_id))
    release

def teardown (run_id : String) : HostRoutine TeardownResult := do
  let m ← memory
  match m.runs.lookup run_id with
  | none => recover_persisted run_id
  | some run => teardown_run run

end MininetOVSRuntime

end MininetAi
