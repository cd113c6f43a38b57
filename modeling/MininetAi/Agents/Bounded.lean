/-
The authority of a bounded decision (`DecisionAuthority` in
`mininet_ai/agents/bounded.py`) and the path of `OneShotAgentRuntime.execute`
that goes through it.

Any number of threads revoke, validate the response and execute actions on one
authority. An execution holds `_action_serial` from before its check until its
action is over, and `_lock` for the check alone; so a revocation can come while
an action runs, and prevents later starts only. The clock is read inside `_lock`
and never goes back.

The system keeps a log of what happened under `_lock` and of the calls of the
capability engine. What the component is for is a statement about that log: a
revocation is final, and no start is recorded behind it.
-/
import MininetAi.Lib.Log
import MininetAi.Lib.Transition
import MininetAi.Agents.Runtime

set_option autoImplicit false

namespace MininetAi

variable {ι T : Type}

/-! ## The authority -/

/-- The two reasons `revoke` accepts. -/
inductive RevocationReason where
  | cancelled
  | timeout
  deriving DecidableEq

/-- The reason a text names. -/
def RevocationReason.parse (reason : String) : Option RevocationReason :=
  if reason = "cancelled" then some .cancelled
  else if reason = "timeout" then some .timeout
  else none

/-- The text of a reason. -/
def RevocationReason.text : RevocationReason → String
  | .cancelled => "cancelled"
  | .timeout => "timeout"

/-- The fields of `DecisionAuthority` that `_lock` guards. -/
structure DecisionAuthority (T : Type) where
  deadline_tick : T
  revocation : Option RevocationReason := none
  action_starts : List T := []

namespace DecisionAuthority

/-- The section of `revoke`: the first reason stays. -/
def revoke (a : DecisionAuthority T) (reason : RevocationReason) : DecisionAuthority T × Bool :=
  if a.revocation ≠ none then (a, false)
  else ({ a with revocation := some reason }, true)

variable [LinearOrder T]

/-- The check of `execute_if_authorized`: whether the action may start now. -/
def start (a : DecisionAuthority T) (now : T) : DecisionAuthority T × Bool :=
  if a.revocation ≠ none then (a, false)
  else if a.deadline_tick ≤ now then ({ a with revocation := some .timeout }, false)
  else ({ a with action_starts := a.action_starts ++ [now] }, true)

def validate_response (a : DecisionAuthority T) (now : T) :
    DecisionAuthority T × Option RevocationReason :=
  if a.revocation ≠ none then (a, a.revocation)
  else if a.deadline_tick ≤ now then ({ a with revocation := some .timeout }, some .timeout)
  else (a, none)

end DecisionAuthority

/-- What `execute` reports for an action whose start was refused. -/
def refused_result (prepared : PreparedAgentInvocation) (proposal : ActionProposal)
    (revocation : Option RevocationReason) : ActionResult :=
  let reason := revocation.getD .timeout
  { run_id := prepared.context.run_id
    request_id := proposal.id
    status := .failed
    issue := some
      { code := if reason = .cancelled then "agent.bounded-decision.cancelled"
          else "agent.bounded-decision.timeout"
        message := "decision authority revoked before action start: " ++ reason.text
        target := some proposal.target } }

/-! ## Threads -/

/-- A call of `execute_if_authorized`, from `execute` or with another action. -/
inductive AuthorityCall where
  | execute (prepared : PreparedAgentInvocation) (proposal : ActionProposal)
  | other

/-- Where a call is. -/
inductive AuthorityStage where
  /-- Before `action_start_lock`. -/
  | arrived
  /-- Before `_action_serial`. -/
  | ready
  /-- Holds `_action_serial`, before the check. -/
  | checking
  /-- Holds `_action_serial`; the start is recorded. -/
  | started
  /-- Holds `_action_serial`; the action runs. -/
  | running
  /-- The start was refused; the reason is not yet read. -/
  | refused
  /-- The call is over. -/
  | returned (started : Bool) (result : Option ActionResult)
  /-- The action raised. -/
  | raised

/-- One call. -/
structure AuthorityThread where
  call : AuthorityCall
  stage : AuthorityStage

/-- What the log records. -/
inductive AuthorityRecord (ι T : Type) where
  | revoked (reason : RevocationReason)
  | started (i : ι) (tick : T)
  | called (i : ι)

/-- The authority, its locks and the calls on it. `log` is bookkeeping. -/
structure AuthorityState (ι T : Type) where
  authority : DecisionAuthority T
  clock : T
  action_start_lock : Option ι := none
  action_serial : Option ι := none
  thread : ι → Option AuthorityThread := fun _ => none
  log : List (AuthorityRecord ι T) := []

/-- The sections; `now` is a reading of the clock. -/
inductive AuthorityEvent (ι T : Type) where
  | revoke (reason : String)
  | validate_response (now : T)
  | arrive (i : ι) (call : AuthorityCall)
  | lock_start (i : ι)
  | lock_serial (i : ι)
  | start (i : ι) (now : T)
  | call (i : ι)
  | finish (i : ι) (result : ActionResult)
  | raise (i : ι)
  | report (i : ι)

section Steps

variable [DecidableEq ι]

/-- Call `i` moves to `stage`. -/
def AuthorityState.goto (s : AuthorityState ι T) (i : ι) (t : AuthorityThread)
    (stage : AuthorityStage) : AuthorityState ι T :=
  { s with thread := Function.update s.thread i (some { t with stage := stage }) }

/-- A change of the authority under `_lock`; a new revocation is logged. -/
def AuthorityState.update (s : AuthorityState ι T) (a : DecisionAuthority T) :
    AuthorityState ι T :=
  { s with
    authority := a
    log := if s.authority.revocation = none then
        s.log ++ (a.revocation.toList.map AuthorityRecord.revoked)
      else s.log }

/-- Call `i` leaves both locks. -/
def AuthorityState.unlock (s : AuthorityState ι T) (i : ι) : AuthorityState ι T :=
  { s with
    action_serial := if s.action_serial = some i then none else s.action_serial
    action_start_lock := if s.action_start_lock = some i then none else s.action_start_lock }

/-- The section of a known call. -/
def thread_section [LinearOrder T] (s : AuthorityState ι T) (t : AuthorityThread) :
    AuthorityEvent ι T → Option (AuthorityState ι T)
  | .lock_start i => match t.stage, t.call with
    | .arrived, .execute _ _ =>
      if s.action_start_lock = none then
        some (({ s with action_start_lock := some i } : AuthorityState ι T).goto i t .ready)
      else none
    | .arrived, .other => some (s.goto i t .ready)
    | _, _ => none
  | .lock_serial i => match t.stage with
    | .ready =>
      if s.action_serial = none then
        some (({ s with action_serial := some i } : AuthorityState ι T).goto i t .checking)
      else none
    | _ => none
  | .start i now => match t.stage with
    | .checking =>
      if s.clock ≤ now then
        let (a, started) := s.authority.start now
        let s' := ({ s with clock := now } : AuthorityState ι T).update a
        some (if started then
            ({ s' with log := s'.log ++ [.started i now] } : AuthorityState ι T).goto i t .started
          else ({ s' with action_serial := none } : AuthorityState ι T).goto i t .refused)
      else none
    | _ => none
  | .call i => match t.stage with
    | .started =>
      some (({ s with log := s.log ++ [.called i] } : AuthorityState ι T).goto i t .running)
    | _ => none
  | .finish i result => match t.stage with
    | .running => some ((s.unlock i).goto i t (.returned true (some result)))
    | _ => none
  | .raise i => match t.stage with
    | .running => some ((s.unlock i).goto i t .raised)
    | _ => none
  | .report i => match t.stage, t.call with
    | .refused, .execute prepared proposal =>
      some ((s.unlock i).goto i t
        (.returned false (some (refused_result prepared proposal s.authority.revocation))))
    | .refused, .other => some ((s.unlock i).goto i t (.returned false none))
    | _, _ => none
  | _ => none

/-- The call a section belongs to. -/
def AuthorityEvent.thread : AuthorityEvent ι T → Option ι
  | .revoke _ | .validate_response _ => none
  | .arrive i _ | .lock_start i | .lock_serial i | .start i _ | .call i | .finish i _ | .raise i
  | .report i => some i

/-- One authority under any calls. A reason that is none raises in `revoke` and
changes nothing. -/
def authority_system [LinearOrder T] : System (AuthorityState ι T) (AuthorityEvent ι T) where
  init s := ∃ deadline_tick clock,
    s = { authority := { deadline_tick := deadline_tick }, clock := clock }
  step s
    | .revoke reason => match RevocationReason.parse reason with
      | some reason => some (s.update (s.authority.revoke reason).1)
      | none => some s
    | .validate_response now =>
      if s.clock ≤ now then
        some (({ s with clock := now } : AuthorityState ι T).update
          (s.authority.validate_response now).1)
      else none
    | .arrive i call => match s.thread i with
      | none => some (s.goto i { call := call, stage := .arrived } .arrived)
      | some _ => none
    | e => do thread_section s (← s.thread (← e.thread)) e

end Steps

end MininetAi
