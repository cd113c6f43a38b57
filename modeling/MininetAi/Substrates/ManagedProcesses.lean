/-
The processes that actions start on the hosts of a network (`_start_process`,
`_stop_process`, `_terminate`, `close`, `owned_pids` and `release_pids` of
`mininet_ai/substrates/mininet_ovs/actions.py`).

A process that is started leads a session and a group of its own. It and its descendants
exit, fork, change their groups and ignore signals as they like, between any two
operations of the code; only a signal that kills ends them. A process that has exited
keeps its pid until it is waited for: `poll` and `wait` do that for a leader, somebody
else for its descendants. A pid is not used twice.

How often a loop finds its deadline ahead is the environment's answer, and what is slept
in between is part of what the others do between two operations.
-/
import MininetAi.Lib.Conduct
import MininetAi.Lib.OrderedDict
import MininetAi.Substrates.FakeRuntime
import MininetAi.Substrates.NetworkActions

set_option autoImplicit false

namespace MininetAi

/-! ## The operating system -/

/-- A process of the host. -/
structure HostProcess where
  group : ℕ
  /-- The status of a process that has exited and was not waited for. -/
  status : Option ℤ := none

/-- A `_ManagedProcess`, with the pid of its `Popen` object. -/
structure ManagedProcess where
  host : String
  pid : ℕ
  deriving DecidableEq

/-- `ProcessLookupError` and `PermissionError`. -/
inductive OsFault where
  | no_process
  | not_permitted
  deriving DecidableEq

/-- `str(error)`. -/
def OsFault.text : OsFault → String
  | .no_process => "[Errno 3] No such process"
  | .not_permitted => "[Errno 1] Operation not permitted"

inductive ProcessSignal where
  | probe
  | term
  | kill
  deriving DecidableEq

/-- The processes of the host, and the registry of the actions. -/
structure ProcessHost where
  processes : ℕ → Option HostProcess := fun _ => none
  next_pid : ℕ := 1
  /-- The group of the code itself. -/
  own_group : ℕ := 0
  /-- The `returncode` of the processes that were waited for. -/
  returncode : ℕ → Option ℤ := fun _ => none
  /-- `_processes`. -/
  registry : List (String × ManagedProcess) := []
  /-- Every process that was started, which no code reads. -/
  children : List ℕ := []
  /-- The starts that were registered, the newest last, which no code reads. -/
  started : List (String × ℕ) := []
  /-- The signals that were sent, to groups and to leaders, which no code reads. -/
  signals : List (ℕ × ProcessSignal) := []

namespace ProcessHost

/-- A process runs. -/
def runs (w : ProcessHost) (pid : ℕ) : Bool := (w.processes pid).any fun p => p.status.isNone

/-- The processes of a group, with those that were not waited for. -/
def members (w : ProcessHost) (group : ℕ) : List ℕ :=
  (List.range w.next_pid).filter fun pid => (w.processes pid).any fun p => p.group = group

/-- A process of a group is alive. -/
def alive (w : ProcessHost) (group : ℕ) : Bool := (w.members group).any w.runs

/-- The processes that meet a condition exit, if they run. -/
def ended (w : ProcessHost) (which : ℕ → HostProcess → Bool) (status : ℤ) : ProcessHost :=
  { w with
    processes := fun pid => (w.processes pid).map fun p =>
      if which pid p then { p with status := some (p.status.getD status) } else p }

/-- A leader that has exited is waited for. -/
def waited (w : ProcessHost) (pid : ℕ) : Option ℤ × ProcessHost :=
  match w.returncode pid with
  | some code => (some code, w)
  | none => match (w.processes pid).bind HostProcess.status with
    | none => (none, w)
    | some code =>
      (some code, { w with
          processes := Function.update w.processes pid none
          returncode := Function.update w.returncode pid (some code) })

end ProcessHost

/-- What the processes of the host do by themselves. -/
inductive ProcessMove where
  | exit (pid : ℕ) (status : ℤ)
  | fork (pid : ℕ)
  | reap (pid : ℕ)
  | regroup (pid group : ℕ)

/-- A leader waits for the code, and a session leader keeps its group. A group is joined
while it has a process that is alive. -/
def ProcessHost.move (w : ProcessHost) : ProcessMove → ProcessHost
  | .exit pid status => w.ended (fun other _ => other = pid) status
  | .fork pid => match w.processes pid with
    | some ⟨group, none⟩ =>
      { w with
        processes := Function.update w.processes w.next_pid (some ⟨group, none⟩)
        next_pid := w.next_pid + 1 }
    | _ => w
  | .reap pid =>
    if pid ∉ w.children ∧ w.runs pid = false then
      { w with processes := Function.update w.processes pid none }
    else w
  | .regroup pid group =>
    if pid ∉ w.children ∧ w.runs pid = true ∧ (group = pid ∨ w.alive group = true) then
      { w with processes := Function.update w.processes pid (some ⟨group, none⟩) }
    else w

/-- Any number of moves. -/
def ProcessHost.moved (w : ProcessHost) (moves : List ProcessMove) : ProcessHost :=
  moves.foldl ProcessHost.move w

/-! ## Operations -/

/-- What the code asks for. -/
inductive ProcessOp where
  | lookup (id : String)
  | entries
  | register (id : String) (managed : ManagedProcess)
  | unregister (id : String)
  | clear
  | popen (host command : String) (arguments : List String)
  | poll (pid : ℕ)
  /-- A `poll` whose answer nothing reads. -/
  | collect (pid : ℕ)
  | wait (pid : ℕ) (timeout : ℚ)
  | returncode (pid : ℕ)
  | getpgid (pid : ℕ)
  | getpgrp
  | send (pid : ℕ) (signal : ProcessSignal)
  | killpg (group : ℕ) (signal : ProcessSignal)
  /-- How often the deadline is found ahead. -/
  | deadline (timeout : ℚ)

/-- The replies. -/
abbrev ProcessOp.Reply : ProcessOp → Type
  | .lookup _ => Option ManagedProcess
  | .entries => List (String × ManagedProcess)
  | .register _ _ => Unit
  | .unregister _ => Unit
  | .clear => Unit
  | .popen _ _ _ => Except String ℕ
  | .poll _ => Option ℤ
  | .collect _ => Unit
  | .wait _ _ => Option ℤ
  | .returncode _ => Option ℤ
  | .getpgid _ => Except OsFault ℕ
  | .getpgrp => ℕ
  | .send _ _ => Except OsFault Unit
  | .killpg _ _ => Except OsFault Unit
  | .deadline _ => ℕ

/-- What the environment answers. -/
structure ProcessAnswer where
  /-- Why no process is started. -/
  refusal : Option String := none
  /-- A signal is not permitted. -/
  denied : Bool := false
  rounds : ℕ := 0

/-- `os.killpg`. -/
def ProcessHost.killpg (w : ProcessHost) (group : ℕ) (signal : ProcessSignal) (denied : Bool) :
    Except OsFault Unit × ProcessHost :=
  if w.members group = [] then (.error .no_process, w)
  else if denied = true then (.error .not_permitted, w)
  else match signal with
    | .probe => (.ok (), w)
    | .term => (.ok (), { w with signals := w.signals ++ [(group, .term)] })
    | .kill =>
      (.ok (), { w.ended (fun _ p => p.group = group) (-9) with
        signals := w.signals ++ [(group, .kill)] })

/-- `Popen.send_signal`, which waits for a process that has exited. -/
def ProcessHost.send (w : ProcessHost) (pid : ℕ) (signal : ProcessSignal) (denied : Bool) :
    Except OsFault Unit × ProcessHost :=
  match w.waited pid with
  | (some _, w) => (.ok (), w)
  | (none, w) =>
    if denied = true then (.error .not_permitted, w)
    else match signal with
      | .kill =>
        (.ok (), { w.ended (fun other _ => other = pid) (-9) with
          signals := w.signals ++ [(pid, .kill)] })
      | signal => (.ok (), { w with signals := w.signals ++ [(pid, signal)] })

/-- What the operations do. -/
def ProcessOp.act : (o : ProcessOp) → ProcessAnswer → ProcessHost → o.Reply × ProcessHost
  | .lookup id, _, w => (w.registry.lookup id, w)
  | .entries, _, w => (w.registry, w)
  | .register id managed, _, w =>
    ((), { w with
      registry := dict_set id managed w.registry
      started := w.started ++ [(id, managed.pid)] })
  | .unregister id, _, w => ((), { w with registry := dict_del id w.registry })
  | .clear, _, w => ((), { w with registry := [] })
  | .popen _ _ _, a, w => match a.refusal with
    | some text => (.error text, w)
    | none =>
      (.ok w.next_pid, { w with
          processes := Function.update w.processes w.next_pid (some ⟨w.next_pid, none⟩)
          next_pid := w.next_pid + 1
          children := w.children ++ [w.next_pid] })
  | .poll pid, _, w => w.waited pid
  | .collect pid, _, w => ((), (w.waited pid).2)
  | .wait pid _, _, w => w.waited pid
  | .returncode pid, _, w => (w.returncode pid, w)
  | .getpgid pid, _, w => match w.processes pid with
    | none => (.error .no_process, w)
    | some p => (.ok p.group, w)
  | .getpgrp, _, w => (w.own_group, w)
  | .send pid signal, a, w => w.send pid signal a.denied
  | .killpg group signal, a, w => w.killpg group signal a.denied
  | .deadline _, a, w => (a.rounds, w)

/-! ## Stopping a process -/

/-- What the code raises: an `ActionExecutionError`, a `TimeoutExpired` with the process
group that is known by then, an error of the operating system, or a `KeyError`. -/
inductive ProcessRaised where
  | action (error : ActionExecutionError)
  | timeout (process_group : Option ℕ)
  | os (fault : OsFault)
  | missing (id : String)

/-- A routine of the actions. -/
abbrev ProcessRoutine := Routine ProcessOp ProcessOp.Reply ProcessRaised

open Routine

/-- One operation. -/
def ask_host (o : ProcessOp) : ProcessRoutine o.Reply := Routine.lift (Program.ask o)

/-- The end of an operation that may fail. -/
def settled : Except OsFault Unit → ProcessRoutine Unit
  | .ok () => pure ()
  | .error fault => raise (.os fault)

/-- A failure while an action is executed. -/
def action_failed (message : String) : ProcessRaised := .action ⟨"runtime.action.failed", message, .failed⟩

/-- Something did not stop in time. -/
def did_not_stop (what : String) (number : ℕ) : ProcessRaised :=
  .action ⟨"runtime.action.timeout", worded what [toString number, " did not stop before the timeout"],
    .failed⟩

def process_group_exists (group : ℕ) : ProcessRoutine Bool := do
  match ← ask_host (.killpg group .probe) with
  | .ok () => pure true
  | .error .no_process => pure false
  | .error .not_permitted => pure true

/-- `process.wait`. -/
def wait (pid : ℕ) (timeout : ℚ) (expired : ProcessRaised) : ProcessRoutine Unit := do
  match ← ask_host (.wait pid timeout) with
  | some _ => pure ()
  | none => raise expired

/-- The loop after `SIGTERM`. -/
def await_group (pid group : ℕ) : ℕ → ProcessRoutine Unit
  | 0 => do
      if ← process_group_exists group then ask_host (.collect pid) else pure ()
  | rounds + 1 => do
      if ← process_group_exists group then do
        ask_host (.collect pid)
        await_group pid group rounds
      else pure ()

/-- The loop after `SIGKILL`. -/
def await_killed (group : ℕ) : ℕ → ProcessRoutine Unit
  | 0 => do
      if ← process_group_exists group then raise (did_not_stop "process group " group) else pure ()
  | rounds + 1 => do
      if ← process_group_exists group then await_killed group rounds else pure ()

/-- The process group is killed. -/
def kill_group (pid group : ℕ) (timeout : ℚ) : ProcessRoutine Unit := do
  settled (← ask_host (.killpg group .kill))
  wait pid timeout (did_not_stop "process group " group)
  await_killed group (← ask_host (.deadline timeout))

/-- The process group is stopped. -/
def stop_group (pid group : ℕ) (timeout : ℚ) : ProcessRoutine Unit := do
  settled (← ask_host (.killpg group .term))
  await_group pid group (← ask_host (.deadline timeout))
  if ← process_group_exists group then kill_group pid group timeout
  else ask_host (.collect pid)

/-- The `try` block of `_terminate`. -/
def terminate_body (pid : ℕ) (timeout : ℚ) : ProcessRoutine Unit := do
  match ← ask_host (.getpgid pid) with
  | .error .no_process => wait pid timeout (.timeout none)
  | .error fault => raise (.os fault)
  | .ok group => do
      if group = (← ask_host .getpgrp) then do
        settled (← ask_host (.send pid .term))
        wait pid timeout (.timeout (some group))
      else stop_group pid group timeout

/-- The signal after a `TimeoutExpired`. -/
def kill_expired (pid : ℕ) : Option ℕ → ProcessRoutine Unit
  | none => do settled (← ask_host (.send pid .kill))
  | some group => do
      if group = (← ask_host .getpgrp) then settled (← ask_host (.send pid .kill))
      else settled (← ask_host (.killpg group .kill))

/-- The `except` clauses of `_terminate`. -/
def terminate_handler (pid : ℕ) (timeout : ℚ) : ProcessRaised → ProcessRoutine Unit
  | .action error => raise (.action error)
  | .timeout process_group => do
      kill_expired pid process_group
      wait pid timeout (did_not_stop "process " pid)
  | .os fault =>
    raise (action_failed (worded "could not stop process " [toString pid, ": ", fault.text]))
  | .missing id =>
    raise (action_failed (worded "could not stop process " [toString pid, ": '", id, "'"]))

def terminate (pid : ℕ) (timeout : ℚ) : ProcessRoutine Unit :=
  (terminate_body pid timeout).handle (terminate_handler pid timeout)

/-- A leader that runs is terminated; whether it did. -/
def stop_running (pid : ℕ) (timeout : ℚ) : ProcessRoutine Bool := do
  match ← ask_host (.poll pid) with
  | none => do
      terminate pid timeout
      pure true
  | some _ => pure false

/-! ## Requests -/

/-- `_require_kind` of a host. -/
def NetworkPlan.require_host (plan : NetworkPlan) (target : String) : Except ActionExecutionError Unit :=
  match plan.resources target with
  | none => .error (unknown_resource target)
  | some (.switch _) => .error (wrong_kind target "host" "switch")
  | some (.link _) => .error (wrong_kind target "host" "link")
  | some (.other kind) => if kind = "host" then .ok () else .error (wrong_kind target "host" kind)

/-- A request has no other parameters. -/
def only_parameters (request : ActionRequest) (known : List String) : Except ActionExecutionError Unit :=
  let unknown := (request.parameters.map Prod.fst).filter fun name => !known.contains name
  if unknown ≠ [] then
    .error (.reject (worded "unknown process parameters: "
      [String.intercalate ", " (unknown.insertionSort (· ≤ ·))]))
  else .ok ()

/-- A text without a null character. -/
def plain_text : JsonValue → Option String
  | .str text => if text.toList.contains (Char.ofNat 0) then none else some text
  | _ => none

/-- `command` and `arguments`. -/
def requested_command (request : ActionRequest) : Except ActionExecutionError (String × List String) := do
  only_parameters request ["command", "arguments"]
  match (request.parameters.lookup "command").bind plain_text with
  | none => .error (.reject "command must be a non-empty string")
  | some command =>
    if command = "" then .error (.reject "command must be a non-empty string")
    else match (request.parameters.lookup "arguments").getD (.arr []) with
      | .arr values => match values.mapM plain_text with
        | some arguments => .ok (command, arguments)
        | none => .error (.reject "arguments must be a list of strings")
      | _ => .error (.reject "arguments must be a list of strings")

/-- `processId`. -/
def requested_process (request : ActionRequest) : Except ActionExecutionError String := do
  only_parameters request ["processId"]
  match request.parameters.lookup "processId" with
  | some (.str process_id) =>
    if process_id = "" then .error (.reject "processId must be a non-empty string") else .ok process_id
  | _ => .error (.reject "processId must be a non-empty string")

/-- A check that raises. -/
def checked {α : Type} : Except ActionExecutionError α → ProcessRoutine α
  | .ok a => pure a
  | .error error => raise (.action error)

/-! ## Actions -/

/-- The id is in use. -/
def already_in_use (id : String) : ProcessRaised :=
  .action (.reject (worded "process id '" [id, "' is already in use"]))

/-- A process is started and registered. -/
def start_command (request : ActionRequest) (command : String) (arguments : List String) :
    ProcessRoutine CapabilityOutcome := do
  match ← ask_host (.popen request.target command arguments) with
  | .error text => raise (action_failed
      (worded "could not start process on host '" [request.target, "': ", text]))
  | .ok pid => do
      match ← ask_host (.poll pid) with
      | some code => raise (action_failed
          (worded "process exited immediately with status " [toString code]))
      | none => do
          ask_host (.register request.id ⟨request.target, pid⟩)
          pure
            { changed := true
              output := [("processId", .str request.id), ("host", .str request.target),
                ("pid", .num pid), ("command", .arr ((command :: arguments).map .str))] }

def start_process (plan : NetworkPlan) (request : ActionRequest) : ProcessRoutine CapabilityOutcome := do
  checked (plan.require_host request.target)
  let command ← checked (requested_command request)
  match ← ask_host (.lookup request.id) with
  | some _ => raise (already_in_use request.id)
  | none =>
    if plan.node_is_live request.target = false then
      raise (action_failed (worded "live node '" [request.target, "' is unavailable"]))
    else start_command request command.1 command.2

/-- A registered process is stopped. -/
def stop_managed (request : ActionRequest) (process_id : String) (managed : ManagedProcess) :
    ProcessRoutine CapabilityOutcome := do
  if managed.host ≠ request.target then
    raise (.action (.reject
      (worded "process '" [process_id, "' belongs to host '", managed.host, "'"])))
  else do
    let running ← stop_running managed.pid request.timeout_seconds
    let returncode ← ask_host (.returncode managed.pid)
    pure
      { changed := running
        output := [("processId", .str process_id), ("host", .str request.target),
          ("returnCode", (returncode.map fun code => JsonValue.num code).getD .null)] }

def stop_process (plan : NetworkPlan) (request : ActionRequest) : ProcessRoutine CapabilityOutcome := do
  checked (plan.require_host request.target)
  let process_id ← checked (requested_process request)
  match ← ask_host (.lookup process_id) with
  | none => raise (.action
      ⟨"runtime.action.process-unknown", worded "unknown managed process '" [process_id, "'"], .rejected⟩)
  | some managed => stop_managed request process_id managed

/-- The loop of `owned_pids`. -/
def live_pids : List (String × ManagedProcess) → ProcessRoutine (List ℕ)
  | [] => pure []
  | entry :: entries => do
      let code ← ask_host (.poll entry.2.pid)
      let pids ← live_pids entries
      pure (if code.isNone = true then entry.2.pid :: pids else pids)

def owned_pids : ProcessRoutine (List ℕ) := do
  let pids ← live_pids (← ask_host .entries)
  pure (pids.insertionSort (· ≤ ·))

/-- The loop of `release_pids`. -/
def release_entries (requested : List ℕ) : List (String × ManagedProcess) → ProcessRoutine Unit
  | [] => pure ()
  | entry :: entries =>
    if requested.contains entry.2.pid = true then do
      let _ ← stop_running entry.2.pid 2
      ask_host (.unregister entry.1)
      release_entries requested entries
    else release_entries requested entries

def release_pids (pids : List ℕ) : ProcessRoutine Unit := do
  release_entries pids (← ask_host .entries)

/-- The loop of `close`. -/
def close_entries : List String → ProcessRoutine Unit
  | [] => pure ()
  | id :: ids => do
      match ← ask_host (.lookup id) with
      | none => raise (.missing id)
      | some managed => do
          let _ ← stop_running managed.pid 2
          close_entries ids

def close : ProcessRoutine Unit := do
  close_entries ((← ask_host .entries).map Prod.fst)
  ask_host .clear

end MininetAi
