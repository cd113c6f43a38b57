/-
The host of the Mininet/OVS runtime: what the runtime asks of it, and what that does
(`mininet_ai/substrates/mininet_ovs/runtime.py`, `mininet_ai/substrates/mininet_ovs/state.py`).

Every system call, file operation, Mininet operation and factory the runtime uses is a
step, which may raise anything; the answers are the environment's. A process has a lock
stream, a dictionary of runs and the locals of the call it is in, all of which a crash
takes away. The kernel gives its lock to one stream at a time.

The host also keeps count of what is left of each run, which no code reads: a network
that is being built leaves nodes and artifacts, a run that is handed over may leave
processes, and each cleanup operation that returns takes away what it removes.

Python 3.14 is the language: `Path.exists` is `False` when the system call fails.
-/
import MininetAi.Lib.Program
import MininetAi.Outcomes
import MininetAi.Specification.Models

set_option autoImplicit false

namespace MininetAi

/-! ## Exceptions -/

/-- The classes the runtime tells apart. -/
inductive ErrorKind where
  | file_not_found
  | not_empty
  | blocking_io
  | os_error
  | value_error
  | state_lock_held
  | state_store
  | operation
  | other
  | interrupt
  deriving DecidableEq

/-- An exception, with what `str` returns and the attributes of a `RuntimeOperationError`. -/
structure RaisedError where
  kind : ErrorKind
  text : String
  code : String := ""
  run_id : Option String := none
  effects : MutationEffects := .unknown
  cleanup : CleanupOutcome := .default

/-- `isinstance(error, OSError)`. -/
def RaisedError.is_os (e : RaisedError) : Bool :=
  e.kind = .file_not_found ∨ e.kind = .not_empty ∨ e.kind = .blocking_io ∨ e.kind = .os_error

/-- `isinstance(error, StateStoreError)`. -/
def RaisedError.is_store (e : RaisedError) : Bool := e.kind = .state_lock_held ∨ e.kind = .state_store

/-- `isinstance(error, Exception)`. -/
def RaisedError.is_exception (e : RaisedError) : Bool := e.kind ≠ .interrupt

/-- What the host raises: the errors of the store are the store's own. -/
structure HostError extends RaisedError where
  not_store : toRaisedError.is_store = false

/-! ## Records -/

inductive RunState where
  | deploying
  | running
  | stopping
  | stopped
  | failed
  deriving DecidableEq

structure RunInfo where
  id : String
  state : RunState
  issue : Option RuntimeIssue := none
  operation : OperationOutcome := .unknown
  effects : MutationEffects := .unknown
  cleanup : CleanupOutcome := .default

structure PersistedRun where
  run : RunInfo
  plan : DeploymentPlan
  process_groups : List ℕ := []

structure PersistedStoppedRun where
  run : RunInfo
  plan : DeploymentPlan

/-- What a temporary file holds, and which file it replaces. -/
inductive StoredRecord where
  | active (record : PersistedRun)
  | stopped (record : PersistedStoppedRun)

structure MininetRun where
  info : RunInfo
  plan : DeploymentPlan

/-- What may be left of a run. -/
inductive Residue where
  | nodes
  | artifacts
  | processes
  deriving DecidableEq

/-! ## Steps -/

/-- The places that write a record. -/
inductive Writing where
  | claim
  | process_groups
  | running
  | rollback_failed
  | stopping
  | teardown_failed
  | stopped
  deriving DecidableEq

/-- The steps of `_write_json`. -/
inductive WriteStep where
  | make_directory
  | directory_mode
  | make_temporary
  | temporary_mode
  | write_temporary
  | replace
  | sync_directory
  | unlink_temporary
  deriving DecidableEq

/-- The checks that answer yes or no. -/
inductive HostQuestion where
  | substrate_matches
  | resources_valid
  | interfaces_free
  | resources_operational
  | network_truth
  deriving DecidableEq

/-- The process groups that are listed: of the network, or of a run that is written. -/
inductive HostListing where
  | network
  | owned (w : Writing)
  deriving DecidableEq

inductive HostStep where
  | clock
  | make_lock_directory
  | open_lock
  | lock_mode
  | flock
  | unlock
  | state_exists
  | read_state
  | stopped_exists
  | read_stopped
  | unlink_stopped
  | remove_stopped_directory
  | unlink_temporaries
  | unlink_state
  | remove_directory
  | write (w : Writing) (s : WriteStep)
  | asks (q : HostQuestion)
  | lists (g : HostListing)
  | run_id
  | bindings
  | create_network
  | build_network
  | start_network
  | observation_factory
  | action_factory
  | close_actions
  | stop_network
  | remove_owned_artifacts
  | plan_from_record
  | recovery
  deriving DecidableEq

/-- What a step returns. -/
def HostStep.Value : HostStep → Type
  | state_exists | stopped_exists | asks _ => Bool
  | run_id => String
  | lists _ => List ℕ
  | read_state => PersistedRun
  | read_stopped => PersistedStoppedRun
  | _ => Unit

/-- What the environment answers: an exception, after the effect of the step when `late`,
or values. -/
structure Answer where
  raised : Option HostError := none
  late : Bool := false
  yes : Bool := true
  name : String := "mn-1"
  pids : List ℕ := []

/-- The locals of `deploy` that its handler reads. -/
structure DeployLocals where
  info : RunInfo := ⟨"", .deploying, none, .unknown, .unknown, .default⟩
  mutation_started : Bool := false
  network : Bool := false
  process_groups : List ℕ := []

/-- The memory of a process. -/
structure Memory where
  /-- There is a lock stream. -/
  acquired : Bool := false
  runs : Dict String MininetRun := ∅
  temporary : Option StoredRecord := none
  deploying : DeployLocals := {}

/-- The host under the processes `κ`. -/
structure Host (κ : Type) where
  record : Option PersistedRun := none
  stopped : Option PersistedStoppedRun := none
  lock : Option κ := none
  left : String → List Residue := fun _ => []

/-- What a program asks for: a step, on behalf of a run, its own memory, or to have noted
that a run is handed over. -/
inductive HostOp where
  | host (s : HostStep) (run : String)
  | get
  | put (m : Memory)
  | hand_over (run : String)

def HostOp.Reply : HostOp → Type
  | host s _ => Except RaisedError s.Value
  | get => Memory
  | put _ => Unit
  | hand_over _ => Unit

/-- The routines of the runtime. -/
abbrev HostRoutine (α : Type) : Type := Routine HostOp HostOp.Reply RaisedError α

/-! ## Effects -/

section Effects

variable {κ : Type}

/-- `BlockingIOError`. -/
def would_block : RaisedError := { kind := .blocking_io, text := "Resource temporarily unavailable" }

/-- `FileNotFoundError`. -/
def no_such_file : RaisedError := { kind := .file_not_found, text := "No such file or directory" }

/-- A residue of a run goes. -/
def Host.remove (h : Host κ) (run : String) (r : Residue) : Host κ :=
  { h with left := Function.update h.left run ((h.left run).filter (· ≠ r)) }

/-- A residue of a run may be there. -/
def Host.leave (h : Host κ) (run : String) (rs : List Residue) : Host κ :=
  { h with left := Function.update h.left run (rs ++ h.left run) }

/-- The kernel's lock changes hands. -/
def Host.set_lock (h : Host κ) (owner : Option κ) : Host κ := { h with lock := owner }

/-- The lock stream is there, or it is not. -/
def Memory.set_acquired (m : Memory) (b : Bool) : Memory := { m with acquired := b }

/-- A record takes the place of its file. -/
def Host.store (h : Host κ) : Option StoredRecord → Host κ
  | none => h
  | some (.active record) => { h with record := some record }
  | some (.stopped record) => { h with stopped := some record }

variable [DecidableEq κ]

/-- The kernel's lock is another stream's. -/
def Host.locked_out (h : Host κ) (i : κ) : Bool := h.lock.any fun j => j ≠ i

/-- A step returns the value unless the answer raises. -/
def Answer.reply {α : Type} (a : Answer) (value : Except RaisedError α) : Except RaisedError α :=
  a.raised.elim value fun e => .error e.toRaisedError

/-- How a step ends: the answer is the environment's, but a lock that is another's blocks,
dropping a stream that is not there does nothing, and a record is what the file holds. -/
def HostStep.outcome (i : κ) (h : Host κ) (m : Memory) (a : Answer) :
    (s : HostStep) → Except RaisedError s.Value
  | flock => a.reply (if h.locked_out i = true then .error would_block else .ok ())
  | unlock => if m.acquired = true then a.reply (.ok ()) else .ok ()
  | state_exists => a.reply (.ok (h.record.isSome && a.yes))
  | stopped_exists => a.reply (.ok (h.stopped.isSome && a.yes))
  | read_state => a.reply (h.record.elim (.error no_such_file) .ok)
  | read_stopped => a.reply (h.stopped.elim (.error no_such_file) .ok)
  | asks _ => a.reply (.ok a.yes)
  | run_id => a.reply (.ok a.name)
  | lists _ => a.reply (.ok a.pids)
  | clock | make_lock_directory | open_lock | lock_mode | unlink_stopped
  | remove_stopped_directory | unlink_temporaries | unlink_state | remove_directory | write _ _
  | bindings | create_network | build_network | start_network | observation_factory
  | action_factory | close_actions | stop_network | remove_owned_artifacts | plan_from_record
  | recovery => a.reply (.ok ())

/-- The step has had its effect. -/
def Answer.effective (a : Answer) : Bool := a.raised.isNone || a.late

/-- What a step does to the host and the memory of process `i`. -/
def HostStep.effect (i : κ) (run : String) (h : Host κ) (m : Memory) (a : Answer) :
    HostStep → Host κ × Memory
  | flock =>
    if a.raised.isSome || h.locked_out i then (h, m)
    else (h.set_lock (some i), m.set_acquired true)
  -- the stream is dropped before it is unlocked: the lock goes with it
  | unlock =>
    if m.acquired = true then (h.set_lock none, m.set_acquired false) else (h, m)
  | write _ .replace => (if a.effective = true then h.store m.temporary else h, m)
  | unlink_state => (if a.effective = true then { h with record := none } else h, m)
  | unlink_stopped => (if a.effective = true then { h with stopped := none } else h, m)
  | build_network => (h.leave run [.nodes, .artifacts], m)
  | close_actions => (if a.raised.isNone then h.remove run .processes else h, m)
  | stop_network => (if a.raised.isNone then h.remove run .nodes else h, m)
  | remove_owned_artifacts => (if a.raised.isNone then h.remove run .artifacts else h, m)
  | recovery =>
    (if a.raised.isNone then { h with left := Function.update h.left run [] } else h, m)
  | _ => (h, m)

omit [DecidableEq κ] in
theorem lock_of_ite {b : Bool} {h h' : Host κ} (heq : h'.lock = h.lock) :
    (if b = true then h' else h).lock = h.lock := by
  cases b with
  | true => exact heq
  | false => rfl

omit [DecidableEq κ] in
theorem Host.store_lock (h : Host κ) (c : Option StoredRecord) : (h.store c).lock = h.lock := by
  cases c with
  | none => rfl
  | some c => cases c <;> rfl

/-- Only `flock` and `unlock` change the memory and the lock. -/
theorem HostStep.effect_quiet (i : κ) {s : HostStep} (hflock : s ≠ .flock) (hunlock : s ≠ .unlock)
    (run : String) (h : Host κ) (m : Memory) (a : Answer) :
    (s.effect i run h m a).2 = m ∧ (s.effect i run h m a).1.lock = h.lock := by
  cases s with
  | flock => exact absurd rfl hflock
  | unlock => exact absurd rfl hunlock
  | write w s =>
    cases s with
    | replace => exact ⟨rfl, lock_of_ite (h.store_lock m.temporary)⟩
    | _ => exact ⟨rfl, rfl⟩
  | unlink_state => exact ⟨rfl, lock_of_ite rfl⟩
  | unlink_stopped => exact ⟨rfl, lock_of_ite rfl⟩
  | close_actions => exact ⟨rfl, lock_of_ite rfl⟩
  | stop_network => exact ⟨rfl, lock_of_ite rfl⟩
  | remove_owned_artifacts => exact ⟨rfl, lock_of_ite rfl⟩
  | recovery => exact ⟨rfl, lock_of_ite rfl⟩
  | _ => exact ⟨rfl, rfl⟩

/-- `flock` takes the lock when it is not another's. -/
theorem HostStep.flock_effect (i : κ) (run : String) (h : Host κ) (m : Memory) (a : Answer) :
    HostStep.flock.effect i run h m a = (h, m) ∨ h.locked_out i = false ∧
        HostStep.flock.effect i run h m a = (h.set_lock (some i), m.set_acquired true) := by
  unfold HostStep.effect
  by_cases hout : (a.raised.isSome || h.locked_out i) = true
  · exact Or.inl (if_pos hout)
  · refine Or.inr ⟨?_, if_neg hout⟩
    exact (Bool.or_eq_false_iff.mp ((Bool.not_eq_true _).mp hout)).2

/-- `unlock` gives back what the process has. -/
theorem HostStep.unlock_effect (i : κ) (run : String) (h : Host κ) (m : Memory) (a : Answer) :
    m.acquired = false ∧ HostStep.unlock.effect i run h m a = (h, m) ∨ m.acquired = true ∧
        HostStep.unlock.effect i run h m a = (h.set_lock none, m.set_acquired false) := by
  unfold HostStep.effect
  by_cases hacquired : m.acquired = true
  · exact Or.inr ⟨hacquired, if_pos hacquired⟩
  · exact Or.inl ⟨(Bool.not_eq_true _).mp hacquired, if_neg hacquired⟩

/-- An operation of process `i`. -/
def HostOp.act (i : κ) (a : Answer) : (o : HostOp) → Host κ × Memory → o.Reply × (Host κ × Memory)
  | host s run, (h, m) => (s.outcome i h m a, s.effect i run h m a)
  | get, (h, m) => (m, (h, m))
  -- the lock stream is only the steps' to change
  | put m', (h, m) => ((), (h, m'.set_acquired m.acquired))
  | hand_over run, (h, m) => ((), (h.leave run [.processes], m))

end Effects

/-! ## What routines are made of -/

/-- One step. -/
def host (s : HostStep) (run : String := "") : HostRoutine s.Value :=
  Program.perform (.host s run) Program.done

/-- A check. -/
def asks (q : HostQuestion) : HostRoutine Bool := host (.asks q)

/-- A listing of process groups. -/
def lists (g : HostListing) : HostRoutine (List ℕ) := host (.lists g)

/-- Steps that are done for their effects. -/
def perform_all (run : String) : List HostStep → HostRoutine Unit
  | [] => pure ()
  | s :: rest => do
      let _ ← host s run
      perform_all run rest

def memory : HostRoutine Memory := Program.perform .get fun m => Program.done (.ok m)

/-- A new memory. -/
def remember (m : Memory) : HostRoutine Unit := Program.perform (.put m) fun _ => Program.done (.ok ())

/-- The run is the caller's: its actions may start processes from here on. -/
def hand_over (run : String) : HostRoutine Unit :=
  Program.perform (.hand_over run) fun _ => Program.done (.ok ())

end MininetAi
