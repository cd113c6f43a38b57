/-
The store of the active run (`mininet_ai/substrates/mininet_ovs/state.py`).

The store turns the exceptions of the operating system into its own where its `try` blocks
stand: the steps of `_write_json` before the temporary file is there are outside of them,
and so is the removal of the temporary file in the handler.
-/
import MininetAi.Substrates.Host

set_option autoImplicit false

namespace MininetAi

def state_store_error (text : String) (cause : RaisedError) : RaisedError :=
  { kind := .state_store, text := worded text [": ", cause.text] }

def state_lock_held : RaisedError := { kind := .state_lock_held, text := "the Mininet runtime lock is held" }

namespace RunStateStore

/-! ## The lock -/

def acquired : HostRoutine Bool := do
  let m ← memory
  pure m.acquired

/-- The handler of `flock`. -/
def flock_failed (e : RaisedError) : HostRoutine Unit :=
  if e.kind = .blocking_io then .raise state_lock_held else .raise e

def acquire : HostRoutine Unit := do
  if ← acquired then
    pure ()
  else do
    perform_all "" [.make_lock_directory, .open_lock, .lock_mode]
    (host .flock).handle flock_failed

def release : HostRoutine Unit := host .unlock

def require_lock : HostRoutine Unit := do
  if ← acquired then
    pure ()
  else
    .raise { kind := .state_store, text := "the runtime state lock is not held" }

/-! ## Reading -/

/-- The handler of the readers. -/
def unreadable {α : Type} (text : String) (e : RaisedError) : HostRoutine α :=
  if e.is_os = true ∨ e.kind = .value_error then .raise (state_store_error text e) else .raise e

def read : HostRoutine (Option PersistedRun) := do
  let found : Bool ← host .state_exists
  if found then
    (some <$> host .read_state).handle (unreadable "invalid runtime state file")
  else
    pure none

def read_stopped : HostRoutine (Option PersistedStoppedRun) := do
  let found : Bool ← host .stopped_exists
  if found then
    (some <$> host .read_stopped).handle (unreadable "invalid stopped-run state file")
  else
    pure none

/-! ## Writing -/

/-- The handler of a missing file. -/
def missing_ok (e : RaisedError) : HostRoutine Unit :=
  if e.kind = .file_not_found then pure () else .raise e

/-- `unlink(missing_ok=True)`. -/
def unlink (s : HostStep) : HostRoutine Unit := (perform_all "" [s]).handle missing_ok

/-- The handler of `_write_json`. -/
def unwritable (w : Writing) (e : RaisedError) : HostRoutine Unit :=
  if e.is_os = true then do
    unlink (.write w .unlink_temporary)
    .raise (state_store_error "could not write runtime state" e)
  else
    .raise e

/-- The steps of `_write_json` before its `try`. -/
def unguarded_steps (w : Writing) : List HostStep :=
  [.write w .make_directory, .write w .directory_mode, .write w .make_temporary]

/-- The steps of its `try`. -/
def guarded_steps (w : Writing) : List HostStep :=
  [.write w .temporary_mode, .write w .write_temporary, .write w .replace, .write w .sync_directory]

/-- What is going to be in the temporary file. -/
def dump (content : StoredRecord) : HostRoutine Unit := do
  let m ← memory
  remember { m with temporary := some content }

def write_json (w : Writing) (content : StoredRecord) : HostRoutine Unit := do
  require_lock
  perform_all "" (unguarded_steps w)
  dump content
  (perform_all "" (guarded_steps w)).handle (unwritable w)

def write (w : Writing) (record : PersistedRun) : HostRoutine Unit := write_json w (.active record)

def write_stopped (record : PersistedStoppedRun) : HostRoutine Unit :=
  write_json .stopped (.stopped record)

/-! ## Clearing -/

/-- The handler of `clear` and `clear_stopped`. -/
def unremovable (text : String) (e : RaisedError) : HostRoutine Unit :=
  if e.kind = .file_not_found then pure ()
  else if e.is_os = true then
    (if e.kind = .not_empty then pure () else .raise (state_store_error text e))
  else .raise e

def clear_stopped : HostRoutine Unit := do
  require_lock
  Routine.handle
    (do
      unlink .unlink_stopped
      host .remove_stopped_directory)
    (unremovable "could not remove stopped-run state")

def clear : HostRoutine Unit := do
  require_lock
  Routine.handle
    (do
      host .unlink_temporaries
      unlink .unlink_state
      host .remove_directory)
    (unremovable "could not remove runtime state directory")

end RunStateStore

end MininetAi
