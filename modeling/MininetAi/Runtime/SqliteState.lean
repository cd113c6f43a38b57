/-
The two adapters of the shared-state store (`InMemorySharedStateStore` and
`SQLiteSharedStateStore` in `mininet_ai/runtime/state.py`), each with its whole row.

The in-memory table of `Runtime/State.lean` gets the fifth component of its rows here,
the time of the last write; without it this is the store of that file. The SQLite
adapter keeps one table with the primary key `(namespace, key)`, reads and writes it
row by row inside a transaction, and stores values and times as text.

What JSON, the clock and the validation of entries do with texts is a parameter
(`TextCodec`). The times a call of `apply` reads from the clock come with the call: the
clock is read once for every mutation that has passed its checks.
-/
import MininetAi.Lib.Connection
import MininetAi.Runtime.State

set_option autoImplicit false

namespace MininetAi

variable {Time : Type}

/-! ## Entries and failures -/

/-- One row of the in-memory table. -/
structure StampedRow (Time : Type) extends StoredEntry where
  updated_at : Time

abbrev StampedEntries (Time : Type) := Dict (String × String) (StampedRow Time)

/-- `SharedStateEntry`. -/
structure StampedEntry (Time : Type) extends SharedStateEntry where
  updated_at : Time

/-- `SharedStateSnapshot`. -/
structure StampedSnapshot (Time : Type) where
  allowed_scopes : List SharedScope
  run : Dict String (StampedEntry Time)
  deployment : Dict String (StampedEntry Time)

/-- What a call raises. -/
inductive StoreFailure where
  | state (error : SharedStateError)
  /-- A `ValidationError` that no handler meets. -/
  | validation
  /-- A `TypeError` that no handler meets. -/
  | type_error
  /-- An `OverflowError`: the integer does not fit its column. -/
  | overflow
  deriving DecidableEq

/-- The validation of `SharedStateEntry`: `version` is at least one and `updatedBy` is
not empty. -/
def shared_state_entry (value : JsonValue) (version : ℕ) (updated_by : String)
    (updated_at : Time) : Option (StampedEntry Time) :=
  if h : 0 < version then
    if updated_by = "" then none
    else some
      { value := value, version := version, updated_by := updated_by, version_pos := h
        updated_at := updated_at }
  else none

/-- The snapshot of both scopes, read one after the other. -/
def snapshot_of (access : SharedStateAccess)
    (read : SharedScope → Except StoreFailure (Dict String (StampedEntry Time))) :
    Except StoreFailure (StampedSnapshot Time) := do
  let run ← read .run
  let deployment ← read .deployment
  pure
    { allowed_scopes := [SharedScope.run, .deployment].filter fun scope =>
        (access.limits scope).isSome
      run := run
      deployment := deployment }

def entry_missing (update : SharedStateUpdate) : SharedStateError where
  message := "shared-state entry " ++ update.scope.text ++ ":" ++ update.key ++ " does not exist"
  code := "state.entry.missing"
  conflict := true

def capacity_exceeded (update : SharedStateUpdate) : SharedStateError where
  message := update.scope.text ++ " shared state reached its entry limit"
  code := "state.capacity.exceeded"
  conflict := true

/-! ## `InMemorySharedStateStore` -/

/-- The row if it is not deleted. -/
def StampedRow.live (row : StampedRow Time) : Option (StampedRow Time) :=
  if row.deleted then none else some row

/-- The entry a snapshot builds from a row. -/
def StampedRow.entry (row : StampedRow Time) : Except StoreFailure (StampedEntry Time) :=
  match shared_state_entry row.value row.version row.updated_by row.updated_at with
  | some entry => .ok entry
  | none => .error .validation

/-- `_scope_snapshot`; a scope outside `limits` is not read. -/
def memory_scope_snapshot (entries : StampedEntries Time) (access : SharedStateAccess)
    (scope : SharedScope) : Except StoreFailure (Dict String (StampedEntry Time)) :=
  match access.scope_namespace scope with
  | .error _ => .ok ∅
  | .ok ns => (entries.slice (· ≤ ·) ns StampedRow.live).read_values StampedRow.entry

/-- The number of live rows of a namespace. -/
def memory_active (entries : StampedEntries Time) (ns : String) : ℕ :=
  entries.entries.countP fun e => e.1.1 = ns ∧ e.2.deleted = false

/-- One iteration of `_apply_to`; `now` is what the clock says. -/
def memory_update (access : SharedStateAccess) (now : Time) (entries : StampedEntries Time)
    (update : SharedStateUpdate) :
    Except SharedStateError (StampedEntries Time × SharedStateChange) := do
  let ns ← access.scope_namespace update.scope
  let current := (entries.lookup (ns, update.key)).map StampedRow.toStoredEntry
  let deleted := current.elim true StoredEntry.deleted
  check_expected update (current.map StoredEntry.version) deleted
  if update.operation = .delete ∧ deleted then throw (entry_missing update)
  else if update.operation = .set ∧ deleted ∧
      (access.limits update.scope).any (fun limit => limit ≤ memory_active entries ns) then
    throw (capacity_exceeded update)
  else
    let written := written_entry access update current
    pure (entries.insert (ns, update.key) ⟨written, now⟩, reported_change update written)

/-- `_apply_to`. -/
def memory_updates (access : SharedStateAccess) (now : ℕ → Time) :
    StampedEntries Time → List SharedStateUpdate →
      Except SharedStateError (StampedEntries Time × List SharedStateChange)
  | entries, [] => .ok (entries, [])
  | entries, update :: updates => do
      let (entries, change) ← memory_update access (now updates.length) entries update
      let (entries, changes) ← memory_updates access now entries updates
      pure (entries, change :: changes)

/-- `apply`: what it returns or raises, and the table after it. -/
def memory_apply (access : SharedStateAccess) (now : ℕ → Time) (entries : StampedEntries Time)
    (updates : List SharedStateUpdate) :
    Except SharedStateError (List SharedStateChange) × StampedEntries Time :=
  match validate_updates access [] updates with
  | .error e => (.error e, entries)
  | .ok () => match memory_updates access now entries updates with
    | .error e => (.error e, entries)
    | .ok (staged, changes) => (.ok changes, staged)

/-! ## `SQLiteSharedStateStore` -/

/-- The columns of a row that are read back. -/
structure SqliteColumns where
  value_json : Option String
  version : ℕ
  deleted : ℕ
  updated_by : String
  updated_at : String

/-- One row of `shared_state` below its primary key. -/
structure SqliteRow extends SqliteColumns where
  scope : SharedScope

/-- `shared_state` by its primary key `(namespace, key)`. -/
abbrev SqliteTable := Dict (String × String) SqliteRow

/-- What is done with texts: `json.dumps` and `json.loads`, `isoformat` and the
validation that reads it back. An error is the text of what was raised. -/
structure TextCodec (Time : Type) where
  dumps : JsonValue → Except String String
  loads : String → Except String JsonValue
  isoformat : Time → String
  parse_time : String → Except String Time
  /-- The text of the error of an entry that is not valid. -/
  invalid_entry : String

/-- What `snapshot` makes of an error. -/
def read_failed (text : String) : StoreFailure :=
  .state { message := "could not read shared state: " ++ text, code := "state.read.failed" }

/-- What `apply` makes of an error. -/
def write_failed (text : String) : StoreFailure :=
  .state { message := "could not update shared state: " ++ text, code := "state.write.failed" }

/-- The largest integer of a column. -/
def column_max : ℕ := 2 ^ 63 - 1

/-- `WHERE deleted = 0`. -/
def SqliteColumns.live (row : SqliteColumns) : Option SqliteColumns :=
  if row.deleted = 0 then some row else none

/-- The entry a snapshot builds from a row. -/
def SqliteColumns.entry (codec : TextCodec Time) (row : SqliteColumns) :
    Except StoreFailure (StampedEntry Time) :=
  match row.value_json with
  | none => .error .type_error
  | some text => match codec.loads text, codec.parse_time row.updated_at with
    | .ok value, .ok updated_at =>
      match shared_state_entry value row.version row.updated_by updated_at with
      | some entry => .ok entry
      | none => .error (read_failed codec.invalid_entry)
    | .error e, _ => .error (read_failed e)
    | .ok _, .error e => .error (read_failed e)

/-- The rows of one scope, in the order of their keys, as entries. -/
def sqlite_scope_snapshot (codec : TextCodec Time) (table : SqliteTable)
    (access : SharedStateAccess) (scope : SharedScope) :
    Except StoreFailure (Dict String (StampedEntry Time)) :=
  match access.scope_namespace scope with
  | .error _ => .ok ∅
  | .ok ns =>
    (table.slice (· ≤ ·) ns (SqliteColumns.live ∘ SqliteRow.toSqliteColumns)).read_values
      (SqliteColumns.entry codec)

/-- `SELECT COUNT(*) ... WHERE namespace = ? AND deleted = 0`. -/
def sqlite_active (table : SqliteTable) (ns : String) : ℕ :=
  table.entries.countP fun e => e.1.1 = ns ∧ e.2.deleted = 0

/-- `json.dumps` of the value of a set. -/
def value_text (codec : TextCodec Time) (update : SharedStateUpdate) :
    Except StoreFailure (Option String) :=
  match update.operation with
  | .delete => .ok none
  | .set => match codec.dumps update.value with
    | .ok text => .ok (some text)
    | .error e => .error (write_failed e)

/-- The row of the `INSERT`; `previous` is `version or 0`. -/
def sqlite_row (codec : TextCodec Time) (access : SharedStateAccess) (now : Time)
    (update : SharedStateUpdate) (previous : ℕ) (value_json : Option String) : SqliteRow where
  scope := update.scope
  value_json := value_json
  version := previous + 1
  deleted := if update.operation = .delete then 1 else 0
  updated_by := access.agent_id
  updated_at := codec.isoformat now

/-- The change reported after it. -/
def sqlite_change (update : SharedStateUpdate) (previous : ℕ) : SharedStateChange where
  scope := update.scope
  operation := update.operation
  key := update.key
  value := if update.operation = .delete then none else some update.value
  version := previous + 1
  version_pos := Nat.succ_pos _

/-- One iteration of the loop of `apply`. The `INSERT` sets every column, and on a
conflict its `UPDATE` sets every column that is not of the key. -/
def sqlite_update (codec : TextCodec Time) (access : SharedStateAccess) (now : Time)
    (connection : Connection SqliteTable) (update : SharedStateUpdate) :
    Except StoreFailure (Connection SqliteTable × SharedStateChange) := do
  let ns ← (access.scope_namespace update.scope).mapError .state
  let row := connection.view.lookup (ns, update.key)
  let version := row.map fun row => row.version
  let deleted := row.elim true fun row => row.deleted ≠ 0
  (check_expected update version deleted).mapError .state
  if update.operation = .delete ∧ deleted then throw (.state (entry_missing update))
  else if update.operation = .set ∧ deleted ∧
      (access.limits update.scope).any (fun limit => limit ≤ sqlite_active connection.view ns) then
    throw (.state (capacity_exceeded update))
  else
    let previous := version.getD 0
    let value_json ← value_text codec update
    if column_max < previous + 1 then throw .overflow
    else
      pure
        (connection.write
          (AList.insert (ns, update.key) (sqlite_row codec access now update previous value_json)),
        sqlite_change update previous)

/-- The loop of `apply`: the connection it leaves, and the changes or what it raises. -/
def sqlite_updates (codec : TextCodec Time) (access : SharedStateAccess) (now : ℕ → Time) :
    Connection SqliteTable → List SharedStateUpdate →
      Connection SqliteTable × Except StoreFailure (List SharedStateChange)
  | connection, [] => (connection, .ok [])
  | connection, update :: updates =>
    match sqlite_update codec access (now updates.length) connection update with
    | .error e => (connection, .error e)
    | .ok (connection, change) =>
      let (connection, result) := sqlite_updates codec access now connection updates
      (connection, result.map (change :: ·))

/-- `apply`: what it returns or raises, and the connection after it. What the handlers
do not name leaves the transaction open. -/
def sqlite_apply (codec : TextCodec Time) (access : SharedStateAccess) (now : ℕ → Time)
    (connection : Connection SqliteTable) (updates : List SharedStateUpdate) :
    Except StoreFailure (List SharedStateChange) × Connection SqliteTable :=
  match validate_updates access [] updates with
  | .error e => (.error (.state e), connection)
  | .ok () => match connection.begin_immediate with
    | none =>
      (.error (write_failed "cannot start a transaction within a transaction"),
        connection.rollback)
    | some connection => match sqlite_updates codec access now connection updates with
      | (connection, .ok changes) => (.ok changes, connection.commit)
      | (connection, .error (.state e)) => (.error (.state e), connection.rollback)
      | (connection, .error e) => (.error e, connection)

end MininetAi
