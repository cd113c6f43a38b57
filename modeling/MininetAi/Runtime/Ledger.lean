/-
The run ledger (`SQLiteRunLedger` in `mininet_ai/runtime/ledger.py`) and its read-only
reader (`read_ledger` in `mininet_ai/evidence_reader.py`).

The ledger keeps two tables in one SQLite file. `create_run` and `append` hold the lock of
the ledger from their first statement to their last, and one process at a time may write
to the file, so each call is one section; a statement of it may raise what SQLite raises.
Texts are made and validated by pydantic, `json` and `datetime`, which come as a parameter
(`LedgerCodec`). Integers are bound as SQLite integers, which have 64 bits.
-/
import MininetAi.Lib.Connection
import MininetAi.Lib.Numbered
import MininetAi.Lib.Results
import MininetAi.Sdk.Contracts

set_option autoImplicit false

namespace MininetAi

variable {Time : Type}

/-! ## Contracts -/

/-- `^sha256:[0-9a-f]{64}$`. -/
def is_digest (text : String) : Bool :=
  text.toList.take 7 = "sha256:".toList && (text.toList.drop 7).length = 64 &&
    (text.toList.drop 7).all fun c => c.isDigit || ('a' ≤ c && c ≤ 'f')

structure PluginManifest where
  group : String
  name : String
  version : Option String := none
  source_digest : Option String := none
  names_nonempty : group ≠ "" ∧ name ≠ ""
  version_nonempty : version ≠ some ""
  source_digest_shape : ∀ digest, source_digest = some digest → is_digest digest = true
  deriving DecidableEq

structure RunManifest (Time : Type) where
  run_id : String
  plan_digest : String
  substrate : String
  created_at : Time
  specification : Dict String JsonValue
  deployment_plan : Dict String JsonValue
  plugins : List PluginManifest := []
  configuration : Dict String JsonValue := ∅
  run_id_nonempty : run_id ≠ ""
  plan_digest_shape : is_digest plan_digest = true
  substrate_nonempty : substrate ≠ ""
  deriving DecidableEq

inductive LedgerRecordCategory where
  | run_lifecycle
  | runtime_event
  | audit_event
  | invocation
  | action
  | metric
  | state
  deriving DecidableEq

/-- `category.value`. -/
def LedgerRecordCategory.value : LedgerRecordCategory → String
  | run_lifecycle => "run.lifecycle"
  | runtime_event => "runtime.event"
  | audit_event => "audit.event"
  | invocation => "invocation"
  | action => "action"
  | metric => "metric"
  | state => "state"

structure LedgerEntry (Time : Type) where
  run_id : String
  category : LedgerRecordCategory
  type : String
  recorded_at : Time
  correlation_id : Option String := none
  causation_id : Option String := none
  data : Dict String JsonValue := ∅
  run_id_nonempty : run_id ≠ ""
  type_nonempty : type ≠ ""
  correlation_id_nonempty : correlation_id ≠ some ""
  causation_id_nonempty : causation_id ≠ some ""
  deriving DecidableEq

structure LedgerRecord (Time : Type) extends LedgerEntry Time where
  sequence : ℤ
  sequence_pos : 1 ≤ sequence
  deriving DecidableEq

/-- What is done with texts: an error is the text of the `ValueError`. -/
structure LedgerCodec (Time : Type) where
  /-- `datetime.isoformat`. -/
  isoformat : Time → String
  /-- `datetime.fromisoformat`. -/
  fromisoformat : String → Except String Time
  /-- A time in the JSON of pydantic. -/
  dump_time : Time → String
  /-- `model_dump_json(by_alias=True)`. -/
  dump_record : LedgerRecord Time → Except String String
  dump_manifest : RunManifest Time → Except String String
  /-- `model_validate_json`. -/
  validate_record : String → Except String (LedgerRecord Time)
  validate_manifest : String → Except String (RunManifest Time)
  /-- `json.loads`. -/
  loads : String → Except String JsonValue
  /-- The text of the error of a record that is not valid. -/
  invalid_record : String

/-- What pydantic has written it reads back. -/
structure LedgerCodec.RoundTrips (codec : LedgerCodec Time) : Prop where
  record : ∀ r text, codec.dump_record r = .ok text → codec.validate_record text = .ok r
  manifest : ∀ m text, codec.dump_manifest m = .ok text → codec.validate_manifest text = .ok m

/-! ## Failures -/

structure LedgerError where
  message : String
  code : String
  deriving DecidableEq

/-- What is raised: an error of the ledger, a `sqlite3.Error` (of which one is an
`IntegrityError`), a `ValueError`, or the `OverflowError` of an integer that does not fit. -/
inductive LedgerRaised where
  | ledger (e : LedgerError)
  | integrity (text : String)
  | sqlite (text : String)
  | value (text : String)
  | overflow
  deriving DecidableEq

def run_unknown (run_id : String) : LedgerError where
  message := "run '" ++ run_id ++ "' does not exist in the ledger"
  code := "ledger.run.unknown"

def run_duplicate (run_id : String) : LedgerError where
  message := "run '" ++ run_id ++ "' already exists in the ledger"
  code := "ledger.run.duplicate"

def run_not_persisted (run_id text : String) : LedgerError where
  message := "could not persist run '" ++ run_id ++ "': " ++ text
  code := "ledger.write.failed"

def record_not_appended (text : String) : LedgerError where
  message := "could not append run record: " ++ text
  code := "ledger.write.failed"

def records_not_read (run_id text : String) : LedgerError where
  message := "could not read records for run '" ++ run_id ++ "': " ++ text
  code := "ledger.read.failed"

/-- The handlers of `create_run`. -/
def LedgerRaised.of_create (run_id : String) : LedgerRaised → LedgerRaised
  | integrity _ => ledger (run_duplicate run_id)
  | sqlite text => ledger (run_not_persisted run_id text)
  | ledger e => ledger e
  | value text => value text
  | overflow => overflow

/-- The handlers of `append`. -/
def LedgerRaised.of_append : LedgerRaised → LedgerRaised
  | ledger e => ledger e
  | integrity text | sqlite text | value text => ledger (record_not_appended text)
  | overflow => overflow

/-- The handlers of `records`. -/
def LedgerRaised.of_read (run_id : String) : LedgerRaised → LedgerRaised
  | ledger e => ledger e
  | integrity text | sqlite text | value text => ledger (records_not_read run_id text)
  | overflow => overflow

/-! ## Tables -/

/-- A row of `runs`. -/
structure RunRow where
  run_id : String
  plan_digest : String
  substrate : String
  created_at : String
  manifest_json : String

/-- A row of `records`. -/
structure RecordRow where
  run_id : String
  sequence : ℤ
  category : String
  type : String
  recorded_at : String
  correlation_id : Option String
  record_json : String

/-- The content of the file, with what its pragmas answer. The last field is the history of
the records that were inserted: no code reads it. -/
structure LedgerDatabase (Time : Type) where
  user_version : ℤ := 1
  quick_check : List String := ["ok"]
  runs : List RunRow := []
  records : List RecordRow := []
  appended : List (LedgerRecord Time) := []

/-- The statements that may raise. -/
inductive LedgerStatement where
  | begin_immediate
  | find_run
  | next_sequence
  | insert
  | commit
  | select
  deriving DecidableEq

/-- What the statements of a call raise. -/
abbrev LedgerFaults := LedgerStatement → Option String

/-- A statement. -/
def execute (faults : LedgerFaults) (s : LedgerStatement) : Except LedgerRaised Unit :=
  (faults s).elim (.ok ()) fun text => .error (.sqlite text)

def bind_integer (n : ℤ) : Except LedgerRaised ℤ :=
  if -2 ^ 63 ≤ n ∧ n < 2 ^ 63 then .ok n else .error .overflow

namespace LedgerDatabase

/-- `SELECT 1 FROM runs WHERE run_id = ?`. -/
def has_run (db : LedgerDatabase Time) (run_id : String) : Bool := db.runs.any fun row => row.run_id = run_id

/-- The rows of a run. -/
def rows_of (db : LedgerDatabase Time) (run_id : String) : List RecordRow :=
  db.records.filter fun row => row.run_id = run_id

/-- `WHERE run_id = ? ORDER BY sequence`. -/
def ordered_rows (db : LedgerDatabase Time) (run_id : String) : List RecordRow :=
  (db.rows_of run_id).insertionSort fun a b => a.sequence ≤ b.sequence

/-- `SELECT COALESCE(MAX(sequence), 0) + 1`. -/
def next_sequence (db : LedgerDatabase Time) (run_id : String) : ℤ :=
  ((db.rows_of run_id).map RecordRow.sequence).max?.getD 0 + 1

/-- `INSERT INTO runs`: the key is new. -/
def insert_run (db : LedgerDatabase Time) (row : RunRow) : Except LedgerRaised (LedgerDatabase Time) :=
  if db.has_run row.run_id = true then .error (.integrity "UNIQUE constraint failed: runs.run_id")
  else .ok { db with runs := db.runs ++ [row] }

/-- `INSERT INTO records`: the key is new, and there is such a run. -/
def insert_record (db : LedgerDatabase Time) (row : RecordRow) (record : LedgerRecord Time) :
    Except LedgerRaised (LedgerDatabase Time) :=
  if (db.rows_of row.run_id).any (fun other => other.sequence = row.sequence) = true then
    .error (.integrity "UNIQUE constraint failed: records.run_id, records.sequence")
  else if db.has_run row.run_id = false then .error (.integrity "FOREIGN KEY constraint failed")
  else .ok { db with records := db.records ++ [row], appended := db.appended ++ [record] }

end LedgerDatabase

/-! ## Writing -/

section Writing

variable (codec : LedgerCodec Time) (faults : LedgerFaults)

/-- The row of a manifest. -/
def run_row (manifest : RunManifest Time) : Except LedgerRaised RunRow := do
  let text ← (codec.dump_manifest manifest).mapError .value
  pure
    { run_id := manifest.run_id
      plan_digest := manifest.plan_digest
      substrate := manifest.substrate
      created_at := codec.isoformat manifest.created_at
      manifest_json := text }

def record_row (record : LedgerRecord Time) : Except LedgerRaised RecordRow := do
  let text ← (codec.dump_record record).mapError .value
  let sequence ← bind_integer record.sequence
  pure
    { run_id := record.run_id
      sequence := sequence
      category := record.category.value
      type := record.type
      recorded_at := codec.isoformat record.recorded_at
      correlation_id := record.correlation_id
      record_json := text }

/-- `LedgerRecord(**entry.model_dump(...), sequence=sequence)`. -/
def ledger_record (entry : LedgerEntry Time) (sequence : ℤ) : Except LedgerRaised (LedgerRecord Time) :=
  if h : 1 ≤ sequence then .ok { entry with sequence := sequence, sequence_pos := h }
  else .error (.value codec.invalid_record)

/-- The statements of `create_run`. -/
def creating (manifest : RunManifest Time) (db : LedgerDatabase Time) :
    Except LedgerRaised (LedgerDatabase Time) := do
  let row ← run_row codec manifest
  execute faults .insert
  db.insert_run row

/-- The statements of `append` between `BEGIN IMMEDIATE` and `commit`. -/
def appending (entry : LedgerEntry Time) (db : LedgerDatabase Time) :
    Except LedgerRaised (LedgerRecord Time × LedgerDatabase Time) := do
  execute faults .find_run
  if db.has_run entry.run_id = true then pure () else throw (.ledger (run_unknown entry.run_id))
  execute faults .next_sequence
  let record ← ledger_record codec entry (db.next_sequence entry.run_id)
  let row ← record_row codec record
  execute faults .insert
  let db ← db.insert_record row record
  pure (record, db)

/-- `create_run`: the connection commits when its block ends and rolls back when it raises. -/
def create_run (manifest : RunManifest Time) (c : Connection (LedgerDatabase Time)) :
    Except LedgerRaised Unit × Connection (LedgerDatabase Time) :=
  match creating codec faults manifest c.view, execute faults .commit with
  | .ok db, .ok () => (.ok (), (c.write fun _ => db).commit)
  | .ok _, .error raised | .error raised, _ => (.error (raised.of_create manifest.run_id), c.rollback)

/-- `BEGIN IMMEDIATE`. -/
def begin_append (c : Connection (LedgerDatabase Time)) :
    Except LedgerRaised (Connection (LedgerDatabase Time)) := do
  execute faults .begin_immediate
  c.begin_immediate.elim (.error (.sqlite "cannot start a transaction within a transaction")) .ok

/-- `append` in its transaction. What no handler names leaves it open. -/
def append_opened (entry : LedgerEntry Time) (c : Connection (LedgerDatabase Time)) :
    Except LedgerRaised (LedgerRecord Time) × Connection (LedgerDatabase Time) :=
  match appending codec faults entry c.view, execute faults .commit with
  | .ok (record, db), .ok () => (.ok record, (c.write fun _ => db).commit)
  | .error .overflow, _ => (.error .overflow, c)
  | .ok _, .error raised | .error raised, _ => (.error raised.of_append, c.rollback)

def append (entry : LedgerEntry Time) (c : Connection (LedgerDatabase Time)) :
    Except LedgerRaised (LedgerRecord Time) × Connection (LedgerDatabase Time) :=
  match begin_append faults c with
  | .error raised => (.error raised.of_append, c.rollback)
  | .ok opened => append_opened codec faults entry opened

end Writing

/-! ## Reading -/

section Reading

variable (codec : LedgerCodec Time)

/-- The statements of `records`, and the validation of what they find. -/
def fetching (faults : LedgerFaults) (run_id : String) (after_sequence : ℤ) (limit : Option ℤ)
    (db : LedgerDatabase Time) : Except LedgerRaised (List (LedgerRecord Time)) := do
  execute faults .find_run
  if db.has_run run_id = true then pure () else throw (.ledger (run_unknown run_id))
  let after_sequence ← bind_integer after_sequence
  let limit ← limit.mapM bind_integer
  execute faults .select
  let rows := (db.ordered_rows run_id).filter fun row => after_sequence < row.sequence
  let rows := limit.elim rows fun limit => rows.take limit.toNat
  rows.mapM fun row => (codec.validate_record row.record_json).mapError .value

def records (faults : LedgerFaults) (run_id : String) (after_sequence : ℤ) (limit : Option ℤ)
    (c : Connection (LedgerDatabase Time)) : Except LedgerRaised (List (LedgerRecord Time)) :=
  if after_sequence < 0 then .error (.value "ledger cursor cannot be negative")
  else if limit.any (fun limit => limit ≤ 0) = true then .error (.value "ledger record limit must be positive")
  else (fetching codec faults run_id after_sequence limit c.view).mapError (LedgerRaised.of_read run_id)

end Reading

/-! ## The reader -/

/-- One entry of `validation_problems`. -/
structure LedgerProblem where
  reference : String
  reason : String
  deriving DecidableEq

/-- What `read_ledger` raises. -/
inductive LedgerReadError where
  | value (text : String)
  /-- A `ValidationError`. -/
  | validation (text : String)

/-- `read_ledger`: its `manifest`, `records` and `validation_problems`. -/
structure LedgerEvidence (Time : Type) where
  run_id : String
  manifest : Option (RunManifest Time)
  records : List (LedgerRecord Time)
  problems : List LedgerProblem

section Reader

variable [BEq Time] (codec : LedgerCodec Time) (path run_id : String) (partial_inspection : Bool)

/-- A malformed manifest that names another run. -/
def names_another_run (run_id : String) : Except String JsonValue → Bool
  | .ok (.obj fields) => fields.any fun field =>
    (field.1 = "runId" || field.1 = "run_id") && field.2 ≠ .str run_id
  | .ok _ | .error _ => false

def manifest_problem : LedgerProblem where
  reference := path ++ "#manifest"
  reason := "Malformed run manifest; manifest identity, start time and provenance unavailable"

/-- The manifest, with the problems of its text. -/
def read_manifest : Option RunRow →
    Except LedgerReadError (Option (RunManifest Time) × List LedgerProblem)
  | none => .ok (none, [])
  | some row => match codec.validate_manifest row.manifest_json with
    | .ok manifest =>
      if manifest.run_id = run_id then .ok (some manifest, [])
      else .error (.value "ledger manifest identity mismatch")
    | .error text =>
      if partial_inspection = false then .error (.validation text)
      else if names_another_run run_id (codec.loads row.manifest_json) = true then
        .error (.value "ledger manifest identity mismatch")
      else .ok (none, [manifest_problem path])

/-- `#sequence=`. -/
def sequence_reference (sequence : ℤ) : String := path ++ "#sequence=" ++ toString sequence

def gap_problem (sequence : ℤ) : LedgerProblem where
  reference := sequence_reference path sequence
  reason := "Ledger sequence gap; totals and execution conclusion unknown"

def record_problem (sequence : ℤ) : LedgerProblem where
  reference := sequence_reference path sequence
  reason := "Malformed ledger record; classification unavailable"

/-- Whether the columns are not those of the record. -/
def misattributed (record : LedgerRecord Time) (row : RecordRow) : Except LedgerReadError Bool :=
  if record.category.value ≠ row.category ∨ record.type ≠ row.type then .ok true
  else do
    let recorded_at ← (codec.fromisoformat (codec.dump_time record.recorded_at)).mapError .value
    let timestamp ← (codec.fromisoformat row.recorded_at).mapError .value
    pure (recorded_at != timestamp || record.correlation_id ≠ row.correlation_id)

/-- The problem of a gap. -/
def check_sequence (index : ℕ) (row : RecordRow) : Except LedgerReadError (List LedgerProblem) :=
  if row.sequence = index then .ok []
  else if partial_inspection = false then .error (.value "ledger record identity/sequence mismatch")
  else .ok [gap_problem path row.sequence]

/-- The record of a row, unless its text is malformed. -/
def read_record (row : RecordRow) : Except LedgerReadError (Except LedgerProblem (LedgerRecord Time)) :=
  match codec.validate_record row.record_json with
  | .error text =>
    if partial_inspection = false then .error (.validation text)
    else .ok (.error (record_problem path row.sequence))
  | .ok record =>
    if record.run_id ≠ run_id ∨ record.sequence ≠ row.sequence then
      .error (.value "ledger record identity/sequence mismatch")
    else if partial_inspection = true then do
      let mismatch ← misattributed codec record row
      if mismatch = true then throw (.value "ledger record attribution mismatch") else pure (.ok record)
    else .ok (.ok record)

/-- The loop over the rows, from an index on. -/
def read_rows : ℕ → List RecordRow → Except LedgerReadError (List (LedgerRecord Time) × List LedgerProblem)
  | _, [] => .ok ([], [])
  | index, row :: rows => do
      let gap ← check_sequence path partial_inspection index row
      let found ← read_record codec path run_id partial_inspection row
      let rest ← read_rows (index + 1) rows
      match found with
      | .ok record => pure (record :: rest.1, gap ++ rest.2)
      | .error problem => pure (rest.1, gap ++ problem :: rest.2)

/-- `read_ledger`, by a connection of its own. -/
def read_ledger (db : LedgerDatabase Time) : Except LedgerReadError (LedgerEvidence Time) := do
  if db.user_version = 1 then pure ()
  else throw (.value ("unsupported ledger database schema at " ++ path))
  if db.quick_check = ["ok"] then pure () else throw (.value ("corrupt ledger database at " ++ path))
  let manifest ← read_manifest codec path run_id partial_inspection
    (db.runs.find? fun row => row.run_id = run_id)
  let rows ← read_rows codec path run_id partial_inspection 1 (db.ordered_rows run_id)
  pure
    { run_id := run_id
      manifest := manifest.1
      records := rows.1
      problems := manifest.2 ++ rows.2 }

end Reader

end MininetAi
