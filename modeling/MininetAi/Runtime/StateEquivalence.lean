/-
The two shared-state stores answer alike.

The table of the SQLite adapter, without the column `scope` that nothing reads, is the
in-memory table with every row written as text. Each reads the same rows, makes the same
checks in the same order on what the batch has staged so far, and writes the same row;
that the transaction is rolled back where the staged copy is dropped does the rest.
-/
import MininetAi.Runtime.SqliteState
import MininetAi.Runtime.StateHistory

set_option autoImplicit false

namespace MininetAi

open Option AList

variable {Time : Type} (access : SharedStateAccess)

/-! ## The in-memory store without its times -/

/-- The table of `Runtime/State.lean`. -/
def without_times (entries : StampedEntries Time) : Entries :=
  map_values StampedRow.toStoredEntry entries

theorem memory_active_eq (entries : StampedEntries Time) (ns : String) :
    memory_active entries ns = active_entries (without_times entries) ns :=
  (countP_map_values StampedRow.toStoredEntry
    (fun e : Sigma fun _ : String × String => StoredEntry =>
      decide (e.1.1 = ns ∧ e.2.deleted = false)) entries).symm

/-- The result of an iteration, without the times. -/
def forget_times (r : StampedEntries Time × SharedStateChange) : Entries × SharedStateChange :=
  (without_times r.1, r.2)

/-- The result of the loop, without the times. -/
def forget_all_times (r : StampedEntries Time × List SharedStateChange) :
    Entries × List SharedStateChange :=
  (without_times r.1, r.2)

theorem memory_update_without_times (now : Time)
    (entries : StampedEntries Time) (update : SharedStateUpdate) :
    (memory_update access now entries update).map forget_times =
      apply_update access (without_times entries) update := by
  unfold memory_update apply_update
  cases access.scope_namespace update.scope with
  | error e => rfl
  | ok ns =>
    have hlookup : (without_times entries).lookup (ns, update.key) =
        (entries.lookup (ns, update.key)).map StampedRow.toStoredEntry :=
      lookup_map_values ..
    simp only [bind, Except.bind, memory_active_eq, hlookup]
    generalize hcurrent : (entries.lookup (ns, update.key)).map StampedRow.toStoredEntry = current
    cases check_expected update (current.map StoredEntry.version)
        (current.elim true StoredEntry.deleted) with
    | error e => rfl
    | ok u =>
      simp only
      split
      · rfl
      · split
        · rfl
        · refine congrArg Except.ok (Prod.ext ?_ rfl)
          exact map_values_insert ..

theorem memory_updates_without_times (now : ℕ → Time)
    (updates : List SharedStateUpdate) : ∀ entries : StampedEntries Time,
    (memory_updates access now entries updates).map forget_all_times =
      apply_to access (without_times entries) updates := by
  induction updates with
  | nil => exact fun _ => rfl
  | cons update updates ih =>
    intro entries
    have hone := memory_update_without_times access (now updates.length) entries update
    rw [memory_updates, apply_to, ← hone]
    cases memory_update access (now updates.length) entries update with
    | error e => rfl
    | ok r =>
      have hrest := ih r.1
      simp only [bind, Except.bind, Except.map, forget_times]
      rw [← hrest]
      cases memory_updates access now r.1 updates with
      | error e => rfl
      | ok r => rfl

/-- `apply` of the whole rows is `apply` of the rows without their times. -/
theorem memory_apply_without_times (now : ℕ → Time)
    (store : InMemoryStore) (entries : StampedEntries Time) (updates : List SharedStateUpdate)
    (h : store.entries = without_times entries) :
    (memory_apply access now entries updates).1 = (store.apply access updates).1 ∧
      without_times (memory_apply access now entries updates).2 =
        (store.apply access updates).2.entries := by
  have hloop := memory_updates_without_times access now updates entries
  rw [store.apply_eq, h]
  unfold memory_apply apply_updates
  cases validate_updates access [] updates with
  | error e => exact ⟨rfl, h.symm⟩
  | ok u =>
    simp only [bind, Except.bind]
    rw [← hloop]
    cases memory_updates access now entries updates with
    | error e => exact ⟨rfl, h.symm⟩
    | ok r => exact ⟨rfl, rfl⟩

/-! ## Rows as text -/

/-- The value comes back from JSON as it was. -/
def Survives (codec : TextCodec Time) (value : JsonValue) : Prop :=
  ∃ text, codec.dumps value = .ok text ∧ codec.loads text = .ok value

/-- The columns a row is written as. -/
def row_columns (codec : TextCodec Time) (row : StampedRow Time) : SqliteColumns where
  value_json := if row.deleted then none else (codec.dumps row.value).toOption
  version := row.version
  deleted := if row.deleted then 1 else 0
  updated_by := row.updated_by
  updated_at := codec.isoformat row.updated_at

/-- The table holds the rows as text, and what is visible can be read back. -/
structure Mirrors (codec : TextCodec Time) (entries : StampedEntries Time) (table : SqliteTable) :
    Prop where
  table_eq : map_values SqliteRow.toSqliteColumns table =
    map_values (row_columns codec) entries
  readable : ∀ id row, entries.lookup id = some row → row.deleted = false →
    Survives codec row.value ∧ row.updated_by ≠ ""

variable {codec : TextCodec Time} {entries : StampedEntries Time} {table : SqliteTable}
  {access : SharedStateAccess} {connection : Connection SqliteTable}

section

variable (h : Mirrors codec entries table)
include h

theorem Mirrors.lookup_eq (id : String × String) :
    (table.lookup id).map SqliteRow.toSqliteColumns = (entries.lookup id).map (row_columns codec) := by
  rw [← lookup_map_values, h.table_eq, lookup_map_values]

/-- Both see the same version. -/
theorem Mirrors.version_eq (id : String × String) :
    ((table.lookup id).map fun row => row.version) =
      ((entries.lookup id).map StampedRow.toStoredEntry).map StoredEntry.version := by
  have hlookup := congrArg (Option.map SqliteColumns.version) (h.lookup_eq id)
  rw [Option.map_map, Option.map_map] at hlookup
  rw [Option.map_map]
  exact hlookup

/-- Both find the same rows deleted. -/
theorem Mirrors.deleted_eq (id : String × String) :
    ((table.lookup id).elim true fun row => row.deleted ≠ 0) =
      ((entries.lookup id).map StampedRow.toStoredEntry).elim true StoredEntry.deleted := by
  have hlookup := h.lookup_eq id
  cases hrow : entries.lookup id with
  | none =>
    rw [hrow, map_none, map_eq_none_iff] at hlookup
    rw [hlookup]
    rfl
  | some row =>
    rw [hrow, map_some, map_eq_some_iff] at hlookup
    obtain ⟨stored, hstored, hcolumns⟩ := hlookup
    have hdeleted : stored.deleted = if row.deleted then 1 else 0 :=
      congrArg SqliteColumns.deleted hcolumns
    rw [hstored, elim_some, map_some, elim_some, hdeleted]
    cases row.deleted
    · rfl
    · rfl

/-- Both count the same rows. -/
theorem Mirrors.active_eq (ns : String) : sqlite_active table ns = memory_active entries ns := by
  have htable := countP_map_values SqliteRow.toSqliteColumns
    (fun e => decide (e.1.1 = ns ∧ e.2.deleted = 0)) table
  have hentries := countP_map_values (row_columns codec)
    (fun e => decide (e.1.1 = ns ∧ e.2.deleted = 0)) entries
  rw [h.table_eq] at htable
  refine htable.symm.trans (hentries.trans (List.countP_congr fun e _ => ?_))
  have hdeleted : (row_columns codec e.2).deleted = 0 ↔ e.2.deleted = false := by
    rw [row_columns]
    cases e.2.deleted
    · exact iff_of_true rfl rfl
    · exact iff_of_false Nat.one_ne_zero Bool.noConfusion
  simp only [Function.comp_apply, map_entry, decide_eq_true_eq, hdeleted]

end

variable {row : StampedRow Time} {update : SharedStateUpdate} {updates : List SharedStateUpdate}

/-- Writing a row here and its text there. -/
theorem Mirrors.insert (h : Mirrors codec entries table) {id : String × String}
    {written : SqliteRow} (hwritten : written.toSqliteColumns = row_columns codec row)
    (hreadable : row.deleted = false → Survives codec row.value ∧ row.updated_by ≠ "") :
    Mirrors codec (entries.insert id row) (table.insert id written) := by
  refine ⟨?_, fun id' row' hrow => ?_⟩
  · rw [map_values_insert, map_values_insert, h.table_eq, hwritten]
  · by_cases hid : id' = id
    · subst hid
      rw [lookup_insert] at hrow
      cases hrow
      exact hreadable
    · rw [lookup_insert_ne hid] at hrow
      exact h.readable id' row' hrow

/-! ## Snapshots -/

/-- What validation reads back from the text of a time is the time. -/
def TimesSurvive (codec : TextCodec Time) : Prop :=
  ∀ time, codec.parse_time (codec.isoformat time) = .ok time

/-- Reading the text of a visible row gives its entry. -/
theorem row_columns_entry (htimes : TimesSurvive codec) (hlive : row.deleted = false)
    (hvalue : Survives codec row.value) (hagent : row.updated_by ≠ "") :
    (row_columns codec row).entry codec = row.entry := by
  obtain ⟨text, hdumps, hloads⟩ := hvalue
  have htext : (row_columns codec row).value_json = some text := by
    rw [row_columns, hlive, hdumps]
    rfl
  have htime : codec.parse_time (row_columns codec row).updated_at = .ok row.updated_at :=
    htimes row.updated_at
  have hentry : shared_state_entry row.value row.version row.updated_by row.updated_at =
      some
        { value := row.value, version := row.version, updated_by := row.updated_by
          version_pos := row.version_pos, updated_at := row.updated_at } := by
    rw [shared_state_entry, dif_pos row.version_pos, if_neg hagent]
  have hcolumns : shared_state_entry row.value (row_columns codec row).version
      (row_columns codec row).updated_by row.updated_at =
      shared_state_entry row.value row.version row.updated_by row.updated_at := rfl
  rw [SqliteColumns.entry, htext, StampedRow.entry]
  simp only [hloads, htime, hcolumns, hentry]

theorem row_columns_live (codec : TextCodec Time) (row : StampedRow Time) :
    (row_columns codec row).live = row.live.map (row_columns codec) := by
  rw [SqliteColumns.live, StampedRow.live]
  cases hdeleted : row.deleted with
  | true =>
    have hone : (row_columns codec row).deleted = 1 := by
      rw [row_columns, hdeleted]
      rfl
    rw [hone]
    rfl
  | false =>
    have hzero : (row_columns codec row).deleted = 0 := by
      rw [row_columns, hdeleted]
      rfl
    rw [hzero]
    rfl

/-- One scope reads alike in both. -/
theorem scope_snapshot_eq (htimes : TimesSurvive codec) (h : Mirrors codec entries table)
    (access : SharedStateAccess) (scope : SharedScope) :
    sqlite_scope_snapshot codec table access scope = memory_scope_snapshot entries access scope := by
  unfold sqlite_scope_snapshot memory_scope_snapshot
  cases access.scope_namespace scope with
  | error e => rfl
  | ok ns =>
    have hrows : slice (· ≤ ·) ns (SqliteColumns.live ∘ SqliteRow.toSqliteColumns) table =
        (slice (· ≤ ·) ns StampedRow.live entries).map_values (row_columns codec) := by
      rw [← slice_map_values, h.table_eq, slice_map_values, ← slice_map]
      exact congrArg (fun f => slice (· ≤ ·) ns f entries)
        (funext fun row => row_columns_live codec row)
    simp only [hrows]
    apply read_values_map
    intro e hmem
    have hfound : (slice (· ≤ ·) ns StampedRow.live entries).lookup e.1 = some e.2 :=
      mem_lookup_iff.mpr hmem
    rw [lookup_slice, bind_eq_some_iff] at hfound
    obtain ⟨row, hrow, hlive⟩ := hfound
    rw [StampedRow.live, ite_none_left_eq_some] at hlive
    obtain ⟨hnot, hsame⟩ := hlive
    have hkept : e.2.deleted = false := by
      rw [← Option.some.inj hsame]
      exact Bool.eq_false_iff.mpr hnot
    rw [Option.some.inj hsame] at hrow
    obtain ⟨hvalue, hagent⟩ := h.readable _ _ hrow hkept
    exact row_columns_entry htimes hkept hvalue hagent

/-! ## Updates -/

/-- What one iteration needs of a mutation: its value survives JSON and the version it
would get fits its column. -/
def Storable (codec : TextCodec Time) (access : SharedStateAccess)
    (entries : StampedEntries Time) (update : SharedStateUpdate) : Prop :=
  Survives codec update.value ∧
    ∀ row, entries.lookup (update_id access update) = some row → row.version < column_max

/-- The row of the `INSERT` is the text of the row the in-memory store keeps. -/
theorem sqlite_row_columns (hvalue : Survives codec update.value) (access : SharedStateAccess)
    (now : Time) (current : Option StoredEntry) :
    ∃ value_json, value_text codec update = .ok value_json ∧
      (sqlite_row codec access now update ((current.map StoredEntry.version).getD 0)
        value_json).toSqliteColumns =
      row_columns codec ⟨written_entry access update current, now⟩ := by
  obtain ⟨text, hdumps, -⟩ := hvalue
  unfold value_text sqlite_row row_columns written_entry
  cases update.operation with
  | set =>
    refine ⟨some text, ?_, ?_⟩
    · simp only [hdumps]
    · simp only [hdumps]
      rfl
  | delete => exact ⟨none, rfl, rfl⟩

/-- One iteration: both refuse with the same error, or both write the same row. -/
theorem sqlite_update_mirrors (hagent : access.agent_id ≠ "")
    (h : Mirrors codec entries connection.view) (hstorable : Storable codec access entries update)
    (now : Time) : (∃ e, memory_update access now entries update = .error e ∧
      sqlite_update codec access now connection update = .error (.state e)) ∨
    ∃ row connection' change, memory_update access now entries update =
        .ok (entries.insert (update_id access update) row, change) ∧
      sqlite_update codec access now connection update = .ok (connection', change) ∧
      Mirrors codec (entries.insert (update_id access update) row) connection'.view ∧
      connection'.stored = connection.stored := by
  obtain ⟨hvalue, hroom⟩ := hstorable
  unfold memory_update sqlite_update
  cases hns : access.scope_namespace update.scope with
  | error e => exact Or.inl ⟨e, rfl, rfl⟩
  | ok ns =>
    obtain ⟨_, rfl⟩ := scope_namespace_ok hns
    simp only [bind, Except.bind, Except.mapError, h.version_eq, h.deleted_eq, h.active_eq]
    generalize hcurrent : (entries.lookup (namespace_name access.run_id access.deployment
      update.scope, update.key)).map StampedRow.toStoredEntry = current
    cases check_expected update (current.map StoredEntry.version)
        (current.elim true StoredEntry.deleted) with
    | error e => exact Or.inl ⟨e, rfl, rfl⟩
    | ok u =>
      simp only
      split
      · exact Or.inl ⟨_, rfl, rfl⟩
      · split
        · exact Or.inl ⟨_, rfl, rfl⟩
        · have hfits : ¬ column_max < (current.map StoredEntry.version).getD 0 + 1 := by
            rw [← hcurrent]
            cases hrow : entries.lookup (namespace_name access.run_id access.deployment
                update.scope, update.key) with
            | none =>
              have hone : 1 ≤ column_max := by decide
              exact Nat.not_lt.mpr hone
            | some row => exact Nat.not_lt.mpr (hroom row hrow)
          obtain ⟨value_json, htext, hcolumns⟩ := sqlite_row_columns hvalue access now current
          refine Or.inr ⟨⟨written_entry access update current, now⟩,
            connection.write (AList.insert (update_id access update) (sqlite_row codec access now
              update ((current.map StoredEntry.version).getD 0) value_json)),
            sqlite_change update ((current.map StoredEntry.version).getD 0), rfl, ?_,
            h.insert hcolumns fun _ => ⟨hvalue, hagent⟩, rfl⟩
          rw [htext]
          simp only [if_neg hfits]
          rfl

/-- The loop over a batch without duplicates. The induction is on the batch: a row that
is written belongs to no later mutation, so those stay storable. -/
theorem sqlite_updates_mirrors (hagent : access.agent_id ≠ "") (now : ℕ → Time)
    (hnodup : (updates.map fun update => (update.scope, update.key)).Nodup)
    (h : Mirrors codec entries connection.view)
    (hstorable : ∀ update ∈ updates, Storable codec access entries update) :
    (∃ e, memory_updates access now entries updates = .error e ∧
      (sqlite_updates codec access now connection updates).2 = .error (.state e) ∧
      (sqlite_updates codec access now connection updates).1.stored = connection.stored) ∨
    ∃ entries' changes, memory_updates access now entries updates = .ok (entries', changes) ∧
      (sqlite_updates codec access now connection updates).2 = .ok changes ∧
      Mirrors codec entries' (sqlite_updates codec access now connection updates).1.view := by
  induction updates generalizing entries connection with
  | nil => exact Or.inr ⟨entries, [], rfl, rfl, h⟩
  | cons update updates ih =>
    obtain ⟨hnot, htail⟩ := List.nodup_cons.mp hnodup
    rw [memory_updates, sqlite_updates]
    rcases sqlite_update_mirrors hagent h (hstorable update List.mem_cons_self)
      (now updates.length) with ⟨e, hmemory, hsqlite⟩ |
      ⟨row, connection', change, hmemory, hsqlite, hmirrors, hstored⟩
    · rw [hmemory, hsqlite]
      exact Or.inl ⟨e, rfl, rfl, rfl⟩
    · have hothers : ∀ other ∈ updates,
          Storable codec access (entries.insert (update_id access update) row) other := by
        intro other hother
        obtain ⟨hvalue, hroom⟩ := hstorable other (List.mem_cons_of_mem _ hother)
        have hne : update_id access other ≠ update_id access update :=
          fun heq => hnot (List.mem_map.mpr ⟨other, hother, update_id_inj heq⟩)
        refine ⟨hvalue, fun row' hrow' => hroom row' ?_⟩
        rw [lookup_insert_ne hne] at hrow'
        exact hrow'
      simp only [hmemory, hsqlite, bind, Except.bind]
      rcases ih htail hmirrors hothers with ⟨e, hrest, hresult, hkept⟩ |
        ⟨entries', changes, hrest, hresult, hafter⟩
      · rw [hrest, hresult]
        exact Or.inl ⟨e, rfl, rfl, hkept.trans hstored⟩
      · rw [hrest, hresult]
        exact Or.inr ⟨entries', change :: changes, rfl, rfl, hafter⟩

/-- A whole batch: the same answer, and the tables still agree. -/
theorem sqlite_apply_mirrors (hagent : access.agent_id ≠ "") (now : ℕ → Time)
    (hidle : connection.Idle) (h : Mirrors codec entries connection.stored)
    (hstorable : ∀ update ∈ updates, Storable codec access entries update) :
    (sqlite_apply codec access now connection updates).1 =
        (memory_apply access now entries updates).1.mapError .state ∧
      (sqlite_apply codec access now connection updates).2.Idle ∧
      Mirrors codec (memory_apply access now entries updates).2
        (sqlite_apply codec access now connection updates).2.stored := by
  unfold sqlite_apply memory_apply
  cases hvalid : validate_updates access [] updates with
  | error e => exact ⟨rfl, hidle, h⟩
  | ok u =>
    have hnodup := (validate_updates_ok hvalid).1
    obtain ⟨opened, hbegin, hview, hstored⟩ := hidle.begin_eq
    rw [← hview] at h
    simp only [hbegin]
    rw [← Prod.mk.eta (p := sqlite_updates codec access now opened updates)]
    rcases sqlite_updates_mirrors hagent now hnodup h hstorable with
      ⟨e, hmemory, hresult, hkept⟩ | ⟨entries', changes, hmemory, hresult, hafter⟩
    · rw [hmemory, hresult]
      have hback := congrArg Connection.stored (hidle.rollback_eq (hkept.trans hstored))
      rw [hview, ← hback] at h
      exact ⟨rfl, Connection.idle_rollback _, h⟩
    · rw [hmemory, hresult]
      exact ⟨rfl, Connection.idle_commit _, hafter⟩

/-! ## Calls -/

/-- A call of a store, with what the clock says while it runs. -/
inductive StoreCall (Time : Type) where
  | snapshot (access : SharedStateAccess)
  | apply (access : SharedStateAccess) (updates : List SharedStateUpdate) (now : ℕ → Time)

/-- What a call returns or raises. -/
inductive StoreReply (Time : Type) where
  | snapshot (result : Except StoreFailure (StampedSnapshot Time))
  | apply (result : Except StoreFailure (List SharedStateChange))

/-- A call of the in-memory store. -/
def StoreCall.memory (entries : StampedEntries Time) :
    StoreCall Time → StoreReply Time × StampedEntries Time
  | .snapshot access => (.snapshot (snapshot_of access (memory_scope_snapshot entries access)), entries)
  | .apply access updates now =>
    let (result, entries) := memory_apply access now entries updates
    (.apply (result.mapError .state), entries)

/-- A call of the SQLite store. -/
def StoreCall.sqlite (codec : TextCodec Time) (connection : Connection SqliteTable) :
    StoreCall Time → StoreReply Time × Connection SqliteTable
  | .snapshot access =>
    (.snapshot (snapshot_of access (sqlite_scope_snapshot codec connection.view access)),
      connection)
  | .apply access updates now =>
    let (result, connection) := sqlite_apply codec access now connection updates
    (.apply result, connection)

/-- The two stores side by side. -/
structure StorePair (Time : Type) where
  memory : StampedEntries Time
  sqlite : Connection SqliteTable

/-- Both get the same calls. -/
def store_pair (codec : TextCodec Time) : System (StorePair Time) (StoreCall Time) where
  init s := s = { memory := ∅, sqlite := { stored := ∅ } }
  step s call := some
    { memory := (call.memory s.memory).2
      sqlite := (call.sqlite codec s.sqlite).2 }

/-- The calls the law is about: the agent has a name, the values survive JSON and the
versions fit their column. -/
def Portable (codec : TextCodec Time) (s : StorePair Time) : StoreCall Time → Prop
  | .snapshot _ => True
  | .apply access updates _ => access.agent_id ≠ "" ∧
      ∀ update ∈ updates, Storable codec access s.memory update

/-- The tables of the two stores agree between calls. -/
def PairMirrors (codec : TextCodec Time) (s : StorePair Time) : Prop :=
  s.sqlite.Idle ∧ Mirrors codec s.memory s.sqlite.stored

theorem pair_mirrors {s : StorePair Time}
    (h : (store_pair codec).ReachableUnder (Portable codec) s) : PairMirrors codec s := by
  refine h.invariant ?_ ?_
  · rintro s rfl
    refine ⟨rfl, rfl, fun id row hrow _ => ?_⟩
    rw [lookup_empty] at hrow
    cases hrow
  · rintro s call s' - ⟨hidle, hmirrors⟩ hportable hstep
    cases hstep
    cases call with
    | snapshot access => exact ⟨hidle, hmirrors⟩
    | apply access updates now =>
      obtain ⟨hagent, hstorable⟩ := hportable
      exact (sqlite_apply_mirrors hagent now hidle hmirrors hstorable).2

/-- The texts of the JSON literals. -/
def literal_text : JsonValue → Except String String
  | .null => .ok "null"
  | .bool false => .ok "false"
  | .bool true => .ok "true"
  | _ => .error "not a literal"

def literal_of_text : String → Except String JsonValue
  | "null" => .ok .null
  | "false" => .ok (.bool false)
  | "true" => .ok (.bool true)
  | _ => .error "Expecting value"

/-- Literals, and times kept as their texts. -/
def literal_codec : TextCodec String where
  dumps := literal_text
  loads := literal_of_text
  isoformat := id
  parse_time := .ok
  invalid_entry := "1 validation error for SharedStateEntry"

/-- A batch that sets the key `k` of the run scope. -/
def literal_call (value : JsonValue) (expected_version : Option ℕ) : StoreCall String :=
  .apply tombstone_access
    [{ scope := .run, key := "k", value := value, expected_version := expected_version }]
    fun _ => "2024-01-01T00:00:00+00:00"

/-- The pair of stores after its first batch. -/
def literal_pair : StorePair String where
  memory := ((literal_call .null none).memory ∅).2
  sqlite := ((literal_call .null none).sqlite literal_codec { stored := ∅ }).2

/-- An access without the name of its agent. -/
def unnamed_access : SharedStateAccess := { tombstone_access with agent_id := "" }

/-- A batch under it. -/
def unnamed_call : StoreCall String :=
  .apply unnamed_access [{ scope := .run, key := "k", value := .null }]
    fun _ => "2024-01-01T00:00:00+00:00"

end MininetAi
