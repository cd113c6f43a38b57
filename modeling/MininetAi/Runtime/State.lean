/-
The shared-state store (`mininet_ai/runtime/state.py`).

Both adapters keep a table from `(namespace, key)` to a value, a version and a
tombstone flag. `snapshot` and `apply` run under the store's lock, so each is one
function of the table. `apply` stages its changes and keeps them only when every
update of the batch passed, and it fails with the first check that does not.

For what lies above, a row of the table is a `Cell`: its version only grows, and
a tombstone keeps the version of the entry it replaced.
-/
import Mathlib.Data.String.Basic
import MininetAi.Lib.Dict
import MininetAi.Lib.Versioned
import MininetAi.Sdk.Contracts

set_option autoImplicit false

namespace MininetAi

open List

/-! ## Access -/

structure SharedStateError where
  message : String
  code : String
  conflict : Bool := false
  deriving DecidableEq

/-- The name of a scope in texts. -/
def SharedScope.text : SharedScope → String
  | .run => "run"
  | .deployment => "deployment"

/-- `{name!r}` for a name without quotes or escapes. -/
def name_repr (name : String) : String :=
  "'" ++ name ++ "'"

/-- The namespaces one agent may use, with the capacity of each. -/
structure SharedStateAccess where
  run_id : String
  deployment : String
  agent_id : String
  limits : SharedScope → Option ℕ

/-- The name of a namespace: a run has one, and each of its deployments has one. -/
def namespace_name (run_id deployment : String) : SharedScope → String
  | .run => "run:" ++ run_id
  | .deployment => "run:" ++ run_id ++ ":deployment:" ++ deployment

/-- `SharedStateAccess.namespace`. -/
def SharedStateAccess.scope_namespace (access : SharedStateAccess) (scope : SharedScope) :
    Except SharedStateError String :=
  if (access.limits scope).isNone then
    .error
      { message := "agent " ++ name_repr access.agent_id ++ " cannot access " ++
          name_repr scope.text ++ " shared state"
        code := "state.scope.forbidden"
        conflict := true }
  else .ok (namespace_name access.run_id access.deployment scope)

/-- The key of an update in the table. -/
abbrev update_id (access : SharedStateAccess) (update : SharedStateUpdate) : String × String :=
  (namespace_name access.run_id access.deployment update.scope, update.key)

variable {scope : SharedScope} {access : SharedStateAccess} {update : SharedStateUpdate}
  {updates : List SharedStateUpdate} {changes : List SharedStateChange} {e : SharedStateError}
  {identities : List (SharedScope × String)}

/-- The namespaces of one run are apart: a run-scoped one is none of its
deployments', and two deployments have two. -/
theorem namespace_name_inj {run_id d d' : String} {scope' : SharedScope}
    (h : namespace_name run_id d scope = namespace_name run_id d' scope') :
    scope = scope' ∧ (scope = .deployment → d = d') := by
  have hlong : ∀ x : String, "run:" ++ run_id ≠ "run:" ++ run_id ++ ":deployment:" ++ x := by
    intro x heq
    have hlen := congrArg String.length heq
    simp only [String.length_append] at hlen
    have hpos : 0 < (":deployment:" : String).length := by decide
    omega
  cases scope <;> cases scope' <;> simp only [namespace_name] at h
  · exact ⟨rfl, by simp⟩
  · exact absurd h (hlong d')
  · exact absurd h.symm (hlong d)
  · exact ⟨rfl, fun _ => (String.append_right_inj _).mp h⟩

variable {ns : String} {change : SharedStateChange}

theorem scope_namespace_ok (h : access.scope_namespace scope = .ok ns) :
    (access.limits scope).isSome ∧ ns = namespace_name access.run_id access.deployment scope := by
  unfold SharedStateAccess.scope_namespace at h
  split at h
  · cases h
  · rename_i hsome
    exact ⟨by simpa [Option.isNone_iff_eq_none, Option.isSome_iff_ne_none] using hsome,
      (Except.ok.inj h).symm⟩

/-! ## The table -/

/-- One row. A deleted entry keeps its version. -/
structure StoredEntry where
  value : JsonValue
  version : ℕ
  deleted : Bool
  updated_by : String
  version_pos : 0 < version

/-- The rows by `(namespace, key)`. -/
abbrev Entries := Dict (String × String) StoredEntry

/-- What a snapshot shows of a row. -/
def StoredEntry.visible (e : StoredEntry) : Option SharedStateEntry :=
  if e.deleted then none
  else some
    { value := e.value, version := e.version, updated_by := e.updated_by,
      version_pos := e.version_pos }

/-- A row, or its absence, as a versioned cell. -/
def stored_cell : Option StoredEntry → Cell SharedStateEntry
  | none => .fresh
  | some e =>
    { version := e.version
      value := e.visible
      written := fun _ => e.version_pos }

@[simp] theorem stored_cell_value (o : Option StoredEntry) :
    (stored_cell o).value = o.bind StoredEntry.visible := by
  cases o <;> rfl

/-- The version of the entry a snapshot shows, zero when it shows none. -/
def entry_version (o : Option SharedStateEntry) : ℕ :=
  o.elim 0 SharedStateEntry.version

theorem entry_version_eq (o : Option StoredEntry) :
    entry_version (stored_cell o).value = (stored_cell o).visible_version := by
  cases o with
  | none => rfl
  | some e =>
    by_cases hdel : e.deleted = true <;>
      simp [stored_cell, Cell.visible_version, StoredEntry.visible, entry_version, hdel]

/-! ## Snapshots -/

def scope_snapshot (entries : Entries) (access : SharedStateAccess) (scope : SharedScope) :
    Dict String SharedStateEntry :=
  match access.scope_namespace scope with
  | .ok ns => entries.slice (· ≤ ·) ns StoredEntry.visible
  | .error _ => ∅

/-- `snapshot`; a scope outside `limits` is empty. -/
def snapshot (entries : Entries) (access : SharedStateAccess) : SharedStateSnapshot where
  run := scope_snapshot entries access .run
  deployment := scope_snapshot entries access .deployment

/-- A snapshot shows the visible part of each cell of an authorized namespace. -/
theorem lookup_snapshot (h : access.scope_namespace scope = .ok ns) (entries : Entries)
    (key : String) : ((snapshot entries access).scope scope).lookup key
      = (stored_cell (entries.lookup (ns, key))).value := by
  have hscope : (snapshot entries access).scope scope = scope_snapshot entries access scope := by
    cases scope <;> rfl
  rw [hscope, scope_snapshot, h, stored_cell_value]
  exact AList.lookup_slice _ ns StoredEntry.visible entries key

/-! ## Updates -/

/-- `_validate_updates`, with the identities seen so far. -/
def validate_updates (access : SharedStateAccess) :
    List (SharedScope × String) → List SharedStateUpdate → Except SharedStateError Unit
  | _, [] => .ok ()
  | identities, update :: updates => do
      let _ ← access.scope_namespace update.scope
      if (update.scope, update.key) ∈ identities then
        throw
          { message := "duplicate shared-state update for " ++ update.scope.text ++ ":" ++
              update.key
            code := "state.update.duplicate"
            conflict := true }
      validate_updates access ((update.scope, update.key) :: identities) updates

def check_expected (update : SharedStateUpdate) (current_version : Option ℕ) (deleted : Bool) :
    Except SharedStateError Unit := do
  let visible_version := if deleted then none else current_version
  let expected ← match update.expected_version with
    | some expected => pure expected
    | none =>
      if visible_version ≠ none then
        throw
          { message := "shared-state update for " ++ update.scope.text ++ ":" ++ update.key ++
              " requires expectedVersion"
            code := "state.version.required"
            conflict := true }
      else pure 0
  if expected = 0 ∧ visible_version = none then pure ()
  else if some expected ≠ visible_version then
    throw
      { message := "shared-state version conflict for " ++ update.scope.text ++ ":" ++
          update.key ++ "; expected " ++ toString expected ++ ", found " ++
          toString (visible_version.getD 0)
        code := "state.version.conflict"
        conflict := true }
  else pure ()

/-- The number of live entries of a namespace. -/
def active_entries (entries : Entries) (ns : String) : ℕ :=
  entries.entries.countP fun e => e.1.1 = ns ∧ e.2.deleted = false

/-- The row an update writes over `current`. -/
def written_entry (access : SharedStateAccess) (update : SharedStateUpdate)
    (current : Option StoredEntry) : StoredEntry where
  value := update.value
  version := (current.map StoredEntry.version).getD 0 + 1
  deleted := update.operation = .delete
  updated_by := access.agent_id
  version_pos := Nat.succ_pos _

/-- The change an update reports. -/
def reported_change (update : SharedStateUpdate) (written : StoredEntry) : SharedStateChange where
  scope := update.scope
  operation := update.operation
  key := update.key
  value := if update.operation = .delete then none else some update.value
  version := written.version
  version_pos := written.version_pos

/-- One iteration of `_apply_to`. -/
def apply_update (access : SharedStateAccess) (entries : Entries) (update : SharedStateUpdate) :
    Except SharedStateError (Entries × SharedStateChange) := do
  let ns ← access.scope_namespace update.scope
  let current := entries.lookup (ns, update.key)
  let deleted := current.elim true StoredEntry.deleted
  check_expected update (current.map StoredEntry.version) deleted
  if update.operation = .delete ∧ deleted then
    throw
      { message := "shared-state entry " ++ update.scope.text ++ ":" ++ update.key ++
          " does not exist"
        code := "state.entry.missing"
        conflict := true }
  else if update.operation = .set ∧ deleted ∧
      (access.limits update.scope).any (fun limit => limit ≤ active_entries entries ns) then
    throw
      { message := update.scope.text ++ " shared state reached its entry limit"
        code := "state.capacity.exceeded"
        conflict := true }
  else
    let written := written_entry access update current
    pure (entries.insert (ns, update.key) written, reported_change update written)

def apply_to (access : SharedStateAccess) :
    Entries → List SharedStateUpdate → Except SharedStateError (Entries × List SharedStateChange)
  | entries, [] => .ok (entries, [])
  | entries, update :: updates => do
      let (entries, change) ← apply_update access entries update
      let (entries, changes) ← apply_to access entries updates
      pure (entries, change :: changes)

/-- `apply`: the new table and the changes, or the old table stays. -/
def apply_updates (access : SharedStateAccess) (entries : Entries)
    (updates : List SharedStateUpdate) :
    Except SharedStateError (Entries × List SharedStateChange) := do
  validate_updates access [] updates
  apply_to access entries updates

/-! ## What an update does to the table -/

variable {entries entries' : Entries}

/-- An update that passes writes its own row, and reports that row. -/
theorem apply_update_written (h : apply_update access entries update = .ok (entries', change)) :
    ∃ ns, access.scope_namespace update.scope = .ok ns ∧
      entries' = entries.insert (ns, update.key)
        (written_entry access update (entries.lookup (ns, update.key))) ∧
      change = reported_change update
        (written_entry access update (entries.lookup (ns, update.key))) := by
  unfold apply_update at h
  cases hns : access.scope_namespace update.scope with
  | error e => rw [hns] at h; cases h
  | ok ns =>
    rw [hns] at h
    simp only [bind, Except.bind] at h
    split at h
    · cases h
    · split at h
      · cases h
      · split at h
        · cases h
        · cases h
          exact ⟨ns, rfl, rfl, rfl⟩

/-- An update that passes writes its own row and no other. -/
theorem apply_update_ok (h : apply_update access entries update = .ok (entries', change)) :
    ∃ ns, access.scope_namespace update.scope = .ok ns ∧
      entries' = entries.insert (ns, update.key)
        (written_entry access update (entries.lookup (ns, update.key))) := by
  obtain ⟨ns, hns, hentries, -⟩ := apply_update_written h
  exact ⟨ns, hns, hentries⟩

/-- The row an update writes is a later version of the one it replaces. -/
theorem written_later (access : SharedStateAccess) (update : SharedStateUpdate)
    (current : Option StoredEntry) :
    (stored_cell current).Later (stored_cell (some (written_entry access update current))) := by
  refine Or.inr ?_
  cases current with
  | none => exact Nat.one_pos
  | some e => exact Nat.lt_succ_self _

/-- A batch applied update by update. -/
theorem apply_to_cons_ok
    (h : apply_to access entries (update :: updates) = .ok (entries', changes)) :
    ∃ between change rest, apply_update access entries update = .ok (between, change) ∧
      apply_to access between updates = .ok (entries', rest) ∧ changes = change :: rest := by
  rw [apply_to] at h
  cases hu : apply_update access entries update with
  | error e => rw [hu] at h; cases h
  | ok r =>
    obtain ⟨between, change⟩ := r
    rw [hu] at h
    simp only [bind, Except.bind] at h
    cases hrest : apply_to access between updates with
    | error e => rw [hrest] at h; cases h
    | ok r =>
      obtain ⟨final, rest⟩ := r
      rw [hrest] at h
      cases h
      exact ⟨between, change, rest, rfl, hrest, rfl⟩

/-- No row goes back. The induction is on the batch; each update writes one row
later and leaves the others. -/
theorem apply_to_later (h : apply_to access entries updates = .ok (entries', changes))
    (id : String × String) :
    (stored_cell (entries.lookup id)).Later (stored_cell (entries'.lookup id)) := by
  induction updates generalizing entries changes with
  | nil => cases h; exact Cell.Later.refl _
  | cons update updates ih =>
    obtain ⟨between, change, rest, hu, hrest, -⟩ := apply_to_cons_ok h
    obtain ⟨ns, -, rfl⟩ := apply_update_ok hu
    refine Cell.Later.trans ?_ (ih hrest)
    by_cases hid : id = (ns, update.key)
    · subst hid
      rw [AList.lookup_insert]
      exact written_later access update _
    · rw [AList.lookup_insert_ne hid]
      exact Cell.Later.refl _

/-- Rows that no update of the batch names stay as they are. -/
theorem apply_to_frame (h : apply_to access entries updates = .ok (entries', changes))
    {id : String × String}
    (hid : ∀ update ∈ updates, ∀ ns, access.scope_namespace update.scope = .ok ns →
      id ≠ (ns, update.key)) : entries'.lookup id = entries.lookup id := by
  induction updates generalizing entries changes with
  | nil => cases h; rfl
  | cons update updates ih =>
    obtain ⟨between, change, rest, hu, hrest, -⟩ := apply_to_cons_ok h
    obtain ⟨ns, hns, rfl⟩ := apply_update_ok hu
    rw [ih hrest fun u hmem => hid u (mem_cons_of_mem _ hmem)]
    exact AList.lookup_insert_ne (hid update mem_cons_self ns hns)

theorem apply_updates_ok (h : apply_updates access entries updates = .ok (entries', changes)) :
    apply_to access entries updates = .ok (entries', changes) := by
  unfold apply_updates at h
  cases hval : validate_updates access [] updates with
  | error e => rw [hval] at h; cases h
  | ok u => rw [hval] at h; exact h

/-! ## What makes a checked batch fail

A batch whose namespaces are authorized and whose expected versions are the
visible ones fails only with what no version check can see: the entry limit, two
updates of one key, and the deletion of a key that is not there. -/

/-- The visible version of the row an update names. -/
def update_version (access : SharedStateAccess) (entries : Entries) (update : SharedStateUpdate) :
    ℕ :=
  (stored_cell (entries.lookup (update_id access update))).visible_version

/-- An authorized update that expects the visible version. -/
def Checked (access : SharedStateAccess) (entries : Entries) (update : SharedStateUpdate) : Prop :=
  (access.limits update.scope).isSome ∧
    update.expected_version = some (update_version access entries update)

theorem scope_namespace_of_isSome (h : (access.limits scope).isSome) :
    access.scope_namespace scope
      = .ok (namespace_name access.run_id access.deployment scope) := by
  rw [SharedStateAccess.scope_namespace, if_neg]
  simpa [Option.isNone_iff_eq_none, Option.isSome_iff_ne_none] using h

/-- The version check of the store passes for the visible version. -/
theorem check_expected_ok (update : SharedStateUpdate) (current : Option StoredEntry)
    (h : update.expected_version = some (stored_cell current).visible_version) :
    check_expected update (current.map StoredEntry.version)
      (current.elim true StoredEntry.deleted) = .ok () := by
  unfold check_expected
  rw [h]
  cases current with
  | none => rfl
  | some e =>
    by_cases hdel : e.deleted = true
    · simp [stored_cell, Cell.visible_version, StoredEntry.visible, hdel]
      rfl
    · simp [stored_cell, Cell.visible_version, StoredEntry.visible, hdel]
      rfl

theorem apply_update_error (hchecked : Checked access entries update)
    (h : apply_update access entries update = .error e) : e.code = "state.capacity.exceeded" ∨
      e.code = "state.entry.missing" ∧ update.operation = .delete ∧
        update_version access entries update = 0 := by
  obtain ⟨hlimit, hexpected⟩ := hchecked
  unfold apply_update at h
  rw [scope_namespace_of_isSome hlimit] at h
  simp only [bind, Except.bind] at h
  rw [check_expected_ok update _ hexpected] at h
  simp only at h
  split at h
  · rename_i hmissing
    cases h
    refine Or.inr ⟨rfl, hmissing.1, ?_⟩
    refine Cell.visible_version_of_none ?_
    rw [stored_cell_value]
    have hdel := hmissing.2
    cases hcur : entries.lookup (update_id access update) with
    | none => rfl
    | some row =>
      rw [hcur] at hdel
      simp only [Option.elim_some] at hdel
      simp [StoredEntry.visible, hdel]
  · split at h
    · cases h
      exact Or.inl rfl
    · cases h

/-- Updates of other keys do not change what an update finds. -/
theorem Checked.frame {other : SharedStateUpdate} (h : Checked access entries update)
    (hne : (update.scope, update.key) ≠ (other.scope, other.key)) (row : StoredEntry) :
    Checked access (entries.insert (update_id access other) row) update ∧
      update_version access (entries.insert (update_id access other) row) update
        = update_version access entries update := by
  have hid : (update_id access update) ≠ (update_id access other) := by
    intro heq
    obtain ⟨hns, hkey⟩ := Prod.ext_iff.mp heq
    have hscope := (namespace_name_inj hns).1
    have hkey' : update.key = other.key := hkey
    exact hne (by rw [hscope, hkey'])
  have hsame : update_version access (entries.insert (update_id access other) row) update
      = update_version access entries update := by
    unfold update_version
    rw [AList.lookup_insert_ne hid]
  exact ⟨⟨h.1, by rw [hsame]; exact h.2⟩, hsame⟩

theorem apply_to_error (hnodup : (updates.map fun u => (u.scope, u.key)).Nodup)
    (hchecked : ∀ u ∈ updates, Checked access entries u)
    (h : apply_to access entries updates = .error e) : e.code = "state.capacity.exceeded" ∨
      e.code = "state.entry.missing" ∧ ∃ u ∈ updates, u.operation = .delete ∧
        update_version access entries u = 0 := by
  induction updates generalizing entries with
  | nil => cases h
  | cons update updates ih =>
    obtain ⟨hnot, hrest⟩ := List.nodup_cons.mp hnodup
    have hfirst := hchecked update mem_cons_self
    rw [apply_to] at h
    cases hu : apply_update access entries update with
    | error e' =>
      rw [hu] at h
      cases h
      rcases apply_update_error hfirst hu with hcap | ⟨hmiss, hdel, hver⟩
      · exact Or.inl hcap
      · exact Or.inr ⟨hmiss, update, mem_cons_self, hdel, hver⟩
    | ok r =>
      obtain ⟨between, change⟩ := r
      obtain ⟨ns, hns, rfl⟩ := apply_update_ok hu
      rw [scope_namespace_of_isSome hfirst.1] at hns
      cases hns
      rw [hu] at h
      simp only [bind, Except.bind] at h
      -- the other updates name other rows, so they are still checked
      have hframe : ∀ u ∈ updates, _ := fun u hmem =>
        (hchecked u (mem_cons_of_mem _ hmem)).frame
          (fun heq => hnot (mem_map.mpr ⟨u, hmem, heq⟩))
          (written_entry access update (entries.lookup (update_id access update)))
      split at h
      · rename_i e' herr
        cases h
        rcases ih hrest (fun u hmem => (hframe u hmem).1) herr with hcap | ⟨hmiss, u, hmem, hdel, hver⟩
        · exact Or.inl hcap
        · rw [(hframe u hmem).2] at hver
          exact Or.inr ⟨hmiss, u, mem_cons_of_mem _ hmem, hdel, hver⟩
      · cases h

/-- The duplicate check is about the whole batch. -/
theorem validate_updates_error (hlimit : ∀ u ∈ updates, (access.limits u.scope).isSome)
    (h : validate_updates access identities updates = .error e) :
    e.code = "state.update.duplicate" := by
  induction updates generalizing identities with
  | nil => cases h
  | cons update updates ih =>
    rw [validate_updates, scope_namespace_of_isSome (hlimit update mem_cons_self)] at h
    simp only [bind, Except.bind] at h
    split at h
    · cases h
      rfl
    · exact ih (fun u hmem => hlimit u (mem_cons_of_mem _ hmem)) h

theorem validate_updates_ok (h : validate_updates access identities updates = .ok ()) :
    (updates.map fun u => (u.scope, u.key)).Nodup ∧
      ∀ u ∈ updates, (u.scope, u.key) ∉ identities := by
  induction updates generalizing identities with
  | nil => simp
  | cons update updates ih =>
    rw [validate_updates] at h
    cases hns : access.scope_namespace update.scope with
    | error e => rw [hns] at h; cases h
    | ok ns =>
      rw [hns] at h
      simp only [bind, Except.bind] at h
      split at h
      · cases h
      · rename_i hnot
        obtain ⟨hnodup, hfree⟩ := ih h
        refine ⟨List.nodup_cons.mpr ⟨?_, hnodup⟩, ?_⟩
        · intro hmem
          obtain ⟨u, hu, heq⟩ := mem_map.mp hmem
          exact hfree u hu (heq ▸ mem_cons_self)
        · intro u hu
          rcases mem_cons.mp hu with rfl | hu
          · exact hnot
          · exact fun hmem => hfree u hu (mem_cons_of_mem _ hmem)

theorem validate_updates_of_nodup (hlimit : ∀ u ∈ updates, (access.limits u.scope).isSome)
    (hnodup : (updates.map fun u => (u.scope, u.key)).Nodup)
    (hfree : ∀ u ∈ updates, (u.scope, u.key) ∉ identities) :
    validate_updates access identities updates = .ok () := by
  induction updates generalizing identities with
  | nil => rfl
  | cons update updates ih =>
    obtain ⟨hnot, hrest⟩ := List.nodup_cons.mp hnodup
    rw [validate_updates, scope_namespace_of_isSome (hlimit update mem_cons_self)]
    simp only [bind, Except.bind]
    rw [if_neg (hfree update mem_cons_self)]
    refine ih (fun u hmem => hlimit u (mem_cons_of_mem _ hmem)) hrest ?_
    intro u hmem hin
    rcases mem_cons.mp hin with heq | hin
    · exact hnot (mem_map.mpr ⟨u, hmem, heq⟩)
    · exact hfree u (mem_cons_of_mem _ hmem) hin

/-- The ways a checked batch can still fail. -/
theorem apply_updates_error (hlimit : ∀ u ∈ updates, (access.limits u.scope).isSome)
    (hchecked : (updates.map fun u => (u.scope, u.key)).Nodup →
      ∀ u ∈ updates, Checked access entries u)
    (h : apply_updates access entries updates = .error e) : e.code = "state.capacity.exceeded" ∨
      (e.code = "state.update.duplicate" ∧ ¬ (updates.map fun u => (u.scope, u.key)).Nodup) ∨
      e.code = "state.entry.missing" ∧ ∃ u ∈ updates, u.operation = .delete ∧
        update_version access entries u = 0 := by
  unfold apply_updates at h
  cases hval : validate_updates access [] updates with
  | error e' =>
    rw [hval] at h
    cases h
    refine Or.inr (Or.inl ⟨validate_updates_error hlimit hval, ?_⟩)
    intro hnodup
    rw [validate_updates_of_nodup hlimit hnodup (by simp)] at hval
    cases hval
  | ok u =>
    rw [hval] at h
    have hnodup := (validate_updates_ok hval).1
    rcases apply_to_error hnodup (hchecked hnodup) h with hcap | hmiss
    · exact Or.inl hcap
    · exact Or.inr (Or.inr hmiss)

end MininetAi
