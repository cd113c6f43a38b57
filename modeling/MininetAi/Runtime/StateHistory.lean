/-
Runs of the in-memory shared-state store (`InMemorySharedStateStore` in
`mininet_ai/runtime/state.py`).

`apply` works on a copy of the table and puts it in the table's place when the whole
batch has passed. `committed` is bookkeeping: every mutation that was committed, in
order, with the version it got. A row's version is the number of mutations committed
for its key, deletions included, which is why no version is given twice and why an
expected version that is still current means that nothing was committed in between.
-/
import MininetAi.Lib.Transition
import MininetAi.Runtime.State

set_option autoImplicit false

namespace MininetAi

open Option

open List

/-! ## The store -/

/-- A committed mutation: its key, what it expected, and the version it got. -/
structure CommittedUpdate where
  id : String × String
  operation : UpdateOperation
  expected_version : Option ℕ
  version : ℕ
  deriving DecidableEq

/-- `InMemorySharedStateStore`. The second field is bookkeeping. -/
structure InMemoryStore where
  entries : Entries := ∅
  committed : List CommittedUpdate := []

/-- The loop of `_apply_to`: the working copy it leaves, and the changes or what it
raises. -/
def stage_updates (access : SharedStateAccess) :
    Entries → List SharedStateUpdate → Entries × Except SharedStateError (List SharedStateChange)
  | entries, [] => (entries, .ok [])
  | entries, update :: updates => match apply_update access entries update with
    | .error e => (entries, .error e)
    | .ok (entries, change) =>
      let (staged, result) := stage_updates access entries updates
      (staged, result.map (change :: ·))

/-- What is committed with a batch and its changes. -/
def committed_updates (access : SharedStateAccess) (updates : List SharedStateUpdate)
    (changes : List SharedStateChange) : List CommittedUpdate :=
  zipWith (fun update change =>
    { id := update_id access update
      operation := update.operation
      expected_version := update.expected_version
      version := change.version }) updates changes

/-- `apply`: what it returns or raises, and the store after it. -/
def InMemoryStore.apply (store : InMemoryStore) (access : SharedStateAccess)
    (updates : List SharedStateUpdate) :
    Except SharedStateError (List SharedStateChange) × InMemoryStore :=
  match validate_updates access [] updates with
  | .error e => (.error e, store)
  | .ok () => match stage_updates access store.entries updates with
    | (_, .error e) => (.error e, store)
    | (staged, .ok changes) =>
      (.ok changes,
        { entries := staged
          committed := store.committed ++ committed_updates access updates changes })

/-- One call of `apply`. -/
structure ApplyCall where
  access : SharedStateAccess
  updates : List SharedStateUpdate

/-- A store in use: calls of `apply` in any order. -/
def store_system : System InMemoryStore ApplyCall where
  init store := store = {}
  step store call := some (store.apply call.access call.updates).2

/-! ## Batches -/

/-- The working copy is what the loop returns when it returns. -/
theorem stage_updates_eq (access : SharedStateAccess) (updates : List SharedStateUpdate) :
    ∀ entries, (stage_updates access entries updates).2 =
      (apply_to access entries updates).map Prod.snd ∧
      ∀ entries' changes, apply_to access entries updates = .ok (entries', changes) →
        (stage_updates access entries updates).1 = entries' := by
  induction updates with
  | nil =>
    refine fun entries => ⟨rfl, fun entries' changes h => ?_⟩
    rw [apply_to] at h
    exact congrArg Prod.fst (Except.ok.inj h)
  | cons update updates ih =>
    intro entries
    rw [stage_updates, apply_to]
    cases hu : apply_update access entries update with
    | error e => exact ⟨rfl, fun entries' changes h => by cases h⟩
    | ok r =>
      obtain ⟨between, change⟩ := r
      obtain ⟨hresult, hstaged⟩ := ih between
      simp only [bind, Except.bind]
      cases hrest : apply_to access between updates with
      | error e =>
        rw [hrest] at hresult
        refine ⟨?_, fun entries' changes h => by cases h⟩
        rw [hresult]
        rfl
      | ok r =>
        obtain ⟨final, rest⟩ := r
        rw [hrest] at hresult
        refine ⟨?_, fun entries' changes h => ?_⟩
        · rw [hresult]
          rfl
        · cases h
          exact hstaged final rest hrest

/-- `apply` is the function of the table it was modelled as before. -/
theorem InMemoryStore.apply_eq (store : InMemoryStore) (access : SharedStateAccess)
    (updates : List SharedStateUpdate) :
    store.apply access updates = match apply_updates access store.entries updates with
      | .error e => (.error e, store)
      | .ok (entries, changes) =>
        (.ok changes,
          { entries := entries
            committed := store.committed ++ committed_updates access updates changes }) := by
  unfold InMemoryStore.apply apply_updates
  cases hvalid : validate_updates access [] updates with
  | error e => rfl
  | ok u =>
    obtain ⟨hresult, hstaged⟩ := stage_updates_eq access updates store.entries
    simp only [bind, Except.bind]
    cases happly : apply_to access store.entries updates with
    | error e =>
      rw [happly] at hresult
      rw [← Prod.mk.eta (p := stage_updates access store.entries updates), hresult]
      rfl
    | ok r =>
      obtain ⟨entries, changes⟩ := r
      rw [happly] at hresult
      rw [← Prod.mk.eta (p := stage_updates access store.entries updates), hresult,
        hstaged entries changes happly]
      rfl

/-! ## What is refused -/

/-- Why the loop refuses an update of a table. -/
inductive Refused (access : SharedStateAccess) (entries : Entries) (update : SharedStateUpdate) :
    Prop
  | forbidden (h : access.limits update.scope = none)
  /-- The expected version is stale, or it is missing and there is a visible entry. -/
  | version (h : update.expected_version.getD 0 ≠ update_version access entries update)
  | missing (hoperation : update.operation = .delete)
      (h : update_version access entries update = 0)
  | capacity {limit : ℕ} (hoperation : update.operation = .set)
      (h : update_version access entries update = 0)
      (hlimit : access.limits update.scope = some limit)
      (hfull : limit ≤ active_entries entries
        (namespace_name access.run_id access.deployment update.scope))

/-- The version check compares with the visible version, and a missing one counts as
zero. -/
theorem check_expected_iff (update : SharedStateUpdate) (current : Option StoredEntry) :
    check_expected update (current.map StoredEntry.version)
        (current.elim true StoredEntry.deleted) = .ok () ↔
      update.expected_version.getD 0 = (stored_cell current).visible_version := by
  have hvisible : (stored_cell current).visible_version =
      (if current.elim true StoredEntry.deleted then none
        else current.map StoredEntry.version).getD 0 := by
    cases current with
    | none => rfl
    | some row =>
      by_cases hdeleted : row.deleted = true
      · simp [stored_cell, Cell.visible_version, StoredEntry.visible, hdeleted]
      · simp [stored_cell, Cell.visible_version, StoredEntry.visible, hdeleted]
  have hpos : ∀ v, (if current.elim true StoredEntry.deleted then none
      else current.map StoredEntry.version) = some v → 0 < v := by
    intro v hv
    cases current with
    | none => cases hv
    | some row =>
      rw [ite_none_left_eq_some] at hv
      obtain ⟨_, hversion⟩ := hv
      rw [← Option.some.inj hversion]
      exact row.version_pos
  rw [hvisible]
  unfold check_expected
  generalize (if current.elim true StoredEntry.deleted then none
    else current.map StoredEntry.version) = visible at hpos
  cases hexpected : update.expected_version with
  | none =>
    cases visible with
    | none => exact iff_of_true rfl rfl
    | some v =>
      have hv := hpos v rfl
      refine iff_of_false (fun h => by cases h) ?_
      simp only [getD_none, getD_some]
      omega
  | some expected =>
    cases visible with
    | none =>
      simp only [bind, Except.bind, pure, Except.pure, getD_some, getD_none,
        and_true]
      split
      · rename_i hzero
        exact iff_of_true rfl hzero
      · rename_i hzero
        exact iff_of_false (fun h => by cases h) hzero
    | some v =>
      simp only [bind, Except.bind, pure, Except.pure, getD_some, reduceCtorEq, and_false,
        if_false, ne_eq, Option.some.injEq]
      split
      · rename_i hne
        exact iff_of_false (fun h => by cases h) hne
      · rename_i heq
        exact iff_of_true rfl (not_not.mp heq)

/-- An entry is deleted or missing exactly when its visible version is zero. -/
theorem deleted_iff (current : Option StoredEntry) :
    current.elim true StoredEntry.deleted = true ↔ (stored_cell current).visible_version = 0 := by
  cases current with
  | none => exact iff_of_true rfl rfl
  | some row =>
    have hpos := row.version_pos
    by_cases hdeleted : row.deleted = true
    · simp [stored_cell, Cell.visible_version, StoredEntry.visible, hdeleted]
    · simp only [stored_cell, Cell.visible_version, StoredEntry.visible, hdeleted, elim_some,
        Bool.false_eq_true, if_false, isSome_some, if_true, false_iff]
      omega

/-- An update passes exactly when nothing refuses it. -/
theorem apply_update_ok_iff (access : SharedStateAccess) (entries : Entries)
    (update : SharedStateUpdate) :
    (∃ r, apply_update access entries update = .ok r) ↔ ¬ Refused access entries update := by
  unfold apply_update
  cases hlimit : access.limits update.scope with
  | none =>
    have hnone : (access.limits update.scope).isNone = true := by
      rw [hlimit]
      rfl
    refine iff_of_false ?_ fun h => h (.forbidden hlimit)
    rintro ⟨r, hr⟩
    rw [SharedStateAccess.scope_namespace, if_pos hnone] at hr
    cases hr
  | some limit =>
    have hsome : (access.limits update.scope).isSome := by
      rw [hlimit]
      rfl
    rw [scope_namespace_of_isSome hsome]
    simp only [bind, Except.bind]
    have hcheck := check_expected_iff update (entries.lookup (update_id access update))
    have hdeleted := deleted_iff (entries.lookup (update_id access update))
    cases hresult : check_expected update ((entries.lookup (update_id access update)).map
          StoredEntry.version) ((entries.lookup (update_id access update)).elim true
          StoredEntry.deleted) with
    | error e =>
      have hversion : update.expected_version.getD 0 ≠ update_version access entries update := by
        intro heq
        rw [hcheck.mpr heq] at hresult
        cases hresult
      refine iff_of_false ?_ fun h => h (.version hversion)
      rintro ⟨r, hr⟩
      cases hr
    | ok u =>
      have hversion : update.expected_version.getD 0 = update_version access entries update :=
        hcheck.mp hresult
      simp only
      split
      · rename_i hmissing
        refine iff_of_false ?_ fun h => h (.missing hmissing.1 (hdeleted.mp hmissing.2))
        rintro ⟨r, hr⟩
        cases hr
      · rename_i hpresent
        split
        · rename_i hfull
          refine iff_of_false ?_ fun h => h (.capacity hfull.1 (hdeleted.mp hfull.2.1) hlimit ?_)
          · rintro ⟨r, hr⟩
            cases hr
          · simpa [hlimit] using hfull.2.2
        · rename_i hroom
          refine iff_of_true ⟨_, rfl⟩ ?_
          rintro (hforbidden | hne | ⟨hdelete, hzero⟩ | ⟨hset, hzero, hlimit', hfull⟩)
          · rw [hlimit] at hforbidden
            cases hforbidden
          · exact hne hversion
          · exact hpresent ⟨hdelete, hdeleted.mpr hzero⟩
          · refine hroom ⟨hset, hdeleted.mpr hzero, ?_⟩
            rw [hlimit] at hlimit'
            cases hlimit'
            exact decide_eq_true hfull

/-- Why a batch is refused: what `_validate_updates` raises, and what the loop raises
at one of the updates, on the copy the updates before it have left. -/
inductive BatchRefused (access : SharedStateAccess) (entries : Entries)
    (updates : List SharedStateUpdate) : Prop
  | forbidden {update : SharedStateUpdate} (hmem : update ∈ updates)
      (h : access.limits update.scope = none)
  | duplicate (h : ¬ (updates.map fun update => (update.scope, update.key)).Nodup)
  | refused {k : ℕ} {update : SharedStateUpdate} (hk : updates[k]? = some update)
      (h : Refused access (stage_updates access entries (updates.take k)).1 update)

variable {access : SharedStateAccess} {updates : List SharedStateUpdate}
  {entries entries' : Entries} {update : SharedStateUpdate} {change : SharedStateChange}
  {changes : List SharedStateChange} {store store' : InMemoryStore}

theorem validate_updates_authorized {identities : List (SharedScope × String)}
    (h : validate_updates access identities updates = .ok ()) :
    ∀ update ∈ updates, (access.limits update.scope).isSome := by
  induction updates generalizing identities with
  | nil => exact fun _ hmem => by cases hmem
  | cons update updates ih =>
    rw [validate_updates] at h
    cases hns : access.scope_namespace update.scope with
    | error e =>
      rw [hns] at h
      cases h
    | ok ns =>
      rw [hns] at h
      simp only [bind, Except.bind] at h
      split at h
      · cases h
      · intro other hother
        rcases mem_cons.mp hother with rfl | hrest
        · exact (scope_namespace_ok hns).1
        · exact ih h other hrest

theorem validate_updates_ok_iff (access : SharedStateAccess) (updates : List SharedStateUpdate) :
    validate_updates access [] updates = .ok () ↔
      (∀ update ∈ updates, (access.limits update.scope).isSome) ∧
        (updates.map fun update => (update.scope, update.key)).Nodup := by
  constructor
  · exact fun h => ⟨validate_updates_authorized h, (validate_updates_ok h).1⟩
  · rintro ⟨hauthorized, hnodup⟩
    exact validate_updates_of_nodup hauthorized hnodup fun _ _ hmem => by cases hmem

/-- The loop returns exactly when it refuses no update. -/
theorem apply_to_ok_iff (access : SharedStateAccess) (updates : List SharedStateUpdate) :
    ∀ entries, (∃ r, apply_to access entries updates = .ok r) ↔
      ∀ k update, updates[k]? = some update →
        ¬ Refused access (stage_updates access entries (updates.take k)).1 update := by
  induction updates with
  | nil =>
    intro entries
    refine iff_of_true ⟨_, rfl⟩ fun k update hk => ?_
    rw [getElem?_nil] at hk
    cases hk
  | cons update updates ih =>
    intro entries
    have hfirst := apply_update_ok_iff access entries update
    rw [apply_to]
    cases hu : apply_update access entries update with
    | error e =>
      refine iff_of_false (by rintro ⟨r, hr⟩; cases hr) fun h => ?_
      obtain ⟨r, hr⟩ := hfirst.mpr (h 0 update rfl)
      rw [hu] at hr
      cases hr
    | ok r =>
      obtain ⟨between, change⟩ := r
      have hstage : ∀ k, (stage_updates access entries ((update :: updates).take (k + 1))).1 =
          (stage_updates access between (updates.take k)).1 := by
        intro k
        rw [take_succ_cons, stage_updates, hu]
      have hrest : (∃ r, (apply_to access between updates).bind
          (fun r => .ok (r.1, change :: r.2)) = .ok r) ↔
          ∃ r, apply_to access between updates = .ok r := by
        cases apply_to access between updates with
        | error e =>
          refine iff_of_false ?_ ?_
          all_goals
            rintro ⟨r, hr⟩
            cases hr
        | ok r => exact iff_of_true ⟨_, rfl⟩ ⟨_, rfl⟩
      refine hrest.trans ((ih between).trans ⟨fun h k u hk => ?_, fun h k u hk => ?_⟩)
      · cases k with
        | zero =>
          cases hk
          exact hfirst.mp ⟨_, hu⟩
        | succ k =>
          rw [hstage]
          exact h k u hk
      · rw [← hstage]
        exact h (k + 1) u hk

/-- A batch is refused for one of these reasons, and for no other. -/
theorem apply_updates_ok_iff (access : SharedStateAccess) (entries : Entries)
    (updates : List SharedStateUpdate) :
    (∃ r, apply_updates access entries updates = .ok r) ↔ ¬ BatchRefused access entries updates := by
  have hvalid := validate_updates_ok_iff access updates
  have hloop := apply_to_ok_iff access updates entries
  unfold apply_updates
  cases hresult : validate_updates access [] updates with
  | error e =>
    refine iff_of_false (by rintro ⟨r, hr⟩; cases hr) fun h => ?_
    have hok : validate_updates access [] updates = .ok () := hvalid.mpr
      ⟨fun update hmem => isSome_iff_ne_none.mpr fun hnone => h (.forbidden hmem hnone),
        not_not.mp fun hdup => h (.duplicate hdup)⟩
    rw [hresult] at hok
    cases hok
  | ok u =>
    obtain ⟨hauthorized, hnodup⟩ := hvalid.mp hresult
    refine hloop.trans ⟨fun h => ?_, fun h k update hk hrefused => h (.refused hk hrefused)⟩
    rintro (⟨hmem, hnone⟩ | hdup | ⟨hk, hrefused⟩)
    · exact isSome_iff_ne_none.mp (hauthorized _ hmem) hnone
    · exact hdup hnodup
    · exact h _ _ hk hrefused

/-! ## What is committed -/

/-- The version of a key, deleted or not; zero when nothing was ever written. -/
def row_version (entries : Entries) (id : String × String) : ℕ :=
  (stored_cell (entries.lookup id)).version

/-- The versions a log has given a key. -/
def versions_of (committed : List CommittedUpdate) (id : String × String) : List ℕ :=
  (committed.filter fun c => c.id = id).map CommittedUpdate.version

theorem versions_of_append (committed more : List CommittedUpdate) (id : String × String) :
    versions_of (committed ++ more) id = versions_of committed id ++ versions_of more id := by
  rw [versions_of, filter_append, map_append]
  rfl

/-- An update that passes raises the version of its key by one and no other. -/
theorem apply_update_version (h : apply_update access entries update = .ok (entries', change)) :
    change.version = row_version entries (update_id access update) + 1 ∧
      row_version entries' (update_id access update) = change.version ∧
      ∀ id, id ≠ update_id access update → entries'.lookup id = entries.lookup id := by
  obtain ⟨ns, hns, rfl, rfl⟩ := apply_update_written h
  obtain ⟨_, rfl⟩ := scope_namespace_ok hns
  refine ⟨?_, ?_, fun id hid => AList.lookup_insert_ne hid⟩
  · unfold row_version update_id
    cases entries.lookup (update_id access update)
    · rfl
    · rfl
  · unfold row_version update_id
    rw [AList.lookup_insert]
    rfl

/-- A batch gives each key the versions that follow the one it has. -/
theorem apply_to_versions (h : apply_to access entries updates = .ok (entries', changes))
    (id : String × String) :
    ∃ n, versions_of (committed_updates access updates changes) id =
        range' (row_version entries id + 1) n ∧
      row_version entries' id = row_version entries id + n := by
  induction updates generalizing entries changes with
  | nil =>
    cases h
    exact ⟨0, rfl, rfl⟩
  | cons update updates ih =>
    obtain ⟨between, change, rest, hu, hrest, rfl⟩ := apply_to_cons_ok h
    obtain ⟨hchange, hstored, hothers⟩ := apply_update_version hu
    obtain ⟨n, hversions, hlast⟩ := ih hrest
    have hcons : committed_updates access (update :: updates) (change :: rest) =
        [{ id := update_id access update
           operation := update.operation
           expected_version := update.expected_version
           version := change.version }] ++ committed_updates access updates rest := rfl
    rw [hcons, versions_of_append, hversions]
    by_cases hid : id = update_id access update
    · refine ⟨n + 1, ?_, ?_⟩
      · rw [← hid] at hchange hstored
        rw [hstored, hchange, hid, range'_succ]
        simp [versions_of]
      · rw [hlast, hid, hstored, hchange]
        omega
    · refine ⟨n, ?_, ?_⟩
      · have hsame : row_version between id = row_version entries id := by
          unfold row_version
          rw [hothers id hid]
        rw [hsame]
        simp [versions_of, Ne.symm hid]
      · rw [hlast]
        unfold row_version
        rw [hothers id hid]

/-- What holds between an update of a committed batch and its change. -/
structure Raised (access : SharedStateAccess) (entries entries' : Entries)
    (update : SharedStateUpdate) (change : SharedStateChange) : Prop where
  version_eq : change.version = row_version entries (update_id access update) + 1
  stored : row_version entries' (update_id access update) = change.version
  expected : update.expected_version.getD 0 = update_version access entries update
  key_eq : change.scope = update.scope ∧ change.operation = update.operation ∧
    change.key = update.key

theorem update_id_inj {other : SharedStateUpdate}
    (h : update_id access update = update_id access other) :
    (update.scope, update.key) = (other.scope, other.key) := by
  obtain ⟨hns, hkey⟩ := Prod.ext_iff.mp h
  exact Prod.ext (namespace_name_inj hns).1 hkey

/-- The row of one key decides whether it is raised. -/
theorem Raised.frame {between : Entries}
    (hsame : between.lookup (update_id access update) = entries.lookup (update_id access update))
    (h : Raised access between entries' update change) :
    Raised access entries entries' update change := by
  have hrow : row_version between (update_id access update) =
      row_version entries (update_id access update) := by
    unfold row_version
    rw [hsame]
  have hvisible : update_version access between update = update_version access entries update :=
    congrArg (fun row => (stored_cell row).visible_version) hsame
  refine ⟨?_, h.stored, ?_, h.key_eq⟩
  · rw [← hrow]
    exact h.version_eq
  · rw [← hvisible]
    exact h.expected

/-- A batch without duplicates raises each of its keys once. The induction is on the
batch: no other update touches the row of the first one. -/
theorem apply_to_raised (hnodup : (updates.map fun update => (update.scope, update.key)).Nodup)
    (h : apply_to access entries updates = .ok (entries', changes)) :
    Forall₂ (Raised access entries entries') updates changes := by
  induction updates generalizing entries changes with
  | nil =>
    cases h
    exact .nil
  | cons update updates ih =>
    obtain ⟨between, change, rest, hu, hrest, rfl⟩ := apply_to_cons_ok h
    obtain ⟨hnot, htail⟩ := List.nodup_cons.mp hnodup
    obtain ⟨hchange, hstored, hothers⟩ := apply_update_version hu
    obtain ⟨ns, hns, -, hreported⟩ := apply_update_written hu
    have hpassed : ¬ Refused access entries update :=
      (apply_update_ok_iff access entries update).mp ⟨_, hu⟩
    have hne : ∀ other ∈ updates, update_id access update ≠ update_id access other :=
      fun other hother heq => hnot (mem_map.mpr ⟨other, hother, (update_id_inj heq).symm⟩)
    have hframe : entries'.lookup (update_id access update) =
        between.lookup (update_id access update) := by
      apply apply_to_frame hrest
      intro other hother ns' hns'
      obtain ⟨_, rfl⟩ := scope_namespace_ok hns'
      exact hne other hother
    obtain ⟨hlength, hraised⟩ := forall₂_iff_zip.mp (ih htail hrest)
    refine .cons ⟨hchange, ?_, ?_, ?_⟩ (forall₂_iff_zip.mpr ⟨hlength, ?_⟩)
    · rw [← hstored]
      unfold row_version
      rw [hframe]
    · by_contra hversion
      exact hpassed (.version hversion)
    · rw [hreported]
      exact ⟨rfl, rfl, rfl⟩
    · intro other otherChange hmem
      have hother : other ∈ updates := (of_mem_zip hmem).1
      exact (hraised hmem).frame (hothers _ (hne other hother).symm)

/-! ## Capacity -/

/-- What a row adds to the count of a namespace. -/
def active_weight (ns : String) (id : String × String) (row : StoredEntry) : ℕ :=
  (decide (id.1 = ns ∧ row.deleted = false)).toNat

/-- Writing a row exchanges what the row it replaces adds. -/
theorem active_entries_insert (entries : Entries) (ns : String) (id : String × String)
    (row : StoredEntry) :
    active_entries (entries.insert id row) ns +
        (entries.lookup id).elim 0 (active_weight ns id) =
      active_entries entries ns + active_weight ns id row :=
  AList.countP_insert _ entries id row

/-- A namespace grows only by an update of it that found room. -/
theorem apply_update_active (h : apply_update access entries update = .ok (entries', change))
    (ns : String) :
    active_entries entries' ns ≤ active_entries entries ns ∨
      ns = namespace_name access.run_id access.deployment update.scope ∧
        ∃ limit, access.limits update.scope = some limit ∧ active_entries entries' ns ≤ limit := by
  have hpassed : ¬ Refused access entries update :=
    (apply_update_ok_iff access entries update).mp ⟨_, h⟩
  obtain ⟨ns', hns', hentries, -⟩ := apply_update_written h
  obtain ⟨hauthorized, rfl⟩ := scope_namespace_ok hns'
  obtain rfl : entries' = entries.insert (update_id access update)
    (written_entry access update (entries.lookup (update_id access update))) := hentries
  have hcount := active_entries_insert entries ns (update_id access update)
    (written_entry access update (entries.lookup (update_id access update)))
  by_cases hns : ns = namespace_name access.run_id access.deployment update.scope
  · by_cases hzero : update_version access entries update = 0
    · -- the key had no visible entry, so the loop compared the count with the limit
      obtain ⟨limit, hlimit⟩ := isSome_iff_exists.mp hauthorized
      by_cases hset : update.operation = .set
      · have hroom : active_entries entries ns < limit := by
          by_contra hfull
          refine hpassed (.capacity hset hzero hlimit ?_)
          rw [← hns]
          omega
        have hweight : ∀ row, active_weight ns (update_id access update) row ≤ 1 :=
          fun row => Bool.toNat_le _
        refine Or.inr ⟨hns, limit, hlimit, ?_⟩
        have hwritten := hweight (written_entry access update (entries.lookup
          (update_id access update)))
        omega
      · have hdelete : update.operation = .delete := by
          cases hoperation : update.operation with
          | set => exact absurd hoperation hset
          | delete => rfl
        exact absurd (.missing hdelete hzero) hpassed
    · -- the key had one, which is replaced
      have hvisible : (entries.lookup (update_id access update)).elim true StoredEntry.deleted =
          false :=
        Bool.eq_false_iff.mpr fun hdeleted => hzero ((deleted_iff _).mp hdeleted)
      refine Or.inl ?_
      cases hrow : entries.lookup (update_id access update) with
      | none =>
        rw [hrow] at hvisible
        cases hvisible
      | some row =>
        rw [hrow] at hvisible hcount
        have hone : active_weight ns (update_id access update) row = 1 := by
          rw [active_weight, decide_eq_true ⟨hns.symm, hvisible⟩]
          rfl
        have hle : active_weight ns (update_id access update)
            (written_entry access update (some row)) ≤ 1 := Bool.toNat_le _
        rw [elim_some, hone] at hcount
        omega
  · refine Or.inl ?_
    have hweight : ∀ row, active_weight ns (update_id access update) row = 0 := by
      intro row
      rw [active_weight, decide_eq_false fun hboth => hns hboth.1.symm]
      rfl
    rw [hweight] at hcount
    omega

variable {ns : String} {limit : ℕ} {calls : List ApplyCall}

/-- The whole batch keeps a namespace within a limit that all its updates carry. -/
theorem apply_to_active
    (hlimit : ∀ scope, namespace_name access.run_id access.deployment scope = ns →
      ∀ l, access.limits scope = some l → l = limit)
    (h : apply_to access entries updates = .ok (entries', changes))
    (hle : active_entries entries ns ≤ limit) : active_entries entries' ns ≤ limit := by
  induction updates generalizing entries changes with
  | nil =>
    cases h
    exact hle
  | cons update updates ih =>
    obtain ⟨between, change, rest, hu, hrest, -⟩ := apply_to_cons_ok h
    refine ih hrest ?_
    rcases apply_update_active hu ns with hless | ⟨hns, l, hl, hroom⟩
    · exact hless.trans hle
    · rw [hlimit update.scope hns.symm l hl] at hroom
      exact hroom

/-! ## Calls -/

/-- What a call of `apply` that returns has done. -/
structure BatchCommitted (access : SharedStateAccess) (updates : List SharedStateUpdate)
    (changes : List SharedStateChange) (store store' : InMemoryStore) : Prop where
  raised : Forall₂ (Raised access store.entries store'.entries) updates changes
  /-- The rows it does not name. -/
  others : ∀ id, (∀ update ∈ updates, id ≠ update_id access update) →
    store'.entries.lookup id = store.entries.lookup id
  logged : store'.committed = store.committed ++ committed_updates access updates changes

/-- Every mutation of a committed batch expected the version it found. -/
theorem BatchCommitted.expected_eq (h : BatchCommitted access updates changes store store')
    (hmem : update ∈ updates) :
    update.expected_version.getD 0 = update_version access store.entries update := by
  obtain ⟨hlength, hraised⟩ := forall₂_iff_get.mp h.raised
  obtain ⟨i, rfl⟩ := mem_iff_get.mp hmem
  exact (hraised i i.isLt (hlength ▸ i.isLt)).expected

/-- A call either raises and leaves the store, or commits the whole batch. -/
theorem InMemoryStore.apply_cases (store : InMemoryStore) (access : SharedStateAccess)
    (updates : List SharedStateUpdate) :
    (∃ e, store.apply access updates = (.error e, store) ∧
      BatchRefused access store.entries updates) ∨
    ∃ changes store', store.apply access updates = (.ok changes, store') ∧
      ¬ BatchRefused access store.entries updates ∧
      apply_to access store.entries updates = .ok (store'.entries, changes) ∧
      BatchCommitted access updates changes store store' := by
  have hdecided := apply_updates_ok_iff access store.entries updates
  rw [store.apply_eq]
  cases happly : apply_updates access store.entries updates with
  | error e =>
    refine Or.inl ⟨e, rfl, ?_⟩
    by_contra hpassed
    obtain ⟨r, hr⟩ := hdecided.mpr hpassed
    rw [happly] at hr
    cases hr
  | ok r =>
    obtain ⟨entries', changes⟩ := r
    have hpassed : ¬ BatchRefused access store.entries updates := hdecided.mp ⟨_, happly⟩
    have hto := apply_updates_ok happly
    have hnodup : (updates.map fun update => (update.scope, update.key)).Nodup :=
      not_not.mp fun hdup => hpassed (.duplicate hdup)
    refine Or.inr ⟨changes, _, rfl, hpassed, hto, apply_to_raised hnodup hto, ?_, rfl⟩
    intro id hid
    apply apply_to_frame hto
    intro update hmem ns hns
    obtain ⟨_, rfl⟩ := scope_namespace_ok hns
    exact hid update hmem

/-! ## Runs -/

/-- The log gives every key the versions from one to the one it has. -/
def LogDense (store : InMemoryStore) : Prop :=
  ∀ id, versions_of store.committed id = range' 1 (row_version store.entries id)

theorem log_dense (h : store_system.Reachable store) : LogDense store := by
  refine h.invariant ?_ ?_
  · rintro store rfl id
    rfl
  · intro store call store' _ hdense hstep id
    cases hstep
    rcases store.apply_cases call.access call.updates with ⟨e, happly, -⟩ |
      ⟨changes, next, happly, -, hto, hbatch⟩
    · rw [happly]
      exact hdense id
    · rw [happly]
      obtain ⟨n, hversions, hlast⟩ := apply_to_versions hto id
      rw [hbatch.logged, versions_of_append, hdense id, hversions, hlast, Nat.add_comm _ 1,
        range'_append_1]

/-- The log is only appended to. -/
theorem committed_grows (h : store_system.run store calls = some store') :
    store.committed <+: store'.committed := by
  induction calls generalizing store with
  | nil =>
    cases h
    exact prefix_rfl
  | cons call calls ih =>
    refine IsPrefix.trans ?_ (ih h)
    rcases store.apply_cases call.access call.updates with ⟨e, happly, -⟩ |
      ⟨changes, next, happly, -, -, hbatch⟩
    · have hsame := congrArg (fun r => r.2.committed) happly
      exact ⟨[], (append_nil _).trans hsame.symm⟩
    · rw [happly, hbatch.logged]
      exact prefix_append _ _

/-- While the version of a key is the same, nothing was committed for it. -/
theorem untouched_of_version (h : store_system.Reachable store)
    (hrun : store_system.run store calls = some store') {id : String × String}
    (hversion : row_version store'.entries id = row_version store.entries id) :
    store'.committed.filter (fun c => c.id = id) = store.committed.filter fun c => c.id = id := by
  have hstart := (committed_grows hrun).filter fun c => decide (c.id = id)
  have hlength : ∀ s : InMemoryStore, store_system.Reachable s →
      (s.committed.filter fun c => c.id = id).length = row_version s.entries id := by
    intro s hs
    have hdense := congrArg length (log_dense hs id)
    rw [versions_of, length_map, length_range'] at hdense
    exact hdense
  refine (hstart.eq_of_length ?_).symm
  rw [hlength store h, hlength store' (h.run hrun), hversion]

/-- The calls whose access to a namespace, if it has one, carries this limit. -/
def CarriesLimit (ns : String) (limit : ℕ) (_ : InMemoryStore) (call : ApplyCall) : Prop :=
  ∀ scope, namespace_name call.access.run_id call.access.deployment scope = ns →
    ∀ l, call.access.limits scope = some l → l = limit

theorem active_bounded (h : store_system.ReachableUnder (CarriesLimit ns limit) store) :
    active_entries store.entries ns ≤ limit := by
  refine h.invariant (P := fun store => active_entries store.entries ns ≤ limit) ?_ ?_
  · rintro store rfl
    exact Nat.zero_le _
  · intro store call store' _ hle hlimit hstep
    cases hstep
    rcases store.apply_cases call.access call.updates with ⟨e, happly, -⟩ |
      ⟨changes, next, happly, -, hto, -⟩
    · rw [happly]
      exact hle
    · rw [happly]
      exact apply_to_active hlimit hto hle

/-! ## The contract -/

/-- What the in-memory store guarantees, after any calls. -/
theorem store_contract {store : InMemoryStore} (h : store_system.Reachable store) :
    -- a batch with a mutation that is refused leaves the store, any other one is committed
    (∀ access updates,
      (BatchRefused access store.entries updates →
        ∃ e, store.apply access updates = (.error e, store)) ∧
      (¬ BatchRefused access store.entries updates →
        ∃ changes store', store.apply access updates = (.ok changes, store') ∧
          BatchCommitted access updates changes store store')) ∧
    -- the versions a key was given are those from one on, each of them once
    (∀ id, versions_of store.committed id = range' 1 (row_version store.entries id)) ∧
    -- what a mutation that is committed later expected of this store still held
    (∀ calls store', store_system.run store calls = some store' →
      ∀ access updates changes, (store'.apply access updates).1 = .ok changes →
        ∀ update ∈ updates,
          (∀ v, 1 ≤ v → update.expected_version = some v →
            row_version store.entries (update_id access update) = v →
              store'.committed.filter (fun c => c.id = update_id access update) =
                store.committed.filter fun c => c.id = update_id access update) ∧
          (update.expected_version = some 0 →
            (store'.entries.lookup (update_id access update)).bind StoredEntry.visible = none)) ∧
    -- a namespace stays within the limit its accesses carry
    ∀ ns limit, store_system.ReachableUnder (CarriesLimit ns limit) store →
      active_entries store.entries ns ≤ limit := by
  refine ⟨fun access updates => ⟨fun hrefused => ?_, fun hpassed => ?_⟩, log_dense h, ?_,
    fun ns limit hunder => active_bounded hunder⟩
  · rcases store.apply_cases access updates with ⟨e, happly, -⟩ | ⟨changes, next, -, hpassed, -, -⟩
    · exact ⟨e, happly⟩
    · exact absurd hrefused hpassed
  · rcases store.apply_cases access updates with ⟨e, -, hrefused⟩ |
      ⟨changes, next, happly, -, -, hbatch⟩
    · exact absurd hrefused hpassed
    · exact ⟨changes, next, happly, hbatch⟩
  · intro calls store' hrun access updates changes hok update hmem
    rcases store'.apply_cases access updates with ⟨e, happly, -⟩ |
      ⟨changes', next, happly, -, -, hbatch⟩
    · rw [happly] at hok
      cases hok
    · have hexpected := hbatch.expected_eq hmem
      refine ⟨fun v hv hexp hthen => untouched_of_version h hrun ?_, fun hexp => ?_⟩
      · rw [hexp, getD_some] at hexpected
        have hpos : update_version access store'.entries update ≠ 0 := by omega
        have hvisible : row_version store'.entries (update_id access update) =
            update_version access store'.entries update := Cell.version_of_visible hpos
        rw [hthen, hvisible, hexpected]
      · rw [hexp, getD_some] at hexpected
        rw [← stored_cell_value]
        exact Cell.value_of_visible_zero hexpected.symm

/-- An agent of the run `r` that may keep one entry, and a batch it may send. -/
def tombstone_access : SharedStateAccess where
  run_id := "r"
  deployment := "d"
  agent_id := "a"
  limits := fun scope => if scope = .run then some 1 else none

/-- A mutation of the key `k` in the run scope. -/
def tombstone_update (operation : UpdateOperation) (expected_version : Option ℕ) :
    SharedStateUpdate where
  scope := .run
  operation := operation
  key := "k"
  value := .null
  expected_version := expected_version

/-- The key is created, deleted and created again. -/
def tombstone_calls : List ApplyCall :=
  [⟨tombstone_access, [tombstone_update .set none]⟩,
    ⟨tombstone_access, [tombstone_update .delete (some 1)]⟩,
    ⟨tombstone_access, [tombstone_update .set (some 0)]⟩]

/-- After them the key has the versions one, two and three behind it, and a mutation
that still expects version one changes nothing. -/
theorem store_contract_tombstone :
    ∃ store, store_system.run {} tombstone_calls = some store ∧
      versions_of store.committed ("run:r", "k") = [1, 2, 3] ∧
      ∃ e, store.apply tombstone_access [tombstone_update .set (some 1)] = (.error e, store) := by
  have hrun : (store_system.run {} tombstone_calls).any (fun store =>
      row_version store.entries ("run:r", "k") = 3 ∧
        update_version tombstone_access store.entries (tombstone_update .set (some 1)) = 3) =
      true := by decide
  obtain ⟨store, hstore, hafter⟩ := (any_eq_true _ _).mp hrun
  obtain ⟨hversion, hvisible⟩ := of_decide_eq_true hafter
  have hreachable : store_system.Reachable store := System.Reachable.run (.init rfl) hstore
  obtain ⟨hbatch, hversions, -, -⟩ := store_contract hreachable
  refine ⟨store, hstore, ?_, (hbatch _ _).1 (.refused (k := 0) rfl (.version fun hexpected => ?_))⟩
  · rw [hversions, hversion]
    rfl
  · have hone : (1 : ℕ) = 3 := hexpected.trans hvisible
    omega

end MininetAi
