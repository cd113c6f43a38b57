/-
Which shared-state scopes are isolated from each other (`SharedStateAccess.namespace` in
`mininet_ai/runtime/state.py`, `_database` in `mininet_ai/exports.py`).

A scope is a run or a deployment of a run. Its entries are kept under a namespace that
is its identifiers joined by `:deployment:`. A deployment has a name without colons, so
two deployments have two namespaces; a run may have any identifier, and the identifier
of a run that reads like a deployment of another run gives both the same namespace.
An export takes every namespace that starts like a deployment of the run.
-/
import MininetAi.Lib.Separator
import MininetAi.Runtime.SqliteState
import MininetAi.Runtime.StateHistory

set_option autoImplicit false

namespace MininetAi

open List

/-! ## Scopes -/

/-- What an access denotes in one of its scopes. -/
inductive StateScope where
  | run (run_id : String)
  | deployment (run_id deployment : String)
  deriving DecidableEq

namespace StateScope

def run_id : StateScope → String
  | .run r => r
  | .deployment r _ => r

def kind : StateScope → SharedScope
  | .run _ => .run
  | .deployment _ _ => .deployment

/-- The name of the deployment; a run scope does not look at it. -/
def deployment_name : StateScope → String
  | .run _ => ""
  | .deployment _ name => name

def entries_namespace (s : StateScope) : String :=
  namespace_name s.run_id s.deployment_name s.kind

end StateScope

/-- `NAME_PATTERN` after its first letter. -/
def name_character (c : Char) : Bool :=
  c.isAlphanum || c == '_' || c == '.' || c == '-'

/-- `NAME_PATTERN` from its first letter on. -/
def name_characters : List Char → Bool
  | [] => false
  | c :: cs => c.isAlpha && cs.all name_character

/-- `Name`. -/
def is_name (name : String) : Bool :=
  name_characters name.toList && name.length ≤ 128

/-- The identifiers the code takes: a run has a nonempty one, a deployment a `Name`. -/
def StateScope.Admitted : StateScope → Prop
  | .run r => r ≠ ""
  | .deployment r name => r ≠ "" ∧ is_name name = true

instance : DecidablePred StateScope.Admitted
  | .run r => inferInstanceAs (Decidable (r ≠ ""))
  | .deployment r name => inferInstanceAs (Decidable (r ≠ "" ∧ is_name name = true))

/-- The scope an access denotes. -/
def SharedStateAccess.denoted (access : SharedStateAccess) : SharedScope → StateScope
  | .run => .run access.run_id
  | .deployment => .deployment access.run_id access.deployment

theorem denoted_namespace (access : SharedStateAccess) (scope : SharedScope) :
    (access.denoted scope).entries_namespace =
      namespace_name access.run_id access.deployment scope := by
  cases scope with
  | run => rfl
  | deployment => rfl

/-- Batches whose mutations are in the scopes `A` do not change snapshots of the scope
`b`. -/
def NonInterfering (A : Set StateScope) (b : StateScope) : Prop :=
  ∀ (access access' : SharedStateAccess) (scope' : SharedScope), access'.denoted scope' = b →
    ∀ (entries entries' : Entries) (updates : List SharedStateUpdate)
      (changes : List SharedStateChange), (∀ update ∈ updates, access.denoted update.scope ∈ A) →
        apply_updates access entries updates = .ok (entries', changes) →
          scope_snapshot entries' access' scope' = scope_snapshot entries access' scope'

/-- Not a run whose identifier reads like the deployment. -/
def Apart : StateScope → StateScope → Prop
  | .run r, .deployment r' name => r ≠ r' ++ ":deployment:" ++ name
  | .deployment r name, .run r' => r' ≠ r ++ ":deployment:" ++ name
  | .run _, .run _ => True
  | .deployment _ _, .deployment _ _ => True

/-! ## Exports -/

/-- One element of the `entries` of an export. -/
structure ExportedEntry where
  entry_namespace : String
  scope : SharedScope
  key : String
  value : Option JsonValue
  version : ℕ
  deleted : Bool
  updated_by : String
  updated_at : String
  deriving DecidableEq

/-- `f"run:{run_id}:deployment:"`. -/
def export_start (run_id : String) : String :=
  "run:" ++ run_id ++ ":deployment:"

/-- U+0000. -/
def null_character : Char := Char.ofNat 0

/-- `substr(text,1,length)`, for which the text ends at its first null character. -/
def sqlite_substr (text : String) (length : ℕ) : List Char :=
  (text.toList.takeWhile (· ≠ null_character)).take length

/-- `namespace=? OR substr(namespace,1,?)=?`. -/
def in_export (run_id ns : String) : Bool :=
  ns = "run:" ++ run_id ∨
    sqlite_substr ns (export_start run_id).toList.length = (export_start run_id).toList

/-- `ORDER BY namespace,key`. -/
def row_order (e e' : Sigma fun _ : String × String => SqliteRow) : Prop :=
  e.1.1 < e'.1.1 ∨ e.1.1 = e'.1.1 ∧ e.1.2 ≤ e'.1.2

instance : DecidableRel row_order :=
  fun e e' => inferInstanceAs (Decidable (e.1.1 < e'.1.1 ∨ e.1.1 = e'.1.1 ∧ e.1.2 ≤ e'.1.2))

/-- The rows an export of a run selects. -/
def export_rows (table : SqliteTable) (run_id : String) :
    List (Sigma fun _ : String × String => SqliteRow) :=
  (table.entries.filter fun e => in_export run_id e.1.1).insertionSort row_order

/-- `json.loads(row[3]) if row[3] is not None else None`. -/
def exported_value (loads : String → Except String JsonValue) :
    Option String → Except String (Option JsonValue)
  | none => .ok none
  | some text => (loads text).map some

/-- The elements of an export, or the text of the error at the first row whose value
cannot be read. -/
def exported_entries (loads : String → Except String JsonValue) :
    List (Sigma fun _ : String × String => SqliteRow) → Except String (List ExportedEntry)
  | [] => .ok []
  | e :: rows => do
      let value ← exported_value loads e.2.value_json
      let entries ← exported_entries loads rows
      pure ({ entry_namespace := e.1.1, scope := e.2.scope, key := e.1.2, value := value,
              version := e.2.version, deleted := e.2.deleted ≠ 0, updated_by := e.2.updated_by,
              updated_at := e.2.updated_at } :: entries)

/-- The `entries` of `_database` for the shared state of a run. -/
def export_database (loads : String → Except String JsonValue) (table : SqliteTable)
    (run_id : String) : Except String (List ExportedEntry) :=
  exported_entries loads (export_rows table run_id)

/-- No export of the run has an entry of the scope. -/
def NotExported (run_id : String) (s : StateScope) : Prop :=
  ∀ loads table entries, export_database loads table run_id = .ok entries →
    ∀ entry ∈ entries, entry.entry_namespace ≠ s.entries_namespace

/-- The identifiers do not read as if the scope were the run or a deployment of it; the
deployments of a run with a null character in its identifier are never found. -/
def ExportApart (run_id : String) : StateScope → Prop
  | .run r => null_character ∉ run_id.toList → ¬ (run_id ++ ":deployment:").toList <+: r.toList
  | .deployment r name => run_id ≠ r ++ ":deployment:" ++ name ∧
      (null_character ∉ run_id.toList → ¬ (run_id ++ ":deployment:").toList <+: (r ++ ":").toList)

/-! ## Namespaces -/

theorem name_characters_colon {cs : List Char} (h : name_characters cs = true) : ':' ∉ cs := by
  cases cs with
  | nil => exact nofun
  | cons c cs =>
    rw [name_characters, Bool.and_eq_true] at h
    obtain ⟨hfirst, hrest⟩ := h
    intro hmem
    rcases mem_cons.mp hmem with rfl | hmem
    · exact absurd hfirst (by decide)
    · exact absurd (all_eq_true.mp hrest _ hmem) (by decide)

theorem is_name_colon {name : String} (h : is_name name = true) : ':' ∉ name.toList := by
  rw [is_name, Bool.and_eq_true] at h
  exact name_characters_colon h.1

/-- The text `:deployment:` with its two colons apart. -/
theorem deployment_text : (":deployment:" : String).toList = ':' :: ("deployment".toList ++ [':']) := by
  decide

theorem deployment_text_colon : ':' ∉ ("deployment" : String).toList := by
  decide

/-- The identifiers of a deployment scope can be read back from its namespace. -/
theorem deployment_namespace_inj {r r' d d' : String} (hd : ':' ∉ d.toList) (hd' : ':' ∉ d'.toList)
    (h : "run:" ++ r ++ ":deployment:" ++ d = "run:" ++ r' ++ ":deployment:" ++ d') :
    r = r' ∧ d = d' := by
  have hlist := congrArg String.toList h
  simp only [String.toList_append, deployment_text, append_assoc, cons_append,
    append_cancel_left_eq] at hlist
  have hsplit := (List.append_separator_inj (s := ':' :: "deployment".toList) hd hd').mp hlist
  exact ⟨String.toList_injective hsplit.1, String.toList_injective hsplit.2⟩

/-- Different admitted scopes have different namespaces, unless one is a run that reads
like the other. -/
theorem entries_namespace_ne_iff {a b : StateScope} (ha : a.Admitted) (hb : b.Admitted)
    (hne : a ≠ b) : a.entries_namespace ≠ b.entries_namespace ↔ Apart a b := by
  have hjoined : ∀ r r' d : String, "run:" ++ r = "run:" ++ r' ++ ":deployment:" ++ d ↔
      r = r' ++ ":deployment:" ++ d := by
    intro r r' d
    rw [String.append_assoc, String.append_assoc, String.append_right_inj, ← String.append_assoc]
  cases a with
  | run r =>
    cases b with
    | run r' =>
      refine iff_of_true (fun heq => hne ?_) trivial
      exact congrArg StateScope.run ((String.append_right_inj _).mp heq)
    | deployment r' d => exact not_congr (hjoined r r' d)
  | deployment r d =>
    cases b with
    | run r' => exact not_congr (eq_comm.trans (hjoined r' r d))
    | deployment r' d' =>
      refine iff_of_true (fun heq => hne ?_) trivial
      obtain ⟨rfl, rfl⟩ := deployment_namespace_inj (is_name_colon ha.2) (is_name_colon hb.2) heq
      rfl

/-! ## Interference -/

/-- A batch leaves the snapshots of every other namespace as they are. -/
theorem scope_snapshot_frame {access access' : SharedStateAccess} {scope' : SharedScope}
    {entries entries' : Entries} {updates : List SharedStateUpdate}
    {changes : List SharedStateChange}
    (hother : ∀ update ∈ updates, namespace_name access.run_id access.deployment update.scope ≠
      namespace_name access'.run_id access'.deployment scope')
    (h : apply_updates access entries updates = .ok (entries', changes)) :
    scope_snapshot entries' access' scope' = scope_snapshot entries access' scope' := by
  unfold scope_snapshot
  cases hns : access'.scope_namespace scope' with
  | error e => rfl
  | ok ns =>
    obtain ⟨-, rfl⟩ := scope_namespace_ok hns
    apply AList.slice_congr
    intro key
    refine congrArg (Option.bind · StoredEntry.visible) (apply_to_frame (apply_updates_ok h) ?_)
    intro update hmem ns hns' hid
    obtain ⟨-, rfl⟩ := scope_namespace_ok hns'
    exact hother update hmem (congrArg Prod.fst hid).symm

/-- An access of one scope, with room for one entry in it. -/
def scope_access (s : StateScope) : SharedStateAccess where
  run_id := s.run_id
  deployment := s.deployment_name
  agent_id := "agent"
  limits := fun _ => some 1

/-- A batch that sets one key of the scope. -/
def scope_update (s : StateScope) : SharedStateUpdate where
  scope := s.kind
  key := "key"

theorem scope_access_denoted (s : StateScope) : (scope_access s).denoted s.kind = s := by
  cases s with
  | run r => rfl
  | deployment r d => rfl

/-- On an empty store the batch is committed. -/
theorem scope_update_ok (s : StateScope) :
    ∃ changes, apply_updates (scope_access s) ∅ [scope_update s] =
      .ok (AList.insert (s.entries_namespace, "key")
        (written_entry (scope_access s) (scope_update s) none) ∅, changes) := by
  have hempty : ∀ id, (∅ : Entries).lookup id = none := fun id => AList.lookup_empty id
  have hpassed : ¬ Refused (scope_access s) ∅ (scope_update s) := by
    rintro (hforbidden | hversion | ⟨hdelete, -⟩ | ⟨-, -, hlimit, hfull⟩)
    · cases hforbidden
    · refine hversion ?_
      rw [update_version, hempty]
      rfl
    · cases hdelete
    · cases hlimit
      exact absurd hfull (Nat.not_succ_le_zero 0)
  obtain ⟨⟨entries', change⟩, hone⟩ := (apply_update_ok_iff _ _ _).mpr hpassed
  obtain ⟨ns, hns, rfl, -⟩ := apply_update_written hone
  obtain ⟨-, rfl⟩ := scope_namespace_ok hns
  rw [hempty] at hone
  refine ⟨[change], ?_⟩
  have hvalid : validate_updates (scope_access s) [] [scope_update s] = .ok () := by
    rw [validate_updates_ok_iff]
    refine ⟨fun update _ => rfl, ?_⟩
    rw [map_singleton]
    exact nodup_singleton _
  unfold apply_updates
  rw [hvalid]
  simp only [bind, Except.bind, apply_to, hone]
  rfl

/-- Scopes interfere exactly when they share a namespace. -/
theorem non_interfering_iff (A : Set StateScope) (b : StateScope) :
    NonInterfering A b ↔ ∀ a ∈ A, a.entries_namespace ≠ b.entries_namespace := by
  constructor
  · intro h a ha hshared
    obtain ⟨changes, hok⟩ := scope_update_ok a
    have hscope : ∀ update ∈ [scope_update a], (scope_access a).denoted update.scope ∈ A := by
      intro update hmem
      rw [mem_singleton.mp hmem]
      exact (scope_access_denoted a).symm ▸ ha
    have hsame := h _ _ _ (scope_access_denoted b) _ _ _ _ hscope hok
    have hns : (scope_access b).scope_namespace b.kind = .ok b.entries_namespace :=
      scope_namespace_of_isSome rfl
    have hfound := congrArg (AList.lookup "key") hsame
    rw [scope_snapshot, hns, scope_snapshot, hns] at hfound
    simp only [AList.lookup_slice, ← hshared, AList.lookup_insert, AList.lookup_empty,
      Option.bind_none] at hfound
    cases hfound
  · intro h access access' scope' hb entries entries' updates changes hscope hok
    refine scope_snapshot_frame (fun update hmem hshared => h _ (hscope update hmem) ?_) hok
    rw [← denoted_namespace, ← denoted_namespace, hb] at hshared
    exact hshared

/-! ## What an export contains -/

theorem exported_namespaces {loads : String → Except String JsonValue}
    {rows : List (Sigma fun _ : String × String => SqliteRow)} {entries : List ExportedEntry}
    (h : exported_entries loads rows = .ok entries) :
    entries.map ExportedEntry.entry_namespace = rows.map fun e => e.1.1 := by
  induction rows generalizing entries with
  | nil =>
    cases h
    rfl
  | cons e rows ih =>
    rw [exported_entries] at h
    cases hvalue : exported_value loads e.2.value_json with
    | error text =>
      rw [hvalue] at h
      cases h
    | ok value =>
      rw [hvalue] at h
      simp only [bind, Except.bind] at h
      cases hrest : exported_entries loads rows with
      | error text =>
        rw [hrest] at h
        cases h
      | ok rest =>
        rw [hrest] at h
        cases h
        rw [map_cons, map_cons, ih hrest]

def scope_row (s : StateScope) : Sigma fun _ : String × String => SqliteRow where
  fst := (s.entries_namespace, "key")
  snd :=
    { scope := s.kind, value_json := none, version := 1, deleted := 1, updated_by := "agent"
      updated_at := "2024-01-01T00:00:00+00:00" }

/-- A table with this row alone. -/
def scope_table (s : StateScope) : SqliteTable :=
  AList.singleton (scope_row s).1 (scope_row s).2

/-- The row in an export. -/
def scope_export (s : StateScope) : ExportedEntry where
  entry_namespace := s.entries_namespace
  scope := s.kind
  key := "key"
  value := none
  version := 1
  deleted := true
  updated_by := "agent"
  updated_at := "2024-01-01T00:00:00+00:00"

/-- A scope is in the export of a run exactly when its namespace passes the selection. -/
theorem not_exported_iff (run_id : String) (s : StateScope) :
    NotExported run_id s ↔ in_export run_id s.entries_namespace = false := by
  constructor
  · intro h
    by_contra hselected
    rw [Bool.not_eq_false] at hselected
    have hrows : export_rows (scope_table s) run_id = [scope_row s] := by
      have hrow : (scope_table s).entries.filter (fun e => in_export run_id e.1.1) =
          [scope_row s] := by
        refine filter_eq_self.mpr fun e hmem => ?_
        rw [mem_singleton.mp hmem]
        exact hselected
      rw [export_rows, hrow]
      rfl
    have hok : export_database (fun _ => .error "") (scope_table s) run_id =
        .ok [scope_export s] := by
      rw [export_database, hrows]
      rfl
    exact h _ _ _ hok _ mem_cons_self rfl
  · intro hselected loads table entries hok entry hmem heq
    have hns := exported_namespaces hok
    have hfound : entry.entry_namespace ∈ (export_rows table run_id).map fun e => e.1.1 := by
      rw [← hns]
      exact mem_map_of_mem hmem
    obtain ⟨e, he, hsame⟩ := mem_map.mp hfound
    rw [export_rows, mem_insertionSort, mem_filter] at he
    rw [hsame, heq, hselected] at he
    cases he.2

/-- The text up to its first null character starts like another one when both do and the
other one has none. -/
theorem take_takeWhile_eq_iff {α : Type} {p : α → Bool} {l start : List α} :
    (l.takeWhile p).take start.length = start ↔ (∀ a ∈ start, p a = true) ∧ start <+: l := by
  rw [eq_comm, ← prefix_iff_eq_take]
  constructor
  · intro h
    exact ⟨fun a ha => all_eq_true.mp all_takeWhile a (h.subset ha), h.trans (List.takeWhile_prefix p)⟩
  · rintro ⟨hall, rest, rfl⟩
    rw [takeWhile_append_of_pos hall]
    exact prefix_append _ _

theorem in_export_iff (run_id ns : String) : in_export run_id ns = true ↔
    ns = "run:" ++ run_id ∨
      null_character ∉ run_id.toList ∧ (export_start run_id).toList <+: ns.toList := by
  have hnull : (∀ c ∈ (export_start run_id).toList, decide (c ≠ null_character) = true) ↔
      null_character ∉ run_id.toList := by
    have htexts : null_character ∉ "run:".toList ∧ null_character ∉ ":deployment:".toList := by decide
    simp only [export_start, String.toList_append, decide_eq_true_eq]
    rw [forall_mem_ne', mem_append, mem_append, not_or, not_or]
    exact ⟨fun h => h.1.2, fun h => ⟨⟨htexts.1, h⟩, htexts.2⟩⟩
  rw [in_export, decide_eq_true_eq, sqlite_substr, take_takeWhile_eq_iff, hnull]

/-- A scope of another run is left out of an export unless the identifiers read alike. -/
theorem not_in_export_iff {run_id : String} {s : StateScope} (hs : s.Admitted)
    (hne : run_id ≠ s.run_id) :
    in_export run_id s.entries_namespace = false ↔ ExportApart run_id s := by
  have hstart : (export_start run_id).toList =
      "run:".toList ++ (run_id ++ ":deployment:").toList := by
    simp only [export_start, String.toList_append, append_assoc]
  have hrun : ∀ text : String, ("run:" ++ text).toList = "run:".toList ++ text.toList :=
    fun text => String.toList_append
  rw [← Bool.not_eq_true, in_export_iff, hstart, not_or]
  cases s with
  | run r =>
    have hns : (StateScope.run r).entries_namespace = "run:" ++ r := rfl
    rw [hns, String.append_right_inj, hrun, prefix_append_right_inj]
    exact (and_iff_right (Ne.symm hne)).trans not_and
  | deployment r d =>
    have hns : (StateScope.deployment r d).entries_namespace =
        "run:" ++ (r ++ ":deployment:" ++ d) := by
      rw [← String.append_assoc, ← String.append_assoc]
      rfl
    have hjoined : (r ++ ":deployment:" ++ d).toList =
        r.toList ++ (':' :: ("deployment".toList ++ ':' :: d.toList)) := by
      simp only [String.toList_append, deployment_text, append_assoc, cons_append,
        nil_append]
    have hlong : (run_id ++ ":deployment:").toList =
        run_id.toList ++ (':' :: ("deployment".toList ++ [':'])) := by
      rw [String.toList_append, deployment_text]
    have hcolon : (r ++ ":").toList = r.toList ++ [':'] := String.toList_append
    rw [hns, String.append_right_inj, hrun, prefix_append_right_inj, hjoined, hlong,
      List.separator_prefix_iff deployment_text_colon (is_name_colon hs.2), not_and, not_or,
      ExportApart, hlong, hcolon]
    refine and_congr (not_congr eq_comm) (imp_congr_right fun _ => and_iff_right fun heq => hne ?_)
    exact String.toList_injective heq

/-! ## Isolation -/

/-- For an admitted scope and others: when its namespace differs from theirs, when no
batch in them interferes with it, and when an export of another run leaves it out. -/
theorem scopes_isolated_iff {A : Set StateScope} {b : StateScope} (hA : ∀ a ∈ A, a.Admitted)
    (hb : b.Admitted) (hne : b ∉ A) :
    (∀ a ∈ A, a.entries_namespace ≠ b.entries_namespace ↔ Apart a b) ∧
      (NonInterfering A b ↔ ∀ a ∈ A, Apart a b) ∧
      ∀ run_id, run_id ≠ b.run_id → (NotExported run_id b ↔ ExportApart run_id b) := by
  have hnames : ∀ a ∈ A, a.entries_namespace ≠ b.entries_namespace ↔ Apart a b :=
    fun a ha => entries_namespace_ne_iff (hA a ha) hb fun heq => hne (heq ▸ ha)
  refine ⟨hnames, ?_, fun run_id hruns => ?_⟩
  · exact (non_interfering_iff A b).trans (forall₂_congr hnames)
  · exact (not_exported_iff run_id b).trans (not_in_export_iff hb hruns)

/-- Batches in a run and one of its deployments, and another deployment of the run. -/
theorem scopes_isolated_iff_deployments :
    NonInterfering {.run "r", .deployment "r" "west"} (.deployment "r" "east") ∧
      NotExported "s" (.deployment "r" "east") := by
  have hwest : ∀ a ∈ ({.run "r", .deployment "r" "west"} : Set StateScope), a.Admitted := by
    rintro a (rfl | rfl)
    · decide
    · decide
  have heast : (StateScope.deployment "r" "east").Admitted := by decide
  obtain ⟨-, hbatches, hexport⟩ := scopes_isolated_iff hwest heast (by simp)
  have hjoined : ("s" : String) ≠ "r" ++ ":deployment:" ++ "east" := by decide
  have hstart : ¬ (("s" : String) ++ ":deployment:").toList <+: (("r" : String) ++ ":").toList := by
    decide
  refine ⟨hbatches.mpr ?_, (hexport "s" (by decide)).mpr ⟨hjoined, fun _ => hstart⟩⟩
  rintro a (rfl | rfl)
  · show ("r" : String) ≠ "r" ++ ":deployment:" ++ "east"
    decide
  · trivial

/-- The deployment `b` of the run `a` and the run `a:deployment:b` interfere: a batch of
the first changes what the second sees, and an export of the second contains it. -/
theorem scopes_interfere : ¬ NonInterfering {.deployment "a" "b"} (.run "a:deployment:b") ∧
      ¬ NotExported "a:deployment:b" (.deployment "a" "b") := by
  constructor
  · intro h
    have hshared : (StateScope.deployment "a" "b").entries_namespace =
        (StateScope.run "a:deployment:b").entries_namespace := by decide
    exact (non_interfering_iff _ _).mp h _ rfl hshared
  · intro h
    have hselected := (not_exported_iff _ _).mp h
    have hshared : in_export "a:deployment:b" (StateScope.deployment "a" "b").entries_namespace =
        true := by decide
    rw [hshared] at hselected
    cases hselected

end MininetAi
