/-
What the ledger has written, every reading of it finds.

A stored row mirrors the record it was made from, and the rows of a run are numbered in the
order of their insertion: each `append` takes the number after the largest one, under the
lock and inside a transaction that ends with it. A page is then a segment of the history of
the run, and the strict reading is the whole of it. The tolerant reading makes the checks of
the strict one and one more, on the columns.
-/
import MininetAi.Lib.Transition
import MininetAi.Runtime.Ledger

set_option autoImplicit false

namespace MininetAi

open List Except

variable {Time : Type} {row : RecordRow} {found : List (LedgerRecord Time)}
  {c' : Connection (LedgerDatabase Time)} {rows : List RecordRow}

/-! ## Reading two ways -/

section Reader

variable [BEq Time] {codec : LedgerCodec Time} {path run_id : String}

/-- The columns of a row say what its text says. -/
structure Attributed (codec : LedgerCodec Time) (record : LedgerRecord Time) (row : RecordRow) : Prop where
  run_id : record.run_id = row.run_id
  sequence : record.sequence = row.sequence
  category : record.category.value = row.category
  type : record.type = row.type
  correlation_id : record.correlation_id = row.correlation_id
  recorded_at : ∃ recorded_at timestamp,
    codec.fromisoformat (codec.dump_time record.recorded_at) = .ok recorded_at ∧
      codec.fromisoformat row.recorded_at = .ok timestamp ∧ (recorded_at == timestamp) = true

/-- The columns agree with the stored JSON. -/
def ColumnsAgree (codec : LedgerCodec Time) (db : LedgerDatabase Time) : Prop :=
  ∀ row ∈ db.records, ∀ record, codec.validate_record row.record_json = .ok record →
    Attributed codec record row

variable {record : LedgerRecord Time} {db : LedgerDatabase Time} {evidence : LedgerEvidence Time}

theorem Attributed.not_misattributed (h : Attributed codec record row) :
    misattributed codec record row = .ok false := by
  obtain ⟨recorded_at, timestamp, hread, hcolumn, hsame⟩ := h.recorded_at
  have hfront : ¬ (record.category.value ≠ row.category ∨ record.type ≠ row.type) := by
    rw [not_or, not_not, not_not]
    exact ⟨h.category, h.type⟩
  unfold misattributed
  rw [if_neg hfront, hread, hcolumn]
  show Except.ok (recorded_at != timestamp || decide (record.correlation_id ≠ row.correlation_id)) = .ok false
  rw [bne, hsame, h.correlation_id, decide_eq_false (not_not.mpr rfl)]
  rfl

omit [BEq Time] in
/-- The manifest is read alike when the tolerant reading has no problem with it. -/
theorem read_manifest_iff {row : Option RunRow} {manifest : Option (RunManifest Time)} :
    read_manifest codec path run_id true row = .ok (manifest, []) ↔
      read_manifest codec path run_id false row = .ok (manifest, []) := by
  cases row with
  | none => exact Iff.rfl
  | some row =>
    cases hvalid : codec.validate_manifest row.manifest_json with
    | ok m => simp only [read_manifest, hvalid]
    | error text =>
      simp only [read_manifest, hvalid, if_true, Bool.true_eq_false, if_false]
      by_cases hnames : names_another_run run_id (codec.loads row.manifest_json) = true
      · rw [if_pos hnames]
        exact iff_of_false nofun nofun
      · rw [if_neg hnames]
        exact iff_of_false nofun nofun

omit [BEq Time] in
/-- The strict reading of a manifest has no problems to report. -/
theorem read_manifest_strict {row : Option RunRow} {found : Option (RunManifest Time) × List LedgerProblem}
    (h : read_manifest codec path run_id false row = .ok found) : found.2 = [] := by
  cases row with
  | none =>
    cases h
    rfl
  | some row =>
    cases hvalid : codec.validate_manifest row.manifest_json with
    | error text =>
      simp only [read_manifest, hvalid, if_true] at h
      cases h
    | ok m =>
      simp only [read_manifest, hvalid] at h
      by_cases hrun : m.run_id = run_id
      · rw [if_pos hrun] at h
        cases h
        rfl
      · rw [if_neg hrun] at h
        cases h

/-- One row: the tolerant reading has no problem with it exactly when the strict one takes it. -/
theorem read_record_iff
    (hrow : ∀ record, codec.validate_record row.record_json = .ok record → Attributed codec record row) :
    read_record codec path run_id true row = .ok (.ok record) ↔
      read_record codec path run_id false row = .ok (.ok record) := by
  unfold read_record
  cases hvalid : codec.validate_record row.record_json with
  | error text =>
    simp only [if_true, Bool.true_eq_false, if_false]
    exact iff_of_false nofun nofun
  | ok found =>
    by_cases hidentity : found.run_id ≠ run_id ∨ found.sequence ≠ row.sequence
    · simp only [if_pos hidentity]
    · simp only [if_neg hidentity, if_true, Bool.false_eq_true, if_false]
      rw [(hrow found hvalid).not_misattributed]
      exact Iff.rfl

theorem read_record_strict {found : Except LedgerProblem (LedgerRecord Time)}
    (h : read_record codec path run_id false row = .ok found) : ∃ record, found = .ok record := by
  unfold read_record at h
  cases hvalid : codec.validate_record row.record_json with
  | error text =>
    rw [hvalid] at h
    cases h
  | ok record =>
    rw [hvalid] at h
    by_cases hidentity : record.run_id ≠ run_id ∨ record.sequence ≠ row.sequence
    · simp only [if_pos hidentity] at h
      cases h
    · simp only [if_neg hidentity, Bool.false_eq_true, if_false] at h
      cases h
      exact ⟨record, rfl⟩

variable {partial_inspection : Bool} {index : ℕ} {rows : List RecordRow}

theorem check_sequence_iff :
    check_sequence path partial_inspection index row = .ok [] ↔ row.sequence = index := by
  unfold check_sequence
  by_cases hindex : row.sequence = index
  · rw [if_pos hindex]
    exact iff_of_true rfl hindex
  · rw [if_neg hindex]
    refine iff_of_false (fun h => ?_) hindex
    cases partial_inspection <;> cases h

/-- The rows a reading takes without a problem. -/
theorem read_rows_ok_iff :
    read_rows codec path run_id partial_inspection index (row :: rows) = .ok (found, []) ↔
      row.sequence = index ∧ ∃ record rest,
        read_record codec path run_id partial_inspection row = .ok (.ok record) ∧
          read_rows codec path run_id partial_inspection (index + 1) rows = .ok (rest, []) ∧
            found = record :: rest := by
  simp only [read_rows, bind_ok_iff]
  constructor
  · rintro ⟨gap, hgap, entry, hentry, rest, hrest, hfound⟩
    cases entry with
    | error problem =>
      have hproblems : gap ++ problem :: rest.2 = [] := congrArg (fun r => r.2) (Except.ok.inj hfound)
      exact absurd hproblems (append_ne_nil_of_right_ne_nil _ (cons_ne_nil _ _))
    | ok record =>
      have hproblems : gap ++ rest.2 = [] := congrArg (fun r => r.2) (Except.ok.inj hfound)
      have hrecords : record :: rest.1 = found := congrArg (fun r => r.1) (Except.ok.inj hfound)
      obtain ⟨hnone, hothers⟩ := append_eq_nil_iff.mp hproblems
      rw [hnone] at hgap
      refine ⟨check_sequence_iff.mp hgap, record, rest.1, hentry, ?_, hrecords.symm⟩
      rw [hrest, ← hothers]
  · rintro ⟨hindex, record, rest, hentry, hrest, rfl⟩
    exact ⟨[], check_sequence_iff.mpr hindex, .ok record, hentry, (rest, []), hrest, rfl⟩

/-- Row by row. The induction is on the rows. -/
theorem read_rows_iff
    (hrows : ∀ row ∈ rows, ∀ record, codec.validate_record row.record_json = .ok record →
      Attributed codec record row) :
    read_rows codec path run_id true index rows = .ok (found, []) ↔
      read_rows codec path run_id false index rows = .ok (found, []) := by
  induction rows generalizing index found with
  | nil => exact Iff.rfl
  | cons row rows ih =>
    have hrest : ∀ {found : List (LedgerRecord Time)},
        read_rows codec path run_id true (index + 1) rows = .ok (found, []) ↔
          read_rows codec path run_id false (index + 1) rows = .ok (found, []) :=
      ih fun row hrow => hrows row (mem_cons_of_mem _ hrow)
    have hrow : ∀ {record : LedgerRecord Time}, read_record codec path run_id true row = .ok (.ok record) ↔
        read_record codec path run_id false row = .ok (.ok record) :=
      read_record_iff (hrows row mem_cons_self)
    simp only [read_rows_ok_iff, hrow, hrest]

/-- The strict reading has no problems to report. -/
theorem read_rows_strict {found : List (LedgerRecord Time) × List LedgerProblem}
    (h : read_rows codec path run_id false index rows = .ok found) : found.2 = [] := by
  induction rows generalizing index found with
  | nil =>
    cases h
    rfl
  | cons row rows ih =>
    rw [read_rows] at h
    obtain ⟨gap, hgap, h⟩ := bind_ok_iff.mp h
    obtain ⟨entry, hentry, h⟩ := bind_ok_iff.mp h
    obtain ⟨rest, hrest, h⟩ := bind_ok_iff.mp h
    obtain ⟨record, rfl⟩ := read_record_strict hentry
    have hnone : gap = [] := by
      unfold check_sequence at hgap
      by_cases hindex : row.sequence = index
      · rw [if_pos hindex] at hgap
        exact (Except.ok.inj hgap).symm
      · rw [if_neg hindex, if_pos rfl] at hgap
        cases hgap
    rw [← Except.ok.inj h]
    show gap ++ rest.2 = []
    rw [hnone, ih hrest]
    rfl

/-- What the reading of a file returns. -/
theorem read_ledger_ok_iff : read_ledger codec path run_id partial_inspection db = .ok evidence ↔
      db.user_version = 1 ∧ db.quick_check = ["ok"] ∧ ∃ manifest rows,
        read_manifest codec path run_id partial_inspection (db.runs.find? fun row => row.run_id = run_id) =
            .ok manifest ∧
          read_rows codec path run_id partial_inspection 1 (db.ordered_rows run_id) = .ok rows ∧
            evidence = ⟨run_id, manifest.1, rows.1, manifest.2 ++ rows.2⟩ := by
  unfold read_ledger
  by_cases hversion : db.user_version = 1
  · rw [if_pos hversion]
    by_cases hcheck : db.quick_check = ["ok"]
    · rw [if_pos hcheck]
      simp only [bind_ok_iff]
      constructor
      · rintro ⟨manifest, hmanifest, rows, hrows, heq⟩
        exact ⟨hversion, hcheck, manifest, rows, hmanifest, hrows, (Except.ok.inj heq).symm⟩
      · rintro ⟨-, -, manifest, rows, hmanifest, hrows, rfl⟩
        exact ⟨manifest, hmanifest, rows, hrows, rfl⟩
    · rw [if_neg hcheck]
      exact iff_of_false nofun fun h => hcheck h.2.1
  · rw [if_neg hversion]
    exact iff_of_false nofun fun h => hversion h.1

/-- The tolerant reading reports no problem exactly when the strict one succeeds, and then
they return the same. -/
theorem readings_agree (hdb : ColumnsAgree codec db) :
    read_ledger codec path run_id true db = .ok evidence ∧ evidence.problems = [] ↔
      read_ledger codec path run_id false db = .ok evidence := by
  have hrows : ∀ row ∈ db.ordered_rows run_id, ∀ record, codec.validate_record row.record_json = .ok record →
      Attributed codec record row := by
    intro row hrow
    have hmem := (mem_insertionSort _).mp hrow
    exact hdb row (mem_of_mem_filter hmem)
  simp only [read_ledger_ok_iff]
  constructor
  · rintro ⟨⟨hversion, hcheck, manifest, rows, hmanifest, hfound, rfl⟩, hproblems⟩
    obtain ⟨hfront, hback⟩ := append_eq_nil_iff.mp hproblems
    have hm : manifest = (manifest.1, []) := Prod.ext rfl hfront
    have hr : rows = (rows.1, []) := Prod.ext rfl hback
    rw [hm] at hmanifest
    rw [hr] at hfound
    refine ⟨hversion, hcheck, _, _, read_manifest_iff.mp hmanifest, (read_rows_iff hrows).mp hfound, ?_⟩
    rw [hm, hr]
  · rintro ⟨hversion, hcheck, manifest, rows, hmanifest, hfound, rfl⟩
    have hm : manifest = (manifest.1, []) := Prod.ext rfl (read_manifest_strict hmanifest)
    have hr : rows = (rows.1, []) := Prod.ext rfl (read_rows_strict hfound)
    rw [hm] at hmanifest
    rw [hr] at hfound
    refine ⟨⟨hversion, hcheck, _, _, read_manifest_iff.mpr hmanifest, (read_rows_iff hrows).mpr hfound, ?_⟩, ?_⟩
    · rw [hm, hr]
    · rw [hm, hr]
      rfl

end Reader

/-! ## What is stored -/

/-- The records of a run, in the order they were appended. -/
def LedgerDatabase.history (db : LedgerDatabase Time) (run_id : String) : List (LedgerRecord Time) :=
  db.appended.filter fun record => record.run_id = run_id

/-- A row says what its record says. -/
structure Mirrored (codec : LedgerCodec Time) (row : RecordRow) (record : LedgerRecord Time) : Prop where
  run_id : row.run_id = record.run_id
  sequence : row.sequence = record.sequence
  text : codec.validate_record row.record_json = .ok record

/-- A file that only the ledger has written. -/
structure LedgerKept (codec : LedgerCodec Time) (db : LedgerDatabase Time) : Prop where
  version : db.user_version = 1
  sound : db.quick_check = ["ok"]
  rows : Forall₂ (Mirrored codec) db.records db.appended
  numbered : ∀ run_id, Numbered.From LedgerRecord.sequence 1 (db.history run_id)
  fits : ∀ record ∈ db.appended, record.sequence < 2 ^ 63
  manifests : ∀ row ∈ db.runs, ∃ manifest,
    codec.validate_manifest row.manifest_json = .ok manifest ∧ manifest.run_id = row.run_id

section Stored

variable {codec : LedgerCodec Time} {db : LedgerDatabase Time}

variable {rows : List RecordRow} {found : List (LedgerRecord Time)}

/-- Rows and records of one run, side by side. -/
theorem mirrored_filter {run_id : String} (h : Forall₂ (Mirrored codec) rows found) :
    Forall₂ (Mirrored codec) (rows.filter fun row => row.run_id = run_id)
      (found.filter fun record => record.run_id = run_id) := by
  induction h with
  | nil => exact Forall₂.nil
  | @cons row record rows found hrow _ ih =>
    by_cases hrun : record.run_id = run_id
    · have hsame : row.run_id = run_id := hrow.run_id.trans hrun
      simp only [filter_cons, hrun, hsame, decide_true, if_true]
      exact Forall₂.cons hrow ih
    · have hother : ¬ row.run_id = run_id := by
        rw [hrow.run_id]
        exact hrun
      simp only [filter_cons, hrun, hother, decide_false, Bool.false_eq_true, if_false]
      exact ih

theorem mirrored_sequences (h : Forall₂ (Mirrored codec) rows found) :
    rows.map RecordRow.sequence = found.map LedgerRecord.sequence := by
  induction h with
  | nil => rfl
  | cons hrow _ ih => rw [map_cons, map_cons, hrow.sequence, ih]

section

variable (h : LedgerKept codec db)
include h

theorem LedgerKept.mirrored (run_id : String) :
    Forall₂ (Mirrored codec) (db.rows_of run_id) (db.history run_id) :=
  mirrored_filter h.rows

theorem LedgerKept.rows_numbered (run_id : String) :
    Numbered.From RecordRow.sequence 1 (db.rows_of run_id) :=
  (h.numbered run_id).of_map (mirrored_sequences (h.mirrored run_id))

/-- The rows come in the order of their insertion. -/
theorem LedgerKept.ordered (run_id : String) : db.ordered_rows run_id = db.rows_of run_id :=
  List.Pairwise.insertionSort_eq (h.rows_numbered run_id).pairwise

theorem LedgerKept.next_sequence (run_id : String) :
    db.next_sequence run_id = 1 + (db.history run_id).length := by
  have hlength := (h.mirrored run_id).length_eq
  unfold LedgerDatabase.next_sequence
  rw [(h.rows_numbered run_id).maximum, hlength]
  exact Int.add_comm _ _

end

theorem history_append (record : LedgerRecord Time) (row : RecordRow) (run_id : String) :
    ({ db with records := db.records ++ [row], appended := db.appended ++ [record] } : LedgerDatabase Time).history
      run_id = db.history run_id ++ if record.run_id = run_id then [record] else [] := by
  unfold LedgerDatabase.history
  rw [filter_append]
  congr 1
  by_cases hrun : record.run_id = run_id
  · rw [if_pos hrun]
    simp only [filter_cons, hrun, decide_true, if_true, filter_nil]
  · rw [if_neg hrun]
    simp only [filter_cons, hrun, decide_false, Bool.false_eq_true, if_false, filter_nil]

/-- A record that takes the next number. -/
theorem LedgerKept.append {record : LedgerRecord Time} (h : LedgerKept codec db)
    (hrow : Mirrored codec row record) (hsequence : record.sequence = db.next_sequence record.run_id)
    (hfits : record.sequence < 2 ^ 63) :
    LedgerKept codec { db with records := db.records ++ [row], appended := db.appended ++ [record] } where
  version := h.version
  sound := h.sound
  rows := rel_append h.rows (Forall₂.cons hrow Forall₂.nil)
  numbered run_id := by
    rw [history_append]
    by_cases hrun : record.run_id = run_id
    · rw [if_pos hrun]
      refine (h.numbered run_id).append ?_
      rw [hsequence, hrun]
      exact h.next_sequence run_id
    · rw [if_neg hrun, append_nil]
      exact h.numbered run_id
  fits other hother := by
    rcases mem_append.mp hother with hold | hnew
    · exact h.fits other hold
    · rw [mem_singleton.mp hnew]
      exact hfits
  manifests := h.manifests

/-- The numbers of a history fit their column. -/
theorem LedgerKept.small (h : LedgerKept codec db) (run_id : String) : ((db.history run_id).length : ℤ) < 2 ^ 63 := by
  cases hlast : (db.history run_id).getLast? with
  | none =>
    rw [getLast?_eq_none_iff.mp hlast, length_nil]
    decide
  | some last =>
    have hmem := mem_of_mem_filter (mem_of_getLast? hlast)
    have hfits := h.fits last hmem
    have hsequence := (h.numbered run_id).last hlast
    omega

end Stored

/-! ## Writing -/

section Writing

variable {codec : LedgerCodec Time} {faults : LedgerFaults} {db db' : LedgerDatabase Time}

variable {manifest : RunManifest Time} {record : LedgerRecord Time} {entry : LedgerEntry Time}
  {c : Connection (LedgerDatabase Time)}

theorem run_row_ok {row : RunRow} (h : run_row codec manifest = .ok row) :
    row.run_id = manifest.run_id ∧ codec.dump_manifest manifest = .ok row.manifest_json := by
  unfold run_row at h
  obtain ⟨text, htext, hrow⟩ := bind_ok_iff.mp h
  rw [← Except.ok.inj hrow]
  refine ⟨rfl, ?_⟩
  cases hdump : codec.dump_manifest manifest with
  | error e =>
    rw [hdump] at htext
    cases htext
  | ok t =>
    rw [hdump] at htext
    exact congrArg Except.ok (Except.ok.inj htext)

theorem record_row_ok (h : record_row codec record = .ok row) :
    row.run_id = record.run_id ∧ row.sequence = record.sequence ∧ record.sequence < 2 ^ 63 ∧
      codec.dump_record record = .ok row.record_json := by
  unfold record_row at h
  obtain ⟨text, htext, h⟩ := bind_ok_iff.mp h
  obtain ⟨sequence, hsequence, hrow⟩ := bind_ok_iff.mp h
  have hbound : sequence = record.sequence ∧ record.sequence < 2 ^ 63 := by
    unfold bind_integer at hsequence
    by_cases hfits : -2 ^ 63 ≤ record.sequence ∧ record.sequence < 2 ^ 63
    · rw [if_pos hfits] at hsequence
      exact ⟨(Except.ok.inj hsequence).symm, hfits.2⟩
    · rw [if_neg hfits] at hsequence
      cases hsequence
  rw [← Except.ok.inj hrow]
  refine ⟨rfl, hbound.1, hbound.2, ?_⟩
  cases hdump : codec.dump_record record with
  | error e =>
    rw [hdump] at htext
    cases htext
  | ok t =>
    rw [hdump] at htext
    exact congrArg Except.ok (Except.ok.inj htext)

/-- What the statements of `create_run` do. -/
theorem creating_ok (h : creating codec faults manifest db = .ok db') :
    ∃ row, row.run_id = manifest.run_id ∧ codec.dump_manifest manifest = .ok row.manifest_json ∧
      db' = { db with runs := db.runs ++ [row] } := by
  unfold creating at h
  obtain ⟨row, hrow, h⟩ := bind_ok_iff.mp h
  obtain ⟨_, -, hinsert⟩ := bind_ok_iff.mp h
  refine ⟨row, (run_row_ok hrow).1, (run_row_ok hrow).2, ?_⟩
  unfold LedgerDatabase.insert_run at hinsert
  by_cases hrun : db.has_run row.run_id = true
  · rw [if_pos hrun] at hinsert
    cases hinsert
  · rw [if_neg hrun] at hinsert
    exact (Except.ok.inj hinsert).symm

/-- What the statements of `append` do. -/
theorem appending_ok (h : appending codec faults entry db = .ok (record, db')) :
    record.toLedgerEntry = entry ∧ record.sequence = db.next_sequence record.run_id ∧
      record.sequence < 2 ^ 63 ∧ ∃ row,
      row.run_id = record.run_id ∧ row.sequence = record.sequence ∧
        codec.dump_record record = .ok row.record_json ∧
          db' = { db with records := db.records ++ [row], appended := db.appended ++ [record] } := by
  unfold appending at h
  obtain ⟨_, -, h⟩ := bind_ok_iff.mp h
  by_cases hrun : db.has_run entry.run_id = true
  · rw [if_pos hrun] at h
    obtain ⟨_, -, h⟩ := bind_ok_iff.mp h
    obtain ⟨made, hmade, h⟩ := bind_ok_iff.mp h
    obtain ⟨row, hrow, h⟩ := bind_ok_iff.mp h
    obtain ⟨_, -, h⟩ := bind_ok_iff.mp h
    obtain ⟨inserted, hinserted, h⟩ := bind_ok_iff.mp h
    obtain ⟨rfl, rfl⟩ := Prod.mk.inj (Except.ok.inj h)
    have hrecord : made.toLedgerEntry = entry ∧ made.sequence = db.next_sequence entry.run_id := by
      unfold ledger_record at hmade
      by_cases hpos : 1 ≤ db.next_sequence entry.run_id
      · rw [dif_pos hpos] at hmade
        rw [← Except.ok.inj hmade]
        exact ⟨rfl, rfl⟩
      · rw [dif_neg hpos] at hmade
        cases hmade
    have hdone := record_row_ok hrow
    refine ⟨hrecord.1, ?_, hdone.2.2.1, row, hdone.1, hdone.2.1, hdone.2.2.2, ?_⟩
    · rw [hrecord.2, hrecord.1]
    · unfold LedgerDatabase.insert_record at hinserted
      by_cases htaken : (db.rows_of row.run_id).any (fun other => other.sequence = row.sequence) = true
      · rw [if_pos htaken] at hinserted
        cases hinserted
      · rw [if_neg htaken] at hinserted
        by_cases hmissing : db.has_run row.run_id = false
        · rw [if_pos hmissing] at hinserted
          cases hinserted
        · rw [if_neg hmissing] at hinserted
          exact (Except.ok.inj hinserted).symm
  · rw [if_neg hrun] at h
    cases h

/-- `create_run` stores one run, or nothing. -/
theorem create_run_cases {manifest : RunManifest Time} {c : Connection (LedgerDatabase Time)}
    (hc : c.view = c.stored) : ((create_run codec faults manifest c).2.view = c.stored ∧
      (create_run codec faults manifest c).2.stored = c.stored) ∨
    ∃ db, creating codec faults manifest c.stored = .ok db ∧
      (create_run codec faults manifest c).2.view = db ∧ (create_run codec faults manifest c).2.stored = db := by
  unfold create_run
  rw [hc]
  cases hcreating : creating codec faults manifest c.stored with
  | error raised => exact Or.inl ⟨rfl, rfl⟩
  | ok db => cases execute faults .commit with
    | error raised => exact Or.inl ⟨rfl, rfl⟩
    | ok u => exact Or.inr ⟨db, rfl, rfl, rfl⟩

theorem begin_append_ok
    (h : begin_append faults c = .ok c') : c'.view = c.stored ∧ c'.stored = c.stored := by
  unfold begin_append at h
  obtain ⟨_, -, h⟩ := bind_ok_iff.mp h
  unfold Connection.begin_immediate at h
  by_cases hopen : c.working.isSome = true
  · rw [if_pos hopen] at h
    cases h
  · rw [if_neg hopen] at h
    rw [← Except.ok.inj h]
    exact ⟨rfl, rfl⟩

/-- What a call of `append` may do to a stored file. -/
structure Appends (codec : LedgerCodec Time) (faults : LedgerFaults) (entry : LedgerEntry Time)
    (db : LedgerDatabase Time) (r : Except LedgerRaised (LedgerRecord Time) × Connection (LedgerDatabase Time)) :
    Prop where
  view : r.2.view = r.2.stored
  refused : ∀ raised, r.1 = .error raised → r.2.stored = db
  appended : ∀ record, r.1 = .ok record → appending codec faults entry db = .ok (record, r.2.stored)

theorem append_opened_appends (hc : c.view = c.stored) :
    Appends codec faults entry c.stored (append_opened codec faults entry c) := by
  have hrefused : ∀ raised c', c'.view = c.stored → c'.stored = c.stored →
      Appends codec faults entry c.stored (.error raised, c') := fun raised c' hview hstored =>
    ⟨hview.trans hstored.symm, fun _ _ => hstored, fun record h => by cases h⟩
  unfold append_opened
  rw [hc]
  cases happending : appending codec faults entry c.stored with
  | error raised =>
    cases raised with
    | overflow => exact hrefused _ _ hc rfl
    | ledger e => exact hrefused _ _ rfl rfl
    | integrity text => exact hrefused _ _ rfl rfl
    | sqlite text => exact hrefused _ _ rfl rfl
    | value text => exact hrefused _ _ rfl rfl
  | ok done =>
    cases execute faults .commit with
    | error raised => exact hrefused _ _ rfl rfl
    | ok u =>
      refine ⟨rfl, fun raised h => (by cases h), fun record h => ?_⟩
      rw [happending, ← Except.ok.inj h]
      rfl

/-- `append` stores the record it returns, or nothing. -/
theorem append_appends {entry : LedgerEntry Time} {c : Connection (LedgerDatabase Time)} :
    Appends codec faults entry c.stored (append codec faults entry c) := by
  unfold append
  cases hbegin : begin_append faults c with
  | error raised => exact ⟨rfl, fun _ _ => rfl, fun record h => by cases h⟩
  | ok opened =>
    obtain ⟨hview, hstored⟩ := begin_append_ok hbegin
    rw [← hstored]
    exact append_opened_appends (hview.trans hstored.symm)

end Writing

/-! ## Calls in any order -/

/-- The calls that write, each under the lock. -/
inductive LedgerEvent (Time : Type) where
  | create_run (manifest : RunManifest Time) (faults : LedgerFaults)
  | append (entry : LedgerEntry Time) (faults : LedgerFaults)

/-- A new ledger and the calls of its threads. -/
def ledger_system (codec : LedgerCodec Time) :
    System (Connection (LedgerDatabase Time)) (LedgerEvent Time) where
  init c := c = { stored := {} }
  step c
    | .create_run manifest faults => some (create_run codec faults manifest c).2
    | .append entry faults => some (append codec faults entry c).2

/-- Between two calls nothing is pending. -/
structure LedgerSound (codec : LedgerCodec Time) (c : Connection (LedgerDatabase Time)) : Prop where
  view : c.view = c.stored
  kept : LedgerKept codec c.stored

section Runs

variable {codec : LedgerCodec Time} (hcodec : codec.RoundTrips)
include hcodec

variable {c : Connection (LedgerDatabase Time)}

theorem ledger_sound_step {e : LedgerEvent Time}
    (hc : LedgerSound codec c) (hs : (ledger_system codec).step c e = some c') :
    LedgerSound codec c' := by
  cases e with
  | create_run manifest faults =>
    cases hs
    rcases @create_run_cases _ codec faults manifest c hc.view with
      ⟨hview, hstored⟩ | ⟨db, hdb, hview, hstored⟩
    · refine ⟨hview.trans hstored.symm, ?_⟩
      rw [hstored]
      exact hc.kept
    · refine ⟨hview.trans hstored.symm, ?_⟩
      obtain ⟨row, hrun, htext, rfl⟩ := creating_ok hdb
      rw [hstored]
      refine ⟨hc.kept.version, hc.kept.sound, hc.kept.rows, hc.kept.numbered, hc.kept.fits, fun row' hrow' => ?_⟩
      rcases mem_append.mp hrow' with hold | hnew
      · exact hc.kept.manifests row' hold
      · rw [mem_singleton.mp hnew]
        exact ⟨manifest, hcodec.manifest _ _ htext, hrun.symm⟩
  | append entry faults =>
    cases hs
    have happends := @append_appends _ codec faults entry c
    refine ⟨happends.view, ?_⟩
    cases hresult : (append codec faults entry c).1 with
    | error raised =>
      rw [happends.refused raised hresult]
      exact hc.kept
    | ok record =>
      have hdone := appending_ok (happends.appended record hresult)
      obtain ⟨-, hsequence, hfits, row, hrun, hnumber, htext, hstored⟩ := hdone
      rw [hstored]
      exact hc.kept.append ⟨hrun, hnumber, hcodec.record _ _ htext⟩ hsequence hfits

theorem ledger_sound (hc : (ledger_system codec).Reachable c) : LedgerSound codec c := by
  refine System.Reachable.invariant (fun c hinit => ?_) (fun c e c' _ ih hs => ledger_sound_step hcodec ih hs) hc
  rw [show c = { stored := {} } from hinit]
  exact ⟨rfl, rfl, rfl, Forall₂.nil, fun _ => trivial, fun record hrecord => absurd hrecord not_mem_nil,
    fun row hrow => absurd hrow not_mem_nil⟩

end Runs

/-! ## Pages -/

/-- Nothing goes wrong in the file. -/
def no_faults : LedgerFaults := fun _ => none

/-- Pages of a size, each from the last record of the one before, until one is empty. -/
def read_pages (codec : LedgerCodec Time) (run_id : String) (limit : ℤ) (c : Connection (LedgerDatabase Time)) :
    ℕ → ℤ → Except LedgerRaised (List (LedgerRecord Time))
  | 0, _ => .ok []
  | fuel + 1, cursor => do
      let page ← records codec no_faults run_id cursor (some limit) c
      match page.getLast? with
      | none => pure []
      | some last => do
          let rest ← read_pages codec run_id limit c fuel last.sequence
          pure (page ++ rest)

section Pages

variable {codec : LedgerCodec Time} {c : Connection (LedgerDatabase Time)} {run_id : String}

/-- The rows of records are validated to these. -/
theorem mirrored_validate (h : Forall₂ (Mirrored codec) rows found) :
    (rows.mapM fun row => (codec.validate_record row.record_json).mapError LedgerRaised.value) = .ok found := by
  induction h with
  | nil => rfl
  | @cons row record rows found hrow _ ih =>
    rw [mapM_cons, ih, hrow.text]
    rfl

theorem bind_integer_ok {n : ℤ} (hlow : 0 ≤ n) (hhigh : n < 2 ^ 63) : bind_integer n = .ok n := by
  unfold bind_integer
  refine if_pos ⟨?_, hhigh⟩
  omega

variable {limit : ℤ} {k : ℕ}

/-- A page is a segment of the history. -/
theorem records_page (hc : LedgerSound codec c) (hrun : c.stored.has_run run_id = true)
    (hpos : 0 < limit) (hfits : limit < 2 ^ 63) (hk : (k : ℤ) < 2 ^ 63) :
    records codec no_faults run_id k (some limit) c =
      .ok (((c.stored.history run_id).drop k).take limit.toNat) := by
  have hpage : ((c.stored.ordered_rows run_id).filter fun row => (k : ℤ) < row.sequence).take limit.toNat =
      ((c.stored.rows_of run_id).drop k).take limit.toNat := by
    rw [hc.kept.ordered run_id]
    exact (hc.kept.rows_numbered run_id).page_eq k limit.toNat
  have hmirrored := forall₂_take limit.toNat (forall₂_drop k (hc.kept.mirrored run_id))
  have hfetch : fetching codec no_faults run_id k (some limit) c.stored =
      .ok (((c.stored.history run_id).drop k).take limit.toNat) := by
    unfold fetching
    rw [if_pos hrun, bind_integer_ok (Int.natCast_nonneg k) hk]
    simp only [Option.mapM_some, bind_integer_ok hpos.le hfits]
    show (((c.stored.ordered_rows run_id).filter fun row => (k : ℤ) < row.sequence).take limit.toNat).mapM
      (fun row => (codec.validate_record row.record_json).mapError LedgerRaised.value) = _
    rw [hpage]
    exact mirrored_validate hmirrored
  unfold records
  rw [if_neg (by omega), if_neg (by rw [Option.any_some, decide_eq_true_eq]; omega), hc.view, hfetch]
  rfl

/-- A size that is no SQLite integer is refused by the binding, which no handler names. -/
theorem records_oversized (hrun : c.view.has_run run_id = true) (hlarge : 2 ^ 63 ≤ limit)
    (hk : (k : ℤ) < 2 ^ 63) : records codec no_faults run_id k (some limit) c = .error .overflow := by
  have hbind : bind_integer limit = .error .overflow := if_neg (by omega)
  have hfetch : fetching codec no_faults run_id k (some limit) c.view = .error .overflow := by
    unfold fetching
    rw [if_pos hrun, bind_integer_ok (Int.natCast_nonneg k) hk]
    simp only [Option.mapM_some, hbind]
    rfl
  unfold records
  rw [if_neg (by omega), if_neg (by rw [Option.any_some, decide_eq_true_eq]; omega), hfetch]
  rfl

/-- Pages of any size read what is left of the history. The induction is on the fuel. -/
theorem read_pages_eq (hc : LedgerSound codec c) (hrun : c.stored.has_run run_id = true)
    (hpos : 0 < limit) (hfits : limit < 2 ^ 63) {fuel : ℕ}
    (hk : k ≤ (c.stored.history run_id).length)
    (hfuel : (c.stored.history run_id).length < fuel + k) :
    read_pages codec run_id limit c fuel k = .ok ((c.stored.history run_id).drop k) := by
  induction fuel generalizing k with
  | zero => omega
  | succ fuel ih =>
    have hnumbered := hc.kept.numbered run_id
    have hsmall := hc.kept.small run_id
    generalize hhistory : c.stored.history run_id = history at *
    have hpage : records codec no_faults run_id k (some limit) c = .ok ((history.drop k).take limit.toNat) := by
      rw [← hhistory]
      exact records_page hc hrun hpos hfits (by omega)
    rw [read_pages, hpage]
    simp only [bind, Except.bind]
    generalize hpart : (history.drop k).take limit.toNat = part at *
    have hparts : part ++ (history.drop k).drop part.length = history.drop k := by
      rw [← hpart]
      exact prefix_iff_eq_append.mp (List.take_prefix _ _)
    cases hlast : part.getLast? with
    | none =>
      have hnil := getLast?_eq_none_iff.mp hlast
      rw [hnil] at hpart
      rcases take_eq_nil_iff.mp hpart with hzero | hdone
      · omega
      · rw [hdone]
        rfl
    | some last =>
      have hfrom : Numbered.From LedgerRecord.sequence (1 + k) part := by
        rw [← hpart]
        exact (hnumbered.drop k).take _
      have hsequence : last.sequence = ((k + part.length : ℕ) : ℤ) := by
        rw [hfrom.last hlast]
        push_cast
        omega
      have hsome : 0 < part.length := by
        refine length_pos_iff.mpr fun hnil => ?_
        rw [hnil, getLast?_nil] at hlast
        cases hlast
      have hwithin : k + part.length ≤ history.length := by
        have hlength := congrArg length hparts
        simp only [length_append, length_drop] at hlength
        omega
      show (read_pages codec run_id limit c fuel last.sequence >>= fun rest => pure (part ++ rest)) = _
      rw [hsequence, ih hwithin (by omega)]
      show Except.ok (part ++ history.drop (k + part.length)) = _
      rw [← drop_drop, hparts]

end Pages

/-! ## The strict reading -/

section Strict

variable [BEq Time] {codec : LedgerCodec Time} {path run_id : String}

/-- Rows numbered from an index on are read without a problem. The induction is on the rows. -/
theorem mirrored_read {index : ℕ}
    (h : Forall₂ (Mirrored codec) rows found) (hrun : ∀ record ∈ found, record.run_id = run_id)
    (hnumbered : Numbered.From LedgerRecord.sequence index found) :
    read_rows codec path run_id false index rows = .ok (found, []) := by
  induction h generalizing index with
  | nil => rfl
  | @cons row record rows found hrow _ ih =>
    refine read_rows_ok_iff.mpr ⟨hrow.sequence.trans hnumbered.1, record, found, ?_, ?_, rfl⟩
    · have hidentity : ¬ (record.run_id ≠ run_id ∨ record.sequence ≠ row.sequence) := by
        rw [not_or, not_not, not_not]
        exact ⟨hrun record mem_cons_self, hrow.sequence.symm⟩
      unfold read_record
      simp only [hrow.text, if_neg hidentity, Bool.false_eq_true, if_false]
    · refine ih (fun other hother => hrun other (mem_cons_of_mem _ hother)) (hnumbered.2.mono ?_)
      push_cast
      rfl

/-- The strict reading of a file that only the ledger has written. -/
theorem LedgerKept.strict {db : LedgerDatabase Time} (h : LedgerKept codec db) :
    ∃ manifest, read_ledger codec path run_id false db = .ok ⟨run_id, manifest, db.history run_id, []⟩ := by
  have hmanifest : ∃ manifest, read_manifest codec path run_id false
      (db.runs.find? fun row => row.run_id = run_id) = .ok (manifest, []) := by
    cases hfound : db.runs.find? fun row => row.run_id = run_id with
    | none => exact ⟨none, rfl⟩
    | some row =>
      obtain ⟨manifest, htext, hrun⟩ := h.manifests row (mem_of_find?_eq_some hfound)
      have hkey := find?_some hfound
      have hrow : row.run_id = run_id := of_decide_eq_true hkey
      refine ⟨some manifest, ?_⟩
      simp only [read_manifest, htext, hrun.trans hrow, if_true]
  obtain ⟨manifest, hread⟩ := hmanifest
  have hrows : read_rows codec path run_id false 1 (db.ordered_rows run_id) = .ok (db.history run_id, []) := by
    rw [h.ordered run_id]
    refine mirrored_read (h.mirrored run_id) (fun record hrecord => ?_) (h.numbered run_id)
    exact of_decide_eq_true (mem_filter.mp hrecord).2
  exact ⟨manifest, read_ledger_ok_iff.mpr ⟨h.version, h.sound, _, _, hread, hrows, rfl⟩⟩

end Strict

/-! ## The main result -/

/-- What a ledger that is reached agrees on: the numbers of the records, what a further call
appends, the pages of any size SQLite can count to, and the strict reading. -/
structure LedgerAgrees [BEq Time] (codec : LedgerCodec Time) (path : String)
    (c : Connection (LedgerDatabase Time)) : Prop where
  numbered : ∀ run_id, (c.stored.history run_id).map LedgerRecord.sequence =
    (range (c.stored.history run_id).length).map fun i : ℕ => (1 + i : ℤ)
  appends : ∀ entry faults, (append codec faults entry c).2.stored.appended =
    c.stored.appended ++ (append codec faults entry c).1.toOption.toList
  paged : ∀ run_id limit fuel, c.stored.has_run run_id = true → 0 < limit → limit < 2 ^ 63 →
    (c.stored.history run_id).length < fuel →
      read_pages codec run_id limit c fuel 0 = .ok (c.stored.history run_id)
  strict : ∀ run_id, ∃ manifest,
    read_ledger codec path run_id false c.stored = .ok ⟨run_id, manifest, c.stored.history run_id, []⟩

theorem a_digest : is_digest
    "sha256:0123456789abcdef0123456789abcdef0123456789abcdef0123456789abcdef" = true := by
  decide +kernel

def first_manifest : RunManifest ℕ where
  run_id := "run-1"
  plan_digest := "sha256:0123456789abcdef0123456789abcdef0123456789abcdef0123456789abcdef"
  substrate := "mininet-ovs"
  created_at := 0
  specification := ∅
  deployment_plan := ∅
  run_id_nonempty := by decide
  plan_digest_shape := a_digest
  substrate_nonempty := by decide

def first_entry : LedgerEntry ℕ where
  run_id := "run-1"
  category := .run_lifecycle
  type := "run.starting"
  recorded_at := 0
  run_id_nonempty := by decide
  type_nonempty := by decide
  correlation_id_nonempty := by decide
  causation_id_nonempty := by decide

def first_record : LedgerRecord ℕ where
  toLedgerEntry := first_entry
  sequence := 1
  sequence_pos := le_rfl

def first_manifest_json : String :=
  "\x7b\"contractVersion\":\"mininet-ai/run-ledger/v1alpha1\",\"runId\":\"run-1\",\"planDigest\":\"" ++
    "sha256:0123456789abcdef0123456789abcdef0123456789abcdef0123456789abcdef" ++
    "\",\"substrate\":\"mininet-ovs\",\"createdAt\":\"2026-01-01T00:00:00Z\",\"specification\":\x7b\x7d," ++
    "\"deploymentPlan\":\x7b\x7d,\"plugins\":[],\"configuration\":\x7b\x7d\x7d"

def first_record_json : String :=
  "\x7b\"runId\":\"run-1\",\"category\":\"run.lifecycle\",\"type\":\"run.starting\"," ++
    "\"recordedAt\":\"2026-01-01T00:00:00Z\",\"correlationId\":null,\"causationId\":null,\"data\":\x7b\x7d," ++
    "\"contractVersion\":\"mininet-ai/run-ledger/v1alpha1\",\"sequence\":1\x7d"

/-- What pydantic does with them; nothing else is written here. -/
def first_codec : LedgerCodec ℕ where
  isoformat _ := "2026-01-01T00:00:00+00:00"
  fromisoformat _ := .ok 0
  dump_time _ := "2026-01-01T00:00:00Z"
  dump_record r := if r = first_record then .ok first_record_json else .error "not serializable"
  dump_manifest m := if m = first_manifest then .ok first_manifest_json else .error "not serializable"
  validate_record text := if text = first_record_json then .ok first_record else .error "invalid"
  validate_manifest text := if text = first_manifest_json then .ok first_manifest else .error "invalid"
  loads _ := .error "not read"
  invalid_record := "1 validation error for LedgerRecord"

theorem first_codec_round_trips : first_codec.RoundTrips where
  record r text h := by
    unfold first_codec at h ⊢
    by_cases hr : r = first_record
    · simp only [if_pos hr] at h
      rw [← Except.ok.inj h, hr]
      simp only [if_true]
    · simp only [if_neg hr] at h
      cases h
  manifest m text h := by
    unfold first_codec at h ⊢
    by_cases hm : m = first_manifest
    · simp only [if_pos hm] at h
      rw [← Except.ok.inj h, hm]
      simp only [if_true]
    · simp only [if_neg hm] at h
      cases h

/-- The run and its first record. -/
def first_schedule : List (LedgerEvent ℕ) := [.create_run first_manifest no_faults, .append first_entry no_faults]

theorem first_ledger_reached : ∃ c, (ledger_system first_codec).Reachable c ∧ c.stored.has_run "run-1" = true ∧
    c.stored.history "run-1" = [first_record] := by
  have hrun : ((ledger_system first_codec).run { stored := {} } first_schedule).any (fun c =>
      c.stored.has_run "run-1" && c.stored.history "run-1" = [first_record]) = true := by
    decide +kernel
  obtain ⟨c, hc, hends⟩ := (Option.any_eq_true _ _).mp hrun
  obtain ⟨hfound, hhistory⟩ := (Bool.and_eq_true _ _).mp hends
  exact ⟨c, System.Reachable.run (.init rfl) hc, hfound, of_decide_eq_true hhistory⟩

end MininetAi
