/-
What a parsed flow expression holds.

The fields in front of the actions are entries of a dictionary, and the last entry of a name
counts. The names with an integer then get their defaults and are read as integers, and the
other names stay as they were entered. So a parsed rule is known from the entries of its
fields: that is how a name can be in it, and what a value can be.
-/
import MininetAi.Substrates.Flows

set_option autoImplicit false

namespace MininetAi

open Option Text

open List

/-! ## Entries -/

theorem flow_text_lawful : LawfulBEq FlowText := inferInstance

instance counter_name_decidable (name : FlowText) : Decidable (name ∈ counter_names) :=
  @instDecidableMemOfLawfulBEq _ _ flow_text_lawful name counter_names

/-- What a field enters. -/
def field_entry (field : FlowText) : Option (FlowText × FlowItem) :=
  let token := strip field
  if token = [] then none
  else match (cut '=' token).2 with
    | some value =>
      let name := strip (cut '=' token).1
      if name ∈ counter_names then none else some (name, .text (strip value))
    | none => some (token, .flag)

theorem read_field_eq (record : FlowRecord) (field : FlowText) :
    read_field record field = (field_entry field).elim record fun entry => record.insert entry.1 entry.2 := by
  unfold read_field field_entry
  by_cases htoken : strip field = []
  · simp only [if_pos htoken, elim_none]
  · simp only [if_neg htoken]
    cases (cut '=' (strip field)).2 with
    | none => rfl
    | some value =>
      by_cases hname : strip (cut '=' (strip field)).1 ∈ counter_names
      · simp only [if_pos hname, elim_none]
      · simp only [if_neg hname, elim_some]

def field_entries (fields : List FlowText) : List (FlowText × FlowItem) := fields.filterMap field_entry

/-- The last entry of a name. -/
def last_entry (entries : List (FlowText × FlowItem)) (name : FlowText) : Option FlowItem :=
  entries.reverse.lookup name

variable {entries : List (FlowText × FlowItem)} {name actions field value : FlowText}
  {record : FlowRecord}

variable {item : FlowItem} {names fields : List FlowText} {entry : FlowText × FlowText}

theorem last_entry_mem (h : last_entry entries name = some item) : (name, item) ∈ entries := by
  obtain ⟨l₁, l₂, heq, -⟩ := List.lookup_eq_some_iff.mp h
  rw [← mem_reverse, heq]
  exact mem_append_right _ mem_cons_self

theorem last_entry_none : last_entry entries name = none ↔ ∀ item, (name, item) ∉ entries := by
  unfold last_entry
  rw [lookup_eq_none_iff]
  constructor
  · intro h item hmem
    have hne := h (name, item) (mem_reverse.mpr hmem)
    simp at hne
  · intro h entry hmem
    by_contra hsame
    have hname : name = entry.1 := by simpa using hsame
    exact h entry.2 (by rw [hname]; exact mem_reverse.mp hmem)

theorem last_entry_cons (entry : FlowText × FlowItem) (entries : List (FlowText × FlowItem)) (name : FlowText) :
    last_entry (entry :: entries) name = (last_entry entries name).or (if name = entry.1 then some entry.2 else none) := by
  unfold last_entry
  rw [reverse_cons, lookup_append]
  congr 1
  by_cases hname : name = entry.1
  · rw [if_pos hname, hname, lookup_cons_self]
  · rw [if_neg hname, lookup_cons, beq_false_of_ne hname]
    rfl

/-- Every entry stays when the names are distinct. -/
theorem last_entry_of_nodup (h : (entries.map Prod.fst).Nodup) (hmem : (name, item) ∈ entries) :
    last_entry entries name = some item := by
  cases hlast : last_entry entries name with
  | none => exact absurd hmem (last_entry_none.mp hlast item)
  | some other =>
    have hsame := inj_on_of_nodup_map h (last_entry_mem hlast) hmem rfl
    exact congrArg some (Prod.ext_iff.mp hsame).2

/-- The dictionary of fields. -/
theorem lookup_read_fields (fields : List FlowText) (record : FlowRecord) (name : FlowText) :
    (fields.foldl read_field record).lookup name = (last_entry (field_entries fields) name).or (record.lookup name) := by
  induction fields generalizing record with
  | nil => rfl
  | cons field fields ih =>
    rw [foldl_cons, ih, read_field_eq]
    unfold field_entries
    rw [filterMap_cons]
    cases field_entry field with
    | none => rfl
    | some entry =>
      simp only [elim_some]
      rw [last_entry_cons, Option.or_assoc]
      congr 1
      by_cases hname : name = entry.1
      · rw [if_pos hname, hname, Finmap.lookup_insert, some_or]
      · rw [if_neg hname, Finmap.lookup_insert_of_ne _ hname, none_or]

/-! ## Integers -/

def integer_names : List FlowText := integer_defaults.map Prod.fst

theorem integer_names_nodup : integer_names.Nodup := by decide

theorem actions_not_integer : "actions".toList ∉ integer_names := by decide

theorem lookup_set_default (record : FlowRecord) (entry : FlowText × FlowText) (name : FlowText) :
    (set_default record entry).lookup name =
      (record.lookup name).or (if name = entry.1 then some (.text entry.2) else none) := by
  unfold set_default
  by_cases hmem : entry.1 ∈ record
  · rw [if_pos hmem]
    by_cases hname : name = entry.1
    · obtain ⟨item, hitem⟩ := Finmap.mem_iff.mp hmem
      rw [hname, hitem, some_or]
    · rw [if_neg hname, or_none]
  · rw [if_neg hmem]
    by_cases hname : name = entry.1
    · rw [if_pos hname, hname, Finmap.lookup_insert, Finmap.lookup_eq_none.mpr hmem, none_or]
    · rw [if_neg hname, Finmap.lookup_insert_of_ne _ hname, or_none]

theorem lookup_set_defaults {defaults : List (FlowText × FlowText)} :
    (defaults.foldl set_default record).lookup name =
      (record.lookup name).or ((defaults.lookup name).map FlowItem.text) := by
  induction defaults generalizing record with
  | nil => exact (or_none).symm
  | cons entry defaults ih =>
    rw [foldl_cons, ih, lookup_set_default, Option.or_assoc, lookup_cons]
    congr 1
    by_cases hname : name = entry.1
    · simp [hname]
    · rw [if_neg hname, beq_false_of_ne hname, none_or]

/-- The integer of a name: its last entry or its default, as a literal. -/
def integer_entry (entries : List (FlowText × FlowItem)) (entry : FlowText × FlowText) : Option ℤ :=
  match last_entry entries entry.1 with
  | none => int_literal entry.2
  | some (.text value) => int_literal value
  | some .flag | some (.number _) => none

/-- The integer that is entered under a name. -/
def record_integer (record : FlowRecord) (name : FlowText) : Option ℤ :=
  match record.lookup name with
  | some (.text value) => int_literal value
  | none | some .flag | some (.number _) => none

theorem read_integer_eq (record : FlowRecord) (name : FlowText) : read_integer record name =
      (record_integer record name).elim (.error name) fun n => .ok (record.insert name (.number n)) := by
  unfold read_integer record_integer
  cases record.lookup name with
  | none => rfl
  | some item =>
    cases item with
    | flag => rfl
    | number n => rfl
    | text value =>
      simp only
      cases int_literal value with
      | none => rfl
      | some n => rfl

/-- The integers are read when each of the names has one. -/
theorem read_integers_ok (hnames : names.Nodup) {read : FlowRecord}
    (h : read_integers names record = .ok read) :
    (∀ name, name ∉ names → read.lookup name = record.lookup name) ∧
      ∀ name ∈ names, ∃ n, record_integer record name = some n ∧ read.lookup name = some (.number n) := by
  induction names generalizing record with
  | nil =>
    rw [read_integers] at h
    rw [← Except.ok.inj h]
    exact ⟨fun _ _ => rfl, fun name hname => absurd hname not_mem_nil⟩
  | cons first names ih =>
    obtain ⟨hfirst, hnames⟩ := List.nodup_cons.mp hnames
    rw [read_integers] at h
    obtain ⟨next, hnext, h⟩ := Except.bind_ok_iff.mp h
    rw [read_integer_eq] at hnext
    cases hinteger : record_integer record first with
    | none =>
      rw [hinteger] at hnext
      cases hnext
    | some n =>
      rw [hinteger] at hnext
      have hinsert : record.insert first (.number n) = next := Except.ok.inj hnext
      obtain ⟨hothers, hread⟩ := ih hnames h
      have hsame : ∀ name, name ≠ first → next.lookup name = record.lookup name := fun name hne => by
        rw [← hinsert, Finmap.lookup_insert_of_ne _ hne]
      refine ⟨fun name hname => ?_, forall_mem_cons.mpr ⟨⟨n, hinteger, ?_⟩, fun name hname => ?_⟩⟩
      · rw [mem_cons, not_or] at hname
        rw [hothers name hname.2, hsame name hname.1]
      · rw [hothers first hfirst, ← hinsert, Finmap.lookup_insert]
      · obtain ⟨m, hm, hlookup⟩ := hread name hname
        have hne : name ≠ first := fun heq => hfirst (heq ▸ hname)
        refine ⟨m, ?_, hlookup⟩
        rw [← hm, record_integer, record_integer, hsame name hne]

theorem read_integers_isOk (hnames : names.Nodup)
    (h : ∀ name ∈ names, record_integer record name ≠ none) :
    ∃ read, read_integers names record = .ok read := by
  induction names generalizing record with
  | nil => exact ⟨record, rfl⟩
  | cons first names ih =>
    obtain ⟨hfirst, hnames⟩ := List.nodup_cons.mp hnames
    obtain ⟨hsome, hrest⟩ := forall_mem_cons.mp h
    obtain ⟨n, hn⟩ := ne_none_iff_exists'.mp hsome
    have hothers : ∀ name ∈ names, record_integer (record.insert first (.number n)) name ≠ none := by
      intro name hname
      have hne : name ≠ first := fun heq => hfirst (heq ▸ hname)
      rw [record_integer, Finmap.lookup_insert_of_ne _ hne]
      exact hrest name hname
    obtain ⟨read, hread⟩ := ih hnames hothers
    refine ⟨read, ?_⟩
    rw [read_integers, read_integer_eq, hn]
    exact hread

/-! ## Rules -/

/-- The entered actions, before a field may replace them. -/
def entered_actions (actions : FlowText) (name : FlowText) : Option FlowItem :=
  if name = "actions".toList then some (.text (strip actions)) else none

/-- What a rule of fields and actions holds. -/
structure RuleOf (entries : List (FlowText × FlowItem)) (actions : FlowText) (record : FlowRecord) : Prop where
  entered : ∀ name, name ∉ integer_names → record.lookup name = (last_entry entries name).or (entered_actions actions name)
  integers : ∀ entry ∈ integer_defaults, ∃ n,
    integer_entry entries entry = some n ∧ record.lookup entry.1 = some (.number n)

theorem raw_lookup (fields : List FlowText) (actions name : FlowText) :
    (integer_defaults.foldl set_default
        (fields.foldl read_field ((∅ : FlowRecord).insert "actions".toList (.text (strip actions))))).lookup name =
      ((last_entry (field_entries fields) name).or (entered_actions actions name)).or
        ((integer_defaults.lookup name).map FlowItem.text) := by
  rw [lookup_set_defaults, lookup_read_fields]
  congr 2
  unfold entered_actions
  by_cases hname : name = "actions".toList
  · rw [if_pos hname, hname, Finmap.lookup_insert]
  · rw [if_neg hname, Finmap.lookup_insert_of_ne _ hname, Finmap.lookup_empty]

theorem lookup_default (h : entry ∈ integer_defaults) :
    integer_defaults.lookup entry.1 = some entry.2 := by
  revert entry
  decide

theorem record_integer_raw (fields : List FlowText) (actions : FlowText)
    (h : entry ∈ integer_defaults) : record_integer (integer_defaults.foldl set_default
        (fields.foldl read_field ((∅ : FlowRecord).insert "actions".toList (.text (strip actions))))) entry.1 =
      integer_entry (field_entries fields) entry := by
  have hname : entry.1 ≠ "actions".toList := fun heq =>
    actions_not_integer (heq ▸ mem_map_of_mem h)
  unfold record_integer integer_entry
  rw [raw_lookup, entered_actions, if_neg hname, or_none, lookup_default h]
  cases last_entry (field_entries fields) entry.1 with
  | none => rfl
  | some item => cases item <;> rfl

/-- A rule that is read holds its entries. -/
theorem read_rule_ok (h : read_rule fields actions = .ok record) :
    RuleOf (field_entries fields) actions record := by
  obtain ⟨hothers, hintegers⟩ := read_integers_ok integer_names_nodup h
  refine ⟨fun name hname => ?_, fun entry hentry => ?_⟩
  · have hdefault : integer_defaults.lookup name = none := by
      rw [lookup_eq_none_iff]
      intro entry hentry
      by_contra hsame
      have heq : name = entry.1 := by simpa using hsame
      exact hname (heq ▸ mem_map_of_mem hentry)
    rw [hothers name hname, raw_lookup, hdefault, map_none, or_none]
  · obtain ⟨n, hn, hlookup⟩ := hintegers entry.1 (mem_map_of_mem hentry)
    rw [record_integer_raw fields actions hentry] at hn
    exact ⟨n, hn, hlookup⟩

/-- A rule is read when each of its integers is one. -/
theorem read_rule_isOk {fields : List FlowText} {actions : FlowText}
    (h : ∀ entry ∈ integer_defaults, integer_entry (field_entries fields) entry ≠ none) :
    ∃ record, read_rule fields actions = .ok record := by
  refine read_integers_isOk integer_names_nodup fun name hname => ?_
  obtain ⟨entry, hentry, rfl⟩ := mem_map.mp hname
  rw [record_integer_raw fields actions hentry]
  exact h entry hentry

/-- Entries and actions determine a rule. -/
theorem RuleOf.unique {record' : FlowRecord} (h : RuleOf entries actions record)
    (h' : RuleOf entries actions record') : record = record' := by
  refine Finmap.ext_lookup fun name => ?_
  by_cases hname : name ∈ integer_names
  · obtain ⟨entry, hentry, rfl⟩ := mem_map.mp hname
    obtain ⟨n, hn, hlookup⟩ := h.integers entry hentry
    obtain ⟨n', hn', hlookup'⟩ := h'.integers entry hentry
    rw [hlookup, hlookup', Option.some.inj (hn.symm.trans hn')]
  · rw [h.entered name hname, h'.entered name hname]

/-- The rule depends on the entries of the fields alone. -/
theorem read_rule_congr {fields' : List FlowText}
    (h : field_entries fields = field_entries fields') (actions : FlowText) :
    (read_rule fields actions).toOption = (read_rule fields' actions).toOption := by
  refine ext fun record => ?_
  rw [Except.toOption_some_iff, Except.toOption_some_iff]
  have hone : ∀ {f f' : List FlowText}, field_entries f = field_entries f' → read_rule f actions = .ok record →
      read_rule f' actions = .ok record := by
    intro f f' hentries hread
    have hrule := read_rule_ok hread
    obtain ⟨other, hother⟩ := @read_rule_isOk f' actions fun entry hentry => by
      obtain ⟨n, hn, -⟩ := hrule.integers entry hentry
      rw [← hentries, hn]
      exact some_ne_none n
    have hsame := read_rule_ok hother
    rw [← hentries] at hsame
    rw [hother, hrule.unique hsame]
  exact ⟨hone h, hone h.symm⟩

/-! ## Matches -/

theorem lookup_without (record : FlowRecord) (names : List FlowText) (name : FlowText) :
    (FlowRecord.without record names).lookup name = if name ∈ names then none else record.lookup name := by
  induction names generalizing record with
  | nil => rfl
  | cons first names ih =>
    unfold FlowRecord.without at ih ⊢
    rw [foldl_cons, ih]
    by_cases hmem : name ∈ names
    · rw [if_pos hmem, if_pos (mem_cons_of_mem _ hmem)]
    · rw [if_neg hmem]
      by_cases hname : name = first
      · rw [hname, Finmap.lookup_erase, if_pos mem_cons_self]
      · rw [Finmap.lookup_erase_ne hname, if_neg]
        exact fun h => (mem_cons.mp h).elim hname hmem

theorem lookup_match_of (record : FlowRecord) (name : FlowText) :
    (match_of record).lookup name = if name ∈ metadata_names then none else record.lookup name :=
  lookup_without record metadata_names name

theorem mem_metadata_names :
    name ∈ metadata_names ↔ name = "actions".toList ∨ name ∈ integer_names := mem_cons

/-- The match of a rule is what its fields enter under other names. -/
theorem RuleOf.lookup_match (h : RuleOf entries actions record) (hname : name ∉ metadata_names) :
    (match_of record).lookup name = last_entry entries name := by
  rw [mem_metadata_names, not_or] at hname
  rw [lookup_match_of, if_neg (by rw [mem_metadata_names, not_or]; exact hname), h.entered name hname.2, entered_actions,
    if_neg hname.1, or_none]

/-! ## Fields -/

/-- What a field can enter: a bare name, or a name with a value. -/
theorem field_entry_some {entry : FlowText × FlowItem} (h : field_entry field = some entry) :
    '=' ∉ entry.1 ∧ strip entry.1 = entry.1 ∧
      ((entry.2 = .flag ∧ entry.1 = strip field ∧ entry.1 ≠ []) ∨
        ∃ value, strip field = (cut '=' (strip field)).1 ++ '=' :: value ∧
          entry.1 = strip (cut '=' (strip field)).1 ∧ entry.2 = .text (strip value) ∧
          entry.1 ∉ counter_names) := by
  unfold field_entry at h
  by_cases htoken : strip field = []
  · simp only [if_pos htoken] at h
    cases h
  · simp only [if_neg htoken] at h
    cases hcut : (cut '=' (strip field)).2 with
    | none =>
      simp only [hcut] at h
      rw [← Option.some.inj h]
      exact ⟨(cut_none hcut).1, strip_strip field, Or.inl ⟨rfl, rfl, htoken⟩⟩
    | some value =>
      simp only [hcut] at h
      by_cases hname : strip (cut '=' (strip field)).1 ∈ counter_names
      · rw [if_pos hname] at h
        cases h
      · rw [if_neg hname] at h
        rw [← Option.some.inj h]
        refine ⟨fun hmem => cut_fst_not_mem '=' _ (mem_of_mem_strip hmem), strip_strip _, Or.inr ?_⟩
        exact ⟨value, cut_some hcut, rfl, rfl, hname⟩

/-- A bare name is entered as a flag. -/
theorem field_entry_flag (hne : field ≠ []) (hstrip : strip field = field) (h : '=' ∉ field) :
    field_entry field = some (field, .flag) := by
  unfold field_entry
  simp only [hstrip, if_neg hne, cut_of_not_mem h]

/-- What a field with a name and a value enters. -/
theorem field_entry_named (hname : '=' ∉ name) (h : strip field = assigned name value) :
    field_entry field = if strip name ∈ counter_names then none else some (strip name, .text (strip value)) := by
  have hne : assigned name value ≠ [] := append_ne_nil_of_right_ne_nil _ (cons_ne_nil _ _)
  unfold field_entry
  simp only [h, if_neg hne]
  unfold assigned
  simp only [cut_append hname]

/-- A name with a value is entered. -/
theorem field_entry_assigned (hname : '=' ∉ name)
    (hstrip : strip (assigned name value) = assigned name value)
    (hstripped : strip name = name) (hvalue : strip value = value)
    (hcounter : name ∉ counter_names) :
    field_entry (assigned name value) = some (name, .text value) := by
  rw [field_entry_named hname hstrip, hstripped, if_neg hcounter, hvalue]

/-- A counter enters nothing. -/
theorem field_entry_counter (hname : name ∈ counter_names)
    (hstrip : strip field = assigned name value) : field_entry field = none := by
  have hnames : ∀ n ∈ counter_names, '=' ∉ n ∧ strip n = n := by decide
  obtain ⟨hequals, hstripped⟩ := hnames name hname
  rw [field_entry_named hequals hstrip, hstripped, if_pos hname]

theorem field_entry_congr {field' : FlowText} (h : strip field = strip field') :
    field_entry field = field_entry field' := by
  unfold field_entry
  rw [h]

end MininetAi
