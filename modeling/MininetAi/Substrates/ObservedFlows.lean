/-
Flow records as the observations read them (`_parse_flow` and `_FLOW_FIELDS` of
`mininet_ai/substrates/mininet_ovs/observations.py`), beside the action layer's reading.

Both split a record at its actions and then at commas. They differ in what stands before the
actions, in which names are no part of a match, and in what they strip: so they agree on records
in which none of this shows. Numbers among the other fields are kept as texts.
-/
import MininetAi.Substrates.FlowFields

set_option autoImplicit false

namespace MininetAi

open Option Text

open List

/-! ## The parser of the observations -/

/-- `_FLOW_FIELDS`: the names that are no part of a match, and the names of their values. -/
def observed_names : List (FlowText × FlowText) :=
  [("cookie".toList, "cookie".toList), ("duration".toList, "durationSeconds".toList), ("table".toList, "table".toList),
    ("n_packets".toList, "packets".toList), ("n_bytes".toList, "bytes".toList), ("priority".toList, "priority".toList),
    ("idle_age".toList, "idleAgeSeconds".toList), ("hard_age".toList, "hardAgeSeconds".toList)]

/-- An observed flow: its match, its actions and its other fields. -/
structure ObservedFlow where
  selection : FlowRecord
  actions : FlowText
  others : FlowRecord

/-- One field in front of the actions. -/
def observe_field (flow : ObservedFlow) (field : FlowText) : ObservedFlow :=
  let token := strip field
  if token = [] then flow
  else match (cut '=' token).2 with
    | some value => match observed_names.lookup (cut '=' token).1 with
      | some output => { flow with others := flow.others.insert output (.text value) }
      | none => { flow with selection := flow.selection.insert (cut '=' token).1 (.text value) }
    | none => { flow with selection := flow.selection.insert token .flag }

/-- `" actions="` at a place, with what follows it. -/
def spaced_actions_here (s : FlowText) : Option FlowText :=
  if " actions=".toList <+: s then some (s.drop 9) else none

/-- `_parse_flow`; the error is that of an assignment of two names. -/
def parse_observed_flow (line : FlowText) : Except String (Option ObservedFlow) :=
  if contains_text " actions=" line = false then .ok none
  else match search spaced_actions_here (strip line) with
    | none => .error "not enough values to unpack (expected 2, got 1)"
    | some found => .ok (some ((found.1.splitOn ',').foldl observe_field ⟨∅, found.2, ∅⟩))

/-! ## Observed entries -/

/-- What a field enters into the match. -/
def observed_entry (field : FlowText) : Option (FlowText × FlowItem) :=
  let token := strip field
  if token = [] then none
  else match (cut '=' token).2 with
    | some value => if observed_names.lookup (cut '=' token).1 = none then some ((cut '=' token).1, .text value) else none
    | none => some (token, .flag)

/-- The entries of fields. -/
def observed_entries (fields : List FlowText) : List (FlowText × FlowItem) := fields.filterMap observed_entry

theorem observe_field_selection (flow : ObservedFlow) (field : FlowText) :
    (observe_field flow field).selection =
      (observed_entry field).elim flow.selection fun entry => flow.selection.insert entry.1 entry.2 := by
  unfold observe_field observed_entry
  by_cases htoken : strip field = []
  · simp only [if_pos htoken, elim_none]
  · simp only [if_neg htoken]
    cases (cut '=' (strip field)).2 with
    | none => rfl
    | some value =>
      simp only
      cases observed_names.lookup (cut '=' (strip field)).1 with
      | none => rfl
      | some output => rfl

theorem observe_field_actions (flow : ObservedFlow) (field : FlowText) : (observe_field flow field).actions = flow.actions := by
  unfold observe_field
  by_cases htoken : strip field = []
  · simp only [if_pos htoken]
  · simp only [if_neg htoken]
    cases (cut '=' (strip field)).2 with
    | none => rfl
    | some value =>
      simp only
      cases observed_names.lookup (cut '=' (strip field)).1 with
      | none => rfl
      | some output => rfl

/-- The match that is observed holds the last entry of each name. -/
theorem lookup_observed (fields : List FlowText) (flow : ObservedFlow) (name : FlowText) :
    (fields.foldl observe_field flow).selection.lookup name =
      (last_entry (observed_entries fields) name).or (flow.selection.lookup name) := by
  induction fields generalizing flow with
  | nil => rfl
  | cons field fields ih =>
    rw [foldl_cons, ih, observe_field_selection]
    unfold observed_entries
    rw [filterMap_cons]
    cases observed_entry field with
    | none => rfl
    | some entry =>
      simp only [elim_some]
      rw [last_entry_cons, Option.or_assoc]
      congr 1
      by_cases hname : name = entry.1
      · rw [if_pos hname, hname, Finmap.lookup_insert, some_or]
      · rw [if_neg hname, Finmap.lookup_insert_of_ne _ hname, none_or]

theorem observed_actions (fields : List FlowText) (flow : ObservedFlow) :
    (fields.foldl observe_field flow).actions = flow.actions := by
  induction fields generalizing flow with
  | nil => rfl
  | cons field fields ih => rw [foldl_cons, ih, observe_field_actions]

/-! ## What the parsers see of a field -/

/-- A field is blank, a bare name, or a name with a value. -/
theorem field_cases (field : FlowText) :
    strip field = [] ∨ (strip field ≠ [] ∧ '=' ∉ strip field) ∨
      ∃ name value, '=' ∉ name ∧ strip field = assigned name value := by
  by_cases hempty : strip field = []
  · exact Or.inl hempty
  · cases hcut : (cut '=' (strip field)).2 with
    | none => exact Or.inr (Or.inl ⟨hempty, (cut_none hcut).1⟩)
    | some value =>
      exact Or.inr (Or.inr ⟨_, value, cut_fst_not_mem '=' _, cut_some hcut⟩)

variable {field name s found : FlowText}

theorem observed_entry_blank (h : strip field = []) :
    observed_entry field = none ∧ field_entry field = none := by
  unfold observed_entry field_entry
  simp only [if_pos h, and_self]

theorem observed_entry_flag (hne : strip field ≠ []) (h : '=' ∉ strip field) :
    observed_entry field = some (strip field, .flag) ∧ field_entry field = some (strip field, .flag) := by
  unfold observed_entry field_entry
  simp only [if_neg hne, cut_of_not_mem h, and_self]

theorem observed_entry_assigned {value : FlowText} (hname : '=' ∉ name)
    (h : strip field = assigned name value) :
    observed_entry field = (if observed_names.lookup name = none then some (name, .text value) else none) ∧
      field_entry field =
        if strip name ∈ counter_names then none else some (strip name, .text (strip value)) := by
  have hne : assigned name value ≠ [] := append_ne_nil_of_right_ne_nil _ (cons_ne_nil _ _)
  refine ⟨?_, field_entry_named hname h⟩
  unfold observed_entry
  simp only [h, if_neg hne]
  unfold assigned
  simp only [cut_append hname]

/-! ## Fields that are read alike -/

/-- Fields of which the parsers enter the same into a match. -/
structure ReadAlike (fields : List FlowText) : Prop where
  names : ∀ field ∈ fields, ∀ name value, '=' ∉ name → strip field = assigned name value →
    strip name = name ∧ name ∉ ["actions".toList, "idle_timeout".toList, "hard_timeout".toList]
  flags : ∀ field ∈ fields, strip field ∉ metadata_names
  values : ∀ before field after, fields = before ++ field :: after → ∀ name value, '=' ∉ name →
    strip field = assigned name value → name ∉ metadata_names → name ∉ counter_names →
    (∀ other ∈ after, strip other ≠ [] → (cut '=' (strip other)).1 ≠ name) → strip value = value

/-- A value without blanks at its ends. -/
def stripped_item : FlowItem → FlowItem
  | .text value => .text (strip value)
  | .flag => .flag
  | .number n => .number n

theorem observed_names_stripped : ∀ name, observed_names.lookup name ≠ none → strip name = name := by
  intro name hname
  have hmem : ∀ entry ∈ observed_names, strip entry.1 = entry.1 := by decide
  by_contra hnot
  refine hname (lookup_eq_none_iff.mpr fun entry hentry => ?_)
  have hne : name ≠ entry.1 := fun heq => hnot (heq ▸ hmem entry hentry)
  simpa using hne

theorem observed_names_none : ∀ name ∈ ["actions".toList, "idle_timeout".toList, "hard_timeout".toList],
    observed_names.lookup name = none ∧ name ∈ metadata_names := by
  decide

theorem observed_names_some : ∀ entry ∈ observed_names, entry.1 ∈ metadata_names ∨ entry.1 ∈ counter_names := by
  decide

theorem metadata_observed : ∀ name ∈ metadata_names, observed_names.lookup name ≠ none ∨
    name ∈ ["actions".toList, "idle_timeout".toList, "hard_timeout".toList] := by
  decide

theorem counters_observed : ∀ name ∈ counter_names, observed_names.lookup name ≠ none ∧ name ∉ metadata_names := by
  decide

/-- A name that is no part of a match for the observations is none for the actions. -/
theorem lookup_observed_names
    (h : name ∉ ["actions".toList, "idle_timeout".toList, "hard_timeout".toList]) :
    observed_names.lookup name = none ↔ name ∉ metadata_names ∧ name ∉ counter_names := by
  constructor
  · intro hnone
    refine ⟨fun hmem => ?_, fun hmem => (counters_observed name hmem).1 hnone⟩
    rcases metadata_observed name hmem with hsome | hlisted
    · exact hsome hnone
    · exact h hlisted
  · rintro ⟨hmetadata, hcounter⟩
    refine lookup_eq_none_iff.mpr fun entry hentry => ?_
    have hne : name ≠ entry.1 := by
      rintro rfl
      exact (observed_names_some entry hentry).elim hmetadata hcounter
    simpa using hne

section Alike

variable {fields : List FlowText}

variable {field : FlowText}

/-- Of a field that is read alike, the parsers enter the same name. -/
theorem entries_alike (hnames : ∀ name value, '=' ∉ name → strip field = assigned name value →
      strip name = name ∧ name ∉ ["actions".toList, "idle_timeout".toList, "hard_timeout".toList])
    (hflag : strip field ∉ metadata_names) :
    ((observed_entry field).map fun entry => (entry.1, stripped_item entry.2)) =
      (field_entry field).filter fun entry => entry.1 ∉ metadata_names := by
  rcases field_cases field with hblank | ⟨hne, hbare⟩ | ⟨name, value, hname, hstrip⟩
  · rw [(observed_entry_blank hblank).1, (observed_entry_blank hblank).2]
    rfl
  · rw [(observed_entry_flag hne hbare).1, (observed_entry_flag hne hbare).2, filter_some,
      if_pos (decide_eq_true hflag)]
    rfl
  · obtain ⟨hstripped, hlisted⟩ := hnames name value hname hstrip
    obtain ⟨hobserved, hentered⟩ := observed_entry_assigned hname hstrip
    rw [hobserved, hentered, hstripped]
    by_cases hcounter : name ∈ counter_names
    · rw [if_neg (counters_observed name hcounter).1, if_pos hcounter]
      rfl
    · rw [if_neg hcounter, filter_some]
      by_cases hmetadata : name ∈ metadata_names
      · have hsome : observed_names.lookup name ≠ none := fun hnone =>
          ((lookup_observed_names hlisted).mp hnone).1 hmetadata
        rw [if_neg hsome, if_neg (by simpa using hmetadata)]
        rfl
      · rw [if_pos ((lookup_observed_names hlisted).mpr ⟨hmetadata, hcounter⟩), if_pos (by simpa using hmetadata)]
        rfl

/-- The last entries of fields that are read alike differ in blanks alone. -/
theorem last_entry_alike
    (hnames : ∀ field ∈ fields, ∀ name value, '=' ∉ name → strip field = assigned name value →
      strip name = name ∧ name ∉ ["actions".toList, "idle_timeout".toList, "hard_timeout".toList])
    (hflags : ∀ field ∈ fields, strip field ∉ metadata_names) (name : FlowText) :
    (last_entry (observed_entries fields) name).map stripped_item =
      if name ∈ metadata_names then none else last_entry (field_entries fields) name := by
  induction fields with
  | nil => exact (ite_self none).symm
  | cons field fields ih =>
    have hentry := entries_alike (hnames field mem_cons_self) (hflags field mem_cons_self)
    have hrest := ih (fun f hf => hnames f (mem_cons_of_mem _ hf)) fun f hf => hflags f (mem_cons_of_mem _ hf)
    unfold observed_entries field_entries at hrest ⊢
    rw [filterMap_cons, filterMap_cons]
    cases hobserved : observed_entry field with
    | none =>
      rw [hobserved, map_none] at hentry
      cases hentered : field_entry field with
      | none => exact hrest
      | some entry =>
        rw [hentered] at hentry
        have hmem : entry.1 ∈ metadata_names := by
          by_contra hnot
          rw [filter_some, if_pos (decide_eq_true hnot)] at hentry
          cases hentry
        simp only
        rw [hrest, last_entry_cons]
        by_cases hname : name ∈ metadata_names
        · rw [if_pos hname, if_pos hname]
        · have hne : name ≠ entry.1 := fun heq => hname (heq ▸ hmem)
          rw [if_neg hname, if_neg hname, if_neg hne, or_none]
    | some observed =>
      rw [hobserved, map_some] at hentry
      obtain ⟨hentered, hfree⟩ := filter_eq_some_iff.mp hentry.symm
      have hfree : observed.1 ∉ metadata_names := of_decide_eq_true hfree
      rw [hentered]
      simp only
      rw [last_entry_cons, last_entry_cons, map_or, hrest]
      by_cases hname : name = observed.1
      · have hnot : name ∉ metadata_names := fun hmem => hfree (hname ▸ hmem)
        rw [if_pos hname, if_pos hname, if_neg hnot, if_neg hnot, map_some]
      · rw [if_neg hname, if_neg hname, map_none, or_none, or_none]

/-- The last entry of a name is that of the last field that enters it. -/
theorem last_entry_field {enter : FlowText → Option (FlowText × FlowItem)} {name : FlowText} {item : FlowItem}
    (h : last_entry (fields.filterMap enter) name = some item) :
    ∃ before field after, fields = before ++ field :: after ∧ enter field = some (name, item) ∧
      ∀ other ∈ after, ∀ item', enter other ≠ some (name, item') := by
  induction fields with
  | nil => cases h
  | cons field fields ih =>
    rw [filterMap_cons] at h
    by_cases hrest : ∃ item', last_entry (fields.filterMap enter) name = some item'
    · obtain ⟨item', hitem'⟩ := hrest
      have hsame : last_entry (fields.filterMap enter) name = some item := by
        cases hfield : enter field with
        | none =>
          rw [hfield] at h
          exact h
        | some entry =>
          rw [hfield] at h
          simp only at h
          rw [last_entry_cons, hitem', some_or] at h
          rw [hitem', h]
      obtain ⟨before, other, after, rfl, hother, hafter⟩ := ih hsame
      exact ⟨field :: before, other, after, rfl, hother, hafter⟩
    · have hnone : last_entry (fields.filterMap enter) name = none := by
        rw [← not_isSome_iff_eq_none, isSome_iff_exists]
        exact hrest
      refine ⟨[], field, fields, rfl, ?_, fun other hother item' hentry => ?_⟩
      · cases hfield : enter field with
        | none =>
          rw [hfield] at h
          simp only at h
          rw [hnone] at h
          cases h
        | some entry =>
          rw [hfield] at h
          simp only at h
          rw [last_entry_cons, hnone, none_or] at h
          by_cases hname : name = entry.1
          · rw [if_pos hname] at h
            rw [hname, ← Option.some.inj h]
          · rw [if_neg hname] at h
            cases h
      · exact last_entry_none.mp hnone item' (mem_filterMap.mpr ⟨other, hother, hentry⟩)

theorem observed_entry_name {entry : FlowText × FlowItem} (h : observed_entry field = some entry) :
    (cut '=' (strip field)).1 = entry.1 := by
  rcases field_cases field with hblank | ⟨hne, hbare⟩ | ⟨name, value, hname, hstrip⟩
  · rw [(observed_entry_blank hblank).1] at h
    cases h
  · rw [(observed_entry_flag hne hbare).1] at h
    rw [cut_of_not_mem hbare, ← Option.some.inj h]
  · rw [(observed_entry_assigned hname hstrip).1] at h
    by_cases hobserved : observed_names.lookup name = none
    · rw [if_pos hobserved] at h
      rw [hstrip, assigned, cut_append hname, ← Option.some.inj h]
    · rw [if_neg hobserved] at h
      cases h

/-- The parsers enter the same into a match exactly when the fields are read alike. -/
theorem selections_agree_iff : (∀ name, last_entry (observed_entries fields) name =
        if name ∈ metadata_names then none else last_entry (field_entries fields) name) ↔ ReadAlike fields := by
  constructor
  · intro hagree
    -- what is observed is entered under a name of a match without blanks at its ends
    have hobserved : ∀ field ∈ fields, ∀ entry, observed_entry field = some entry →
        entry.1 ∉ metadata_names ∧ strip entry.1 = entry.1 := by
      intro field hfield entry hentry
      have hsome : last_entry (observed_entries fields) entry.1 ≠ none := by
        intro hnone
        exact last_entry_none.mp hnone entry.2 (mem_filterMap.mpr ⟨field, hfield, hentry⟩)
      rw [hagree] at hsome
      by_cases hmem : entry.1 ∈ metadata_names
      · rw [if_pos hmem] at hsome
        exact absurd rfl hsome
      · rw [if_neg hmem] at hsome
        obtain ⟨item, hitem⟩ := ne_none_iff_exists'.mp hsome
        obtain ⟨other, -, hother⟩ := mem_filterMap.mp (last_entry_mem hitem)
        exact ⟨hmem, (field_entry_some hother).2.1⟩
    have hnames : ∀ field ∈ fields, ∀ name value, '=' ∉ name → strip field = assigned name value →
        strip name = name ∧ name ∉ ["actions".toList, "idle_timeout".toList, "hard_timeout".toList] := by
      intro field hfield name value hname hstrip
      by_cases hnone : observed_names.lookup name = none
      · have hentry := (observed_entry_assigned hname hstrip).1
        rw [if_pos hnone] at hentry
        obtain ⟨hfree, hstripped⟩ := hobserved field hfield _ hentry
        exact ⟨hstripped, fun hlisted => hfree (observed_names_none name hlisted).2⟩
      · exact ⟨observed_names_stripped name hnone, fun hlisted => hnone (observed_names_none name hlisted).1⟩
    have hflags : ∀ field ∈ fields, strip field ∉ metadata_names := by
      intro field hfield hmem
      have hplain : ∀ name ∈ metadata_names, name ≠ [] ∧ '=' ∉ name := by decide
      obtain ⟨hne, hbare⟩ := hplain _ hmem
      exact (hobserved field hfield _ (observed_entry_flag hne hbare).1).1 hmem
    refine ⟨hnames, hflags, fun before field after hfields name value hname hstrip hmetadata hcounter hafter => ?_⟩
    have hlisted := (hnames field (by rw [hfields]; exact mem_append_right _ mem_cons_self) name value hname hstrip).2
    have hentry := (observed_entry_assigned hname hstrip).1
    rw [if_pos ((lookup_observed_names hlisted).mpr ⟨hmetadata, hcounter⟩)] at hentry
    have hlast : last_entry (observed_entries fields) name = some (.text value) := by
      have hnone : last_entry (observed_entries after) name = none := by
        refine last_entry_none.mpr fun item hmem => ?_
        obtain ⟨other, hother, hsame⟩ := mem_filterMap.mp hmem
        have hne : strip other ≠ [] := fun hblank => by
          rw [(observed_entry_blank hblank).1] at hsame
          cases hsame
        exact hafter other hother hne (observed_entry_name hsame)
      unfold observed_entries at hnone ⊢
      rw [hfields, filterMap_append, filterMap_cons, hentry, last_entry_append]
      simp only
      rw [last_entry_cons, hnone, if_pos rfl]
      rfl
    have halike := last_entry_alike hnames hflags name
    rw [← hagree, hlast, map_some] at halike
    exact FlowItem.text.inj (Option.some.inj halike)
  · intro halike name
    rw [← last_entry_alike halike.names halike.flags]
    cases hlast : last_entry (observed_entries fields) name with
    | none => rfl
    | some item =>
      obtain ⟨before, field, after, hfields, hentry, hafter⟩ := last_entry_field hlast
      have hfield : field ∈ fields := by
        rw [hfields]
        exact mem_append_right _ mem_cons_self
      rcases field_cases field with hblank | ⟨hne, hbare⟩ | ⟨name', value, hname, hstrip⟩
      · rw [(observed_entry_blank hblank).1] at hentry
        cases hentry
      · rw [(observed_entry_flag hne hbare).1] at hentry
        rw [← (Prod.mk.inj (Option.some.inj hentry)).2]
        rfl
      · obtain ⟨-, hlisted⟩ := halike.names field hfield name' value hname hstrip
        rw [(observed_entry_assigned hname hstrip).1] at hentry
        by_cases hnone : observed_names.lookup name' = none
        · rw [if_pos hnone] at hentry
          obtain ⟨rfl, rfl⟩ := Prod.mk.inj (Option.some.inj hentry)
          obtain ⟨hmetadata, hcounter⟩ := (lookup_observed_names hlisted).mp hnone
          have hvalue := halike.values before field after hfields name' value hname hstrip hmetadata hcounter ?_
          · rw [map_some, stripped_item, hvalue]
          · intro other hother hne hsame
            have hmem : other ∈ fields := by
              rw [hfields]
              exact mem_append_right _ (mem_cons_of_mem _ hother)
            rcases field_cases other with hblank | ⟨-, hbare⟩ | ⟨name'', value', hname', hstrip'⟩
            · exact hne hblank
            · rw [cut_of_not_mem hbare] at hsame
              obtain rfl : strip other = name' := hsame
              have hflag := (observed_entry_flag hne hbare).1
              exact hafter other hother _ hflag
            · rw [hstrip', assigned, cut_append hname'] at hsame
              obtain rfl : name'' = name' := hsame
              have hentered := (observed_entry_assigned hname' hstrip').1
              rw [if_pos hnone] at hentered
              exact hafter other hother _ hentered
        · rw [if_neg hnone] at hentry
          cases hentry

end Alike

/-! ## The places of the actions -/

theorem spaced_actions_here_some (h : spaced_actions_here s = some found) :
    s = " actions=".toList ++ found := by
  unfold spaced_actions_here at h
  by_cases hstart : " actions=".toList <+: s
  · rw [if_pos hstart] at h
    obtain ⟨rest, rfl⟩ := hstart
    rw [← Option.some.inj h]
    rfl
  · rw [if_neg hstart] at h
    cases h

/-- Actions behind a space are found by both parsers. -/
theorem actions_here_spaced (h : spaced_actions_here s = some found) (hline : '\n' ∉ found) :
    actions_here s = some found := by
  rw [spaced_actions_here_some h]
  exact actions_here_of (Or.inr (by decide)) hline

section Line

variable {line before found : FlowText}

/-- Where the actions are found first, and behind a space, both parsers split the record. -/
theorem search_spaced (hline : '\n' ∉ strip line)
    (h : search actions_here (strip line) = some (before, found))
    (hspace : strip line = before ++ (" actions=".toList ++ found)) :
    search spaced_actions_here (strip line) = some (before, found) := by
  obtain ⟨c, hplace, hfirst⟩ := search_place h
  have hc : c :: ("actions=".toList ++ found) = " actions=".toList ++ found := by
    rw [hplace, append_cancel_left_eq] at hspace
    exact hspace
  rw [hc] at hfirst
  have hhere : spaced_actions_here (" actions=".toList ++ found) = some found := by
    rw [spaced_actions_here, if_pos (prefix_append _ _)]
    rfl
  have hskip : ∀ l₁ l₂, before = l₁ ++ l₂ → l₂ ≠ [] → spaced_actions_here (l₂ ++ (" actions=".toList ++ found)) = none := by
    intro l₁ l₂ hl hne
    cases hspaced : spaced_actions_here (l₂ ++ (" actions=".toList ++ found)) with
    | none => rfl
    | some early =>
      have hnewline : '\n' ∉ early := by
        intro hmem
        refine hline ?_
        rw [hspace, hl, append_assoc, spaced_actions_here_some hspaced]
        exact mem_append_right _ (mem_append_right _ hmem)
      have hnone := hfirst l₁ l₂ hl hne
      rw [actions_here_spaced hspaced hnewline] at hnone
      cases hnone
  have hsearch := search_cons_some (p := spaced_actions_here) (a := ' ') (s := "actions=".toList ++ found) hhere
  rw [hspace, search_append hskip]
  rw [show " actions=".toList ++ found = ' ' :: ("actions=".toList ++ found) from rfl, hsearch, map_some,
    append_nil]

/-- What is observed of a record. -/
theorem parse_observed_flow_ok {flow : ObservedFlow} (h : parse_observed_flow line = .ok (some flow)) :
    ∃ early actions, search spaced_actions_here (strip line) = some (early, actions) ∧
      flow = (early.splitOn ',').foldl observe_field ⟨∅, actions, ∅⟩ := by
  unfold parse_observed_flow at h
  by_cases hcontains : contains_text " actions=" line = false
  · rw [if_pos hcontains] at h
    cases h
  · rw [if_neg hcontains] at h
    cases hsearch : search spaced_actions_here (strip line) with
    | none =>
      rw [hsearch] at h
      cases h
    | some place =>
      rw [hsearch] at h
      exact ⟨place.1, place.2, rfl, (Option.some.inj (Except.ok.inj h)).symm⟩

variable {actions : FlowText} {record : FlowRecord}

/-- A record with actions behind a space is observed. -/
theorem parse_observed_flow_of
    (h : search spaced_actions_here (strip line) = some (before, actions)) :
    parse_observed_flow line = .ok (some ((before.splitOn ',').foldl observe_field ⟨∅, actions, ∅⟩)) := by
  obtain ⟨m, hm, -, hhere, -⟩ := search_some h
  obtain ⟨b, b', -, -, hdecompose⟩ := strip_decompose line
  have hcontains : contains_text " actions=" line = true := by
    refine decide_eq_true ⟨b ++ before, actions ++ b', ?_⟩
    rw [hdecompose, hm, spaced_actions_here_some hhere]
    simp only [append_assoc]
  unfold parse_observed_flow
  rw [if_neg (by rw [hcontains]; exact Bool.noConfusion), h]

/-! ## Agreement -/

/-- What is observed of a record has the match and the actions of its rule. -/
def ParsersAgree (line : FlowText) (record : FlowRecord) : Prop :=
  ∃ flow, parse_observed_flow line = .ok (some flow) ∧ flow.selection = match_of record ∧
    record.lookup "actions".toList = some (.text flow.actions)

/-- A record whose actions are found behind a space, have no blanks at their ends, and stand behind
fields that are read alike. -/
def AgreeingLine (line : FlowText) : Prop :=
  ∃ before found, search actions_here (strip line) = some (before, found) ∧
    strip line = before ++ (" actions=".toList ++ found) ∧ strip found = found ∧ ReadAlike (before.splitOn ',')

/-- The observed match and the match of the rule, by their entries. -/
theorem observed_selection_iff {fields : List FlowText}
    (hrule : RuleOf (field_entries fields) found record) :
    (fields.foldl observe_field ⟨∅, actions, ∅⟩).selection = match_of record ↔
      ∀ name, last_entry (observed_entries fields) name =
        if name ∈ metadata_names then none else last_entry (field_entries fields) name := by
  have hobserved : ∀ name, (fields.foldl observe_field ⟨∅, actions, ∅⟩).selection.lookup name =
      last_entry (observed_entries fields) name := by
    intro name
    rw [lookup_observed, Finmap.lookup_empty, or_none]
  have hmatch : ∀ name, (match_of record).lookup name =
      if name ∈ metadata_names then none else last_entry (field_entries fields) name := by
    intro name
    by_cases hname : name ∈ metadata_names
    · rw [lookup_match_of, if_pos hname, if_pos hname]
    · rw [hrule.lookup_match hname, if_neg hname]
  constructor
  · intro hsame name
    rw [← hobserved, hsame, hmatch]
  · intro hentries
    refine Finmap.ext_lookup fun name => ?_
    rw [hobserved, hmatch, hentries]

/-- A value that is entered as the actions is the value of a field with this name. -/
theorem actions_entry {field value : FlowText} (h : field_entry field = some ("actions".toList, .text value)) :
    ∃ name raw, '=' ∉ name ∧ strip field = assigned name raw ∧ strip name = "actions".toList := by
  obtain ⟨-, -, hflag | ⟨raw, hstrip, hname, -, -⟩⟩ := field_entry_some h
  · cases hflag.1
  · exact ⟨_, raw, cut_fst_not_mem '=' _, hstrip, hname.symm⟩

/-- A record that agrees is read alike. -/
theorem AgreeingLine.parsers_agree (hline : '\n' ∉ line) (hagree : AgreeingLine line)
    (h : parse_flow_expression line = .ok (some record)) : ParsersAgree line record := by
  obtain ⟨before, found, hsearch, hread⟩ := parse_flow_expression_ok h
  obtain ⟨before', found', hsearch', hspace, hstripped, halike⟩ := hagree
  obtain ⟨rfl, rfl⟩ := Prod.mk.inj (Option.some.inj (hsearch.symm.trans hsearch'))
  have hrule := read_rule_ok hread
  have hspaced := search_spaced (fun hmem => hline (mem_of_mem_strip hmem)) hsearch hspace
  refine ⟨_, parse_observed_flow_of hspaced, (observed_selection_iff hrule).mpr (selections_agree_iff.mpr halike), ?_⟩
  have hnone : last_entry (field_entries (before.splitOn ',')) "actions".toList = none := by
    refine last_entry_none.mpr fun item hmem => ?_
    obtain ⟨field, hfield, hentry⟩ := mem_filterMap.mp hmem
    rcases field_cases field with hblank | ⟨hne, hbare⟩ | ⟨name, value, hname, hstrip⟩
    · rw [(observed_entry_blank hblank).2] at hentry
      cases hentry
    · rw [(observed_entry_flag hne hbare).2] at hentry
      have hactions := (Prod.mk.inj (Option.some.inj hentry)).1
      exact halike.flags field hfield (hactions ▸ mem_cons_self)
    · obtain ⟨hsame, hlisted⟩ := halike.names field hfield name value hname hstrip
      rw [(observed_entry_assigned hname hstrip).2, hsame] at hentry
      by_cases hcounter : name ∈ counter_names
      · rw [if_pos hcounter] at hentry
        cases hentry
      · rw [if_neg hcounter] at hentry
        exact hlisted ((Prod.mk.inj (Option.some.inj hentry)).1 ▸ mem_cons_self)
  rw [hrule.entered _ actions_not_integer, hnone, none_or, entered_actions, if_pos rfl, hstripped, observed_actions]

/-- Where the records agree, no field is named as the actions are: the observations would show it in the
match. -/
theorem no_actions_field {rest : FlowText}
    (hrule : RuleOf (field_entries (before.splitOn ',')) found record)
    (hsame : (((before ++ rest).splitOn ',').foldl observe_field ⟨∅, actions, ∅⟩).selection = match_of record) :
    ∀ field ∈ before.splitOn ',', ∀ value, field_entry field ≠ some ("actions".toList, .text value) := by
  intro field hfield value hentry
  obtain ⟨name, raw, hname, hstrip, hactions⟩ := actions_entry hentry
  obtain ⟨more, hmore⟩ := mem_splitOn_append hfield rest
  -- the field may go on, but its name stays
  obtain ⟨b, b', hb, -, hdecompose⟩ := strip_decompose field
  have hfirst : ∃ c t, name ++ ['='] = c :: t ∧ is_space c = false := by
    cases name with
    | nil => exact ⟨'=', [], rfl, by decide⟩
    | cons c t => exact ⟨c, t ++ ['='], rfl, strip_head hstrip⟩
  have hlonger : strip (field ++ more) = assigned name ((raw ++ b' ++ more).rdropWhile is_space) := by
    have hjoin : field ++ more = b ++ ((name ++ ['=']) ++ (raw ++ b' ++ more)) := by
      rw [hdecompose, hstrip, assigned]
      simp only [append_assoc, cons_append, nil_append]
    rw [hjoin, strip_blanks hb, strip_append hfirst ⟨name, '=', rfl, by decide⟩, assigned, append_assoc]
    rfl
  have hunobserved : observed_names.lookup name = none := by
    by_contra hsome
    have hsame := observed_names_stripped name hsome
    rw [hactions] at hsame
    exact hsome (hsame ▸ (observed_names_none _ mem_cons_self).1)
  have hobserved := (observed_entry_assigned hname hlonger).1
  rw [if_pos hunobserved] at hobserved
  have hsome : (match_of record).lookup name ≠ none := by
    rw [← hsame, lookup_observed, Finmap.lookup_empty, or_none]
    exact fun hnone => last_entry_none.mp hnone _ (mem_filterMap.mpr ⟨_, hmore, hobserved⟩)
  by_cases hmem : name ∈ metadata_names
  · rw [lookup_match_of, if_pos hmem] at hsome
    exact hsome rfl
  · rw [hrule.lookup_match hmem] at hsome
    obtain ⟨item, hitem⟩ := ne_none_iff_exists'.mp hsome
    obtain ⟨other, -, hother⟩ := mem_filterMap.mp (last_entry_mem hitem)
    have hstripped : strip name = name := (field_entry_some hother).2.1
    rw [hactions] at hstripped
    exact hmem (hstripped ▸ mem_cons_self)

/-- The two parsers agree on a record exactly when its actions stand behind a space, without blanks at
their ends, and its fields are read alike. -/
theorem parsers_agree_iff {record : FlowRecord} (hline : '\n' ∉ line)
    (h : parse_flow_expression line = .ok (some record)) : ParsersAgree line record ↔ AgreeingLine line := by
  refine ⟨fun hagree => ?_, fun hagree => hagree.parsers_agree hline h⟩
  obtain ⟨before, found, hsearch, hread⟩ := parse_flow_expression_ok h
  have hrule := read_rule_ok hread
  obtain ⟨c, hplace, hfirst⟩ := search_place hsearch
  obtain ⟨flow, hobserved, hselection, hactions⟩ := hagree
  obtain ⟨early, actions, hspaced, rfl⟩ := parse_observed_flow_ok hobserved
  obtain ⟨m, hm, -, hhere, -⟩ := search_some hspaced
  have hmactions := spaced_actions_here_some hhere
  have hnewline : '\n' ∉ actions := by
    intro hmem
    refine hline (mem_of_mem_strip ?_)
    rw [hm, hmactions]
    exact mem_append_right _ (mem_append_right _ hmem)
  -- the observations do not split the record earlier
  obtain ⟨rest, rfl⟩ : ∃ rest, early = before ++ rest := by
    have hone : before <+: strip line := ⟨_, hplace.symm⟩
    have hother : early <+: strip line := ⟨_, hm.symm⟩
    rcases List.prefix_or_prefix_of_prefix hone hother with ⟨rest, hrest⟩ | ⟨rest, hrest⟩
    · exact ⟨rest, hrest.symm⟩
    · cases rest with
      | nil => exact ⟨[], by rw [← hrest, append_nil, append_nil]⟩
      | cons d rest =>
        have hnone := hfirst early (d :: rest) hrest.symm (cons_ne_nil _ _)
        have hsame : (d :: rest) ++ c :: ("actions=".toList ++ found) = m := by
          rw [hplace, ← hrest, append_assoc] at hm
          exact append_cancel_left hm
        rw [hsame, actions_here_spaced hhere hnewline] at hnone
        cases hnone
  have hnofield := no_actions_field hrule hselection
  have hfound : actions = strip found := by
    rw [observed_actions, hrule.entered _ actions_not_integer, entered_actions, if_pos rfl] at hactions
    cases hlast : last_entry (field_entries (before.splitOn ',')) "actions".toList with
    | none =>
      rw [hlast, none_or] at hactions
      exact (FlowItem.text.inj (Option.some.inj hactions)).symm
    | some item =>
      rw [hlast, some_or] at hactions
      obtain ⟨field, hfield, hentry⟩ := mem_filterMap.mp (last_entry_mem hlast)
      rw [Option.some.inj hactions] at hentry
      exact absurd hentry (hnofield field hfield _)
  have hsplit : rest ++ (" actions=".toList ++ actions) = c :: ("actions=".toList ++ found) := by
    rw [hplace, hmactions, append_assoc] at hm
    exact (append_cancel_left hm).symm
  cases rest with
  | nil =>
    have hsame : actions = found := append_cancel_left (List.cons.inj hsplit).2
    rw [append_nil] at hselection
    refine ⟨before, found, hsearch, ?_, ?_, ?_⟩
    · rw [hplace, ← hsplit, hsame]
      rfl
    · rw [← hfound, hsame]
    · exact selections_agree_iff.mp ((observed_selection_iff hrule).mp hselection)
  | cons d rest =>
    -- a later split leaves out the actions that were found first
    have htail : rest ++ (" actions=".toList ++ actions) = "actions=".toList ++ found := (List.cons.inj hsplit).2
    have hcount := congrArg (List.count '=') htail
    have hstrip := count_strip (show is_space '=' = false by decide) found
    rw [← hfound] at hstrip
    rw [count_append, count_append, count_append, hstrip] at hcount
    have hone : List.count '=' " actions=".toList = 1 := by decide
    have hone' : List.count '=' "actions=".toList = 1 := by decide
    have hzero : '=' ∉ rest := count_eq_zero.mp (by omega)
    have hcut := congrArg (cut '=') htail
    rw [show " actions=".toList ++ actions = " actions".toList ++ '=' :: actions from rfl,
      show "actions=".toList ++ found = "actions".toList ++ '=' :: found from rfl, ← append_assoc,
      cut_append, cut_append (by decide)] at hcut
    · have hlength := congrArg length (Prod.mk.inj hcut).1
      rw [length_append] at hlength
      have height : (" actions".toList).length = 8 := rfl
      have hseven : ("actions".toList).length = 7 := rfl
      omega
    · rw [mem_append, not_or]
      exact ⟨hzero, by decide⟩

end Line

/-- A record as it is dumped. -/
def dumped_line (timeout : String) : FlowText :=
  " cookie=0x7, duration=1.5s, ".toList ++ timeout.toList ++ "priority=5,ip,in_port=1 actions=drop".toList

theorem dumped_line_read (timeout : String) (h : (parse_flow_expression (dumped_line timeout)).toOption.join.isSome = true) :
    ∃ record, parse_flow_expression (dumped_line timeout) = .ok (some record) := by
  obtain ⟨record, hrecord⟩ := isSome_iff_exists.mp h
  rw [join_eq_some_iff, Except.toOption_some_iff] at hrecord
  exact ⟨record, hrecord⟩

/-- The parsers agree on a record without timeouts. -/
theorem parsers_agree_dumped : ∃ record, parse_flow_expression (dumped_line "") = .ok (some record) ∧
    ParsersAgree (dumped_line "") record := by
  obtain ⟨record, hrecord⟩ := dumped_line_read "" (by decide +kernel)
  have hfields : ∀ field ∈ "cookie=0x7, duration=1.5s, priority=5,ip,in_port=1".toList.splitOn ',',
      strip (cut '=' (strip field)).1 = (cut '=' (strip field)).1 ∧
        (cut '=' (strip field)).1 ∉ ["actions".toList, "idle_timeout".toList, "hard_timeout".toList] ∧
        strip field ∉ metadata_names ∧ ∀ value ∈ (cut '=' (strip field)).2, strip value = value := by
    decide
  refine ⟨record, hrecord, (parsers_agree_iff (by decide) hrecord).mpr ⟨_, "drop".toList, by decide,
    by decide, by decide, fun field hfield name value hname hstrip => ?_, fun field hfield => (hfields field hfield).2.2.1,
    fun before field after hsplit name value hname hstrip _ _ _ => ?_⟩⟩
  · obtain ⟨hstripped, hlisted, -, -⟩ := hfields field hfield
    rw [hstrip, assigned, cut_append hname] at hstripped hlisted
    exact ⟨hstripped, hlisted⟩
  · have hvalue := (hfields field (hsplit ▸ mem_append_right _ mem_cons_self)).2.2.2 value
    rw [hstrip, assigned, cut_append hname] at hvalue
    exact hvalue rfl

/-- A timeout is a part of the match for the observations alone. -/
theorem parsers_disagree_timeout : ∃ record, parse_flow_expression (dumped_line "idle_timeout=60, ") = .ok (some record) ∧
    ¬ ParsersAgree (dumped_line "idle_timeout=60, ") record := by
  obtain ⟨record, hrecord⟩ := dumped_line_read "idle_timeout=60, " (by decide +kernel)
  refine ⟨record, hrecord, ?_⟩
  rintro ⟨flow, hobserved, hselection, -⟩
  have hentered : (parse_observed_flow (dumped_line "idle_timeout=60, ")).toOption.join.any
      (fun observed => (observed.selection.lookup "idle_timeout".toList).isSome) = true := by decide +kernel
  rw [hobserved] at hentered
  have hsome : (flow.selection.lookup "idle_timeout".toList).isSome = true := hentered
  rw [hselection, lookup_match_of, if_pos (by decide)] at hsome
  cases hsome

end MininetAi
