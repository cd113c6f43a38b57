/-
The fields that `_flow_expression` writes, as the parser sees them.

A field is plain when it has no comma and nothing in it looks like the start of the actions.
Fields in front of the actions are found and split as they were joined when all of them are
plain. The fields before the match always are: their values are numbers in hexadecimal or
decimal digits, which are read back as these numbers.
-/
import Mathlib.Tactic.NormNum
import MininetAi.Substrates.FlowReading

set_option autoImplicit false

namespace MininetAi

open List Text

/-! ## Joined fields -/

@[simp] theorem joined_singleton (field : FlowText) : joined [field] = field := intercalate_singleton

variable {fields part : List FlowText} {c : Char} {found : FlowText} {maximum : ℕ}
  {parameters : FlowParameters} {field : FlowText}

theorem joined_cons (h : fields ≠ []) (field : FlowText) :
    joined (field :: fields) = field ++ ',' :: joined fields := by
  rw [joined, intercalate_cons_of_ne_nil h, append_assoc, singleton_append]
  rfl

theorem joined_append {others : List FlowText} (h : fields ≠ []) (h' : others ≠ []) :
    joined (fields ++ others) = joined fields ++ ',' :: joined others := by
  induction fields with
  | nil => exact absurd rfl h
  | cons field fields ih =>
    cases fields with
    | nil =>
      rw [singleton_append, joined_cons h', joined_singleton]
    | cons next fields =>
      have hne := cons_ne_nil next fields
      rw [cons_append, joined_cons (append_ne_nil_of_left_ne_nil hne _), ih hne, joined_cons hne,
        append_assoc, cons_append]

theorem splitOn_joined (h : fields ≠ []) (hcomma : ∀ field ∈ fields, ',' ∉ field) :
    (joined fields).splitOn ',' = fields :=
  splitOn_intercalate ',' hcomma h

theorem joined_head {field : FlowText} {others : List FlowText} : ∃ rest, joined (field :: others) = field ++ rest := by
  cases others with
  | nil => exact ⟨[], by rw [joined_singleton, append_nil]⟩
  | cons other others => exact ⟨_, joined_cons (cons_ne_nil other others) field⟩

/-- A field is a part of the joined fields. -/
theorem mem_joined (h : field ∈ fields) : ∃ l r, joined fields = l ++ field ++ r := by
  obtain ⟨before, after, rfl⟩ := append_of_mem h
  obtain ⟨rest, hrest⟩ := @joined_head field after
  by_cases hbefore : before = []
  · exact ⟨[], rest, by rw [hbefore, nil_append, hrest, nil_append]⟩
  · refine ⟨joined before ++ [','], rest, ?_⟩
    rw [joined_append hbefore (cons_ne_nil _ _), hrest]
    simp only [append_assoc, cons_append, nil_append]

/-! ## Plain fields -/

/-- A field without a comma in which nothing looks like the start of the actions. -/
structure PlainField (field : FlowText) : Prop where
  no_comma : ',' ∉ field
  no_actions : ¬ "actions=".toList <+: field
  no_blank_actions : ∀ l c m, field = l ++ c :: m → is_space c = true → ¬ "actions=".toList <+: m

theorem actions_no_comma : ',' ∉ "actions=".toList := by decide

variable {s : FlowText} {default : ℕ} {params : List (String × FlowText × ℕ)}
  {parts : List (List FlowText)} {value : FlowParameter} {name : String} {n : ℤ}

theorem actions_here_some (h : actions_here (c :: s) = some found) :
    (c = ',' ∨ is_space c = true) ∧ '\n' ∉ found ∧ s = "actions=".toList ++ found := by
  rw [actions_here] at h
  by_cases hhere : (c = ',' ∨ is_space c = true) ∧ "actions=".toList <+: s ∧ '\n' ∉ s.drop 8
  · rw [if_pos hhere] at h
    obtain ⟨hsep, ⟨x, hx⟩, hnewline⟩ := hhere
    have hdrop : s.drop 8 = x := by
      rw [← hx]
      rfl
    rw [hdrop] at h hnewline
    rw [← Option.some.inj h]
    exact ⟨hsep, hnewline, hx.symm⟩
  · rw [if_neg hhere] at h
    cases h

theorem actions_here_of (hc : c = ',' ∨ is_space c = true) (hnewline : '\n' ∉ found) :
    actions_here (c :: ("actions=".toList ++ found)) = some found := by
  have hdrop : ("actions=".toList ++ found).drop 8 = found := rfl
  rw [actions_here, hdrop, if_pos ⟨hc, prefix_append _ _, hnewline⟩]

theorem actions_here_none (h : (c = ',' ∨ is_space c = true) → ¬ "actions=".toList <+: s) :
    actions_here (c :: s) = none := by
  rw [actions_here, if_neg]
  exact fun hhere => h hhere.1 hhere.2.1

/-- A text that is read as a rule is split where its actions start. -/
theorem parse_flow_expression_ok {expression : FlowText} {record : FlowRecord}
    (h : parse_flow_expression expression = .ok (some record)) :
    ∃ before found, Text.search actions_here (strip expression) = some (before, found) ∧
      read_rule (before.splitOn ',') found = .ok record := by
  rw [parse_flow_expression] at h
  cases hsearch : Text.search actions_here (strip expression) with
  | none =>
    rw [hsearch] at h
    cases h
  | some place =>
    rw [hsearch] at h
    cases hrule : read_rule (place.1.splitOn ',') place.2 with
    | error name =>
      simp only [hrule] at h
      cases h
    | ok read =>
      simp only [hrule] at h
      refine ⟨place.1, place.2, rfl, ?_⟩
      rw [hrule, Option.some.inj (Except.ok.inj h)]

/-- Where the actions are found: behind a comma or a blank, and no earlier. -/
theorem search_place {text before : FlowText}
    (h : Text.search actions_here text = some (before, found)) :
    ∃ c, text = before ++ c :: ("actions=".toList ++ found) ∧
      ∀ l₁ l₂, before = l₁ ++ l₂ → l₂ ≠ [] → actions_here (l₂ ++ c :: ("actions=".toList ++ found)) = none := by
  obtain ⟨m, hm, hne, hhere, hfirst⟩ := search_some h
  obtain ⟨c, s, rfl⟩ := exists_cons_of_ne_nil hne
  obtain ⟨-, -, rfl⟩ := actions_here_some hhere
  exact ⟨c, hm, hfirst⟩

/-- Nothing in a plain field is the start of the actions. -/
theorem PlainField.search (h : PlainField field) (rest : FlowText) :
    Text.search actions_here (field ++ ',' :: rest) =
      (Text.search actions_here (',' :: rest)).map fun found => (field ++ found.1, found.2) := by
  refine search_append fun l₁ l₂ hfield hne => ?_
  cases l₂ with
  | nil => exact absurd rfl hne
  | cons c m =>
    refine actions_here_none fun hsep hstart => ?_
    have hm := starts_before actions_no_comma hstart
    rcases hsep with rfl | hspace
    · exact h.no_comma (hfield ▸ mem_append_right _ mem_cons_self)
    · exact h.no_blank_actions l₁ c m hfield hspace hm

/-- The actions are found after plain fields. -/
theorem search_joined (hne : fields ≠ []) (hplain : ∀ field ∈ fields, PlainField field)
    {actions : FlowText} (hactions : '\n' ∉ actions) :
    Text.search actions_here (joined fields ++ ',' :: ("actions=".toList ++ actions)) = some (joined fields, actions) := by
  induction fields with
  | nil => exact absurd rfl hne
  | cons field fields ih =>
    obtain ⟨hfield, hfields⟩ := forall_mem_cons.mp hplain
    cases fields with
    | nil =>
      have hhere := search_cons_some (actions_here_of (Or.inl rfl) hactions)
      rw [joined_singleton, hfield.search, hhere, Option.map_some, append_nil]
    | cons next fields =>
      have hnext := (hfields next mem_cons_self).no_actions
      have hskip : actions_here (',' :: (joined (next :: fields) ++ ',' :: ("actions=".toList ++ actions))) = none := by
        refine actions_here_none fun _ hstart => hnext ?_
        have hbefore := starts_before actions_no_comma hstart
        cases fields with
        | nil =>
          rw [joined_singleton] at hbefore
          exact hbefore
        | cons other fields =>
          rw [joined_cons (cons_ne_nil _ _)] at hbefore
          exact starts_before actions_no_comma hbefore
      rw [joined_cons (cons_ne_nil _ _), append_assoc, cons_append, hfield.search,
        search_cons_none hskip, ih (cons_ne_nil _ _) hfields]
      rfl

/-! ## Numbers in fields -/

/-- A character of a number: no separator, no blank and no line break. -/
def is_number_char (c : Char) : Bool :=
  c ≠ ',' && c ≠ '=' && c ≠ '\n' && c ≠ '\r' && !Text.is_space c && !Text.is_line_break c

theorem is_number_char_digit : ∀ d < 16, is_number_char (Nat.digitChar d) = true := by decide

theorem number_chars_decimal (n : ℕ) : ∀ c ∈ Nat.toDigits 10 n, is_number_char c = true := by
  intro c hc
  obtain ⟨d, hd, rfl⟩ := digit_of_mem_toDigits (by omega) (by omega) c hc
  exact is_number_char_digit d (by omega)

theorem number_chars_hex (n : ℕ) : ∀ c ∈ hex_literal n, is_number_char c = true := by
  refine forall_mem_cons.mpr ⟨by decide, forall_mem_cons.mpr ⟨by decide, fun c hc => ?_⟩⟩
  obtain ⟨d, hd, rfl⟩ := digit_of_mem_toDigits (by omega) le_rfl c hc
  exact is_number_char_digit d hd

/-- The field of a number. -/
structure NumberField (name : FlowText) (n : ℤ) (value : FlowText) : Prop where
  chars : ∀ c ∈ value, is_number_char c = true
  read : int_literal value = some n

theorem integer_names_plain : ∀ name ∈ integer_names, (∀ c ∈ name, is_number_char c = true) ∧ name ∉ counter_names ∧
    ¬ "actions=".toList <+: name ∧ ¬ name <+: "actions=".toList := by
  have hall : ∀ name ∈ integer_names, name.all is_number_char = true ∧ name ∉ counter_names ∧
      ¬ "actions=".toList <+: name ∧ ¬ name <+: "actions=".toList := by decide
  intro name hname
  obtain ⟨hchars, hrest⟩ := hall name hname
  exact ⟨all_eq_true.mp hchars, hrest⟩

theorem number_field_chars {name value : FlowText} (hname : name ∈ integer_names) (h : NumberField name n value) :
    ∀ c ∈ assigned name value, c ≠ ',' ∧ c ≠ '\n' ∧ c ≠ '\r' ∧ is_space c = false ∧ is_line_break c = false := by
  have hchar : ∀ c, is_number_char c = true →
      c ≠ ',' ∧ c ≠ '\n' ∧ c ≠ '\r' ∧ is_space c = false ∧ is_line_break c = false := by
    intro c hc
    simp only [is_number_char, Bool.and_eq_true, decide_eq_true_eq, Bool.not_eq_true', ne_eq] at hc
    tauto
  intro c hc
  rcases mem_append.mp hc with hfirst | hrest
  · exact hchar c ((integer_names_plain name hname).1 c hfirst)
  rcases mem_cons.mp hrest with rfl | hvalue
  · decide
  · exact hchar c (h.chars c hvalue)

theorem NumberField.plain {name value : FlowText} (hname : name ∈ integer_names) (h : NumberField name n value) :
    PlainField (assigned name value) where
  no_comma hmem := (number_field_chars hname h ',' hmem).1 rfl
  no_actions hstart := by
    obtain ⟨-, -, hshort, hlong⟩ := integer_names_plain name hname
    rcases List.prefix_or_prefix_of_prefix hstart (prefix_append name ('=' :: value)) with hone | hother
    · exact hshort hone
    · exact hlong hother
  no_blank_actions l c m hfield hspace _ := by
    have hmem : c ∈ assigned name value := by
      rw [hfield]
      exact mem_append_right _ mem_cons_self
    have hfalse := (number_field_chars hname h c hmem).2.2.2.1
    rw [hspace] at hfalse
    cases hfalse

/-- The field of a number enters it. -/
theorem NumberField.entry {name value : FlowText} (hname : name ∈ integer_names) (h : NumberField name n value) :
    field_entry (assigned name value) = some (name, .text value) := by
  have hchars := number_field_chars hname h
  obtain ⟨hplain, hcounter, -, -⟩ := integer_names_plain name hname
  have hnospace : ∀ s : FlowText, (∀ c ∈ s, c ∈ assigned name value) → strip s = s := fun s hs =>
    strip_of_no_space fun c hc => (hchars c (hs c hc)).2.2.2.1
  refine field_entry_assigned (fun hmem => ?_) (hnospace _ fun c hc => hc) (hnospace _ fun c hc => ?_)
    (hnospace _ fun c hc => ?_) hcounter
  · have hequals := hplain '=' hmem
    revert hequals
    decide
  · exact mem_append_left _ hc
  · exact mem_append_right _ (mem_cons_of_mem _ hc)

/-! ## The fields before the match -/

/-- The integer that a parameter gives, or its default. -/
def given_integer (parameters : FlowParameters) (name : String) (default : ℕ) : ℤ :=
  match given_value parameters name with
  | some (.int n) => n
  | some (.str s) => (int_literal s.toList).getD default
  | none | some .null | some (.bool _) | some .other | some (.obj _) => default

/-- The parameters with an integer: the name, the field, and the default. -/
def integer_parameters : List (String × FlowText × ℕ) :=
  [("cookie", "cookie".toList, 0), ("table", "table".toList, 0), ("priority", "priority".toList, 32768),
    ("idleTimeout", "idle_timeout".toList, 0), ("hardTimeout", "hard_timeout".toList, 0)]

theorem integer_parameters_defaults :
    integer_parameters.map (fun entry => (entry.2.1, Nat.toDigits 10 entry.2.2)) = integer_defaults := by
  decide

theorem flow_integer_ok {n : ℕ} (h : flow_integer name value maximum = .ok n) :
    n ≤ maximum ∧ (value = .int n ∨ ∃ s, value = .str s ∧ int_literal s.toList = some (n : ℤ)) := by
  have hbounded : ∀ z : ℤ, bounded_integer name maximum z = .ok n → n ≤ maximum ∧ z = n := by
    intro z hz
    unfold bounded_integer at hz
    by_cases hin : 0 ≤ z ∧ z ≤ maximum
    · rw [if_pos hin] at hz
      have hn := Except.ok.inj hz
      omega
    · rw [if_neg hin] at hz
      cases hz
  cases value with
  | int z =>
    obtain ⟨hn, rfl⟩ := hbounded z h
    exact ⟨hn, Or.inl rfl⟩
  | str s =>
    simp only [flow_integer] at h
    cases hliteral : int_literal s.toList with
    | none =>
      rw [hliteral] at h
      cases h
    | some z =>
      rw [hliteral] at h
      obtain ⟨hn, rfl⟩ := hbounded z h
      exact ⟨hn, Or.inr ⟨s, rfl, hliteral⟩⟩
  | null | bool b | other | obj fields => cases h

/-- What is given as an integer is read as one. -/
theorem given_integer_of {n : ℕ}
    (hvalue : parameters.lookup name = some value) (h : flow_integer name value maximum = .ok n) :
    given_value parameters name = some value ∧ given_integer parameters name default = n := by
  obtain ⟨-, rfl | ⟨s, rfl, hliteral⟩⟩ := flow_integer_ok h
  · have hgiven : given_value parameters name = some (.int n) := by rw [given_value, hvalue]
    exact ⟨hgiven, by rw [given_integer, hgiven]⟩
  · have hgiven : given_value parameters name = some (.str s) := by rw [given_value, hvalue]
    exact ⟨hgiven, by simp only [given_integer, hgiven, hliteral, Option.getD_some]⟩

/-- The fields of a parameter: none, or that of its number. -/
def PartOf (parameters : FlowParameters) (entry : String × FlowText × ℕ) (part : List FlowText) : Prop :=
  (given_value parameters entry.1 = none ∧ part = []) ∨
    (given_value parameters entry.1 ≠ none ∧ ∃ value, part = [assigned entry.2.1 value] ∧
      NumberField entry.2.1 (given_integer parameters entry.1 entry.2.2) value)

theorem integer_field_part {parameter field : String} (hmaximum : maximum < 10 ^ 20)
    (h : integer_field parameters parameter field maximum = .ok part) :
    PartOf parameters (parameter, field.toList, default) part := by
  unfold integer_field at h
  cases hvalue : parameters.lookup parameter with
  | none =>
    rw [hvalue] at h
    refine Or.inl ⟨?_, (Except.ok.inj h).symm⟩
    simp only [given_value, hvalue]
  | some value =>
    rw [hvalue] at h
    obtain ⟨n, hn, h⟩ := Except.bind_ok_iff.mp h
    obtain ⟨hgiven, hinteger⟩ : given_value parameters parameter = some value ∧
        given_integer parameters parameter default = n := given_integer_of hvalue hn
    have hle := (flow_integer_ok hn).1
    refine Or.inr ⟨by rw [hgiven]; exact Option.some_ne_none value, Nat.toDigits 10 n, (Except.ok.inj h).symm, ?_⟩
    exact ⟨number_chars_decimal n, by rw [hinteger]; exact int_literal_decimal (by omega)⟩

theorem given_value_some
    (h : given_value parameters name = some value) : parameters.lookup name = some value := by
  unfold given_value at h
  split at h
  · cases h
  · cases h
  · rename_i found _ hfound
    rw [hfound, Option.some.inj h]

theorem cookie_field_part (hmask : given_value parameters "cookieMask" = none)
    (h : cookie_field parameters = .ok part) :
    PartOf parameters ("cookie", "cookie".toList, 0) part := by
  unfold cookie_field at h
  rw [hmask] at h
  cases hcookie : given_value parameters "cookie" with
  | none =>
    rw [hcookie] at h
    exact Or.inl ⟨hcookie, (Except.ok.inj h).symm⟩
  | some cookie =>
    rw [hcookie] at h
    obtain ⟨n, hn, h⟩ := Except.bind_ok_iff.mp h
    have hinteger : given_integer parameters "cookie" 0 = n := (given_integer_of (given_value_some hcookie) hn).2
    refine Or.inr ⟨by rw [hcookie]; exact Option.some_ne_none cookie, hex_literal n, (Except.ok.inj h).symm, ?_⟩
    exact ⟨number_chars_hex n, by rw [hinteger]; exact int_literal_hex n⟩

/-- The fields before the match are those of the parameters with an integer. -/
theorem metadata_fields_parts {metadata : List FlowText}
    (hmask : given_value parameters "cookieMask" = none)
    (h : metadata_fields parameters = .ok metadata) :
    ∃ parts, Forall₂ (PartOf parameters) integer_parameters parts ∧ parts.flatten = metadata := by
  unfold metadata_fields at h
  obtain ⟨cookie, hcookie, h⟩ := Except.bind_ok_iff.mp h
  obtain ⟨table, htable, h⟩ := Except.bind_ok_iff.mp h
  obtain ⟨priority, hpriority, h⟩ := Except.bind_ok_iff.mp h
  obtain ⟨idle, hidle, h⟩ := Except.bind_ok_iff.mp h
  obtain ⟨hard, hhard, h⟩ := Except.bind_ok_iff.mp h
  refine ⟨[cookie, table, priority, idle, hard], ?_, ?_⟩
  · refine .cons (cookie_field_part hmask hcookie) (.cons (integer_field_part (by norm_num) htable)
      (.cons (integer_field_part (by norm_num) hpriority) (.cons (integer_field_part (by norm_num) hidle)
        (.cons (integer_field_part (by norm_num) hhard) .nil))))
  · rw [← Except.ok.inj h]
    simp only [flatten_cons, flatten_nil, append_nil, append_assoc]

theorem last_entry_append (entries others : List (FlowText × FlowItem)) (name : FlowText) :
    last_entry (entries ++ others) name = (last_entry others name).or (last_entry entries name) := by
  unfold last_entry
  rw [reverse_append, lookup_append]

theorem field_entries_append (fields others : List FlowText) :
    field_entries (fields ++ others) = field_entries fields ++ field_entries others := filterMap_append

theorem PartOf.entries {entry : String × FlowText × ℕ} (h : PartOf parameters entry part)
    (hname : entry.2.1 ∈ integer_names) :
    (given_value parameters entry.1 = none ∧ field_entries part = []) ∨
      ∃ value, field_entries part = [(entry.2.1, .text value)] ∧
        int_literal value = some (given_integer parameters entry.1 entry.2.2) := by
  rcases h with ⟨hgiven, rfl⟩ | ⟨-, value, rfl, hnumber⟩
  · exact Or.inl ⟨hgiven, rfl⟩
  · refine Or.inr ⟨value, ?_, hnumber.read⟩
    rw [field_entries, filterMap_cons, hnumber.entry hname]
    rfl

/-- The integers of the fields before the match are those that are given, or the defaults. -/
theorem integer_entry_parts (h : Forall₂ (PartOf parameters) params parts)
    (hnodup : (params.map fun entry => entry.2.1).Nodup)
    (hnames : ∀ entry ∈ params, entry.2.1 ∈ integer_names)
    (hdefaults : ∀ entry ∈ params, entry.2.2 < 10 ^ 20) :
    (∀ entry ∈ params, integer_entry (field_entries parts.flatten) (entry.2.1, Nat.toDigits 10 entry.2.2) =
        some (given_integer parameters entry.1 entry.2.2)) ∧
      ∀ name, name ∉ params.map (fun entry => entry.2.1) → last_entry (field_entries parts.flatten) name = none := by
  induction h with
  | nil => exact ⟨fun entry hentry => absurd hentry not_mem_nil, fun _ _ => rfl⟩
  | @cons first part params parts hpart hparts ih =>
    obtain ⟨hfirst, hnodup⟩ := List.nodup_cons.mp hnodup
    obtain ⟨hname, hnames⟩ := forall_mem_cons.mp hnames
    obtain ⟨hdefault, hdefaults⟩ := forall_mem_cons.mp hdefaults
    obtain ⟨hintegers, hothers⟩ := ih hnodup hnames hdefaults
    have hhead : ∀ name, name ≠ first.2.1 → last_entry (field_entries part) name = none := by
      intro name hne
      rcases hpart.entries hname with ⟨-, hnone⟩ | ⟨value, hone, -⟩
      · rw [hnone]
        rfl
      · rw [hone, last_entry_cons, if_neg hne]
        rfl
    have hlast : ∀ name, last_entry (field_entries (part :: parts).flatten) name =
        (last_entry (field_entries parts.flatten) name).or (last_entry (field_entries part) name) := by
      intro name
      rw [flatten_cons, field_entries_append, last_entry_append]
    refine ⟨forall_mem_cons.mpr ⟨?_, fun entry hentry => ?_⟩, fun name hmem => ?_⟩
    · simp only [integer_entry, hlast, hothers _ hfirst, Option.none_or]
      rcases hpart.entries hname with ⟨hgiven, hnone⟩ | ⟨value, hone, hread⟩
      · rw [hnone, given_integer, hgiven]
        exact int_literal_decimal hdefault
      · rw [hone, last_entry_cons, if_pos rfl]
        exact hread
    · have hne : entry.2.1 ≠ first.2.1 := by
        intro heq
        have hmem := mem_map_of_mem (f := fun entry : String × FlowText × ℕ => entry.2.1) hentry
        simp only [heq] at hmem
        exact hfirst hmem
      have hentry' := hintegers entry hentry
      simp only [integer_entry, hlast, hhead _ hne, Option.or_none] at hentry' ⊢
      exact hentry'
    · rw [map_cons, mem_cons, not_or] at hmem
      rw [hlast, hothers name hmem.2, hhead name hmem.1]
      rfl

/-- A field before the match is that of a number. -/
theorem mem_parts (h : Forall₂ (PartOf parameters) params parts) (hfield : field ∈ parts.flatten) :
    ∃ entry ∈ params, ∃ value n, field = assigned entry.2.1 value ∧ NumberField entry.2.1 n value := by
  induction h with
  | nil => exact absurd hfield not_mem_nil
  | @cons first part params parts hpart hparts ih =>
    rw [flatten_cons, mem_append] at hfield
    rcases hfield with hhead | hrest
    · rcases hpart with ⟨-, rfl⟩ | ⟨-, value, rfl, hnumber⟩
      · exact absurd hhead not_mem_nil
      · exact ⟨first, mem_cons_self, value, _, mem_singleton.mp hhead, hnumber⟩
    · obtain ⟨entry, hentry, value, n, hvalue⟩ := ih hrest
      exact ⟨entry, mem_cons_of_mem _ hentry, value, n, hvalue⟩

end MininetAi
