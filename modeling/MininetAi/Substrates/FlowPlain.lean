/-
A flow that is read back is plain.

What the parser finds is compared with what was written: the actions that are found and those
that were given have as many commas and as many characters as the places leave them, so the
match stands where the actions were written, and no earlier. Then each field in front of the
actions is the field of one item, and it was read as that item.
-/
import MininetAi.Substrates.FlowRoundTrip

set_option autoImplicit false

namespace MininetAi

open List Text AList

/-! ## The start of joined fields -/

variable {fields : List FlowText}

/-- What the start of joined fields is split into starts these fields. -/
theorem splitOn_start (hne : fields ≠ []) (hcomma : ∀ field ∈ fields, ',' ∉ field)
    {start : FlowText} (h : start <+: joined fields) :
    ∀ part ∈ start.splitOn ',', ∃ field ∈ fields, part <+: field := by
  have hsingle : ∀ {field : FlowText} {fields : List FlowText} {start : FlowText}, ',' ∉ field → start <+: field →
      ∀ part ∈ start.splitOn ',', ∃ f ∈ field :: fields, part <+: f := by
    intro field fields start hfield hstart part hpart
    have hnone : ',' ∉ start := fun hmem => hfield (hstart.subset hmem)
    rw [splitOn_eq_singleton hnone] at hpart
    exact ⟨field, mem_cons_self, mem_singleton.mp hpart ▸ hstart⟩
  induction fields generalizing start with
  | nil => exact absurd rfl hne
  | cons field fields ih =>
    obtain ⟨hfield, hfields⟩ := forall_mem_cons.mp hcomma
    by_cases hlast : fields = []
    · rw [hlast, joined_singleton] at h
      exact hsingle hfield h
    · rw [joined_cons hlast] at h
      rcases List.prefix_or_prefix_of_prefix h (prefix_append field (',' :: joined fields)) with hshort | hlong
      · exact hsingle hfield hshort
      · -- the start goes past the first field, or ends with it
        obtain ⟨rest, rfl⟩ := hlong
        rw [prefix_append_right_inj] at h
        cases rest with
        | nil =>
          rw [append_nil]
          exact hsingle hfield (prefix_refl field)
        | cons c rest =>
          obtain ⟨rfl, hrest⟩ := cons_prefix_cons.mp h
          intro part hpart
          rw [splitOn_append_cons_self_of_not_mem hfield] at hpart
          rcases mem_cons.mp hpart with rfl | hpart
          · exact ⟨part, mem_cons_self, prefix_refl part⟩
          · obtain ⟨other, hother, hstart⟩ := ih hlast hfields hrest part hpart
            exact ⟨other, mem_cons_of_mem _ hother, hstart⟩

theorem not_mem_joined {c : Char} (hc : c ≠ ',') (h : ∀ field ∈ fields, c ∉ field) :
    c ∉ joined fields := by
  induction fields with
  | nil => exact not_mem_nil
  | cons field fields ih =>
    obtain ⟨hfield, hfields⟩ := forall_mem_cons.mp h
    by_cases hlast : fields = []
    · rw [hlast, joined_singleton]
      exact hfield
    · rw [joined_cons hlast, mem_append, mem_cons, not_or, not_or]
      exact ⟨hfield, hc, ih hfields⟩

/-! ## Named fields -/

/-- A field with a name. -/
structure NamedField (name field : FlowText) : Prop where
  no_equals : '=' ∉ name
  stripped : strip name = name
  name_ne : name ≠ []
  field_eq : field = name ∨ ∃ value, field = assigned name value

theorem NamedField.head {name field : FlowText} (h : NamedField name field) :
    ∃ c t, field = c :: t ∧ is_space c = false := by
  obtain ⟨c, t, hname⟩ := exists_cons_of_ne_nil h.name_ne
  have hc := h.stripped
  rw [hname] at hc
  rcases h.field_eq with rfl | ⟨value, rfl⟩
  · exact ⟨c, t, hname, strip_head hc⟩
  · refine ⟨c, t ++ '=' :: value, ?_, strip_head hc⟩
    rw [assigned, hname, cons_append]

/-- What starts a field has no value but under the name of the field. -/
theorem NamedField.entry_name {name field part : FlowText} (h : NamedField name field) (hpart : part <+: field)
    {entered value : FlowText} (hentry : field_entry part = some (entered, .text value)) : entered = name := by
  obtain ⟨-, -, hflag | ⟨raw, hstrip, hname, -, -⟩⟩ := field_entry_some hentry
  · cases hflag.1
  have hpre := cut_fst_not_mem '=' (strip part)
  generalize (cut '=' (strip part)).1 = pre at hstrip hname hpre
  obtain ⟨b, b', hb, -, hdecompose⟩ := strip_decompose part
  obtain ⟨rest, hrest⟩ := hpart
  -- no blank starts the part, since none starts the field
  have hnone : b = [] := by
    cases b with
    | nil => rfl
    | cons c b =>
      obtain ⟨c', t, hfield, hspace⟩ := h.head
      rw [hdecompose, hfield] at hrest
      have hc : c = c' := (List.cons.inj hrest).1
      rw [← hc, hb c mem_cons_self] at hspace
      cases hspace
  have hfield : pre ++ '=' :: (raw ++ b' ++ rest) = field := by
    rw [← hrest, hdecompose, hnone, hstrip]
    simp only [append_assoc, cons_append, nil_append]
  rcases h.field_eq with hbare | ⟨given, hgiven⟩
  · refine absurd ?_ h.no_equals
    rw [← hbare, ← hfield]
    exact mem_append_right _ mem_cons_self
  · have hcut := congrArg (cut '=') (hfield.trans hgiven)
    unfold assigned at hcut
    rw [cut_append hpre, cut_append h.no_equals] at hcut
    have hpre_eq : pre = name := (Prod.ext_iff.mp hcut).1
    rw [hpre_eq, h.stripped] at hname
    exact hname

theorem SeparateItem.named {name : String} {value : MatchValue} (h : SeparateItem name value) (hname : name ≠ "") :
    NamedField name.toList (match_token name value) where
  no_equals := h.no_equals
  stripped := h.name_stripped
  name_ne hnil := hname (String.toList_eq_nil_iff.mp hnil)
  field_eq := by
    unfold match_token
    by_cases hvalue : value = .bool true
    · exact Or.inl (if_pos hvalue)
    · exact Or.inr ⟨value.text, if_neg hvalue⟩

theorem integer_names_named : ∀ name ∈ integer_names,
    '=' ∉ name ∧ strip name = name ∧ name ≠ [] ∧ name ≠ "actions".toList := by
  decide

section Written

variable {parameters : FlowParameters} {fields : Dict String MatchValue} {metadata : List FlowText}
  {actions expression : FlowText}

/-- The fields in front of the actions have names, and none is named as the actions are. -/
theorem named_head (h : WrittenFlow parameters fields metadata actions expression)
    (hmask : given_value parameters "cookieMask" = none)
    (hitems : ∀ entry ∈ fields.entries, SeparateItem entry.1 entry.2) :
    ∀ field ∈ metadata ++ item_tokens fields, ',' ∉ field ∧ '\n' ∉ field ∧
      ∃ name, NamedField name field ∧ name ≠ "actions".toList := by
  intro field hfield
  rcases mem_append.mp hfield with hmeta | hitem
  · obtain ⟨name, hname, value, n, rfl, hnumber⟩ := mem_metadata hmask h.metadata_written hmeta
    have hchars := number_field_chars hname hnumber
    obtain ⟨hequals, hstripped, hne, hactions⟩ := integer_names_named name hname
    exact ⟨fun hmem => (hchars ',' hmem).1 rfl, fun hmem => (hchars '\n' hmem).2.1 rfl, name,
      ⟨hequals, hstripped, hne, Or.inr ⟨value, rfl⟩⟩, hactions⟩
  · obtain ⟨entry, hentry, rfl⟩ := mem_item_tokens.mp hitem
    obtain ⟨hname, hvalid⟩ := h.items_valid entry hentry
    have hitem := hitems entry hentry
    exact ⟨hitem.no_comma, (flow_token_chars hvalid).2, entry.1.toList, hitem.named hname,
      fun heq => hitem.name_free (heq ▸ mem_cons_self)⟩

/-! ## What is found -/

/-- What the parser finds in an expression that is read as a flow. -/
structure FoundFlow (expression : FlowText) (flow : Flow) (before found : FlowText) (record : FlowRecord) : Prop where
  search_eq : search actions_here (strip expression) = some (before, found)
  rule : RuleOf (field_entries (before.splitOn ',')) found record
  flow_eq : read_flow record = flow

variable {flow : Flow} {parameters' : FlowParameters} {fields' : Dict String MatchValue}
  {name : String} {require_actions : Bool}

theorem ReadsBack.found (h : ReadsBack expression flow) :
    ∃ before found record, FoundFlow expression flow before found record := by
  obtain ⟨record, hparse, hflow⟩ := h
  obtain ⟨before, found, hsearch, hrule⟩ := parse_flow_expression_ok hparse
  exact ⟨before, found, record, hsearch, read_rule_ok hrule, hflow⟩

section Found

variable {flow : Flow} {before found : FlowText} {record : FlowRecord}

/-- The actions are those that are found, or the value of a field. -/
theorem FoundFlow.actions_read (h : FoundFlow expression flow before found record)
    (hactions : flow.actions = some (.text actions)) :
    (actions = strip found ∧ last_entry (field_entries (before.splitOn ',')) "actions".toList = none) ∨
      ∃ part ∈ before.splitOn ',', field_entry part = some ("actions".toList, .text actions) := by
  have hread : record.lookup "actions".toList = some (.text actions) := by
    rw [← hactions, ← h.flow_eq, read_flow]
  rw [h.rule.entered _ actions_not_integer, entered_actions, if_pos rfl] at hread
  cases hlast : last_entry (field_entries (before.splitOn ',')) "actions".toList with
  | none =>
    rw [hlast, Option.none_or] at hread
    exact Or.inl ⟨(FlowItem.text.inj (Option.some.inj hread)).symm, rfl⟩
  | some item =>
    rw [hlast, Option.some_or] at hread
    have hmem := last_entry_mem hlast
    rw [Option.some.inj hread] at hmem
    exact Or.inr (mem_filterMap.mp hmem)

section

variable (h : FoundFlow expression (given_flow parameters fields) before found record)
include h

/-- The items of the match that is read are separate. -/
theorem FoundFlow.separate : ∀ entry ∈ fields.entries, SeparateItem entry.1 entry.2 := by
  intro entry hentry
  have hmatch : match_of record = given_match fields := by
    rw [← show (given_flow parameters fields).selection = given_match fields from rfl, ← h.flow_eq, read_flow]
  have hlookup := lookup_given_match.mpr ⟨entry, hentry, rfl, rfl⟩
  rw [← hmatch] at hlookup
  have hfree : entry.1.toList ∉ metadata_names := by
    intro hmem
    rw [lookup_match_of, if_pos hmem] at hlookup
    cases hlookup
  rw [h.rule.lookup_match hfree] at hlookup
  obtain ⟨part, hpart, hread⟩ := mem_filterMap.mp (last_entry_mem hlookup)
  have hcomma : ',' ∉ part := not_mem_of_mem_splitOn hpart
  have hstripped : ',' ∉ strip part := fun hmem => hcomma (mem_of_mem_strip hmem)
  obtain ⟨hequals, hname, ⟨hflag, hpartname, -⟩ | ⟨raw, hraw, hpartname, htext, hcounter⟩⟩ := field_entry_some hread
  · simp only at hequals hname hflag hpartname
    have hvalue : entry.2 = .bool true := by
      by_contra hnot
      rw [match_item, if_neg hnot] at hflag
      cases hflag
    refine ⟨?_, hequals, hname, hfree, fun _ => hvalue, Or.inl hvalue⟩
    rw [match_token, if_pos hvalue, hpartname]
    exact hstripped
  · simp only at hequals hname htext hpartname hcounter
    have hvalue : entry.2 ≠ .bool true := by
      intro htrue
      rw [match_item, if_pos htrue] at htext
      cases htext
    rw [match_item, if_neg hvalue] at htext
    have hvaluetext := FlowItem.text.inj htext
    refine ⟨?_, hequals, hname, hfree, fun hmem => absurd hmem hcounter, Or.inr ?_⟩
    · rw [match_token, if_neg hvalue, assigned, hpartname, hvaluetext, mem_append, mem_cons, not_or, not_or]
      refine ⟨fun hmem => hstripped ?_, by decide, fun hmem => hstripped ?_⟩
      · rw [hraw]
        exact mem_append_left _ (mem_of_mem_strip hmem)
      · rw [hraw]
        exact mem_append_right _ (mem_cons_of_mem _ (mem_of_mem_strip hmem))
    · rw [hvaluetext, strip_strip]

theorem FoundFlow.unmasked : given_value parameters "cookieMask" = none := by
  have hmask := congrArg Flow.cookie_mask h.flow_eq
  simp only [read_flow, given_flow] at hmask
  exact Option.map_eq_none_iff.mp hmask.symm

end

/-- The value of a field is shorter than what stands before the actions. -/
theorem entry_length {part : FlowText} (hpart : part ∈ before.splitOn ',') {name value : FlowText}
    (hentry : field_entry part = some (name, .text value)) : value.length < before.length := by
  obtain ⟨-, -, hflag | ⟨raw, hraw, -, htext, -⟩⟩ := field_entry_some hentry
  · cases hflag.1
  have hvalue : value = strip raw := FlowItem.text.inj htext
  have hshort := (strip_sublist raw).length_le
  have hstrip := (strip_sublist part).length_le
  rw [hraw, length_append, length_cons] at hstrip
  obtain ⟨l, r, hbefore⟩ := mem_joined hpart
  have hjoined : joined (before.splitOn ',') = before := intercalate_splitOn ','
  rw [hjoined] at hbefore
  have hlength := congrArg length hbefore
  rw [length_append, length_append] at hlength
  rw [hvalue]
  omega

/-- The actions stand behind a field. -/
theorem FoundFlow.head_ne_nil (h : FoundFlow expression (given_flow parameters fields) before found record)
    (hwritten : WrittenFlow parameters fields metadata actions expression) : metadata ++ item_tokens fields ≠ [] := by
  intro hnil
  have hexpression : expression = "actions=".toList ++ actions := by
    rw [hwritten.expression_eq, ← append_assoc, hnil, nil_append, joined_singleton]
    rfl
  obtain ⟨c, hplace, -⟩ := search_place h.search_eq
  have hlength := (strip_sublist expression).length_le
  rw [hplace, hexpression, length_append, length_append, length_cons, length_append] at hlength
  -- what is found is shorter than what was given
  rcases h.actions_read hwritten.actions_given with ⟨hactions, -⟩ | ⟨part, hpart, hentry⟩
  · have hshort := (strip_sublist found).length_le
    rw [← hactions] at hshort
    omega
  · have hshort := entry_length hpart hentry
    omega

/-- An expression is stripped at the end of its actions. -/
theorem WrittenFlow.strip_expression (h : WrittenFlow parameters fields metadata actions expression)
    (hne : metadata ++ item_tokens fields ≠ [])
    (hhead : ∀ field ∈ metadata ++ item_tokens fields, ∃ c t, field = c :: t ∧ is_space c = false) :
    strip expression = joined (metadata ++ item_tokens fields) ++
      ',' :: ("actions=".toList ++ actions.rdropWhile is_space) := by
  have hfirst : ∃ c t, joined (metadata ++ item_tokens fields) ++ ",actions=".toList = c :: t ∧ is_space c = false := by
    cases heq : joined (metadata ++ item_tokens fields) ++ ",actions=".toList with
    | nil => exact absurd (append_eq_nil_iff.mp heq).2 (by decide)
    | cons c t => exact ⟨c, t, rfl, expression_start hne _ hhead c t heq⟩
  have hlast : ∃ t c, joined (metadata ++ item_tokens fields) ++ ",actions=".toList = t ++ [c] ∧ is_space c = false :=
    ⟨joined (metadata ++ item_tokens fields) ++ ",actions".toList, '=', by rw [append_assoc]; rfl, by decide⟩
  have hstrip := strip_append hfirst hlast actions
  rw [append_assoc] at hstrip
  rw [h.expression_split hne]
  rw [show ',' :: ("actions=".toList ++ actions) = ",actions=".toList ++ actions from rfl, hstrip, append_assoc]
  rfl

/-- The actions are found where they were written. -/
theorem FoundFlow.before_eq (h : FoundFlow expression (given_flow parameters fields) before found record)
    (hwritten : WrittenFlow parameters fields metadata actions expression) :
    before = joined (metadata ++ item_tokens fields) ∧ found = actions.rdropWhile is_space := by
  have hhead := named_head hwritten h.unmasked h.separate
  have hne := h.head_ne_nil hwritten
  have hstart : ∀ field ∈ metadata ++ item_tokens fields, ∃ c t, field = c :: t ∧ is_space c = false := by
    intro field hfield
    obtain ⟨-, -, name, hnamed, -⟩ := hhead field hfield
    exact hnamed.head
  have hstrip := hwritten.strip_expression hne hstart
  have hcomma : ∀ field ∈ metadata ++ item_tokens fields, ',' ∉ field := fun field hfield => (hhead field hfield).1
  obtain ⟨c, hplace, hfirst⟩ := search_place h.search_eq
  have hcount := count_strip (show is_space ',' = false by decide) expression
  rw [hplace, hwritten.expression_split hne] at hcount
  rw [hplace] at hstrip
  have hnewline : '\n' ∉ actions.rdropWhile is_space := fun hmem =>
    (flow_token_chars hwritten.actions_valid).2 (( List.rdropWhile_prefix is_space actions).subset hmem)
  have hshort : before <+: joined (metadata ++ item_tokens fields) ++
      ',' :: ("actions=".toList ++ actions.rdropWhile is_space) := hstrip ▸ prefix_append _ _
  rcases List.prefix_or_prefix_of_prefix hshort (prefix_append _ _) with hearly | ⟨rest, hlate⟩
  · obtain ⟨rest, hrest⟩ := id hearly
    cases rest with
    | nil =>
      rw [append_nil] at hrest
      rw [← hrest, append_cancel_left_eq] at hstrip
      exact ⟨hrest, append_cancel_left (List.cons.inj hstrip).2⟩
    | cons d rest =>
      -- no field before an early place is named as the actions are
      have hread : actions = strip found := by
        rcases h.actions_read hwritten.actions_given with ⟨hactions, -⟩ | ⟨part, hpart, hentry⟩
        · exact hactions
        · obtain ⟨field, hfield, hstarts⟩ := splitOn_start hne hcomma hearly part hpart
          obtain ⟨-, -, name, hnamed, hnot⟩ := hhead field hfield
          exact absurd (hnamed.entry_name hstarts hentry).symm hnot
      have hfound := count_strip (show is_space ',' = false by decide) found
      rw [← hread] at hfound
      rw [← hrest, append_assoc, append_cancel_left_eq, cons_append] at hstrip
      -- the commas between the two places are in what is found, but not in the actions
      rw [← hrest, (List.cons.inj hstrip).1] at hcount
      simp only [count_append, count_cons, beq_self_eq_true, if_true] at hcount
      omega
  · cases rest with
    | nil =>
      rw [append_nil] at hlate
      rw [hlate, append_cancel_left_eq] at hstrip
      exact ⟨hlate.symm, append_cancel_left (List.cons.inj hstrip).2⟩
    | cons d rest =>
      have hnone := hfirst _ _ hlate.symm (cons_ne_nil d rest)
      rw [← hlate, append_assoc, append_cancel_left_eq] at hstrip
      rw [hstrip, actions_here_of (Or.inl rfl) hnewline] at hnone
      cases hnone

/-- A flow that is read back is plain. -/
theorem WrittenFlow.plain_of_reads_back (h : WrittenFlow parameters fields metadata actions expression)
    (hread : ReadsBack expression (given_flow parameters fields)) : PlainFlow parameters fields := by
  obtain ⟨before, found, record, hfound⟩ := hread.found
  have hmask := hfound.unmasked
  have hseparate := hfound.separate
  have hhead := named_head h hmask hseparate
  have hne := hfound.head_ne_nil h
  obtain ⟨hbefore, hactions⟩ := hfound.before_eq h
  obtain ⟨c, hplace, hfirst⟩ := search_place hfound.search_eq
  refine ⟨hmask, fun entry hentry => ⟨hseparate entry hentry, fun l b m htoken hblank hstart => ?_⟩, ?_, ?_⟩
  · -- a start of the actions in an item would have been found first
    have htokens : match_token entry.1 entry.2 ∈ metadata ++ item_tokens fields :=
      mem_append_right _ (mem_item_tokens.mpr ⟨entry, hentry, rfl⟩)
    obtain ⟨l', r, hjoined⟩ := mem_joined htokens
    obtain ⟨x, rfl⟩ := hstart
    rw [htoken] at hjoined
    have hbefore' : before = (l' ++ l) ++ (b :: ("actions=".toList ++ x) ++ r) := by
      rw [hbefore, hjoined]
      simp only [append_assoc]
    have hnone := hfirst _ _ hbefore' (cons_ne_nil _ _)
    have hnewline : '\n' ∉ strip expression := by
      intro hmem
      have hmem := mem_of_mem_strip hmem
      rw [h.expression_split hne, mem_append, mem_cons, mem_append] at hmem
      rcases hmem with hmem | hmem | hmem | hmem
      · exact not_mem_joined (by decide) (fun field hfield => (hhead field hfield).2.1) hmem
      · exact absurd hmem (by decide)
      · exact absurd hmem (by decide)
      · exact (flow_token_chars h.actions_valid).2 hmem
    rw [hplace, hbefore'] at hnewline
    simp only [cons_append, append_assoc] at hnone hnewline
    rw [actions_here_of (Or.inr hblank) fun hmem => hnewline ?_] at hnone
    · cases hnone
    · exact mem_append_right _ (mem_append_right _ (mem_cons_of_mem _ (mem_append_right _ hmem)))
  · intro text htext
    have hgiven := h.actions_given
    simp only [given_flow, htext, Option.some.injEq, FlowItem.text.injEq] at hgiven
    rw [hgiven]
    rcases hfound.actions_read h.actions_given with ⟨hstripped, -⟩ | ⟨part, hpart, hentry⟩
    · rw [hstripped, strip_strip]
    · rw [hbefore] at hpart
      obtain ⟨field, hfield, hstarts⟩ := splitOn_start hne (fun field hfield => (hhead field hfield).1)
        (prefix_refl _) part hpart
      obtain ⟨-, -, name, hnamed, hnot⟩ := hhead field hfield
      exact absurd (hnamed.entry_name hstarts hentry).symm hnot
  · by_cases hfields : fields.entries = []
    · refine Or.inr ((metadata_ne_nil hmask h.metadata_written).mp fun hmeta => hne ?_)
      have hitems : item_tokens fields = [] := by
        refine eq_nil_iff_forall_not_mem.mpr fun token htoken => ?_
        obtain ⟨entry, hentry, -⟩ := mem_item_tokens.mp htoken
        rw [hfields] at hentry
        exact absurd hentry not_mem_nil
      rw [hmeta, hitems, nil_append]
    · exact Or.inl hfields

end Found

/-! ## One text, one flow -/

/-- An expression is read back as one flow. -/
theorem ReadsBack.unique {flow' : Flow} (h : ReadsBack expression flow)
    (h' : ReadsBack expression flow') : flow = flow' := by
  obtain ⟨record, hparse, rfl⟩ := h
  obtain ⟨record', hparse', rfl⟩ := h'
  rw [hparse] at hparse'
  rw [Option.some.inj (Except.ok.inj hparse')]

/-- What has the expression of a plain flow is the same flow when it is plain itself. -/
theorem WrittenFlow.same_iff {metadata' : List FlowText} {actions' : FlowText}
    (h : WrittenFlow parameters fields metadata actions expression)
    (h' : WrittenFlow parameters' fields' metadata' actions' expression)
    (hplain : PlainFlow parameters fields) :
    given_flow parameters' fields' = given_flow parameters fields ↔ PlainFlow parameters' fields' := by
  constructor
  · intro hsame
    refine h'.plain_of_reads_back ?_
    rw [hsame]
    exact h.reads_back hplain
  · exact fun hplain' => (h'.reads_back hplain').unique (h.reads_back hplain)

/-! ## Flows without actions -/

/-- The parameters of a flow that is removed, with actions. -/
def with_actions (parameters : FlowParameters) : FlowParameters := parameters.insert "actions" (.str "drop")

theorem lookup_with_actions (parameters : FlowParameters) (h : name ≠ "actions") :
    (with_actions parameters).lookup name = parameters.lookup name := lookup_insert_ne h

theorem given_value_with_actions (parameters : FlowParameters) (h : name ≠ "actions") :
    given_value (with_actions parameters) name = given_value parameters name := by
  unfold given_value
  rw [lookup_with_actions parameters h]

theorem given_integer_with_actions (parameters : FlowParameters) (h : name ≠ "actions")
    (default : ℕ) :
    given_integer (with_actions parameters) name default = given_integer parameters name default := by
  unfold given_integer
  rw [given_value_with_actions parameters h]

theorem metadata_fields_with_actions (parameters : FlowParameters) :
    metadata_fields (with_actions parameters) = metadata_fields parameters := by
  have hinteger : ∀ {name : String} (field : String) (maximum : ℕ), name ≠ "actions" →
      integer_field (with_actions parameters) name field maximum = integer_field parameters name field maximum := by
    intro name field maximum hname
    unfold integer_field
    rw [lookup_with_actions parameters hname]
  have hcookie : cookie_field (with_actions parameters) = cookie_field parameters := by
    unfold cookie_field
    rw [given_value_with_actions parameters (by decide), given_value_with_actions parameters (by decide)]
  unfold metadata_fields
  rw [hcookie, hinteger _ _ (by decide), hinteger _ _ (by decide), hinteger _ _ (by decide), hinteger _ _ (by decide)]

/-- What the expression of a flow without actions is made of. -/
theorem flow_expression_bare (hmatch : parameters.lookup "match" = some (.obj fields))
    (h : flow_expression parameters false = .ok expression) : ∃ metadata, parameters.lookup "actions" = none ∧
      expression = joined (metadata ++ item_tokens fields) ∧
      WrittenFlow (with_actions parameters) fields metadata "drop".toList
        (joined (metadata ++ (item_tokens fields ++ [assigned "actions".toList "drop".toList]))) := by
  obtain ⟨parts, hparts, h⟩ := Except.bind_ok_iff.mp h
  unfold flow_fields at hparts
  by_cases hunknown : unknown_parameters parameters false ≠ []
  · rw [if_pos hunknown] at hparts
    cases hparts
  · have hactions : parameters.lookup "actions" = none := by
      refine lookup_eq_none.mpr fun hmem => hunknown (ne_nil_of_mem (a := "actions") ?_)
      exact mem_filter.mpr ⟨mem_keys.mp hmem, by decide⟩
    rw [if_neg hunknown, hmatch] at hparts
    obtain ⟨metadata, hmetadata, hparts⟩ := Except.bind_ok_iff.mp hparts
    obtain ⟨items, hitems, hparts⟩ := Except.bind_ok_iff.mp hparts
    obtain ⟨last, hlast, hparts⟩ := Except.bind_ok_iff.mp hparts
    obtain ⟨rfl, hall⟩ := item_fields_ok hitems
    have hnone : last = [] := (Except.ok.inj hlast).symm
    refine ⟨metadata, hactions, ?_, ?_, fun entry hentry => hall entry (mem_sorted_items.mpr hentry), ?_, by decide, rfl⟩
    · rw [← Except.ok.inj h, ← Except.ok.inj hparts, hnone, append_nil]
      rfl
    · rw [metadata_fields_with_actions, hmetadata]
    · simp only [given_flow, with_actions, lookup_insert]

theorem plain_with_actions (h : parameters.lookup "actions" = none) :
    PlainFlow (with_actions parameters) fields ↔ PlainFlow parameters fields := by
  have hmask : given_value (with_actions parameters) "cookieMask" = given_value parameters "cookieMask" :=
    given_value_with_actions parameters (by decide)
  have hpreceded : (∃ entry ∈ integer_parameters, given_value (with_actions parameters) entry.1 ≠ none) ↔
      ∃ entry ∈ integer_parameters, given_value parameters entry.1 ≠ none := by
    have hnames : ∀ entry ∈ integer_parameters, entry.1 ≠ "actions" := by decide
    refine exists_congr fun entry => and_congr_right fun hentry => ?_
    rw [given_value_with_actions parameters (hnames entry hentry)]
  constructor
  · intro hplain
    refine ⟨hmask ▸ hplain.unmasked, hplain.items, fun actions hactions => ?_, hplain.preceded.imp id hpreceded.mp⟩
    rw [h] at hactions
    cases hactions
  · intro hplain
    refine ⟨hmask.trans hplain.unmasked, hplain.items, fun actions hactions => ?_, hplain.preceded.imp id hpreceded.mpr⟩
    rw [with_actions, lookup_insert] at hactions
    cases hactions
    decide

theorem given_flow_with_actions (parameters : FlowParameters) (fields : Dict String MatchValue) :
    given_flow (with_actions parameters) fields =
      { given_flow parameters fields with actions := some (.text "drop".toList) } := by
  refine Flow.ext ?_ ?_ ?_ ?_ ?_ ?_ rfl ?_
  · exact given_integer_with_actions parameters (by decide) 0
  · simp only [given_flow]
    rw [given_value_with_actions parameters (by decide), given_integer_with_actions parameters (by decide)]
  · exact given_integer_with_actions parameters (by decide) 0
  · exact given_integer_with_actions parameters (by decide) 32768
  · exact given_integer_with_actions parameters (by decide) 0
  · exact given_integer_with_actions parameters (by decide) 0
  · simp only [given_flow, with_actions, lookup_insert]

/-- What a plain flow writes in front of its actions is no empty text. -/
theorem WrittenFlow.plain_head_ne (h : WrittenFlow parameters fields metadata actions expression)
    (hplain : PlainFlow parameters fields) : joined (metadata ++ item_tokens fields) ≠ [] := by
  obtain ⟨before, found, record, hfound⟩ := (h.reads_back hplain).found
  obtain ⟨field, others, heq⟩ := exists_cons_of_ne_nil (hfound.head_ne_nil h)
  have hmem : field ∈ metadata ++ item_tokens fields := heq ▸ mem_cons_self
  obtain ⟨-, -, name, hnamed, -⟩ := named_head h hplain.unmasked (fun entry hentry => (hplain.items entry hentry).toSeparateItem)
    field hmem
  obtain ⟨c, t, rfl, -⟩ := hnamed.head
  obtain ⟨rest, hrest⟩ := @joined_head (c :: t) others
  rw [heq, hrest]
  exact cons_ne_nil c (t ++ rest)

section

variable (hmatch : parameters.lookup "match" = some (.obj fields))
include hmatch

/-- A text without actions is no flow with actions, and with actions it is one flow. -/
theorem bare_same_iff (h : flow_expression parameters false = .ok expression)
    (hmatch' : parameters'.lookup "match" = some (.obj fields'))
    (h' : flow_expression parameters' false = .ok expression)
    (hplain : PlainFlow parameters fields) :
    given_flow parameters' fields' = given_flow parameters fields ↔ PlainFlow parameters' fields' := by
  obtain ⟨metadata, hactions, htext, hwritten⟩ := flow_expression_bare hmatch h
  obtain ⟨metadata', hactions', htext', hwritten'⟩ := flow_expression_bare hmatch' h'
  have hplain' := (plain_with_actions hactions).mpr hplain
  have hhead := hwritten.plain_head_ne hplain'
  have hne : metadata ++ item_tokens fields ≠ [] := fun hnil => hhead (by rw [hnil]; rfl)
  have hne' : metadata' ++ item_tokens fields' ≠ [] := by
    intro hnil
    rw [hnil] at htext'
    exact hhead (htext.symm.trans htext')
  have hsame : joined (metadata' ++ (item_tokens fields' ++ [assigned "actions".toList "drop".toList])) =
      joined (metadata ++ (item_tokens fields ++ [assigned "actions".toList "drop".toList])) := by
    rw [← append_assoc, ← append_assoc, joined_append hne (cons_ne_nil _ _),
      joined_append hne' (cons_ne_nil _ _), ← htext, ← htext']
  rw [hsame] at hwritten'
  have hiff := hwritten.same_iff hwritten' hplain'
  rw [plain_with_actions hactions'] at hiff
  rw [← hiff, given_flow_with_actions, given_flow_with_actions, Flow.ext_iff, Flow.ext_iff]
  have hbare : (given_flow parameters' fields').actions = (given_flow parameters fields).actions := by
    simp only [given_flow, hactions, hactions']
  simp only [hbare, and_true]

/-- What has the expression of a plain flow is the same flow when it is plain itself, with actions or
without. -/
theorem flow_expression_same_iff (h : flow_expression parameters require_actions = .ok expression)
    (hmatch' : parameters'.lookup "match" = some (.obj fields'))
    (h' : flow_expression parameters' require_actions = .ok expression)
    (hplain : PlainFlow parameters fields) :
    given_flow parameters' fields' = given_flow parameters fields ↔ PlainFlow parameters' fields' := by
  cases require_actions with
  | true =>
    obtain ⟨metadata, actions, hwritten⟩ := flow_expression_ok hmatch h
    obtain ⟨metadata', actions', hwritten'⟩ := flow_expression_ok hmatch' h'
    exact hwritten.same_iff hwritten' hplain
  | false => exact bare_same_iff hmatch h hmatch' h' hplain

/-- Actions are given exactly when they are required. -/
theorem given_actions_none (h : flow_expression parameters require_actions = .ok expression) :
    (given_flow parameters fields).actions = none ↔ require_actions = false := by
  cases require_actions with
  | false =>
    obtain ⟨-, hactions, -⟩ := flow_expression_bare hmatch h
    refine iff_of_true ?_ rfl
    simp only [given_flow, hactions]
  | true =>
    obtain ⟨metadata, actions, hwritten⟩ := flow_expression_ok hmatch h
    refine iff_of_false ?_ Bool.noConfusion
    rw [hwritten.actions_given]
    exact Option.some_ne_none _

end

/-- A rule that is read has actions. -/
theorem ReadsBack.actions_ne_none (h : ReadsBack expression flow) : flow.actions ≠ none := by
  obtain ⟨before, found, record, hfound⟩ := h.found
  intro hnone
  rw [← hfound.flow_eq, read_flow, hfound.rule.entered _ actions_not_integer, entered_actions, if_pos rfl,
    Option.or_eq_none_iff] at hnone
  cases hnone.2

end Written

/-- An expression of an accepted flow is read back as the flow exactly when it has actions and the
flow is plain. What else has the expression of a plain flow is the same flow exactly when it is
plain, too. -/
theorem flow_expression_recovered {parameters : FlowParameters} {fields : Dict String MatchValue} {require_actions : Bool}
    {expression : FlowText} (hmatch : parameters.lookup "match" = some (.obj fields))
    (h : flow_expression parameters require_actions = .ok expression) :
    (ReadsBack expression (given_flow parameters fields) ↔ require_actions = true ∧ PlainFlow parameters fields) ∧
      ∀ (parameters' : FlowParameters) (fields' : Dict String MatchValue) (require_actions' : Bool),
        parameters'.lookup "match" = some (.obj fields') →
        flow_expression parameters' require_actions' = .ok expression → PlainFlow parameters fields →
        (given_flow parameters' fields' = given_flow parameters fields ↔
          require_actions' = require_actions ∧ PlainFlow parameters' fields') := by
  refine ⟨⟨fun hread => ?_, ?_⟩, fun parameters' fields' require_actions' hmatch' h' hplain => ⟨fun hsame => ?_, ?_⟩⟩
  · have hrequire : require_actions = true := by
      by_contra hnot
      exact hread.actions_ne_none ((given_actions_none hmatch h).mpr (eq_false_of_ne_true hnot))
    rw [hrequire] at h
    obtain ⟨metadata, actions, hwritten⟩ := flow_expression_ok hmatch h
    exact ⟨hrequire, hwritten.plain_of_reads_back hread⟩
  · rintro ⟨hrequire, hplain⟩
    rw [hrequire] at h
    obtain ⟨metadata, actions, hwritten⟩ := flow_expression_ok hmatch h
    exact hwritten.reads_back hplain
  · have hfalse : require_actions' = false ↔ require_actions = false := by
      rw [← given_actions_none hmatch' h', hsame, given_actions_none hmatch h]
    have hrequire : require_actions' = require_actions := Bool.eq_iff_iff.mpr (by
      rw [← Bool.not_eq_false, ← Bool.not_eq_false, hfalse])
    rw [hrequire] at h'
    exact ⟨hrequire, (flow_expression_same_iff hmatch h hmatch' h' hplain).mp hsame⟩
  · rintro ⟨hrequire, hplain'⟩
    rw [hrequire] at h'
    exact (flow_expression_same_iff hmatch h hmatch' h' hplain).mpr hplain'

/-- The parameters of a flow that drops what matches. -/
def drop_flow (fields : Dict String MatchValue) : FlowParameters :=
  ((∅ : FlowParameters).insert "match" (.obj fields)).insert "actions" (.str "drop")

theorem drop_flow_actions {fields : Dict String MatchValue} {actions : String}
    (h : (drop_flow fields).lookup "actions" = some (.str actions)) : actions = "drop" := by
  rw [drop_flow, lookup_insert] at h
  exact (FlowParameter.str.inj (Option.some.inj h)).symm

/-- A flow with a plain match is read back. -/
theorem flow_expression_recovered_port : ReadsBack "in_port=1,actions=drop".toList
      (given_flow (drop_flow (singleton "in_port" (.int 1))) (singleton "in_port" (.int 1))) := by
  have hplain : PlainItem "in_port" (.int 1) := by
    refine ⟨⟨by decide, by decide, by decide, by decide, by decide, Or.inr (by decide)⟩, fun l c m htoken hblank _ => ?_⟩
    have hnone : ∀ c ∈ match_token "in_port" (.int 1), is_space c = false := forall_of_all (by decide)
    have hmem : c ∈ match_token "in_port" (.int 1) := htoken ▸ mem_append_right _ mem_cons_self
    rw [hnone c hmem] at hblank
    cases hblank
  refine (@flow_expression_recovered _ _ true _ rfl (by decide)).1.mpr ⟨rfl, rfl, fun entry hentry => ?_,
    fun actions hactions => ?_, Or.inl (cons_ne_nil _ _)⟩
  · rw [mem_singleton.mp hentry]
    exact hplain
  · rw [drop_flow_actions hactions]
    decide

/-- A value with a comma sets the priority, and what sets the priority and the match has the same
expression. -/
theorem flow_expression_injected :
    flow_expression (drop_flow (singleton "in_port" (.str "1,priority=5"))) true =
        .ok "in_port=1,priority=5,actions=drop".toList ∧
      ¬ ReadsBack "in_port=1,priority=5,actions=drop".toList
        (given_flow (drop_flow (singleton "in_port" (.str "1,priority=5")))
          (singleton "in_port" (.str "1,priority=5"))) ∧
      flow_expression (drop_flow ((singleton "in_port" (.str "1")).insert "priority" (.str "5"))) true =
        .ok "in_port=1,priority=5,actions=drop".toList ∧
      given_flow (drop_flow ((singleton "in_port" (.str "1")).insert "priority" (.str "5")))
          ((singleton "in_port" (.str "1")).insert "priority" (.str "5")) ≠
        given_flow (drop_flow (singleton "in_port" (.str "1,priority=5")))
          (singleton "in_port" (.str "1,priority=5")) := by
  have hencoded : flow_expression (drop_flow (singleton "in_port" (.str "1,priority=5"))) true =
      .ok "in_port=1,priority=5,actions=drop".toList := by decide
  refine ⟨hencoded, fun hread => ?_, by decide, by decide⟩
  obtain ⟨metadata, actions, hwritten⟩ := flow_expression_ok rfl hencoded
  have hitem := (hwritten.plain_of_reads_back hread).items ⟨"in_port", .str "1,priority=5"⟩ mem_cons_self
  have hcomma := hitem.no_comma
  revert hcomma
  decide

end MininetAi
