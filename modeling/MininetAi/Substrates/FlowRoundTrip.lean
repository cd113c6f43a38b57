/-
Reading back a flow that was written.

`_flow_expression` joins what is given without quoting it, so a flow is read back from its
expression exactly when the names and values of its match are plain: no separator, no blank
at the ends, no name that means something else. The argument looks at the dictionary that
the parser builds. Its names and values are always plain, so what is not plain cannot be in
it; and the actions that are found are longer than those that were given when they are
found too early.
-/
import MininetAi.Substrates.FlowFields

set_option autoImplicit false

namespace MininetAi

open List Except Text

/-! ## Flows -/

/-- What a flow is, apart from its text. -/
@[ext]
structure Flow where
  cookie : ℤ
  cookie_mask : Option ℤ
  table : ℤ
  priority : ℤ
  idle_timeout : ℤ
  hard_timeout : ℤ
  selection : FlowRecord
  actions : Option FlowItem
  deriving DecidableEq

def match_item (value : MatchValue) : FlowItem := if value = .bool true then .flag else .text value.text

/-- The match of an object. -/
def given_match (fields : Dict String MatchValue) : FlowRecord :=
  (fields.entries.map fun entry => (⟨entry.1.toList, match_item entry.2⟩ : Sigma fun _ : FlowText => FlowItem)).toFinmap

/-- The flow that parameters with a match object give. -/
def given_flow (parameters : FlowParameters) (fields : Dict String MatchValue) : Flow where
  cookie := given_integer parameters "cookie" 0
  cookie_mask := (given_value parameters "cookieMask").map fun _ => given_integer parameters "cookieMask" 0
  table := given_integer parameters "table" 0
  priority := given_integer parameters "priority" 32768
  idle_timeout := given_integer parameters "idleTimeout" 0
  hard_timeout := given_integer parameters "hardTimeout" 0
  selection := given_match fields
  actions := match parameters.lookup "actions" with
    | some (.str actions) => some (.text actions.toList)
    | none | some .null | some (.bool _) | some (.int _) | some .other | some (.obj _) => none

/-- The integer of a parsed rule. -/
def read_number (record : FlowRecord) (name : FlowText) : ℤ :=
  match record.lookup name with
  | some (.number n) => n
  | none | some .flag | some (.text _) => 0

/-- The flow of a parsed rule. -/
def read_flow (record : FlowRecord) : Flow where
  cookie := read_number record "cookie".toList
  cookie_mask := none
  table := read_number record "table".toList
  priority := read_number record "priority".toList
  idle_timeout := read_number record "idle_timeout".toList
  hard_timeout := read_number record "hard_timeout".toList
  selection := match_of record
  actions := record.lookup "actions".toList

/-- The expression of a flow is read back as the flow. -/
def ReadsBack (expression : FlowText) (flow : Flow) : Prop :=
  ∃ record, parse_flow_expression expression = .ok (some record) ∧ read_flow record = flow

/-- An item of a match whose field is read as the item. -/
structure SeparateItem (name : String) (value : MatchValue) : Prop where
  no_comma : ',' ∉ match_token name value
  no_equals : '=' ∉ name.toList
  name_stripped : strip name.toList = name.toList
  name_free : name.toList ∉ metadata_names
  no_counter : name.toList ∈ counter_names → value = .bool true
  value_stripped : value = .bool true ∨ strip value.text = value.text

/-- An item of a match whose field is also not taken for the actions. -/
structure PlainItem (name : String) (value : MatchValue) : Prop extends SeparateItem name value where
  no_blank_actions : ∀ l c m, match_token name value = l ++ c :: m → is_space c = true → ¬ "actions=".toList <+: m

/-- A flow whose expression says what it is. -/
structure PlainFlow (parameters : FlowParameters) (fields : Dict String MatchValue) : Prop where
  unmasked : given_value parameters "cookieMask" = none
  items : ∀ entry ∈ fields.entries, PlainItem entry.1 entry.2
  actions_stripped : ∀ actions, parameters.lookup "actions" = some (.str actions) →
    strip actions.toList = actions.toList
  preceded : fields.entries ≠ [] ∨ ∃ entry ∈ integer_parameters, given_value parameters entry.1 ≠ none

/-! ## Accepted parameters -/

theorem item_fields_ok {items : List (Sigma fun _ : String => MatchValue)} {fields : List FlowText}
    (h : item_fields items = .ok fields) :
    fields = items.map (fun item => match_token item.1 item.2) ∧
      ∀ item ∈ items, item.1 ≠ "" ∧ is_flow_token (match_token item.1 item.2) = true := by
  induction items generalizing fields with
  | nil =>
    rw [item_fields] at h
    exact ⟨(ok.inj h).symm, fun item hitem => absurd hitem not_mem_nil⟩
  | cons item items ih =>
    rw [item_fields] at h
    by_cases hname : item.1 = ""
    · rw [if_pos hname] at h
      cases h
    · rw [if_neg hname] at h
      obtain ⟨_, htoken, h⟩ := bind_ok_iff.mp h
      obtain ⟨rest, hrest, h⟩ := bind_ok_iff.mp h
      obtain ⟨hfields, hitems⟩ := ih hrest
      have hvalid : is_flow_token (match_token item.1 item.2) = true := by
        unfold require_flow_token at htoken
        by_contra hnot
        rw [if_neg hnot] at htoken
        cases htoken
      rw [← ok.inj h, hfields]
      exact ⟨rfl, forall_mem_cons.mpr ⟨⟨hname, hvalid⟩, hitems⟩⟩

variable {parameters : FlowParameters} {fields : Dict String MatchValue}

theorem flow_actions_ok {actions : FlowText} (h : flow_actions parameters = .ok actions) :
    ∃ text, parameters.lookup "actions" = some (.str text) ∧ actions = text.toList ∧ is_flow_token actions = true := by
  unfold flow_actions at h
  split at h
  · rename_i text htext
    by_cases hempty : text = ""
    · rw [if_pos hempty] at h
      cases h
    · rw [if_neg hempty] at h
      obtain ⟨_, htoken, h⟩ := bind_ok_iff.mp h
      unfold require_flow_token at htoken
      by_cases hvalid : is_flow_token text.toList = true
      · rw [← ok.inj h]
        exact ⟨text, htext, rfl, hvalid⟩
      · rw [if_neg hvalid] at htoken
        cases htoken
  all_goals cases h

/-- The fields of the items of a match. -/
def item_tokens (fields : Dict String MatchValue) : List FlowText :=
  (sorted_items fields).map fun item => match_token item.1 item.2

/-- What the expression of an accepted flow is made of. -/
structure WrittenFlow (parameters : FlowParameters) (fields : Dict String MatchValue) (metadata : List FlowText)
    (actions expression : FlowText) : Prop where
  metadata_written : metadata_fields parameters = .ok metadata
  items_valid : ∀ entry ∈ fields.entries, entry.1 ≠ "" ∧ is_flow_token (match_token entry.1 entry.2) = true
  actions_given : (given_flow parameters fields).actions = some (.text actions)
  actions_valid : is_flow_token actions = true
  expression_eq : expression = joined (metadata ++ (item_tokens fields ++ [assigned "actions".toList actions]))

theorem mem_sorted_items {entry : Sigma fun _ : String => MatchValue} :
    entry ∈ sorted_items fields ↔ entry ∈ fields.entries := mem_insertionSort _

theorem flow_expression_ok {expression : FlowText}
    (hmatch : parameters.lookup "match" = some (.obj fields))
    (h : flow_expression parameters true = .ok expression) :
    ∃ metadata actions, WrittenFlow parameters fields metadata actions expression := by
  obtain ⟨parts, hparts, h⟩ := bind_ok_iff.mp h
  unfold flow_fields at hparts
  by_cases hunknown : unknown_parameters parameters true ≠ []
  · rw [if_pos hunknown] at hparts
    cases hparts
  · rw [if_neg hunknown, hmatch] at hparts
    obtain ⟨metadata, hmetadata, hparts⟩ := bind_ok_iff.mp hparts
    obtain ⟨items, hitems, hparts⟩ := bind_ok_iff.mp hparts
    obtain ⟨last, hlast, hparts⟩ := bind_ok_iff.mp hparts
    obtain ⟨actions, hactions, hlast⟩ := bind_ok_iff.mp hlast
    obtain ⟨text, htext, rfl, hvalid⟩ := flow_actions_ok hactions
    obtain ⟨rfl, hall⟩ := item_fields_ok hitems
    refine ⟨metadata, text.toList, hmetadata, fun entry hentry => hall entry (mem_sorted_items.mpr hentry), ?_, hvalid, ?_⟩
    · simp only [given_flow, htext]
    · rw [← ok.inj h, ← ok.inj hparts, ← ok.inj hlast]
      rfl

/-- A token has no line feed. -/
theorem flow_token_chars {token : FlowText} (h : is_flow_token token = true) : token ≠ [] ∧ '\n' ∉ token := by
  simp only [is_flow_token, Bool.and_eq_true, decide_eq_true_eq, all_eq_true] at h
  exact ⟨h.1, fun hmem => (h.2 '\n' hmem).2 rfl⟩

/-! ## Plain flows are read back -/

theorem lookup_given_match {name : FlowText} {item : FlowItem} :
    (given_match fields).lookup name = some item ↔
      ∃ entry ∈ fields.entries, entry.1.toList = name ∧ match_item entry.2 = item := by
  have hkeys : (fields.entries.map fun entry =>
      (⟨entry.1.toList, match_item entry.2⟩ : Sigma fun _ : FlowText => FlowItem)).NodupKeys := by
    unfold NodupKeys keys
    rw [map_map]
    have hnodup := fields.nodupKeys
    unfold NodupKeys keys at hnodup
    have hinj := hnodup.map (f := String.toList) fun _ _ h => String.toList_injective h
    rw [map_map] at hinj
    exact hinj
  rw [given_match, Finmap.dlookup_list_toFinmap, ← Option.mem_def, mem_dlookup_iff hkeys, mem_map]
  constructor
  · rintro ⟨entry, hentry, heq⟩
    obtain ⟨hname, hitem⟩ := Sigma.mk.inj_iff.mp heq
    exact ⟨entry, hentry, hname, eq_of_heq hitem⟩
  · rintro ⟨entry, hentry, rfl, rfl⟩
    exact ⟨entry, hentry, rfl⟩

section Written

variable {parameters : FlowParameters} {fields : Dict String MatchValue} {metadata : List FlowText}
  {actions expression : FlowText}

theorem mem_item_tokens {token : FlowText} :
    token ∈ item_tokens fields ↔ ∃ entry ∈ fields.entries, match_token entry.1 entry.2 = token := by
  unfold item_tokens
  rw [mem_map]
  simp only [mem_sorted_items]

/-- What stands before the actions, when it is not nothing. -/
theorem WrittenFlow.expression_split (h : WrittenFlow parameters fields metadata actions expression)
    (hne : metadata ++ item_tokens fields ≠ []) :
    expression = joined (metadata ++ item_tokens fields) ++ ',' :: ("actions=".toList ++ actions) := by
  rw [h.expression_eq, ← append_assoc, joined_append hne (cons_ne_nil _ _), joined_singleton]
  rfl

theorem match_token_start {name : String} (value : MatchValue) : ∃ rest, match_token name value = name.toList ++ rest := by
  unfold match_token
  by_cases hvalue : value = .bool true
  · exact ⟨[], by rw [if_pos hvalue, append_nil]⟩
  · exact ⟨'=' :: value.text, by rw [if_neg hvalue]; rfl⟩

variable {value : MatchValue} {name : String}

/-- The field of a plain item is plain. -/
theorem PlainItem.field (h : PlainItem name value) :
    PlainField (match_token name value) where
  no_comma := h.no_comma
  no_actions hstart := by
    have hfree : name.toList ≠ "actions".toList := fun heq => h.name_free (heq ▸ mem_cons_self)
    unfold match_token at hstart
    by_cases hvalue : value = .bool true
    · rw [if_pos hvalue] at hstart
      exact h.no_equals (hstart.subset (by decide))
    · -- the name is what stands before the first `=`
      rw [if_neg hvalue] at hstart
      obtain ⟨rest, hrest⟩ := hstart
      have hcut := congrArg (cut '=') (show "actions".toList ++ '=' :: rest = name.toList ++ '=' :: value.text from hrest)
      rw [cut_append (by decide), cut_append h.no_equals] at hcut
      exact hfree (Prod.ext_iff.mp hcut).1.symm
  no_blank_actions := h.no_blank_actions

theorem SeparateItem.token_start (h : SeparateItem name value) (hname : name ≠ "") :
    ∃ c t, match_token name value = c :: t ∧ is_space c = false := by
  obtain ⟨rest, hrest⟩ := @match_token_start name value
  cases hchars : name.toList with
  | nil => exact absurd (String.toList_eq_nil_iff.mp hchars) hname
  | cons c t =>
    have hstripped := h.name_stripped
    rw [hchars] at hstripped
    refine ⟨c, t ++ rest, ?_, strip_head hstripped⟩
    rw [hrest, hchars, cons_append]

section

variable (hmask : given_value parameters "cookieMask" = none)
include hmask

section

variable (h : metadata_fields parameters = .ok metadata)
include h

theorem mem_metadata {field : FlowText} (hfield : field ∈ metadata) :
    ∃ name ∈ integer_names, ∃ value n, field = assigned name value ∧ NumberField name n value := by
  obtain ⟨parts, hparts, rfl⟩ := metadata_fields_parts hmask h
  obtain ⟨entry, hentry, value, n, hvalue⟩ := mem_parts hparts hfield
  exact ⟨entry.2.1, mem_map_of_mem (f := fun entry : String × FlowText × ℕ => entry.2.1) hentry, value, n, hvalue⟩

/-- The entries of the fields before the match. -/
theorem metadata_entries :
    (∀ entry ∈ integer_parameters, integer_entry (field_entries metadata) (entry.2.1, Nat.toDigits 10 entry.2.2) =
        some (given_integer parameters entry.1 entry.2.2)) ∧
      ∀ name, name ∉ integer_names → last_entry (field_entries metadata) name = none := by
  obtain ⟨parts, hparts, rfl⟩ := metadata_fields_parts hmask h
  exact integer_entry_parts hparts integer_names_nodup
    (fun entry hentry => mem_map_of_mem (f := fun entry : String × FlowText × ℕ => entry.2.1) hentry) (by decide)

/-- What is given stands before the match. -/
theorem metadata_ne_nil :
    metadata ≠ [] ↔ ∃ entry ∈ integer_parameters, given_value parameters entry.1 ≠ none := by
  obtain ⟨parts, hparts, rfl⟩ := metadata_fields_parts hmask h
  clear h
  generalize integer_parameters = params at hparts
  induction hparts with
  | nil => exact iff_of_false (fun hne => hne rfl) fun ⟨entry, hentry, _⟩ => absurd hentry not_mem_nil
  | @cons first part params parts hpart hparts ih =>
    rw [flatten_cons, exists_mem_cons_iff, ← ih]
    rcases hpart with ⟨hgiven, rfl⟩ | ⟨hgiven, value, rfl, -⟩
    · rw [nil_append]
      exact ⟨Or.inr, fun hor => hor.elim (fun hne => absurd hgiven hne) id⟩
    · exact iff_of_true (cons_ne_nil _ _) (Or.inl hgiven)

end

end

/-- What an item enters. -/
theorem SeparateItem.entry (h : SeparateItem name value) (hname : name ≠ "") :
    field_entry (match_token name value) = some (name.toList, match_item value) := by
  have hnil : name.toList ≠ [] := fun hnil => hname (String.toList_eq_nil_iff.mp hnil)
  unfold match_token match_item
  by_cases hvalue : value = .bool true
  · rw [if_pos hvalue, if_pos hvalue]
    exact field_entry_flag hnil h.name_stripped h.no_equals
  · rw [if_neg hvalue, if_neg hvalue]
    have htext := h.value_stripped.resolve_left hvalue
    refine field_entry_assigned h.no_equals (strip_eq_self (fun c t heq => ?_) fun t c heq => ?_) h.name_stripped
      htext fun hcounter => hvalue (h.no_counter hcounter)
    · obtain ⟨c', t', htoken, hspace⟩ := h.token_start hname
      rw [match_token, if_neg hvalue, heq] at htoken
      rw [(List.cons.inj htoken).1]
      exact hspace
    · rcases eq_nil_or_concat value.text with hempty | ⟨t', c', hlast⟩
      · rw [assigned, hempty] at heq
        have hc := (append_inj' heq rfl).2
        rw [← (List.cons.inj hc).1]
        rfl
      · rw [concat_eq_append] at hlast
        have htoken : assigned name.toList value.text = name.toList ++ '=' :: t' ++ [c'] := by
          rw [assigned, hlast, append_assoc, cons_append]
        have hc := (append_inj' (htoken.symm.trans heq) rfl).2
        rw [hlast] at htext
        rw [← (List.cons.inj hc).1]
        exact strip_last htext

/-- The entries of plain items are those of the match. -/
theorem last_entry_items (hvalid : ∀ entry ∈ fields.entries, entry.1 ≠ "" ∧ is_flow_token (match_token entry.1 entry.2) = true)
    (hplain : ∀ entry ∈ fields.entries, PlainItem entry.1 entry.2) (name : FlowText) :
    last_entry (field_entries (item_tokens fields)) name = (given_match fields).lookup name := by
  have hentries : field_entries (item_tokens fields) =
      (sorted_items fields).map fun entry => (entry.1.toList, match_item entry.2) := by
    unfold field_entries item_tokens
    rw [filterMap_map, ← filterMap_eq_map]
    refine filterMap_congr fun entry hentry => ?_
    have hmem := mem_sorted_items.mp hentry
    exact (hplain entry hmem).toSeparateItem.entry (hvalid entry hmem).1
  have hnodup : ((field_entries (item_tokens fields)).map Prod.fst).Nodup := by
    rw [hentries, map_map]
    have hkeys : ((sorted_items fields).map Sigma.fst).Nodup :=
      ((perm_insertionSort _ fields.entries).map _).nodup_iff.mpr fields.nodupKeys
    have hinj := hkeys.map (f := String.toList) fun _ _ h => String.toList_injective h
    rw [map_map] at hinj
    exact hinj
  have hmem : ∀ item, (name, item) ∈ field_entries (item_tokens fields) ↔
      (given_match fields).lookup name = some item := by
    intro item
    rw [lookup_given_match, hentries, mem_map]
    constructor
    · rintro ⟨entry, hentry, heq⟩
      obtain ⟨hname, hitem⟩ := Prod.ext_iff.mp heq
      exact ⟨entry, mem_sorted_items.mp hentry, hname, hitem⟩
    · rintro ⟨entry, hentry, rfl, rfl⟩
      exact ⟨entry, mem_sorted_items.mpr hentry, rfl⟩
  refine Option.ext fun item => ?_
  rw [← hmem]
  exact ⟨last_entry_mem, last_entry_of_nodup hnodup⟩

/-- What stands before the actions of a plain flow. -/
theorem plain_head (h : WrittenFlow parameters fields metadata actions expression)
    (hmask : given_value parameters "cookieMask" = none) (hitems : ∀ entry ∈ fields.entries, PlainItem entry.1 entry.2) :
    ∀ field ∈ metadata ++ item_tokens fields, PlainField field ∧ '\n' ∉ field ∧
      ∃ c t, field = c :: t ∧ is_space c = false := by
  intro field hfield
  rcases mem_append.mp hfield with hmeta | hitem
  · obtain ⟨name, hname, value, n, rfl, hnumber⟩ := mem_metadata hmask h.metadata_written hmeta
    have hchars := number_field_chars hname hnumber
    refine ⟨hnumber.plain hname, fun hmem => (hchars '\n' hmem).2.1 rfl, ?_⟩
    cases heq : assigned name value with
    | nil => exact absurd heq (append_ne_nil_of_right_ne_nil _ (cons_ne_nil _ _))
    | cons c t =>
      rw [heq] at hchars
      exact ⟨c, t, rfl, (hchars c mem_cons_self).2.2.2.1⟩
  · obtain ⟨entry, hentry, rfl⟩ := mem_item_tokens.mp hitem
    obtain ⟨hname, hvalid⟩ := h.items_valid entry hentry
    exact ⟨(hitems entry hentry).field, (flow_token_chars hvalid).2, (hitems entry hentry).toSeparateItem.token_start hname⟩

/-- An expression starts as its first field does. -/
theorem expression_start {first : List FlowText} (hne : first ≠ []) (rest : FlowText)
    (h : ∀ field ∈ first, ∃ c t, field = c :: t ∧ is_space c = false) :
    ∀ c t, joined first ++ rest = c :: t → is_space c = false := by
  intro c t heq
  cases first with
  | nil => exact absurd rfl hne
  | cons field first =>
    obtain ⟨c', t', rfl, hspace⟩ := h field mem_cons_self
    obtain ⟨others, hothers⟩ := @joined_head (c' :: t') first
    rw [hothers, append_assoc, cons_append] at heq
    rw [← (List.cons.inj heq).1]
    exact hspace

/-- The actions of a plain flow have no blank at their ends. -/
theorem PlainFlow.actions_eq (hplain : PlainFlow parameters fields)
    (h : WrittenFlow parameters fields metadata actions expression) : strip actions = actions := by
  have hgiven := h.actions_given
  unfold given_flow at hgiven
  simp only at hgiven
  split at hgiven
  · rename_i text htext
    rw [← FlowItem.text.inj (Option.some.inj hgiven)]
    exact hplain.actions_stripped text htext
  all_goals cases hgiven

/-- The expression of a plain flow is split as it was joined. -/
theorem WrittenFlow.parse_plain (h : WrittenFlow parameters fields metadata actions expression)
    (hplain : PlainFlow parameters fields) :
    parse_flow_expression expression = (read_rule (metadata ++ item_tokens fields) actions).map some := by
  have hmask := hplain.unmasked
  have hne : metadata ++ item_tokens fields ≠ [] := by
    rcases hplain.preceded with hfields | hgiven
    · obtain ⟨entry, hentry⟩ := exists_mem_of_ne_nil _ hfields
      exact append_ne_nil_of_right_ne_nil _ (ne_nil_of_mem (mem_item_tokens.mpr ⟨entry, hentry, rfl⟩))
    · exact append_ne_nil_of_left_ne_nil ((metadata_ne_nil hmask h.metadata_written).mpr hgiven) _
  have hhead := plain_head h hmask hplain.items
  obtain ⟨hactions, hnewline⟩ := flow_token_chars h.actions_valid
  have hstripped := hplain.actions_eq h
  have hsplit := h.expression_split hne
  have hstrip : strip expression = expression := by
    refine strip_eq_self (fun c t heq => ?_) fun t c heq => ?_
    · rw [hsplit] at heq
      exact expression_start hne _ (fun field hfield => (hhead field hfield).2.2) c t heq
    · obtain ⟨t', c', hlast⟩ := (eq_nil_or_concat actions).resolve_left hactions
      rw [concat_eq_append] at hlast
      rw [hsplit, hlast, ← append_assoc, ← cons_append, ← append_assoc] at heq
      have hc := (append_inj' heq rfl).2
      rw [hlast] at hstripped
      rw [← (List.cons.inj hc).1]
      exact strip_last hstripped
  have hsearch := search_joined hne (fun field hfield => (hhead field hfield).1) hnewline
  have hfields := splitOn_joined hne fun field hfield => (hhead field hfield).1.no_comma
  rw [parse_flow_expression, hstrip, hsplit, hsearch]
  simp only [hfields]

/-- The entries of a plain flow are those of the parameters and of the match. -/
theorem last_entry_plain (h : WrittenFlow parameters fields metadata actions expression)
    (hplain : PlainFlow parameters fields) (name : FlowText) :
    last_entry (field_entries (metadata ++ item_tokens fields)) name =
      ((given_match fields).lookup name).or (last_entry (field_entries metadata) name) := by
  rw [field_entries_append, last_entry_append, last_entry_items h.items_valid hplain.items]

theorem given_match_free (hitems : ∀ entry ∈ fields.entries, PlainItem entry.1 entry.2) {name : FlowText}
    (hname : name ∈ metadata_names) : (given_match fields).lookup name = none := by
  cases hlookup : (given_match fields).lookup name with
  | none => rfl
  | some item =>
    obtain ⟨entry, hentry, rfl, -⟩ := lookup_given_match.mp hlookup
    exact absurd hname (hitems entry hentry).name_free

theorem integer_entry_plain (h : WrittenFlow parameters fields metadata actions expression)
    (hplain : PlainFlow parameters fields) {entry : String × FlowText × ℕ} (hentry : entry ∈ integer_parameters) :
    integer_entry (field_entries (metadata ++ item_tokens fields)) (entry.2.1, Nat.toDigits 10 entry.2.2) =
      some (given_integer parameters entry.1 entry.2.2) := by
  have hname : entry.2.1 ∈ integer_names :=
    mem_map_of_mem (f := fun entry : String × FlowText × ℕ => entry.2.1) hentry
  rw [← (metadata_entries hplain.unmasked h.metadata_written).1 entry hentry]
  simp only [integer_entry, last_entry_plain h hplain, given_match_free hplain.items (mem_cons_of_mem _ hname),
    Option.none_or]

theorem RuleOf.read_flow_plain {record : FlowRecord}
    (hrule : RuleOf (field_entries (metadata ++ item_tokens fields)) actions record)
    (h : WrittenFlow parameters fields metadata actions expression) (hplain : PlainFlow parameters fields) :
    read_flow record = given_flow parameters fields := by
  have hothers := (metadata_entries hplain.unmasked h.metadata_written).2
  have hnumber : ∀ entry ∈ integer_parameters,
      read_number record entry.2.1 = given_integer parameters entry.1 entry.2.2 := by
    intro entry hentry
    have hmem : (entry.2.1, Nat.toDigits 10 entry.2.2) ∈ integer_defaults := by
      rw [← integer_parameters_defaults]
      exact mem_map_of_mem (f := fun entry : String × FlowText × ℕ => (entry.2.1, Nat.toDigits 10 entry.2.2)) hentry
    obtain ⟨n, hn, hlookup⟩ := hrule.integers _ hmem
    rw [integer_entry_plain h hplain hentry] at hn
    simp only [read_number, hlookup]
    exact (Option.some.inj hn).symm
  have hcookie := hnumber ("cookie", "cookie".toList, 0) (by decide)
  have htable := hnumber ("table", "table".toList, 0) (by decide)
  have hpriority := hnumber ("priority", "priority".toList, 32768) (by decide)
  have hidle := hnumber ("idleTimeout", "idle_timeout".toList, 0) (by decide)
  have hhard := hnumber ("hardTimeout", "hard_timeout".toList, 0) (by decide)
  refine Flow.ext hcookie ?_ htable hpriority hidle hhard (Finmap.ext_lookup fun name => ?_) ?_
  · simp only [read_flow, given_flow, hplain.unmasked, Option.map_none]
  · simp only [read_flow, given_flow]
    by_cases hname : name ∈ metadata_names
    · rw [lookup_match_of, if_pos hname, given_match_free hplain.items hname]
    · have hinteger : name ∉ integer_names := fun hmem => hname (mem_cons_of_mem _ hmem)
      rw [hrule.lookup_match hname, last_entry_plain h hplain, hothers name hinteger, Option.or_none]
  · rw [h.actions_given]
    simp only [read_flow]
    rw [hrule.entered _ actions_not_integer, last_entry_plain h hplain, given_match_free hplain.items mem_cons_self,
      hothers _ actions_not_integer, Option.none_or, Option.none_or, entered_actions, if_pos rfl, hplain.actions_eq h]

/-- A plain flow is read back. -/
theorem WrittenFlow.reads_back (h : WrittenFlow parameters fields metadata actions expression)
    (hplain : PlainFlow parameters fields) : ReadsBack expression (given_flow parameters fields) := by
  obtain ⟨record, hrecord⟩ := @read_rule_isOk (metadata ++ item_tokens fields) actions fun entry hmem => by
    rw [← integer_parameters_defaults] at hmem
    obtain ⟨param, hparam, rfl⟩ := mem_map.mp hmem
    rw [integer_entry_plain h hplain hparam]
    exact Option.some_ne_none _
  refine ⟨record, ?_, (read_rule_ok hrecord).read_flow_plain h hplain⟩
  rw [h.parse_plain hplain, hrecord]
  rfl

end Written

end MininetAi
