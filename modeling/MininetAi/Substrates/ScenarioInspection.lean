/-
Inspection of a scenario's flows (`inspect_scenario_actions` of
`mininet_ai/substrates/mininet_ovs/actions.py`).

The steps of a bundle are compared with what the switches list, once each. A step is present when
one rule has its identity and equals it. So a bundle of which a first part is installed is read
back when each of these steps is parsed from its record as from its expression, and no two steps
of one switch have one identity.
-/
import MininetAi.Substrates.FlowDumps

set_option autoImplicit false

namespace MininetAi

open List Text

/-! ## The inspection -/

/-- What an inspection raises: an error of an action, or a value that is no integer. -/
inductive InspectionError where
  | action (error : ActionExecutionError)
  | value (message : String)

/-- An error of an action. -/
def inspecting {α : Type} : Except ActionExecutionError α → Except InspectionError α
  | .error error => .error (.action error)
  | .ok a => .ok a

/-- What `_parse_flow_dump` raises. -/
def dump_failure : Option FlowText → String
  | none => "flow record is missing its actions field"
  | some name => worded "invalid " [String.ofList name, " value"]

/-- The rules that a switch lists. -/
def read_rules (target : String) (output : FlowText) : Except InspectionError (List FlowRecord) :=
  match parse_flow_dump output with
  | .ok flows => .ok flows
  | .error error => .error (.action
      { code := "runtime.reconciliation.invalid-output"
        message := worded "could not parse scenario rule inspection for '" [target, "': ", dump_failure error]
        status := .failed })

/-- The dumps of the switches of steps, each read once. `require_switch` checks that a target is a
switch of the plan, and `dump` is what `ovs-ofctl dump-flows` prints of it. -/
def read_dumps (require_switch : String → Except ActionExecutionError Unit)
    (dump : String → Except ActionExecutionError FlowText) :
    List SubstrateRequest → Dict String (List FlowRecord) → Except InspectionError (Dict String (List FlowRecord))
  | [], dumps => .ok dumps
  | request :: requests, dumps =>
    if request.name ≠ "openflow.flow.install" then
      .error (.action
        { code := "runtime.reconciliation.unsupported"
          message := "scenario reconciliation only supports installed OpenFlow rules"
          status := .failed })
    else if request.target ∈ dumps then read_dumps require_switch dump requests dumps
    else do
      inspecting (require_switch request.target)
      let output ← inspecting (dump request.target)
      let flows ← read_rules request.target output
      read_dumps require_switch dump requests (dumps.insert request.target flows)

/-- The state of a step, from the rules with its identity. -/
def candidate_state (expected : FlowRecord) : List FlowRecord → String
  | [] => "missing"
  | [candidate] => if candidate = expected then "present" else "wrong"
  | _ :: _ :: _ => "conflicting"

/-- The state of a step among the rules of its switch. -/
def rule_state (flows : List FlowRecord) (expected : FlowRecord) : String :=
  candidate_state expected (flows.filter fun flow => same_rule_identity flow expected)

/-- The rule of an expression; the empty dictionary is a rule without names. -/
def parse_expected (expression : FlowText) : Except InspectionError FlowRecord :=
  match parse_flow_expression expression with
  | .ok rule => .ok (rule.getD ∅)
  | .error name => .error (.value (worded "invalid " [String.ofList name, " value"]))

/-- The rule of a step. -/
def expected_rule (request : SubstrateRequest) : Except InspectionError FlowRecord := do
  let expression ← inspecting (flow_expression request.parameters true)
  parse_expected expression

/-- The states of steps. -/
def rule_states (dumps : Dict String (List FlowRecord)) : List SubstrateRequest → Except InspectionError (List String)
  | [] => .ok []
  | request :: requests => do
      let expected ← expected_rule request
      match dumps.lookup request.target with
      | none => .error (.value request.target)
      | some flows =>
        let states ← rule_states dumps requests
        pure (rule_state flows expected :: states)

def inspect_scenario_actions (require_switch : String → Except ActionExecutionError Unit)
    (dump : String → Except ActionExecutionError FlowText) (expected : List SubstrateRequest) :
    Except InspectionError (List String) := do
  let dumps ← read_dumps require_switch dump expected ∅
  rule_states dumps expected

/-! ## The expressions of installed flows -/

/-- The expression of an installed flow has actions that are read. -/
theorem installed_reading {parameters : FlowParameters} {expression : FlowText}
    (h : flow_expression parameters true = .ok expression) (hline : OneLine expression) : reading expression ≠ none := by
  obtain ⟨-, selection, metadata, items, last, -, -, -, hlast, rfl⟩ := flow_expression_parts h
  obtain ⟨actions, -, hactions⟩ := Except.bind_ok_iff.mp hlast
  obtain rfl : [assigned "actions".toList actions] = last := Except.ok.inj hactions
  have hnewline := hline.no_newline
  by_cases hnil : metadata ++ items = []
  · rw [← append_assoc, hnil, nil_append, joined_singleton] at hnewline ⊢
    have hread := @reading_actions actions fun hmem => hnewline (mem_append_right _ (mem_cons_of_mem _ hmem))
    rw [show assigned "actions".toList actions = "actions=".toList ++ actions from rfl, hread]
    exact Option.some_ne_none _
  · rw [← append_assoc, joined_append hnil (cons_ne_nil _ _), joined_singleton] at hnewline ⊢
    have hactions : '\n' ∉ actions := fun hmem => hnewline (mem_append_right _ (mem_cons_of_mem _
      (mem_append_right _ (mem_cons_of_mem _ hmem))))
    have hsome := search_isSome (l := ',' :: joined (metadata ++ items)) (cons_ne_nil ',' _)
      (actions_here_of (Or.inl rfl) hactions)
    intro hnone
    rw [reading, Option.map_eq_none_iff] at hnone
    rw [show ',' :: (joined (metadata ++ items) ++ ',' :: assigned "actions".toList actions) =
      ',' :: joined (metadata ++ items) ++ ',' :: ("actions=".toList ++ actions) from rfl] at hnone
    rw [hnone] at hsome
    cases hsome

variable {text : FlowText} {rule : Option FlowRecord}

/-- A text that does not start with its actions is a rule. -/
theorem started_rule (hstart : ¬ "actions=".toList <+: strip text) (hline : OneLine text)
    (hread : reading text ≠ none) (h : parse_flow_expression text = .ok rule) :
    ∃ record, rule = some record := by
  rcases parse_of_reading hstart hline.no_newline with ⟨hnone, -⟩ | ⟨fields, actions, -, hparse⟩
  · exact absurd hnone hread
  · rw [hparse] at h
    cases hrule : read_rule fields actions with
    | error name =>
      rw [hrule] at h
      cases h
    | ok record =>
      rw [hrule] at h
      exact ⟨record, (Except.ok.inj h).symm⟩

/-- The actions of a text that starts with them are a part of the actions of its record. -/
theorem unstarted_actions {before found rest : FlowText}
    (hsearch : search actions_here (strip text) = some (before, found))
    (hstart : strip text = "actions=".toList ++ rest) {record : FlowRecord}
    (hrule : RuleOf (field_entries (before.splitOn ',')) found record) :
    record.lookup "actions".toList ≠ some (.text (strip rest)) := by
  obtain ⟨m, hm, hne, hhere, -⟩ := search_some hsearch
  obtain ⟨c, s, rfl⟩ := exists_cons_of_ne_nil hne
  obtain ⟨hsep, -, rfl⟩ := actions_here_some hhere
  -- no separator is in the start of the actions, so the first field has them
  obtain ⟨more, hmore⟩ : ∃ more, before = "actions=".toList ++ more := by
    have hone : "actions=".toList <+: strip text := ⟨rest, hstart.symm⟩
    have hother : before <+: strip text := ⟨_, hm.symm⟩
    rcases List.prefix_or_prefix_of_prefix hone hother with ⟨more, hmore⟩ | ⟨more, hmore⟩
    · exact ⟨more, hmore.symm⟩
    · cases more with
      | nil => exact ⟨[], by rw [append_nil] at hmore ⊢; exact hmore⟩
      | cons d more =>
        have hall : ∀ x ∈ "actions=".toList, x ≠ ',' ∧ is_space x = false := forall_of_all (by decide)
        have hsplit : before ++ c :: ("actions=".toList ++ found) = before ++ (d :: more ++ rest) := by
          rw [← hm, hstart, ← hmore, append_assoc]
        have hsame : c = d := (List.cons.inj (append_cancel_left hsplit)).1
        obtain ⟨hcomma, hspace⟩ := hall c (hmore ▸ mem_append_right _ (hsame ▸ mem_cons_self))
        rcases hsep with heq | hblank
        · exact absurd heq hcomma
        · rw [hblank] at hspace
          cases hspace
  have hfirst : ("actions=".toList).splitOn ',' = [] ++ ["actions=".toList] := by decide
  obtain ⟨value, others, hvalue⟩ := splitOn_append hfirst more
  have hfield : "actions=".toList ++ value ∈ before.splitOn ',' := by
    rw [hmore, hvalue]
    exact mem_append_right _ mem_cons_self
  have hentered : ∃ item, field_entry ("actions=".toList ++ value) = some ("actions".toList, item) := by
    have hstrip := strip_append (u := "actions=".toList) ⟨'a', _, rfl, by decide⟩ ⟨"actions".toList, '=', rfl, by decide⟩ value
    rw [show "actions=".toList ++ value.rdropWhile is_space = assigned "actions".toList (value.rdropWhile is_space)
      from rfl] at hstrip
    have hname : strip "actions".toList = "actions".toList := by decide
    refine ⟨.text (strip (value.rdropWhile is_space)), ?_⟩
    rw [field_entry_named (by decide) hstrip, hname, if_neg (by decide)]
  intro hactions
  rw [hrule.entered _ actions_not_integer, entered_actions, if_pos rfl] at hactions
  cases hlast : last_entry (field_entries (before.splitOn ',')) "actions".toList with
  | none =>
    obtain ⟨item, hitem⟩ := hentered
    exact last_entry_none.mp hlast item (mem_filterMap.mpr ⟨_, hfield, hitem⟩)
  | some item =>
    rw [hlast, Option.some_or] at hactions
    obtain ⟨part, hpart, hentry⟩ := mem_filterMap.mp (last_entry_mem hlast)
    rw [Option.some.inj hactions] at hentry
    obtain ⟨-, -, hflag | ⟨raw, hraw, -, htext, -⟩⟩ := field_entry_some hentry
    · cases hflag.1
    -- the value of a field has fewer `=` than what follows the first of them
    have hequals : is_space '=' = false := by decide
    have hvalue := congrArg (List.count '=') (FlowItem.text.inj htext)
    rw [count_strip hequals, count_strip hequals] at hvalue
    have hpartcount := count_strip hequals part
    rw [hraw, count_append, count_cons_self] at hpartcount
    obtain ⟨l, r, hbefore⟩ := mem_joined hpart
    have hjoined : joined (before.splitOn ',') = before := intercalate_splitOn ','
    rw [hjoined] at hbefore
    have hbeforecount := congrArg (List.count '=') hbefore
    rw [count_append, count_append] at hbeforecount
    have hwhole := congrArg (List.count '=') (hm.symm.trans hstart)
    have hone : List.count '=' "actions=".toList = 1 := by decide
    rw [count_append, count_cons, count_append, count_append, hone] at hwhole
    omega

/-- A text that starts with its actions has a record that is another rule. -/
theorem unstarted_rule (hline : OneLine text) (hstart : "actions=".toList <+: strip text) :
    ∃ record, parse_flow_expression (counted text) = .ok (some record) ∧
      ∀ rule, parse_flow_expression text = .ok rule → rule.getD ∅ ≠ record := by
  obtain ⟨rest, hrest⟩ := hstart
  have hcounted := counted_record hline
  have hnewline : '\n' ∉ strip text := fun hmem => hline.no_newline (mem_of_mem_strip hmem)
  have hreading : reading (counted text) = some ([], strip rest) := by
    rw [hcounted.listed.reading_eq hcounted.one_line.no_newline, ← reading_strip hline.no_newline, ← hrest]
    exact reading_actions fun hmem => hnewline (hrest ▸ mem_append_right _ hmem)
  rcases parse_of_reading hcounted.counters_first hcounted.one_line.no_newline with ⟨hnone, -⟩ | ⟨fields, actions, hread, hparse⟩
  · rw [hnone] at hreading
    cases hreading
  rw [hreading] at hread
  obtain ⟨hentries, hactions⟩ := Prod.mk.inj (Option.some.inj hread)
  obtain ⟨record, hrecord⟩ := @read_rule_isOk fields actions fun entry hentry => by
    have hdefault : ∀ entry ∈ integer_defaults, integer_entry [] entry ≠ none := by decide
    rw [← hentries]
    exact hdefault entry hentry
  have hlookup : record.lookup "actions".toList = some (.text (strip rest)) := by
    rw [(read_rule_ok hrecord).entered _ actions_not_integer, ← hentries, entered_actions, if_pos rfl, hactions]
    rfl
  refine ⟨record, by rw [hparse, hrecord]; rfl, fun rule hrule heq => ?_⟩
  cases rule with
  | none =>
    rw [← heq, Option.getD_none, Finmap.lookup_empty] at hlookup
    cases hlookup
  | some other =>
    obtain ⟨before, found, hsearch, hother⟩ := parse_flow_expression_ok hrule
    rw [← heq, Option.getD_some] at hlookup
    exact unstarted_actions hsearch hrest.symm (read_rule_ok hother) hlookup

/-! ## Steps of a bundle -/

/-- The expression of a step. -/
def expression_of (request : SubstrateRequest) : FlowText := (flow_expression request.parameters true).toOption.getD []

def rule_of_text (text : FlowText) : FlowRecord := (parse_flow_expression text).toOption.join.getD ∅

theorem rule_of_text_ok (h : parse_flow_expression text = .ok rule) :
    rule_of_text text = rule.getD ∅ := by
  rw [rule_of_text, h]
  rfl

/-- A step that is accepted for installation. -/
structure AcceptedStep (require_switch : String → Except ActionExecutionError Unit) (request : SubstrateRequest) : Prop where
  install : request.name = "openflow.flow.install"
  on_switch : require_switch request.target = .ok ()
  encoded : flow_expression request.parameters true = .ok (expression_of request)

/-- The expressions of the first steps on a switch. -/
def listed_steps (expected : List SubstrateRequest) (k : ℕ) (target : String) : List FlowText :=
  ((expected.take k).filter fun request => request.target = target).map expression_of

/-- A dump lists exactly some expressions, each on a line, in some order and below some heading. -/
def ListsExactly (expressions : List FlowText) (output : FlowText) : Prop :=
  ∃ heading listed lines, output = (heading ++ lines).flatMap (fun line => line ++ ['\n']) ∧
    (∀ line ∈ heading, OneLine line ∧ contains_text "cookie=" line = false ∧ contains_text "actions=" line = false) ∧
    listed.Perm expressions ∧ Forall₂ DumpRecord listed lines

/-- The first steps are read back as present, and the others as missing. -/
def ReadsBackAt (require_switch : String → Except ActionExecutionError Unit) (expected : List SubstrateRequest) (k : ℕ) : Prop :=
  ∀ dump : String → Except ActionExecutionError FlowText,
    (∀ request ∈ expected, ∃ output, dump request.target = .ok output ∧
      ListsExactly (listed_steps expected k request.target) output) →
    inspect_scenario_actions require_switch dump expected =
      .ok (replicate k "present" ++ replicate (expected.length - k) "missing")

/-- A bundle that is read back: each step is parsed; and of the steps up to the first that is no single
line, none starts with its actions or has the identity of a later step on its switch. -/
structure ReadableBundle (expected : List SubstrateRequest) : Prop where
  parsed : ∀ request ∈ expected, ∃ rule, parse_flow_expression (expression_of request) = .ok rule
  started : ∀ before request after, expected = before ++ request :: after →
    (∀ earlier ∈ before, OneLine (expression_of earlier)) → OneLine (expression_of request) →
    ¬ "actions=".toList <+: strip (expression_of request)
  distinct : ∀ before request after, expected = before ++ request :: after →
    (∀ earlier ∈ before, OneLine (expression_of earlier)) → OneLine (expression_of request) →
    ∀ later ∈ after, later.target = request.target →
      ¬ same_rule_identity (rule_of_text (expression_of request)) (rule_of_text (expression_of later))

/-! ## What an inspection returns -/

section Inspection

variable {require_switch : String → Except ActionExecutionError Unit}
  {dump : String → Except ActionExecutionError FlowText} {expected : List SubstrateRequest}

theorem expected_rule_ok {request : SubstrateRequest} {rule : Option FlowRecord}
    (haccepted : AcceptedStep require_switch request) (h : parse_flow_expression (expression_of request) = .ok rule) :
    expected_rule request = .ok (rule_of_text (expression_of request)) := by
  rw [expected_rule, haccepted.encoded, rule_of_text_ok h]
  show parse_expected (expression_of request) = _
  rw [parse_expected, h]

variable {flows : String → List FlowRecord} {dumps : Dict String (List FlowRecord)}

section

variable (haccepted : ∀ request ∈ expected, AcceptedStep require_switch request)
include haccepted

/-- Every switch of a step is read. -/
theorem read_dumps_ok
    (hdump : ∀ request ∈ expected, ∃ output, dump request.target = .ok output ∧ parse_flow_dump output = .ok (flows request.target))
    (dumps : Dict String (List FlowRecord))
    (hdumps : ∀ target read, dumps.lookup target = some read → read = flows target) :
    ∃ all, read_dumps require_switch dump expected dumps = .ok all ∧
      (∀ target read, dumps.lookup target = some read → all.lookup target = some read) ∧
      ∀ request ∈ expected, all.lookup request.target = some (flows request.target) := by
  induction expected generalizing dumps with
  | nil => exact ⟨dumps, rfl, fun _ _ h => h, fun request hrequest => absurd hrequest not_mem_nil⟩
  | cons request requests ih =>
    obtain ⟨hfirst, haccepted⟩ := forall_mem_cons.mp haccepted
    obtain ⟨⟨output, houtput, hflows⟩, hdump⟩ := forall_mem_cons.mp hdump
    rw [read_dumps, if_neg (not_not.mpr hfirst.install)]
    by_cases hmem : request.target ∈ dumps
    · rw [if_pos hmem]
      obtain ⟨all, hall, hkeep, hread⟩ := ih haccepted hdump dumps hdumps
      obtain ⟨read, hlookup⟩ := Option.isSome_iff_exists.mp (AList.lookup_isSome.mpr hmem)
      refine ⟨all, hall, hkeep, forall_mem_cons.mpr ⟨?_, hread⟩⟩
      rw [hkeep _ _ hlookup, hdumps _ _ hlookup]
    · rw [if_neg hmem, hfirst.on_switch, houtput]
      have hinsert : ∀ target read, (dumps.insert request.target (flows request.target)).lookup target = some read →
          read = flows target := by
        intro target read hlookup
        by_cases htarget : target = request.target
        · rw [htarget, AList.lookup_insert] at hlookup
          rw [htarget, ← Option.some.inj hlookup]
        · rw [AList.lookup_insert_ne htarget] at hlookup
          exact hdumps target read hlookup
      obtain ⟨all, hall, hkeep, hread⟩ := ih haccepted hdump _ hinsert
      refine ⟨all, ?_, fun target read hlookup => hkeep target read ?_, forall_mem_cons.mpr ⟨?_, hread⟩⟩
      · show (read_rules request.target output >>= fun flows =>
          read_dumps require_switch dump requests (dumps.insert request.target flows)) = _
        rw [read_rules, hflows]
        exact hall
      · rw [AList.lookup_insert_ne, hlookup]
        rintro rfl
        exact hmem (AList.lookup_isSome.mp (by rw [hlookup]; rfl))
      · exact hkeep _ _ (AList.lookup_insert _)

/-- The states of steps that are parsed. -/
theorem rule_states_ok
    (hparsed : ∀ request ∈ expected, ∃ rule, parse_flow_expression (expression_of request) = .ok rule)
    (hdumps : ∀ request ∈ expected, dumps.lookup request.target = some (flows request.target)) :
    rule_states dumps expected =
      .ok (expected.map fun request => rule_state (flows request.target) (rule_of_text (expression_of request))) := by
  induction expected with
  | nil => rfl
  | cons request requests ih =>
    obtain ⟨hfirst, haccepted⟩ := forall_mem_cons.mp haccepted
    obtain ⟨⟨rule, hrule⟩, hparsed⟩ := forall_mem_cons.mp hparsed
    obtain ⟨hlookup, hdumps⟩ := forall_mem_cons.mp hdumps
    rw [rule_states, expected_rule_ok hfirst hrule]
    simp only [hlookup, ih haccepted hparsed hdumps]
    rfl

/-- An inspection that returns has parsed every step. -/
theorem rule_states_parsed {states : List String} (h : rule_states dumps expected = .ok states) :
    ∀ request ∈ expected, ∃ rule, parse_flow_expression (expression_of request) = .ok rule := by
  induction expected generalizing states with
  | nil => exact fun request hrequest => absurd hrequest not_mem_nil
  | cons request requests ih =>
    obtain ⟨hfirst, haccepted⟩ := forall_mem_cons.mp haccepted
    rw [rule_states] at h
    obtain ⟨rule, hrule, h⟩ := Except.bind_ok_iff.mp h
    refine forall_mem_cons.mpr ⟨?_, ?_⟩
    · rw [expected_rule, hfirst.encoded] at hrule
      obtain ⟨text, htext, hrule⟩ := Except.bind_ok_iff.mp hrule
      obtain rfl : expression_of request = text := Except.ok.inj htext
      cases hparse : parse_flow_expression (expression_of request) with
      | ok found => exact ⟨found, rfl⟩
      | error name =>
        rw [parse_expected, hparse] at hrule
        cases hrule
    · cases hlookup : dumps.lookup request.target with
      | none =>
        rw [hlookup] at h
        cases h
      | some flows =>
        rw [hlookup] at h
        obtain ⟨rest, hrest, -⟩ := Except.bind_ok_iff.mp h
        exact ih haccepted hrest

end

/-- What an inspection returns, from the rules of the switches. -/
theorem inspect_ok {flows : String → List FlowRecord} (haccepted : ∀ request ∈ expected, AcceptedStep require_switch request)
    (hparsed : ∀ request ∈ expected, ∃ rule, parse_flow_expression (expression_of request) = .ok rule)
    (hdump : ∀ request ∈ expected, ∃ output, dump request.target = .ok output ∧ parse_flow_dump output = .ok (flows request.target)) :
    inspect_scenario_actions require_switch dump expected =
      .ok (expected.map fun request => rule_state (flows request.target) (rule_of_text (expression_of request))) := by
  obtain ⟨all, hall, -, hread⟩ := read_dumps_ok haccepted hdump ∅ fun target read h => by cases h
  rw [inspect_scenario_actions, hall]
  exact rule_states_ok haccepted hparsed hread

end Inspection

end MininetAi
