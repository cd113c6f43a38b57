/-
Reading back the installed first part of a bundle.

When a dump lists the first steps, its rules are the rules of these steps. So the state of a step
is known from the identities alone. The argument for a bundle that is read back goes through the
list of its steps; the other direction looks at the dump in which a step is the last that is
listed.
-/
import MininetAi.Substrates.ScenarioInspection

set_option autoImplicit false

namespace MininetAi

open List

/-! ## States -/

theorem same_rule_identity_symm {rule other : FlowRecord} (h : same_rule_identity rule other) :
    same_rule_identity other rule := by
  rcases h with ⟨hsome, hzero, hsame⟩ | hmatch
  · exact Or.inl ⟨hsame ▸ hsome, hsame ▸ hzero, hsame.symm⟩
  · exact Or.inr hmatch.symm

theorem same_rule_identity_self (rule : FlowRecord) : same_rule_identity rule rule := Or.inr rfl

variable {expected : FlowRecord} {line : FlowText}

variable {candidates flows : List FlowRecord} {expressions : List FlowText} {output : FlowText}

theorem candidate_state_missing_iff :
    candidate_state expected candidates = "missing" ↔ candidates = [] := by
  match candidates with
  | [] => exact iff_of_true rfl rfl
  | [candidate] =>
    refine iff_of_false ?_ (cons_ne_nil _ _)
    rw [candidate_state]
    by_cases hsame : candidate = expected
    · rw [if_pos hsame]
      decide
    · rw [if_neg hsame]
      decide
  | candidate :: other :: others =>
    refine iff_of_false ?_ (cons_ne_nil _ _)
    rw [candidate_state]
    decide

theorem candidate_state_present_iff :
    candidate_state expected candidates = "present" ↔ candidates = [expected] := by
  match candidates with
  | [] =>
    refine iff_of_false ?_ (cons_ne_nil _ _).symm
    rw [candidate_state]
    decide
  | [candidate] =>
    rw [candidate_state]
    by_cases hsame : candidate = expected
    · rw [if_pos hsame, hsame]
      exact iff_of_true rfl rfl
    · rw [if_neg hsame]
      exact iff_of_false (by decide) fun h => hsame (List.cons.inj h).1
  | candidate :: other :: others =>
    refine iff_of_false ?_ fun h => absurd (List.cons.inj h).2 (cons_ne_nil _ _)
    rw [candidate_state]
    decide

/-- A step is missing when no rule has its identity. -/
theorem rule_state_missing_iff :
    rule_state flows expected = "missing" ↔ ∀ flow ∈ flows, ¬ same_rule_identity flow expected := by
  rw [rule_state, candidate_state_missing_iff]
  simp only [filter_eq_nil_iff, decide_eq_true_eq]

/-- A step is present when one rule has its identity, and equals it. -/
theorem rule_state_present_iff :
    rule_state flows expected = "present" ↔ (flows.filter fun flow => same_rule_identity flow expected) = [expected] :=
  candidate_state_present_iff

/-! ## Listed rules -/

/-- Actions that are found are in the text. -/
theorem contains_found {before found : FlowText}
    (h : Text.search actions_here (Text.strip line) = some (before, found)) :
    contains_text "actions=" line = true := by
  obtain ⟨c, hplace, -⟩ := search_place h
  obtain ⟨b, b', -, -, hdecompose⟩ := Text.strip_decompose line
  refine decide_eq_true ⟨b ++ before ++ [c], found ++ b', ?_⟩
  rw [hdecompose, hplace]
  simp only [append_assoc, cons_append, nil_append]

theorem contains_actions {record : FlowRecord}
    (h : parse_flow_expression line = .ok (some record)) :
    contains_text "actions=" line = true := by
  obtain ⟨before, found, hsearch, -⟩ := parse_flow_expression_ok h
  exact contains_found hsearch

/-- A text without actions is no rule. -/
theorem parse_heading (h : contains_text "actions=" line = false) :
    parse_flow_expression line = .ok none := by
  rw [parse_flow_expression]
  cases hsearch : Text.search actions_here (Text.strip line) with
  | none => rfl
  | some place =>
    rw [contains_found hsearch] at h
    cases h

/-- The rules of a dump are those of its lines. -/
theorem parse_flow_dump_ok {heading lines : List FlowText} {records : List FlowRecord}
    (hheading : ∀ line ∈ heading, OneLine line ∧ contains_text "cookie=" line = false ∧ contains_text "actions=" line = false)
    (hlines : ∀ line ∈ lines, OneLine line)
    (hrecords : Forall₂ (fun line record => parse_flow_expression line = .ok (some record)) lines records) :
    parse_flow_dump ((heading ++ lines).flatMap fun line => line ++ ['\n']) = .ok records := by
  have hall : ∀ line ∈ heading ++ lines, OneLine line := by
    intro line hline
    rcases mem_append.mp hline with hfirst | hrest
    · exact (hheading line hfirst).1
    · exact hlines line hrest
  rw [parse_flow_dump, Text.split_lines_lines hall]
  clear hall
  induction heading with
  | nil =>
    rw [nil_append]
    clear hlines
    induction hrecords with
    | nil => rfl
    | @cons line record lines records hparse hrest ih =>
      rw [parse_flow_lines, if_neg fun h => by rw [contains_actions hparse] at h; exact Bool.noConfusion h.2, hparse]
      simp only [ih]
      rfl
  | cons line heading ih =>
    obtain ⟨⟨-, hcookie, hactions⟩, hheading⟩ := forall_mem_cons.mp hheading
    rw [cons_append, parse_flow_lines, if_neg fun h => by rw [hcookie] at h; exact Bool.noConfusion h.1,
      parse_heading hactions]
    simp only [ih hheading]
    rfl

/-- The rules that a dump lists are, in some order, those of its expressions. -/
theorem listed_rules (h : ListsExactly expressions output)
    (hrule : ∀ text ∈ expressions, ∀ line, DumpRecord text line →
      parse_flow_expression line = .ok (some (rule_of_text text))) :
    ∃ flows, parse_flow_dump output = .ok flows ∧ flows.Perm (expressions.map rule_of_text) := by
  obtain ⟨heading, listed, lines, rfl, hheading, hperm, hlines⟩ := h
  refine ⟨listed.map rule_of_text, parse_flow_dump_ok hheading ?_ ?_, hperm.map rule_of_text⟩
  · intro line hline
    obtain ⟨i, hi, rfl⟩ := mem_iff_getElem.mp hline
    have hrecord := (forall₂_iff_get.mp hlines).2 i (by rw [hlines.length_eq]; exact hi) hi
    exact hrecord.one_line
  · rw [forall₂_map_right_iff]
    refine Forall₂.flip ?_
    have hmem : ∀ text ∈ listed, text ∈ expressions := fun text htext => hperm.mem_iff.mp htext
    clear hperm
    induction hlines with
    | nil => exact Forall₂.nil
    | @cons text line listed lines hrecord hrest ih =>
      obtain ⟨hfirst, hmem⟩ := forall_mem_cons.mp hmem
      exact Forall₂.cons (hrule text hfirst line hrecord) (ih hmem)

/-! ## Bundles that are read back -/

section Bundle

variable {require_switch : String → Except ActionExecutionError Unit} {expected : List SubstrateRequest}

variable {request : SubstrateRequest} {k : ℕ}

/-- A record of a step that does not start with its actions is its rule. -/
theorem record_rule (haccepted : AcceptedStep require_switch request)
    (hparsed : ∃ rule, parse_flow_expression (expression_of request) = .ok rule)
    (hstart : ¬ "actions=".toList <+: Text.strip (expression_of request)) {line : FlowText}
    (hrecord : DumpRecord (expression_of request) line) :
    parse_flow_expression line = .ok (some (rule_of_text (expression_of request))) := by
  obtain ⟨rule, hrule⟩ := hparsed
  have hline := hrecord.text_one_line
  obtain ⟨record, rfl⟩ := started_rule hstart hline (installed_reading haccepted.encoded hline) hrule
  have hsame := hrecord.parse_eq hstart
  rw [hrule] at hsame
  rw [Except.toOption_some_iff.mp hsame, rule_of_text_ok hrule, Option.getD_some]

variable {text : FlowText} {before after : List SubstrateRequest}

theorem mem_listed_steps {target : String} : text ∈ listed_steps expected k target ↔
      ∃ request ∈ expected.take k, request.target = target ∧ expression_of request = text := by
  unfold listed_steps
  rw [mem_map]
  simp only [mem_filter, decide_eq_true_eq, and_assoc]

/-- The steps that a dump lists are single lines. -/
theorem listed_one_line
    (h : ListsExactly expressions output) (hmem : text ∈ expressions) : OneLine text := by
  obtain ⟨heading, listed, lines, -, -, hperm, hlines⟩ := h
  obtain ⟨i, hi, rfl⟩ := mem_iff_getElem.mp (hperm.mem_iff.mpr hmem)
  have hrecord := (forall₂_iff_get.mp hlines).2 i hi (by rw [← hlines.length_eq]; exact hi)
  exact hrecord.text_one_line

/-- A readable bundle is read back. -/
theorem ReadableBundle.reads_back (h : ReadableBundle expected)
    (haccepted : ∀ request ∈ expected, AcceptedStep require_switch request)
    (hk : k ≤ expected.length) : ReadsBackAt require_switch expected k := by
  intro dump hdump
  have hsplit := take_append_drop k expected
  have honeline : ∀ request ∈ expected.take k, OneLine (expression_of request) := by
    intro request hrequest
    obtain ⟨output, -, hlists⟩ := hdump request (mem_of_mem_take hrequest)
    exact listed_one_line hlists (mem_listed_steps.mpr ⟨request, hrequest, rfl, rfl⟩)
  -- what is said of a step holds of each of the first steps, with those before and behind it
  have hplace : ∀ before request after, expected.take k = before ++ request :: after →
      ¬ "actions=".toList <+: Text.strip (expression_of request) ∧
        ∀ later ∈ after ++ expected.drop k, later.target = request.target →
          ¬ same_rule_identity (rule_of_text (expression_of request)) (rule_of_text (expression_of later)) := by
    intro before request after htake
    have hexpected : expected = before ++ request :: (after ++ expected.drop k) := by
      rw [← cons_append, ← append_assoc, ← htake, hsplit]
    have hbefore : ∀ earlier ∈ before, OneLine (expression_of earlier) := fun earlier hearlier =>
      honeline earlier (by rw [htake]; exact mem_append_left _ hearlier)
    have hrequest := honeline request (by rw [htake]; exact mem_append_right _ mem_cons_self)
    exact ⟨h.started before request _ hexpected hbefore hrequest, h.distinct before request _ hexpected hbefore hrequest⟩
  have hrule : ∀ target, ∀ text ∈ listed_steps expected k target, ∀ line, DumpRecord text line →
      parse_flow_expression line = .ok (some (rule_of_text text)) := by
    intro target text htext line hrecord
    obtain ⟨request, hrequest, -, rfl⟩ := mem_listed_steps.mp htext
    obtain ⟨before, after, htake⟩ := append_of_mem hrequest
    have hmem := mem_of_mem_take hrequest
    exact record_rule (haccepted request hmem) (h.parsed request hmem) (hplace before request after htake).1 hrecord
  have hflows : ∀ target, ∃ flows, ∀ request ∈ expected, request.target = target →
      (∃ output, dump target = .ok output ∧ parse_flow_dump output = .ok flows) ∧
        flows.Perm ((listed_steps expected k target).map rule_of_text) := by
    intro target
    by_cases hsome : ∃ request ∈ expected, request.target = target
    · obtain ⟨request, hrequest, rfl⟩ := hsome
      obtain ⟨output, houtput, hlists⟩ := hdump request hrequest
      obtain ⟨flows, hparse, hperm⟩ := listed_rules hlists (hrule request.target)
      exact ⟨flows, fun _ _ _ => ⟨⟨output, houtput, hparse⟩, hperm⟩⟩
    · exact ⟨[], fun request hrequest htarget => absurd ⟨request, hrequest, htarget⟩ hsome⟩
  choose flows hflows using hflows
  rw [inspect_ok haccepted h.parsed fun request hrequest => (hflows request.target request hrequest rfl).1]
  congr 1
  conv_lhs => rw [← hsplit]
  rw [map_append]
  congr 1
  · refine eq_replicate_iff.mpr ⟨by rw [length_map, length_take_of_le hk], fun state hstate => ?_⟩
    obtain ⟨request, hrequest, rfl⟩ := mem_map.mp hstate
    obtain ⟨before, after, htake⟩ := append_of_mem hrequest
    have hperm := (hflows request.target request (mem_of_mem_take hrequest) rfl).2
    -- of the listed rules, that of the step alone has its identity
    have hbefore : ∀ earlier ∈ before, earlier.target = request.target →
        ¬ same_rule_identity (rule_of_text (expression_of earlier)) (rule_of_text (expression_of request)) := by
      intro earlier hearlier htarget
      obtain ⟨first, rest, rfl⟩ := append_of_mem hearlier
      rw [append_assoc, cons_append] at htake
      refine (hplace first earlier _ htake).2 request ?_ htarget.symm
      exact mem_append_left _ (mem_append_right _ mem_cons_self)
    have hafter : ∀ later ∈ after, later.target = request.target →
        ¬ same_rule_identity (rule_of_text (expression_of later)) (rule_of_text (expression_of request)) := by
      intro later hlater htarget hsame
      exact (hplace before request after htake).2 later (mem_append_left _ hlater) htarget (same_rule_identity_symm hsame)
    have hnone : ∀ requests : List SubstrateRequest, (∀ other ∈ requests, other.target = request.target →
        ¬ same_rule_identity (rule_of_text (expression_of other)) (rule_of_text (expression_of request))) →
        ((((requests.filter fun other => other.target = request.target).map expression_of).map rule_of_text).filter
          fun flow => same_rule_identity flow (rule_of_text (expression_of request))) = [] := by
      intro requests hrequests
      rw [filter_eq_nil_iff]
      intro flow hflow
      obtain ⟨text, htext, rfl⟩ := mem_map.mp hflow
      obtain ⟨other, hother, rfl⟩ := mem_map.mp htext
      obtain ⟨hmem, htarget⟩ := mem_filter.mp hother
      rw [decide_eq_true_eq]
      exact hrequests other hmem (of_decide_eq_true htarget)
    have hone : ((listed_steps expected k request.target).map rule_of_text).filter
        (fun flow => same_rule_identity flow (rule_of_text (expression_of request))) = [rule_of_text (expression_of request)] := by
      have htarget : ∀ requests : List SubstrateRequest,
          (request :: requests).filter (fun other => other.target = request.target) =
            request :: requests.filter fun other => other.target = request.target := fun requests =>
        filter_cons_of_pos (decide_eq_true rfl)
      have hidentity : ∀ rules : List FlowRecord, (rule_of_text (expression_of request) :: rules).filter
          (fun flow => same_rule_identity flow (rule_of_text (expression_of request))) =
            rule_of_text (expression_of request) ::
              rules.filter fun flow => same_rule_identity flow (rule_of_text (expression_of request)) := fun rules =>
        filter_cons_of_pos (decide_eq_true (same_rule_identity_self _))
      unfold listed_steps
      rw [htake, filter_append, htarget, map_append, map_append, filter_append, hnone before hbefore,
        nil_append, map_cons, map_cons, hidentity, hnone after hafter]
    refine rule_state_present_iff.mpr (perm_singleton.mp ?_)
    rw [← hone]
    exact hperm.filter _
  · refine eq_replicate_iff.mpr ⟨by rw [length_map, length_drop], fun state hstate => ?_⟩
    obtain ⟨request, hrequest, rfl⟩ := mem_map.mp hstate
    have hmem := mem_of_mem_drop hrequest
    refine rule_state_missing_iff.mpr fun flow hflow => ?_
    rw [(hflows request.target request hmem rfl).2.mem_iff, mem_map] at hflow
    obtain ⟨text, htext, rfl⟩ := hflow
    obtain ⟨listed, hlisted, htarget, rfl⟩ := mem_listed_steps.mp htext
    obtain ⟨before, after, htake⟩ := append_of_mem hlisted
    exact (hplace before listed after htake).2 request (mem_append_right _ hrequest) htarget.symm

/-! ## Bundles that are not read back -/

/-- The dump of a switch that lists the first steps, with one counter each. -/
def counted_dump (expected : List SubstrateRequest) (k : ℕ) (target : String) : Except ActionExecutionError FlowText :=
  .ok (((listed_steps expected k target).map counted).flatMap fun line => line ++ ['\n'])

theorem counted_dump_lists
    (honeline : ∀ request ∈ expected.take k, OneLine (expression_of request)) (target : String) :
    ∃ output, counted_dump expected k target = .ok output ∧ ListsExactly (listed_steps expected k target) output := by
  refine ⟨_, rfl, [], listed_steps expected k target, (listed_steps expected k target).map counted, rfl,
    fun line hline => absurd hline not_mem_nil, Perm.refl _, ?_⟩
  rw [forall₂_map_right_iff]
  refine forall₂_same.mpr fun text htext => ?_
  obtain ⟨request, hrequest, -, rfl⟩ := mem_listed_steps.mp htext
  exact counted_record (honeline request hrequest)

/-- The rule of a counted step. -/
theorem counted_rule (haccepted : AcceptedStep require_switch request)
    (hparsed : ∃ rule, parse_flow_expression (expression_of request) = .ok rule)
    (hline : OneLine (expression_of request)) :
    parse_flow_expression (counted (expression_of request)) = .ok (some (rule_of_text (counted (expression_of request)))) ∧
      ("actions=".toList <+: Text.strip (expression_of request) ↔
        rule_of_text (counted (expression_of request)) ≠ rule_of_text (expression_of request)) := by
  by_cases hstart : "actions=".toList <+: Text.strip (expression_of request)
  · obtain ⟨record, hrecord, hother⟩ := unstarted_rule hline hstart
    obtain ⟨rule, hrule⟩ := hparsed
    rw [rule_of_text_ok hrecord, Option.getD_some, rule_of_text_ok hrule]
    exact ⟨hrecord, iff_of_true hstart (hother rule hrule).symm⟩
  · have hrecord := record_rule haccepted hparsed hstart (counted_record hline)
    rw [rule_of_text_ok hrecord, Option.getD_some]
    exact ⟨hrecord, iff_of_false hstart fun hne => hne rfl⟩

/-- What the inspection of such a dump says of each step. -/
theorem counted_states (hk : k ≤ expected.length)
    (haccepted : ∀ request ∈ expected, AcceptedStep require_switch request)
    (hparsed : ∀ request ∈ expected, ∃ rule, parse_flow_expression (expression_of request) = .ok rule)
    (honeline : ∀ request ∈ expected.take k, OneLine (expression_of request))
    (h : ReadsBackAt require_switch expected k) :
    (∀ request ∈ expected.take k, ∃ listed ∈ expected.take k, listed.target = request.target ∧
        rule_of_text (counted (expression_of listed)) = rule_of_text (expression_of request)) ∧
      ∀ request ∈ expected.drop k, ∀ listed ∈ expected.take k, listed.target = request.target →
        ¬ same_rule_identity (rule_of_text (counted (expression_of listed))) (rule_of_text (expression_of request)) := by
  have hdump : ∀ request ∈ expected, ∃ output, counted_dump expected k request.target = .ok output ∧
      parse_flow_dump output =
        .ok ((listed_steps expected k request.target).map fun text => rule_of_text (counted text)) := by
    intro request hrequest
    refine ⟨_, rfl, ?_⟩
    have hsteps : ∀ text ∈ listed_steps expected k request.target, OneLine (counted text) ∧
        parse_flow_expression (counted text) = .ok (some (rule_of_text (counted text))) := by
      intro text htext
      obtain ⟨listed, hlisted, -, rfl⟩ := mem_listed_steps.mp htext
      have hmem := mem_of_mem_take hlisted
      have hline := honeline listed hlisted
      exact ⟨(counted_record hline).one_line, (counted_rule (haccepted listed hmem) (hparsed listed hmem) hline).1⟩
    refine @parse_flow_dump_ok [] _ _ (fun line hline => absurd hline not_mem_nil) ?_ ?_
    · intro line hline
      obtain ⟨text, htext, rfl⟩ := mem_map.mp hline
      exact (hsteps text htext).1
    · rw [forall₂_map_left_iff, forall₂_map_right_iff]
      exact forall₂_same.mpr fun text htext => (hsteps text htext).2
  have hstates := h (counted_dump expected k) fun request _ => counted_dump_lists honeline request.target
  rw [@inspect_ok _ _ _ (fun target => (listed_steps expected k target).map fun text => rule_of_text (counted text))
    haccepted hparsed hdump] at hstates
  have hlists := Except.ok.inj hstates
  rw [← take_append_drop k (expected.map _), ← map_take, ← map_drop] at hlists
  obtain ⟨hpresent, hmissing⟩ := append_inj hlists (by rw [length_map, length_take_of_le hk, length_replicate])
  have hmem : ∀ {request listed : SubstrateRequest}, listed ∈ expected.take k → listed.target = request.target →
      rule_of_text (counted (expression_of listed)) ∈
        (listed_steps expected k request.target).map fun text => rule_of_text (counted text) := fun hlisted htarget =>
    mem_map.mpr ⟨_, mem_listed_steps.mpr ⟨_, hlisted, htarget, rfl⟩, rfl⟩
  constructor
  · intro request hrequest
    have hstate := (eq_replicate_iff.mp hpresent).2 _ (mem_map.mpr ⟨request, hrequest, rfl⟩)
    have hcandidates := rule_state_present_iff.mp hstate
    have hfound : rule_of_text (expression_of request) ∈
        (listed_steps expected k request.target).map fun text => rule_of_text (counted text) := by
      refine mem_of_mem_filter (p := fun flow => same_rule_identity flow (rule_of_text (expression_of request))) ?_
      rw [hcandidates]
      exact mem_singleton_self _
    obtain ⟨text, htext, hrule⟩ := mem_map.mp hfound
    obtain ⟨listed, hlisted, htarget, rfl⟩ := mem_listed_steps.mp htext
    exact ⟨listed, hlisted, htarget, hrule⟩
  · intro request hrequest listed hlisted htarget
    have hstate := (eq_replicate_iff.mp hmissing).2 _ (mem_map.mpr ⟨request, hrequest, rfl⟩)
    exact rule_state_missing_iff.mp hstate _ (hmem hlisted htarget)

/-- A bundle that is read back with nothing installed is parsed. -/
theorem reads_back_parsed (haccepted : ∀ request ∈ expected, AcceptedStep require_switch request)
    (h : ReadsBackAt require_switch expected 0) :
    ∀ request ∈ expected, ∃ rule, parse_flow_expression (expression_of request) = .ok rule := by
  have hnothing : ∀ target, ListsExactly (listed_steps expected 0 target) [] := by
    intro target
    refine ⟨[], [], [], rfl, fun line hline => absurd hline not_mem_nil, ?_, Forall₂.nil⟩
    rw [listed_steps, take_zero]
    exact Perm.nil
  have hstates := h (fun _ => .ok []) fun request _ => ⟨[], rfl, hnothing request.target⟩
  obtain ⟨dumps, -, hstates⟩ := Except.bind_ok_iff.mp hstates
  exact rule_states_parsed haccepted hstates

/-- A place in a bundle is a number of first steps. -/
theorem take_place (h : expected = before ++ request :: after) :
    before.length + 1 ≤ expected.length ∧ expected.take (before.length + 1) = before ++ [request] ∧
      expected.drop (before.length + 1) = after := by
  have hsplit : expected = (before ++ [request]) ++ after := by rw [h, append_assoc, singleton_append]
  have hlength : (before ++ [request]).length = before.length + 1 := by rw [length_append, length_singleton]
  refine ⟨?_, ?_, ?_⟩
  · rw [hsplit, length_append, hlength]
    exact Nat.le_add_right _ _
  · rw [hsplit, ← hlength, take_left]
  · rw [hsplit, ← hlength, drop_left]

/-- What the inspection says when a step is the last that is listed. -/
theorem last_listed (haccepted : ∀ request ∈ expected, AcceptedStep require_switch request)
    (h : ∀ k ≤ expected.length, ReadsBackAt require_switch expected k)
    (hexpected : expected = before ++ request :: after)
    (hbefore : ∀ earlier ∈ before, OneLine (expression_of earlier))
    (hrequest : OneLine (expression_of request)) :
    (∃ listed ∈ before ++ [request], listed.target = request.target ∧
        rule_of_text (counted (expression_of listed)) = rule_of_text (expression_of request)) ∧
      ∀ later ∈ after, later.target = request.target →
        ¬ same_rule_identity (rule_of_text (counted (expression_of request))) (rule_of_text (expression_of later)) := by
  obtain ⟨hk, htake, hdrop⟩ := take_place hexpected
  have hparsed := reads_back_parsed haccepted (h 0 (Nat.zero_le _))
  have honeline : ∀ other ∈ expected.take (before.length + 1), OneLine (expression_of other) := by
    intro other hother
    rw [htake] at hother
    rcases mem_append.mp hother with hearlier | hlast
    · exact hbefore other hearlier
    · rw [mem_singleton.mp hlast]
      exact hrequest
  obtain ⟨hpresent, hmissing⟩ := counted_states hk haccepted hparsed honeline (h _ hk)
  rw [htake] at hpresent hmissing
  rw [hdrop] at hmissing
  have hmem : request ∈ before ++ [request] := mem_append_right _ (mem_singleton_self _)
  exact ⟨hpresent request hmem, fun later hlater htarget => hmissing later hlater request hmem htarget.symm⟩

/-- A bundle that is read back is readable. -/
theorem readable_of_reads_back (haccepted : ∀ request ∈ expected, AcceptedStep require_switch request)
    (h : ∀ k ≤ expected.length, ReadsBackAt require_switch expected k) : ReadableBundle expected := by
  have hparsed := reads_back_parsed haccepted (h 0 (Nat.zero_le _))
  have hstarted : ∀ before request after, expected = before ++ request :: after →
      (∀ earlier ∈ before, OneLine (expression_of earlier)) → OneLine (expression_of request) →
      ¬ "actions=".toList <+: Text.strip (expression_of request) := by
    intro before request after hexpected hbefore hrequest hstart
    have hmem : request ∈ expected := by rw [hexpected]; exact mem_append_right _ mem_cons_self
    obtain ⟨⟨listed, hlisted, htarget, hrule⟩, -⟩ := last_listed haccepted h hexpected hbefore hrequest
    rcases mem_append.mp hlisted with hearlier | hlast
    · -- then the earlier step has the identity of this one, which is missing after it
      obtain ⟨first, rest, rfl⟩ := append_of_mem hearlier
      have hplace : expected = first ++ listed :: (rest ++ request :: after) := by
        rw [hexpected, append_assoc, cons_append]
      have hfirst : ∀ earlier ∈ first, OneLine (expression_of earlier) := fun earlier hmem =>
        hbefore earlier (mem_append_left _ hmem)
      obtain ⟨-, hmissing⟩ := last_listed haccepted h hplace hfirst (hbefore listed hearlier)
      refine hmissing request (mem_append_right _ mem_cons_self) htarget.symm ?_
      rw [hrule]
      exact same_rule_identity_self _
    · rw [mem_singleton.mp hlast] at hrule
      exact (counted_rule (haccepted request hmem) (hparsed request hmem) hrequest).2.mp hstart hrule
  refine ⟨hparsed, hstarted, ?_⟩
  intro before request after hexpected hbefore hrequest later hlater htarget
  have hmem : request ∈ expected := by rw [hexpected]; exact mem_append_right _ mem_cons_self
  have hcounted := (counted_rule (haccepted request hmem) (hparsed request hmem) hrequest).2
  have hsame := not_not.mp (mt hcounted.mpr (hstarted before request after hexpected hbefore hrequest))
  rw [← hsame]
  exact (last_listed haccepted h hexpected hbefore hrequest).2 later hlater htarget

/-- A bundle is read back, however many of its first steps are installed, exactly when it is readable. -/
theorem bundle_reads_back_iff (haccepted : ∀ request ∈ expected, AcceptedStep require_switch request) :
    (∀ k ≤ expected.length, ReadsBackAt require_switch expected k) ↔ ReadableBundle expected :=
  ⟨readable_of_reads_back haccepted, fun h _ hk => h.reads_back haccepted hk⟩

/-- A bundle is readable when no step starts with its actions, and no two steps of a switch have one
identity. -/
theorem readable_of_pairwise (hparsed : ∀ request ∈ expected, ∃ rule, parse_flow_expression (expression_of request) = .ok rule)
    (hstarted : ∀ request ∈ expected, ¬ "actions=".toList <+: Text.strip (expression_of request))
    (hdistinct : expected.Pairwise fun request later => later.target = request.target →
      ¬ same_rule_identity (rule_of_text (expression_of request)) (rule_of_text (expression_of later))) :
    ReadableBundle expected := by
  refine ⟨hparsed, fun before request after hexpected _ _ => hstarted request ?_, ?_⟩
  · rw [hexpected]
    exact mem_append_right _ mem_cons_self
  · intro before request after hexpected _ _
    rw [hexpected] at hdistinct
    exact (pairwise_cons.mp (pairwise_append.mp hdistinct).2.1).1

end Bundle

/-! ## Two steps on one switch -/

/-- A step that drops what comes in at a port. -/
def drop_step (port priority : ℤ) : SubstrateRequest :=
  { drop_request ∅ with
    parameters := (drop_request (AList.singleton "priority" (.int priority))).parameters.insert "match"
      (.obj (AList.singleton "in_port" (.int port))) }

/-- Steps for two ports are read back. -/
theorem bundle_reads_back_ports : ReadsBackAt (fun _ => .ok ()) [drop_step 1 5, drop_step 2 10] 1 := by
  have haccepted : ∀ request ∈ [drop_step 1 5, drop_step 2 10], AcceptedStep (fun _ => .ok ()) request := by
    intro request hrequest
    rcases mem_pair.mp hrequest with rfl | rfl
    · exact ⟨rfl, rfl, by decide⟩
    · exact ⟨rfl, rfl, by decide⟩
  have hparsed : ∀ request ∈ [drop_step 1 5, drop_step 2 10],
      ∃ rule, parse_flow_expression (expression_of request) = .ok rule := by
    intro request hrequest
    rcases mem_pair.mp hrequest with rfl | rfl
    · exact ⟨some (rule_of_text (expression_of (drop_step 1 5))), by decide⟩
    · exact ⟨some (rule_of_text (expression_of (drop_step 2 10))), by decide⟩
  exact (bundle_reads_back_iff haccepted).mpr (readable_of_pairwise hparsed (by decide) (by decide)) 1
    (by decide)

/-- Steps for one port with two priorities are both accepted, and are read back as conflicting. -/
theorem bundle_conflicting_priorities :
    flow_expression (drop_step 1 5).parameters true = .ok "priority=5,in_port=1,actions=drop".toList ∧
      flow_expression (drop_step 1 10).parameters true = .ok "priority=10,in_port=1,actions=drop".toList ∧
      (inspect_scenario_actions (fun _ => .ok ()) (counted_dump [drop_step 1 5, drop_step 1 10] 2)
        [drop_step 1 5, drop_step 1 10]).toOption = some ["conflicting", "conflicting"] ∧
      ¬ ReadsBackAt (fun _ => .ok ()) [drop_step 1 5, drop_step 1 10] 2 := by
  have hstates : (inspect_scenario_actions (fun _ => .ok ()) (counted_dump [drop_step 1 5, drop_step 1 10] 2)
      [drop_step 1 5, drop_step 1 10]).toOption = some ["conflicting", "conflicting"] := by decide
  refine ⟨by decide, by decide, hstates, fun h => ?_⟩
  have honeline : ∀ request ∈ [drop_step 1 5, drop_step 1 10].take 2, OneLine (expression_of request) := by
    have hchars : ∀ request ∈ [drop_step 1 5, drop_step 1 10].take 2,
        ((expression_of request).all fun c => decide (Text.is_line_break c = false)) = true := by decide
    exact fun request hrequest => Text.forall_of_all (hchars request hrequest)
  have hpresent := h (counted_dump _ 2) fun request _ => counted_dump_lists honeline request.target
  rw [hpresent] at hstates
  revert hstates
  decide

end MininetAi
