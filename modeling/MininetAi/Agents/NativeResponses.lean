/-
What becomes of a native response (`map_choice` and `NativeSystemOneClient.decide` of
`mininet_ai/agents/bounded.py`).

Every check of a response stops with a typed error, but two. A text may be nested too deeply to
be scanned. And an integer may be too large to be tested for being finite: this happens at the
first number that is not in the unit interval, once everything before the numbers has passed.
-/
import Mathlib.Data.Rat.Cast.Order
import MininetAi.Agents.NativeChoice

set_option autoImplicit false

namespace MininetAi

open List Except Prod

/-! ## Results -/

/-- A probability. -/
def InUnit (x : ℚ) : Prop := 0 ≤ x ∧ x ≤ 1

/-- A result that is well formed: it selects, and its numbers are probabilities. -/
structure WellFormedChoice (choices : List (String × List BundleStep)) (result : ChoiceResult) : Prop where
  selects : Selects choices result
  probabilities : ∀ entries ∈ result.probabilities, ∀ entry ∈ entries, entry.1 ∈ choices.map fst ∧ InUnit entry.2
  probability : ∀ x ∈ result.probability, InUnit x
  confidence : ∀ x ∈ result.confidence, InUnit x

/-- A computation that stops with an exception that is no `AgentRuntimeError`. -/
def Untyped {α : Type} (x : Except BoundedError α) : Prop := ∃ e, x = .error e ∧ e.code = none

/-- The validation of a response is total and typed. -/
def MapsTyped (payload : NativePayload) (choices : List (String × List BundleStep)) : Prop :=
  (∃ result, map_choice payload choices = .ok result ∧ WellFormedChoice choices result) ∨
    ∃ e, map_choice payload choices = .error e ∧ e.code ≠ none

/-- A response is accepted, or kept with a typed error. -/
def Retains (payload : NativePayload) (choices : List (String × List BundleStep)) : Prop :=
  ∀ criteria : List (String × String), choices.map fst = criteria.map fst → (∀ entry ∈ criteria, entry.2 ≠ "") →
    (∃ result, NativeSystemOneClient.decide criteria choices (.ok payload) = .ok result ∧ WellFormedChoice choices result) ∨
      ∃ e, NativeSystemOneClient.decide criteria choices (.ok payload) = .error e ∧ e.error.code ≠ none ∧
        e.native_response = some (retained_response payload)

/-! ## Responses that are not answered -/

/-- What is scanned in a payload that is a text. -/
def NativePayload.scan : NativePayload → Option JsonScan
  | .text _ scan | .bytes _ scan => some scan
  | .value _ => none

/-- The object of a payload. -/
def NativePayload.Carries (response : List (String × NativeValue)) : NativePayload → Prop
  | .text _ scan | .bytes _ scan => ∃ tree, scan = .tree tree ∧ tree.loaded = .ok (.obj response)
  | .value v => v = .obj response

/-- The tokens of a response: none are reported. -/
def NoTokens (usage : Option NativeValue) : Prop :=
  usage = none ∨ usage = some .null ∨ ∃ fields, usage = some (.obj fields) ∧
    ∀ tokens ∈ (fields.lookup "output_tokens").or (fields.lookup "outputTokens"), tokens = .int 0

/-- The probabilities of a response are a mapping over known choices. -/
def Mapped (choices : List (String × List BundleStep)) (probabilities : Option NativeValue) : Prop :=
  ∀ v ∈ probabilities, ∃ fields, v = .obj fields ∧ ∀ entry ∈ fields, entry.1 ∈ choices.map fst

def mapped_numbers (probabilities : Option NativeValue) : List NativeValue :=
  ((probabilities.bind NativeValue.as_mapping).getD []).map snd

/-- A response with one answer that passes the checks in front of its numbers. -/
structure Answered (choices : List (String × List BundleStep)) (response answer : List (String × NativeValue)) : Prop where
  asked : ∃ answers, response.lookup "answers" = some (.obj answers) ∧ answers ≠ [] ∧
    (∀ entry ∈ answers, entry.1 = "next_action") ∧ answers.lookup "next_action" = some (.obj answer)
  no_tokens : NoTokens (response.lookup "usage")
  is_choice : answer.lookup "type" = some (.str "choice")
  supported : ∀ entry ∈ answer, entry.1 ∈ answer_fields
  known : ∃ choice_id bundle, answer.lookup "choice" = some (.str choice_id) ∧ choices.lookup choice_id = some bundle ∧
    (choice_id = "no_action" → bundle = [])
  mapped : Mapped choices ((answer.lookup "probabilities").or (response.lookup "probabilities"))

/-- The numbers of a response, in the order of their checks. -/
def checked_numbers (response answer : List (String × NativeValue)) : List NativeValue :=
  mapped_numbers ((answer.lookup "probabilities").or (response.lookup "probabilities")) ++
    (((response.lookup "confidence").or (answer.lookup "confidence")).toList ++ (answer.lookup "probability").toList)

/-- A number in the unit interval. -/
def UnitNumber : NativeValue → Prop
  | .int n => 0 ≤ n ∧ n ≤ 1
  | .float (some x) => InUnit x
  | .null | .bool _ | .float none | .str _ | .arr _ | .obj _ => False

/-- The first number that is not in the unit interval is an integer that no float is near enough to. -/
def Overflows (numbers : List NativeValue) : Prop :=
  ∃ before n after, numbers = before ++ .int n :: after ∧ (∀ v ∈ before, UnitNumber v) ∧ float_overflow ≤ |n|

/-- A response that is not answered: its text is nested too deeply, or its numbers overflow. -/
def Escapes (payload : NativePayload) (choices : List (String × List BundleStep)) : Prop :=
  payload.scan = some .too_deep ∨
    ∃ response answer, payload.Carries response ∧ Answered choices response answer ∧ Overflows (checked_numbers response answer)

/-! ## Untyped exceptions -/

section Untyped

variable {α β : Type}

theorem not_untyped_ok {a : α} : ¬ Untyped (.ok a : Except BoundedError α) := by
  rintro ⟨e, h, -⟩
  cases h

theorem untyped_error_iff {e : BoundedError} : Untyped (.error e : Except BoundedError α) ↔ e.code = none := by
  constructor
  · rintro ⟨e', h, hcode⟩
    rw [Except.error.inj h]
    exact hcode
  · exact fun h => ⟨e, rfl, h⟩

instance (x : Except BoundedError α) : Decidable (Untyped x) :=
  match x with
  | .ok _ => isFalse not_untyped_ok
  | .error e => decidable_of_iff (e.code = none) untyped_error_iff.symm

variable {message : String}

/-- The error of an output is typed. -/
theorem not_untyped_invalid : ¬ Untyped (.error (invalid_output message) : Except BoundedError α) := by
  rw [untyped_error_iff]
  exact Option.some_ne_none _

theorem untyped_bind_iff {x : Except BoundedError α} {f : α → Except BoundedError β} :
    Untyped (x >>= f) ↔ Untyped x ∨ ∃ a, x = .ok a ∧ Untyped (f a) := by
  unfold Untyped
  constructor
  · rintro ⟨e, h, hcode⟩
    rcases bind_error_iff.mp h with hfirst | ⟨a, ha, hrest⟩
    · exact Or.inl ⟨e, hfirst, hcode⟩
    · exact Or.inr ⟨a, ha, e, hrest, hcode⟩
  · rintro (⟨e, h, hcode⟩ | ⟨a, ha, e, h, hcode⟩)
    · exact ⟨e, bind_error_iff.mpr (Or.inl h), hcode⟩
    · exact ⟨e, bind_error_iff.mpr (Or.inr ⟨a, ha, h⟩), hcode⟩

theorem not_untyped_refuse {p : Prop} [Decidable p] :
    ¬ Untyped (refuse_if p (invalid_output message)) := by
  unfold refuse_if
  by_cases hp : p
  · rw [if_pos hp]
    exact not_untyped_invalid
  · rw [if_neg hp]
    exact not_untyped_ok

end Untyped

/-! ## Numbers -/

theorem one_lt_float_overflow : 1 < float_overflow := by decide +kernel

theorem unit_not_overflow {n : ℤ} (h : 0 ≤ n ∧ n ≤ 1) : ¬ float_overflow ≤ |n| := by
  rw [abs_of_nonneg h.1]
  have hone := one_lt_float_overflow
  omega

variable {message key : String} {v : NativeValue} {fields response : List (String × NativeValue)}
  {payload : NativePayload}

/-- A number that passes its check is in the unit interval, and is kept. -/
theorem unit_interval_ok {x : ℚ} (h : unit_interval message v = .ok x) :
    UnitNumber v ∧ InUnit x := by
  cases v with
  | int n =>
    rw [unit_interval] at h
    by_cases hover : float_overflow ≤ |n|
    · rw [if_pos hover] at h
      cases h
    · rw [if_neg hover] at h
      by_cases hunit : 0 ≤ n ∧ n ≤ 1
      · rw [if_pos hunit] at h
        rw [← Except.ok.inj h]
        exact ⟨hunit, by exact_mod_cast hunit.1, by exact_mod_cast hunit.2⟩
      · rw [if_neg hunit] at h
        cases h
  | float x' =>
    cases x' with
    | none => cases h
    | some y =>
      rw [unit_interval] at h
      by_cases hunit : 0 ≤ y ∧ y ≤ 1
      · rw [if_pos hunit] at h
        rw [← Except.ok.inj h]
        exact ⟨hunit, hunit⟩
      · rw [if_neg hunit] at h
        cases h
  | null => cases h
  | bool b => cases h
  | str s => cases h
  | arr items => cases h
  | obj fields => cases h

theorem unit_interval_of_unit {message : String} {v : NativeValue} (h : UnitNumber v) : ∃ x, unit_interval message v = .ok x := by
  cases v with
  | int n =>
    have hunit : 0 ≤ n ∧ n ≤ 1 := h
    rw [unit_interval, if_neg (unit_not_overflow hunit), if_pos hunit]
    exact ⟨n, rfl⟩
  | float x =>
    cases x with
    | none => exact False.elim h
    | some y =>
      have hunit : 0 ≤ y ∧ y ≤ 1 := h
      rw [unit_interval, if_pos hunit]
      exact ⟨y, rfl⟩
  | null => exact False.elim h
  | bool b => exact False.elim h
  | str s => exact False.elim h
  | arr items => exact False.elim h
  | obj fields => exact False.elim h

/-- Only an integer that is too large escapes the check of a number. -/
theorem untyped_unit_interval_iff {message : String} {v : NativeValue} :
    Untyped (unit_interval message v) ↔ ∃ n, v = .int n ∧ float_overflow ≤ |n| := by
  cases v with
  | int n =>
    rw [unit_interval]
    by_cases hover : float_overflow ≤ |n|
    · rw [if_pos hover, untyped_error_iff]
      exact iff_of_true rfl ⟨n, rfl, hover⟩
    · rw [if_neg hover]
      refine iff_of_false ?_ fun ⟨m, hm, hlarge⟩ => hover (NativeValue.int.inj hm ▸ hlarge)
      by_cases hunit : 0 ≤ n ∧ n ≤ 1
      · rw [if_pos hunit]
        exact not_untyped_ok
      · rw [if_neg hunit]
        exact not_untyped_invalid
  | float x =>
    refine iff_of_false ?_ fun ⟨_, h, _⟩ => by cases h
    cases x with
    | none => exact not_untyped_invalid
    | some y =>
      rw [unit_interval]
      by_cases hunit : 0 ≤ y ∧ y ≤ 1
      · rw [if_pos hunit]
        exact not_untyped_ok
      · rw [if_neg hunit]
        exact not_untyped_invalid
  | null => exact iff_of_false not_untyped_invalid fun ⟨_, h, _⟩ => by cases h
  | bool b => exact iff_of_false not_untyped_invalid fun ⟨_, h, _⟩ => by cases h
  | str s => exact iff_of_false not_untyped_invalid fun ⟨_, h, _⟩ => by cases h
  | arr items => exact iff_of_false not_untyped_invalid fun ⟨_, h, _⟩ => by cases h
  | obj fields => exact iff_of_false not_untyped_invalid fun ⟨_, h, _⟩ => by cases h

theorem not_overflows_nil : ¬ Overflows [] := by
  rintro ⟨before, n, after, h, -⟩
  exact absurd h (append_ne_nil_of_right_ne_nil _ (cons_ne_nil _ _)).symm

variable {numbers : List NativeValue} {s : String} {mapping : List (String × NativeValue)}
  {usage : Option NativeValue} {tokens : NativeValue}

theorem overflows_cons_iff :
    Overflows (v :: numbers) ↔ (∃ n, v = .int n ∧ float_overflow ≤ |n|) ∨ UnitNumber v ∧ Overflows numbers := by
  constructor
  · rintro ⟨before, n, after, h, hbefore, hlarge⟩
    cases before with
    | nil => exact Or.inl ⟨n, (List.cons.inj h).1, hlarge⟩
    | cons first before =>
      rw [cons_append] at h
      obtain ⟨hhead, htail⟩ := List.cons.inj h
      obtain ⟨hfirst, hbefore⟩ := forall_mem_cons.mp hbefore
      exact Or.inr ⟨hhead ▸ hfirst, before, n, after, htail, hbefore, hlarge⟩
  · rintro (⟨n, rfl, hlarge⟩ | ⟨hv, before, n, after, rfl, hbefore, hlarge⟩)
    · exact ⟨[], n, numbers, rfl, fun v hv => absurd hv not_mem_nil, hlarge⟩
    · exact ⟨v :: before, n, after, rfl, forall_mem_cons.mpr ⟨hv, hbefore⟩, hlarge⟩

theorem overflows_append_iff {others : List NativeValue} :
    Overflows (numbers ++ others) ↔ Overflows numbers ∨ (∀ v ∈ numbers, UnitNumber v) ∧ Overflows others := by
  induction numbers with
  | nil =>
    rw [nil_append]
    constructor
    · exact fun h => Or.inr ⟨fun v hv => absurd hv not_mem_nil, h⟩
    · rintro (h | ⟨-, h⟩)
      · exact absurd h not_overflows_nil
      · exact h
  | cons v numbers ih =>
    rw [cons_append, overflows_cons_iff, overflows_cons_iff, ih, forall_mem_cons, and_or_left, or_assoc,
      and_assoc]

/-! ## The checks in front of the numbers -/

theorem as_mapping_some_iff : v.as_mapping = some fields ↔ v = .obj fields := by
  cases v with
  | obj fields' =>
    constructor
    · exact fun h => congrArg NativeValue.obj (Option.some.inj h)
    · exact fun h => congrArg some (NativeValue.obj.inj h)
  | null => exact iff_of_false nofun nofun
  | bool b => exact iff_of_false nofun nofun
  | int n => exact iff_of_false nofun nofun
  | float x => exact iff_of_false nofun nofun
  | str s => exact iff_of_false nofun nofun
  | arr items => exact iff_of_false nofun nofun

theorem as_text_some_iff : v.as_text = some s ↔ v = .str s := by
  cases v with
  | str s' =>
    constructor
    · exact fun h => congrArg NativeValue.str (Option.some.inj h)
    · exact fun h => congrArg some (NativeValue.str.inj h)
  | null => exact iff_of_false nofun nofun
  | bool b => exact iff_of_false nofun nofun
  | int n => exact iff_of_false nofun nofun
  | float x => exact iff_of_false nofun nofun
  | arr items => exact iff_of_false nofun nofun
  | obj fields => exact iff_of_false nofun nofun

theorem lookup_mapping_iff :
    (fields.lookup key).bind NativeValue.as_mapping = some mapping ↔ fields.lookup key = some (.obj mapping) := by
  rw [Option.bind_eq_some_iff]
  constructor
  · rintro ⟨v, hlookup, hmapping⟩
    rw [hlookup, as_mapping_some_iff.mp hmapping]
  · exact fun h => ⟨_, h, rfl⟩

theorem lookup_text_iff :
    (fields.lookup key).bind NativeValue.as_text = some s ↔ fields.lookup key = some (.str s) := by
  rw [Option.bind_eq_some_iff]
  constructor
  · rintro ⟨v, hlookup, htext⟩
    rw [hlookup, as_text_some_iff.mp htext]
  · exact fun h => ⟨_, h, rfl⟩

/-- A text is loaded with a typed error, unless it is nested too deeply. -/
theorem untyped_json_loads_iff {scan : JsonScan} : Untyped (json_loads scan) ↔ scan = .too_deep := by
  cases scan with
  | tree scanned =>
    refine iff_of_false ?_ nofun
    rw [json_loads]
    cases scanned.loaded with
    | error message => exact not_untyped_invalid
    | ok v => exact not_untyped_ok
  | invalid message => exact iff_of_false not_untyped_invalid nofun
  | too_deep => exact iff_of_true ⟨_, rfl, rfl⟩ rfl

theorem json_loads_ok_iff {scan : JsonScan} :
    json_loads scan = .ok v ↔ ∃ tree, scan = .tree tree ∧ tree.loaded = .ok v := by
  cases scan with
  | tree scanned =>
    rw [json_loads, mapError_ok_iff]
    constructor
    · exact fun h => ⟨scanned, rfl, h⟩
    · rintro ⟨tree, htree, hloaded⟩
      rw [JsonScan.tree.inj htree]
      exact hloaded
  | invalid message => exact iff_of_false nofun fun ⟨_, h, _⟩ => by cases h
  | too_deep => exact iff_of_false nofun fun ⟨_, h, _⟩ => by cases h

theorem untyped_payload_value_iff :
    Untyped (payload_value payload) ↔ payload.scan = some .too_deep := by
  cases payload with
  | text source scan =>
    rw [payload_value, untyped_json_loads_iff, NativePayload.scan, Option.some_inj]
  | bytes source scan =>
    rw [payload_value, untyped_json_loads_iff, NativePayload.scan, Option.some_inj]
  | value v => exact iff_of_false not_untyped_ok fun h => by cases h

theorem untyped_parse_response_iff :
    Untyped (parse_response payload) ↔ payload.scan = some .too_deep := by
  rw [parse_response, untyped_bind_iff, untyped_payload_value_iff]
  refine or_iff_left ?_
  rintro ⟨v, -, huntyped⟩
  cases hmapping : v.as_mapping with
  | none =>
    rw [hmapping] at huntyped
    exact not_untyped_invalid huntyped
  | some fields =>
    rw [hmapping] at huntyped
    exact not_untyped_ok huntyped

theorem parse_response_ok_iff :
    parse_response payload = .ok response ↔ payload.Carries response := by
  have hvalue : parse_response payload = .ok response ↔ payload_value payload = .ok (.obj response) := by
    rw [parse_response, bind_ok_iff]
    constructor
    · rintro ⟨v, hv, h⟩
      cases hmapping : v.as_mapping with
      | none =>
        rw [hmapping] at h
        cases h
      | some fields =>
        rw [hmapping] at h
        rw [hv, as_mapping_some_iff.mp hmapping, Except.ok.inj h]
    · exact fun h => ⟨_, h, rfl⟩
  rw [hvalue]
  cases payload with
  | text source scan => exact json_loads_ok_iff
  | bytes source scan => exact json_loads_ok_iff
  | value v =>
    constructor
    · exact fun h => Except.ok.inj h
    · exact fun h => congrArg Except.ok h

theorem not_untyped_mapping_field : ¬ Untyped (mapping_field fields key message) := by
  rw [mapping_field]
  cases (fields.lookup key).bind NativeValue.as_mapping with
  | none => exact not_untyped_invalid
  | some mapping => exact not_untyped_ok

theorem mapping_field_ok_iff :
    mapping_field fields key message = .ok mapping ↔ fields.lookup key = some (.obj mapping) := by
  rw [← lookup_mapping_iff, mapping_field]
  cases (fields.lookup key).bind NativeValue.as_mapping with
  | none => exact iff_of_false nofun nofun
  | some found =>
    constructor
    · exact fun h => congrArg some (Except.ok.inj h)
    · exact fun h => congrArg Except.ok (Option.some.inj h)

theorem not_untyped_generated_tokens : ¬ Untyped (generated_tokens usage) := by
  cases usage with
  | none => exact not_untyped_ok
  | some v =>
    cases v with
    | null => exact not_untyped_ok
    | obj fields => exact not_untyped_ok
    | bool b => exact not_untyped_invalid
    | int n => exact not_untyped_invalid
    | float x => exact not_untyped_invalid
    | str s => exact not_untyped_invalid
    | arr items => exact not_untyped_invalid

theorem require_no_tokens_ok_iff {u : Unit} : require_no_tokens tokens = .ok u ↔ tokens = .int 0 := by
  cases tokens with
  | int n =>
    rw [require_no_tokens]
    by_cases hneg : n < 0
    · rw [if_pos hneg]
      refine iff_of_false nofun fun h => ?_
      have hzero := NativeValue.int.inj h
      omega
    · rw [if_neg hneg]
      by_cases hzero : n = 0
      · rw [if_neg (not_not.mpr hzero), hzero]
        exact iff_of_true rfl rfl
      · rw [if_pos hzero]
        exact iff_of_false nofun fun h => hzero (NativeValue.int.inj h)
  | null => exact iff_of_false nofun nofun
  | bool b => exact iff_of_false nofun nofun
  | float x => exact iff_of_false nofun nofun
  | str s => exact iff_of_false nofun nofun
  | arr items => exact iff_of_false nofun nofun
  | obj fields => exact iff_of_false nofun nofun

theorem not_untyped_require_no_tokens : ¬ Untyped (require_no_tokens tokens) := by
  cases tokens with
  | int n =>
    rw [require_no_tokens]
    by_cases hneg : n < 0
    · rw [if_pos hneg]
      exact not_untyped_invalid
    · rw [if_neg hneg]
      by_cases hzero : n = 0
      · rw [if_neg (not_not.mpr hzero)]
        exact not_untyped_ok
      · rw [if_pos hzero, untyped_error_iff]
        exact Option.some_ne_none _
  | null => exact not_untyped_invalid
  | bool b => exact not_untyped_invalid
  | float x => exact not_untyped_invalid
  | str s => exact not_untyped_invalid
  | arr items => exact not_untyped_invalid
  | obj fields => exact not_untyped_invalid

/-- The tokens of a response pass when none are reported. -/
theorem tokens_ok_iff :
    (∃ tokens, generated_tokens usage = .ok tokens ∧ require_no_tokens tokens = .ok ()) ↔ NoTokens usage := by
  simp only [require_no_tokens_ok_iff, exists_eq_right]
  cases usage with
  | none => exact iff_of_true rfl (Or.inl rfl)
  | some v =>
    cases v with
    | null => exact iff_of_true rfl (Or.inr (Or.inl rfl))
    | obj fields =>
      have hfields : NoTokens (some (.obj fields)) ↔
          ∀ tokens ∈ (fields.lookup "output_tokens").or (fields.lookup "outputTokens"), tokens = .int 0 := by
        constructor
        · rintro (h | h | ⟨fields', h, htokens⟩)
          · cases h
          · cases h
          · rw [NativeValue.obj.inj (Option.some.inj h)]
            exact htokens
        · exact fun h => Or.inr (Or.inr ⟨fields, rfl, h⟩)
      rw [hfields]
      show Except.ok (((fields.lookup "output_tokens").or (fields.lookup "outputTokens")).getD (.int 0)) = _ ↔ _
      cases (fields.lookup "output_tokens").or (fields.lookup "outputTokens") with
      | none => exact iff_of_true rfl fun tokens h => by cases h
      | some tokens =>
        constructor
        · intro h other hother
          rw [← Option.some.inj hother]
          exact Except.ok.inj h
        · exact fun h => congrArg Except.ok (h tokens rfl)
    | bool b => exact iff_of_false nofun fun h => by rcases h with h | h | ⟨_, h, -⟩ <;> cases h
    | int n => exact iff_of_false nofun fun h => by rcases h with h | h | ⟨_, h, -⟩ <;> cases h
    | float x => exact iff_of_false nofun fun h => by rcases h with h | h | ⟨_, h, -⟩ <;> cases h
    | str s => exact iff_of_false nofun fun h => by rcases h with h | h | ⟨_, h, -⟩ <;> cases h
    | arr items => exact iff_of_false nofun fun h => by rcases h with h | h | ⟨_, h, -⟩ <;> cases h

theorem not_untyped_next_action : ¬ Untyped (next_action response) := by
  simp only [next_action, untyped_bind_iff, not_untyped_mapping_field, not_untyped_refuse, not_untyped_generated_tokens,
    not_untyped_require_no_tokens, false_or, not_exists, not_and]
  intros
  exact not_untyped_ok

/-- A response has an answer when it passes the checks in front of the choice. -/
theorem next_action_ok_iff {answer : List (String × NativeValue)} :
    next_action response = .ok answer ↔
      (∃ answers, response.lookup "answers" = some (.obj answers) ∧ answers ≠ [] ∧
        (∀ entry ∈ answers, entry.1 = "next_action") ∧ answers.lookup "next_action" = some (.obj answer)) ∧
      NoTokens (response.lookup "usage") ∧ answer.lookup "type" = some (.str "choice") ∧
      ∀ entry ∈ answer, entry.1 ∈ answer_fields := by
  rw [← tokens_ok_iff]
  constructor
  · intro h
    obtain ⟨answers, hanswers, h⟩ := bind_ok_iff.mp h
    obtain ⟨_, hexactly, h⟩ := bind_ok_iff.mp h
    obtain ⟨tokens, htokens, h⟩ := bind_ok_iff.mp h
    obtain ⟨_, hnone, h⟩ := bind_ok_iff.mp h
    obtain ⟨found, hfound, h⟩ := bind_ok_iff.mp h
    obtain ⟨_, htype, h⟩ := bind_ok_iff.mp h
    obtain ⟨_, hfields, h⟩ := bind_ok_iff.mp h
    rw [← Except.ok.inj h]
    have hexactly := not_or.mp (refuse_if_ok_iff.mp hexactly)
    have hfields := refuse_if_ok_iff.mp hfields
    refine ⟨⟨answers, mapping_field_ok_iff.mp hanswers, hexactly.1, ?_, mapping_field_ok_iff.mp hfound⟩,
      ⟨tokens, htokens, hnone⟩, ?_, ?_⟩
    · exact fun entry hentry => not_not.mp fun hne => hexactly.2 ⟨entry, hentry, hne⟩
    · exact lookup_text_iff.mp (not_not.mp (refuse_if_ok_iff.mp htype))
    · exact fun entry hentry => not_not.mp fun hnot => hfields ⟨entry, hentry, hnot⟩
  · rintro ⟨⟨answers, hanswers, hne, hexactly, hfound⟩, ⟨tokens, htokens, hnone⟩, htype, hfields⟩
    refine bind_ok_iff.mpr ⟨answers, mapping_field_ok_iff.mpr hanswers, ?_⟩
    refine bind_ok_iff.mpr ⟨(), refuse_if_ok_iff.mpr ?_, ?_⟩
    · rintro (hnil | ⟨entry, hentry, hother⟩)
      · exact hne hnil
      · exact hother (hexactly entry hentry)
    refine bind_ok_iff.mpr ⟨tokens, htokens, bind_ok_iff.mpr ⟨(), hnone, ?_⟩⟩
    refine bind_ok_iff.mpr ⟨answer, mapping_field_ok_iff.mpr hfound, ?_⟩
    refine bind_ok_iff.mpr ⟨(), refuse_if_ok_iff.mpr (not_not.mpr (lookup_text_iff.mpr htype)), ?_⟩
    refine bind_ok_iff.mpr ⟨(), refuse_if_ok_iff.mpr ?_, rfl⟩
    rintro ⟨entry, hentry, hnot⟩
    exact hnot (hfields entry hentry)

section Choices

variable {choices : List (String × List BundleStep)} {response answer : List (String × NativeValue)}

theorem not_untyped_chosen_bundle : ¬ Untyped (chosen_bundle answer choices) := by
  rw [chosen_bundle]
  cases (answer.lookup "choice").bind NativeValue.as_text with
  | none => exact not_untyped_invalid
  | some choice_id =>
    cases hlookup : choices.lookup choice_id with
    | none =>
      simp only [hlookup]
      exact not_untyped_invalid
    | some bundle =>
      simp only [hlookup, untyped_bind_iff]
      rintro (hrefused | ⟨_, -, hreturned⟩)
      · obtain ⟨e, he, hcode⟩ := hrefused
        by_cases hcondition : choice_id = "no_action" ∧ bundle ≠ []
        · rw [refuse_if, if_pos hcondition] at he
          rw [← Except.error.inj he] at hcode
          exact absurd hcode (Option.some_ne_none _)
        · rw [refuse_if, if_neg hcondition] at he
          cases he
      · exact not_untyped_ok hreturned

/-- A choice is found when it is one of the choices; `no_action` has no steps. -/
theorem chosen_bundle_isOk_iff : (∃ chosen, chosen_bundle answer choices = .ok chosen) ↔
      ∃ choice_id bundle, answer.lookup "choice" = some (.str choice_id) ∧ choices.lookup choice_id = some bundle ∧
        (choice_id = "no_action" → bundle = []) := by
  simp only [← lookup_text_iff]
  constructor
  · rintro ⟨chosen, h⟩
    obtain ⟨hbundle, hnone⟩ := chosen_bundle_ok h
    refine ⟨chosen.1, chosen.2, ?_, hbundle, hnone⟩
    rw [chosen_bundle] at h
    cases htext : (answer.lookup "choice").bind NativeValue.as_text with
    | none =>
      rw [htext] at h
      cases h
    | some choice_id =>
      rw [htext] at h
      cases hlookup : choices.lookup choice_id with
      | none =>
        simp only [hlookup] at h
        cases h
      | some bundle =>
        simp only [hlookup] at h
        obtain ⟨_, -, h⟩ := bind_ok_iff.mp h
        rw [← Except.ok.inj h]
  · rintro ⟨choice_id, bundle, htext, hlookup, hnone⟩
    refine ⟨(choice_id, bundle), ?_⟩
    rw [chosen_bundle, htext]
    simp only [hlookup]
    refine bind_ok_iff.mpr ⟨(), refuse_if_ok_iff.mpr fun h => ?_, rfl⟩
    exact h.2 (hnone h.1)

/-! ## The checks of the numbers -/

variable {fields : List (String × NativeValue)} {probabilities : Option NativeValue}
  {payload : NativePayload}

/-- The loop over the probabilities escapes at the first number that overflows. -/
theorem untyped_normalized_iff :
    Untyped (normalized_probabilities fields) ↔ Overflows (fields.map snd) := by
  induction fields with
  | nil => exact iff_of_false not_untyped_ok not_overflows_nil
  | cons entry fields ih =>
    obtain ⟨key, value⟩ := entry
    rw [normalized_probabilities, untyped_bind_iff, untyped_unit_interval_iff, map_cons, overflows_cons_iff, ← ih]
    refine or_congr_right ⟨?_, ?_⟩
    · rintro ⟨first, hfirst, hrest⟩
      refine ⟨(unit_interval_ok hfirst).1, ?_⟩
      rcases untyped_bind_iff.mp hrest with hrest | ⟨_, -, hreturned⟩
      · exact hrest
      · exact absurd hreturned not_untyped_ok
    · rintro ⟨hunit, hrest⟩
      obtain ⟨first, hfirst⟩ := unit_interval_of_unit hunit
      exact ⟨first, hfirst, untyped_bind_iff.mpr (Or.inl hrest)⟩

theorem normalized_ok {entries : List (String × ℚ)}
    (h : normalized_probabilities fields = .ok entries) :
    (∀ v ∈ fields.map snd, UnitNumber v) ∧ entries.map fst = fields.map fst ∧
      ∀ entry ∈ entries, InUnit entry.2 := by
  induction fields generalizing entries with
  | nil =>
    rw [← Except.ok.inj h]
    exact ⟨fun v hv => absurd hv not_mem_nil, rfl, fun entry hentry => absurd hentry not_mem_nil⟩
  | cons entry fields ih =>
    obtain ⟨key, value⟩ := entry
    rw [normalized_probabilities] at h
    obtain ⟨first, hfirst, h⟩ := bind_ok_iff.mp h
    obtain ⟨others, hothers, h⟩ := bind_ok_iff.mp h
    obtain ⟨hunit, hin⟩ := unit_interval_ok hfirst
    obtain ⟨hunits, hkeys, hins⟩ := ih hothers
    rw [← Except.ok.inj h, map_cons, map_cons, map_cons, hkeys]
    exact ⟨forall_mem_cons.mpr ⟨hunit, hunits⟩, rfl, forall_mem_cons.mpr ⟨hin, hins⟩⟩

theorem normalized_of_units (h : ∀ v ∈ fields.map snd, UnitNumber v) :
    ∃ entries, normalized_probabilities fields = .ok entries := by
  induction fields with
  | nil => exact ⟨[], rfl⟩
  | cons entry fields ih =>
    obtain ⟨key, value⟩ := entry
    rw [map_cons, forall_mem_cons] at h
    obtain ⟨first, hfirst⟩ := @unit_interval_of_unit
      "native response probabilities must be finite and between 0 and 1" value h.1
    obtain ⟨others, hothers⟩ := ih h.2
    refine ⟨(key, first) :: others, ?_⟩
    rw [normalized_probabilities, hfirst, hothers]
    rfl

theorem mapped_obj_iff :
    Mapped choices (some (.obj fields)) ↔ ∀ entry ∈ fields, entry.1 ∈ choices.map fst := by
  constructor
  · intro h
    obtain ⟨fields', hfields, hknown⟩ := h _ rfl
    rw [NativeValue.obj.inj hfields]
    exact hknown
  · intro h v hv
    exact ⟨fields, (Option.some.inj hv).symm, h⟩

theorem choice_probabilities_obj (fields : List (String × NativeValue)) :
    choice_probabilities choices (some (.obj fields)) = (do
      refuse_if (∃ entry ∈ fields, entry.1 ∉ choices.map fst)
        (invalid_output "native response probabilities contain an unknown choice")
      let normalized ← normalized_probabilities fields
      pure (some normalized)) := rfl

theorem choice_probabilities_not_mapping {v : NativeValue} (h : v.as_mapping = none) :
    choice_probabilities choices (some v) =
      .error (invalid_output "native response probabilities must be an object") := by
  rw [choice_probabilities, h]

theorem known_iff :
    (¬ ∃ entry ∈ fields, entry.1 ∉ choices.map fst) ↔ ∀ entry ∈ fields, entry.1 ∈ choices.map fst := by
  simp only [not_exists, not_and, not_not]

theorem untyped_probabilities_iff :
    Untyped (choice_probabilities choices probabilities) ↔
      Mapped choices probabilities ∧ Overflows (mapped_numbers probabilities) := by
  cases probabilities with
  | none => exact iff_of_false not_untyped_ok fun h => not_overflows_nil h.2
  | some v =>
    cases hmapping : v.as_mapping with
    | none =>
      rw [choice_probabilities_not_mapping hmapping]
      refine iff_of_false not_untyped_invalid fun h => ?_
      obtain ⟨fields, rfl, -⟩ := h.1 v rfl
      cases hmapping
    | some fields =>
      obtain rfl := as_mapping_some_iff.mp hmapping
      rw [choice_probabilities_obj, mapped_obj_iff, untyped_bind_iff, or_iff_right not_untyped_refuse]
      constructor
      · rintro ⟨_, hknown, hrest⟩
        refine ⟨known_iff.mp (refuse_if_ok_iff.mp hknown), untyped_normalized_iff.mp ?_⟩
        rcases untyped_bind_iff.mp hrest with hrest | ⟨_, -, hreturned⟩
        · exact hrest
        · exact absurd hreturned not_untyped_ok
      · rintro ⟨hknown, hover⟩
        exact ⟨(), refuse_if_ok_iff.mpr (known_iff.mpr hknown),
          untyped_bind_iff.mpr (Or.inl (untyped_normalized_iff.mpr hover))⟩

theorem choice_probabilities_ok {entries : Option (List (String × ℚ))}
    (h : choice_probabilities choices probabilities = .ok entries) :
    Mapped choices probabilities ∧ (∀ v ∈ mapped_numbers probabilities, UnitNumber v) ∧
      ∀ found ∈ entries, ∀ entry ∈ found, entry.1 ∈ choices.map fst ∧ InUnit entry.2 := by
  cases probabilities with
  | none =>
    rw [← Except.ok.inj h]
    refine ⟨fun v hv => ?_, fun v hv => absurd hv not_mem_nil, fun found hfound => ?_⟩
    · cases hv
    · cases hfound
  | some v =>
    cases hmapping : v.as_mapping with
    | none =>
      rw [choice_probabilities_not_mapping hmapping] at h
      cases h
    | some fields =>
      obtain rfl := as_mapping_some_iff.mp hmapping
      rw [choice_probabilities_obj] at h
      obtain ⟨_, hknown, h⟩ := bind_ok_iff.mp h
      obtain ⟨normalized, hnormalized, h⟩ := bind_ok_iff.mp h
      have hknown := known_iff.mp (refuse_if_ok_iff.mp hknown)
      obtain ⟨hunits, hkeys, hins⟩ := normalized_ok hnormalized
      refine ⟨mapped_obj_iff.mpr hknown, hunits, fun found hfound entry hentry => ?_⟩
      rw [← Except.ok.inj h] at hfound
      rw [← Option.some.inj hfound] at hentry
      refine ⟨?_, hins entry hentry⟩
      have hkey : entry.1 ∈ fields.map fst := hkeys ▸ mem_map_of_mem hentry
      obtain ⟨field, hfield, hsame⟩ := mem_map.mp hkey
      rw [← hsame]
      exact hknown field hfield

theorem choice_probabilities_of_units (hmapped : Mapped choices probabilities)
    (hunits : ∀ v ∈ mapped_numbers probabilities, UnitNumber v) :
    ∃ entries, choice_probabilities choices probabilities = .ok entries := by
  cases probabilities with
  | none => exact ⟨none, rfl⟩
  | some v =>
    obtain ⟨fields, rfl, hknown⟩ := hmapped v rfl
    obtain ⟨normalized, hnormalized⟩ := normalized_of_units hunits
    refine ⟨some normalized, ?_⟩
    rw [choice_probabilities_obj]
    exact bind_ok_iff.mpr ⟨(), refuse_if_ok_iff.mpr (known_iff.mpr hknown),
      bind_ok_iff.mpr ⟨normalized, hnormalized, rfl⟩⟩

variable {o : Option NativeValue}

theorem untyped_optional_iff : Untyped (optional_unit_interval message o) ↔ Overflows o.toList := by
  cases o with
  | none => exact iff_of_false not_untyped_ok not_overflows_nil
  | some v =>
    rw [Option.toList_some, overflows_cons_iff, or_iff_left fun h => not_overflows_nil h.2,
      ← @untyped_unit_interval_iff message, optional_unit_interval]
    cases unit_interval message v with
    | error e => exact untyped_error_iff.trans untyped_error_iff.symm
    | ok x => exact iff_of_false not_untyped_ok not_untyped_ok

theorem optional_ok {x : Option ℚ} (h : optional_unit_interval message o = .ok x) :
    (∀ v ∈ o.toList, UnitNumber v) ∧ ∀ y ∈ x, InUnit y := by
  cases o with
  | none =>
    rw [← Except.ok.inj h]
    exact ⟨fun v hv => absurd hv not_mem_nil, fun y hy => by cases hy⟩
  | some v =>
    rw [optional_unit_interval] at h
    cases hnumber : unit_interval message v with
    | error e =>
      rw [hnumber] at h
      cases h
    | ok y =>
      rw [hnumber] at h
      obtain ⟨hunit, hin⟩ := unit_interval_ok hnumber
      refine ⟨fun v' hv' => ?_, fun z hz => ?_⟩
      · rw [mem_singleton.mp hv']
        exact hunit
      · rw [← Except.ok.inj h] at hz
        rw [← Option.some.inj hz]
        exact hin

theorem optional_of_units {message : String} {o : Option NativeValue} (h : ∀ v ∈ o.toList, UnitNumber v) :
    ∃ x, optional_unit_interval message o = .ok x := by
  cases o with
  | none => exact ⟨none, rfl⟩
  | some v =>
    obtain ⟨x, hx⟩ := @unit_interval_of_unit message v (h v (mem_singleton_self v))
    refine ⟨some x, ?_⟩
    rw [optional_unit_interval, hx]
    rfl

/-- The checks of the numbers of an answer escape when these overflow. -/
theorem untyped_numbers_iff {chosen : String × List BundleStep} :
    Untyped (do
      let probabilities ← choice_probabilities choices
        ((answer.lookup "probabilities").or (response.lookup "probabilities"))
      let confidence ← optional_unit_interval
        "native response confidence must be finite and between 0 and 1"
        ((response.lookup "confidence").or (answer.lookup "confidence"))
      let probability ← optional_unit_interval
        "native response probability must be finite and between 0 and 1" (answer.lookup "probability")
      pure
        { choice_id := chosen.1
          proposals := chosen.2
          probabilities := probabilities
          probability := probability
          confidence := confidence
          native_response := response : ChoiceResult }) ↔
      Mapped choices ((answer.lookup "probabilities").or (response.lookup "probabilities")) ∧
        Overflows (checked_numbers response answer) := by
  rw [checked_numbers, overflows_append_iff, overflows_append_iff, untyped_bind_iff, untyped_probabilities_iff, and_or_left]
  refine or_congr_right ⟨?_, ?_⟩
  · rintro ⟨probabilities, hprobabilities, hrest⟩
    obtain ⟨hmapped, hunits, -⟩ := choice_probabilities_ok hprobabilities
    refine ⟨hmapped, hunits, ?_⟩
    rcases untyped_bind_iff.mp hrest with hconfidence | ⟨confidence, hconfidence, hrest⟩
    · exact Or.inl (untyped_optional_iff.mp hconfidence)
    · rcases untyped_bind_iff.mp hrest with hprobability | ⟨probability, -, hreturned⟩
      · exact Or.inr ⟨(optional_ok hconfidence).1, untyped_optional_iff.mp hprobability⟩
      · exact absurd hreturned not_untyped_ok
  · rintro ⟨hmapped, hunits, hrest⟩
    obtain ⟨probabilities, hprobabilities⟩ := choice_probabilities_of_units hmapped hunits
    refine ⟨probabilities, hprobabilities, untyped_bind_iff.mpr ?_⟩
    rcases hrest with hconfidence | ⟨hunits, hprobability⟩
    · exact Or.inl (untyped_optional_iff.mpr hconfidence)
    · obtain ⟨confidence, hconfidence⟩ := @optional_of_units
        "native response confidence must be finite and between 0 and 1" _ hunits
      exact Or.inr ⟨confidence, hconfidence, untyped_bind_iff.mpr (Or.inl (untyped_optional_iff.mpr hprobability))⟩

/-- The validation of a response stops with an untyped exception exactly when the response escapes. -/
theorem untyped_map_choice_iff : Untyped (map_choice payload choices) ↔ Escapes payload choices := by
  unfold map_choice Escapes
  rw [untyped_bind_iff, untyped_parse_response_iff]
  refine or_congr_right (exists_congr fun response => ?_)
  rw [parse_response_ok_iff, untyped_bind_iff, or_iff_right not_untyped_next_action, ← exists_and_left]
  refine exists_congr fun answer => and_congr_right fun _ => ?_
  rw [next_action_ok_iff, untyped_bind_iff, or_iff_right not_untyped_chosen_bundle]
  simp only [untyped_numbers_iff]
  constructor
  · rintro ⟨⟨hasked, htokens, htype, hfields⟩, chosen, hchosen, hmapped, hover⟩
    exact ⟨⟨hasked, htokens, htype, hfields, chosen_bundle_isOk_iff.mp ⟨chosen, hchosen⟩, hmapped⟩, hover⟩
  · rintro ⟨h, hover⟩
    obtain ⟨chosen, hchosen⟩ := chosen_bundle_isOk_iff.mpr h.known
    exact ⟨⟨h.asked, h.no_tokens, h.is_choice, h.supported⟩, chosen, hchosen, h.mapped, hover⟩

/-- What is returned for a response is well formed. -/
theorem map_choice_well_formed {result : ChoiceResult}
    (h : map_choice payload choices = .ok result) : WellFormedChoice choices result := by
  have hselects := map_choice_ok h
  obtain ⟨response, -, h⟩ := bind_ok_iff.mp h
  obtain ⟨answer, -, h⟩ := bind_ok_iff.mp h
  obtain ⟨chosen, -, h⟩ := bind_ok_iff.mp h
  obtain ⟨probabilities, hprobabilities, h⟩ := bind_ok_iff.mp h
  obtain ⟨confidence, hconfidence, h⟩ := bind_ok_iff.mp h
  obtain ⟨probability, hprobability, h⟩ := bind_ok_iff.mp h
  cases h
  exact ⟨hselects, (choice_probabilities_ok hprobabilities).2.2, (optional_ok hprobability).2, (optional_ok hconfidence).2⟩

/-- A validation that is typed is one that does not stop with an untyped exception. -/
theorem maps_typed_iff : MapsTyped payload choices ↔ ¬ Untyped (map_choice payload choices) := by
  unfold MapsTyped
  cases hmap : map_choice payload choices with
  | ok result => exact iff_of_true (Or.inl ⟨result, rfl, map_choice_well_formed hmap⟩) not_untyped_ok
  | error e =>
    rw [untyped_error_iff]
    constructor
    · rintro (⟨result, h, -⟩ | ⟨e', h, hcode⟩)
      · cases h
      · rw [Except.error.inj h]
        exact hcode
    · exact fun h => Or.inr ⟨e, rfl, h⟩

/-- What the client makes of a response to a request that is configured well. -/
theorem decide_response {criteria : List (String × String)} {payload : NativePayload}
    (hkeys : choices.map fst = criteria.map fst) (htexts : ∀ entry ∈ criteria, entry.2 ≠ "") :
    NativeSystemOneClient.decide criteria choices (.ok payload) =
      (map_choice payload choices).mapError (response_failure payload) := by
  rw [NativeSystemOneClient.decide, refuse_if, if_neg]
  · rfl
  · rintro (hother | ⟨entry, hentry, hempty⟩)
    · exact hother hkeys
    · exact htexts entry hentry hempty

/-- A typed validation is retained by the client. -/
theorem MapsTyped.retains (h : MapsTyped payload choices) : Retains payload choices := by
  intro criteria hkeys htexts
  rw [decide_response hkeys htexts]
  rcases h with ⟨result, hresult, hformed⟩ | ⟨e, he, hcode⟩
  · exact Or.inl ⟨result, mapError_ok_iff.mpr hresult, hformed⟩
  · refine Or.inr ⟨response_failure payload e, by rw [he]; rfl, ?_⟩
    rw [response_failure, if_neg hcode]
    exact ⟨hcode, rfl⟩

end Choices

/-- The validation of a response is total and typed, and the client keeps what is not accepted, exactly
when the response does not escape. -/
theorem native_response_typed_iff (payload : NativePayload) (choices : List (String × List BundleStep)) :
    (MapsTyped payload choices ∧ Retains payload choices) ↔ ¬ Escapes payload choices := by
  rw [← untyped_map_choice_iff, ← maps_typed_iff]
  exact ⟨fun h => h.1, fun h => ⟨h, h.retains⟩⟩

/-- A response that is confident beyond any float. -/
def huge_confidence : NativePayload :=
  .value (.obj [("answers", .obj [("next_action", .obj [("type", .str "choice"), ("choice", .str "no_action")])]),
    ("confidence", .int (10 ^ 400))])

/-- Such a response stops the validation with an untyped exception, and is not kept. -/
theorem huge_confidence_untyped :
    Untyped (map_choice huge_confidence [("no_action", [])]) ∧ ¬ MapsTyped huge_confidence [("no_action", [])] ∧
      ¬ Retains huge_confidence [("no_action", [])] := by
  have huntyped : Untyped (map_choice huge_confidence [("no_action", [])]) := by decide +kernel
  refine ⟨huntyped, fun h => maps_typed_iff.mp h huntyped, fun h => ?_⟩
  obtain ⟨e, he, hcode⟩ := huntyped
  have hdecide := @decide_response [("no_action", [])] [("no_action", "wait")] huge_confidence rfl (by decide)
  rw [he] at hdecide
  rcases h [("no_action", "wait")] rfl (by decide) with ⟨result, hresult, -⟩ | ⟨failure, hfailure, htyped, -⟩
  · rw [hdecide] at hresult
    cases hresult
  · rw [hdecide] at hfailure
    refine htyped ?_
    rw [← Except.error.inj hfailure, response_failure, if_pos hcode]
    exact hcode

end MininetAi
