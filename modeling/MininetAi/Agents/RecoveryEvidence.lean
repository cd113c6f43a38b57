/-
The recovery evidence of a bounded decision (`_eligibility_signals` and
`_recheck_recovery_evidence` of `mininet_ai/agents/bounded.py`).

Before a recovery is admitted its observations are read again. The path probes then have
to say for every target, at any depth, that the recovery is eligible, and nothing else: a
signal that is no boolean, one that is missing and one that is false all refuse it. The
search calls itself at every level, so it raises a `RecursionError` where a value nests deeper
than the interpreter has room for; nothing catches it, and nothing is reported.

Times are rational seconds. The substrate's observations and the readings of the clock
are the environment's.
-/
import Mathlib.Algebra.Order.Ring.Unbundled.Rat
import MininetAi.Lib.Results
import MininetAi.Specification.Models

set_option autoImplicit false

namespace MininetAi

open Option Except

open List

/-! ## Signals -/

/-- The booleans under the key `eligible`, and whether it holds something else anywhere. -/
structure EligibilitySignals where
  found : List Bool := []
  malformed : Bool := false
  deriving DecidableEq

/-- `signals.extend(...)` and `malformed or ...`. -/
def EligibilitySignals.extend (s t : EligibilitySignals) : EligibilitySignals where
  found := s.found ++ t.found
  malformed := s.malformed || t.malformed

/-- The signals of two parts of a value, when both are found. -/
def extended (here rest : Option EligibilitySignals) : Option EligibilitySignals :=
  here.bind fun s => rest.map s.extend

variable {here rest : Option EligibilitySignals}

theorem extended_eq_some_iff {u : EligibilitySignals} :
    extended here rest = some u ↔ ∃ s t, here = some s ∧ rest = some t ∧ s.extend t = u := by
  cases here <;> cases rest <;> simp [extended]

theorem extended_isSome :
    (extended here rest).isSome = true ↔ here.isSome = true ∧ rest.isSome = true := by
  cases here <;> cases rest <;> simp [extended]

/-- The boolean a value is. -/
def JsonValue.as_bool : JsonValue → Option Bool
  | .bool b => some b
  | _ => none

mutual

/-- `_eligibility_signals`, with room for so many calls in each other; `none` is a
`RecursionError`. -/
def eligibility_signals : ℕ → JsonValue → Option EligibilitySignals
  | 0, _ => none
  | room + 1, .obj fields => signals_of_fields room fields
  | room + 1, .arr items => signals_of_items room items
  | _ + 1, .null => some {}
  | _ + 1, .bool _ => some {}
  | _ + 1, .num _ => some {}
  | _ + 1, .str _ => some {}

/-- The loop over a mapping. -/
def signals_of_fields : ℕ → List (String × JsonValue) → Option EligibilitySignals
  | _, [] => some {}
  | room, (key, child) :: fields =>
    let nested := eligibility_signals room child
    let here :=
      if key = "eligible" then
        child.as_bool.elim (nested.map fun s => { s with malformed := true }) fun b =>
          some { found := [b] }
      else nested
    extended here (signals_of_fields room fields)

/-- The loop over a sequence. -/
def signals_of_items : ℕ → List JsonValue → Option EligibilitySignals
  | _, [] => some {}
  | room, child :: items => extended (eligibility_signals room child) (signals_of_items room items)

end

mutual

/-- How many calls in each other a value takes. -/
def JsonValue.call_depth : JsonValue → ℕ
  | .obj fields => depth_of_fields fields + 1
  | .arr items => depth_of_items items + 1
  | .null => 1
  | .bool _ => 1
  | .num _ => 1
  | .str _ => 1

/-- A boolean under `eligible` takes no call. -/
def depth_of_fields : List (String × JsonValue) → ℕ
  | [] => 0
  | (key, child) :: fields =>
    max (if key = "eligible" ∧ child.as_bool.isSome = true then 0 else child.call_depth)
      (depth_of_fields fields)

def depth_of_items : List JsonValue → ℕ
  | [] => 0
  | child :: items => max child.call_depth (depth_of_items items)

end

/-- The key `eligible` occurs below a value, at any depth, and holds `w`. -/
inductive EligibleBelow : JsonValue → JsonValue → Prop
  | key {fields : List (String × JsonValue)} {w : JsonValue} (h : ("eligible", w) ∈ fields) :
      EligibleBelow (.obj fields) w
  | field {fields : List (String × JsonValue)} {key : String} {child w : JsonValue}
      (h : (key, child) ∈ fields) (hchild : EligibleBelow child w) : EligibleBelow (.obj fields) w
  | item {items : List JsonValue} {child w : JsonValue} (h : child ∈ items)
      (hchild : EligibleBelow child w) : EligibleBelow (.arr items) w

/-- The signals are those of the occurrences that `P` describes. -/
structure SignalsOf (s : EligibilitySignals) (P : JsonValue → Prop) : Prop where
  found_iff : ∀ b, b ∈ s.found ↔ P (.bool b)
  malformed_iff : s.malformed = true ↔ ∃ w, P w ∧ w.as_bool = none

variable {w child : JsonValue} {P : JsonValue → Prop} {sources : List String}

theorem JsonValue.as_bool_eq_some {b : Bool} : w.as_bool = some b ↔ w = .bool b := by
  cases w <;> simp [JsonValue.as_bool]

variable {s : EligibilitySignals} {Q : JsonValue → Prop} {name source : String}
  {targets : List String}

theorem SignalsOf.congr (h : SignalsOf s P) (hiff : ∀ w, P w ↔ Q w) : SignalsOf s Q := by
  have heq : P = Q := funext fun w => propext (hiff w)
  rw [← heq]
  exact h

theorem SignalsOf.empty (h : ∀ w, ¬ P w) : SignalsOf {} P := by
  refine ⟨fun b => iff_of_false not_mem_nil (h _), ?_⟩
  exact iff_of_false Bool.false_ne_true fun ⟨w, hw, _⟩ => h w hw

theorem SignalsOf.extend {t : EligibilitySignals} (hs : SignalsOf s P) (ht : SignalsOf t Q) :
    SignalsOf (s.extend t) fun w => P w ∨ Q w := by
  refine ⟨fun b => ?_, ?_⟩
  · rw [EligibilitySignals.extend, mem_append, hs.found_iff, ht.found_iff]
  · have hor : (s.extend t).malformed = true ↔ s.malformed = true ∨ t.malformed = true := by
      rw [EligibilitySignals.extend, Bool.or_eq_true]
    rw [hor, hs.malformed_iff, ht.malformed_iff]
    constructor
    · rintro (⟨w, hw, hnone⟩ | ⟨w, hw, hnone⟩)
      · exact ⟨w, Or.inl hw, hnone⟩
      · exact ⟨w, Or.inr hw, hnone⟩
    · rintro ⟨w, hw | hw, hnone⟩
      · exact Or.inl ⟨w, hw, hnone⟩
      · exact Or.inr ⟨w, hw, hnone⟩

/-- A field under `eligible`: its value is an occurrence too. -/
theorem SignalsOf.under_key (hbool : child.as_bool = none) (h : SignalsOf s (EligibleBelow child)) :
    SignalsOf { s with malformed := true } fun w => w = child ∨ EligibleBelow child w := by
  refine ⟨fun b => ?_, iff_of_true rfl ⟨child, Or.inl rfl, hbool⟩⟩
  rw [h.found_iff]
  refine (or_iff_right ?_).symm
  intro heq
  rw [← heq] at hbool
  cases hbool

/-- A boolean under `eligible`: it is the only occurrence. -/
theorem SignalsOf.boolean (b : Bool) :
    SignalsOf { found := [b] } fun w => w = .bool b ∨ EligibleBelow (.bool b) w := by
  have hnothing : ∀ w, ¬ EligibleBelow (.bool b) w := by
    intro w hw
    cases hw
  refine ⟨fun b' => ?_, ?_⟩
  · rw [mem_singleton, or_iff_left (hnothing _), JsonValue.bool.injEq]
  · refine iff_of_false Bool.false_ne_true ?_
    rintro ⟨w, rfl | hw, hnone⟩
    · cases hnone
    · exact hnothing w hw

theorem eligible_below_cons {key : String} {fields : List (String × JsonValue)} :
    EligibleBelow (.obj ((key, child) :: fields)) w ↔
      (key = "eligible" ∧ w = child ∨ EligibleBelow child w) ∨ EligibleBelow (.obj fields) w := by
  constructor
  · intro h
    cases h with
    | key h =>
      rcases mem_cons.mp h with heq | h
      · cases heq
        exact Or.inl (Or.inl ⟨rfl, rfl⟩)
      · exact Or.inr (.key h)
    | field h hchild =>
      rcases mem_cons.mp h with heq | h
      · cases heq
        exact Or.inl (Or.inr hchild)
      · exact Or.inr (.field h hchild)
  · rintro ((⟨rfl, rfl⟩ | hchild) | h)
    · exact .key mem_cons_self
    · exact .field mem_cons_self hchild
    · cases h with
      | key h => exact .key (mem_cons_of_mem _ h)
      | field h hchild => exact .field (mem_cons_of_mem _ h) hchild

theorem eligible_below_item {items : List JsonValue} : EligibleBelow (.arr (child :: items)) w ↔
      EligibleBelow child w ∨ EligibleBelow (.arr items) w := by
  constructor
  · intro h
    cases h with
    | item h hchild =>
      rcases mem_cons.mp h with rfl | h
      · exact Or.inl hchild
      · exact Or.inr (.item h hchild)
  · rintro (hchild | h)
    · exact .item mem_cons_self hchild
    · cases h with
      | item h hchild => exact .item (mem_cons_of_mem _ h) hchild

mutual

/-- The signals of a value are its occurrences of the key. -/
theorem eligibility_signals_of : ∀ (room : ℕ) (value : JsonValue) {s : EligibilitySignals},
    eligibility_signals room value = some s → SignalsOf s (EligibleBelow value)
  | 0, _, _, h => by
      rw [eligibility_signals] at h
      cases h
  | room + 1, .obj fields, _, h => signals_of_fields_of room fields h
  | room + 1, .arr items, _, h => signals_of_items_of room items h
  | _ + 1, .null, _, h => by
      cases h
      exact SignalsOf.empty fun w h => by cases h
  | _ + 1, .bool _, _, h => by
      cases h
      exact SignalsOf.empty fun w h => by cases h
  | _ + 1, .num _, _, h => by
      cases h
      exact SignalsOf.empty fun w h => by cases h
  | _ + 1, .str _, _, h => by
      cases h
      exact SignalsOf.empty fun w h => by cases h

theorem signals_of_fields_of : ∀ (room : ℕ) (fields : List (String × JsonValue))
    {s : EligibilitySignals}, signals_of_fields room fields = some s →
      SignalsOf s (EligibleBelow (.obj fields))
  | _, [], _, h => by
      cases h
      refine SignalsOf.empty fun w h => ?_
      cases h with
      | key h => exact absurd h not_mem_nil
      | field h _ => exact absurd h not_mem_nil
  | room, (key, child) :: fields, _, h => by
      rw [signals_of_fields] at h
      obtain ⟨here, rest, hhere, hrest, rfl⟩ := extended_eq_some_iff.mp h
      have hrest := signals_of_fields_of room fields hrest
      by_cases hkey : key = "eligible"
      · rw [if_pos hkey] at hhere
        have hchild : SignalsOf here fun w => w = child ∨ EligibleBelow child w := by
          cases hbool : child.as_bool with
          | some b =>
            rw [hbool] at hhere
            cases hhere
            rw [JsonValue.as_bool_eq_some.mp hbool]
            exact SignalsOf.boolean b
          | none =>
            rw [hbool] at hhere
            obtain ⟨nested, hnested, rfl⟩ := Option.map_eq_some_iff.mp hhere
            exact (eligibility_signals_of room child hnested).under_key hbool
        refine (hchild.extend hrest).congr fun w => ?_
        rw [eligible_below_cons, and_iff_right hkey]
      · rw [if_neg hkey] at hhere
        refine ((eligibility_signals_of room child hhere).extend hrest).congr fun w => ?_
        have hnot : ¬ (key = "eligible" ∧ w = child) := fun h => hkey h.1
        rw [eligible_below_cons, or_iff_right hnot]

theorem signals_of_items_of : ∀ (room : ℕ) (items : List JsonValue) {s : EligibilitySignals},
    signals_of_items room items = some s → SignalsOf s (EligibleBelow (.arr items))
  | _, [], _, h => by
      cases h
      refine SignalsOf.empty fun w h => ?_
      cases h with
      | item h _ => exact absurd h not_mem_nil
  | room, child :: items, _, h => by
      rw [signals_of_items] at h
      obtain ⟨here, rest, hhere, hrest, rfl⟩ := extended_eq_some_iff.mp h
      refine ((eligibility_signals_of room child hhere).extend
        (signals_of_items_of room items hrest)).congr fun w => ?_
      rw [eligible_below_item]

end

mutual

/-- The search returns exactly when there is room for its calls. -/
theorem eligibility_signals_isSome : ∀ (room : ℕ) (value : JsonValue),
    (eligibility_signals room value).isSome = true ↔ value.call_depth ≤ room
  | 0, value => by
      rw [eligibility_signals]
      refine iff_of_false Bool.false_ne_true ?_
      cases value <;> exact Nat.not_succ_le_zero _
  | room + 1, .obj fields => (signals_of_fields_isSome room fields).trans Nat.succ_le_succ_iff.symm
  | room + 1, .arr items => (signals_of_items_isSome room items).trans Nat.succ_le_succ_iff.symm
  | room + 1, .null => iff_of_true rfl (Nat.le_add_left 1 room)
  | room + 1, .bool _ => iff_of_true rfl (Nat.le_add_left 1 room)
  | room + 1, .num _ => iff_of_true rfl (Nat.le_add_left 1 room)
  | room + 1, .str _ => iff_of_true rfl (Nat.le_add_left 1 room)

theorem signals_of_fields_isSome : ∀ (room : ℕ) (fields : List (String × JsonValue)),
    (signals_of_fields room fields).isSome = true ↔ depth_of_fields fields ≤ room
  | room, [] => iff_of_true rfl (Nat.zero_le room)
  | room, (key, child) :: fields => by
      have hrest := signals_of_fields_isSome room fields
      have hchild := eligibility_signals_isSome room child
      rw [signals_of_fields, depth_of_fields, max_le_iff, ← hrest]
      refine extended_isSome.trans (and_congr_left fun _ => ?_)
      by_cases hkey : key = "eligible"
      · rw [if_pos hkey]
        cases child.as_bool with
        | some b =>
          rw [if_pos ⟨hkey, rfl⟩]
          exact iff_of_true rfl (Nat.zero_le room)
        | none =>
          rw [elim_none, isSome_map, hchild, if_neg fun h => Bool.false_ne_true h.2]
      · rw [if_neg hkey, if_neg fun h => hkey h.1]
        exact hchild

theorem signals_of_items_isSome : ∀ (room : ℕ) (items : List JsonValue),
    (signals_of_items room items).isSome = true ↔ depth_of_items items ≤ room
  | room, [] => iff_of_true rfl (Nat.zero_le room)
  | room, child :: items => by
      rw [signals_of_items, depth_of_items, max_le_iff, ← eligibility_signals_isSome room child,
        ← signals_of_items_isSome room items]
      exact extended_isSome

end

/-- A value speaks for the recovery: the key occurs below it, and holds `true` throughout. -/
def SpeaksFor (value : JsonValue) : Prop :=
  (∃ w, EligibleBelow value w) ∧ ∀ w, EligibleBelow value w → w = .bool true

theorem SignalsOf.speaks_for_iff {value : JsonValue} (hsignals : SignalsOf s (EligibleBelow value)) :
    SpeaksFor value ↔ s.malformed = false ∧ s.found ≠ [] ∧ false ∉ s.found := by
  constructor
  · rintro ⟨⟨w, hw⟩, hall⟩
    refine ⟨?_, ?_, ?_⟩
    · rw [← Bool.not_eq_true, hsignals.malformed_iff]
      rintro ⟨w', hw', hnone⟩
      rw [hall w' hw'] at hnone
      cases hnone
    · rw [hall w hw] at hw
      exact ne_nil_of_mem ((hsignals.found_iff true).mpr hw)
    · rw [hsignals.found_iff]
      intro hfalse
      cases hall _ hfalse
  · rintro ⟨hwell, hsome, hfalse⟩
    have hbools : ∀ w, EligibleBelow value w → w = .bool true := by
      intro w hw
      have hbool : w.as_bool ≠ none := by
        intro hnone
        rw [hsignals.malformed_iff.mpr ⟨w, hw, hnone⟩] at hwell
        cases hwell
      obtain ⟨b, hb⟩ := ne_none_iff_exists'.mp hbool
      rw [JsonValue.as_bool_eq_some] at hb
      rw [hb] at hw ⊢
      cases b with
      | true => rfl
      | false => exact absurd ((hsignals.found_iff false).mpr hw) hfalse
    obtain ⟨b, hb⟩ := exists_mem_of_ne_nil _ hsome
    exact ⟨⟨_, (hsignals.found_iff b).mp hb⟩, hbools⟩

/-! ## Observations -/

structure ObservationQuery where
  name : String
  targets : List String
  parameters : List (String × JsonValue) := []
  names_its_targets : name ≠ "" ∧ targets ≠ []
  deriving DecidableEq

structure ObservationResult where
  run_id : String
  query : ObservationQuery
  observed_at : ℚ
  values : List (String × JsonValue) := []
  deriving DecidableEq

/-- An observation with the reading of the clock that follows it. -/
structure EvidenceReading where
  observed : ObservationResult
  now : ℚ
  deriving DecidableEq

/-- How old an observation is. -/
def EvidenceReading.age (reading : EvidenceReading) : ℚ := reading.now - reading.observed.observed_at

/-- `observe` of a substrate; an exception is its text. -/
abbrev ObserveCall := String → ObservationQuery → Except String EvidenceReading

/-- The part of an instance that the evidence is bound by. -/
structure BoundAgent where
  decision_inputs : List (String × String)
  targets : List String

/-- `ObservationQuery(name=..., targets=...)`. -/
def observation_query (name : String) (targets : List String) : Except String ObservationQuery :=
  if h : name ≠ "" ∧ targets ≠ [] then
    .ok { name := name, targets := targets, names_its_targets := h }
  else .error "validation error for ObservationQuery"

/-- Why a refresh ends early. -/
inductive RefreshStop where
  | failed (message : String)
  | stale (source : String)
  deriving DecidableEq

/-- What an exception in the loop becomes. -/
def RefreshStop.of_error {α : Type} : Except String α → Except RefreshStop α
  | .error message => .error (.failed message)
  | .ok a => .ok a

/-- One iteration of the refresh. -/
def read_evidence (observe : ObserveCall) (run_id : String) (targets : List String)
    (max_age : ℚ) (source : String) : Except RefreshStop EvidenceReading := do
  let query ← RefreshStop.of_error (observation_query source targets)
  let reading ← RefreshStop.of_error (observe run_id query)
  refuse_if (reading.observed.run_id ≠ run_id ∨ reading.observed.query ≠ query)
    (.failed (worded "observation " [quoted source, " identity mismatch"]))
  refuse_if (reading.age < 0 ∨ max_age < reading.age) (.stale source)
  pure reading

/-- `dict.fromkeys`: the names in the order of their first occurrence. -/
def from_keys : List String → List String
  | [] => []
  | name :: names => name :: (from_keys names).filter (· ≠ name)

theorem mem_from_keys {names : List String} : name ∈ from_keys names ↔ name ∈ names := by
  induction names with
  | nil => exact Iff.rfl
  | cons first names ih =>
    rw [from_keys, mem_cons, mem_cons, mem_filter, ih, decide_eq_true_iff]
    by_cases heq : name = first
    · exact iff_of_true (Or.inl heq) (Or.inl heq)
    · rw [or_iff_right heq, or_iff_right heq, and_iff_left heq]

/-- The refresh: what has been read, and why it ended early if it did. -/
def refresh (read : String → Except RefreshStop EvidenceReading) :
    List String → List (String × EvidenceReading) →
    List (String × EvidenceReading) × Option RefreshStop
  | [], refreshed => (refreshed, none)
  | source :: sources, refreshed => match read source with
    | .error stop => (refreshed, some stop)
    | .ok reading => refresh read sources (refreshed ++ [(source, reading)])

/-! ## The verdict -/

/-- What `_recheck_recovery_evidence` reports. -/
structure RecoveryEvidence where
  eligible : Bool
  refusal_code : String
  message : String
  observations : List (String × EvidenceReading)
  eligibility_signals : List Bool := []
  malformed_targets : List String := []
  missing_targets : List String := []
  deriving DecidableEq

/-- The values of the path probes. -/
def probe_values (agent : BoundAgent) (refreshed : List (String × EvidenceReading)) :
    List (String × JsonValue) :=
  ((agent.decision_inputs.lookup "pathProbes").bind fun source => refreshed.lookup source).elim []
    fun reading => reading.observed.values

/-- The signals at a target; there are none where the probes have no value. -/
def signals_at (room : ℕ) (values : List (String × JsonValue)) (target : String) :
    Option EligibilitySignals :=
  (values.lookup target).elim (some {}) (eligibility_signals room)

/-- The verdict on the signals at the targets, with one list for each accumulator of the loop. -/
def evidence_verdict (agent : BoundAgent) (refreshed : List (String × EvidenceReading))
    (signals : String → EligibilitySignals) : RecoveryEvidence :=
  let malformed := agent.targets.filter fun target => (signals target).malformed
  let missing := agent.targets.filter fun target => (signals target).found = []
  let eligibility := (from_keys (agent.targets.filter fun target =>
    ((probe_values agent refreshed).lookup target).isSome)).flatMap fun target => (signals target).found
  if malformed ≠ [] then
    { eligible := false
      refusal_code := "malformed-eligibility"
      message := "current recovery observations contain malformed eligibility evidence"
      observations := refreshed
      eligibility_signals := eligibility
      malformed_targets := malformed }
  else if missing ≠ [] then
    { eligible := false
      refusal_code := "missing-eligibility"
      message := "current recovery observations omit required eligibility evidence"
      observations := refreshed
      eligibility_signals := eligibility
      missing_targets := missing }
  else if true ∈ eligibility ∧ false ∈ eligibility then
    { eligible := false
      refusal_code := "conflicting-eligibility"
      message := "current recovery observations contain conflicting eligibility signals"
      observations := refreshed
      eligibility_signals := eligibility }
  else if false ∈ eligibility then
    { eligible := false
      refusal_code := "ineligible-evidence"
      message := "current recovery observations report ineligible retry evidence"
      observations := refreshed
      eligibility_signals := eligibility }
  else
    { eligible := true
      refusal_code := ""
      message := "fresh current recovery evidence permits retry admission"
      observations := refreshed
      eligibility_signals := eligibility }

/-- The part after the refresh. Its loop raises at the first target whose value takes too many
calls. -/
def judge_evidence (room : ℕ) (agent : BoundAgent) (refreshed : List (String × EvidenceReading)) :
    Option RecoveryEvidence :=
  let signals := signals_at room (probe_values agent refreshed)
  if ∀ target ∈ agent.targets, (signals target).isSome = true then
    some (evidence_verdict agent refreshed fun target => (signals target).getD {})
  else none

/-- Evidence that cannot be read again. -/
def evidence_unavailable (message : String) (refreshed : List (String × EvidenceReading)) :
    RecoveryEvidence where
  eligible := false
  refusal_code := "evidence-unavailable"
  message := message
  observations := refreshed

/-- `_recheck_recovery_evidence`; `none` is a `RecursionError`. -/
def recheck_recovery_evidence (room : ℕ) (agent : BoundAgent) (substrate : Option ObserveCall)
    (max_age : ℚ) (run_id : String) (timeout_seconds : ℚ) : Option RecoveryEvidence :=
  match substrate with
  | none => some (evidence_unavailable
      "recovery evidence cannot be refreshed before admission" [])
  | some observe =>
    if timeout_seconds ≤ 0 then
      some (evidence_unavailable "recovery evidence cannot be refreshed before admission" [])
    else match refresh (read_evidence observe run_id agent.targets max_age)
        (from_keys (agent.decision_inputs.map Prod.snd)) [] with
      | (refreshed, some (.stale source)) => some
        { eligible := false
          refusal_code := "stale-evidence"
          message := worded "recovery observation " [quoted source, " is stale or future-dated"]
          observations := refreshed }
      | (refreshed, some (.failed message)) =>
        some (evidence_unavailable (worded "recovery evidence refresh failed: " [message]) refreshed)
      | (refreshed, none) => judge_evidence room agent refreshed

/-! ## Eligibility -/

/-- A reading of a source that is the run's, answers its query and is fresh. -/
structure Confirmed (observe : ObserveCall) (run_id : String) (targets : List String)
    (max_age : ℚ) (source : String) (reading : EvidenceReading) : Prop where
  returned : observe run_id reading.observed.query = .ok reading
  run_eq : reading.observed.run_id = run_id
  name_eq : reading.observed.query.name = source
  targets_eq : reading.observed.query.targets = targets
  parameters_eq : reading.observed.query.parameters = []
  not_future : 0 ≤ reading.age
  not_stale : reading.age ≤ max_age

theorem of_error_ok_iff {α : Type} {x : Except String α} {a : α} :
    RefreshStop.of_error x = .ok a ↔ x = .ok a := by
  cases x with
  | error message => exact iff_of_false nofun nofun
  | ok b => exact ⟨fun h => by cases h; rfl, fun h => by cases h; rfl⟩

theorem observation_query_ok_iff {query : ObservationQuery} :
    observation_query name targets = .ok query ↔
      query.name = name ∧ query.targets = targets ∧ query.parameters = [] := by
  unfold observation_query
  split
  · rename_i h
    constructor
    · intro heq
      cases heq
      exact ⟨rfl, rfl, rfl⟩
    · rintro ⟨rfl, rfl, hparameters⟩
      cases query
      cases hparameters
      rfl
  · rename_i h
    refine iff_of_false nofun ?_
    rintro ⟨rfl, rfl, -⟩
    exact h query.names_its_targets

/-- One iteration passes exactly with a confirmed reading. -/
theorem read_evidence_ok_iff {observe : ObserveCall} {run_id : String} {max_age : ℚ}
    {reading : EvidenceReading} :
    read_evidence observe run_id targets max_age source = .ok reading ↔
      Confirmed observe run_id targets max_age source reading := by
  constructor
  · intro h
    obtain ⟨query, hquery, h⟩ := bind_ok_iff.mp h
    obtain ⟨found, hfound, h⟩ := bind_ok_iff.mp h
    obtain ⟨_, hidentity, h⟩ := bind_ok_iff.mp h
    obtain ⟨_, hfresh, h⟩ := bind_ok_iff.mp h
    cases h
    obtain ⟨hrun, hsame⟩ := not_or.mp (refuse_if_ok_iff.mp hidentity)
    obtain ⟨hfuture, hstale⟩ := not_or.mp (refuse_if_ok_iff.mp hfresh)
    have heq := not_not.mp hsame
    subst heq
    obtain ⟨hname, htargets, hparameters⟩ := observation_query_ok_iff.mp (of_error_ok_iff.mp hquery)
    exact ⟨of_error_ok_iff.mp hfound, not_not.mp hrun, hname, htargets, hparameters,
      not_lt.mp hfuture, not_lt.mp hstale⟩
  · intro h
    have hquery := observation_query_ok_iff.mpr ⟨h.name_eq, h.targets_eq, h.parameters_eq⟩
    have hidentity : ¬ (reading.observed.run_id ≠ run_id ∨
        reading.observed.query ≠ reading.observed.query) :=
      not_or.mpr ⟨not_not.mpr h.run_eq, not_not.mpr rfl⟩
    have hfresh : ¬ (reading.age < 0 ∨ max_age < reading.age) :=
      not_or.mpr ⟨not_lt.mpr h.not_future, not_lt.mpr h.not_stale⟩
    refine bind_ok_iff.mpr ⟨_, of_error_ok_iff.mpr hquery, ?_⟩
    refine bind_ok_iff.mpr ⟨_, of_error_ok_iff.mpr h.returned, ?_⟩
    refine bind_ok_iff.mpr ⟨(), refuse_if_ok_iff.mpr hidentity, ?_⟩
    exact bind_ok_iff.mpr ⟨(), refuse_if_ok_iff.mpr hfresh, rfl⟩

variable {refreshed : List (String × EvidenceReading)}

variable {read : String → Except RefreshStop EvidenceReading}

/-- A refresh that reads every source keeps the readings under their sources. -/
theorem refresh_complete (h : (refresh read sources refreshed).2 = none) :
    (∀ source ∈ sources, ∃ reading, read source = .ok reading) ∧
      (refresh read sources refreshed).1 = refreshed ++ sources.filterMap fun source =>
        (read source).toOption.map fun reading => (source, reading) := by
  induction sources generalizing refreshed with
  | nil => exact ⟨fun _ hmem => absurd hmem not_mem_nil, (append_nil _).symm⟩
  | cons source sources ih =>
    rw [refresh] at h ⊢
    cases hread : read source with
    | error stop =>
      rw [hread] at h
      cases h
    | ok reading =>
      rw [hread] at h
      simp only at h ⊢
      obtain ⟨hall, hlist⟩ := ih h
      refine ⟨fun other hother => ?_, ?_⟩
      · rcases mem_cons.mp hother with rfl | hother
        · exact ⟨reading, hread⟩
        · exact hall other hother
      · rw [hlist, append_assoc, filterMap_cons, hread]
        rfl

/-- A refresh ends early exactly at a source that cannot be read. -/
theorem refresh_none_iff : (refresh read sources refreshed).2 = none ↔
      ∀ source ∈ sources, ∃ reading, read source = .ok reading := by
  refine ⟨fun h => (refresh_complete h).1, fun h => ?_⟩
  induction sources generalizing refreshed with
  | nil => rfl
  | cons source sources ih =>
    obtain ⟨reading, hread⟩ := h source mem_cons_self
    rw [refresh, hread]
    exact ih fun other hother => h other (mem_cons_of_mem _ hother)

/-- Looking a source up among the readings reads it. -/
theorem lookup_readings {f : String → Option EvidenceReading} (hmem : source ∈ sources) :
    (sources.filterMap fun name => (f name).map fun reading => (name, reading)).lookup source =
      f source := by
  induction sources with
  | nil => exact absurd hmem not_mem_nil
  | cons first sources ih =>
    rw [filterMap_cons]
    by_cases heq : source = first
    · subst heq
      cases hf : f source with
      | none =>
        simp only [map_none]
        by_cases hin : source ∈ sources
        · rw [ih hin, hf]
        · refine lookup_eq_none_iff.mpr fun entry hentry => ?_
          obtain ⟨name, hname, hsome⟩ := mem_filterMap.mp hentry
          obtain ⟨reading, -, rfl⟩ := map_eq_some_iff.mp hsome
          have hne : source ≠ name := fun h => hin (h ▸ hname)
          exact bne_iff_ne.mpr hne
      | some reading => simp only [map_some, lookup_cons_self]
    · have hin := (mem_cons.mp hmem).resolve_left heq
      cases hf : f first with
      | none => exact ih hin
      | some reading =>
        simp only [map_some]
        rw [lookup_cons, beq_false_of_ne heq]
        exact ih hin

variable {room : ℕ} {agent : BoundAgent} {values : List (String × JsonValue)}

theorem signals_at_isSome {target : String} : (signals_at room values target).isSome = true ↔
      ∀ value, values.lookup target = some value → value.call_depth ≤ room := by
  rw [signals_at]
  cases values.lookup target with
  | none => exact iff_of_true rfl fun _ h => by cases h
  | some value =>
    rw [elim_some, eligibility_signals_isSome]
    exact ⟨fun h _ heq => (by cases heq; exact h), fun h => h value rfl⟩

theorem signals_at_speaks {target : String} (h : signals_at room values target = some s) :
    (∃ value, values.lookup target = some value ∧ SpeaksFor value) ↔
      s.malformed = false ∧ s.found ≠ [] ∧ false ∉ s.found := by
  rw [signals_at] at h
  cases hlookup : values.lookup target with
  | none =>
    rw [hlookup] at h
    cases h
    exact iff_of_false (fun ⟨_, h, _⟩ => by cases h) fun h => h.2.1 rfl
  | some value =>
    rw [hlookup] at h
    rw [← (eligibility_signals_of room value h).speaks_for_iff]
    exact ⟨fun ⟨_, heq, h⟩ => (by cases heq; exact h), fun h => ⟨value, rfl, h⟩⟩

/-- The verdict is eligible exactly when the probes speak for every target. -/
theorem evidence_verdict_iff {signals : String → EligibilitySignals}
    (hsignals : ∀ target ∈ agent.targets,
      signals_at room (probe_values agent refreshed) target = some (signals target)) :
    (evidence_verdict agent refreshed signals).eligible = true ↔ ∀ target ∈ agent.targets,
      ∃ value, (probe_values agent refreshed).lookup target = some value ∧ SpeaksFor value := by
  have hvalue := fun target hmem => signals_at_speaks (hsignals target hmem)
  -- a target with a signal has a value
  have hfalse : (∃ target ∈ agent.targets, false ∈ (signals target).found) ↔
      false ∈ (from_keys (agent.targets.filter fun target =>
        ((probe_values agent refreshed).lookup target).isSome)).flatMap fun target =>
          (signals target).found := by
    rw [mem_flatMap]
    refine exists_congr fun target => ?_
    rw [mem_from_keys, mem_filter]
    constructor
    · rintro ⟨hmem, hfound⟩
      refine ⟨⟨hmem, ?_⟩, hfound⟩
      have hat := hsignals target hmem
      rw [signals_at] at hat
      cases hlookup : (probe_values agent refreshed).lookup target with
      | none =>
        rw [hlookup, elim_none, some.injEq] at hat
        rw [← hat] at hfound
        exact absurd hfound not_mem_nil
      | some value => rfl
    · rintro ⟨⟨hmem, -⟩, hfound⟩
      exact ⟨hmem, hfound⟩
  unfold evidence_verdict
  simp only
  split
  · rename_i hmalformed
    refine iff_of_false Bool.false_ne_true fun h => hmalformed ?_
    refine filter_eq_nil_iff.mpr fun target hmem => ?_
    rw [((hvalue target hmem).mp (h target hmem)).1]
    exact Bool.false_ne_true
  rename_i hwell
  split
  · rename_i hmissing
    refine iff_of_false Bool.false_ne_true fun h => hmissing ?_
    refine filter_eq_nil_iff.mpr fun target hmem hempty => ?_
    exact ((hvalue target hmem).mp (h target hmem)).2.1 (of_decide_eq_true hempty)
  rename_i hpresent
  split
  · rename_i hboth
    refine iff_of_false Bool.false_ne_true fun h => ?_
    obtain ⟨target, hmem, hin⟩ := hfalse.mpr hboth.2
    exact ((hvalue target hmem).mp (h target hmem)).2.2 hin
  split
  · rename_i hin
    refine iff_of_false Bool.false_ne_true fun h => ?_
    obtain ⟨target, hmem, hin⟩ := hfalse.mpr hin
    exact ((hvalue target hmem).mp (h target hmem)).2.2 hin
  · rename_i hnone
    refine iff_of_true rfl fun target hmem => (hvalue target hmem).mpr ⟨?_, ?_, ?_⟩
    · rw [← Bool.not_eq_true]
      exact filter_eq_nil_iff.mp (not_not.mp hwell) target hmem
    · intro hempty
      exact filter_eq_nil_iff.mp (not_not.mp hpresent) target hmem (decide_eq_true hempty)
    · exact fun hin => hnone (hfalse.mp ⟨target, hmem, hin⟩)

/-- There is a verdict exactly when there is room for the calls at every target, and then it is the
right one. -/
theorem judge_evidence_iff : (∃ evidence, judge_evidence room agent refreshed = some evidence ∧
      (evidence.eligible = true ↔ ∀ target ∈ agent.targets,
        ∃ value, (probe_values agent refreshed).lookup target = some value ∧ SpeaksFor value)) ↔
      ∀ target ∈ agent.targets, ∀ value,
        (probe_values agent refreshed).lookup target = some value → value.call_depth ≤ room := by
  have hroom : (∀ target ∈ agent.targets, ∀ value,
      (probe_values agent refreshed).lookup target = some value → value.call_depth ≤ room) ↔
      ∀ target ∈ agent.targets,
        (signals_at room (probe_values agent refreshed) target).isSome = true :=
    forall₂_congr fun _ _ => signals_at_isSome.symm
  rw [hroom, judge_evidence]
  by_cases hall : ∀ target ∈ agent.targets,
      (signals_at room (probe_values agent refreshed) target).isSome = true
  · rw [if_pos hall]
    refine iff_of_true ⟨_, rfl, @evidence_verdict_iff refreshed room agent _ fun target hmem => ?_⟩ hall
    obtain ⟨found, hfound⟩ := Option.isSome_iff_exists.mp (hall target hmem)
    rw [hfound]
    rfl
  · rw [if_neg hall]
    exact iff_of_false (fun ⟨_, h, _⟩ => by cases h) hall

/-- What makes recovery evidence eligible: there is time and a substrate to refresh it, every bound
observation is confirmed, and the path probes speak for every target. -/
def RecoveryEligible (agent : BoundAgent) (substrate : Option ObserveCall) (max_age : ℚ)
    (run_id : String) (timeout_seconds : ℚ) : Prop :=
  ∃ observe, substrate = some observe ∧ 0 < timeout_seconds ∧
    (∀ source ∈ agent.decision_inputs.map Prod.snd, ∃ reading,
      Confirmed observe run_id agent.targets max_age source reading) ∧
    ∀ target ∈ agent.targets, ∃ source reading value,
      agent.decision_inputs.lookup "pathProbes" = some source ∧
      Confirmed observe run_id agent.targets max_age source reading ∧
      reading.observed.values.lookup target = some value ∧ SpeaksFor value

/-- Where every bound observation is confirmed, the path probes have no value for a target that nests
deeper than there is room for. -/
def ProbesWithin (room : ℕ) (agent : BoundAgent) (substrate : Option ObserveCall) (max_age : ℚ)
    (run_id : String) (timeout_seconds : ℚ) : Prop :=
  ∀ observe, substrate = some observe → 0 < timeout_seconds →
    (∀ source ∈ agent.decision_inputs.map Prod.snd, ∃ reading,
      Confirmed observe run_id agent.targets max_age source reading) →
    ∀ target ∈ agent.targets, ∀ source reading value,
      agent.decision_inputs.lookup "pathProbes" = some source →
      Confirmed observe run_id agent.targets max_age source reading →
      reading.observed.values.lookup target = some value → value.call_depth ≤ room

/-- What the probes have for a target, behind a refresh that has read every source. -/
theorem probe_values_iff {observe : ObserveCall} {max_age : ℚ} {run_id target : String}
    {value : JsonValue}
    (hlist : refreshed = (from_keys (agent.decision_inputs.map Prod.snd)).filterMap fun source =>
      (read_evidence observe run_id agent.targets max_age source).toOption.map fun reading =>
        (source, reading)) :
    (probe_values agent refreshed).lookup target = some value ↔
      ∃ source reading, agent.decision_inputs.lookup "pathProbes" = some source ∧
        Confirmed observe run_id agent.targets max_age source reading ∧
        reading.observed.values.lookup target = some value := by
  rw [probe_values]
  cases hbinding : agent.decision_inputs.lookup "pathProbes" with
  | none => exact iff_of_false (fun h => by cases h) fun ⟨_, _, h, _⟩ => by cases h
  | some source =>
    have hsource : source ∈ from_keys (agent.decision_inputs.map Prod.snd) := by
      obtain ⟨_, _, heq, -⟩ := List.lookup_eq_some_iff.mp hbinding
      rw [mem_from_keys, heq]
      exact mem_map_of_mem (mem_append_right _ mem_cons_self)
    rw [bind_some, hlist, lookup_readings hsource]
    cases hread : read_evidence observe run_id agent.targets max_age source with
    | error stop =>
      refine iff_of_false (fun h => by cases h) ?_
      rintro ⟨_, reading, heq, hconfirmed, -⟩
      cases heq
      rw [read_evidence_ok_iff.mpr hconfirmed] at hread
      cases hread
    | ok reading =>
      constructor
      · exact fun h => ⟨source, reading, rfl, read_evidence_ok_iff.mp hread, h⟩
      · rintro ⟨_, reading', heq, hconfirmed, h⟩
        cases heq
        rw [read_evidence_ok_iff.mpr hconfirmed] at hread
        cases hread
        exact h

/-- Recovery evidence that is read again is reported, and reported eligible exactly when it is, if and
only if there is room for the search in the values of the path probes. -/
theorem recovery_eligible_iff (room : ℕ) (agent : BoundAgent) (substrate : Option ObserveCall)
    (max_age : ℚ) (run_id : String) (timeout_seconds : ℚ) :
    (∃ evidence, recheck_recovery_evidence room agent substrate max_age run_id timeout_seconds =
        some evidence ∧ (evidence.eligible = true ↔
          RecoveryEligible agent substrate max_age run_id timeout_seconds)) ↔
      ProbesWithin room agent substrate max_age run_id timeout_seconds := by
  -- a report that refuses without a search
  have hearly : ∀ {evidence : RecoveryEvidence}, evidence.eligible = false →
      (∀ observe, substrate = some observe → 0 < timeout_seconds →
        ¬ ∀ source ∈ agent.decision_inputs.map Prod.snd, ∃ reading,
          Confirmed observe run_id agent.targets max_age source reading) →
      ((∃ found, some evidence = some found ∧ (found.eligible = true ↔
          RecoveryEligible agent substrate max_age run_id timeout_seconds)) ↔
        ProbesWithin room agent substrate max_age run_id timeout_seconds) := by
    intro evidence hfalse hnot
    refine iff_of_true ⟨evidence, rfl, iff_of_false (fun h => ?_) ?_⟩ ?_
    · rw [hfalse] at h
      cases h
    · exact fun ⟨observe, heq, htime, hall, _⟩ => hnot observe heq htime hall
    · exact fun observe heq htime hall => absurd hall (hnot observe heq htime)
  unfold recheck_recovery_evidence
  cases substrate with
  | none => exact hearly rfl fun _ h => by cases h
  | some observe =>
    simp only
    by_cases htime : timeout_seconds ≤ 0
    · rw [if_pos htime]
      exact hearly rfl fun _ _ h => absurd h (not_lt.mpr htime)
    rw [if_neg htime]
    have hsources : ∀ {refreshed}, (refresh
        (read_evidence observe run_id agent.targets max_age)
        (from_keys (agent.decision_inputs.map Prod.snd)) refreshed).2 = none ↔
        ∀ source ∈ agent.decision_inputs.map Prod.snd, ∃ reading,
          Confirmed observe run_id agent.targets max_age source reading := by
      intro refreshed
      rw [refresh_none_iff]
      refine forall_congr' fun source => ?_
      rw [mem_from_keys]
      exact imp_congr_right fun _ => exists_congr fun _ => read_evidence_ok_iff
    have hstopped : ∀ {refreshed stop}, refresh (read_evidence observe run_id agent.targets max_age)
        (from_keys (agent.decision_inputs.map Prod.snd)) [] = (refreshed, some stop) →
        ∀ observe', some observe = some observe' → 0 < timeout_seconds →
          ¬ ∀ source ∈ agent.decision_inputs.map Prod.snd, ∃ reading,
            Confirmed observe' run_id agent.targets max_age source reading := by
      intro refreshed stop hrefresh observe' heq _ hall
      cases heq
      have hnone := (@hsources []).mpr hall
      rw [hrefresh] at hnone
      cases hnone
    split
    · rename_i refreshed source hrefresh
      exact hearly rfl (hstopped hrefresh)
    · rename_i refreshed message hrefresh
      exact hearly rfl (hstopped hrefresh)
    · rename_i refreshed hrefresh
      have hnone : (refresh (read_evidence observe run_id agent.targets max_age)
          (from_keys (agent.decision_inputs.map Prod.snd)) []).2 = none := by rw [hrefresh]
      have hlist := (refresh_complete hnone).2
      rw [hrefresh, nil_append] at hlist
      have hprobe := fun target value => @probe_values_iff refreshed agent observe max_age run_id
        target value hlist
      have heligible : RecoveryEligible agent (some observe) max_age run_id timeout_seconds ↔
          ∀ target ∈ agent.targets, ∃ value,
            (probe_values agent refreshed).lookup target = some value ∧ SpeaksFor value := by
        constructor
        · rintro ⟨observe', heq, -, -, h⟩ target hmem
          cases heq
          obtain ⟨source, reading, value, hbinding, hconfirmed, hin, hspeaks⟩ := h target hmem
          exact ⟨value, (hprobe target value).mpr ⟨source, reading, hbinding, hconfirmed, hin⟩,
            hspeaks⟩
        · intro h
          refine ⟨observe, rfl, not_le.mp htime, hsources.mp hnone, fun target hmem => ?_⟩
          obtain ⟨value, hlookup, hspeaks⟩ := h target hmem
          obtain ⟨source, reading, hbinding, hconfirmed, hin⟩ := (hprobe target value).mp hlookup
          exact ⟨source, reading, value, hbinding, hconfirmed, hin, hspeaks⟩
      rw [heligible, judge_evidence_iff]
      constructor
      · intro h observe' heq _ _ target hmem source reading value hbinding hconfirmed hin
        cases heq
        exact h target hmem value ((hprobe target value).mpr ⟨source, reading, hbinding, hconfirmed, hin⟩)
      · intro h target hmem value hlookup
        obtain ⟨source, reading, hbinding, hconfirmed, hin⟩ := (hprobe target value).mp hlookup
        exact h observe rfl (not_le.mp htime) (hsources.mp hnone) target hmem source reading value
          hbinding hconfirmed hin

/-! ## A value that nests too deep -/

/-- An eligible value behind so many arrays. -/
def nested_evidence : ℕ → JsonValue
  | 0 => .obj [("eligible", .bool true)]
  | n + 1 => .arr [nested_evidence n]

theorem nested_call_depth (n : ℕ) : (nested_evidence n).call_depth = n + 1 := by
  induction n with
  | zero => rfl
  | succ n ih =>
    rw [nested_evidence, JsonValue.call_depth, depth_of_items, depth_of_items, ih]
    exact congrArg (· + 1) (Nat.max_zero (n + 1))

theorem nested_speaks_for (n : ℕ) : SpeaksFor (nested_evidence n) := by
  induction n with
  | zero =>
    have hkey : ∀ w, EligibleBelow (nested_evidence 0) w ↔ w = .bool true := by
      intro w
      rw [nested_evidence, eligible_below_cons, and_iff_right rfl]
      refine ⟨?_, fun h => Or.inl (Or.inl h)⟩
      rintro ((h | h) | h)
      · exact h
      · cases h
      · cases h with
        | key h => exact absurd h not_mem_nil
        | field h _ => exact absurd h not_mem_nil
    exact ⟨⟨_, (hkey _).mpr rfl⟩, fun w h => (hkey w).mp h⟩
  | succ n ih =>
    have hbelow : ∀ w, EligibleBelow (nested_evidence (n + 1)) w ↔ EligibleBelow (nested_evidence n) w := by
      intro w
      rw [nested_evidence, eligible_below_item]
      refine or_iff_left fun h => ?_
      cases h with
      | item h _ => exact absurd h not_mem_nil
    exact ⟨ih.1.imp fun w h => (hbelow w).mpr h, fun w h => ih.2 w ((hbelow w).mp h)⟩

/-- An agent with one target, and one input. -/
def probed_agent : BoundAgent where
  decision_inputs := [("pathProbes", "probes")]
  targets := ["s1"]

/-- A substrate whose probes have a value that nests. -/
def nesting_substrate (n : ℕ) : ObserveCall := fun run_id query =>
  .ok
    { observed := { run_id := run_id, query := query, observed_at := 0, values := [("s1", nested_evidence n)] }
      now := 1 }

/-- The only reading of this substrate. -/
def nested_reading (n : ℕ) : EvidenceReading where
  observed :=
    { run_id := "r"
      query := { name := "probes", targets := ["s1"], names_its_targets := by decide }
      observed_at := 0
      values := [("s1", nested_evidence n)] }
  now := 1

theorem nested_confirmed (n : ℕ) :
    Confirmed (nesting_substrate n) "r" probed_agent.targets 2 "probes" (nested_reading n) where
  returned := rfl
  run_eq := rfl
  name_eq := rfl
  targets_eq := rfl
  parameters_eq := rfl
  not_future := by
    show (0 : ℚ) ≤ 1 - 0
    decide +kernel
  not_stale := by
    show (1 : ℚ) - 0 ≤ 2
    decide +kernel

theorem nested_unreported (n : ℕ) :
    RecoveryEligible probed_agent (some (nesting_substrate n)) 2 "r" 1 ∧
      recheck_recovery_evidence n probed_agent (some (nesting_substrate n)) 2 "r" 1 = none := by
  have hconfirmed := nested_confirmed n
  constructor
  · refine ⟨_, rfl, by decide, fun source hsource => ?_, fun target hmem => ?_⟩
    · rw [mem_singleton.mp hsource]
      exact ⟨_, hconfirmed⟩
    · rw [mem_singleton.mp hmem]
      exact ⟨"probes", _, _, rfl, hconfirmed, rfl, nested_speaks_for n⟩
  · have hnothing : ¬ (eligibility_signals n (nested_evidence n)).isSome = true := by
      rw [eligibility_signals_isSome, nested_call_depth]
      exact Nat.not_succ_le_self n
    have hsources : from_keys (probed_agent.decision_inputs.map Prod.snd) = ["probes"] := by decide
    have htime : ¬ (1 : ℚ) ≤ 0 := by decide
    unfold recheck_recovery_evidence
    simp only
    rw [if_neg htime, hsources, refresh, read_evidence_ok_iff.mpr hconfirmed]
    exact if_neg fun hall => hnothing (hall "s1" mem_cons_self)

/-- Evidence that is eligible, and nests deeper than there is room for, is not reported. -/
theorem nested_evidence_unreported :
    RecoveryEligible probed_agent (some (nesting_substrate 1000)) 2 "r" 1 ∧
      recheck_recovery_evidence 1000 probed_agent (some (nesting_substrate 1000)) 2 "r" 1 = none :=
  nested_unreported 1000

end MininetAi
