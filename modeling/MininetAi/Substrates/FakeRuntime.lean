/-
The actions of the fake substrate (`execute` and `inspect_scenario_actions` of
`mininet_ai/substrates/fake_runtime.py`).

The fake runtime records what it executes. A step of a bundle is looked for among the records by
its cookie or its match, and else by its id; it is present when every record that is found equals
it, its timeout included.
-/
import MininetAi.Capabilities.Verification
import MininetAi.Compiler.Instances
import MininetAi.Substrates.Runtime

set_option autoImplicit false

namespace MininetAi

open List Except

/-! ## Values -/

mutual

/-- A value whose objects are dictionaries: no key occurs twice. -/
def JsonValue.Keyed : JsonValue → Prop
  | .null | .bool _ | .num _ | .str _ => True
  | .arr values => JsonValue.KeyedList values
  | .obj fields => (fields.map Prod.fst).Nodup ∧ JsonValue.KeyedFields fields

def JsonValue.KeyedList : List JsonValue → Prop
  | [] => True
  | value :: values => value.Keyed ∧ JsonValue.KeyedList values

def JsonValue.KeyedFields : List (String × JsonValue) → Prop
  | [] => True
  | (_, value) :: fields => value.Keyed ∧ JsonValue.KeyedFields fields

end

variable {fields : List (String × JsonValue)}

/-- The fields of a dictionary that are some of another's, with equal values. -/
theorem py_eq_fields_of_lookup {others : List (String × JsonValue)}
    (h : ∀ entry ∈ fields, others.lookup entry.1 = some entry.2 ∧ entry.2.py_eq entry.2 = true) :
    JsonValue.py_eq_fields fields others = true := by
  induction fields with
  | nil => rfl
  | cons entry fields ih =>
    obtain ⟨key, value⟩ := entry
    obtain ⟨⟨hlookup, hself⟩, hrest⟩ := forall_mem_cons.mp h
    rw [JsonValue.py_eq_fields, hlookup, ih hrest, Bool.and_true]
    exact hself

theorem lookup_of_nodup (h : (fields.map Prod.fst).Nodup) {entry : String × JsonValue}
    (hmem : entry ∈ fields) : fields.lookup entry.1 = some entry.2 := by
  induction fields with
  | nil => exact absurd hmem not_mem_nil
  | cons first fields ih =>
    rw [map_cons, List.nodup_cons] at h
    rcases mem_cons.mp hmem with rfl | hrest
    · rw [lookup_cons_self]
    · have hne : entry.1 ≠ first.1 := fun heq => h.1 (heq ▸ mem_map_of_mem hrest)
      rw [lookup_cons, beq_false_of_ne hne]
      exact ih h.2 hrest

mutual

/-- A value equals itself. -/
theorem JsonValue.Keyed.py_eq_self : ∀ {value : JsonValue}, value.Keyed → value.py_eq value = true
  | .null, _ => rfl
  | .bool b, _ => beq_self_eq_true b
  | .num q, _ => decide_eq_true rfl
  | .str s, _ => decide_eq_true rfl
  | .arr values, h => JsonValue.Keyed.py_eq_list_self h
  | .obj fields, h => by
      rw [JsonValue.py_eq, decide_eq_true rfl, Bool.true_and]
      refine py_eq_fields_of_lookup fun entry hmem => ⟨lookup_of_nodup h.1 hmem, ?_⟩
      exact JsonValue.Keyed.py_eq_fields_self h.2 entry hmem

theorem JsonValue.Keyed.py_eq_list_self : ∀ {values : List JsonValue}, JsonValue.KeyedList values →
    JsonValue.py_eq_list values values = true
  | [], _ => rfl
  | value :: values, h => by
      rw [JsonValue.py_eq_list, JsonValue.Keyed.py_eq_self h.1, JsonValue.Keyed.py_eq_list_self h.2]
      rfl

theorem JsonValue.Keyed.py_eq_fields_self : ∀ {fields : List (String × JsonValue)}, JsonValue.KeyedFields fields →
    ∀ entry ∈ fields, entry.2.py_eq entry.2 = true
  | [], _, _, hmem => absurd hmem not_mem_nil
  | (key, value) :: fields, h, entry, hmem => by
      rcases mem_cons.mp hmem with rfl | hrest
      · exact JsonValue.Keyed.py_eq_self h.1
      · exact JsonValue.Keyed.py_eq_fields_self h.2 entry hrest

end

/-- `parameters.get(key)`; what is missing is `None`. -/
def py_get (parameters : List (String × JsonValue)) (key : String) : JsonValue := (parameters.lookup key).getD .null

theorem JsonValue.KeyedFields.py_get (h : JsonValue.KeyedFields fields) (key : String) :
    (py_get fields key).Keyed := by
  induction fields with
  | nil => exact True.intro
  | cons entry fields ih =>
    obtain ⟨name, value⟩ := entry
    unfold MininetAi.py_get
    rw [lookup_cons]
    cases key == name with
    | true => exact h.1
    | false => exact ih h.2

/-! ## The runtime -/

/-- The text of a state. -/
def RunState.value : RunState → String
  | .deploying => "deploying"
  | .running => "running"
  | .stopping => "stopping"
  | .stopped => "stopped"
  | .failed => "failed"

/-- `ActionRequest`, with parameters of any kind. -/
structure ActionRequest where
  id : String
  name : String
  target : String
  parameters : List (String × JsonValue) := []
  timeout_seconds : ℚ := 30

/-- `_FakeRun`, with the names of its resources. -/
structure FakeRun where
  state : RunState
  resources : List String

structure FakeSubstrateRuntime where
  runs : Dict String FakeRun
  scenario_actions : Dict String (List ActionRequest)

namespace FakeSubstrateRuntime

def get_run (runtime : FakeSubstrateRuntime) (run_id : String) : Except RaisedError FakeRun :=
  match runtime.runs.lookup run_id with
  | none => .error (unknown_run run_id)
  | some run => .ok run

def require_running (runtime : FakeSubstrateRuntime) (run_id : String) : Except RaisedError FakeRun := do
  let run ← runtime.get_run run_id
  refuse_if (run.state ≠ .running) (operation_error "runtime.run.not-running"
    (worded "substrate run " [quoted run_id, " is ", run.state.value, ", not running"]) (some run_id))
  pure run

def require_targets (run_id : String) (targets resources : List String) : Except RaisedError Unit :=
  refuse_if (∃ target ∈ targets, target ∉ resources) (operation_error "runtime.resource.unknown"
    (worded "run " [quoted run_id, " has no resources named: ",
      ", ".intercalate (sorted_set (targets.filter fun target => target ∉ resources))]) (some run_id))

/-- The actions of a run, as they are recorded. -/
def recorded (runtime : FakeSubstrateRuntime) (run_id : String) : List ActionRequest :=
  (runtime.scenario_actions.lookup run_id).getD []

/-- `execute`, without the result. -/
def execute (runtime : FakeSubstrateRuntime) (run_id : String) (request : ActionRequest) :
    Except RaisedError FakeSubstrateRuntime := do
  let run ← runtime.require_running run_id
  require_targets run_id [request.target] run.resources
  pure { runtime with
    scenario_actions := runtime.scenario_actions.insert run_id (runtime.recorded run_id ++ [request]) }

/-- A record is for a step: it has its cookie, if any, or its match. -/
def ForStep (request item : ActionRequest) : Prop :=
  item.name = request.name ∧ item.target = request.target ∧
    (py_get request.parameters "cookie" ≠ .null ∧
        (py_get item.parameters "cookie").py_eq (py_get request.parameters "cookie") = true ∨
      (py_get item.parameters "match").py_eq (py_get request.parameters "match") = true)

instance (request item : ActionRequest) : Decidable (ForStep request item) :=
  inferInstanceAs (Decidable (_ ∧ _))

/-- A record is exactly that of a step. -/
def Exact (request item : ActionRequest) : Prop :=
  item.name = request.name ∧ item.target = request.target ∧
    (JsonValue.obj item.parameters).py_eq (.obj request.parameters) = true ∧ item.timeout_seconds = request.timeout_seconds

instance (request item : ActionRequest) : Decidable (Exact request item) :=
  inferInstanceAs (Decidable (_ ∧ _))

/-- The records of a step. -/
def matching (actual : List ActionRequest) (request : ActionRequest) : List ActionRequest :=
  if (actual.filter fun item => ForStep request item) = [] then actual.filter fun item => item.id = request.id
  else actual.filter fun item => ForStep request item

def step_state (actual : List ActionRequest) (request : ActionRequest) : String :=
  if matching actual request = [] then "missing"
  else if ∀ item ∈ matching actual request, Exact request item then "present"
  else if ¬ ∃ item ∈ matching actual request, Exact request item then "wrong"
  else "conflicting"

variable {actual : List ActionRequest} {request : ActionRequest} {runtime : FakeSubstrateRuntime}
  {run_id : String} {run : FakeRun}

theorem step_state_missing (h : ∀ item ∈ actual, ¬ ForStep request item ∧ item.id ≠ request.id) :
    step_state actual request = "missing" := by
  have hstep : (actual.filter fun item => ForStep request item) = [] :=
    filter_eq_nil_iff.mpr fun item hitem => by simpa only [decide_eq_true_eq] using (h item hitem).1
  have hid : (actual.filter fun item => item.id = request.id) = [] :=
    filter_eq_nil_iff.mpr fun item hitem => by simpa only [decide_eq_true_eq] using (h item hitem).2
  rw [step_state, if_pos]
  rw [matching, if_pos hstep, hid]

/-- A step with one kind of record is present when the record is exact. -/
theorem step_state_found {found : ActionRequest} (hmem : found ∈ actual)
    (h : ∀ item ∈ actual, ForStep request item ↔ item = found) :
    step_state actual request = if Exact request found then "present" else "wrong" := by
  have hfound : found ∈ actual.filter fun item => ForStep request item :=
    mem_filter.mpr ⟨hmem, decide_eq_true ((h found hmem).mpr rfl)⟩
  have hmatching : matching actual request = actual.filter fun item => ForStep request item :=
    if_neg (ne_nil_of_mem hfound)
  have hall : ∀ item ∈ actual.filter fun item => ForStep request item, item = found := by
    intro item hitem
    obtain ⟨hitem, hstep⟩ := mem_filter.mp hitem
    exact (h item hitem).mp (of_decide_eq_true hstep)
  rw [step_state, hmatching, if_neg (ne_nil_of_mem hfound)]
  by_cases hexact : Exact request found
  · rw [if_pos hexact, if_pos]
    intro item hitem
    rw [hall item hitem]
    exact hexact
  · rw [if_neg hexact, if_neg, if_pos]
    · rintro ⟨item, hitem, hother⟩
      rw [hall item hitem] at hother
      exact hexact hother
    · exact fun hevery => hexact (hevery found hfound)

def inspect_scenario_actions (runtime : FakeSubstrateRuntime) (run_id : String) (expected : List ActionRequest) :
    Except RaisedError (List String) := do
  let _ ← runtime.require_running run_id
  pure (expected.map (step_state (runtime.recorded run_id)))

theorem require_running_ok_iff :
    runtime.require_running run_id = .ok run ↔ runtime.runs.lookup run_id = some run ∧ run.state = .running := by
  rw [require_running, get_run]
  cases runtime.runs.lookup run_id with
  | none => exact iff_of_false nofun fun h => by cases h.1
  | some found =>
    constructor
    · intro h
      obtain ⟨_, hfound, h⟩ := bind_ok_iff.mp h
      obtain ⟨_, hstate, h⟩ := bind_ok_iff.mp h
      rw [← ok.inj hfound] at hstate h
      rw [← ok.inj h]
      exact ⟨rfl, not_not.mp (refuse_if_ok_iff.mp hstate)⟩
    · rintro ⟨hfound, hstate⟩
      rw [← Option.some.inj hfound] at hstate ⊢
      exact bind_ok_iff.mpr ⟨_, rfl, bind_ok_iff.mpr
        ⟨(), refuse_if_ok_iff.mpr (not_not.mpr hstate), rfl⟩⟩

/-- What is executed is recorded behind what was. -/
theorem execute_ok {left : FakeSubstrateRuntime} (h : runtime.execute run_id request = .ok left) :
    left.runs = runtime.runs ∧ left.recorded run_id = runtime.recorded run_id ++ [request] := by
  obtain ⟨run, -, h⟩ := bind_ok_iff.mp h
  obtain ⟨_, -, h⟩ := bind_ok_iff.mp h
  rw [← ok.inj h]
  refine ⟨rfl, ?_⟩
  unfold recorded
  rw [AList.lookup_insert]
  rfl

theorem inspect_running (h : runtime.require_running run_id = .ok run)
    (expected : List ActionRequest) :
    runtime.inspect_scenario_actions run_id expected = .ok (expected.map (step_state (runtime.recorded run_id))) := by
  rw [inspect_scenario_actions, h]
  rfl

end FakeSubstrateRuntime

end MininetAi
