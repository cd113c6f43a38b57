/-
The native choice of a bounded decision (`parse_response`, `map_choice` and
`NativeSystemOneClient.decide` of `mininet_ai/agents/bounded.py`).

The native model answers with the id of a choice. Whatever else it sends, what becomes of
the answer is one of the bundles the scenario fixes, or an error.

A payload that is a text, or the bytes of one, is given with what `json.loads` scans in it.
Numbers that are not finite are kept apart, as the checks do. An error of a response keeps the
response.
-/
import Mathlib.Algebra.Order.Ring.Unbundled.Rat
import MininetAi.Lib.Results
import MininetAi.Specification.Models

set_option autoImplicit false

namespace MininetAi

open Except

/-! ## Payloads -/

/-- A value of a native response. A float that is not finite is `none`. -/
inductive NativeValue where
  | null
  | bool (b : Bool)
  | int (n : ℤ)
  | float (x : Option ℚ)
  | str (s : String)
  | arr (items : List NativeValue)
  | obj (fields : List (String × NativeValue))

/-- A value as it is scanned: with the names of constants such as `NaN`, and with every pair of an
object. -/
inductive JsonTree where
  | null
  | bool (b : Bool)
  | int (n : ℤ)
  | float (x : Option ℚ)
  | str (s : String)
  | constant (name : String)
  | arr (items : List JsonTree)
  | obj (pairs : List (String × JsonTree))

/-- What is scanned in a text: a value, no value, or values nested more deeply than the interpreter
follows. -/
inductive JsonScan where
  | tree (scanned : JsonTree)
  | invalid (message : String)
  | too_deep

/-- A text or bytes, with what is scanned in them, or a value. -/
inductive NativePayload where
  | text (source : String) (scan : JsonScan)
  | bytes (source : List UInt8) (scan : JsonScan)
  | value (v : NativeValue)

/-- An exception: the code of an `AgentRuntimeError`, `none` for any other. -/
structure BoundedError where
  code : Option String
  message : String
  deriving DecidableEq

/-- `AgentRuntimeError(message, code="agent.bounded-decision....")`. -/
def bounded_error (code message : String) : BoundedError where
  code := some (worded "agent.bounded-decision." [code])
  message := message

/-- The error of a response that is no valid output. -/
def invalid_output (message : String) : BoundedError := bounded_error "invalid-output" message

/-- The mapping a value is. -/
def NativeValue.as_mapping : NativeValue → Option (List (String × NativeValue))
  | .obj fields => some fields
  | _ => none

/-- The text a value is. -/
def NativeValue.as_text : NativeValue → Option String
  | .str s => some s
  | _ => none

def unique_object (pairs : List (String × NativeValue)) : Except String NativeValue := do
  refuse_repeats (fun key => worded "duplicate JSON key: " [key]) [] (pairs.map Prod.fst)
  pure (.obj pairs)

mutual

/-- What the hooks of `json.loads` make of a scanned value. -/
def JsonTree.loaded : JsonTree → Except String NativeValue
  | .null => .ok .null
  | .bool b => .ok (.bool b)
  | .int n => .ok (.int n)
  | .float x => .ok (.float x)
  | .str s => .ok (.str s)
  | .constant name => .error (worded "invalid JSON constant " [name])
  | .arr items => do
      let values ← JsonTree.loaded_items items
      pure (.arr values)
  | .obj pairs => do
      let values ← JsonTree.loaded_pairs pairs
      unique_object values

def JsonTree.loaded_items : List JsonTree → Except String (List NativeValue)
  | [] => .ok []
  | item :: items => do
      let value ← item.loaded
      let values ← JsonTree.loaded_items items
      pure (value :: values)

def JsonTree.loaded_pairs : List (String × JsonTree) → Except String (List (String × NativeValue))
  | [] => .ok []
  | (key, item) :: pairs => do
      let value ← item.loaded
      let values ← JsonTree.loaded_pairs pairs
      pure ((key, value) :: values)

end

/-- The error of a text that is no response. -/
def invalid_response (message : String) : BoundedError :=
  invalid_output (worded "native choice response is invalid: " [message])

/-- `json.loads`; what is nested too deeply is no `ValueError`. -/
def json_loads : JsonScan → Except BoundedError NativeValue
  | .tree scanned => scanned.loaded.mapError invalid_response
  | .invalid message => .error (invalid_response message)
  | .too_deep => .error { code := none, message := "maximum recursion depth exceeded" }

def payload_value : NativePayload → Except BoundedError NativeValue
  | .text _ scan | .bytes _ scan => json_loads scan
  | .value v => .ok v

def parse_response (payload : NativePayload) : Except BoundedError (List (String × NativeValue)) := do
  let v ← payload_value payload
  match v.as_mapping with
  | some fields => .ok fields
  | none => .error (invalid_output "native choice response must be an object")

/-! ## Choices -/

/-- A step of a bundle: a proposal without its id. -/
structure BundleStep where
  capability : String
  target : String
  arguments : List (String × JsonValue) := []
  deriving DecidableEq

structure ChoiceResult where
  choice_id : String
  proposals : List BundleStep
  probabilities : Option (List (String × ℚ)) := none
  probability : Option ℚ := none
  confidence : Option ℚ := none
  native_response : List (String × NativeValue)

/-- The number of generated tokens. -/
def generated_tokens : Option NativeValue → Except BoundedError NativeValue
  | none => .ok (.int 0)
  | some .null => .ok (.int 0)
  | some v => match v.as_mapping with
    | none => .error (invalid_output "native response usage must be an object")
    | some usage => .ok (((usage.lookup "output_tokens").or (usage.lookup "outputTokens")).getD
        (.int 0))

/-- The checks of the generated tokens. -/
def require_no_tokens : NativeValue → Except BoundedError Unit
  | .int n =>
    if n < 0 then .error (invalid_output "native response generated-token usage is invalid")
    else if n ≠ 0 then .error (bounded_error "native-contract-violation"
      "native choice contract must not generate output tokens")
    else .ok ()
  | _ => .error (invalid_output "native response generated-token usage is invalid")

/-- The first integer that no float is near enough to. -/
def float_overflow : ℤ := 2 ^ 1024 - 2 ^ 970

/-- The check of a probability; an integer may be too large to be tested. -/
def unit_interval (message : String) : NativeValue → Except BoundedError ℚ
  | .int n =>
    if float_overflow ≤ |n| then
      .error { code := none, message := "int too large to convert to float" }
    else if 0 ≤ n ∧ n ≤ 1 then .ok n
    else .error (invalid_output message)
  | .float (some x) => if 0 ≤ x ∧ x ≤ 1 then .ok x else .error (invalid_output message)
  | _ => .error (invalid_output message)

/-- The check of a field that may be absent. -/
def optional_unit_interval (message : String) : Option NativeValue → Except BoundedError (Option ℚ)
  | none => .ok none
  | some v => (unit_interval message v).map some

/-- The loop over the probabilities. -/
def normalized_probabilities :
    List (String × NativeValue) → Except BoundedError (List (String × ℚ))
  | [] => .ok []
  | (key, value) :: rest => do
      let first ← unit_interval
        "native response probabilities must be finite and between 0 and 1" value
      let others ← normalized_probabilities rest
      pure ((key, first) :: others)

/-- The checks of the probabilities. -/
def choice_probabilities (choices : List (String × List BundleStep)) :
    Option NativeValue → Except BoundedError (Option (List (String × ℚ)))
  | none => .ok none
  | some v => match v.as_mapping with
    | none => .error (invalid_output "native response probabilities must be an object")
    | some probabilities => do
        refuse_if (∃ entry ∈ probabilities, entry.1 ∉ choices.map Prod.fst)
          (invalid_output "native response probabilities contain an unknown choice")
        let normalized ← normalized_probabilities probabilities
        pure (some normalized)

/-- The fields an answer may have. -/
def answer_fields : List String := ["type", "choice", "probability", "probabilities", "confidence"]

/-- The mapping a field holds. -/
def mapping_field (fields : List (String × NativeValue)) (key message : String) :
    Except BoundedError (List (String × NativeValue)) :=
  match (fields.lookup key).bind NativeValue.as_mapping with
  | none => .error (invalid_output message)
  | some mapping => .ok mapping

/-- The answer to the question `next_action`. -/
def next_action (response : List (String × NativeValue)) :
    Except BoundedError (List (String × NativeValue)) := do
  let answers ← mapping_field response "answers"
    "native response choice must answer exactly next_action"
  refuse_if (answers = [] ∨ ∃ entry ∈ answers, entry.1 ≠ "next_action")
    (invalid_output "native response choice must answer exactly next_action")
  let tokens ← generated_tokens (response.lookup "usage")
  require_no_tokens tokens
  let answer ← mapping_field answers "next_action"
    "native response must contain answers.next_action of type choice"
  refuse_if ((answer.lookup "type").bind NativeValue.as_text ≠ some "choice")
    (invalid_output "native response must contain answers.next_action of type choice")
  refuse_if (∃ entry ∈ answer, entry.1 ∉ answer_fields)
    (invalid_output "native choice answer contains unsupported fields")
  pure answer

/-- The chosen id with its bundle. -/
def chosen_bundle (answer : List (String × NativeValue))
    (choices : List (String × List BundleStep)) : Except BoundedError (String × List BundleStep) :=
  match (answer.lookup "choice").bind NativeValue.as_text with
  | none => .error (invalid_output "native response contains a missing or unknown choice")
  | some choice_id => match choices.lookup choice_id with
    | none => .error (invalid_output "native response contains a missing or unknown choice")
    | some bundle => do
        refuse_if (choice_id = "no_action" ∧ bundle ≠ [])
          (bounded_error "configuration-invalid" "the no_action choice must have no proposals")
        pure (choice_id, bundle)

def map_choice (payload : NativePayload) (choices : List (String × List BundleStep)) :
    Except BoundedError ChoiceResult := do
  let response ← parse_response payload
  let answer ← next_action response
  let chosen ← chosen_bundle answer choices
  let probabilities ← choice_probabilities choices
    ((answer.lookup "probabilities").or (response.lookup "probabilities"))
  let confidence ← optional_unit_interval
    "native response confidence must be finite and between 0 and 1"
    ((response.lookup "confidence").or (answer.lookup "confidence"))
  let probability ← optional_unit_interval
    "native response probability must be finite and between 0 and 1" (answer.lookup "probability")
  pure
    { choice_id := chosen.1
      proposals := chosen.2
      probabilities := probabilities
      probability := probability
      confidence := confidence
      native_response := response }

/-! ## The request -/

/-- An exception of the transport. -/
structure TransportError where
  is_timeout : Bool
  code : Option String := none
  status_code : Option ℤ := none
  text : String

/-- What `decide` makes of an exception of the transport. -/
def transport_failure (e : TransportError) : BoundedError :=
  if e.is_timeout = true then
    bounded_error "timeout" (worded "native llama.cpp decision request timed out: " [e.text])
  else if e.code = some "invalid-json" ∨ e.code = some "response-too-large" then
    invalid_output (worded "native choice response is malformed: " [e.text])
  else match e.status_code.filter fun status =>
      400 ≤ status ∧ status < 500 ∧ status ≠ 408 ∧ status ≠ 429 with
    | some status => bounded_error "request-rejected"
        (worded "native llama.cpp rejected the decision request (HTTP " [toString status, ")"])
    | none => bounded_error "service-unavailable"
        (worded "native llama.cpp decision request failed: " [e.text])

def base64_digits : List Char :=
  "ABCDEFGHIJKLMNOPQRSTUVWXYZabcdefghijklmnopqrstuvwxyz0123456789+/".toList

def base64_digit (n : ℕ) : Char := base64_digits.getD (n % 64) '='

/-- `b64encode`: three bytes are four digits. -/
def b64encode : List UInt8 → List Char
  | [] => []
  | [a] =>
    let n := a.toNat * 2 ^ 16
    [base64_digit (n / 2 ^ 18), base64_digit (n / 2 ^ 12), '=', '=']
  | [a, b] =>
    let n := a.toNat * 2 ^ 16 + b.toNat * 2 ^ 8
    [base64_digit (n / 2 ^ 18), base64_digit (n / 2 ^ 12), base64_digit (n / 2 ^ 6), '=']
  | a :: b :: c :: rest =>
    let n := a.toNat * 2 ^ 16 + b.toNat * 2 ^ 8 + c.toNat
    base64_digit (n / 2 ^ 18) :: base64_digit (n / 2 ^ 12) :: base64_digit (n / 2 ^ 6) ::
      base64_digit n :: b64encode rest

/-- The `native_response` of a `NativeResponseError`. -/
def retained_response : NativePayload → List (String × NativeValue)
  | .value v => v.as_mapping.getD [("invalidNativePayload", v)]
  | .text source _ => [("invalidNativePayload", .str source)]
  | .bytes source _ => [("invalidNativePayloadBase64", .str (String.ofList (b64encode source)))]

/-- An exception of `decide`; a `NativeResponseError` has the response. -/
structure DecisionError where
  error : BoundedError
  native_response : Option (List (String × NativeValue)) := none

/-- What `decide` makes of an exception of `map_choice`. -/
def response_failure (payload : NativePayload) (e : BoundedError) : DecisionError :=
  if e.code = none then { error := e }
  else { error := e, native_response := some (retained_response payload) }

def NativeSystemOneClient.decide (criteria : List (String × String))
    (choices : List (String × List BundleStep)) (reply : Except TransportError NativePayload) :
    Except DecisionError ChoiceResult := do
  refuse_if (choices.map Prod.fst ≠ criteria.map Prod.fst ∨ ∃ entry ∈ criteria, entry.2 = "")
    { error := bounded_error "configuration-invalid"
        "scenario choice IDs and native criteria must have identical stable order" }
  match reply with
  | .error e => .error { error := transport_failure e }
  | .ok payload => (map_choice payload choices).mapError (response_failure payload)

/-! ## What is chosen -/

/-- What a response selects: the bundle of one of the choices, and none for `no_action`. -/
structure Selects (choices : List (String × List BundleStep)) (result : ChoiceResult) : Prop where
  bundle : choices.lookup result.choice_id = some result.proposals
  no_action : result.choice_id = "no_action" → result.proposals = []

variable {choices : List (String × List BundleStep)} {result : ChoiceResult}

theorem chosen_bundle_ok {answer : List (String × NativeValue)}
    {chosen : String × List BundleStep} (h : chosen_bundle answer choices = .ok chosen) :
    choices.lookup chosen.1 = some chosen.2 ∧ (chosen.1 = "no_action" → chosen.2 = []) := by
  unfold chosen_bundle at h
  split at h
  · cases h
  · split at h
    · cases h
    · rename_i bundle hbundle
      obtain ⟨_, hempty, h⟩ := bind_ok_iff.mp h
      cases h
      refine ⟨hbundle, fun hnone => ?_⟩
      by_contra hsome
      exact refuse_if_ok_iff.mp hempty ⟨hnone, hsome⟩

/-- A payload that is mapped selects. -/
theorem map_choice_ok {payload : NativePayload} (h : map_choice payload choices = .ok result) :
    Selects choices result := by
  obtain ⟨response, -, h⟩ := bind_ok_iff.mp h
  obtain ⟨answer, -, h⟩ := bind_ok_iff.mp h
  obtain ⟨chosen, hchosen, h⟩ := bind_ok_iff.mp h
  obtain ⟨probabilities, -, h⟩ := bind_ok_iff.mp h
  obtain ⟨confidence, -, h⟩ := bind_ok_iff.mp h
  obtain ⟨probability, -, h⟩ := bind_ok_iff.mp h
  cases h
  obtain ⟨hbundle, hnone⟩ := chosen_bundle_ok hchosen
  exact ⟨hbundle, hnone⟩

theorem NativeSystemOneClient.decide_ok {criteria : List (String × String)}
    {reply : Except TransportError NativePayload} (h : decide criteria choices reply = .ok result) :
    ∃ payload, reply = .ok payload ∧ map_choice payload choices = .ok result := by
  obtain ⟨_, -, h⟩ := bind_ok_iff.mp h
  cases reply with
  | error e => cases h
  | ok payload => exact ⟨payload, rfl, mapError_ok_iff.mp h⟩

end MininetAi
