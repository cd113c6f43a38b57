/-
Flow expressions (`_flow_expression`, `_parse_flow_dump`, `_parse_flow_expression` and
`_same_rule_identity` of `mininet_ai/substrates/mininet_ovs/actions.py`).

Parameters are a dictionary of JSON values, of which a match may be an object. What `str`
makes of a float or of a nested value is given with the value. Texts that are written and
parsed are lists of characters. A parsed rule is a dictionary, and two of them are equal
when each name has one value in both.
-/
import Mathlib.Data.Finmap
import MininetAi.Lib.IntegerText
import MininetAi.Lib.Keyed
import MininetAi.Lib.Results
import MininetAi.Specification.Models

set_option autoImplicit false

namespace MininetAi

/-! ## Parameters -/

/-- A value in a match; `other` is a float, a list or an object, as `str` writes it. -/
inductive MatchValue where
  | null
  | bool (b : Bool)
  | int (n : ℤ)
  | str (s : String)
  | other (text : String)
  deriving DecidableEq

/-- The value of a parameter; `other` is a float or a list. -/
inductive FlowParameter where
  | null
  | bool (b : Bool)
  | int (n : ℤ)
  | str (s : String)
  | other
  | obj (fields : Dict String MatchValue)

/-- `request.parameters` of a flow action. -/
abbrev FlowParameters := Dict String FlowParameter

structure ActionExecutionError where
  code : String
  message : String
  status : ActionStatus := .rejected
  deriving DecidableEq

def ActionExecutionError.reject (message : String) : ActionExecutionError where
  code := "runtime.action.invalid-parameters"
  message := message

/-! ## Encoding -/

/-- A text that is parsed. -/
abbrev FlowText := List Char

/-- Items joined by commas. -/
def joined (fields : List FlowText) : FlowText := [','].intercalate fields

/-- `f"{name}={text}"`. -/
def assigned (name text : FlowText) : FlowText := name ++ '=' :: text

/-- `str(value)`. -/
def MatchValue.text : MatchValue → FlowText
  | .null => "None".toList
  | .bool true => "True".toList
  | .bool false => "False".toList
  | .int (.ofNat n) => Nat.toDigits 10 n
  | .int (.negSucc n) => '-' :: Nat.toDigits 10 (n + 1)
  | .str s => s.toList
  | .other text => text.toList

/-- The bounds of `_flow_integer`. -/
def bounded_integer (name : String) (maximum : ℕ) (value : ℤ) : Except ActionExecutionError ℕ :=
  if 0 ≤ value ∧ value ≤ maximum then .ok value.toNat
  else .error (.reject (worded name [" must be between 0 and ", toString maximum]))

def flow_integer (name : String) (value : FlowParameter) (maximum : ℕ) : Except ActionExecutionError ℕ :=
  match value with
  | .bool _ => .error (.reject (worded name [" must be an integer"]))
  | .str s => match Text.int_literal s.toList with
    | none => .error (.reject (worded name [" must be an integer"]))
    | some n => bounded_integer name maximum n
  | .int n => bounded_integer name maximum n
  | .null | .other | .obj _ => .error (.reject (worded name [" must be between 0 and ", toString maximum]))

/-- `_FLOW_TOKEN`. -/
def is_flow_token (text : FlowText) : Bool :=
  text ≠ [] && text.all fun c => c ≠ '\x00' && c ≠ '\r' && c ≠ '\n'

def require_flow_token (text : FlowText) (name : String) : Except ActionExecutionError Unit :=
  if is_flow_token text = true then .ok ()
  else .error (.reject (worded name [" must not contain NUL or newline characters"]))

/-- `allowed`. -/
def allowed_parameters (require_actions : Bool) : List String :=
  ["match", "cookie", "cookieMask", "table", "priority"] ++
    if require_actions = true then ["actions", "idleTimeout", "hardTimeout"] else []

/-- A parameter that is there and not `None`. -/
def given_value (parameters : FlowParameters) (name : String) : Option FlowParameter :=
  match parameters.lookup name with
  | none | some .null => none
  | some value => some value

def cookie_field (parameters : FlowParameters) : Except ActionExecutionError (List FlowText) :=
  match given_value parameters "cookie", given_value parameters "cookieMask" with
  | none, some _ => .error (.reject "cookieMask requires cookie")
  | none, none => .ok []
  | some cookie, none => do
      let value ← flow_integer "cookie" cookie (2 ^ 64 - 1)
      pure [assigned "cookie".toList (Text.hex_literal value)]
  | some cookie, some cookie_mask => do
      let value ← flow_integer "cookie" cookie (2 ^ 64 - 1)
      let mask ← flow_integer "cookieMask" cookie_mask (2 ^ 64 - 1)
      pure [assigned "cookie".toList (Text.hex_literal value ++ '/' :: Text.hex_literal mask)]

/-- The field of an integer parameter. -/
def integer_field (parameters : FlowParameters) (parameter field : String) (maximum : ℕ) :
    Except ActionExecutionError (List FlowText) :=
  match parameters.lookup parameter with
  | none => .ok []
  | some value => do
      let number ← flow_integer parameter value maximum
      pure [assigned field.toList (Nat.toDigits 10 number)]

/-- The fields before the match. -/
def metadata_fields (parameters : FlowParameters) : Except ActionExecutionError (List FlowText) := do
  let cookie ← cookie_field parameters
  let table ← integer_field parameters "table" "table" 254
  let priority ← integer_field parameters "priority" "priority" 65535
  let idle_timeout ← integer_field parameters "idleTimeout" "idle_timeout" 65535
  let hard_timeout ← integer_field parameters "hardTimeout" "hard_timeout" 65535
  pure (cookie ++ table ++ priority ++ idle_timeout ++ hard_timeout)

/-- The field of an item of a match. -/
def match_token (name : String) (value : MatchValue) : FlowText :=
  if value = .bool true then name.toList else assigned name.toList value.text

/-- `sorted(match.items())`. -/
def sorted_items (fields : Dict String MatchValue) : List (Sigma fun _ : String => MatchValue) :=
  Keyed.sort Sigma.fst fields.entries

/-- The fields of the items of a match. -/
def item_fields : List (Sigma fun _ : String => MatchValue) → Except ActionExecutionError (List FlowText)
  | [] => .ok []
  | item :: items =>
    if item.1 = "" then .error (.reject "match keys must be non-empty strings")
    else do
      require_flow_token (match_token item.1 item.2) "match"
      let rest ← item_fields items
      pure (match_token item.1 item.2 :: rest)

def match_fields : FlowParameter → Except ActionExecutionError (List FlowText)
  | .obj fields => item_fields (sorted_items fields)
  | .str s =>
    if s = "" then .ok []
    else do
      require_flow_token s.toList "match"
      pure [s.toList]
  | .null | .bool _ | .int _ | .other => .error (.reject "match must be a string or object")

def flow_actions (parameters : FlowParameters) : Except ActionExecutionError FlowText :=
  match parameters.lookup "actions" with
  | some (.str actions) =>
    if actions = "" then .error (.reject "actions must be a non-empty string")
    else do
      require_flow_token actions.toList "actions"
      pure actions.toList
  | none | some .null | some (.bool _) | some (.int _) | some .other | some (.obj _) =>
    .error (.reject "actions must be a non-empty string")

def action_field (parameters : FlowParameters) (require_actions : Bool) : Except ActionExecutionError (List FlowText) :=
  if require_actions = true then do
    let actions ← flow_actions parameters
    pure [assigned "actions".toList actions]
  else .ok []

/-- `set(parameters) - allowed`. -/
def unknown_parameters (parameters : FlowParameters) (require_actions : Bool) : List String :=
  parameters.keys.filter fun name => name ∉ allowed_parameters require_actions

/-- The fields of a flow: those before the match, and the match with the actions. -/
def flow_fields (parameters : FlowParameters) (require_actions : Bool) :
    Except ActionExecutionError (List FlowText × List FlowText) :=
  let unknown := unknown_parameters parameters require_actions
  if unknown ≠ [] then
    .error (.reject (worded "unknown flow parameters: " [String.intercalate ", " (unknown.insertionSort (· ≤ ·))]))
  else match parameters.lookup "match" with
    | none => .error (.reject "match is required")
    | some selection => do
        let metadata ← metadata_fields parameters
        let fields ← match_fields selection
        let actions ← action_field parameters require_actions
        pure (metadata, fields ++ actions)

def flow_expression (parameters : FlowParameters) (require_actions : Bool) : Except ActionExecutionError FlowText := do
  let fields ← flow_fields parameters require_actions
  pure (joined (fields.1 ++ fields.2))

/-! ## Parsing -/

/-- A value of a parsed rule: a text, `True`, or an integer. -/
inductive FlowItem where
  | text (value : FlowText)
  | flag
  | number (n : ℤ)
  deriving DecidableEq

/-- A parsed rule. -/
abbrev FlowRecord := Finmap fun _ : FlowText => FlowItem

/-- `(?:,|\s)actions=(.*)$` at a place, with what it captures. -/
def actions_here : FlowText → Option FlowText
  | [] => none
  | c :: s =>
    if (c = ',' ∨ Text.is_space c = true) ∧ "actions=".toList <+: s ∧ '\n' ∉ s.drop 8 then some (s.drop 8)
    else none

/-- `ignored`. -/
def counter_names : List FlowText :=
  ["duration".toList, "n_packets".toList, "n_bytes".toList, "idle_age".toList, "hard_age".toList]

/-- The names with an integer, and their defaults. -/
def integer_defaults : List (FlowText × FlowText) :=
  [("cookie".toList, "0".toList), ("table".toList, "0".toList), ("priority".toList, "32768".toList),
    ("idle_timeout".toList, "0".toList), ("hard_timeout".toList, "0".toList)]

/-- One field in front of the actions. -/
def read_field (record : FlowRecord) (field : FlowText) : FlowRecord :=
  let token := Text.strip field
  if token = [] then record
  else match (Text.cut '=' token).2 with
    | some value =>
      let name := Text.strip (Text.cut '=' token).1
      if name ∈ counter_names then record else record.insert name (.text (Text.strip value))
    | none => record.insert token .flag

/-- `result.setdefault(name, default)`. -/
def set_default (record : FlowRecord) (entry : FlowText × FlowText) : FlowRecord :=
  if entry.1 ∈ record then record else record.insert entry.1 (.text entry.2)

/-- `result[name] = int(value, 0)`; the error is the name. -/
def read_integer (record : FlowRecord) (name : FlowText) : Except FlowText FlowRecord :=
  match record.lookup name with
  | some (.text value) => match Text.int_literal value with
    | some n => .ok (record.insert name (.number n))
    | none => .error name
  | none | some .flag | some (.number _) => .error name

/-- The integers of a rule. -/
def read_integers : List FlowText → FlowRecord → Except FlowText FlowRecord
  | [], record => .ok record
  | name :: names, record => do
      let read ← read_integer record name
      read_integers names read

/-- The rule of the fields in front of the actions, and of the actions. -/
def read_rule (fields : List FlowText) (actions : FlowText) : Except FlowText FlowRecord :=
  let record := fields.foldl read_field ((∅ : FlowRecord).insert "actions".toList (.text (Text.strip actions)))
  read_integers (integer_defaults.map Prod.fst) (integer_defaults.foldl set_default record)

/-- `_parse_flow_expression`; the empty dictionary is `none`, and the error is the name of the
field that is no integer. -/
def parse_flow_expression (expression : FlowText) : Except FlowText (Option FlowRecord) :=
  match Text.search actions_here (Text.strip expression) with
  | none => .ok none
  | some found => (read_rule (found.1.splitOn ',') found.2).map some

/-- A text contains another. -/
def contains_text (part : String) (text : FlowText) : Bool := decide (part.toList <:+: text)

/-- The lines of a flow dump; `none` is a record without its actions. -/
def parse_flow_lines : List FlowText → Except (Option FlowText) (List FlowRecord)
  | [] => .ok []
  | line :: lines =>
    if contains_text "cookie=" line = true ∧ contains_text "actions=" line = false then .error none
    else match parse_flow_expression line with
      | .error name => .error (some name)
      | .ok parsed => do
          let rest ← parse_flow_lines lines
          pure (parsed.toList ++ rest)

def parse_flow_dump (output : FlowText) : Except (Option FlowText) (List FlowRecord) :=
  parse_flow_lines (Text.split_lines output)

/-- `metadata`. -/
def metadata_names : List FlowText := "actions".toList :: integer_defaults.map Prod.fst

/-- A rule without some of its names. -/
def FlowRecord.without (record : FlowRecord) (names : List FlowText) : FlowRecord :=
  names.foldl (fun r name => r.erase name) record

/-- The match of a rule. -/
def match_of (record : FlowRecord) : FlowRecord := FlowRecord.without record metadata_names

def same_rule_identity (actual expected : FlowRecord) : Prop :=
  (expected.lookup "cookie".toList ≠ none ∧ expected.lookup "cookie".toList ≠ some (.number 0) ∧
    actual.lookup "cookie".toList = expected.lookup "cookie".toList) ∨ match_of actual = match_of expected

instance (actual expected : FlowRecord) : Decidable (same_rule_identity actual expected) := by
  unfold same_rule_identity
  infer_instance

end MininetAi
