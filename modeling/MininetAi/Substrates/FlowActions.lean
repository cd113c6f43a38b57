/-
Installing a flow, removing one, and the removal that undoes an installation
(`_install_flow` and `_remove_flow` of `mininet_ai/substrates/mininet_ovs/actions.py` and
`SubstrateActionProvider` of `mininet_ai/capabilities/adapters.py`).

The removal is given what the installation was given, apart from the actions. It refuses the
timeouts, which the installation accepts.
-/
import MininetAi.Substrates.FlowFields

set_option autoImplicit false

namespace MininetAi

open Except AList

/-! ## Requests -/

/-- `ActionRequest`. -/
structure SubstrateRequest where
  id : String
  name : String
  target : String
  parameters : FlowParameters
  timeout_seconds : ℚ := 30

structure CapabilityProviderError where
  message : String
  code : String
  deriving DecidableEq

/-- `parameters.pop("strict", False)`, when it is a boolean. -/
def removal_strict (parameters : FlowParameters) : Except ActionExecutionError Bool :=
  match parameters.lookup "strict" with
  | none => .ok false
  | some (.bool strict) => .ok strict
  | some .null | some (.int _) | some (.str _) | some .other | some (.obj _) =>
    .error (.reject "strict must be a boolean")

/-- What `_remove_flow` selects, and whether strictly. -/
def removal_selector (parameters : FlowParameters) : Except ActionExecutionError (Bool × FlowText) := do
  let strict ← removal_strict parameters
  let selector ← flow_expression (parameters.erase "strict") false
  pure (strict, selector)

/-! ## Inverse requests -/

/-- The action that undoes one, and its parameters. -/
def inverse_action (name : String) (parameters : FlowParameters) (output : List (String × JsonValue)) :
    Except CapabilityProviderError (String × FlowParameters) :=
  if name = "openflow.flow.install" then .ok ("openflow.flow.remove", parameters.erase "actions")
  else if name = "link.enable" then .ok ("link.disable", ∅)
  else if name = "link.disable" then .ok ("link.enable", ∅)
  else if name = "host.process.start" then
    match output.lookup "processId" with
    | some (.str process_id) =>
      if process_id = "" then
        .error ⟨"process rollback requires the started process identifier", "capability.rollback.invalid-output"⟩
      else .ok ("host.process.stop", (∅ : FlowParameters).insert "processId" (.str process_id))
    | none | some .null | some (.bool _) | some (.num _) | some (.arr _) | some (.obj _) =>
      .error ⟨"process rollback requires the started process identifier", "capability.rollback.invalid-output"⟩
  else .error ⟨worded "substrate action '" [name, "' has no safe inverse"], "capability.rollback.unsupported"⟩

/-- The request of `SubstrateActionProvider.rollback`. -/
def rollback_request (request : SubstrateRequest) (output : List (String × JsonValue)) (timeout_seconds : ℚ) :
    Except CapabilityProviderError SubstrateRequest := do
  let inverse ← inverse_action request.name request.parameters output
  pure
    { id := worded request.id [":rollback"]
      name := inverse.1
      target := request.target
      parameters := inverse.2
      timeout_seconds := timeout_seconds }

theorem rollback_request_ok {request undo : SubstrateRequest} {output : List (String × JsonValue)} {timeout_seconds : ℚ}
    (h : rollback_request request output timeout_seconds = .ok undo) :
    inverse_action request.name request.parameters output = .ok (undo.name, undo.parameters) ∧
      undo.target = request.target := by
  obtain ⟨inverse, hinverse, hparts⟩ := bind_ok_iff.mp h
  rw [hinverse, ← ok.inj hparts]
  exact ⟨rfl, rfl⟩

theorem rollback_request_install {request : SubstrateRequest} (hname : request.name = "openflow.flow.install")
    (output : List (String × JsonValue)) (timeout_seconds : ℚ) :
    rollback_request request output timeout_seconds = .ok
      { id := worded request.id [":rollback"]
        name := "openflow.flow.remove"
        target := request.target
        parameters := request.parameters.erase "actions"
        timeout_seconds := timeout_seconds } := by
  rw [rollback_request, inverse_action, if_pos hname]
  rfl

/-! ## Known parameters -/

variable {parameters : FlowParameters} {require_actions : Bool} {expression : FlowText}

/-- No parameter is unknown when each has an allowed name. -/
theorem unknown_parameters_eq_nil :
    unknown_parameters parameters require_actions = [] ↔
      ∀ name ∈ parameters, name ∈ allowed_parameters require_actions := by
  unfold unknown_parameters
  simp only [List.filter_eq_nil_iff, decide_eq_true_eq, not_not, mem_keys]

/-- What an accepted expression is made of, whatever the match is. -/
theorem flow_expression_parts (h : flow_expression parameters require_actions = .ok expression) :
    unknown_parameters parameters require_actions = [] ∧
      ∃ selection metadata items actions, parameters.lookup "match" = some selection ∧
        metadata_fields parameters = .ok metadata ∧ match_fields selection = .ok items ∧
        action_field parameters require_actions = .ok actions ∧ expression = joined (metadata ++ (items ++ actions)) := by
  obtain ⟨parts, hparts, h⟩ := bind_ok_iff.mp h
  unfold flow_fields at hparts
  by_cases hunknown : unknown_parameters parameters require_actions = []
  · rw [if_neg (not_not.mpr hunknown)] at hparts
    cases hselection : parameters.lookup "match" with
    | none =>
      rw [hselection] at hparts
      cases hparts
    | some selection =>
      rw [hselection] at hparts
      obtain ⟨metadata, hmetadata, hparts⟩ := bind_ok_iff.mp hparts
      obtain ⟨items, hitems, hparts⟩ := bind_ok_iff.mp hparts
      obtain ⟨actions, hactions, hparts⟩ := bind_ok_iff.mp hparts
      refine ⟨hunknown, selection, metadata, items, actions, rfl, hmetadata, hitems, hactions, ?_⟩
      rw [← ok.inj h, ← ok.inj hparts]
  · rw [if_pos hunknown] at hparts
    cases hparts

/-- An expression is accepted when its parts are. -/
theorem flow_expression_of {parameters : FlowParameters} {require_actions : Bool} {selection : FlowParameter}
    {metadata items actions : List FlowText} (hunknown : unknown_parameters parameters require_actions = [])
    (hselection : parameters.lookup "match" = some selection) (hmetadata : metadata_fields parameters = .ok metadata)
    (hitems : match_fields selection = .ok items) (hactions : action_field parameters require_actions = .ok actions) :
    flow_expression parameters require_actions = .ok (joined (metadata ++ (items ++ actions))) := by
  unfold flow_expression flow_fields
  rw [if_neg (not_not.mpr hunknown), hselection]
  simp only [hmetadata, hitems, hactions]
  rfl

/-- The fields before the match depend on the parameters of these fields alone. -/
theorem metadata_fields_congr {parameters' : FlowParameters}
    (h : ∀ name ∈ ["cookie", "cookieMask", "table", "priority", "idleTimeout", "hardTimeout"],
      parameters'.lookup name = parameters.lookup name) :
    metadata_fields parameters' = metadata_fields parameters := by
  have hgiven : ∀ {name : String}, parameters'.lookup name = parameters.lookup name →
      given_value parameters' name = given_value parameters name := by
    intro name hname
    unfold given_value
    rw [hname]
  have hcookie : cookie_field parameters' = cookie_field parameters := by
    unfold cookie_field
    rw [hgiven (h "cookie" (by decide)), hgiven (h "cookieMask" (by decide))]
  unfold metadata_fields integer_field
  rw [hcookie, h "table" (by decide), h "priority" (by decide), h "idleTimeout" (by decide), h "hardTimeout" (by decide)]

/-! ## The removal of an installed flow -/

/-- The parameters of the removal of a flow that was installed. -/
def removal_parameters (parameters : FlowParameters) : FlowParameters := (parameters.erase "actions").erase "strict"

theorem lookup_removal_parameters (parameters : FlowParameters) {name : String} (hactions : name ≠ "actions")
    (hstrict : name ≠ "strict") : (removal_parameters parameters).lookup name = parameters.lookup name := by
  unfold removal_parameters
  rw [lookup_erase_ne hstrict, lookup_erase_ne hactions]

/-- The removal of an installed flow knows its parameters when no timeout is given. -/
theorem removal_known (h : unknown_parameters parameters true = []) :
    unknown_parameters (removal_parameters parameters) false = [] ↔
      parameters.lookup "idleTimeout" = none ∧ parameters.lookup "hardTimeout" = none := by
  rw [unknown_parameters_eq_nil] at h
  have hmem : ∀ name, name ∈ removal_parameters parameters ↔ name ≠ "strict" ∧ name ≠ "actions" ∧ name ∈ parameters := by
    intro name
    unfold removal_parameters
    rw [mem_erase, mem_erase]
  rw [unknown_parameters_eq_nil, lookup_eq_none, lookup_eq_none]
  constructor
  · intro hknown
    have hforbidden : ∀ name, name ≠ "strict" → name ≠ "actions" → name ∉ allowed_parameters false → name ∉ parameters := by
      intro name hstrict hactions hname hgiven
      exact hname (hknown name ((hmem name).mpr ⟨hstrict, hactions, hgiven⟩))
    exact ⟨hforbidden _ (by decide) (by decide) (by decide), hforbidden _ (by decide) (by decide) (by decide)⟩
  · rintro ⟨hidle, hhard⟩ name hname
    obtain ⟨-, hactions, hgiven⟩ := (hmem name).mp hname
    have hallowed := h name hgiven
    have hcases : ∀ name ∈ allowed_parameters true, name = "actions" ∨ name = "idleTimeout" ∨ name = "hardTimeout" ∨
        name ∈ allowed_parameters false := by decide
    rcases hcases name hallowed with rfl | rfl | rfl | hknown
    · exact absurd rfl hactions
    · exact absurd hgiven hidle
    · exact absurd hgiven hhard
    · exact hknown

/-- The removal of an installed flow is not strict. -/
theorem removal_not_strict (h : unknown_parameters parameters true = []) :
    removal_strict (parameters.erase "actions") = .ok false := by
  have hnone : (parameters.erase "actions").lookup "strict" = none := by
    rw [lookup_erase_ne (by decide)]
    refine lookup_eq_none.mpr fun hmem => ?_
    have hallowed := unknown_parameters_eq_nil.mp h "strict" hmem
    revert hallowed
    decide
  rw [removal_strict, hnone]

/-- What the removal of an installed flow selects: the fields of the installation, without the
actions. -/
theorem removal_selector_eq (h : flow_expression parameters true = .ok expression)
    (hidle : parameters.lookup "idleTimeout" = none)
    (hhard : parameters.lookup "hardTimeout" = none) :
    ∃ fields actions, expression = joined (fields ++ [assigned "actions".toList actions]) ∧
      removal_selector (parameters.erase "actions") = .ok (false, joined fields) := by
  obtain ⟨hunknown, selection, metadata, items, last, hselection, hmetadata, hitems, hlast, rfl⟩ := flow_expression_parts h
  obtain ⟨actions, -, hactions⟩ := bind_ok_iff.mp hlast
  have hsame : ∀ name ∈ ["cookie", "cookieMask", "table", "priority", "idleTimeout", "hardTimeout"],
      (removal_parameters parameters).lookup name = parameters.lookup name := by
    intro name hname
    have hother : ∀ name ∈ ["cookie", "cookieMask", "table", "priority", "idleTimeout", "hardTimeout"],
        name ≠ "actions" ∧ name ≠ "strict" := by decide
    exact lookup_removal_parameters parameters (hother name hname).1 (hother name hname).2
  have hselection' := (lookup_removal_parameters parameters (by decide) (by decide)).trans hselection
  have hexpression := @flow_expression_of _ false _ _ _ [] ((removal_known hunknown).mpr ⟨hidle, hhard⟩) hselection'
    ((metadata_fields_congr hsame).trans hmetadata) hitems rfl
  refine ⟨metadata ++ items, actions, ?_, ?_⟩
  · rw [List.append_assoc, ← ok.inj hactions]
  · unfold removal_selector
    rw [removal_not_strict hunknown]
    unfold removal_parameters at hexpression
    rw [List.append_nil] at hexpression
    simp only [hexpression]
    rfl

/-- The removal that undoes an accepted installation is accepted exactly when the installation was
given no timeout. -/
theorem rollback_accepted_iff {request : SubstrateRequest} {expression : FlowText}
    (hname : request.name = "openflow.flow.install") (h : flow_expression request.parameters true = .ok expression)
    (output : List (String × JsonValue)) (timeout_seconds : ℚ) :
    ∃ undo, rollback_request request output timeout_seconds = .ok undo ∧ undo.name = "openflow.flow.remove" ∧
      ((∃ selected, removal_selector undo.parameters = .ok selected) ↔
        request.parameters.lookup "idleTimeout" = none ∧ request.parameters.lookup "hardTimeout" = none) := by
  refine ⟨_, rollback_request_install hname output timeout_seconds, rfl, ⟨?_, ?_⟩⟩
  · rintro ⟨selected, hselected⟩
    obtain ⟨strict, -, hselector⟩ := bind_ok_iff.mp hselected
    obtain ⟨selector, hselector, -⟩ := bind_ok_iff.mp hselector
    exact (removal_known (flow_expression_parts h).1).mp (flow_expression_parts hselector).1
  · rintro ⟨hidle, hhard⟩
    obtain ⟨fields, actions, -, hselector⟩ := removal_selector_eq h hidle hhard
    exact ⟨_, hselector⟩

/-- A request for a flow that drops what comes in at a port. -/
def drop_request (parameters : FlowParameters) : SubstrateRequest where
  id := "drop"
  name := "openflow.flow.install"
  target := "s1"
  parameters := (parameters.insert "match" (.obj (singleton "in_port" (.int 1)))).insert "actions" (.str "drop")

/-- The removal of a flow with a cookie is accepted. -/
theorem rollback_accepted_cookie :
    ∃ undo, rollback_request (drop_request (singleton "cookie" (.int 7))) [] 10 = .ok undo ∧
      undo.name = "openflow.flow.remove" ∧ ∃ selected, removal_selector undo.parameters = .ok selected := by
  have haccepted : flow_expression (drop_request (singleton "cookie" (.int 7))).parameters true =
      .ok "cookie=0x7,in_port=1,actions=drop".toList := by decide
  obtain ⟨undo, hundo, hname, hiff⟩ := rollback_accepted_iff rfl haccepted [] 10
  exact ⟨undo, hundo, hname, hiff.mpr ⟨rfl, rfl⟩⟩

/-- A flow with a timeout is installed, and its removal is refused. -/
theorem rollback_refused_timeout :
    flow_expression (drop_request (singleton "idleTimeout" (.int 10))).parameters true =
        .ok "idle_timeout=10,in_port=1,actions=drop".toList ∧
      ∃ undo, rollback_request (drop_request (singleton "idleTimeout" (.int 10))) [] 10 = .ok undo ∧
        removal_selector undo.parameters = .error (.reject "unknown flow parameters: idleTimeout") := by
  refine ⟨by decide, _, rollback_request_install rfl [] 10, by decide⟩

end MininetAi
