/-
The data contracts of `mininet_ai/sdk/contracts.py` and the action results of
`mininet_ai/substrates/runtime.py`, as far as coordination reads them.

A pydantic model with validators is a structure whose last fields are what the
validators check, so a value that pydantic would refuse cannot be built. Fields
that no modelled function reads are left out: clock readings, observations and
attachment targets of a context, timings, and the outputs and postconditions of
an action.
-/
import Mathlib.Data.List.AList
import Mathlib.Data.Rat.Defs

set_option autoImplicit false

namespace MininetAi

/-! ## JSON values and dictionaries -/

/-- A JSON value. An object keeps its fields in insertion order, as `dict` does. -/
inductive JsonValue where
  | null
  | bool (b : Bool)
  | num (q : ℚ)
  | str (s : String)
  | arr (xs : List JsonValue)
  | obj (fields : List (String × JsonValue))

mutual

/-- Equality of JSON values, by structural recursion so that it computes. -/
def JsonValue.decEq : (a b : JsonValue) → Decidable (a = b)
  | .null, .null => isTrue rfl
  | .bool a, .bool b => decidable_of_iff (a = b) (by simp)
  | .num a, .num b => decidable_of_iff (a = b) (by simp)
  | .str a, .str b => decidable_of_iff (a = b) (by simp)
  | .arr a, .arr b => match JsonValue.decEqList a b with
    | isTrue h => isTrue (by rw [h])
    | isFalse h => isFalse (by simp [h])
  | .obj a, .obj b => match JsonValue.decEqFields a b with
    | isTrue h => isTrue (by rw [h])
    | isFalse h => isFalse (by simp [h])
  | .null, .bool _ | .null, .num _ | .null, .str _ | .null, .arr _ | .null, .obj _
  | .bool _, .null | .bool _, .num _ | .bool _, .str _ | .bool _, .arr _ | .bool _, .obj _
  | .num _, .null | .num _, .bool _ | .num _, .str _ | .num _, .arr _ | .num _, .obj _
  | .str _, .null | .str _, .bool _ | .str _, .num _ | .str _, .arr _ | .str _, .obj _
  | .arr _, .null | .arr _, .bool _ | .arr _, .num _ | .arr _, .str _ | .arr _, .obj _
  | .obj _, .null | .obj _, .bool _ | .obj _, .num _ | .obj _, .str _ | .obj _, .arr _ =>
    isFalse (by simp)

/-- Equality of JSON arrays. -/
def JsonValue.decEqList : (a b : List JsonValue) → Decidable (a = b)
  | [], [] => isTrue rfl
  | [], _ :: _ | _ :: _, [] => isFalse (by simp)
  | a :: as, b :: bs => match JsonValue.decEq a b, JsonValue.decEqList as bs with
    | isTrue h, isTrue hs => isTrue (by rw [h, hs])
    | isFalse h, _ => isFalse (by simp [h])
    | _, isFalse hs => isFalse (by simp [hs])

/-- Equality of JSON objects, field by field. -/
def JsonValue.decEqFields : (a b : List (String × JsonValue)) → Decidable (a = b)
  | [], [] => isTrue rfl
  | [], _ :: _ | _ :: _, [] => isFalse (by simp)
  | (k, a) :: as, (l, b) :: bs =>
    if hk : k = l then match JsonValue.decEq a b, JsonValue.decEqFields as bs with
      | isTrue h, isTrue hs => isTrue (by rw [hk, h, hs])
      | isFalse h, _ => isFalse (by simp [h])
      | _, isFalse hs => isFalse (by simp [hs])
    else isFalse (by simp [hk])

end

instance : DecidableEq JsonValue := JsonValue.decEq

/-- A dictionary: every key has at most one value. -/
abbrev Dict (κ ν : Type) := AList (fun _ : κ => ν)

/-- Equality of dictionaries, entry by entry so that it computes. -/
instance Dict.decEq {κ ν : Type} [DecidableEq κ] [DecidableEq ν] : DecidableEq (Dict κ ν) :=
  fun a b => decidable_of_iff (a.entries = b.entries) AList.ext_iff.symm

/-! ## Shared state -/

/-- The namespace an entry lives in: the whole run, or one deployment of it. -/
inductive SharedScope where
  | run
  | deployment
  deriving DecidableEq

/-- One versioned value visible in a shared scope. -/
structure SharedStateEntry where
  value : JsonValue
  version : ℕ
  updated_by : String
  version_pos : 0 < version
  deriving DecidableEq

/-- The shared state one invocation sees: a dictionary for each scope. -/
structure SharedStateSnapshot where
  run : Dict String SharedStateEntry := ∅
  deployment : Dict String SharedStateEntry := ∅
  deriving DecidableEq

/-- The dictionary of a scope, `getattr(snapshot, scope)` in the source. -/
def SharedStateSnapshot.scope (s : SharedStateSnapshot) : SharedScope → Dict String SharedStateEntry
  | .run => s.run
  | .deployment => s.deployment

/-- A snapshot key on which a proposed decision depends, absence included. -/
structure SharedStateRead where
  scope : SharedScope
  key : String
  deriving DecidableEq

/-- What an update does to its key. -/
inductive UpdateOperation where
  | set
  | delete
  deriving DecidableEq

/-- One optionally conditional mutation. A `delete` carries no value. -/
structure SharedStateUpdate where
  scope : SharedScope
  operation : UpdateOperation := .set
  key : String
  value : JsonValue := .null
  expected_version : Option ℕ := none
  deriving DecidableEq

/-- The committed result of one mutation. -/
structure SharedStateChange where
  scope : SharedScope
  operation : UpdateOperation
  key : String
  value : Option JsonValue
  version : ℕ
  version_pos : 0 < version
  deriving DecidableEq

/-! ## Invocations -/

/-- The part of `AgentContext` that coordination reads. -/
structure AgentContext where
  invocation_id : String
  run_id : String
  agent_id : String
  deployment : String
  shared_state : SharedStateSnapshot := {}
  priority : ℤ := 0
  deriving DecidableEq

/-- One proposed network action. -/
structure ActionProposal where
  id : String
  capability : String
  target : String
  arguments : List (String × JsonValue) := []
  deriving DecidableEq

/-- One proposed delivery of an intent to another agent. -/
structure DelegationProposal where
  id : String
  target_agent_id : String
  intent : String
  metadata : List (String × JsonValue) := []
  deriving DecidableEq

/-- What one agent answers. The last three fields are its model validator. -/
structure AgentResponse where
  shared_state_reads : List SharedStateRead := []
  message : Option String := none
  proposals : List ActionProposal := []
  delegations : List DelegationProposal := []
  shared_state_updates : List SharedStateUpdate := []
  metadata : List (String × JsonValue) := []
  response_has_an_outcome : message ≠ none ∨ proposals ≠ [] ∨ delegations ≠ [] ∨
    shared_state_updates ≠ [] := by simp
  proposal_ids_unique : (proposals.map ActionProposal.id).Nodup := by
    first | exact List.nodup_nil | simp
  delegation_ids_unique : (delegations.map DelegationProposal.id).Nodup := by
    first | exact List.nodup_nil | simp
  deriving DecidableEq

/-- The outcome class of one action. -/
inductive ActionStatus where
  | succeeded
  | rejected
  | failed
  deriving DecidableEq

/-- Stable failure information of one action. -/
structure RuntimeIssue where
  code : String
  message : String
  target : Option String := none
  deriving DecidableEq

/-- The normalized result of one action: it has an issue exactly when it did not
succeed. -/
structure ActionResult where
  run_id : String
  request_id : String
  status : ActionStatus
  issue : Option RuntimeIssue := none
  issue_matches_status : issue = none ↔ status = .succeeded := by simp
  deriving DecidableEq

/-- The result of an action that succeeded. -/
def ActionResult.success (run_id request_id : String) : ActionResult where
  run_id := run_id
  request_id := request_id
  status := .succeeded

/-- The outcome class of one invocation. -/
inductive InvocationStatus where
  | succeeded
  | rejected
  | failed
  deriving DecidableEq

/-- Stable failure information of one invocation. -/
structure AgentRuntimeIssue where
  code : String
  message : String
  agent_id : Option String := none
  target : Option String := none
  deriving DecidableEq

/-- The normalized result of one invocation: it has an issue exactly when it did
not succeed, and a response when it did. -/
structure AgentInvocationResult where
  invocation_id : String
  run_id : String
  agent_id : String
  status : InvocationStatus
  response : Option AgentResponse := none
  action_results : List ActionResult := []
  shared_state_changes : List SharedStateChange := []
  issue : Option AgentRuntimeIssue := none
  issue_matches_status : issue = none ↔ status = .succeeded := by simp
  success_has_response : status = .succeeded → response ≠ none := by simp
  deriving DecidableEq

end MininetAi
