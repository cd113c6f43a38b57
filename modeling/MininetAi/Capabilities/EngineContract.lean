/-
The contract of an execution.

Whatever its callees do, the engine keeps the identity of the request, dispatches only
what it admits, reports success only for what it has checked and rolls back at most once
and with reason. It returns as long as its handlers can build an issue: an exception that
gives a handler no code, no message or no text where it needs one leaves the engine. The
engine's own errors never do, so the condition is about what the callees raise. The result
is built behind the handlers, so an outcome of which none can be built leaves it too.
-/
import MininetAi.Capabilities.Engine

set_option autoImplicit false

namespace MininetAi

open Except

namespace CapabilityEngine

/-! ## Errors of the engine -/

/-- An error of a check: it fails, with a code and a message. -/
structure WellFormed (e : CapabilityError) : Prop where
  status_fails : e.status ≠ .succeeded
  code_nonempty : e.code ≠ ""
  message_nonempty : e.message ≠ ""

theorem WellFormed.reportable {e : CapabilityError} (h : WellFormed e) : Reportable e.exception :=
  ⟨h.status_fails, ⟨e.code, rfl, h.code_nonempty⟩, h.message_nonempty⟩

theorem WellFormed.describable (e : CapabilityError) : Describable e.exception :=
  ⟨rfl, _, rfl, Or.inl (worded_nonempty (by decide) _)⟩

variable {α : Type} {x : Except CapabilityError α} {definition : AgentExecutionDefinition}
  {schema : JsonValue} {value : OutputValue} {invalid_code : String}
  {invalid_status : ActionStatus} {label : String} {result : CapabilityResult}
  {checks : List PostconditionResult} {provider : CapabilityProvider} {e : RaisedException}

theorem raising_error (h : raising x = .error e) :
    ∃ error, x = .error error ∧ e = error.exception := by
  unfold raising at h
  split at h
  · cases h
    exact ⟨_, rfl, rfl⟩
  · cases h

theorem raising_ok_iff {a : α} : raising x = .ok a ↔ x = .ok a := by
  cases x with
  | error e => exact iff_of_false nofun nofun
  | ok b => exact ⟨fun h => by cases h; rfl, fun h => by cases h; rfl⟩

theorem rejected_ne_succeeded : ActionStatus.rejected ≠ .succeeded := by decide

variable {code message : String} {context : ScopedAgentContext} {proposal : ActionProposal}
  {engine : CapabilityEngine} {raw : RawOutcome} {r : CapabilityResult}
  {outcome : ReturnedOutcome} {capability : DeclaredCapability} {run : EngineRun CapabilityResult}

theorem reject_well_formed (hcode : code ≠ "") (hmessage : message ≠ "") :
    WellFormed (.reject code message) :=
  ⟨rejected_ne_succeeded, hcode, hmessage⟩

theorem fail_well_formed (hcode : code ≠ "") (hmessage : message ≠ "") :
    WellFormed (.fail code message) :=
  ⟨failed_ne_succeeded, hcode, hmessage⟩

/-- A check that refuses raises an error of its own code and text. -/
theorem refused_well_formed {p : Prop} [Decidable p] {first : String} {rest : List String}
    {e : CapabilityError} (hcode : code ≠ "") (hfirst : first ≠ "")
    (h : refuse_if p (.reject code (worded first rest)) = .error e) : WellFormed e := by
  rw [refuse_if_error h]
  exact reject_well_formed hcode (worded_nonempty hfirst _)

theorem catalog_error_code (e : CatalogError) : e.code ≠ "" := by
  cases e <;> exact of_decide_eq_true rfl

theorem catalog_error_message (e : CatalogError) : e.message ≠ "" := by
  cases e <;> exact worded_nonempty (by decide) _

theorem resolve_error {catalog : CompiledCatalog} {e : CapabilityError}
    (h : resolve catalog context = .error e) : WellFormed e := by
  unfold resolve at h
  split at h
  · cases h
    exact reject_well_formed (catalog_error_code _) (catalog_error_message _)
  · simp only at h
    split at h
    · cases h
      exact reject_well_formed (by decide) (worded_nonempty (by decide) _)
    · cases h

theorem authorize_error {e : CapabilityError}
    (h : authorize definition context proposal = .error e) : WellFormed e := by
  unfold authorize at h
  split at h
  · cases h
    exact reject_well_formed (by decide) (worded_nonempty (by decide) _)
  · -- the four remaining checks refuse with a code and a text of their own
    rcases bind_error_iff.mp h with h | ⟨_, -, h⟩
    · exact refused_well_formed (by decide) (by decide) h
    rcases bind_error_iff.mp h with h | ⟨_, -, h⟩
    · exact refused_well_formed (by decide) (by decide) h
    rcases bind_error_iff.mp h with h | ⟨_, -, h⟩
    · exact refused_well_formed (by decide) (by decide) h
    rcases bind_error_iff.mp h with h | ⟨_, -, h⟩
    · exact refused_well_formed (by decide) (by decide) h
    cases h

theorem validate_schema_ok_iff :
    engine.validate_schema schema value invalid_code invalid_status label = .ok () ↔
      engine.schema schema value = .valid := by
  unfold validate_schema
  cases engine.schema schema value with
  | valid => exact iff_of_true rfl rfl
  | schema_error message => exact iff_of_false nofun nofun
  | value_error path message => exact iff_of_false nofun nofun
  | failure text => exact iff_of_false nofun nofun

theorem validate_schema_error (hcode : invalid_code ≠ "") (hstatus : invalid_status ≠ .succeeded)
    (h : engine.validate_schema schema value invalid_code invalid_status label = .error e) :
    Reportable e := by
  unfold validate_schema at h
  split at h
  · cases h
  · cases h
    exact (fail_well_formed (by decide) (worded_nonempty (by decide) _)).reportable
  · cases h
    exact WellFormed.reportable ⟨hstatus, hcode, worded_nonempty (by decide) _⟩
  · cases h
    exact ⟨_, rfl⟩

/-- What admission raises can be reported. -/
theorem admit_error (h : engine.admit_request context proposal = .error e) : Reportable e := by
  rcases bind_error_iff.mp h with h | ⟨definition, -, h⟩
  · obtain ⟨error, herror, rfl⟩ := raising_error h
    exact (resolve_error herror).reportable
  rcases bind_error_iff.mp h with h | ⟨capability, -, h⟩
  · obtain ⟨error, herror, rfl⟩ := raising_error h
    exact (authorize_error herror).reportable
  rcases bind_error_iff.mp h with h | ⟨_, -, h⟩
  · exact validate_schema_error (by decide) rejected_ne_succeeded h
  rcases bind_error_iff.mp h with h | ⟨_, -, h⟩
  · obtain ⟨error, herror, rfl⟩ := raising_error h
    rw [refuse_if_error herror]
    exact (fail_well_formed (by decide) (worded_nonempty (by decide) _)).reportable
  cases h

theorem agent_runtime_error_reportable (hcode : code ≠ "") (hmessage : message ≠ "") :
    Reportable (agent_runtime_error code message) :=
  ⟨⟨code, rfl, hcode⟩, message, rfl, hmessage⟩

theorem provider_result_error {e : CapabilityError}
    (h : provider_result context proposal raw = .error e) : WellFormed e := by
  unfold provider_result at h
  split at h
  · cases h
  · rcases bind_error_iff.mp h with h | ⟨_, -, h⟩
    · rw [refuse_if_error h]
      exact fail_well_formed (by decide) (by decide)
    · cases h

/-- Reading an outcome raises an error of the engine, or what reading the reply raises. -/
theorem normalize_outcome_error (h : normalize_outcome raw = .error e) :
    (∃ error, WellFormed error ∧ e = error.exception) ∨ raw = .unreadable e := by
  cases raw with
  | result r =>
    rw [normalize_outcome] at h
    split at h
    · cases h
    · cases h
      exact Or.inl ⟨_, fail_well_formed (by decide) (worded_nonempty (by decide) _), rfl⟩
  | outcome o => cases h
  | mapping fields => cases h
  | invalid_mapping text =>
    cases h
    exact Or.inl ⟨_, fail_well_formed (by decide) (worded_nonempty (by decide) _), rfl⟩
  | unreadable e' =>
    cases h
    exact Or.inr rfl
  | other =>
    cases h
    exact Or.inl ⟨_, fail_well_formed (by decide) (by decide), rfl⟩

/-! ## Results of failures -/

theorem failed_result_ok {handled : ActionStatus × RuntimeIssue}
    (h : failed_result context proposal handled = .ok r) :
    r.run_id = context.run_id ∧ r.request_id = proposal.id ∧ r.status ≠ .succeeded := by
  unfold failed_result at h
  split at h
  · cases h
  · rename_i hstatus
    cases h
    exact ⟨rfl, rfl, hstatus⟩

theorem report_ok (h : report context proposal e = .ok r) :
    r.run_id = context.run_id ∧ r.request_id = proposal.id ∧ r.status ≠ .succeeded := by
  obtain ⟨handled, -, h⟩ := bind_ok_iff.mp h
  exact failed_result_ok h

/-- The handlers report exactly what can be reported. -/
theorem report_ok_iff {context : ScopedAgentContext} {proposal : ActionProposal}
    {e : RaisedException} : (∃ r, report context proposal e = .ok r) ↔ Reportable e := by
  rw [← @handle_execution_ok_iff proposal.target]
  constructor
  · rintro ⟨r, h⟩
    obtain ⟨⟨status, issue⟩, hhandled, h⟩ := bind_ok_iff.mp h
    refine ⟨status, issue, hhandled, fun hstatus => ?_⟩
    rw [failed_result, dif_pos hstatus] at h
    cases h
  · rintro ⟨status, issue, hhandled, hstatus⟩
    exact ⟨_, bind_ok_iff.mpr ⟨_, hhandled, dif_neg hstatus⟩⟩

theorem unsatisfied_result_ok {rolled_back : Option RollbackResult}
    (h : unsatisfied_result proposal result checks message rolled_back = .ok r) :
    r.run_id = result.run_id ∧ r.request_id = result.request_id ∧ r.status ≠ .succeeded := by
  obtain ⟨issue, -, h⟩ := bind_ok_iff.mp h
  cases h
  exact ⟨rfl, rfl, failed_ne_succeeded⟩

theorem unsatisfied_result_returns (proposal : ActionProposal) (result : CapabilityResult)
    (checks : List PostconditionResult) (hmessage : message ≠ "")
    (rolled_back : Option RollbackResult) :
    ∃ r, unsatisfied_result proposal result checks message rolled_back = .ok r := by
  have hcode : (if rolled_back.any (fun r => r.status ≠ .succeeded) = true
      then "capability.rollback.failed" else "capability.postcondition.failed") ≠ "" := by
    split <;> decide
  obtain ⟨issue, hissue⟩ := runtime_issue_ok_iff.mpr ⟨hcode, worded_nonempty hmessage _⟩
  exact ⟨_, bind_ok_iff.mpr ⟨issue, hissue, rfl⟩⟩

/-! ## Rollback -/

/-- What reading the reply of a rollback raises. -/
def RawOutcome.Raises (raw : RawOutcome) (e : RaisedException) : Prop :=
  raw = .unreadable e ∨ ∃ o, raw = .outcome o ∧ o.changed.truth = .error e

/-- The provider's rollback raises, or returns a reply that does. -/
def UndoRaises (provider : CapabilityProvider) (context : ScopedAgentContext)
    (proposal : ActionProposal) (outcome : ReturnedOutcome) (e : RaisedException) : Prop :=
  ∃ undo, provider.rollback = some undo ∧ (undo context proposal outcome = .error e ∨
    ∃ raw, undo context proposal outcome = .ok raw ∧ RawOutcome.Raises raw e)

theorem checked_field_ok_iff {β : Type} {model : String} {field : Option β} {b : β} :
    checked_field model field = .ok b ↔ field = some b := by
  cases field with
  | none => exact iff_of_false (fun h => by cases h) fun h => by cases h
  | some c => exact ⟨fun h => by cases h; rfl, fun h => by cases h; rfl⟩

theorem checked_field_error {β : Type} {model : String} {field : Option β}
    (h : checked_field model field = .error e) : e = validation_error model := by
  cases field with
  | none => exact (Except.error.inj h).symm
  | some c => cases h

theorem validation_error_describable (model : String) : Describable (validation_error model) :=
  ⟨rfl, _, rfl, Or.inl (worded_nonempty (by decide) _)⟩

theorem rolled_back_result_error (h : rolled_back_result outcome = .error e) :
    Describable e ∨ outcome.changed.truth = .error e := by
  rcases bind_error_iff.mp h with h | ⟨_, -, h⟩
  · exact Or.inr h
  rcases bind_error_iff.mp h with h | ⟨_, -, h⟩
  · exact Or.inl (checked_field_error h ▸ validation_error_describable _)
  rcases bind_error_iff.mp h with h | ⟨_, -, h⟩
  · exact Or.inl (checked_field_error h ▸ validation_error_describable _)
  cases h

/-- An outcome that was validated becomes a result. -/
theorem rolled_back_result_returned (o : CapabilityOutcome) (e : RaisedException) :
    rolled_back_result o.returned ≠ .error e := fun h => by cases h

theorem rollback_result_error (h : rollback_result context raw = .error e) :
    Describable e ∨ RawOutcome.Raises raw e := by
  cases raw with
  | result r =>
    rw [rollback_result] at h
    split at h
    · cases h
      exact Or.inl ⟨rfl, _, rfl, Or.inl (by decide)⟩
    · cases h
  | outcome o => exact (rolled_back_result_error h).imp_right fun h => Or.inr ⟨o, rfl, h⟩
  | mapping fields => exact absurd h (rolled_back_result_returned { output := fields } e)
  | invalid_mapping text =>
    cases h
    exact Or.inl (WellFormed.describable _)
  | unreadable e' =>
    cases h
    exact Or.inr (Or.inl rfl)
  | other =>
    cases h
    exact Or.inl (WellFormed.describable _)

theorem rollback_result_raises (h : RawOutcome.Raises raw e) :
    rollback_result context raw = .error e := by
  rcases h with rfl | ⟨o, rfl, htruth⟩
  · rfl
  · exact bind_error_iff.mpr (Or.inr ⟨o, rfl, bind_error_iff.mpr (Or.inl htruth)⟩)

theorem undo_error {undo : Except RaisedException RawOutcome}
    (h : undo = .error e ∨ ∃ raw, undo = .ok raw ∧ RawOutcome.Raises raw e) :
    undo >>= rollback_result context = .error e := by
  rcases h with rfl | ⟨raw, rfl, hraises⟩
  · rfl
  · exact rollback_result_raises hraises

/-- A rollback returns a result unless its handler is given an exception without words. -/
theorem rollback_returns_iff : (∃ r, (rollback provider context proposal outcome).result = .ok r) ↔
      ∀ e, UndoRaises provider context proposal outcome e → Describable e := by
  have hcode : "capability.rollback.failed" ≠ "" := by decide
  unfold rollback UndoRaises
  cases hundo : provider.rollback with
  | none =>
    have hunsupported : "capability.rollback.unsupported" ≠ "" := by decide
    have hmessage : "capability provider does not support rollback" ≠ "" := by decide
    obtain ⟨issue, hissue⟩ := (@runtime_issue_ok_iff _ _ proposal.target).mpr
      ⟨hunsupported, hmessage⟩
    refine iff_of_true ⟨failed_rollback issue, by rw [hissue]; rfl⟩ ?_
    rintro e ⟨undo, h, -⟩
    cases h
  | some undo =>
    cases hrun : undo context proposal outcome >>= rollback_result context with
    | ok r =>
      refine iff_of_true ⟨r, by simp only [hrun]⟩ ?_
      rintro e ⟨_, heq, hraises⟩
      cases heq
      rw [undo_error hraises] at hrun
      cases hrun
    | error e =>
      simp only [hrun]
      have hreturns : (∃ r, (describe "capability.rollback.failed" proposal.target e).map
          failed_rollback = .ok r) ↔ Describable e := by
        rw [← describe_ok_iff hcode]
        cases describe "capability.rollback.failed" proposal.target e with
        | error e' => exact iff_of_false (fun ⟨_, h⟩ => by cases h) fun ⟨_, h⟩ => by cases h
        | ok issue => exact iff_of_true ⟨_, rfl⟩ ⟨_, rfl⟩
      rw [hreturns]
      constructor
      · rintro hdescribable e' ⟨_, heq, hraises⟩
        cases heq
        rw [undo_error hraises] at hrun
        rw [Except.error.inj hrun]
        exact hdescribable
      · intro hall
        rcases bind_error_iff.mp hrun with hraises | ⟨raw, hraw, hresult⟩
        · exact hall e ⟨undo, rfl, Or.inl hraises⟩
        · rcases rollback_result_error hresult with hdescribable | hraises
          · exact hdescribable
          · exact hall e ⟨undo, rfl, Or.inr ⟨raw, hraw, hraises⟩⟩

theorem rollback_calls (provider : CapabilityProvider) (context : ScopedAgentContext)
    (proposal : ActionProposal) (outcome : ReturnedOutcome) :
    (rollback provider context proposal outcome).calls = [] ∨
      (rollback provider context proposal outcome).calls = [.rollback] := by
  unfold rollback
  split
  · exact Or.inl rfl
  · exact Or.inr rfl

/-! ## Postconditions -/

/-- What `_postcondition_failure` does: the result fails and keeps its identity; it is
returned unless the change reported cannot be told, or a rollback is due whose exception has
no words; and the only call of the provider is that rollback. -/
theorem postcondition_failure_spec {result : ReportedResult} (hmessage : message ≠ "")
    (hrun : run = postcondition_failure capability provider
      context proposal outcome result checks message) :
    (∀ r, run.result = .ok r →
      r.run_id = result.run_id ∧ r.request_id = result.request_id ∧ r.status ≠ .succeeded) ∧
    ((∃ r, run.result = .ok r) ↔ (∃ changed, result.changed_truth = .ok changed) ∧
      (result.changed_truth = .ok true ∧ capability.rollback = true →
        ∀ e, UndoRaises provider context proposal outcome e → Describable e)) ∧
    (run.calls = [] ∨
      run.calls = [.rollback] ∧ result.changed_truth = .ok true ∧ capability.rollback = true) := by
  subst hrun
  unfold postcondition_failure
  cases htruth : result.changed_truth with
  | error e =>
    refine ⟨fun r h => (by cases h), iff_of_false (fun ⟨_, h⟩ => by cases h) ?_, Or.inl rfl⟩
    rintro ⟨⟨_, h⟩, -⟩
    cases h
  | ok changed =>
    simp only [Except.ok.injEq, exists_eq', true_and]
    by_cases hdue : changed = true ∧ capability.rollback = true
    · rw [if_pos hdue]
      refine ⟨fun r h => ?_, ?_, ?_⟩
      · obtain ⟨rolled_back, -, h⟩ := bind_ok_iff.mp h
        exact unsatisfied_result_ok h
      · rw [imp_iff_right hdue, ← rollback_returns_iff]
        constructor
        · rintro ⟨r, h⟩
          obtain ⟨rolled_back, hrolled_back, -⟩ := bind_ok_iff.mp h
          exact ⟨rolled_back, hrolled_back⟩
        · rintro ⟨rolled_back, hrolled_back⟩
          obtain ⟨r, hr⟩ := unsatisfied_result_returns proposal result.toCapabilityResult checks
            hmessage rolled_back
          exact ⟨r, bind_ok_iff.mpr ⟨rolled_back, hrolled_back, hr⟩⟩
      · rcases rollback_calls provider context proposal outcome with hnone | hone
        · exact Or.inl hnone
        · exact Or.inr ⟨hone, hdue⟩
    · rw [if_neg hdue]
      refine ⟨fun r h => unsatisfied_result_ok h, ?_, Or.inl rfl⟩
      exact iff_of_true
        (unsatisfied_result_returns proposal result.toCapabilityResult checks hmessage none)
        fun h => absurd h hdue

/-- Every postcondition has been observed satisfied. -/
def Verified (engine : CapabilityEngine) (context : ScopedAgentContext)
    (proposal : ActionProposal) (capability : DeclaredCapability) : Prop :=
  ∃ pollings, engine.verifier = some pollings ∧ PostconditionVerifier.AllSatisfied
    context.run_id proposal.target pollings 0 capability.postconditions

/-- There are postconditions to verify. -/
def Verifies (definition : AgentExecutionDefinition) (capability : DeclaredCapability) : Prop :=
  definition.require_postcondition_check = true ∧ capability.postconditions ≠ []

/-- An exception that the observer raises in the verification. -/
def ObserverMeets (engine : CapabilityEngine) (context : ScopedAgentContext)
    (proposal : ActionProposal) (capability : DeclaredCapability) (e : RaisedException) : Prop :=
  ∃ pollings, engine.verifier = some pollings ∧ PostconditionVerifier.Encountered
    context.run_id proposal.target pollings 0 capability.postconditions e

theorem verifies_iff :
    Verifies definition capability ↔ ¬ (definition.require_postcondition_check = false ∨
      capability.postconditions = []) := by
  rw [not_or, Bool.not_eq_false]
  exact Iff.rfl

/-- What `_verify_effect` does with a successful result. -/
structure EffectSpec (engine : CapabilityEngine) (definition : AgentExecutionDefinition)
    (capability : DeclaredCapability) (provider : CapabilityProvider)
    (context : ScopedAgentContext) (proposal : ActionProposal) (outcome : ReturnedOutcome)
    (result : ReportedResult) (run : EngineRun CapabilityResult) : Prop where
  identity : ∀ r, run.result = .ok r → r.run_id = result.run_id ∧ r.request_id = result.request_id
  verified : ∀ r, run.result = .ok r → r.status = .succeeded →
    Verifies definition capability → Verified engine context proposal capability
  returns : (∃ r, run.result = .ok r) ↔ (Verifies definition capability →
    (∀ e, ObserverMeets engine context proposal capability e → Describable e) ∧
    (¬ Verified engine context proposal capability →
      (∃ changed, result.changed_truth = .ok changed) ∧
      (result.changed_truth = .ok true ∧ capability.rollback = true →
        ∀ e, UndoRaises provider context proposal outcome e → Describable e)))
  calls : run.calls = [] ∨ run.calls = [.rollback] ∧ Verifies definition capability ∧
    ¬ Verified engine context proposal capability ∧ result.changed_truth = .ok true ∧
    capability.rollback = true

section

variable {engine : CapabilityEngine} {definition : AgentExecutionDefinition}
  {capability : DeclaredCapability} {provider : CapabilityProvider}
  {context : ScopedAgentContext} {proposal : ActionProposal} {outcome : ReturnedOutcome}
  {result : ReportedResult}

theorem EffectSpec.skipped (hnot : ¬ Verifies definition capability) :
    EffectSpec engine definition capability provider context proposal outcome result
      { result := .ok result.toCapabilityResult, calls := [] } where
  identity r h := by
    cases h
    exact ⟨rfl, rfl⟩
  verified r _ _ h := absurd h hnot
  returns := iff_of_true ⟨_, rfl⟩ fun h => absurd h hnot
  calls := Or.inl rfl

variable {checks : List PostconditionResult}

/-- The postconditions hold. -/
theorem EffectSpec.satisfied
    (hobserver : ∀ e, ObserverMeets engine context proposal capability e → Describable e)
    (hverified : Verified engine context proposal capability) :
    EffectSpec engine definition capability provider context proposal outcome result
      { result := .ok { result.toCapabilityResult with postconditions := checks }, calls := [] } where
  identity r h := by
    cases h
    exact ⟨rfl, rfl⟩
  verified _ _ _ _ := hverified
  returns := iff_of_true ⟨_, rfl⟩ fun _ => ⟨hobserver, fun h => absurd hverified h⟩
  calls := Or.inl rfl

/-- The postconditions fail, and no exception of the observer has escaped. -/
theorem EffectSpec.unsatisfied {message : String} (hmessage : message ≠ "")
    (hverifies : Verifies definition capability)
    (hobserver : ∀ e, ObserverMeets engine context proposal capability e → Describable e)
    (hnot : ¬ Verified engine context proposal capability) :
    EffectSpec engine definition capability provider context proposal outcome result
      (postcondition_failure capability provider context proposal outcome result checks message) := by
  obtain ⟨hidentity, hreturns, hcalls⟩ := postcondition_failure_spec hmessage
    (rfl : postcondition_failure capability provider context proposal outcome result checks
      message = _)
  refine ⟨fun r h => ?_, fun r h hstatus => ?_, ?_, ?_⟩
  · obtain ⟨hrun, hrequest, -⟩ := hidentity r h
    exact ⟨hrun, hrequest⟩
  · exact absurd hstatus (hidentity r h).2.2
  · rw [hreturns, imp_iff_right hverifies, and_iff_right hobserver, imp_iff_right hnot]
  · rcases hcalls with hnone | ⟨hone, hdue⟩
    · exact Or.inl hnone
    · exact Or.inr ⟨hone, hverifies, hnot, hdue⟩

theorem verify_effect_spec :
    EffectSpec engine definition capability provider context proposal outcome result
      (engine.verify_effect definition capability provider context proposal outcome result) := by
  unfold verify_effect
  by_cases hskip : definition.require_postcondition_check = false ∨ capability.postconditions = []
  · rw [if_pos hskip]
    exact EffectSpec.skipped fun h => verifies_iff.mp h hskip
  have hverifies : Verifies definition capability := verifies_iff.mpr hskip
  rw [if_neg hskip]
  cases hverifier : engine.verifier with
  | none =>
    have hnothing : ∀ pollings, engine.verifier ≠ some pollings := by
      intro pollings h
      rw [hverifier] at h
      cases h
    refine EffectSpec.unsatisfied (by decide) hverifies ?_ ?_
    · rintro e ⟨pollings, h, -⟩
      exact absurd h (hnothing pollings)
    · rintro ⟨pollings, h, -⟩
      exact hnothing pollings h
  | some pollings =>
    have hsame : ∀ pollings', engine.verifier = some pollings' → pollings' = pollings := by
      intro pollings' h
      rw [hverifier] at h
      cases h
      rfl
    have hobserver : (∀ e, ObserverMeets engine context proposal capability e →
        Describable e) ↔ ∃ checks, PostconditionVerifier.verify context.run_id proposal.target
          pollings 0 capability.postconditions = .ok checks := by
      rw [PostconditionVerifier.verify_ok_iff]
      refine forall_congr' fun e => imp_congr_left ⟨?_, fun h => ⟨pollings, hverifier, h⟩⟩
      rintro ⟨pollings', heq, h⟩
      rw [hsame pollings' heq] at h
      exact h
    simp only
    cases hverify : PostconditionVerifier.verify context.run_id proposal.target pollings 0
        capability.postconditions with
    | error e =>
      refine ⟨fun r h => (by cases h), fun r h => (by cases h), ?_, Or.inl rfl⟩
      refine iff_of_false (fun ⟨_, h⟩ => by cases h) fun h => ?_
      obtain ⟨checks, hchecks⟩ := hobserver.mp (h hverifies).1
      rw [hverify] at hchecks
      cases hchecks
    | ok checks =>
      have hdescribed := hobserver.mpr ⟨checks, hverify⟩
      have hsatisfied : checks.all PostconditionResult.satisfied = true ↔
          Verified engine context proposal capability := by
        rw [List.all_eq_true, PostconditionVerifier.verify_satisfied_iff hverify]
        constructor
        · exact fun h => ⟨pollings, hverifier, h⟩
        · rintro ⟨pollings', heq, h⟩
          rw [hsame pollings' heq] at h
          exact h
      simp only
      by_cases hall : checks.all PostconditionResult.satisfied = true
      · rw [if_pos hall]
        exact EffectSpec.satisfied hdescribed (hsatisfied.mp hall)
      · rw [if_neg hall]
        exact EffectSpec.unsatisfied (worded_nonempty (by decide) _) hverifies hdescribed
          fun h => hall (hsatisfied.mpr h)

end

/-! ## Replies -/

/-- The provider reports success: it returns no result, or one that succeeded. -/
def ReportsSuccess (raw : RawOutcome) : Prop :=
  ∀ r, raw.as_result = some r → r.status = .succeeded

theorem provider_result_ok {found : Option ReportedResult}
    (h : provider_result context proposal raw = .ok found) : found = raw.as_result ∧
      ∀ r, found = some r → r.run_id = context.run_id ∧ r.request_id = proposal.id := by
  unfold provider_result at h
  split at h
  · rename_i hnone
    cases h
    exact ⟨hnone.symm, fun r heq => by cases heq⟩
  · rename_i r hsome
    obtain ⟨_, hidentity, h⟩ := bind_ok_iff.mp h
    cases h
    obtain ⟨hrun, hrequest⟩ := not_or.mp (refuse_if_ok_iff.mp hidentity)
    refine ⟨hsome.symm, fun r' heq => ?_⟩
    cases heq
    exact ⟨not_not.mp hrun, not_not.mp hrequest⟩

/-- What a reply taken for a success has passed. -/
structure ReplyAccepted (engine : CapabilityEngine) (capability : DeclaredCapability)
    (context : ScopedAgentContext) (proposal : ActionProposal) (raw : RawOutcome)
    (outcome : ReturnedOutcome) : Prop where
  identity : ∀ r, raw.as_result = some r → r.run_id = context.run_id ∧ r.request_id = proposal.id
  reports_success : ReportsSuccess raw
  outcome_eq : normalize_outcome raw = .ok outcome
  output_valid : engine.schema capability.output_schema outcome.output = .valid

theorem read_reply_cases {reply : Reply}
    (h : engine.read_reply capability context proposal raw = .ok reply) :
    (∃ r, reply = .unsuccessful r ∧ r.run_id = context.run_id ∧ r.request_id = proposal.id ∧
      r.status ≠ .succeeded) ∨
    ∃ outcome, reply = .successful raw.as_result outcome ∧
      ReplyAccepted engine capability context proposal raw outcome := by
  obtain ⟨found, hfound, h⟩ := bind_ok_iff.mp h
  obtain ⟨rfl, hidentity⟩ := provider_result_ok (raising_ok_iff.mp hfound)
  cases hfilter : raw.as_result.filter (fun r => r.status ≠ .succeeded) with
  | some r =>
    rw [hfilter] at h
    cases h
    obtain ⟨heq, hstatus⟩ := Option.filter_eq_some_iff.mp hfilter
    obtain ⟨hrun, hrequest⟩ := hidentity r heq
    exact Or.inl ⟨r, rfl, hrun, hrequest, of_decide_eq_true hstatus⟩
  | none =>
    rw [hfilter] at h
    obtain ⟨outcome, houtcome, h⟩ := bind_ok_iff.mp h
    obtain ⟨_, hschema, h⟩ := bind_ok_iff.mp h
    cases h
    have hsuccess : ReportsSuccess raw := by
      intro r heq
      have hnot := Option.filter_eq_none_iff.mp hfilter r heq
      exact not_not.mp fun hne => hnot (decide_eq_true hne)
    exact Or.inr ⟨outcome, rfl, hidentity, hsuccess, houtcome, validate_schema_ok_iff.mp hschema⟩

/-- A reply that passes is taken for a success. -/
theorem ReplyAccepted.read (h : ReplyAccepted engine capability context proposal raw outcome) :
    engine.read_reply capability context proposal raw =
      .ok (.successful raw.as_result outcome) := by
  have hfound : provider_result context proposal raw = .ok raw.as_result := by
    unfold provider_result
    split
    · rename_i hnone
      rw [hnone]
    · rename_i r hsome
      obtain ⟨hrun, hrequest⟩ := h.identity r hsome
      have hsame : ¬ (r.run_id ≠ context.run_id ∨ r.request_id ≠ proposal.id) :=
        not_or.mpr ⟨not_not.mpr hrun, not_not.mpr hrequest⟩
      rw [hsome]
      exact bind_ok_iff.mpr ⟨(), refuse_if_ok_iff.mpr hsame, rfl⟩
  have hfilter : raw.as_result.filter (fun r => r.status ≠ .succeeded) = none := by
    refine Option.filter_eq_none_iff.mpr fun r hsome hfails => ?_
    exact of_decide_eq_true hfails (h.reports_success r hsome)
  refine bind_ok_iff.mpr ⟨_, raising_ok_iff.mpr hfound, ?_⟩
  rw [hfilter]
  exact bind_ok_iff.mpr
    ⟨outcome, h.outcome_eq, bind_ok_iff.mpr ⟨(), validate_schema_ok_iff.mpr h.output_valid, rfl⟩⟩

theorem read_reply_error (h : engine.read_reply capability context proposal raw = .error e) :
    Reportable e ∨ raw = .unreadable e := by
  rcases bind_error_iff.mp h with h | ⟨found, -, h⟩
  · obtain ⟨error, herror, rfl⟩ := raising_error h
    exact Or.inl (provider_result_error herror).reportable
  split at h
  · cases h
  · rcases bind_error_iff.mp h with h | ⟨outcome, -, h⟩
    · rcases normalize_outcome_error h with ⟨error, hwell, rfl⟩ | hraises
      · exact Or.inl hwell.reportable
      · exact Or.inr hraises
    rcases bind_error_iff.mp h with h | ⟨_, -, h⟩
    · exact Or.inl (validate_schema_error (by decide) failed_ne_succeeded h)
    cases h

/-! ## Results of successes -/

/-- A result can be built of an outcome. -/
structure Presentable (outcome : ReturnedOutcome) : Prop where
  changed_told : ∃ truth, outcome.changed.truth = .ok truth
  changed_accepted : ∃ changed, outcome.changed.field = some changed
  output_accepted : ∃ full, outcome.output.value.truth = .ok full ∧
    (full = true → ∃ output, outcome.output.value.field = some output)

/-- The change that a reply reports: the truth of the `changed` of a result, or what the
result built of an outcome has. -/
def reported_change (raw : RawOutcome) (outcome : ReturnedOutcome) : Except RaisedException Bool :=
  match raw.as_result with
  | some r => r.changed_truth
  | none => .ok (outcome.changed.field.getD false)

theorem succeeded_result_ok (h : succeeded_result context proposal outcome = .ok r) :
    r.run_id = context.run_id ∧ r.request_id = proposal.id ∧
      outcome.changed.field = some r.changed := by
  obtain ⟨truth, -, h⟩ := bind_ok_iff.mp h
  obtain ⟨full, -, h⟩ := bind_ok_iff.mp h
  obtain ⟨changed, hchanged, h⟩ := bind_ok_iff.mp h
  obtain ⟨output, -, h⟩ := bind_ok_iff.mp h
  cases h
  exact ⟨rfl, rfl, checked_field_ok_iff.mp hchanged⟩

theorem succeeded_result_ok_iff :
    (∃ r, succeeded_result context proposal outcome = .ok r) ↔ Presentable outcome := by
  constructor
  · rintro ⟨r, h⟩
    obtain ⟨truth, htruth, h⟩ := bind_ok_iff.mp h
    obtain ⟨full, hfull, h⟩ := bind_ok_iff.mp h
    obtain ⟨changed, hchanged, h⟩ := bind_ok_iff.mp h
    obtain ⟨output, houtput, -⟩ := bind_ok_iff.mp h
    refine ⟨⟨truth, htruth⟩, ⟨changed, checked_field_ok_iff.mp hchanged⟩, full, hfull, fun hsome => ?_⟩
    rw [if_pos hsome] at houtput
    exact ⟨output, checked_field_ok_iff.mp houtput⟩
  · rintro ⟨⟨truth, htruth⟩, ⟨changed, hchanged⟩, full, hfull, hsome⟩
    have houtput : ∃ output, (if full = true then outcome.output.value.field else some (some [])) =
        some output := by
      by_cases h : full = true
      · rw [if_pos h]
        exact hsome h
      · rw [if_neg h]
        exact ⟨_, rfl⟩
    obtain ⟨output, houtput⟩ := houtput
    exact ⟨_, bind_ok_iff.mpr ⟨truth, htruth, bind_ok_iff.mpr ⟨full, hfull, bind_ok_iff.mpr
      ⟨changed, checked_field_ok_iff.mpr hchanged, bind_ok_iff.mpr
        ⟨output, checked_field_ok_iff.mpr houtput, rfl⟩⟩⟩⟩⟩

/-- The result to verify has the identity of the request, and the change that the reply reports. -/
theorem result_to_verify_ok {result : ReportedResult}
    (haccepted : ReplyAccepted engine capability context proposal raw outcome)
    (h : result_to_verify context proposal raw.as_result outcome = .ok result) :
    result.run_id = context.run_id ∧ result.request_id = proposal.id ∧
      result.changed_truth = reported_change raw outcome := by
  rw [reported_change]
  cases hfound : raw.as_result with
  | some r =>
    rw [hfound] at h
    cases h
    obtain ⟨hrun, hrequest⟩ := haccepted.identity _ hfound
    exact ⟨hrun, hrequest, rfl⟩
  | none =>
    rw [hfound] at h
    obtain ⟨built, hbuilt, h⟩ := bind_ok_iff.mp h
    cases h
    obtain ⟨hrun, hrequest, hchanged⟩ := succeeded_result_ok hbuilt
    simp only
    rw [hchanged]
    exact ⟨hrun, hrequest, rfl⟩

theorem result_to_verify_ok_iff :
    (∃ result, result_to_verify context proposal raw.as_result outcome = .ok result) ↔
      (raw.as_result = none → Presentable outcome) := by
  cases raw.as_result with
  | some r => exact iff_of_true ⟨r, rfl⟩ fun h => by cases h
  | none =>
    rw [imp_iff_right rfl, ← @succeeded_result_ok_iff context proposal]
    constructor
    · rintro ⟨result, h⟩
      obtain ⟨built, hbuilt, -⟩ := bind_ok_iff.mp h
      exact ⟨built, hbuilt⟩
    · rintro ⟨built, hbuilt⟩
      exact ⟨_, bind_ok_iff.mpr ⟨built, hbuilt, rfl⟩⟩

/-! ## The factory -/

/-- The factory of the capability's plugin raises this exception past every handler, or one
whose text raises it. -/
def FactoryRaises (engine : CapabilityEngine) (capability : DeclaredCapability)
    (e : RaisedException) : Prop :=
  ∃ name factory e', capability.provider = some name ∧
    engine.plugins.lookup name = some factory ∧ factory capability = .raises e' ∧
    (e'.is_caught = false ∧ e' = e ∨ e'.is_caught = true ∧ e'.str = .error e)

theorem create_provider_error (h : engine.create_provider capability = .error e) :
    Reportable e ∨ FactoryRaises engine capability e := by
  unfold create_provider at h
  split at h
  · cases h
    exact Or.inl ⟨_, rfl⟩
  · rename_i name hname
    split at h
    · cases h
      exact Or.inl (agent_runtime_error_reportable (by decide) (worded_nonempty (by decide) _))
    · rename_i factory hfactory
      split at h
      · rename_i e' hraises
        by_cases hcaught : e'.is_caught = false
        · rw [refuse_if, if_pos hcaught] at h
          exact Or.inr ⟨name, factory, e', hname, hfactory, hraises, Or.inl ⟨hcaught, Except.error.inj h⟩⟩
        obtain ⟨_, -, h⟩ := (bind_error_iff.mp h).resolve_left fun h => by
          rw [refuse_if, if_neg hcaught] at h
          cases h
        rcases bind_error_iff.mp h with h | ⟨text, -, h⟩
        · exact Or.inr ⟨name, factory, e', hname, hfactory, hraises,
            Or.inr ⟨Bool.eq_true_of_not_eq_false hcaught, h⟩⟩
        · cases h
          exact Or.inl (agent_runtime_error_reportable (by decide) (worded_nonempty (by decide) _))
      · cases h
        exact Or.inl (agent_runtime_error_reportable (by decide) (worded_nonempty (by decide) _))
      · cases h
        exact Or.inl (agent_runtime_error_reportable (by decide) (worded_nonempty (by decide) _))
      · cases h

theorem create_provider_raises (h : FactoryRaises engine capability e) :
    engine.create_provider capability = .error e := by
  obtain ⟨name, factory, e', hname, hfactory, hraises, hleaves⟩ := h
  unfold create_provider
  rw [hname]
  simp only [hfactory, hraises]
  rcases hleaves with ⟨hcaught, rfl⟩ | ⟨hcaught, htext⟩
  · rw [refuse_if, if_pos hcaught]
    rfl
  · rw [refuse_if, if_neg (ne_false_of_eq_true hcaught), htext]
    rfl

/-! ## The contract -/

/-- The proposal is admitted and the provider of its capability created. -/
structure Dispatches (engine : CapabilityEngine) (context : ScopedAgentContext)
    (proposal : ActionProposal) (definition : AgentExecutionDefinition)
    (capability : DeclaredCapability) (provider : CapabilityProvider) : Prop where
  admitted : engine.admit_request context proposal = .ok (definition, capability)
  created : engine.create_provider capability = .ok provider

/-- The provider replies with a success whose output matches the schema. -/
structure Succeeds (engine : CapabilityEngine) (context : ScopedAgentContext)
    (proposal : ActionProposal) (definition : AgentExecutionDefinition)
    (capability : DeclaredCapability) (provider : CapabilityProvider) (raw : RawOutcome)
    (outcome : ReturnedOutcome) : Prop extends
    Dispatches engine context proposal definition capability provider,
    ReplyAccepted engine capability context proposal raw outcome where
  replied : provider.execute context proposal = .ok raw

/-- A rollback is due: the provider reports a change, one is configured, and the
postconditions fail. -/
structure RollbackDue (engine : CapabilityEngine) (context : ScopedAgentContext)
    (proposal : ActionProposal) (definition : AgentExecutionDefinition)
    (capability : DeclaredCapability) (raw : RawOutcome) (outcome : ReturnedOutcome) : Prop where
  changed : reported_change raw outcome = .ok true
  configured : capability.rollback = true
  verifies : Verifies definition capability
  not_verified : ¬ Verified engine context proposal capability

/-- What a success may bring with it: a result can be built of the outcome, where the
provider returns one; the change reported can be told, where it decides; and the exceptions
of the observer and of a rollback can be described, where the request gets to them. -/
structure HandlesSuccess (engine : CapabilityEngine) (context : ScopedAgentContext)
    (proposal : ActionProposal) (definition : AgentExecutionDefinition)
    (capability : DeclaredCapability) (provider : CapabilityProvider) (raw : RawOutcome)
    (outcome : ReturnedOutcome) : Prop where
  presentable : raw.as_result = none → Presentable outcome
  observer : Verifies definition capability →
    ∀ e, ObserverMeets engine context proposal capability e → Describable e
  change : Verifies definition capability → ¬ Verified engine context proposal capability →
    ∃ changed, reported_change raw outcome = .ok changed
  rollback : RollbackDue engine context proposal definition capability raw outcome →
    ∀ e, UndoRaises provider context proposal outcome e → Describable e

/-- What the callees may return and raise: where the request gets to a callee, what it raises
can be reported, or described, by the handler it gets to, and a success brings with it only
what it may. -/
structure Handles (engine : CapabilityEngine) (context : ScopedAgentContext)
    (proposal : ActionProposal) : Prop where
  factory : ∀ definition capability,
    engine.admit_request context proposal = .ok (definition, capability) →
    ∀ e, FactoryRaises engine capability e → Reportable e
  provider : ∀ definition capability provider,
    Dispatches engine context proposal definition capability provider →
    ∀ e, provider.execute context proposal = .error e ∨
      provider.execute context proposal = .ok (.unreadable e) → Reportable e
  success : ∀ definition capability provider raw outcome,
    Succeeds engine context proposal definition capability provider raw outcome →
    HandlesSuccess engine context proposal definition capability provider raw outcome

/-- What a run for a request promises. -/
structure PipelineContract (engine : CapabilityEngine) (context : ScopedAgentContext)
    (proposal : ActionProposal) (run : EngineRun CapabilityResult) : Prop where
  returns : ∃ r, run.result = .ok r
  identity : ∀ r, run.result = .ok r → r.run_id = context.run_id ∧ r.request_id = proposal.id
  dispatched : .execute ∈ run.calls → engine.validate context proposal = .ok none
  succeeded : ∀ r, run.result = .ok r → r.status = .succeeded →
    ∃ definition capability provider raw outcome,
      Succeeds engine context proposal definition capability provider raw outcome ∧
      (Verifies definition capability → Verified engine context proposal capability)
  rolled_back_once : run.calls.count .rollback ≤ 1
  rolled_back : .rollback ∈ run.calls →
    ∃ definition capability provider raw outcome,
      Succeeds engine context proposal definition capability provider raw outcome ∧
      RollbackDue engine context proposal definition capability raw outcome

/-! ## Runs -/

section

variable {engine : CapabilityEngine} {context : ScopedAgentContext} {proposal : ActionProposal}

/-- A run whose handlers report an exception keeps the contract when they can. -/
theorem PipelineContract.reported {calls : List ProviderCall}
    (hcalls : calls = [] ∨ calls = [.execute] ∧ engine.validate context proposal = .ok none) :
    PipelineContract engine context proposal
      { result := report context proposal e, calls := calls } ↔ Reportable e := by
  rw [← @report_ok_iff context proposal]
  refine ⟨fun h => h.returns, fun hreturns => ⟨hreturns, ?_, ?_, ?_, ?_, ?_⟩⟩
  · intro r h
    obtain ⟨hrun, hrequest, -⟩ := report_ok h
    exact ⟨hrun, hrequest⟩
  · intro hmem
    rcases hcalls with rfl | ⟨-, hvalid⟩
    · cases hmem
    · exact hvalid
  · exact fun r h hstatus => absurd hstatus (report_ok h).2.2
  · rcases hcalls with rfl | ⟨rfl, -⟩
    · exact Nat.zero_le 1
    · exact Nat.zero_le 1
  · intro hmem
    rcases hcalls with rfl | ⟨rfl, -⟩
    · cases hmem
    · cases List.mem_singleton.mp hmem

/-- A run that returns the provider's own failure keeps it. -/
theorem PipelineContract.unsuccessful {r : CapabilityResult} (hrun : r.run_id = context.run_id)
    (hrequest : r.request_id = proposal.id) (hstatus : r.status ≠ .succeeded)
    (hvalid : engine.validate context proposal = .ok none) :
    PipelineContract engine context proposal { result := .ok r, calls := [.execute] } where
  returns := ⟨r, rfl⟩
  identity r' h := by
    cases h
    exact ⟨hrun, hrequest⟩
  dispatched _ := hvalid
  succeeded r' h hsucceeded := by
    cases h
    exact absurd hsucceeded hstatus
  rolled_back_once := Nat.zero_le 1
  rolled_back hmem := by cases List.mem_singleton.mp hmem

variable {definition : AgentExecutionDefinition} {capability : DeclaredCapability}
  {provider : CapabilityProvider} {outcome : ReturnedOutcome} {raw : RawOutcome}

/-- A run that verifies a success keeps it when it returns. -/
theorem PipelineContract.verified {result : ReportedResult}
    (hsucceeds : Succeeds engine context proposal definition capability provider raw outcome)
    (hresult : result_to_verify context proposal raw.as_result outcome = .ok result)
    (hspec : EffectSpec engine definition capability provider context proposal outcome result run)
    (hvalid : engine.validate context proposal = .ok none) :
    PipelineContract engine context proposal
      { result := run.result, calls := .execute :: run.calls } ↔ ∃ r, run.result = .ok r := by
  obtain ⟨hrun, hrequest, hchange⟩ := result_to_verify_ok hsucceeds.toReplyAccepted hresult
  refine ⟨fun h => h.returns, fun hreturns => ⟨hreturns, ?_, fun _ => hvalid, ?_, ?_, ?_⟩⟩
  · intro r h
    obtain ⟨hsame, hsame'⟩ := hspec.identity r h
    exact ⟨hsame.trans hrun, hsame'.trans hrequest⟩
  · intro r h hstatus
    exact ⟨definition, capability, provider, raw, outcome, hsucceeds, hspec.verified r h hstatus⟩
  · rcases hspec.calls with hnone | ⟨hone, -⟩
    · rw [hnone]
      exact Nat.zero_le 1
    · rw [hone]
      exact Nat.le_refl 1
  · intro hmem
    rcases hspec.calls with hnone | ⟨-, hverifies, hnot, hchanged, hconfigured⟩
    · rw [hnone] at hmem
      cases List.mem_singleton.mp hmem
    · refine ⟨definition, capability, provider, raw, outcome, hsucceeds, ?_⟩
      exact ⟨hchange.symm.trans hchanged, hconfigured, hverifies, hnot⟩

/-- Requests that get to a provider get to the same one. -/
theorem Dispatches.eq {definition' : AgentExecutionDefinition} {capability' : DeclaredCapability}
    {provider' : CapabilityProvider}
    (h : Dispatches engine context proposal definition capability provider)
    (h' : Dispatches engine context proposal definition' capability' provider') :
    definition' = definition ∧ capability' = capability ∧ provider' = provider := by
  have hadmitted := h'.admitted
  rw [h.admitted] at hadmitted
  cases hadmitted
  have hcreated := h'.created
  rw [h.created] at hcreated
  cases hcreated
  exact ⟨rfl, rfl, rfl⟩

/-- A success is what the engine reads from the provider's reply. -/
theorem Succeeds.reads
    (h : Succeeds engine context proposal definition capability provider raw outcome) :
    (provider.execute context proposal >>= engine.read_reply capability context proposal) =
      .ok (.successful raw.as_result outcome) :=
  bind_ok_iff.mpr ⟨raw, h.replied, h.toReplyAccepted.read⟩

/-- What the callees may return and raise once the provider has been created. -/
theorem handles_iff
    (hdispatches : Dispatches engine context proposal definition capability provider) :
    Handles engine context proposal ↔ (∀ e, provider.execute context proposal = .error e ∨
        provider.execute context proposal = .ok (.unreadable e) → Reportable e) ∧
      ∀ raw outcome, Succeeds engine context proposal definition capability provider raw outcome →
        HandlesSuccess engine context proposal definition capability provider raw outcome := by
  constructor
  · exact fun h => ⟨h.provider _ _ _ hdispatches, h.success _ _ _⟩
  · rintro ⟨hprovider, hsuccess⟩
    refine ⟨?_, ?_, ?_⟩
    · intro definition' capability' hadmission e hraises
      have hadmitted := hdispatches.admitted
      rw [hadmission] at hadmitted
      cases hadmitted
      have hcreated := hdispatches.created
      rw [create_provider_raises hraises] at hcreated
      cases hcreated
    · intro definition' capability' provider' h
      obtain ⟨rfl, rfl, rfl⟩ := hdispatches.eq h
      exact hprovider
    · intro definition' capability' provider' raw outcome h
      obtain ⟨rfl, rfl, rfl⟩ := hdispatches.eq h.toDispatches
      exact hsuccess raw outcome h

/-- A run behind a success returns exactly when the success brings with it what it may. -/
theorem EffectSpec.returns_iff {result : ReportedResult}
    (haccepted : ReplyAccepted engine capability context proposal raw outcome)
    (hresult : result_to_verify context proposal raw.as_result outcome = .ok result)
    (hspec : EffectSpec engine definition capability provider context proposal outcome result run) :
    (∃ r, run.result = .ok r) ↔
      HandlesSuccess engine context proposal definition capability provider raw outcome := by
  obtain ⟨-, -, hchange⟩ := result_to_verify_ok haccepted hresult
  rw [hspec.returns, hchange]
  constructor
  · intro h
    refine ⟨result_to_verify_ok_iff.mp ⟨result, hresult⟩, fun hverifies => (h hverifies).1, ?_, ?_⟩
    · exact fun hverifies hnot => ((h hverifies).2 hnot).1
    · intro hdue
      exact ((h hdue.verifies).2 hdue.not_verified).2 ⟨hdue.changed, hdue.configured⟩
  · intro h hverifies
    refine ⟨h.observer hverifies, fun hnot => ⟨h.change hverifies hnot, fun hdue => ?_⟩⟩
    exact h.rollback ⟨hdue.1, hdue.2, hverifies, hnot⟩

end

/-- A provider whose driver fails without a message. -/
def silent_provider : CapabilityProvider where
  execute _ _ := .error (agent_runtime_error "driver.failed" "")
  rollback := none

/-- The definition of an instance on a host with one capability. -/
def silent_definition : AgentExecutionDefinition where
  agent :=
    { id := "a"
      deployment := "a"
      blueprint := "b"
      attachment :=
        { layer := .host
          custom_layer := none
          targets := ["h1"]
          target_kind := .host
          runtime := "builtin" }
      capabilities := ["probe"] }
  blueprint := { name := "b" }
  capabilities := [{ name := "probe", targets := [.host], layers := ["host"], provider := some "p" }]
  require_postcondition_check := false

def silent_engine : CapabilityEngine where
  catalog := { definitions := [silent_definition] }
  plugins := [("p", fun _ => .provider silent_provider)]
  schema _ _ := .valid
  verifier := none

def silent_proposal : ActionProposal where
  id := "1"
  capability := "probe"
  target := "h1"

/-- Whether an execution in a context of the definition raises. -/
def raises_in (context : ScopedAgentContext) : Bool :=
  (silent_engine.execute context silent_proposal).result.toOption.isNone

end CapabilityEngine

end MininetAi
