/-
The outcome vocabulary of results and errors (`mininet_ai/outcomes.py`).

`partial` among the effects is `incomplete` here. A cleanup is verified only with evidence
and nothing unresolved, so it cannot be built otherwise.
-/
import Mathlib.Data.List.Basic

set_option autoImplicit false

namespace MininetAi

inductive OperationOutcome where
  | succeeded
  | failed
  | rejected
  | accepted
  | unknown
  deriving DecidableEq

inductive MutationEffects where
  | unchanged
  | changed
  | incomplete
  | unknown
  deriving DecidableEq

inductive CleanupStatus where
  | verified
  | incomplete
  | unknown
  deriving DecidableEq

/-- What a status comes with. -/
structure CleanupEvidence (status : CleanupStatus) (remaining unknown evidence gaps : List String) :
    Prop where
  verified : status = .verified → evidence ≠ [] ∧ remaining = [] ∧ unknown = [] ∧ gaps = []
  incomplete : status = .incomplete → remaining ≠ []

theorem cleanup_unknown (remaining unknown evidence gaps : List String) :
    CleanupEvidence .unknown remaining unknown evidence gaps := by
  constructor
  · intro h
    cases h
  · intro h
    cases h

structure CleanupOutcome where
  status : CleanupStatus
  remaining_resources : List String
  unknown_resources : List String
  evidence : List String
  evidence_gaps : List String
  verification_requires_evidence :
    CleanupEvidence status remaining_resources unknown_resources evidence evidence_gaps

/-- `CleanupOutcome()`. -/
def CleanupOutcome.default : CleanupOutcome where
  status := .unknown
  remaining_resources := []
  unknown_resources := []
  evidence := []
  evidence_gaps := ["owned-resource absence has not been verified"]
  verification_requires_evidence := cleanup_unknown _ _ _ _

instance : Inhabited CleanupOutcome := ⟨.default⟩

def CleanupOutcome.verified (c : CleanupOutcome) : Bool := c.status = .verified

end MininetAi
