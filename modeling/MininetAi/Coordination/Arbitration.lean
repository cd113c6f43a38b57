/-
Conflict arbitration (`mininet_ai/coordination/arbitration.py`): the candidates
built from an invocation's proposals, when two of them conflict, and the order
or rejection the compiled policy gives them.

`arbitrate` sees the proposals of one invocation only. Conflicts with other
invocations are the business of `MininetAi.Coordination.Admission`, which uses
the same `conflicts`.
-/
import Mathlib.Data.List.Sort
import Mathlib.Data.Prod.Lex
import Mathlib.Data.String.Basic
import MininetAi.Lib.Greedy
import MininetAi.Sdk.Contracts

set_option autoImplicit false

namespace MininetAi

open List

/-! ## Candidates -/

/-- The compiled conflict policy. -/
inductive ArbitrationPolicy where
  | reject
  | serialize
  | priority
  deriving DecidableEq

/-- One proposal on its way to admission. -/
structure ArbitrationCandidate where
  candidate_id : String
  context : AgentContext
  proposal : ActionProposal
  effects : List String
  conflict_keys : List String
  admission_sequence : ℕ
  deriving DecidableEq

/-- The part of a compiled capability that decides what an action may affect. -/
structure CapabilityDefinition where
  name : String
  provider : Option String := none
  effects : List String := []
  deriving DecidableEq

/-- `ExecutionCatalog.resolve(agent_id).capabilities` for the agents of a plan. -/
abbrev ExecutionCatalog := String → List CapabilityDefinition

/-- The effects a proposal is arbitrated under. Only the built-in observation
provider is known to be read-only, and only the built-in action providers are
known to stay within the effects they declare. -/
def candidate_effects : Option CapabilityDefinition → List String
  | some capability =>
    if capability.provider = some "substrate.observation" then []
    else if (capability.provider = some "substrate.action" ∨
        capability.provider = some "fake.openflow") ∧ capability.effects ≠ [] then
      capability.effects.insertionSort (· ≤ ·)
    else ["*"]
  | none => ["*"]

/-- The identity of a proposal across invocations. -/
def candidate_id (context : AgentContext) (proposal : ActionProposal) : String :=
  context.invocation_id ++ ":" ++ proposal.id

/-- `ConflictArbitrator._candidate`. -/
def candidate (catalog : ExecutionCatalog) (context : AgentContext) (proposal : ActionProposal)
    (sequence : ℕ) : ArbitrationCandidate :=
  let effects := candidate_effects
    ((catalog context.agent_id).find? fun c => c.name = proposal.capability)
  { candidate_id := candidate_id context proposal
    context := context
    proposal := proposal
    effects := effects
    conflict_keys := effects.map fun effect => proposal.target ++ ":" ++ effect
    admission_sequence := sequence }

/-- `ConflictArbitrator.conflicts`: a candidate without effects conflicts with
nothing, one with unknown effects with every other that has some. -/
def conflicts (left right : ArbitrationCandidate) : Bool :=
  if left.effects = [] ∨ right.effects = [] then false
  else if "*" ∈ left.effects ∨ "*" ∈ right.effects then true
  else left.conflict_keys.any fun key => key ∈ right.conflict_keys

theorem conflicts_comm (left right : ArbitrationCandidate) :
    conflicts left right = conflicts right left := by
  have hkeys : (left.conflict_keys.any fun key => decide (key ∈ right.conflict_keys))
      = right.conflict_keys.any fun key => decide (key ∈ left.conflict_keys) := by
    rw [Bool.eq_iff_iff]
    simp only [any_eq_true, decide_eq_true_eq]
    exact ⟨fun ⟨k, hl, hr⟩ => ⟨k, hr, hl⟩, fun ⟨k, hr, hl⟩ => ⟨k, hl, hr⟩⟩
  unfold conflicts
  simp only [hkeys, or_comm]

instance conflicts_symm : Std.Symm fun a b => conflicts a b = false where
  symm a b h := by rw [conflicts_comm]; exact h

/-! ## Decisions and plans -/

inductive Disposition where
  | execute
  | reject
  deriving DecidableEq

/-- One recorded admission decision. -/
structure ArbitrationDecision where
  candidate_id : String
  invocation_id : String
  agent_id : String
  proposal_id : String
  target : String
  effects : List String
  conflict_keys : List String
  priority : ℤ
  admission_sequence : ℕ
  disposition : Disposition
  commit_order : Option ℕ
  winner_candidate_id : Option String
  deriving DecidableEq

/-- The decisions of one arbitration. -/
structure ArbitrationReport where
  policy : ArbitrationPolicy
  decisions : List ArbitrationDecision
  deriving DecidableEq

/-- What `arbitrate` returns: `rejected` holds candidate ids. -/
structure ArbitrationPlan where
  candidates : List ArbitrationCandidate
  ordered : List ArbitrationCandidate
  rejected : List String
  report : ArbitrationReport
  deriving DecidableEq

/-- `ConflictArbitrator._decision`. -/
def arbitration_decision (c : ArbitrationCandidate) (disposition : Disposition)
    (commit_order : Option ℕ) (winner_candidate_id : Option String) : ArbitrationDecision where
  candidate_id := c.candidate_id
  invocation_id := c.context.invocation_id
  agent_id := c.context.agent_id
  proposal_id := c.proposal.id
  target := c.proposal.target
  effects := c.effects
  conflict_keys := c.conflict_keys
  priority := c.context.priority
  admission_sequence := c.admission_sequence
  disposition := disposition
  commit_order := commit_order
  winner_candidate_id := winner_candidate_id

/-! ## Arbitration -/

/-- The state of the loop of `_reject_conflicts`. -/
structure RejectLoop where
  winners : List ArbitrationCandidate := []
  rejected : List String := []
  decisions : List ArbitrationDecision := []

/-- The first earlier winner a candidate conflicts with. -/
def earlier_winner (winners : List ArbitrationCandidate) (c : ArbitrationCandidate) :
    Option ArbitrationCandidate :=
  winners.find? fun accepted => conflicts accepted c

/-- One iteration of `_reject_conflicts`. -/
def RejectLoop.next (l : RejectLoop) (c : ArbitrationCandidate) : RejectLoop :=
  match earlier_winner l.winners c with
  | some winner =>
    { l with
      rejected := l.rejected ++ [c.candidate_id]
      decisions := l.decisions ++
        [arbitration_decision c .reject none (some winner.candidate_id)] }
  | none =>
    { l with
      winners := l.winners ++ [c]
      decisions := l.decisions ++ [arbitration_decision c .execute (some l.winners.length) none] }

/-- `ConflictArbitrator._reject_conflicts`: the first of two conflicting
candidates wins. -/
def reject_conflicts (candidates : List ArbitrationCandidate) : ArbitrationPlan :=
  let loop := candidates.foldl RejectLoop.next {}
  { candidates := candidates
    ordered := loop.winners
    rejected := loop.rejected
    report := { policy := .reject, decisions := loop.decisions } }

/-- The sort key of the priority policy. -/
def commit_key (c : ArbitrationCandidate) : ℤ ×ₗ ℕ ×ₗ String ×ₗ String :=
  toLex (-c.context.priority, toLex (c.admission_sequence, toLex (c.context.agent_id,
    c.proposal.id)))

/-- The order in which the candidates of one invocation are attempted when the
policy rejects nothing. -/
def commit_ordered (policy : ArbitrationPolicy) (candidates : List ArbitrationCandidate) :
    List ArbitrationCandidate :=
  if policy = .serialize then candidates
  else candidates.insertionSort fun a b => commit_key a ≤ commit_key b

/-- The candidates of one invocation, numbered in proposal order. -/
def arbitration_candidates (catalog : ExecutionCatalog)
    (proposals : List (AgentContext × ActionProposal)) : List ArbitrationCandidate :=
  proposals.zipIdx.map fun ((context, proposal), sequence) =>
    candidate catalog context proposal sequence

/-- `ConflictArbitrator.arbitrate`. -/
def arbitrate (policy : ArbitrationPolicy) (catalog : ExecutionCatalog)
    (proposals : List (AgentContext × ActionProposal)) : ArbitrationPlan :=
  let candidates := arbitration_candidates catalog proposals
  if policy = .reject then reject_conflicts candidates
  else
    let ordered := commit_ordered policy candidates
    { candidates := candidates
      ordered := ordered
      rejected := []
      report :=
        { policy := policy
          decisions := candidates.map fun c =>
            arbitration_decision c .execute
              (some (ordered.findIdx fun other => other.candidate_id = c.candidate_id)) none } }

/-! ## The candidates of one invocation -/

/-- The candidates of one context, in proposal order. -/
def context_candidates (catalog : ExecutionCatalog) (context : AgentContext)
    (proposals : List ActionProposal) : List ArbitrationCandidate :=
  arbitration_candidates catalog (proposals.map fun p => (context, p))

variable (catalog : ExecutionCatalog)

theorem context_candidates_eq (context : AgentContext)
    (proposals : List ActionProposal) : context_candidates catalog context proposals
      = proposals.zipIdx.map fun (p, sequence) => candidate catalog context p sequence := by
  rw [context_candidates, arbitration_candidates, zipIdx_map, map_map]
  rfl

theorem context_candidates_proposal (context : AgentContext) (proposals : List ActionProposal) :
    (context_candidates catalog context proposals).map ArbitrationCandidate.proposal
      = proposals := by
  rw [context_candidates_eq, map_map]
  have hproposal : (ArbitrationCandidate.proposal ∘ fun (e : ActionProposal × ℕ) =>
      candidate catalog context e.1 e.2) = Prod.fst := rfl
  rw [hproposal, zipIdx_map_fst]

theorem candidate_id_inj {context : AgentContext} {p q : ActionProposal}
    (h : candidate_id context p = candidate_id context q) : p.id = q.id :=
  (String.append_right_inj _).mp h

/-- Proposals with distinct ids give candidates with distinct ids. -/
theorem context_candidates_ids (context : AgentContext)
    {proposals : List ActionProposal} (h : (proposals.map ActionProposal.id).Nodup) :
    ((context_candidates catalog context proposals).map ArbitrationCandidate.candidate_id).Nodup := by
  have hids : (context_candidates catalog context proposals).map ArbitrationCandidate.candidate_id
      = proposals.map (candidate_id context) := by
    rw [context_candidates_eq, map_map]
    have hid : (ArbitrationCandidate.candidate_id ∘ fun (e : ActionProposal × ℕ) =>
        candidate catalog context e.1 e.2) = candidate_id context ∘ Prod.fst := rfl
    rw [hid, ← map_map, zipIdx_map_fst]
  rw [hids]
  exact Nodup.map_on (fun p hp q hq heq =>
    inj_on_of_nodup_map h hp hq (candidate_id_inj heq)) (Nodup.of_map _ h)

/-- The winners under `reject` are the greedy choice. -/
theorem reject_conflicts_ordered (candidates : List ArbitrationCandidate) :
    (reject_conflicts candidates).ordered = candidates.greedy conflicts := by
  have hloop : ∀ (cs : List ArbitrationCandidate) (l : RejectLoop),
      (cs.foldl RejectLoop.next l).winners = cs.foldl (List.greedy_step conflicts) l.winners := by
    intro cs
    induction cs with
    | nil => exact fun l => rfl
    | cons c cs ih =>
      intro l
      rw [foldl_cons, foldl_cons, ih]
      congr 1
      rw [RejectLoop.next, List.greedy_step, earlier_winner]
      cases hfind : l.winners.find? fun accepted => conflicts accepted c with
      | some winner =>
        have hconf : conflicts winner c = true :=
          find?_some (p := fun accepted => conflicts accepted c) hfind
        have hany : (l.winners.any fun a => conflicts a c) = true :=
          any_eq_true.mpr ⟨winner, mem_of_find?_eq_some hfind, hconf⟩
        rw [if_pos hany]
      | none =>
        have hany : ¬ (l.winners.any fun a => conflicts a c) = true := by
          rw [any_eq_true]
          rintro ⟨a, ha, hac⟩
          exact find?_eq_none.mp hfind a ha hac
        rw [if_neg hany]
  exact hloop candidates {}

/-- Sorting the candidates of one invocation by priority keeps proposal order:
they have one priority and are numbered in that order. -/
theorem commit_ordered_context (policy : ArbitrationPolicy) (catalog : ExecutionCatalog)
    (context : AgentContext) (proposals : List ActionProposal) :
    commit_ordered policy (context_candidates catalog context proposals)
      = context_candidates catalog context proposals := by
  unfold commit_ordered
  split
  · rfl
  · refine List.Pairwise.insertionSort_eq ?_
    rw [context_candidates_eq, pairwise_map]
    have hsequence : proposals.zipIdx.Pairwise fun a b => a.2 < b.2 := by
      rw [← pairwise_map (f := Prod.snd) (R := (· < ·)), zipIdx_map_snd]
      exact pairwise_lt_range' 1
    refine hsequence.imp ?_
    intro a b hab
    unfold commit_key candidate
    simp only [Prod.Lex.toLex_le_toLex]
    exact Or.inr ⟨trivial, Or.inl hab⟩

/-- What the arbiter lets through of one invocation's proposals. -/
theorem arbitrate_ordered (policy : ArbitrationPolicy) (catalog : ExecutionCatalog)
    (context : AgentContext) (proposals : List ActionProposal) :
    (arbitrate policy catalog (proposals.map fun p => (context, p))).ordered
      = if policy = .reject then (context_candidates catalog context proposals).greedy conflicts
        else context_candidates catalog context proposals := by
  unfold arbitrate
  by_cases hpol : policy = .reject
  · simp only [if_pos hpol]
    exact reject_conflicts_ordered _
  · simp only [if_neg hpol]
    exact commit_ordered_context policy catalog context proposals

end MininetAi
