/-
The action admission monitor (`mininet_ai/coordination/admission.py`), operation
by operation.

`ActionAdmission` is the four lists the class keeps. Each definition below is one
section of its two context managers under the condition lock: what `decision`
and `admit` append when they enter, the predicate they wait for, what they do
once it holds, and what they remove when they exit. Which threads run these
sections, and in which order, is `MininetAi.Coordination.AdmissionSystem`.

A reservation is compared by identity in the source (`eq=False`). Here it has an
owner, the invocation that made it; two reservations of one owner are the same
object.
-/
import Mathlib.Data.Finset.Lattice.Lemmas
import MininetAi.Lib.Waiting
import MininetAi.Coordination.Arbitration

set_option autoImplicit false

namespace MininetAi

open List

/-! ## Reservations -/

/-- `(scope, run_id, deployment, name)`; a run-scoped key has no deployment. -/
structure StateKey where
  scope : SharedScope
  run_id : String
  deployment : Option String
  name : String
  deriving DecidableEq

/-- The local function `key` of `decision`. -/
def state_key (context : AgentContext) (scope : SharedScope) (name : String) : StateKey where
  scope := scope
  run_id := context.run_id
  deployment := if scope = .deployment then some context.deployment else none
  name := name

/-- What one decision reserves until it is complete. -/
structure CommitReservation (I : Type) where
  owner : I
  reads : Finset StateKey
  writes : Finset StateKey
  candidates : List ArbitrationCandidate
  priority : ℤ
  deriving DecidableEq

/-- The lists of `ActionAdmission`. -/
structure ActionAdmission (I : Type) where
  active : List ArbitrationCandidate := []
  pending : List ArbitrationCandidate := []
  committing : List (CommitReservation I) := []
  waiting : List (CommitReservation I) := []

variable {I : Type}

/-- A write of one reservation overlaps a read or write of the other. -/
def state_conflict (left right : CommitReservation I) : Bool :=
  (left.writes ∩ (right.reads ∪ right.writes)).Nonempty ∨ (right.writes ∩ left.reads).Nonempty

/-- `ActionAdmission._decision_conflicts`. Under `reject` network conflicts are
refused, never waited for. -/
def decision_conflicts (policy : ArbitrationPolicy) (left right : CommitReservation I) : Bool :=
  state_conflict left right ||
    (policy ≠ .reject &&
      left.candidates.any fun a => right.candidates.any fun b => conflicts a b)

/-- The tuple comparison of both readiness predicates: under `priority` a higher
priority goes first, and at equal priority, as under the other policies, the
earlier position. -/
def goes_before (policy : ArbitrationPolicy) (left right : ℤ × ℕ) : Bool :=
  if policy = .priority then -left.1 < -right.1 ∨ (-left.1 = -right.1 ∧ left.2 < right.2)
  else left.2 < right.2

variable {policy : ArbitrationPolicy}

/-- Of two positions only the comparison matters. -/
theorem goes_before_congr {p q : ℤ} {j k j' k' : ℕ} (h : j < k ↔ j' < k') :
    goes_before policy (p, j) (q, k) = goes_before policy (p, j') (q, k') := by
  simp only [goes_before, h]

theorem state_conflict_comm (left right : CommitReservation I) :
    state_conflict left right = state_conflict right left := by
  unfold state_conflict
  rw [decide_eq_decide]
  simp only [Finset.Nonempty, Finset.mem_inter, Finset.mem_union]
  constructor
  · rintro (⟨k, hl, hr | hr⟩ | ⟨k, hr, hl⟩)
    · exact Or.inr ⟨k, hl, hr⟩
    · exact Or.inl ⟨k, hr, Or.inr hl⟩
    · exact Or.inl ⟨k, hr, Or.inl hl⟩
  · rintro (⟨k, hr, hl | hl⟩ | ⟨k, hl, hr⟩)
    · exact Or.inr ⟨k, hr, hl⟩
    · exact Or.inl ⟨k, hl, Or.inr hr⟩
    · exact Or.inl ⟨k, hl, Or.inl hr⟩

theorem decision_conflicts_comm (policy : ArbitrationPolicy) (left right : CommitReservation I) :
    decision_conflicts policy left right = decision_conflicts policy right left := by
  have hnet : (left.candidates.any fun a => right.candidates.any fun b => conflicts a b)
      = right.candidates.any fun a => left.candidates.any fun b => conflicts a b := by
    rw [Bool.eq_iff_iff]
    simp only [any_eq_true]
    constructor
    · rintro ⟨a, ha, b, hb, hab⟩
      exact ⟨b, hb, a, ha, by rw [conflicts_comm]; exact hab⟩
    · rintro ⟨b, hb, a, ha, hba⟩
      exact ⟨a, ha, b, hb, by rw [conflicts_comm]; exact hba⟩
  unfold decision_conflicts
  rw [state_conflict_comm left right, hnet]

instance decision_conflicts_symm (policy : ArbitrationPolicy) :
    Std.Symm fun l r : CommitReservation I => decision_conflicts policy l r = false where
  symm l r h := by rw [decision_conflicts_comm]; exact h

variable {left right : CommitReservation I}

/-- Unless the policy is `reject`, the candidates of two compatible decisions do
not conflict. -/
theorem conflicts_of_decision_conflicts (hp : policy ≠ .reject)
    (h : decision_conflicts policy left right = false) {a b : ArbitrationCandidate}
    (ha : a ∈ left.candidates) (hb : b ∈ right.candidates) : conflicts a b = false := by
  rw [Bool.eq_false_iff]
  intro hab
  have hnet : (left.candidates.any fun a => right.candidates.any fun b => conflicts a b) = true :=
    any_eq_true.mpr ⟨a, ha, any_eq_true.mpr ⟨b, hb, hab⟩⟩
  simp [decision_conflicts, hp, hnet] at h

/-- Two compatible decisions: no write of one is a read or a write of the other. -/
theorem disjoint_of_decision_conflicts (h : decision_conflicts policy left right = false) :
    Disjoint left.writes (right.reads ∪ right.writes) ∧
      Disjoint right.writes (left.reads ∪ left.writes) := by
  have key : ∀ l r : CommitReservation I, decision_conflicts policy l r = false →
      Disjoint l.writes (r.reads ∪ r.writes) := by
    intro l r hlr
    rw [Finset.disjoint_iff_inter_eq_empty, ← Finset.not_nonempty_iff_eq_empty]
    intro hne
    simp [decision_conflicts, state_conflict, hne] at hlr
  exact ⟨key left right h, key right left (by rw [decision_conflicts_comm]; exact h)⟩

namespace ActionAdmission

/-! ## `decision` -/

/-- `ActionAdmission.rejections`: for each candidate the first admitted one it
conflicts with, under `reject` only. -/
def rejections (policy : ArbitrationPolicy) (a : ActionAdmission I)
    (candidates history : List ArbitrationCandidate) : List (String × ArbitrationCandidate) :=
  if policy ≠ .reject then []
  else
    let admitted := history ++ a.active ++
      (a.committing ++ a.waiting).flatMap CommitReservation.candidates
    candidates.filterMap fun candidate =>
      (admitted.find? fun other => conflicts other candidate).map fun winner =>
        (candidate.candidate_id, winner)

/-- The candidates a decision still has a chance to execute. -/
def kept_candidates (rejections : List (String × ArbitrationCandidate))
    (candidates : List ArbitrationCandidate) : List ArbitrationCandidate :=
  candidates.filter fun c => (rejections.lookup c.candidate_id).isNone

/-- The reservation `decision` builds. When every proposal has been refused the
decision will publish nothing, and its reads and writes are cleared. -/
def reservation (owner : I) (context : AgentContext) (response : AgentResponse)
    (kept : List ArbitrationCandidate) : CommitReservation I :=
  let cleared := response.proposals ≠ [] ∧ kept = []
  { owner := owner
    reads := if cleared then ∅ else
      (response.shared_state_reads.map fun r => state_key context r.scope r.key).toFinset
    writes := if cleared then ∅ else
      (response.shared_state_updates.map fun u => state_key context u.scope u.key).toFinset
    candidates := kept
    priority := context.priority }

/-- `self._waiting.append(reservation)`. -/
def wait_decision (a : ActionAdmission I) (r : CommitReservation I) : ActionAdmission I :=
  { a with waiting := a.waiting ++ [r] }

/-- `ActionAdmission._decision_ready`. -/
def decision_ready [DecidableEq I] (policy : ArbitrationPolicy) (a : ActionAdmission I)
    (r : CommitReservation I) : Bool :=
  !(a.committing.any fun active => decision_conflicts policy r active) &&
    a.waiting.zipIdx.all fun (other, other_index) =>
      other = r || !decision_conflicts policy r other ||
        !goes_before policy (other.priority, other_index) (r.priority, a.waiting.idxOf r)

variable {policy : ArbitrationPolicy} {a : ActionAdmission I} {r : CommitReservation I}

/-- A decision waits exactly for an incompatible decision in progress or for an
incompatible one that is queued before it. -/
theorem decision_ready_iff [DecidableEq I] (h : a.waiting.Nodup) (r : CommitReservation I) :
    a.decision_ready policy r = true ↔
      (∀ active ∈ a.committing, decision_conflicts policy r active = false) ∧
        ∀ other ∈ a.waiting, other ≠ r → decision_conflicts policy r other = true →
          goes_before policy (other.priority, a.waiting.idxOf other)
            (r.priority, a.waiting.idxOf r) = false := by
  unfold decision_ready
  simp only [Bool.and_eq_true, Bool.not_eq_true', any_eq_false, all_eq_true,
    Prod.forall, List.mem_zipIdx_iff_idxOf h, Bool.or_eq_true, decide_eq_true_eq]
  constructor
  · rintro ⟨hc, hw⟩
    refine ⟨fun active ha => by simpa using hc active ha, fun other ho hne hconf => ?_⟩
    rcases hw other _ ⟨ho, rfl⟩ with (heq | hno) | hgo
    · exact absurd heq hne
    · rw [hconf] at hno; cases hno
    · exact hgo
  · rintro ⟨hc, hw⟩
    refine ⟨fun active ha => by simpa using hc active ha, ?_⟩
    rintro other k ⟨ho, rfl⟩
    by_cases hne : other = r
    · exact Or.inl (Or.inl hne)
    cases hconf : decision_conflicts policy r other with
    | false => exact Or.inl (Or.inr rfl)
    | true => exact Or.inr (hw other ho hne hconf)

/-- A ready decision is compatible with those in commitment. -/
theorem committing_free_of_ready [DecidableEq I] (h : a.decision_ready policy r = true) :
    ∀ active ∈ a.committing, decision_conflicts policy r active = false := by
  intro active ha
  simp only [decision_ready, Bool.and_eq_true, Bool.not_eq_true', any_eq_false] at h
  simpa using h.1 active ha

/-- What a waiting decision waits for. -/
theorem not_ready_iff [DecidableEq I] (h : a.waiting.Nodup) (r : CommitReservation I) :
    a.decision_ready policy r = false ↔
      (∃ active ∈ a.committing, decision_conflicts policy r active = true) ∨
        ∃ other ∈ a.waiting, other ≠ r ∧ decision_conflicts policy r other = true ∧
          goes_before policy (other.priority, a.waiting.idxOf other)
            (r.priority, a.waiting.idxOf r) = true := by
  rw [← Bool.not_eq_true, decision_ready_iff h, not_and_or]
  push Not
  simp only [ne_eq, Bool.not_eq_false]

/-- What `decision` does once it is ready. -/
def start_decision [DecidableEq I] (a : ActionAdmission I) (r : CommitReservation I) : ActionAdmission I :=
  { a with
    waiting := a.waiting.erase r
    committing := a.committing ++ [r] }

/-- A decision that does not have to queue leaves the queue as it was. -/
theorem start_new_decision [DecidableEq I] (h : r ∉ a.waiting) :
    (a.wait_decision r).start_decision r = { a with committing := a.committing ++ [r] } := by
  simp only [start_decision, wait_decision]
  rw [erase_append_right _ h]
  simp

/-! A decision that has to wait still has to after a new decision queues up, after
a decision joins those in commitment, and after a queued decision starts. -/

theorem not_ready_of_append [DecidableEq I] (h : a.waiting.Nodup) {new : CommitReservation I}
    (hnew : new ∉ a.waiting) (hr : r ∈ a.waiting) (hwait : a.decision_ready policy r = false) :
    (a.wait_decision new).decision_ready policy r = false := by
  have hnodup : (a.wait_decision new).waiting.Nodup :=
    nodup_append.mpr ⟨h, nodup_singleton new,
      fun x hx y hy => by rw [mem_singleton.mp hy]; rintro rfl; exact hnew hx⟩
  rcases (not_ready_iff h r).mp hwait with hactive | ⟨other, ho, hne, hconf, hbefore⟩
  · exact (not_ready_iff hnodup r).mpr (Or.inl hactive)
  · refine (not_ready_iff hnodup r).mpr (Or.inr ⟨other, ?_, hne, hconf, ?_⟩)
    · exact mem_append.mpr (Or.inl ho)
    · rw [wait_decision, List.idxOf_append_singleton ho, List.idxOf_append_singleton hr]
      exact hbefore

theorem not_ready_of_more_committing [DecidableEq I] {b : ActionAdmission I}
    (hwait : a.decision_ready policy r = false) (hw : b.waiting = a.waiting)
    (hc : a.committing ⊆ b.committing) : b.decision_ready policy r = false := by
  unfold decision_ready at hwait ⊢
  rw [hw]
  rw [Bool.and_eq_false_iff, Bool.not_eq_false', any_eq_true] at hwait ⊢
  exact hwait.imp_left fun ⟨active, ha, hconf⟩ => ⟨active, hc ha, hconf⟩

theorem not_ready_of_start [DecidableEq I] (h : a.waiting.Nodup) {first : CommitReservation I}
    (hne : r ≠ first) (hwait : a.decision_ready policy r = false) :
    (a.start_decision first).decision_ready policy r = false := by
  have hnodup : (a.start_decision first).waiting.Nodup := h.erase first
  rw [not_ready_iff hnodup]
  rcases (not_ready_iff h r).mp hwait with ⟨active, ha, hconf⟩ | ⟨other, ho, hor, hconf, hbefore⟩
  · exact Or.inl ⟨active, mem_append.mpr (Or.inl ha), hconf⟩
  · by_cases hof : other = first
    -- whom it waited for in the queue is now in commitment
    · subst hof
      exact Or.inl ⟨other, mem_append.mpr (Or.inr (mem_singleton_self _)), hconf⟩
    · refine Or.inr ⟨other, (h.mem_erase_iff).mpr ⟨hof, ho⟩, hor, hconf, ?_⟩
      rw [← hbefore]
      refine goes_before_congr ?_
      exact List.idxOf_lt_idxOf_erase _ (Ne.symm hof) (Ne.symm hne)

/-- The `finally` of `decision`. -/
def finish_decision [DecidableEq I] (a : ActionAdmission I) (r : CommitReservation I) : ActionAdmission I :=
  { a with committing := a.committing.erase r }

/-! ## `admit` -/

/-- Under `reject` a candidate loses to the first conflicting one in its request's
history or in execution. -/
def admit_winner (policy : ArbitrationPolicy) (a : ActionAdmission I)
    (history : List ArbitrationCandidate) (candidate : ArbitrationCandidate) :
    Option ArbitrationCandidate :=
  if policy = .reject then
    (history ++ a.active).find? fun other => conflicts other candidate
  else none

/-- `self._pending.append(candidate)`. -/
def wait_action (a : ActionAdmission I) (candidate : ArbitrationCandidate) : ActionAdmission I :=
  { a with pending := a.pending ++ [candidate] }

/-- `ActionAdmission._ready`. -/
def ready (policy : ArbitrationPolicy) (a : ActionAdmission I)
    (candidate : ArbitrationCandidate) : Bool :=
  !(a.active.any fun other => conflicts other candidate) &&
    a.pending.all fun other =>
      other = candidate || !conflicts other candidate ||
        !goes_before policy (other.context.priority, a.pending.idxOf other)
          (candidate.context.priority, a.pending.idxOf candidate)

/-- An action that nothing in execution conflicts with does not wait when nothing
else is pending. -/
theorem ready_of_alone {candidate : ArbitrationCandidate} (hpending : a.pending = [candidate])
    (hactive : ∀ other ∈ a.active, conflicts other candidate = false) :
    a.ready policy candidate = true := by
  unfold ready
  rw [hpending, Bool.and_eq_true, Bool.not_eq_true', any_eq_false]
  exact ⟨fun other ho => by simp [hactive other ho], by simp⟩

/-- What `admit` does once it is ready; the candidate also joins the history. -/
def start_action (a : ActionAdmission I) (candidate : ArbitrationCandidate) : ActionAdmission I :=
  { a with
    pending := a.pending.erase candidate
    active := a.active ++ [candidate] }

/-- The `finally` of `admit` for an admitted candidate. -/
def finish_action (a : ActionAdmission I) (candidate : ArbitrationCandidate) : ActionAdmission I :=
  { a with active := a.active.erase candidate }

end ActionAdmission
end MininetAi
