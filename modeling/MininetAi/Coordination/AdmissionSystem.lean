/-
Every interleaving of `decision` and `admit` on one `ActionAdmission`.

A participant is one invocation. It enters `decision` once, possibly waits,
issues admits one after another inside the decision for candidates of that
decision, possibly waits in each, and leaves both context managers normally or
by an exception. One step of the system is one section of that code under the
condition lock.

A waiter is asleep until a `notify_all` reaches it, and only then evaluates its
predicate again; the flag of a waiting stage says whether one has. So a waiter
whose predicate has become true but who was never notified is asleep here, as it
is in `threading.Condition`, and the absence of deadlock proved below includes
the absence of lost wake-ups.
-/
import MininetAi.Lib.Slots
import MininetAi.Lib.Transition
import MininetAi.Coordination.Admission

set_option autoImplicit false

namespace MininetAi

open ActionAdmission

variable {I R : Type}

/-! ## States -/

/-- What an invocation passes to `decision`. `request` names the list `history`,
which all invocations of one request share. -/
structure DecisionCall (R : Type) where
  request : R
  context : AgentContext
  response : AgentResponse
  candidates : List ArbitrationCandidate

/-- Where an invocation is in the two context managers. -/
inductive AdmissionStage where
  /-- In the wait of `decision`. -/
  | waiting (notified : Bool)
  /-- In the body of `decision`, not in an `admit`. -/
  | deciding
  /-- In the wait of `admit`. -/
  | admit_waiting (candidate : ArbitrationCandidate) (notified : Bool)
  /-- In the body of an `admit` that admitted its candidate. -/
  | acting (candidate : ArbitrationCandidate)
  /-- In the body of an `admit` that yielded a winner. -/
  | refused (candidate winner : ArbitrationCandidate)
  /-- After `decision`. -/
  | finished
  deriving DecidableEq

/-- One invocation that has entered `decision`. -/
structure Participant (I R : Type) where
  call : DecisionCall R
  reservation : CommitReservation I
  stage : AdmissionStage

/-- The monitor, the histories of the requests and the invocations. `issued` is
bookkeeping: the candidate ids any invocation has brought so far. -/
structure AdmissionState (I R : Type) where
  admission : ActionAdmission I := {}
  history : R → List ArbitrationCandidate := fun _ => []
  participant : I → Option (Participant I R) := fun _ => none
  issued : List String := []

/-- The sections. `raised` says whether a body ended by an exception. -/
inductive AdmissionEvent (I R : Type) where
  | decision_enter (i : I) (call : DecisionCall R)
  | decision_recheck (i : I)
  | admit_enter (i : I) (candidate : ArbitrationCandidate)
  | admit_recheck (i : I)
  | admit_exit (i : I) (raised : Bool)
  | decision_exit (i : I) (raised : Bool)

/-- A waiter that `notify_all` reaches will evaluate its predicate. -/
def AdmissionStage.notify : AdmissionStage → AdmissionStage
  | .waiting _ => .waiting true
  | .admit_waiting candidate _ => .admit_waiting candidate true
  | stage => stage

/-- `self._condition.notify_all()`. -/
def notify_all (participant : I → Option (Participant I R)) : I → Option (Participant I R) :=
  fun i => (participant i).map fun p => { p with stage := p.stage.notify }

/-! ## Steps -/

section Steps

variable [DecidableEq I] [DecidableEq R] (policy : ArbitrationPolicy)

/-- Invocation `i` moves to `stage` and the monitor to `a`. -/
def AdmissionState.move (s : AdmissionState I R) (i : I) (p : Participant I R)
    (stage : AdmissionStage) (a : ActionAdmission I) : AdmissionState I R :=
  { s with
    admission := a
    participant := Function.update s.participant i (some { p with stage := stage }) }

/-- The candidate joins the history of its request. -/
def AdmissionState.record (s : AdmissionState I R) (q : R) (c : ArbitrationCandidate) :
    AdmissionState I R :=
  { s with history := Function.update s.history q (s.history q ++ [c]) }

/-- The invocation as it enters `decision`, with the reservation built there. -/
def entrant (s : AdmissionState I R) (i : I) (call : DecisionCall R) : Participant I R :=
  let rejected := s.admission.rejections policy call.candidates (s.history call.request)
  { call := call
    reservation :=
      reservation i call.context call.response (kept_candidates rejected call.candidates)
    stage := .waiting false }

/-- The candidate ids of a call are taken. -/
def AdmissionState.issue (s : AdmissionState I R) (call : DecisionCall R) : AdmissionState I R :=
  { s with issued := s.issued ++ call.candidates.map ArbitrationCandidate.candidate_id }

/-- The entry of `decision`: build the reservation, queue it, evaluate the
predicate once. Candidate ids are unique over all invocations. -/
def decision_enter (s : AdmissionState I R) (i : I) (call : DecisionCall R) :
    Option (AdmissionState I R) :=
  if (s.participant i).isNone ∧ (call.candidates.map ArbitrationCandidate.candidate_id).Nodup ∧
      ∀ c ∈ call.candidates, c.candidate_id ∉ s.issued then
    let p := entrant policy s i call
    let a := s.admission.wait_decision p.reservation
    some (if a.decision_ready policy p.reservation then
        (s.issue call).move i p .deciding (a.start_decision p.reservation)
      else (s.issue call).move i p (.waiting false) a)
  else none

/-- A notified decision evaluates its predicate again. -/
def decision_recheck (s : AdmissionState I R) (i : I) : Option (AdmissionState I R) :=
  match s.participant i with
  | some p =>
    if p.stage = .waiting true then
      some (if s.admission.decision_ready policy p.reservation then
          s.move i p .deciding (s.admission.start_decision p.reservation)
        else s.move i p (.waiting false) s.admission)
    else none
  | none => none

/-- The entry of `admit`: look for a winner, else queue the candidate and
evaluate the predicate once. -/
def admit_enter (s : AdmissionState I R) (i : I) (c : ArbitrationCandidate) :
    Option (AdmissionState I R) :=
  match s.participant i with
  | some p =>
    if p.stage = .deciding ∧ c ∈ p.call.candidates then
      match s.admission.admit_winner policy (s.history p.call.request) c with
      | some winner => some (s.move i p (.refused c winner) s.admission)
      | none =>
        let a := s.admission.wait_action c
        some (if a.ready policy c then
            (s.move i p (.acting c) (a.start_action c)).record p.call.request c
          else s.move i p (.admit_waiting c false) a)
    else none
  | none => none

/-- A notified admit evaluates its predicate again. -/
def admit_recheck (s : AdmissionState I R) (i : I) : Option (AdmissionState I R) :=
  match s.participant i with
  | some p =>
    match p.stage with
    | .admit_waiting c true =>
      some (if s.admission.ready policy c then
          (s.move i p (.acting c) (s.admission.start_action c)).record p.call.request c
        else s.move i p (.admit_waiting c false) s.admission)
    | _ => none
  | none => none

/-- The exit of `admit`, the same whether or not its body raised. -/
def admit_exit (s : AdmissionState I R) (i : I) : Option (AdmissionState I R) :=
  match s.participant i with
  | some p =>
    match p.stage with
    | .acting c =>
      let t := s.move i p .deciding (s.admission.finish_action c)
      some { t with participant := notify_all t.participant }
    | .refused _ _ => some (s.move i p .deciding s.admission)
    | _ => none
  | none => none

/-- The exit of `decision`, the same whether or not its body raised. -/
def decision_exit (s : AdmissionState I R) (i : I) : Option (AdmissionState I R) :=
  match s.participant i with
  | some p =>
    if p.stage = .deciding then
      let t := s.move i p .finished (s.admission.finish_decision p.reservation)
      some { t with participant := notify_all t.participant }
    else none
  | none => none

/-- The admission monitor under one policy. -/
def admission_system : System (AdmissionState I R) (AdmissionEvent I R) where
  init s := s = {}
  step s
    | .decision_enter i call => decision_enter policy s i call
    | .decision_recheck i => decision_recheck policy s i
    | .admit_enter i c => admit_enter policy s i c
    | .admit_recheck i => admit_recheck policy s i
    | .admit_exit i _ => admit_exit s i
    | .decision_exit i _ => decision_exit s i

/-! ## What a step can do

`AdmissionStep` lists the twelve ways a section can end, with what it checked and
the state it leaves. Every invariant below is a case analysis over it. -/

/-- The ways a section can end. -/
inductive AdmissionStep (s : AdmissionState I R) :
    AdmissionEvent I R → AdmissionState I R → Prop
  | enter_start {i : I} {call : DecisionCall R} (hnone : s.participant i = none)
      (hnodup : (call.candidates.map ArbitrationCandidate.candidate_id).Nodup)
      (hfresh : ∀ c ∈ call.candidates, c.candidate_id ∉ s.issued)
      (hready : (s.admission.wait_decision (entrant policy s i call).reservation).decision_ready
        policy (entrant policy s i call).reservation = true) :
      AdmissionStep s (.decision_enter i call)
        ((s.issue call).move i (entrant policy s i call) .deciding
          ((s.admission.wait_decision (entrant policy s i call).reservation).start_decision
            (entrant policy s i call).reservation))
  | enter_wait {i : I} {call : DecisionCall R} (hnone : s.participant i = none)
      (hnodup : (call.candidates.map ArbitrationCandidate.candidate_id).Nodup)
      (hfresh : ∀ c ∈ call.candidates, c.candidate_id ∉ s.issued)
      (hready : (s.admission.wait_decision (entrant policy s i call).reservation).decision_ready
        policy (entrant policy s i call).reservation = false) :
      AdmissionStep s (.decision_enter i call)
        ((s.issue call).move i (entrant policy s i call) (.waiting false)
          (s.admission.wait_decision (entrant policy s i call).reservation))
  | recheck_start {i : I} {p : Participant I R} (hp : s.participant i = some p)
      (hstage : p.stage = .waiting true)
      (hready : s.admission.decision_ready policy p.reservation = true) :
      AdmissionStep s (.decision_recheck i)
        (s.move i p .deciding (s.admission.start_decision p.reservation))
  | recheck_wait {i : I} {p : Participant I R} (hp : s.participant i = some p)
      (hstage : p.stage = .waiting true)
      (hready : s.admission.decision_ready policy p.reservation = false) :
      AdmissionStep s (.decision_recheck i) (s.move i p (.waiting false) s.admission)
  | admit_refuse {i : I} {p : Participant I R} {c w : ArbitrationCandidate}
      (hp : s.participant i = some p) (hstage : p.stage = .deciding)
      (hc : c ∈ p.call.candidates)
      (hwin : s.admission.admit_winner policy (s.history p.call.request) c = some w) :
      AdmissionStep s (.admit_enter i c) (s.move i p (.refused c w) s.admission)
  | admit_start {i : I} {p : Participant I R} {c : ArbitrationCandidate}
      (hp : s.participant i = some p) (hstage : p.stage = .deciding)
      (hc : c ∈ p.call.candidates)
      (hwin : s.admission.admit_winner policy (s.history p.call.request) c = none)
      (hready : (s.admission.wait_action c).ready policy c = true) :
      AdmissionStep s (.admit_enter i c)
        ((s.move i p (.acting c) ((s.admission.wait_action c).start_action c)).record
          p.call.request c)
  | admit_wait {i : I} {p : Participant I R} {c : ArbitrationCandidate}
      (hp : s.participant i = some p) (hstage : p.stage = .deciding)
      (hc : c ∈ p.call.candidates)
      (hwin : s.admission.admit_winner policy (s.history p.call.request) c = none)
      (hready : (s.admission.wait_action c).ready policy c = false) :
      AdmissionStep s (.admit_enter i c)
        (s.move i p (.admit_waiting c false) (s.admission.wait_action c))
  | admit_recheck_start {i : I} {p : Participant I R} {c : ArbitrationCandidate}
      (hp : s.participant i = some p) (hstage : p.stage = .admit_waiting c true)
      (hready : s.admission.ready policy c = true) :
      AdmissionStep s (.admit_recheck i)
        ((s.move i p (.acting c) (s.admission.start_action c)).record p.call.request c)
  | admit_recheck_wait {i : I} {p : Participant I R} {c : ArbitrationCandidate}
      (hp : s.participant i = some p) (hstage : p.stage = .admit_waiting c true)
      (hready : s.admission.ready policy c = false) :
      AdmissionStep s (.admit_recheck i) (s.move i p (.admit_waiting c false) s.admission)
  | admit_exit {i : I} {p : Participant I R} {c : ArbitrationCandidate} {raised : Bool}
      (hp : s.participant i = some p) (hstage : p.stage = .acting c) :
      AdmissionStep s (.admit_exit i raised)
        { s.move i p .deciding (s.admission.finish_action c) with
          participant :=
            notify_all (s.move i p .deciding (s.admission.finish_action c)).participant }
  | refuse_exit {i : I} {p : Participant I R} {c w : ArbitrationCandidate} {raised : Bool}
      (hp : s.participant i = some p) (hstage : p.stage = .refused c w) :
      AdmissionStep s (.admit_exit i raised) (s.move i p .deciding s.admission)
  | decision_exit {i : I} {p : Participant I R} {raised : Bool}
      (hp : s.participant i = some p) (hstage : p.stage = .deciding) :
      AdmissionStep s (.decision_exit i raised)
        { s.move i p .finished (s.admission.finish_decision p.reservation) with
          participant := notify_all
            (s.move i p .finished (s.admission.finish_decision p.reservation)).participant }

/-- Every step ends in one of the twelve ways. -/
theorem admission_step {s s' : AdmissionState I R} {e : AdmissionEvent I R}
    (h : (admission_system policy).step s e = some s') : AdmissionStep policy s e s' := by
  cases e with
  | decision_enter i call =>
    simp only [admission_system, decision_enter] at h
    split at h
    · rename_i hguard
      obtain ⟨hnone, hnodup, hfresh⟩ := hguard
      rw [Option.isNone_iff_eq_none] at hnone
      split at h
      · rename_i hready
        cases h
        exact .enter_start hnone hnodup hfresh hready
      · rename_i hready
        cases h
        exact .enter_wait hnone hnodup hfresh (Bool.eq_false_iff.mpr hready)
    · cases h
  | decision_recheck i =>
    simp only [admission_system, decision_recheck] at h
    cases hp : s.participant i with
    | none => rw [hp] at h; cases h
    | some p =>
      rw [hp] at h
      simp only at h
      split at h
      · rename_i hstage
        split at h
        · rename_i hready
          cases h
          exact .recheck_start hp hstage hready
        · rename_i hready
          cases h
          exact .recheck_wait hp hstage (Bool.eq_false_iff.mpr hready)
      · cases h
  | admit_enter i c =>
    simp only [admission_system, admit_enter] at h
    cases hp : s.participant i with
    | none => rw [hp] at h; cases h
    | some p =>
      rw [hp] at h
      simp only at h
      split at h
      · rename_i hguard
        obtain ⟨hstage, hc⟩ := hguard
        cases hwin : s.admission.admit_winner policy (s.history p.call.request) c with
        | some w =>
          rw [hwin] at h
          cases h
          exact .admit_refuse hp hstage hc hwin
        | none =>
          rw [hwin] at h
          simp only at h
          split at h
          · rename_i hready
            cases h
            exact .admit_start hp hstage hc hwin hready
          · rename_i hready
            cases h
            exact .admit_wait hp hstage hc hwin (Bool.eq_false_iff.mpr hready)
      · cases h
  | admit_recheck i =>
    simp only [admission_system, admit_recheck] at h
    cases hp : s.participant i with
    | none => rw [hp] at h; cases h
    | some p =>
      rw [hp] at h
      simp only at h
      split at h
      · rename_i c hstage
        split at h
        · rename_i hready
          cases h
          exact .admit_recheck_start hp hstage hready
        · rename_i hready
          cases h
          exact .admit_recheck_wait hp hstage (Bool.eq_false_iff.mpr hready)
      · cases h
  | admit_exit i raised =>
    simp only [admission_system, admit_exit] at h
    cases hp : s.participant i with
    | none => rw [hp] at h; cases h
    | some p =>
      rw [hp] at h
      simp only at h
      split at h
      · rename_i c hstage
        cases h
        exact .admit_exit hp hstage
      · rename_i c w hstage
        cases h
        exact .refuse_exit hp hstage
      · cases h
  | decision_exit i raised =>
    simp only [admission_system, decision_exit] at h
    cases hp : s.participant i with
    | none => rw [hp] at h; cases h
    | some p =>
      rw [hp] at h
      simp only at h
      split at h
      · rename_i hstage
        cases h
        exact .decision_exit hp hstage
      · cases h

end Steps

end MininetAi
