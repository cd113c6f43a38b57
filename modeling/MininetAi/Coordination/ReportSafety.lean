/-
The report of a coordinated request tells what happened.

The argument follows one candidate across the invocations. What a history holds of an
invocation is what its loop has executed, together with the candidate it has in execution
(`Accounted`): nobody else can enter a candidate of its id, because the invocation's id
can be read off the candidate's. When the invocation is collected its loop is over and
nothing of it is in execution, so `execute` means to be in the history, and the commit
order is the place there.
-/
import MininetAi.Coordination.ReportLoop
import MininetAi.Lib.Text

set_option autoImplicit false

namespace MininetAi

open Function

open Option

open List

variable {I R : Type}

/-! ## Candidate ids -/

/-- The invocation's id can be read off a candidate's when it has no colon. -/
theorem candidate_id_parts {context context' : AgentContext} {p p' : ActionProposal}
    (hplain : ':' ∉ context.invocation_id.toList) (hplain' : ':' ∉ context'.invocation_id.toList)
    (h : candidate_id context p = candidate_id context' p') :
    context.invocation_id = context'.invocation_id ∧ p.id = p'.id := by
  have hparts : ∀ (context : AgentContext) (p : ActionProposal), (candidate_id context p).toList
      = context.invocation_id.toList ++ ':' :: p.id.toList := by
    intro context p
    rw [candidate_id, String.toList_append, String.toList_append, append_assoc]
    rfl
  have hcut := congrArg (fun id : String => Text.cut ':' id.toList) h
  simp only [hparts, Text.cut_append hplain, Text.cut_append hplain', Prod.mk.injEq, Option.some.injEq] at hcut
  exact ⟨String.toList_inj.mp hcut.1, String.toList_inj.mp hcut.2⟩

/-- The invocation ids are unique and have no colon. -/
structure InvocationIds (s : CommitState I R) : Prop where
  unique : ∀ i j inv inv', s.invocation i = some inv → s.invocation j = some inv' →
    inv.prepared.context.invocation_id = inv'.prepared.context.invocation_id → i = j
  plain : ∀ i inv, s.invocation i = some inv → ':' ∉ inv.prepared.context.invocation_id.toList

section Steps

variable [DecidableEq I] [DecidableEq R] {config : CommitConfig}

/-! ## What the monitor enters in a history -/

/-- A step of the monitor enters nothing and its invocation has nothing in execution, or
enters the candidate that its invocation goes on to execute, or takes such a candidate
out of execution. -/
inductive Enters (s : AdmissionState I R) : AdmissionEvent I R → AdmissionState I R → Prop
  | nothing {e : AdmissionEvent I R} {s' : AdmissionState I R} (hhistory : s'.history = s.history)
      (hactive : s'.active_entries = s.active_entries) (hown : s.active_entries e.invocation = none) :
      Enters s e s'
  | candidate {i : I} {p : Participant I R} {c : ArbitrationCandidate} {s' : AdmissionState I R}
      (hp : s.participant i = some p) (hown : s.active_entries i = none)
      (hhistory : s'.history = update s.history p.call.request (s.history p.call.request ++ [c]))
      (hactive : s'.active_entries = update s.active_entries i (some c)) :
      Enters s (.admit_enter i c) s'
  | release {i : I} {raised : Bool} {s' : AdmissionState I R} (hhistory : s'.history = s.history)
      (hactive : s'.active_entries = update s.active_entries i none) :
      Enters s (.admit_exit i raised) s'

omit [DecidableEq R] in
theorem active_entries_move (s : AdmissionState I R) (i : I) (p : Participant I R) (stage : AdmissionStage)
    (a : ActionAdmission I) : (s.move i p stage a).active_entries
      = update s.active_entries i (Participant.active_entry { p with stage := stage }) :=
  entries_update _ _ _ _

omit [DecidableEq R] in
/-- A move between two stages without a candidate in execution. -/
theorem active_entries_quiet {s : AdmissionState I R} {i : I} {p : Participant I R} {stage : AdmissionStage}
    (a : ActionAdmission I) (hown : s.active_entries i = none)
    (hstage : Participant.active_entry { p with stage := stage } = none) :
    (s.move i p stage a).active_entries = s.active_entries := by
  rw [active_entries_move, hstage, ← hown, update_eq_self]

variable {i j : I} {p : Participant I R} {policy : ArbitrationPolicy} {inv : CommitInvocation R}
  {c : ArbitrationCandidate} {f : Finishing} {rest : List ArbitrationCandidate}
  {s : ReportState I R} {s t : ReportState I R} {e : AdmissionEvent I R} {stage : CommitStage}

section

omit [DecidableEq I] [DecidableEq R]

variable {s : AdmissionState I R}

theorem active_entries_of_stage (hp : s.participant i = some p) :
    s.active_entries i = p.active_entry := by
  rw [AdmissionState.active_entries, entries, hp, bind_some]

theorem active_entries_notify (s : AdmissionState I R) :
    AdmissionState.active_entries { s with participant := notify_all s.participant } = s.active_entries :=
  entries_notify_all active_entry_notify _

/-- Who is at a stage without a candidate in execution. -/
theorem inactive_of_stage {stage : AdmissionStage}
    (hp : s.participant i = some p) (hat : p.stage = stage)
    (hstage : Participant.active_entry { p with stage := stage } = none) :
    s.active_entries i = none := by
  subst hat
  rw [active_entries_of_stage hp]
  exact hstage

end

theorem AdmissionStep.enters {s s' : AdmissionState I R}
    (hinv : AdmissionInv policy s) (hs : AdmissionStep policy s e s') : Enters s e s' := by
  have hstranger : ∀ {i : I}, s.participant i = none → s.active_entries i = none := by
    intro i hnone
    rw [AdmissionState.active_entries, entries, hnone, bind_none]
  cases hs with
  | @enter_start i call hnone =>
    have hown := hstranger hnone
    exact .nothing rfl (@active_entries_quiet _ _ _ (s.issue call) i _ _ _ hown rfl) hown
  | @enter_wait i call hnone =>
    have hown := hstranger hnone
    exact .nothing rfl (@active_entries_quiet _ _ _ (s.issue call) i _ _ _ hown rfl) hown
  | recheck_start hp hat =>
    have hown := inactive_of_stage hp hat rfl
    exact .nothing rfl (active_entries_quiet _ hown rfl) hown
  | recheck_wait hp hat =>
    have hown := inactive_of_stage hp hat rfl
    exact .nothing rfl (active_entries_quiet _ hown rfl) hown
  | admit_refuse hp hat =>
    have hown := inactive_of_stage hp hat rfl
    exact .nothing rfl (active_entries_quiet _ hown rfl) hown
  | @admit_start i p c hp hat =>
    have hown := inactive_of_stage hp hat rfl
    exact .candidate hp hown rfl
      (active_entries_move s i p (.acting c) ((s.admission.wait_action c).start_action c))
  | admit_wait hp hat =>
    have hown := inactive_of_stage hp hat rfl
    exact .nothing rfl (active_entries_quiet _ hown rfl) hown
  | admit_recheck_start hp hat => exact absurd hat (hinv.lists.never_waits _ _ hp _ _)
  | admit_recheck_wait hp hat => exact absurd hat (hinv.lists.never_waits _ _ hp _ _)
  | @admit_exit i p c raised hp hat =>
    exact .release rfl ((active_entries_notify _).trans (active_entries_move _ _ _ _ _))
  | refuse_exit hp hat =>
    have hown := inactive_of_stage hp hat rfl
    exact .nothing rfl (active_entries_quiet _ hown rfl) hown
  | decision_exit hp hat =>
    have hown := inactive_of_stage hp hat rfl
    exact .nothing rfl ((active_entries_notify _).trans (active_entries_quiet _ hown rfl)) hown

/-- Who takes part has brought its call on entry. -/
theorem AdmissionStep.call_kept {s s' : AdmissionState I R}
    (hs : AdmissionStep policy s e s') {q : Participant I R} (hq : s'.participant j = some q) :
    (∃ p, s.participant j = some p ∧ p.call = q.call) ∨ e = .decision_enter j q.call := by
  have hsame : SameCalls s s' → ∃ p, s.participant j = some p ∧ p.call = q.call := by
    intro h
    obtain ⟨p, hp, hcall, -⟩ := h j q hq
    exact ⟨p, hp, hcall⟩
  have henter : ∀ {i : I} {call : DecisionCall R} {stage : AdmissionStage} {a : ActionAdmission I},
      ((s.issue call).move i (entrant policy s i call) stage a).participant j = some q →
      (∃ p, s.participant j = some p ∧ p.call = q.call) ∨ AdmissionEvent.decision_enter i call = .decision_enter j q.call := by
    intro i call stage a hq
    have hcases : ∀ k r, ((s.issue call).move i (entrant policy s i call) stage a).participant k = some r →
        (∃ p, s.participant k = some p ∧ p.call = r.call) ∨ AdmissionEvent.decision_enter i call = .decision_enter k r.call :=
      forall_move (fun k r _ hr => Or.inl ⟨r, hr, rfl⟩) (Or.inr rfl)
    exact hcases j q hq
  cases hs with
  | enter_start => exact henter hq
  | enter_wait => exact henter hq
  | recheck_start hp => exact Or.inl (hsame (same_calls_move hp _ _))
  | recheck_wait hp => exact Or.inl (hsame (same_calls_move hp _ _))
  | admit_refuse hp => exact Or.inl (hsame (same_calls_move hp _ _))
  | admit_start hp => exact Or.inl (hsame ((same_calls_move hp _ _).record _ _))
  | admit_wait hp => exact Or.inl (hsame (same_calls_move hp _ _))
  | admit_recheck_start hp => exact Or.inl (hsame ((same_calls_move hp _ _).record _ _))
  | admit_recheck_wait hp => exact Or.inl (hsame (same_calls_move hp _ _))
  | admit_exit hp => exact Or.inl (hsame (same_calls_move hp _ _).notify)
  | refuse_exit hp => exact Or.inl (hsame (same_calls_move hp _ _))
  | decision_exit hp => exact Or.inl (hsame (same_calls_move hp _ _).notify)

/-! ## The invariant -/

/-- What the histories hold of an invocation: what it has executed and, in the history of
its request, the candidate it has in execution. -/
structure Accounted (s : CommitState I R) (i : I) (inv : CommitInvocation R)
    (executed : List ArbitrationCandidate) : Prop where
  admitted : ∀ c ∈ executed, c ∈ s.coordination.history inv.request
  acting : ∀ c, s.acting i = some c → c ∈ s.coordination.history inv.request
  nothing_else : ∀ q, ∀ c ∈ s.coordination.history q,
    c.context.invocation_id = inv.prepared.context.invocation_id → c ∈ executed ∨ s.acting i = some c

/-- The arbitration is that of the invocation's proposals that passed validation. -/
def Planned (config : CommitConfig) (inv : CommitInvocation R) (arbitration : ArbitrationPlan) : Prop :=
  ∃ ps : List ActionProposal, ps.Sublist inv.prepared.response.proposals ∧
    arbitration = arbitrate config.policy config.catalog (ps.map fun p => (inv.prepared.context, p))

/-- The invocation has these results to hand back. -/
def Returns (s : ReportState I R) (i : I) (inv : CommitInvocation R) (results : List ActionResult) : Prop :=
  ∃ l, s.returned i = some l ∧ HandsBack inv.prepared l results

/-- What holds of an invocation in the loop. -/
structure InLoop (config : CommitConfig) (s : ReportState I R) (i : I) (inv : CommitInvocation R) (f : Finishing)
    (rest : List ArbitrationCandidate) : Prop where
  unreturned : s.returned i = none
  planned : Planned config inv f.arbitration
  report : LoopReport f.arbitration f.loop rest
  accounted : Accounted s.commit i inv f.loop.executed

/-- What holds at each stage. -/
def StageReport (config : CommitConfig) (s : ReportState I R) (i : I) (inv : CommitInvocation R) : CommitStage → Prop
  | .validating pass rest => s.returned i = none ∧ s.commit.acting i = none ∧ Accounted s.commit i inv [] ∧
      ∃ ps : List ActionProposal, pass.admitted = ps.map (fun p => (inv.prepared.context, p)) ∧
        (ps ++ rest).Sublist inv.prepared.response.proposals
  | .finishing f rest => s.commit.acting i = none ∧ InLoop config s i inv f rest
  | .admitting f c rest => (∀ d, s.commit.acting i = some d → d = c) ∧ InLoop config s i inv f (c :: rest)
  | .completing _ results | .applying _ results => s.commit.acting i = none ∧ Returns s i inv results
  | .leaving completion | .left completion => s.commit.acting i = none ∧
      ∀ results, completion.handed_back = some results → Returns s i inv results

/-- What an invocation that is behind its loops has to return. -/
structure ReturnedReport (config : CommitConfig) (s : ReportState I R) (i : I) (inv : CommitInvocation R)
    (l : FinishLoop) : Prop where
  ended : ∃ arbitration, Planned config inv arbitration ∧ LoopOver arbitration l
  accounted : Accounted s.commit i inv l.executed

/-- A candidate of the invocation. -/
def OwnCandidate (inv : CommitInvocation R) (c : ArbitrationCandidate) : Prop :=
  c.context = inv.prepared.context ∧ c.candidate_id = candidate_id inv.prepared.context c.proposal

/-- The invariant of the report system. -/
structure ReportInv (config : CommitConfig) (s : ReportState I R) : Prop where
  calls : ∀ i p inv, s.commit.coordination.participant i = some p → s.commit.invocation i = some inv →
    p.call.request = inv.request
  stages : ∀ i inv, s.commit.invocation i = some inv → StageReport config s i inv inv.stage
  returned : ∀ i l, s.returned i = some l → ∃ inv, s.commit.invocation i = some inv ∧
    ReturnedReport config s i inv l
  entered : ∀ q, ∀ c ∈ s.commit.coordination.history q, ∃ i inv, s.commit.invocation i = some inv ∧
    inv.request = q ∧ OwnCandidate inv c
  entered_once : ∀ q, DistinctIds (s.commit.coordination.history q)
  called : ∀ c ∈ s.called, ∃ q, c ∈ s.commit.coordination.history q
  collected : ∀ q, ∀ v ∈ s.invocations q, ∃ inv l, s.commit.invocation v.invocation = some inv ∧
    inv.request = q ∧ s.returned v.invocation = some l ∧ v.decisions = l.decisions ∧
    HandsBack inv.prepared l v.results
  collected_once : ∀ q, ((s.invocations q).map CoordinatedInvocation.invocation).Nodup

section

omit [DecidableEq I] [DecidableEq R]

theorem Planned.arbitrated {arbitration : ArbitrationPlan} (h : Planned config inv arbitration) :
    Arbitrated inv.prepared.context arbitration := by
  obtain ⟨ps, hps, rfl⟩ := h
  exact MininetAi.arbitrated _ _ _ (inv.prepared.response.proposal_ids_unique.sublist (hps.map _))

/-- The histories have grown by candidates of another invocation at most. -/
theorem Accounted.frame {s t : CommitState I R} {executed : List ArbitrationCandidate}
    (h : Accounted s i inv executed) (hacting : t.acting i = s.acting i)
    (hold : ∀ q, ∀ c ∈ s.coordination.history q, c ∈ t.coordination.history q)
    (hnew : ∀ q, ∀ c ∈ t.coordination.history q, c ∈ s.coordination.history q ∨
      c.context.invocation_id ≠ inv.prepared.context.invocation_id) : Accounted t i inv executed where
  admitted c hc := hold _ c (h.admitted c hc)
  acting c hc := hold _ c (h.acting c (hacting ▸ hc))
  nothing_else q c hc hid := by
    rw [hacting]
    exact h.nothing_else q c ((hnew q c hc).resolve_right fun hne => hne hid) hid

/-- The stage report survives what others do. -/
theorem StageReport.frame
    (h : StageReport config s i inv stage) (hacting : t.commit.acting i = s.commit.acting i)
    (hreturned : t.returned i = s.returned i)
    (haccounted : ∀ executed, Accounted s.commit i inv executed → Accounted t.commit i inv executed) :
    StageReport config t i inv stage := by
  have hreturns : ∀ results, Returns s i inv results → Returns t i inv results := fun results h => by
    rw [Returns, hreturned]; exact h
  have hloop : ∀ f rest, InLoop config s i inv f rest → InLoop config t i inv f rest := fun f rest h =>
    ⟨hreturned ▸ h.unreturned, h.planned, h.report, haccounted _ h.accounted⟩
  cases stage with
  | validating pass rest => exact ⟨hreturned ▸ h.1, hacting ▸ h.2.1, haccounted _ h.2.2.1, h.2.2.2⟩
  | finishing f rest => exact ⟨hacting ▸ h.1, hloop f rest h.2⟩
  | admitting f c rest => exact ⟨hacting ▸ h.1, hloop f (c :: rest) h.2⟩
  | completing f results => exact ⟨hacting ▸ h.1, hreturns results h.2⟩
  | applying f results => exact ⟨hacting ▸ h.1, hreturns results h.2⟩
  | leaving completion => exact ⟨hacting ▸ h.1, fun results hr => hreturns results (h.2 results hr)⟩
  | left completion => exact ⟨hacting ▸ h.1, fun results hr => hreturns results (h.2 results hr)⟩

/-- An invocation behind its loops has nothing in execution. -/
theorem ReportInv.returned_idle (h : ReportInv config s) {l : FinishLoop}
    (hl : s.returned i = some l) : s.commit.acting i = none := by
  obtain ⟨inv, hinv, -⟩ := h.returned i l hl
  have hstage := h.stages i inv hinv
  cases hat : inv.stage with
  | validating pass rest => rw [hat] at hstage; exact hstage.2.1
  | finishing f rest => rw [hat] at hstage; exact hstage.1
  | admitting f c rest =>
    rw [hat] at hstage
    rw [hstage.2.unreturned] at hl
    cases hl
  | completing f results => rw [hat] at hstage; exact hstage.1
  | applying f results => rw [hat] at hstage; exact hstage.1
  | leaving completion => rw [hat] at hstage; exact hstage.1
  | left completion => rw [hat] at hstage; exact hstage.1

end

/-! ## What a step leaves alone -/

/-- A step of invocation `i`, which is `inv` behind it, from `s` to `t`. -/
structure Advance (s t : ReportState I R) (i : I) (inv : CommitInvocation R) : Prop where
  own : t.commit.invocation i = some inv
  same : ∀ inv', s.commit.invocation i = some inv' → inv'.request = inv.request ∧ inv'.prepared = inv.prepared
  others : ∀ j, j ≠ i → t.commit.invocation j = s.commit.invocation j
  acting : ∀ j, j ≠ i → t.commit.acting j = s.commit.acting j
  returned : ∀ j, j ≠ i → t.returned j = s.returned j
  kept : ∀ l, s.returned i = some l → t.returned i = some l
  invocations : t.invocations = s.invocations
  history : ∀ q, ∀ c ∈ s.commit.coordination.history q, c ∈ t.commit.coordination.history q
  news : ∀ q, ∀ c ∈ t.commit.coordination.history q, c ∈ s.commit.coordination.history q ∨
    inv.request = q ∧ OwnCandidate inv c

omit [DecidableEq I] [DecidableEq R] in
/-- What another invocation is accounted for. -/
theorem Advance.accounted {s t : ReportState I R} {other : CommitInvocation R}
    (h : Advance s t i inv) (hids : InvocationIds t.commit) (hj : j ≠ i)
    (hother : s.commit.invocation j = some other) {executed : List ArbitrationCandidate}
    (haccounted : Accounted s.commit j other executed) : Accounted t.commit j other executed := by
  refine haccounted.frame (h.acting j hj) h.history fun q c hc => (h.news q c hc).imp_right fun hnew hid => ?_
  refine hj (hids.unique j i other inv ((h.others j hj).trans hother) h.own ?_)
  rw [← hid, hnew.2.1]

omit [DecidableEq R] in
/-- What is left to show of a step: its own invocation's stage, what it returns, and that
a new admission has a new id. -/
theorem ReportInv.advance {s t : ReportState I R} (h : ReportInv config s)
    (hids : InvocationIds t.commit) (hadvance : Advance s t i inv)
    (hcalls : ∀ j p inv, t.commit.coordination.participant j = some p → t.commit.invocation j = some inv →
      p.call.request = inv.request) (hstage : StageReport config t i inv inv.stage)
    (hreturned : ∀ l, t.returned i = some l → ReturnedReport config t i inv l)
    (honce : ∀ q, DistinctIds (t.commit.coordination.history q))
    (hcalled : ∀ c ∈ t.called, c ∈ s.called ∨ ∃ q, c ∈ s.commit.coordination.history q) :
    ReportInv config t where
  calls := hcalls
  stages j other hother := by
    by_cases hj : j = i
    · subst hj
      rw [hadvance.own] at hother
      obtain rfl := Option.some.inj hother
      exact hstage
    · have hold := (hadvance.others j hj).symm.trans hother
      exact (h.stages j other hold).frame (hadvance.acting j hj) (hadvance.returned j hj)
        fun executed ha => hadvance.accounted hids hj hold ha
  returned j l hl := by
    by_cases hj : j = i
    · subst hj
      exact ⟨inv, hadvance.own, hreturned l hl⟩
    · obtain ⟨other, hother, hreport⟩ := h.returned j l ((hadvance.returned j hj).symm.trans hl)
      exact ⟨other, (hadvance.others j hj).trans hother, hreport.ended,
        hadvance.accounted hids hj hother hreport.accounted⟩
  entered q c hc := by
    rcases hadvance.news q c hc with hold | ⟨hq, hown⟩
    · obtain ⟨j, other, hother, hq, hown⟩ := h.entered q c hold
      by_cases hj : j = i
      · subst hj
        obtain ⟨hrequest, hprepared⟩ := hadvance.same other hother
        refine ⟨j, inv, hadvance.own, hrequest ▸ hq, ?_⟩
        rw [OwnCandidate, ← hprepared]
        exact hown
      · exact ⟨j, other, (hadvance.others j hj).trans hother, hq, hown⟩
    · exact ⟨i, inv, hadvance.own, hq, hown⟩
  entered_once := honce
  called c hc := by
    rcases hcalled c hc with hold | ⟨q, hq⟩
    · obtain ⟨q, hq⟩ := h.called c hold
      exact ⟨q, hadvance.history q c hq⟩
    · exact ⟨q, hadvance.history q c hq⟩
  collected q v hv := by
    rw [hadvance.invocations] at hv
    obtain ⟨other, l, hother, hq, hl, hdecisions, hresults⟩ := h.collected q v hv
    by_cases hj : v.invocation = i
    · rw [hj] at hother hl ⊢
      obtain ⟨hrequest, hprepared⟩ := hadvance.same other hother
      exact ⟨inv, l, hadvance.own, hrequest ▸ hq, hadvance.kept l hl, hdecisions, hprepared ▸ hresults⟩
    · exact ⟨other, l, (hadvance.others _ hj).trans hother, hq, (hadvance.returned _ hj).trans hl, hdecisions,
        hresults⟩
  collected_once q := by
    rw [hadvance.invocations]
    exact h.collected_once q

/-! ## Steps that admit nothing -/

/-- The monitor has entered nothing; invocation `i`, of `request`, has nothing in execution
behind the step. -/
structure StillCoordination (s a : AdmissionState I R) (i : I) (request : R) : Prop where
  history : a.history = s.history
  others : ∀ j, j ≠ i → a.active_entries j = s.active_entries j
  own : a.active_entries i = none
  calls : ∀ j q, a.participant j = some q →
    (∃ p, s.participant j = some p ∧ p.call = q.call) ∨ j = i ∧ q.call.request = request

omit [DecidableEq I] [DecidableEq R] in
theorem StillCoordination.refl {s : AdmissionState I R} (hown : s.active_entries i = none)
    (request : R) : StillCoordination s s i request :=
  ⟨rfl, fun _ _ => rfl, hown, fun _ q hq => Or.inl ⟨q, hq, rfl⟩⟩

/-- A step of the monitor that is no `admit` is quiet. -/
theorem quiet_step {s a : AdmissionState I R} (hs : (admission_system policy).Reachable s)
    (ha : (admission_system policy).step s e = some a) {request : R} (hi : e.invocation = i)
    (hnot_admits : ∀ c, e ≠ .admit_enter i c)
    (hcall : ∀ call, e = .decision_enter i call → call.request = request) :
    StillCoordination s a i request := by
  have hstep := admission_step policy ha
  have hcalls : ∀ j q, a.participant j = some q →
      (∃ p, s.participant j = some p ∧ p.call = q.call) ∨ j = i ∧ q.call.request = request := by
    intro j q hq
    refine (hstep.call_kept hq).imp_right fun henter => ?_
    have hj : j = i := by rw [← hi, henter]; rfl
    exact ⟨hj, hcall q.call (hj ▸ henter)⟩
  cases hstep.enters (admission_inv hs) with
  | nothing hhistory hactive hown =>
    rw [hi] at hown
    exact ⟨hhistory, fun j _ => congrFun hactive j, hactive ▸ hown, hcalls⟩
  | @candidate k p c =>
    obtain rfl : k = i := hi
    exact absurd rfl (hnot_admits c)
  | @release k raised _ hhistory hactive =>
    obtain rfl : k = i := hi
    refine ⟨hhistory, fun j hj => ?_, ?_, hcalls⟩
    · rw [hactive, update_of_ne hj]
    · rw [hactive, update_self]

omit [DecidableEq R] in
/-- A quiet step: what is left to show is the stage it leads to. -/
theorem ReportInv.quiet {s : ReportState I R} {e : CommitEvent I R} {t : CommitState I R}
    {old : CommitInvocation R} (h : ReportInv config s) (hids : InvocationIds t)
    (hold : s.commit.invocation i = some old)
    (hinvocation : t.invocation = update s.commit.invocation i (some inv))
    (hrequest : old.request = inv.request) (hprepared : old.prepared = inv.prepared)
    (hquiet : StillCoordination s.commit.coordination t.coordination i inv.request)
    (hreturned : s.returned_after e = s.returned ∨ s.returned i = none ∧ ∃ l,
      s.returned_after e = update s.returned i (some l) ∧
        ReturnedReport config (s.committed e t) i inv l)
    (hcalled : ∀ c, s.commit.executor_call e = some c → ∃ q, c ∈ s.commit.coordination.history q)
    (hstage : StageReport config (s.committed e t) i inv inv.stage) :
    ReportInv config (s.committed e t) := by
  have hhistory : (s.committed e t).commit.coordination.history = s.commit.coordination.history := hquiet.history
  have hsame : ∀ inv', s.commit.invocation i = some inv' → inv'.request = inv.request ∧ inv'.prepared = inv.prepared := by
    intro inv' hinv'
    rw [hold] at hinv'
    rw [← Option.some.inj hinv']
    exact ⟨hrequest, hprepared⟩
  have hadvance : Advance s (s.committed e t) i inv := by
    refine ⟨?_, hsame, fun j hj => ?_, fun j hj => hquiet.others j hj, fun j hj => ?_, fun l hl => ?_, rfl, ?_, ?_⟩
    · rw [ReportState.committed, hinvocation, update_self]
    · rw [ReportState.committed, hinvocation, update_of_ne hj]
    · rcases hreturned with hkept | ⟨-, l, hnew, -⟩
      · exact congrFun hkept j
      · exact (congrFun hnew j).trans (update_of_ne hj _ _)
    · rcases hreturned with hkept | ⟨hnone, -⟩
      · exact (congrFun hkept i).trans hl
      · rw [hnone] at hl
        cases hl
    · rw [hhistory]
      exact fun q c hc => hc
    · rw [hhistory]
      exact fun q c hc => Or.inl hc
  refine h.advance hids hadvance ?_ hstage ?_ ?_ ?_
  · intro j q other hq hother
    rcases hquiet.calls j q hq with ⟨p, hp, hcall⟩ | ⟨rfl, hcall⟩
    · rw [← hcall]
      by_cases hj : j = i
      · subst hj
        rw [hadvance.own] at hother
        rw [← Option.some.inj hother, ← hrequest]
        exact h.calls j p old hp hold
      · exact h.calls j p other hp ((hadvance.others j hj).symm.trans hother)
    · rw [hadvance.own] at hother
      rw [← Option.some.inj hother]
      exact hcall
  · intro l hl
    rcases hreturned with hkept | ⟨-, l', hnew, hreport⟩
    · have hbefore : s.returned i = some l := (congrFun hkept i).symm.trans hl
      obtain ⟨inv', hinv', hover, haccounted⟩ := h.returned i l hbefore
      rw [hold] at hinv'
      obtain rfl := Option.some.inj hinv'
      -- nothing of it was in execution before, and nothing is now
      have hacting : t.acting i = s.commit.acting i := hquiet.own.trans (h.returned_idle hbefore).symm
      have hkeep : Accounted t i old l.executed := by
        refine haccounted.frame hacting ?_ ?_
        · exact hadvance.history
        · exact fun q c hc => Or.inl (hhistory ▸ hc)
      refine ⟨?_, ?_⟩
      · obtain ⟨arbitration, ⟨ps, hps, hplan⟩, hloop⟩ := hover
        rw [hprepared] at hps hplan
        exact ⟨arbitration, ⟨ps, hps, hplan⟩, hloop⟩
      · exact ⟨hrequest ▸ hkeep.admitted, hrequest ▸ hkeep.acting, hprepared ▸ hkeep.nothing_else⟩
    · have hself := congrFun hnew i
      rw [update_self] at hself
      rw [Option.some.inj (hl.symm.trans hself)]
      exact hreport
  · rw [hhistory]
    exact h.entered_once
  · intro c hc
    refine (mem_append.mp hc).imp_right fun hcall => ?_
    rw [mem_toList] at hcall
    exact hcalled c hcall

/-! ## The steps of one invocation -/

section

omit [DecidableEq I] [DecidableEq R]

/-- What is in execution has been entered. -/
theorem ReportInv.acting_entered (h : ReportInv config s)
    (hinv : s.commit.invocation i = some inv) (hc : s.commit.acting i = some c) :
    c ∈ s.commit.coordination.history inv.request := by
  have hstage := h.stages i inv hinv
  have hnone : s.commit.acting i ≠ none := by rw [hc]; exact some_ne_none c
  cases hat : inv.stage with
  | validating pass rest => rw [hat] at hstage; exact absurd hstage.2.1 hnone
  | finishing f rest => rw [hat] at hstage; exact absurd hstage.1 hnone
  | admitting f d rest => rw [hat] at hstage; exact hstage.2.accounted.acting c hc
  | completing f results => rw [hat] at hstage; exact absurd hstage.1 hnone
  | applying f results => rw [hat] at hstage; exact absurd hstage.1 hnone
  | leaving completion => rw [hat] at hstage; exact absurd hstage.1 hnone
  | left completion => rw [hat] at hstage; exact absurd hstage.1 hnone

theorem Accounted.same {s t : CommitState I R} {inv' : CommitInvocation R}
    {executed : List ArbitrationCandidate} (h : Accounted s i inv executed)
    (hrequest : inv'.request = inv.request) (hprepared : inv'.prepared = inv.prepared)
    (hacting : t.acting i = s.acting i)
    (hhistory : t.coordination.history = s.coordination.history) : Accounted t i inv' executed := by
  have hframe : Accounted t i inv executed :=
    h.frame hacting (fun _ _ hc => hhistory ▸ hc) fun _ _ hc => Or.inl (hhistory ▸ hc)
  exact ⟨hrequest ▸ hframe.admitted, hrequest ▸ hframe.acting, hprepared ▸ hframe.nothing_else⟩

/-- The loop of an invocation after a step that entered nothing. -/
theorem InLoop.next {f' : Finishing} {rest' : List ArbitrationCandidate}
    (h : InLoop config s i inv f rest) (hreturned : t.returned i = s.returned i)
    (hplan : f'.arbitration = f.arbitration) (hreport : LoopReport f.arbitration f'.loop rest')
    (haccounted : Accounted t.commit i inv f'.loop.executed) :
    InLoop config t i inv f' rest' where
  unreturned := hreturned.trans h.unreturned
  planned := hplan ▸ h.planned
  report := hplan ▸ hreport
  accounted := haccounted

variable {t : ReportState I R}

theorem InLoop.restage (h : InLoop config t i inv f rest) (x : CommitStage) :
    InLoop config t i { inv with stage := x } f rest :=
  ⟨h.unreturned, h.planned, h.report, h.accounted.same rfl rfl rfl rfl⟩

/-- The stage of an invocation is no part of what its report speaks about. -/
theorem StageReport.restage (h : StageReport config t i inv stage) (x : CommitStage) :
    StageReport config t i { inv with stage := x } stage := by
  cases stage with
  | validating pass rest => exact ⟨h.1, h.2.1, h.2.2.1.same rfl rfl rfl rfl, h.2.2.2⟩
  | finishing f rest => exact ⟨h.1, h.2.restage x⟩
  | admitting f c rest => exact ⟨h.1, h.2.restage x⟩
  | completing f results => exact h
  | applying f results => exact h
  | leaving completion => exact h
  | left completion => exact h

/-- One iteration up to `admit`. -/
theorem stage_report_candidate (h : InLoop config s i inv f (c :: rest))
    (hreturned : t.returned i = s.returned i) (hidle : t.commit.acting i = none)
    (haccounted : ∀ executed, Accounted s.commit i inv executed → Accounted t.commit i inv executed)
    (store : Entries) (engine : Option EngineRejection) (storage : Option SharedStateError) :
    StageReport config t i inv (candidate_stage config inv store f c rest engine storage) := by
  have harb := h.planned.arbitrated
  have hdown : ∀ {f' : Finishing}, f'.arbitration = f.arbitration → TurnedDown f.loop f'.loop c →
      InLoop config t i inv f' rest := by
    intro f' hplan hturned
    refine h.next hreturned hplan (h.report.turned_down harb hturned) ?_
    rw [hturned.executed]
    exact haccounted _ h.accounted
  unfold candidate_stage
  split
  · exact ⟨hidle, hdown rfl (turned_down_stop f.loop inv.prepared c)⟩
  · split
    · exact ⟨hidle, hdown rfl (turned_down_conflict f.loop inv.prepared c _)⟩
    · split
      · rename_i r hr
        exact ⟨hidle, hdown rfl (turned_down_invalid f.loop inv.prepared c (validate_not_succeeded hr))⟩
      · refine ⟨fun d hd => ?_, ?_⟩
        · rw [hidle] at hd
          cases hd
        · exact h.next hreturned rfl h.report (haccounted _ h.accounted)

/-- Behind the loops. -/
theorem stage_report_finish (hidle : t.commit.acting i = none)
    (hreturned : t.returned i = some (f.loop.drop_rejected inv.prepared f.arbitration)) :
    StageReport config t i inv (finish_stage inv f) := by
  have hraised : StageReport config t i inv (.leaving .raised) := ⟨hidle, fun results hr => by cases hr⟩
  unfold finish_stage
  simp only
  split
  · rename_i results hresults
    split
    · rename_i hrequests
      exact ⟨hidle, _, hreturned, hresults, hrequests⟩
    · exact hraised
  · exact hraised

/-- The version check hands on the results. -/
theorem stage_report_check {results : List ActionResult}
    (hidle : t.commit.acting i = none) (hreturns : Returns t i inv results) (store : Entries)
    (storage : Option SharedStateError) :
    StageReport config t i inv (check_stage config inv store f results storage) := by
  have hsame : ∀ rs, some results = some rs → Returns t i inv rs := fun rs hrs => Option.some.inj hrs ▸ hreturns
  unfold check_stage
  split
  · split
    · split
      · exact ⟨hidle, hsame⟩
      · exact ⟨hidle, hreturns⟩
    · exact ⟨hidle, hreturns⟩
  · exact ⟨hidle, hsame⟩

end

/-- An exception before the `admit` of a candidate, in it or behind it. -/
theorem raise_admitting {s t : CommitState I R} (hinv : s.invocation i = some inv)
    (hstage : inv.stage = .admitting f c rest)
    (h : (commit_system config).step s (.raise i) = some t)
    (hsame : t.coordination = s.coordination) : s.acting i = none := by
  cases hp : s.coordination.participant i with
  | none => rw [CommitState.acting, AdmissionState.active_entries, entries, hp, bind_none]
  | some p =>
    rw [CommitState.acting, active_entries_of_stage hp]
    cases hactive : p.active_entry with
    | none => rfl
    | some d =>
      -- in the body of an `admit` the exception takes the candidate out of execution
      exfalso
      have hat := stage_of_active_entry hactive
      have hexit : ∃ a, (admission_system config.policy).step s.coordination (.admit_exit i true) = some a ∧
          t = ({ s with coordination := a } : CommitState I R).goto i inv (.leaving .raised) := by
        simp only [commit_system, CommitEvent.invocation, hinv, commit_section, hstage,
          CommitState.admission_stage, hp, map_some, hat] at h
        obtain ⟨t', ht', rfl⟩ := map_eq_some_iff.mp h
        obtain ⟨a, ha, rfl⟩ := coordinate_eq_some ht'
        exact ⟨a, ha, rfl⟩
      obtain ⟨a, ha, rfl⟩ := hexit
      simp only [admission_system, admit_exit, hp, hat, Option.some.injEq] at ha
      have hgone : a.active_entries i = none := by
        rw [← ha, active_entries_notify, active_entries_move, update_self]
        rfl
      have hstill : a.active_entries i = some d := by
        have hcoordination : a = s.coordination := hsame
        rw [hcoordination, active_entries_of_stage hp, hactive]
      rw [hgone] at hstill
      cases hstill

/-- A step keeps what every invocation was prepared with. -/
theorem CommitStep.prepared_kept {s t : CommitState I R} {e : CommitEvent I R}
    (hs : CommitStep config s e t) (hj : s.invocation j = some inv) :
    ∃ inv', t.invocation j = some inv' ∧ inv'.prepared = inv.prepared := by
  have hgoto : ∀ {i : I} {old : CommitInvocation R} {stage : CommitStage}, s.invocation i = some old ∨ s.invocation i = none →
      ∃ inv', update s.invocation i (some { old with stage := stage }) j = some inv' ∧
        inv'.prepared = inv.prepared := by
    intro i old stage hold
    by_cases hji : j = i
    · subst hji
      rcases hold with hold | hnone
      · rw [hj] at hold
        exact ⟨_, update_self _ _ _, by rw [Option.some.inj hold]⟩
      · rw [hj] at hnone
        cases hnone
    · exact ⟨inv, by rw [update_of_ne hji, hj], rfl⟩
  cases hs with
  | prepare hnone => exact hgoto (Or.inr hnone)
  | validate hinv => exact hgoto (Or.inl hinv)
  | decide hinv => exact hgoto (Or.inl hinv)
  | recheck hinv => exact ⟨inv, hj, rfl⟩
  | candidate hinv => exact hgoto (Or.inl hinv)
  | admission hinv => exact ⟨inv, hj, rfl⟩
  | execute hinv => exact hgoto (Or.inl hinv)
  | lose hinv => exact hgoto (Or.inl hinv)
  | finish hinv => exact hgoto (Or.inl hinv)
  | check hinv => exact hgoto (Or.inl hinv)
  | apply_failed hinv => exact hgoto (Or.inl hinv)
  | apply_nothing hinv => exact hgoto (Or.inl hinv)
  | apply_commit hinv => exact hgoto (Or.inl hinv)
  | raise_early hinv => exact hgoto (Or.inl hinv)
  | raise_body hinv => exact hgoto (Or.inl hinv)
  | raise_admitted hinv => exact hgoto (Or.inl hinv)
  | leave hinv => exact hgoto (Or.inl hinv)

/-- Ids that are unique behind a step were so before it. -/
theorem InvocationIds.before {s t : CommitState I R} {e : CommitEvent I R} (h : InvocationIds t)
    (hs : CommitStep config s e t) : InvocationIds s where
  unique i j inv inv' hi hj hid := by
    obtain ⟨inv₁, h₁, hprepared₁⟩ := hs.prepared_kept hi
    obtain ⟨inv₂, h₂, hprepared₂⟩ := hs.prepared_kept hj
    exact h.unique i j inv₁ inv₂ h₁ h₂ (by rw [hprepared₁, hprepared₂, hid])
  plain i inv hi := by
    obtain ⟨inv', h', hprepared⟩ := hs.prepared_kept hi
    rw [← hprepared]
    exact h.plain i inv' h'

/-- A new invocation: no history holds anything of it. -/
theorem ReportInv.prepare {s : ReportState I R} {i : I} {inv : CommitInvocation R} {e : CommitEvent I R}
    (h : ReportInv config s) (hcommit : CommitInv config s.commit) (hnone : s.commit.invocation i = none)
    (hids : InvocationIds (s.commit.goto i inv (.validating {} inv.prepared.response.proposals)))
    (hreturned : s.returned_after e = s.returned) (hcall : s.commit.executor_call e = none) :
    ReportInv config (s.committed e (s.commit.goto i inv (.validating {} inv.prepared.response.proposals))) := by
  have hstranger : s.commit.coordination.participant i = none := hcommit.strangers i hnone
  have hidle : s.commit.acting i = none := by
    rw [CommitState.acting, AdmissionState.active_entries, entries, hstranger, bind_none]
  have hunreturned : s.returned i = none := by
    cases hl : s.returned i with
    | none => rfl
    | some l =>
      obtain ⟨inv', hinv', -⟩ := h.returned i l hl
      rw [hnone] at hinv'
      cases hinv'
  have hown : (s.commit.goto i inv (.validating {} inv.prepared.response.proposals)).invocation i
      = some { inv with stage := .validating {} inv.prepared.response.proposals } := update_self _ _ _
  have hothers : ∀ j, j ≠ i → (s.commit.goto i inv (.validating {} inv.prepared.response.proposals)).invocation j
      = s.commit.invocation j := fun j hj => update_of_ne hj _ _
  refine h.advance hids (i := i) ⟨hown, ?_, hothers, fun _ _ => rfl, fun j _ => congrFun hreturned j, ?_, rfl,
    fun _ _ hc => hc, fun _ _ hc => Or.inl hc⟩ ?_ ?_ ?_ h.entered_once ?_
  · intro inv' hinv'
    rw [hnone] at hinv'
    cases hinv'
  · intro l hl
    rw [hunreturned] at hl
    cases hl
  · intro j p other hp hother
    have hj : j ≠ i := by
      rintro rfl
      rw [ReportState.committed, CommitState.goto, hstranger] at hp
      cases hp
    exact h.calls j p other hp ((hothers j hj).symm.trans hother)
  · refine ⟨(congrFun hreturned i).trans hunreturned, hidle, ⟨fun c hc => absurd hc not_mem_nil, fun c hc => ?_,
      fun q c hc hid => ?_⟩, [], rfl, Sublist.refl _⟩
    · exact absurd (hidle.symm.trans hc) (by simp)
    · -- its id is that of an earlier invocation
      obtain ⟨j, other, hother, -, hcontext, -⟩ := h.entered q c hc
      have hj : j ≠ i := by
        rintro rfl
        rw [hnone] at hother
        cases hother
      refine absurd (hids.unique j i other _ ((hothers j hj).trans hother) hown ?_) hj
      rw [← hid, hcontext]
  · intro l hl
    rw [ReportState.committed, hreturned, hunreturned] at hl
    cases hl
  · intro c hc
    rw [ReportState.committed, hcall, mem_append] at hc
    exact hc.imp_right fun hnil => absurd hnil not_mem_nil

/-- A candidate is admitted: its id is new in the history of its request. -/
theorem ReportInv.admit {a : AdmissionState I R} (h : ReportInv config s)
    (hids : InvocationIds s.commit) (hinv : s.commit.invocation i = some inv)
    (hat : inv.stage = .admitting f c rest)
    (ha : (admission_system config.policy).step s.commit.coordination (.admit_enter i c) = some a)
    (hp : s.commit.coordination.participant i = some p) (hidle : s.commit.acting i = none)
    (hhistory : a.history = update s.commit.coordination.history p.call.request
      (s.commit.coordination.history p.call.request ++ [c]))
    (hactive : a.active_entries = update s.commit.coordination.active_entries i (some c)) :
    ReportInv config (s.committed (.admission i) { s.commit with coordination := a }) := by
  have hstage := h.stages i inv hinv
  rw [hat] at hstage
  obtain ⟨-, hloop⟩ := hstage
  rw [h.calls i p inv hp hinv] at hhistory
  have harb := hloop.planned.arbitrated
  have hordered : c ∈ f.arbitration.ordered := hloop.report.coming.subset mem_cons_self
  have hown : OwnCandidate inv c := harb.own c (harb.ordered.subset hordered)
  have hmem : ∀ q d, d ∈ a.history q ↔ d ∈ s.commit.coordination.history q ∨ q = inv.request ∧ d = c := by
    intro q d
    rw [hhistory]
    by_cases hq : q = inv.request
    · subst hq
      rw [update_self, mem_append, mem_singleton]
      simp only [true_and]
    · rw [update_of_ne hq]
      simp only [hq, false_and, or_false]
  have hothers : ∀ j, j ≠ i → a.active_entries j = s.commit.acting j := by
    intro j hj
    rw [hactive, update_of_ne hj]
    rfl
  have hself : a.active_entries i = some c := by rw [hactive, update_self]
  have hids' : InvocationIds { s.commit with coordination := a } := ⟨hids.unique, hids.plain⟩
  have hadvance : Advance s (s.committed (.admission i) { s.commit with coordination := a }) i inv := by
    refine ⟨hinv, ?_, fun _ _ => rfl, hothers, fun _ _ => rfl, fun _ hl => hl, rfl,
      fun q d hd => (hmem q d).mpr (Or.inl hd), fun q d hd => ?_⟩
    · intro inv' hinv'
      rw [hinv] at hinv'
      rw [Option.some.inj hinv']
      exact ⟨rfl, rfl⟩
    · refine ((hmem q d).mp hd).imp_right ?_
      rintro ⟨hq, rfl⟩
      exact ⟨hq.symm, hown⟩
  refine h.advance hids' hadvance ?_ ?_ ?_ ?_ ?_
  · intro j q other hq hother
    rcases (admission_step config.policy ha).call_kept hq with ⟨p', hp', hcall⟩ | henter
    · rw [← hcall]
      exact h.calls j p' other hp' hother
    · cases henter
  · rw [hat]
    refine ⟨fun d hd => ?_, hloop.unreturned, hloop.planned, hloop.report, ?_, ?_, ?_⟩
    · exact (Option.some.inj (hself.symm.trans hd)).symm
    · exact fun d hd => (hmem _ d).mpr (Or.inl (hloop.accounted.admitted d hd))
    · intro d hd
      rw [← Option.some.inj (hself.symm.trans hd)]
      exact (hmem _ c).mpr (Or.inr ⟨rfl, rfl⟩)
    · intro q d hd hid
      rcases (hmem q d).mp hd with hold | ⟨-, rfl⟩
      · left
        refine (hloop.accounted.nothing_else q d hold hid).resolve_right fun hacting => ?_
        rw [hidle] at hacting
        cases hacting
      · exact Or.inr hself
  · intro l hl
    have hbefore : s.returned i = some l := hl
    rw [hloop.unreturned] at hbefore
    cases hbefore
  · intro q
    rw [DistinctIds]
    show ((a.history q).map ArbitrationCandidate.candidate_id).Nodup
    rw [hhistory]
    by_cases hq : q = inv.request
    · subst hq
      rw [update_self, map_append, map_singleton]
      refine nodup_append.mpr ⟨h.entered_once _, nodup_singleton _, fun id hid id' hid' => ?_⟩
      obtain ⟨d, hd, rfl⟩ := mem_map.mp hid
      rw [mem_singleton.mp hid']
      intro heq
      -- an admitted candidate of the same id is one the loop has executed
      obtain ⟨j, other, hother, -, hdown⟩ := h.entered _ d hd
      have hparts := candidate_id_parts (hids.plain j other hother) (hids.plain i inv hinv)
        (hdown.2.symm.trans (heq.trans hown.2))
      have hexecuted : d ∈ f.loop.executed := by
        refine (hloop.accounted.nothing_else _ d hd (hdown.1 ▸ hparts.1)).resolve_right fun hacting => ?_
        rw [hidle] at hacting
        cases hacting
      have hdc : d = c := harb.ordered_ids.eq_of_id (hloop.report.executed d hexecuted) hordered heq
      exact hloop.report.fresh c mem_cons_self (hdc ▸ hexecuted)
    · rw [update_of_ne hq]
      exact h.entered_once q
  · intro d hd
    have hcall : s.commit.executor_call (.admission i) = none := rfl
    rw [ReportState.committed, hcall, mem_append] at hd
    exact hd.imp_right fun hnil => absurd hnil not_mem_nil

omit [DecidableEq I] [DecidableEq R] in
/-- What was in execution has been executed. -/
theorem Accounted.executed {s t : CommitState I R} {executed : List ArbitrationCandidate}
    (h : Accounted s i inv executed) (hacting : s.acting i = some c)
    (hquiet : StillCoordination s.coordination t.coordination i inv.request) :
    Accounted t i inv (executed ++ [c]) where
  admitted d hd := by
    rw [hquiet.history]
    rcases mem_append.mp hd with hold | hlast
    · exact h.admitted d hold
    · rw [mem_singleton.mp hlast]
      exact h.acting c hacting
  acting d hd := absurd (hquiet.own.symm.trans hd) (by simp)
  nothing_else q d hd hid := by
    rw [hquiet.history] at hd
    left
    rcases h.nothing_else q d hd hid with hold | hlast
    · exact mem_append_left _ hold
    · rw [hacting] at hlast
      rw [← Option.some.inj hlast]
      exact mem_append_right _ (mem_singleton_self c)

/-- An exception that the monitor does not see finds nothing in execution. -/
theorem ReportInv.raise_idle {t : CommitState I R} (h : ReportInv config s)
    (hinv : s.commit.invocation i = some inv)
    (hs : (commit_system config).step s.commit (.raise i) = some t)
    (hsame : t.coordination = s.commit.coordination) : s.commit.acting i = none := by
  have hstage := h.stages i inv hinv
  cases hat : inv.stage with
  | validating pass rest => rw [hat] at hstage; exact hstage.2.1
  | finishing f rest => rw [hat] at hstage; exact hstage.1
  | admitting f c rest => exact raise_admitting hinv hat hs hsame
  | completing f results => rw [hat] at hstage; exact hstage.1
  | applying f results => rw [hat] at hstage; exact hstage.1
  | leaving completion => rw [hat] at hstage; exact hstage.1
  | left completion => rw [hat] at hstage; exact hstage.1

/-- Every step of a commit keeps the invariant. -/
theorem ReportInv.commit_step {e : CommitEvent I R} {t : CommitState I R} (h : ReportInv config s)
    (hcommit : CommitInv config s.commit) (hids : InvocationIds t) (hs : (commit_system config).step s.commit e = some t) :
    ReportInv config (s.committed e t) := by
  have hstep := MininetAi.commit_step hs
  have hbefore := hids.before hstep
  have hreach := hcommit.coordination
  have hnocall : ∀ {e : CommitEvent I R} {o : Option ArbitrationCandidate}, s.commit.executor_call e = o → o = none →
      ∀ c, s.commit.executor_call e = some c → ∃ q, c ∈ s.commit.coordination.history q := by
    intro e o he ho c hc
    rw [he, ho] at hc
    cases hc
  have hcalled : ∀ {i : I} {inv : CommitInvocation R}, s.commit.invocation i = some inv → ∀ c,
      s.commit.acting i = some c → ∃ q, c ∈ s.commit.coordination.history q :=
    fun hinv c hc => ⟨_, h.acting_entered hinv hc⟩
  cases hstep with
  | @prepare i request agent invocation_id response hnone => exact h.prepare hcommit hnone hids rfl rfl
  | @validate i inv pass p rest engine storage hinv hat =>
    have hstage := h.stages i inv hinv
    rw [hat] at hstage
    obtain ⟨hunreturned, hidle, haccounted, ps, hadmitted, hps⟩ := hstage
    refine h.quiet hids hinv rfl rfl rfl (.refl hidle _) (Or.inl rfl) (hnocall rfl rfl)
      ⟨hunreturned, hidle, haccounted.same rfl rfl rfl rfl, ?_⟩
    unfold FirstPass.next
    split
    · refine ⟨ps ++ [p], ?_, ?_⟩
      · rw [map_append, ← hadmitted]
        rfl
      · rw [append_assoc]
        exact hps
    · exact ⟨ps, hadmitted, ((sublist_cons_self p rest).append_left ps).trans hps⟩
  | @decide i inv pass a hinv hat ha =>
    have hstage := h.stages i inv hinv
    rw [hat] at hstage
    obtain ⟨hunreturned, hidle, haccounted, ps, hadmitted, hps⟩ := hstage
    have hquiet : StillCoordination s.commit.coordination a i inv.request := by
      refine quiet_step hreach ha rfl (fun c hc => by cases hc) ?_
      intro call hcall
      cases hcall
      rfl
    have hacting : a.active_entries i = s.commit.acting i := hquiet.own.trans hidle.symm
    rw [append_nil] at hps
    have hplan : Planned config inv (arbitrate config.policy config.catalog pass.admitted) := by
      rw [hadmitted]
      exact ⟨ps, hps, rfl⟩
    exact h.quiet hids hinv rfl rfl rfl hquiet (Or.inl rfl) (hnocall rfl rfl)
      ⟨hquiet.own, hunreturned, hplan, loop_report_start hplan.arbitrated _ _,
        haccounted.same rfl rfl hacting hquiet.history⟩
  | @recheck i inv e a hinv he ha =>
    have hquiet : StillCoordination s.commit.coordination a i inv.request := by
      refine quiet_step hreach ha ?_ ?_ ?_
      · rcases he with rfl | rfl <;> rfl
      · rcases he with rfl | rfl <;> exact fun c hc => by cases hc
      · rcases he with rfl | rfl <;> exact fun call hc => by cases hc
    have hidle : s.commit.acting i = none := by
      rcases he with rfl | rfl
      · cases (admission_step config.policy ha).enters (admission_inv hreach) with
        | nothing _ _ hown => exact hown
      · cases (admission_step config.policy ha).enters (admission_inv hreach) with
        | nothing _ _ hown => exact hown
    have hacting : a.active_entries i = s.commit.acting i := hquiet.own.trans hidle.symm
    exact h.quiet hids hinv (by rw [← hinv, update_eq_self]) rfl rfl hquiet (Or.inl rfl) (hnocall rfl rfl)
      ((h.stages i inv hinv).frame hacting rfl fun _ ha => ha.same rfl rfl hacting hquiet.history)
  | @candidate i inv f c rest engine storage hinv hat hbody =>
    have hstage := h.stages i inv hinv
    rw [hat] at hstage
    obtain ⟨hidle, hloop⟩ := hstage
    refine h.quiet hids hinv rfl rfl rfl (.refl hidle _) (Or.inl rfl) (hnocall rfl rfl) ?_
    exact (stage_report_candidate (t := s.committed (.candidate i engine storage) (s.commit.goto i inv _)) hloop rfl hidle
      (fun _ ha => ha.same rfl rfl rfl rfl) s.commit.store engine storage).restage _
  | @admission i inv f c rest a hinv hat ha =>
    have hstage := h.stages i inv hinv
    have hcases := (admission_step config.policy ha).enters (admission_inv hreach)
    cases hcases with
    | nothing hhistory hactive hown =>
      have hquiet : StillCoordination s.commit.coordination a i inv.request := by
        refine ⟨hhistory, fun j _ => congrFun hactive j, (congrFun hactive i).trans hown, fun j q hq => ?_⟩
        rcases (admission_step config.policy ha).call_kept hq with hknown | henter
        · exact Or.inl hknown
        · cases henter
      have hacting : a.active_entries i = s.commit.acting i := hquiet.own.trans hown.symm
      exact h.quiet hids hinv (by rw [← hinv, update_eq_self]) rfl rfl hquiet (Or.inl rfl)
        (hnocall rfl rfl) (hstage.frame hacting rfl fun _ ha => ha.same rfl rfl hacting hquiet.history)
    | candidate hp hown hhistory hactive => exact h.admit hbefore hinv hat ha hp hown hhistory hactive
  | @execute i inv f c rest result a hinv hat hbody ha =>
    have hstage := h.stages i inv hinv
    rw [hat] at hstage
    obtain ⟨-, hloop⟩ := hstage
    have hquiet : StillCoordination s.commit.coordination a i inv.request :=
      quiet_step hreach ha rfl (fun c hc => by cases hc) fun call hc => by cases hc
    have hacting : s.commit.acting i = some c := by
      obtain ⟨p, hp, hp'⟩ := map_eq_some_iff.mp hbody
      rw [CommitState.acting, active_entries_of_stage hp, Participant.active_entry, hp']
    refine h.quiet hids hinv rfl rfl rfl hquiet (Or.inl rfl) (hcalled hinv) ⟨hquiet.own, InLoop.restage ?_ _⟩
    exact hloop.next rfl rfl (hloop.report.execute hloop.planned.arbitrated _ _)
      (hloop.accounted.executed hacting hquiet)
  | @lose i inv f c d winner rest a hinv hat hbody ha =>
    have hstage := h.stages i inv hinv
    rw [hat] at hstage
    obtain ⟨-, hloop⟩ := hstage
    have hquiet : StillCoordination s.commit.coordination a i inv.request :=
      quiet_step hreach ha rfl (fun c hc => by cases hc) fun call hc => by cases hc
    have hidle : s.commit.acting i = none := by
      obtain ⟨p, hp, hp'⟩ := map_eq_some_iff.mp hbody
      rw [CommitState.acting, active_entries_of_stage hp, Participant.active_entry, hp']
    have hacting : a.active_entries i = s.commit.acting i := hquiet.own.trans hidle.symm
    refine h.quiet hids hinv rfl rfl rfl hquiet (Or.inl rfl) (hnocall rfl rfl)
      ⟨hquiet.own, InLoop.restage ?_ _⟩
    exact hloop.next rfl rfl
      (hloop.report.turned_down hloop.planned.arbitrated (turned_down_conflict f.loop inv.prepared c winner))
      (hloop.accounted.same rfl rfl hacting hquiet.history)
  | @finish i inv f hinv hat hbody =>
    have hstage := h.stages i inv hinv
    rw [hat] at hstage
    obtain ⟨hidle, hloop⟩ := hstage
    have hreturned : s.returned_after (.finish i)
        = update s.returned i (some (f.loop.drop_rejected inv.prepared f.arbitration)) := by
      rw [ReportState.returned_after, hinv, bind_some, hat]
      rfl
    refine h.quiet hids hinv rfl rfl rfl (.refl hidle _) (Or.inr ⟨hloop.unreturned, _, hreturned, ?_, ?_⟩)
      (hnocall rfl rfl)
      ((stage_report_finish (t := s.committed (.finish i) (s.commit.goto i inv _)) hidle ?_).restage _)
    · exact ⟨f.arbitration, hloop.planned, hloop.report.ended hloop.planned.arbitrated inv.prepared⟩
    · exact hloop.accounted.same rfl rfl rfl rfl
    · exact (congrFun hreturned i).trans (update_self _ _ _)
  | @check i inv f results storage hinv hat =>
    have hstage := h.stages i inv hinv
    rw [hat] at hstage
    obtain ⟨hidle, hreturns⟩ := hstage
    refine h.quiet hids hinv rfl rfl rfl (.refl hidle _) (Or.inl rfl) (hnocall rfl rfl) ?_
    exact (stage_report_check (t := s.committed (.check i storage) (s.commit.goto i inv _)) hidle hreturns s.commit.store
      storage).restage _
  | @apply_failed i inv f results storage error hinv hat hfail =>
    have hstage := h.stages i inv hinv
    rw [hat] at hstage
    exact h.quiet hids hinv rfl rfl rfl (.refl hstage.1 _) (Or.inl rfl) (hnocall rfl rfl)
      ⟨hstage.1, fun rs hrs => Option.some.inj hrs ▸ hstage.2⟩
  | @apply_nothing i inv f results storage changes hinv hat =>
    have hstage := h.stages i inv hinv
    rw [hat] at hstage
    exact h.quiet hids hinv rfl rfl rfl (.refl hstage.1 _) (Or.inl rfl) (hnocall rfl rfl)
      ⟨hstage.1, fun rs hrs => Option.some.inj hrs ▸ hstage.2⟩
  | @apply_commit i inv f results storage store changes hinv hat happly =>
    have hstage := h.stages i inv hinv
    rw [hat] at hstage
    exact h.quiet hids hinv rfl rfl rfl (.refl hstage.1 _) (Or.inl rfl) (hnocall rfl rfl)
      ⟨hstage.1, fun rs hrs => Option.some.inj hrs ▸ hstage.2⟩
  | @raise_early i inv hinv =>
    have hidle := h.raise_idle hinv hs rfl
    exact h.quiet hids hinv rfl rfl rfl (.refl hidle _) (Or.inl rfl) (hcalled hinv)
      ⟨hidle, fun results hr => by cases hr⟩
  | @raise_body i inv hinv =>
    have hidle := h.raise_idle hinv hs rfl
    exact h.quiet hids hinv rfl rfl rfl (.refl hidle _) (Or.inl rfl) (hcalled hinv)
      ⟨hidle, fun results hr => by cases hr⟩
  | @raise_admitted i inv a hinv ha =>
    have hquiet : StillCoordination s.commit.coordination a i inv.request :=
      quiet_step hreach ha rfl (fun c hc => by cases hc) fun call hc => by cases hc
    exact h.quiet hids hinv rfl rfl rfl hquiet (Or.inl rfl) (hcalled hinv)
      ⟨hquiet.own, fun results hr => by cases hr⟩
  | @leave i inv completion raised a hinv hat ha =>
    have hstage := h.stages i inv hinv
    rw [hat] at hstage
    have hquiet : StillCoordination s.commit.coordination a i inv.request :=
      quiet_step hreach ha rfl (fun c hc => by cases hc) fun call hc => by cases hc
    exact h.quiet hids hinv rfl rfl rfl hquiet (Or.inl rfl) (hnocall rfl rfl) ⟨hquiet.own, hstage.2⟩

/-! ## Every run -/

/-- The coordinator takes a result: nothing else changes. -/
theorem ReportInv.collect (h : ReportInv config s)
    (hs : s.collect i = some t) : ReportInv config t := by
  obtain ⟨inv, hinv, hs⟩ := bind_eq_some_iff.mp hs
  obtain ⟨results, houtcome, hs⟩ := bind_eq_some_iff.mp hs
  obtain ⟨l, hl, hs⟩ := bind_eq_some_iff.mp hs
  split at hs
  · rename_i hnew
    have hreturns : Returns s i inv results := by
      have hstage := h.stages i inv hinv
      cases hat : inv.stage with
      | left completion =>
        rw [hat] at hstage houtcome
        exact hstage.2 results houtcome
      | _ => rw [hat] at houtcome; cases houtcome
    have hback : HandsBack inv.prepared l results := by
      obtain ⟨l', hl', hback⟩ := hreturns
      rw [hl] at hl'
      exact Option.some.inj hl' ▸ hback
    rw [← Option.some.inj hs]
    refine ⟨h.calls, fun j other hother => ?_, fun j loop hloop => ?_, h.entered, h.entered_once, h.called,
      fun q v hv => ?_, fun q => ?_⟩
    · exact (h.stages j other hother).frame rfl rfl fun _ ha => ha
    · obtain ⟨other, hother, hreport⟩ := h.returned j loop hloop
      exact ⟨other, hother, hreport.ended, hreport.accounted⟩
    · by_cases hq : q = inv.request
      · subst hq
        simp only [update_self] at hv
        rcases mem_append.mp hv with hold | hlast
        · exact h.collected _ v hold
        · rw [mem_singleton.mp hlast]
          exact ⟨inv, l, hinv, rfl, hl, rfl, hback⟩
      · simp only [update_of_ne hq] at hv
        exact h.collected q v hv
    · by_cases hq : q = inv.request
      · subst hq
        simp only [update_self, map_append, map_cons, map_nil]
        refine nodup_append.mpr ⟨h.collected_once _, nodup_singleton i, fun j hj k hk => ?_⟩
        obtain ⟨v, hv, rfl⟩ := mem_map.mp hj
        rw [mem_singleton.mp hk]
        exact hnew v hv
      · simp only [update_of_ne hq]
        exact h.collected_once q
  · cases hs

/-- As long as the invocation ids are unique and plain. -/
theorem report_inv (h : (report_system config).Reachable s) :
    InvocationIds s.commit → ReportInv config s := by
  refine h.invariant (P := fun s => InvocationIds s.commit → ReportInv config s) ?_ ?_
  · rintro s ⟨entries, rfl⟩ -
    refine ⟨fun _ _ _ hp => (by cases hp), fun _ _ hinv => (by cases hinv), fun _ _ hl => (by cases hl),
      fun _ _ hc => absurd hc not_mem_nil, fun _ => nodup_nil, fun _ hc => absurd hc not_mem_nil,
      fun _ _ hv => absurd hv not_mem_nil, fun _ => nodup_nil⟩
  · intro s e t hreach ih hs hids
    cases e with
    | commit e =>
      obtain ⟨u, hu, rfl⟩ := map_eq_some_iff.mp hs
      have hcommit := commit_inv (report_commit hreach)
      exact (ih (hids.before (MininetAi.commit_step hu))).commit_step hcommit hids hu
    | collect i =>
      have hsame : t.commit = s.commit := by
        obtain ⟨inv, -, hs⟩ := bind_eq_some_iff.mp hs
        obtain ⟨results, -, hs⟩ := bind_eq_some_iff.mp hs
        obtain ⟨l, -, hs⟩ := bind_eq_some_iff.mp hs
        split at hs
        · rw [← Option.some.inj hs]
        · cases hs
      exact (ih (hsame ▸ hids)).collect hs

end Steps

end MininetAi
