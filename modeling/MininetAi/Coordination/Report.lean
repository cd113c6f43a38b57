/-
The report of a coordinated request (`CoordinationRuntime._finish_prepared` and
`_coordinate` in `mininet_ai/coordination/routing.py`).

What a report says is collected in three places. The arbiter makes one decision for
each candidate of an invocation; the loop of `_finish_prepared` marks those that are not
executed; and `_coordinate` puts the decisions of all invocations of the request in one
list, numbers them, and gives those that still say `execute` their position in the list
`history` in which every admission of the request is entered.

The system here is that of `MininetAi.Coordination.CommitSystem` with the coordinator
beside it: an invocation whose commit has returned is collected once, in any order, and
one that raised never. What an invoker of another identity returned is not collected
either. `returned` is what `_finish_prepared` has to return, and `called` the candidates
the executor has been called for.
-/
import MininetAi.Coordination.CommitSafety

set_option autoImplicit false

namespace MininetAi

open List

variable {I R : Type}

/-! ## The system -/

/-- What a commit hands back: the results of the proposals, unless it raised. -/
def Completion.handed_back : Completion → Option (List ActionResult)
  | .unsuccessful results | .state_failed results _ | .committed results _ => some results
  | .raised => none

/-- What the future of an invocation holds. -/
def CommitStage.outcome : CommitStage → Option (List ActionResult)
  | .left completion => completion.handed_back
  | _ => none

/-- The variables of `_finish_prepared` behind its loops. -/
def CommitStage.finished_loop (prepared : PreparedAgentInvocation) : CommitStage → Option FinishLoop
  | .finishing f _ => some (f.loop.drop_rejected prepared f.arbitration)
  | _ => none

/-- What the invocations have in execution. -/
def AdmissionState.active_entries (s : AdmissionState I R) : I → Option ArbitrationCandidate :=
  entries Participant.active_entry s.participant

/-- The candidate an invocation has in execution. -/
def CommitState.acting (s : CommitState I R) : I → Option ArbitrationCandidate := s.coordination.active_entries

/-- The candidate an invocation calls the executor for: whoever is in the body of an
`admit` that admitted its candidate does so before leaving it, and the call may raise. -/
def CommitState.executor_call (s : CommitState I R) : CommitEvent I R → Option ArbitrationCandidate
  | .execute i _ | .raise i => s.acting i
  | _ => none

/-- One `CoordinatedInvocation`, with the decisions of its report. -/
structure CoordinatedInvocation (I : Type) where
  invocation : I
  results : List ActionResult
  decisions : List ArbitrationDecision

/-- The commits and the coordinators of their requests. -/
structure ReportState (I R : Type) where
  commit : CommitState I R
  returned : I → Option FinishLoop := fun _ => none
  called : List ArbitrationCandidate := []
  invocations : R → List (CoordinatedInvocation I) := fun _ => []

/-- The steps: one of a commit, or `future.result()` of an invocation. -/
inductive ReportEvent (I R : Type) where
  | commit (e : CommitEvent I R)
  | collect (i : I)

/-- `decisions` of the returned report: the sequence of a decision is its place among
all of them, its commit order that of its candidate in the history. -/
def numbered (history : List ArbitrationCandidate) (entry : ArbitrationDecision × ℕ) : ArbitrationDecision :=
  { entry.1 with
    admission_sequence := entry.2
    commit_order :=
      if entry.1.disposition = .execute then
        history.findIdx? fun c => c.candidate_id = entry.1.candidate_id
      else none }

/-- The decisions of a request as they come in. -/
def ReportState.collected (s : ReportState I R) (q : R) : List ArbitrationDecision :=
  (s.invocations q).flatMap CoordinatedInvocation.decisions

/-- `CoordinationOutcome.arbitration` of a request. -/
def ReportState.report (policy : ArbitrationPolicy) (s : ReportState I R) (q : R) : ArbitrationReport where
  policy := policy
  decisions := (s.collected q).zipIdx.map (numbered (s.commit.coordination.history q))

section Steps

variable [DecidableEq I] [DecidableEq R] (config : CommitConfig)

/-- The loop an invocation leaves is what it has to return. -/
def ReportState.returned_after (s : ReportState I R) : CommitEvent I R → I → Option FinishLoop
  | .finish i => Function.update s.returned i
      ((s.commit.invocation i).bind fun inv => inv.stage.finished_loop inv.prepared)
  | _ => s.returned

/-- A step of a commit beside the coordinators. -/
def ReportState.committed (s : ReportState I R) (e : CommitEvent I R) (t : CommitState I R) : ReportState I R :=
  { s with
    commit := t
    returned := s.returned_after e
    called := s.called ++ (s.commit.executor_call e).toList }

/-- The coordinator takes the result of an invocation. -/
def ReportState.collect (s : ReportState I R) (i : I) : Option (ReportState I R) :=
  (s.commit.invocation i).bind fun inv => inv.stage.outcome.bind fun results =>
    (s.returned i).bind fun loop =>
      if ∀ v ∈ s.invocations inv.request, v.invocation ≠ i then
        some { s with
          invocations := Function.update s.invocations inv.request
            (s.invocations inv.request ++
              [{ invocation := i, results := results, decisions := loop.decisions }]) }
      else none

/-- The commits of one coordination runtime and its coordinators. -/
def report_system : System (ReportState I R) (ReportEvent I R) where
  init s := ∃ entries, s = { commit := { initial := entries } }
  step s
    | .commit e => ((commit_system config).step s.commit e).map fun t => s.committed e t
    | .collect i => s.collect i

variable {config}

/-- The commits inside are those of the commit system. -/
theorem report_commit {s : ReportState I R} (h : (report_system config).Reachable s) :
    (commit_system config).Reachable s.commit := by
  have hrefines : (report_system (I := I) (R := R) config).Refines (commit_system config) ReportState.commit
      fun _ => True := by
    refine ⟨fun s hs => ?_, fun s e s' _ hs => ?_⟩
    · obtain ⟨entries, rfl⟩ := hs
      exact ⟨entries, rfl⟩
    · cases e with
      | commit e =>
        obtain ⟨t, ht, rfl⟩ := Option.map_eq_some_iff.mp hs
        exact Or.inr ⟨e, ht⟩
      | collect i =>
        left
        obtain ⟨inv, -, hs⟩ := Option.bind_eq_some_iff.mp hs
        obtain ⟨results, -, hs⟩ := Option.bind_eq_some_iff.mp hs
        obtain ⟨loop, -, hs⟩ := Option.bind_eq_some_iff.mp hs
        split at hs
        · rw [← Option.some.inj hs]
        · cases hs
  exact hrefines.reachable (fun _ _ => trivial) h

end Steps

/-! ## The arbiter's decisions -/

/-- The decision is about the candidate. -/
structure ArbitrationDecision.Describes (d : ArbitrationDecision) (c : ArbitrationCandidate) : Prop where
  candidate_id : d.candidate_id = c.candidate_id
  invocation_id : d.invocation_id = c.context.invocation_id
  agent_id : d.agent_id = c.context.agent_id
  proposal_id : d.proposal_id = c.proposal.id
  target : d.target = c.proposal.target
  effects : d.effects = c.effects
  conflict_keys : d.conflict_keys = c.conflict_keys
  priority : d.priority = c.context.priority

theorem describes_decision (c : ArbitrationCandidate) (disposition : Disposition) (order : Option ℕ)
    (winner : Option String) : (arbitration_decision c disposition order winner).Describes c :=
  ⟨rfl, rfl, rfl, rfl, rfl, rfl, rfl, rfl⟩

/-- Candidates of distinct ids. -/
def DistinctIds (cs : List ArbitrationCandidate) : Prop := (cs.map ArbitrationCandidate.candidate_id).Nodup

variable {cs : List ArbitrationCandidate} {c : ArbitrationCandidate}
  {decisions : List ArbitrationDecision} {kept kept' : ArbitrationCandidate → Prop}

theorem DistinctIds.eq_of_id (h : DistinctIds cs) {d : ArbitrationCandidate} (hc : c ∈ cs)
    (hd : d ∈ cs) (hid : c.candidate_id = d.candidate_id) : c = d :=
  inj_on_of_nodup_map h hc hd hid

/-- One decision for each candidate, in their order; `execute` for those in `kept`. -/
structure DecidesFor (cs : List ArbitrationCandidate) (decisions : List ArbitrationDecision)
    (kept : ArbitrationCandidate → Prop) : Prop where
  ids : decisions.map ArbitrationDecision.candidate_id = cs.map ArbitrationCandidate.candidate_id
  decided : ∀ d ∈ decisions, ∃ c ∈ cs, d.Describes c ∧ (d.disposition = .execute ↔ kept c)

/-- Which decisions say `execute` depends on the candidates alone. -/
theorem DecidesFor.congr (h : DecidesFor cs decisions kept) (hkept : ∀ c ∈ cs, kept c ↔ kept' c) :
    DecidesFor cs decisions kept' where
  ids := h.ids
  decided d hd := by
    obtain ⟨c, hc, hdescribes, hexecute⟩ := h.decided d hd
    exact ⟨c, hc, hdescribes, hexecute.trans (hkept c hc)⟩

/-- One more candidate and its decision. -/
theorem DecidesFor.append (h : DecidesFor cs decisions kept) {d : ArbitrationDecision}
    (hkept : ∀ c ∈ cs, kept c ↔ kept' c) (hd : d.Describes c)
    (hexecute : d.disposition = .execute ↔ kept' c) :
    DecidesFor (cs ++ [c]) (decisions ++ [d]) kept' where
  ids := by rw [map_append, map_append, h.ids, map_singleton, map_singleton, hd.candidate_id]
  decided e he := by
    rcases mem_append.mp he with hold | hnew
    · obtain ⟨a, ha, hdescribes, hiff⟩ := h.decided e hold
      exact ⟨a, mem_append_left _ ha, hdescribes, hiff.trans (hkept a ha)⟩
    · rw [mem_singleton.mp hnew]
      exact ⟨c, mem_append_right _ (mem_singleton_self c), hd, hexecute⟩

/-- The decision of one candidate is turned to `reject`. -/
theorem DecidesFor.mark (h : DecidesFor cs decisions kept) (hids : DistinctIds cs) (hc : c ∈ cs)
    (hout : ¬ kept' c) (hkept : ∀ a ∈ cs, a ≠ c → (kept a ↔ kept' a)) (winner : Option String) :
    DecidesFor cs (mark_rejected decisions c.candidate_id winner) kept' where
  ids := by
    rw [← h.ids, mark_rejected, map_map]
    refine map_congr_left fun d _ => ?_
    simp only [Function.comp_apply]
    split <;> rfl
  decided e he := by
    obtain ⟨d, hd, rfl⟩ := mem_map.mp he
    obtain ⟨a, ha, hdescribes, hiff⟩ := h.decided d hd
    by_cases hid : d.candidate_id = c.candidate_id
    · -- distinct ids: the decision is that of `c`
      have hac : a = c := hids.eq_of_id ha hc (hdescribes.candidate_id.symm.trans hid)
      rw [if_pos hid]
      refine ⟨a, ha, ?_, ?_⟩
      · exact ⟨hdescribes.1, hdescribes.2, hdescribes.3, hdescribes.4, hdescribes.5, hdescribes.6, hdescribes.7,
          hdescribes.8⟩
      · exact iff_of_false nofun (hac ▸ hout)
    · rw [if_neg hid]
      refine ⟨a, ha, hdescribes, hiff.trans (hkept a ha ?_)⟩
      rintro rfl
      exact hid hdescribes.candidate_id

/-! ## One arbitration -/

/-- What an arbitration leaves to the loop: the candidates of an invocation, those it
lets through, and the ids of the others. -/
structure Arbitrated (context : AgentContext) (arbitration : ArbitrationPlan) : Prop where
  distinct : DistinctIds arbitration.candidates
  own : ∀ c ∈ arbitration.candidates, c.context = context ∧ c.candidate_id = candidate_id context c.proposal
  ordered : arbitration.ordered.Sublist arbitration.candidates
  dropped : ∀ c ∈ arbitration.candidates, c.candidate_id ∈ arbitration.rejected ↔ c ∉ arbitration.ordered
  decides : DecidesFor arbitration.candidates arbitration.report.decisions fun c => c ∈ arbitration.ordered

/-- The loop of `_reject_conflicts` behind the candidates `seen`. -/
structure RejectLoopInv (seen : List ArbitrationCandidate) (l : RejectLoop) : Prop where
  winners : l.winners.Sublist seen
  rejected : ∀ c ∈ seen, c.candidate_id ∈ l.rejected ↔ c ∉ l.winners
  known : ∀ id ∈ l.rejected, id ∈ seen.map ArbitrationCandidate.candidate_id
  decides : DecidesFor seen l.decisions fun c => c ∈ l.winners

theorem RejectLoopInv.next {seen : List ArbitrationCandidate} {l : RejectLoop}
    (h : RejectLoopInv seen l) (hids : DistinctIds (seen ++ [c])) :
    RejectLoopInv (seen ++ [c]) (l.next c) := by
  have hfresh : c.candidate_id ∉ seen.map ArbitrationCandidate.candidate_id := by
    rw [DistinctIds, map_append, map_singleton] at hids
    exact fun hmem => (nodup_append.mp hids).2.2 _ hmem _ (mem_singleton_self _) rfl
  have hne : ∀ a ∈ seen, a ≠ c := by
    rintro a ha rfl
    exact hfresh (mem_map_of_mem ha)
  have hout : c ∉ l.winners := fun hmem => hne c (h.winners.subset hmem) rfl
  have hnew : c.candidate_id ∉ l.rejected := fun hmem => hfresh (h.known _ hmem)
  unfold RejectLoop.next
  split
  · refine ⟨h.winners.trans (sublist_append_left _ _), fun a ha => ?_, fun id hid => ?_, ?_⟩
    · rw [mem_append, mem_singleton]
      rcases mem_append.mp ha with hold | hlast
      · have hid : a.candidate_id ≠ c.candidate_id := fun heq => hfresh (heq ▸ mem_map_of_mem hold)
        simp only [hid, or_false]
        exact h.rejected a hold
      · rw [mem_singleton.mp hlast]
        exact iff_of_true (Or.inr rfl) hout
    · rw [map_append]
      rcases mem_append.mp hid with hold | hlast
      · exact mem_append_left _ (h.known id hold)
      · exact mem_append_right _ hlast
    · refine h.decides.append (fun _ _ => Iff.rfl) (describes_decision c _ _ _) ?_
      exact iff_of_false nofun hout
  · refine ⟨h.winners.append (Sublist.refl _), fun a ha => ?_, fun id hid => ?_, ?_⟩
    · rw [mem_append, mem_singleton]
      rcases mem_append.mp ha with hold | hlast
      · simp only [hne a hold, or_false]
        exact h.rejected a hold
      · rw [mem_singleton.mp hlast]
        exact iff_of_false hnew fun hno => hno (Or.inr rfl)
    · rw [map_append]
      exact mem_append_left _ (h.known id hid)
    · refine h.decides.append (fun a ha => ?_) (describes_decision c _ _ _) ?_
      · rw [mem_append, mem_singleton]
        simp only [hne a ha, or_false]
      · exact iff_of_true rfl (mem_append_right _ (mem_singleton_self c))

/-- The whole loop. The induction is on the candidates still to come. -/
theorem RejectLoopInv.foldl {seen : List ArbitrationCandidate} {l : RejectLoop} (h : RejectLoopInv seen l)
    (cs : List ArbitrationCandidate) (hids : DistinctIds (seen ++ cs)) :
    RejectLoopInv (seen ++ cs) (cs.foldl RejectLoop.next l) := by
  induction cs generalizing seen l with
  | nil => rw [append_nil]; exact h
  | cons c cs ih =>
    rw [append_cons] at hids ⊢
    have hfirst : DistinctIds (seen ++ [c]) := by
      rw [DistinctIds, map_append] at hids
      exact (nodup_append.mp hids).1
    exact ih (h.next hfirst) hids

/-- The proposals of an invocation that pass the first validation are arbitrated. -/
theorem arbitrated (policy : ArbitrationPolicy) (catalog : ExecutionCatalog) (context : AgentContext)
    {proposals : List ActionProposal} (h : (proposals.map ActionProposal.id).Nodup) :
    Arbitrated context (arbitrate policy catalog (proposals.map fun p => (context, p))) := by
  have hids : DistinctIds (context_candidates catalog context proposals) := context_candidates_ids catalog context h
  have hown : ∀ c ∈ context_candidates catalog context proposals,
      c.context = context ∧ c.candidate_id = candidate_id context c.proposal := by
    intro c hc
    rw [context_candidates_eq] at hc
    obtain ⟨⟨p, n⟩, -, rfl⟩ := mem_map.mp hc
    exact ⟨rfl, rfl⟩
  have hcandidates : (arbitrate policy catalog (proposals.map fun p => (context, p))).candidates
      = context_candidates catalog context proposals := by
    unfold arbitrate
    split <;> rfl
  by_cases hpol : policy = .reject
  · have hloop := @RejectLoopInv.foldl [] {}
      ⟨Sublist.refl _, fun c hc => absurd hc not_mem_nil, fun id hid => absurd hid not_mem_nil,
        ⟨rfl, fun d hd => absurd hd not_mem_nil⟩⟩ (context_candidates catalog context proposals) hids
    rw [nil_append] at hloop
    subst hpol
    exact ⟨hids, hown, hloop.winners, hloop.rejected, hloop.decides⟩
  · have hordered : (arbitrate policy catalog (proposals.map fun p => (context, p))).ordered
        = context_candidates catalog context proposals := by
      rw [arbitrate_ordered, if_neg hpol]
    refine ⟨hcandidates ▸ hids, hcandidates ▸ hown, ?_, ?_, ?_⟩
    · rw [hordered, hcandidates]
    · intro c hc
      rw [hcandidates] at hc
      rw [hordered]
      unfold arbitrate
      simp only [if_neg hpol]
      exact iff_of_false not_mem_nil (not_not_intro hc)
    · rw [hordered]
      unfold arbitrate
      simp only [if_neg hpol]
      refine ⟨by rw [map_map]; rfl, fun d hd => ?_⟩
      obtain ⟨c, hc, rfl⟩ := mem_map.mp hd
      exact ⟨c, hc, describes_decision c _ _ _, iff_of_true rfl hc⟩

end MininetAi
