/-
What each policy makes of a list of candidates (`ConflictArbitrator.arbitrate`).

Under `reject` the choice is greedy: a candidate is executed exactly when no executed one
before it conflicts with it, and the decision of every other one names such a winner.
`serialize` keeps the order of the proposals and `priority` sorts by descending priority,
proposals of one priority in their order. The candidates may belong to many invocations;
only their ids have to be distinct.
-/
import MininetAi.Coordination.Report

set_option autoImplicit false

universe u

/-- Sorting leaves the order of those elements alone that stand in order already. -/
theorem List.filter_insertionSort {α : Type u} (r : α → α → Prop) [DecidableRel r] [Std.Total r] [IsTrans α r]
    (p : α → Bool) {l : List α} (h : (l.filter p).Pairwise r) : (l.insertionSort r).filter p = l.filter p := by
  have hsublist : (l.filter p).Sublist ((l.insertionSort r).filter p) := by
    have hkept := (sublist_insertionSort h filter_sublist).filter p
    simpa only [filter_filter, Bool.and_self] using hkept
  have hlength : (l.filter p).length = ((l.insertionSort r).filter p).length :=
    ((perm_insertionSort r l).filter p).length_eq.symm
  exact (hsublist.eq_of_length hlength).symm

namespace MininetAi

open List

/-! ## Laws -/

/-- Every decision to execute says at which place of the order. -/
def InCommitOrder (ordered : List ArbitrationCandidate) (decisions : List ArbitrationDecision) : Prop :=
  ∀ d ∈ decisions, d.disposition = .execute →
    ∃ k c, d.commit_order = some k ∧ ordered[k]? = some c ∧ c.candidate_id = d.candidate_id

/-- What `reject` makes of the candidates; `[w, c]` is a sublist when `w` stands before `c`. -/
structure RejectLaws (candidates : List ArbitrationCandidate) (plan : ArbitrationPlan) : Prop where
  in_order : plan.ordered.Sublist candidates
  decides : DecidesFor candidates plan.report.decisions fun c => c ∈ plan.ordered
  placed : InCommitOrder plan.ordered plan.report.decisions
  rejected : ∀ c ∈ candidates, c.candidate_id ∈ plan.rejected ↔ c ∉ plan.ordered
  apart : plan.ordered.Pairwise fun a b => conflicts a b = false
  named : ∀ c ∈ candidates, c ∉ plan.ordered → ∃ w ∈ plan.ordered, [w, c].Sublist candidates ∧
    conflicts w c = true ∧ ∃ d ∈ plan.report.decisions, d.candidate_id = c.candidate_id ∧
      d.disposition = .reject ∧ d.winner_candidate_id = some w.candidate_id
  greedy : ∀ c ∈ candidates, c ∈ plan.ordered ↔
    ∀ w ∈ plan.ordered, [w, c].Sublist candidates → conflicts w c = false

/-- What the other policies make of the candidates: all of them are executed. -/
structure ExecutesAll (candidates : List ArbitrationCandidate) (plan : ArbitrationPlan) : Prop where
  permutes : plan.ordered.Perm candidates
  rejected : plan.rejected = []
  decides : DecidesFor candidates plan.report.decisions fun c => c ∈ plan.ordered
  placed : InCommitOrder plan.ordered plan.report.decisions

/-- The order of `priority`. -/
structure PriorityLaws (candidates ordered : List ArbitrationCandidate) : Prop where
  descending : ordered.Pairwise fun a b => b.context.priority ≤ a.context.priority
  stable : ∀ p, (ordered.filter fun c => c.context.priority = p) = candidates.filter fun c => c.context.priority = p

/-! ## Reject -/

/-- The decisions of the loop of `_reject_conflicts` behind the candidates `seen`. -/
structure RejectLoopNames (seen : List ArbitrationCandidate) (l : RejectLoop) : Prop where
  placed : InCommitOrder l.winners l.decisions
  named : ∀ d ∈ l.decisions, d.disposition = .reject → ∃ c ∈ seen, ∃ w ∈ l.winners, d.candidate_id = c.candidate_id ∧
    [w, c].Sublist seen ∧ conflicts w c = true ∧ d.winner_candidate_id = some w.candidate_id

theorem InCommitOrder.append {ordered : List ArbitrationCandidate} {decisions : List ArbitrationDecision}
    (h : InCommitOrder ordered decisions) (more : List ArbitrationCandidate) {d : ArbitrationDecision}
    (hd : d.disposition = .execute →
      ∃ k c, d.commit_order = some k ∧ (ordered ++ more)[k]? = some c ∧ c.candidate_id = d.candidate_id) :
    InCommitOrder (ordered ++ more) (decisions ++ [d]) := by
  intro e he hexecute
  rcases mem_append.mp he with hold | hnew
  · obtain ⟨k, c, horder, hat, hid⟩ := h e hold hexecute
    have hlt : k < ordered.length := (List.getElem?_eq_some_iff.mp hat).1
    exact ⟨k, c, horder, by rw [getElem?_append_left hlt, hat], hid⟩
  · rw [mem_singleton.mp hnew] at hexecute ⊢
    exact hd hexecute

theorem RejectLoopNames.next {seen : List ArbitrationCandidate} {l : RejectLoop} (h : RejectLoopNames seen l)
    (hwinners : l.winners.Sublist seen) (c : ArbitrationCandidate) : RejectLoopNames (seen ++ [c]) (l.next c) := by
  -- what is said of the earlier decisions stays true behind one more candidate
  have hearlier : ∀ winners : List ArbitrationCandidate, l.winners ⊆ winners → ∀ d ∈ l.decisions,
      d.disposition = .reject → ∃ a ∈ seen ++ [c], ∃ w ∈ winners, d.candidate_id = a.candidate_id ∧
        [w, a].Sublist (seen ++ [c]) ∧ conflicts w a = true ∧ d.winner_candidate_id = some w.candidate_id := by
    intro winners hmore d hd hreject
    obtain ⟨a, ha, w, hw, hid, hbefore, hconflict, hnames⟩ := h.named d hd hreject
    exact ⟨a, mem_append_left _ ha, w, hmore hw, hid, hbefore.trans (sublist_append_left _ _), hconflict,
      hnames⟩
  rw [RejectLoop.next]
  cases hfind : earlier_winner l.winners c with
  | some winner =>
    have hwinner : winner ∈ l.winners := mem_of_find?_eq_some hfind
    have hconflict : conflicts winner c = true :=
      find?_some (p := fun accepted => conflicts accepted c) hfind
    have hbefore : [winner, c].Sublist (seen ++ [c]) :=
      (singleton_sublist.mpr (hwinners.subset hwinner)).append (Sublist.refl [c])
    refine ⟨?_, fun d hd hreject => ?_⟩
    · have hplaced := h.placed.append [] (d := arbitration_decision c .reject none (some winner.candidate_id))
        fun h => by cases h
      rwa [append_nil] at hplaced
    · rcases mem_append.mp hd with hold | hnew
      · exact hearlier l.winners (fun _ hw => hw) d hold hreject
      · rw [mem_singleton.mp hnew]
        exact ⟨c, mem_append_right _ (mem_singleton_self c), winner, hwinner, rfl, hbefore, hconflict, rfl⟩
  | none =>
    refine ⟨h.placed.append [c] fun _ => ⟨l.winners.length, c, rfl, ?_, rfl⟩, fun d hd hreject => ?_⟩
    · exact getElem?_concat_length
    · rcases mem_append.mp hd with hold | hnew
      · exact hearlier (l.winners ++ [c]) (subset_append_left _ _) d hold hreject
      · rw [mem_singleton.mp hnew] at hreject
        cases hreject

/-- The whole loop. The induction is on the candidates still to come. -/
theorem RejectLoopNames.foldl {seen : List ArbitrationCandidate} {l : RejectLoop} (h : RejectLoopNames seen l)
    (hinv : RejectLoopInv seen l) (cs : List ArbitrationCandidate) (hids : DistinctIds (seen ++ cs)) :
    RejectLoopNames (seen ++ cs) (cs.foldl RejectLoop.next l) := by
  induction cs generalizing seen l with
  | nil =>
    rw [append_nil]
    exact h
  | cons c cs ih =>
    rw [append_cons] at hids ⊢
    have hfirst : DistinctIds (seen ++ [c]) := by
      rw [DistinctIds, map_append] at hids
      exact (nodup_append.mp hids).1
    exact ih (h.next hinv.winners c) (hinv.next hfirst) hids

theorem reject_loop_start : RejectLoopInv [] {} where
  winners := Sublist.refl _
  rejected _ hc := absurd hc not_mem_nil
  known _ hid := absurd hid not_mem_nil
  decides := ⟨rfl, fun _ hd => absurd hd not_mem_nil⟩

variable {candidates : List ArbitrationCandidate} {a b : ArbitrationCandidate}

/-- Conflicts are resolved in favour of the first candidate. -/
theorem reject_conflicts_laws (h : DistinctIds candidates) :
    RejectLaws candidates (reject_conflicts candidates) := by
  have hinv : RejectLoopInv candidates (candidates.foldl RejectLoop.next {}) :=
    reject_loop_start.foldl candidates h
  have hnames : RejectLoopNames candidates (candidates.foldl RejectLoop.next {}) := by
    have hstart : RejectLoopNames [] {} :=
      ⟨fun d hd => absurd hd not_mem_nil, fun d hd => absurd hd not_mem_nil⟩
    exact hstart.foldl reject_loop_start candidates h
  have hapart : (reject_conflicts candidates).ordered.Pairwise fun a b => conflicts a b = false := by
    rw [reject_conflicts_ordered]
    exact List.greedy_pairwise candidates
  have hnodup : candidates.Nodup := Nodup.of_map _ h
  have hnamed : ∀ c ∈ candidates, c ∉ (reject_conflicts candidates).ordered →
      ∃ w ∈ (reject_conflicts candidates).ordered, [w, c].Sublist candidates ∧ conflicts w c = true ∧
        ∃ d ∈ (reject_conflicts candidates).report.decisions, d.candidate_id = c.candidate_id ∧
          d.disposition = .reject ∧ d.winner_candidate_id = some w.candidate_id := by
    intro c hc hout
    have hid : c.candidate_id ∈ (candidates.foldl RejectLoop.next {}).decisions.map
        ArbitrationDecision.candidate_id := by
      rw [hinv.decides.ids]
      exact mem_map_of_mem hc
    obtain ⟨d, hd, hdc⟩ := mem_map.mp hid
    -- the decision is that of `c`, so it rejects
    obtain ⟨a, ha, hdescribes, hiff⟩ := hinv.decides.decided d hd
    have hac : a = c := h.eq_of_id ha hc (hdescribes.candidate_id.symm.trans hdc)
    have hreject : d.disposition = .reject := by
      cases hdisposition : d.disposition with
      | execute => exact absurd (hac ▸ hiff.mp hdisposition) hout
      | reject => rfl
    obtain ⟨a', ha', w, hw, hid', hbefore, hconflict, hwinner⟩ := hnames.named d hd hreject
    have hac' : a' = c := h.eq_of_id ha' hc (hid'.symm.trans hdc)
    rw [hac'] at hbefore hconflict
    exact ⟨w, hw, hbefore, hconflict, d, hd, hdc, hreject, hwinner⟩
  refine ⟨hinv.winners, hinv.decides, hnames.placed, hinv.rejected, hapart, hnamed, fun c hc => ⟨?_, ?_⟩⟩
  · intro hin w hw hbefore
    have hne : w ≠ c := by
      rintro rfl
      exact absurd (hbefore.nodup hnodup) (by simp)
    exact hapart.forall hw hin hne
  · intro hfree
    by_contra hout
    obtain ⟨w, hw, hbefore, hconflict, -⟩ := hnamed c hc hout
    rw [hfree w hw hbefore] at hconflict
    cases hconflict

/-! ## Serialize and priority -/

/-- The candidates of an arbitration are numbered in their order. -/
theorem arbitration_candidates_numbered (catalog : ExecutionCatalog)
    (proposals : List (AgentContext × ActionProposal)) :
    (arbitration_candidates catalog proposals).Pairwise fun a b => a.admission_sequence < b.admission_sequence := by
  rw [arbitration_candidates, pairwise_map]
  have hsequence : proposals.zipIdx.Pairwise fun a b => a.2 < b.2 := by
    rw [← pairwise_map (f := Prod.snd) (R := (· < ·)), zipIdx_map_snd]
    exact pairwise_lt_range' 1
  exact hsequence

theorem commit_ordered_serialize (candidates : List ArbitrationCandidate) :
    commit_ordered .serialize candidates = candidates := by
  rw [commit_ordered, if_pos rfl]

theorem commit_ordered_perm (policy : ArbitrationPolicy) (candidates : List ArbitrationCandidate) :
    (commit_ordered policy candidates).Perm candidates := by
  rw [commit_ordered]
  split
  · exact Perm.refl _
  · exact perm_insertionSort _ _

/-- A smaller key: a higher priority, or the same one and an earlier number. -/
theorem commit_key_le_of (hpriority : a.context.priority = b.context.priority)
    (hsequence : a.admission_sequence < b.admission_sequence) : commit_key a ≤ commit_key b := by
  unfold commit_key
  rw [Prod.Lex.toLex_le_toLex, Prod.Lex.toLex_le_toLex, hpriority]
  exact Or.inr ⟨rfl, Or.inl hsequence⟩

theorem priority_le_of_commit_key (h : commit_key a ≤ commit_key b) :
    b.context.priority ≤ a.context.priority := by
  unfold commit_key at h
  rw [Prod.Lex.toLex_le_toLex] at h
  rcases h with hlt | ⟨heq, -⟩
  · exact Int.le_of_neg_le_neg (Int.le_of_lt hlt)
  · exact (Int.neg_inj.mp heq).ge

/-- `priority` sorts, and keeps the order of candidates of one priority. -/
theorem commit_ordered_priority
    (h : candidates.Pairwise fun a b => a.admission_sequence < b.admission_sequence) :
    PriorityLaws candidates (commit_ordered .priority candidates) := by
  rw [commit_ordered, if_neg (by decide)]
  have hsorted : (candidates.insertionSort fun a b => commit_key a ≤ commit_key b).Pairwise
      fun a b => commit_key a ≤ commit_key b := pairwise_insertionSort _ _
  refine ⟨hsorted.imp fun hab => priority_le_of_commit_key hab, fun p => ?_⟩
  refine List.filter_insertionSort (fun a b => commit_key a ≤ commit_key b) _ ?_
  refine pairwise_filter.mpr (h.imp fun hab ha hb => ?_)
  exact commit_key_le_of ((of_decide_eq_true ha).trans (of_decide_eq_true hb).symm) hab

/-- Under a policy that rejects nothing the commit orders of the decisions are places of the order. -/
theorem arbitrate_executes_all {policy : ArbitrationPolicy} (hpolicy : policy ≠ .reject) (catalog : ExecutionCatalog)
    (proposals : List (AgentContext × ActionProposal)) :
    ExecutesAll (arbitration_candidates catalog proposals) (arbitrate policy catalog proposals) := by
  have hperm := commit_ordered_perm policy (arbitration_candidates catalog proposals)
  rw [arbitrate, if_neg hpolicy]
  refine ⟨hperm, rfl, ⟨by rw [map_map]; rfl, fun d hd => ?_⟩, fun d hd _ => ?_⟩
  · obtain ⟨c, hc, rfl⟩ := mem_map.mp hd
    exact ⟨c, hc, describes_decision c _ _ _, iff_of_true rfl (hperm.symm.subset hc)⟩
  · obtain ⟨c, hc, rfl⟩ := mem_map.mp hd
    have hlt : (commit_ordered policy (arbitration_candidates catalog proposals)).findIdx
        (fun other => other.candidate_id = c.candidate_id)
        < (commit_ordered policy (arbitration_candidates catalog proposals)).length :=
      findIdx_lt_length_of_exists ⟨c, hperm.symm.subset hc, decide_eq_true rfl⟩
    have hat := findIdx_getElem (w := hlt)
    exact ⟨_, _, rfl, getElem?_eq_getElem hlt, of_decide_eq_true hat⟩

/-! ## The laws of the arbiter -/

theorem arbiter_keeps_its_laws (catalog : ExecutionCatalog) (proposals : List (AgentContext × ActionProposal))
    (h : DistinctIds (arbitration_candidates catalog proposals)) :
    RejectLaws (arbitration_candidates catalog proposals) (arbitrate .reject catalog proposals) ∧
    (arbitrate .serialize catalog proposals).ordered = arbitration_candidates catalog proposals ∧
    ExecutesAll (arbitration_candidates catalog proposals) (arbitrate .serialize catalog proposals) ∧
    PriorityLaws (arbitration_candidates catalog proposals) (arbitrate .priority catalog proposals).ordered ∧
    ExecutesAll (arbitration_candidates catalog proposals) (arbitrate .priority catalog proposals) ∧
    ∀ a b : ArbitrationCandidate, conflicts a b = conflicts b a := by
  refine ⟨?_, ?_, arbitrate_executes_all (by decide) catalog proposals, ?_,
    arbitrate_executes_all (by decide) catalog proposals, conflicts_comm⟩
  · rw [arbitrate, if_pos rfl]
    exact reject_conflicts_laws h
  · rw [arbitrate, if_neg (by decide)]
    exact commit_ordered_serialize _
  · rw [arbitrate, if_neg (by decide)]
    exact commit_ordered_priority (arbitration_candidates_numbered catalog proposals)

/-- Two agents on one link and a third one elsewhere. -/
def contending_proposals : List (AgentContext × ActionProposal) :=
  [({ invocation_id := "a", run_id := "run", agent_id := "alpha", deployment := "d" },
      { id := "cut", capability := "link.down", target := "s1-s2" }),
    ({ invocation_id := "b", run_id := "run", agent_id := "beta", deployment := "d", priority := 5 },
      { id := "cut", capability := "link.down", target := "s1-s2" }),
    ({ invocation_id := "c", run_id := "run", agent_id := "gamma", deployment := "d" },
      { id := "cut", capability := "link.down", target := "s2-s3" })]

def contending_catalog : ExecutionCatalog :=
  fun _ => [{ name := "link.down", provider := some "substrate.action", effects := ["link.state"] }]

theorem arbiter_keeps_its_laws_contending :
    ((arbitrate .reject contending_catalog contending_proposals).ordered.map ArbitrationCandidate.candidate_id)
      = ["a:cut", "c:cut"] ∧
    ((arbitrate .priority contending_catalog contending_proposals).ordered.map ArbitrationCandidate.candidate_id)
      = ["b:cut", "a:cut", "c:cut"] ∧
    RejectLaws (arbitration_candidates contending_catalog contending_proposals)
      (arbitrate .reject contending_catalog contending_proposals) :=
  ⟨by decide +kernel, by decide +kernel, (arbiter_keeps_its_laws contending_catalog contending_proposals
    (by unfold DistinctIds; decide)).1⟩

end MininetAi
