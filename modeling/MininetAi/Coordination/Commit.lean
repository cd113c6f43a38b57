/-
The commit of one prepared invocation (`CoordinationRuntime._commit_prepared` and
`_finish_prepared` in `mininet_ai/coordination/routing.py`), and which steps of a
recovery bundle it executes.

The loop of `_finish_prepared` treats each candidate in one of four ways, and
each is a function of the loop state here. The environment (what validation,
admission and the executor answer) is a parameter, one outcome a candidate; the
interleaving with other invocations is `MininetAi.Coordination.CommitSystem`,
which uses the same four functions.

A recovery bundle is meant to stop at the first step that is rejected or fails.
The loop keeps a flag for that, but a candidate the arbiter has dropped never
reaches the loop. Under `reject` the bundle is therefore executed as a prefix
only when all its conflicting steps come last.
-/
import MininetAi.Agents.Runtime
import MininetAi.Coordination.Arbitration

set_option autoImplicit false

namespace MininetAi

open List

/-! ## The loop -/

/-- The results by candidate id. -/
abbrev ActionResults := Dict String ActionResult

/-- The variables of the loop. `executed` is bookkeeping: the candidates handed to
the executor, in order. -/
structure FinishLoop where
  action_results : ActionResults
  decisions : List ArbitrationDecision
  halted : Bool
  executed : List ArbitrationCandidate := []

/-- The metadata of a bounded decision that chose the recovery bundle. -/
def bounded_bundle (response : AgentResponse) : Bool :=
  response.metadata.lookup "executionKind" = some (.str "bounded-decision") ∧
    response.metadata.lookup "selectedChoice" = some (.str "install_recovery")

/-- `decisions[candidate_id].model_copy(...)` for a step that is not executed. -/
def mark_rejected (decisions : List ArbitrationDecision) (candidate_id : String)
    (winner : Option String) : List ArbitrationDecision :=
  decisions.map fun d =>
    if d.candidate_id = candidate_id then
      { d with
        disposition := .reject
        commit_order := none
        winner_candidate_id := winner.orElse fun _ => d.winner_candidate_id }
    else d

/-- The result of a step that lost to an admitted one. -/
def conflict_rejection (prepared : PreparedAgentInvocation) (c : ArbitrationCandidate) :
    ActionResult :=
  reject prepared c.proposal "coordination.conflict.rejected"
    "action proposal conflicts with an earlier admitted action"

namespace FinishLoop

/-- The state before the first candidate. -/
def start (response : AgentResponse) (arbitration : ArbitrationPlan)
    (action_results : ActionResults) : FinishLoop where
  action_results := action_results
  decisions := arbitration.report.decisions
  halted := bounded_bundle response && action_results.entries ≠ []

/-- The bundle has halted: the step is not started. -/
def stop (l : FinishLoop) (prepared : PreparedAgentInvocation) (c : ArbitrationCandidate) :
    FinishLoop :=
  { l with
    action_results := l.action_results.insert c.candidate_id
      (reject prepared c.proposal "agent.bounded-decision.bundle-stopped"
        "recovery bundle stopped before this step started")
    decisions := mark_rejected l.decisions c.candidate_id none }

/-- The step lost to `winner`, on entry to `decision` or in `admit`. -/
def conflict (l : FinishLoop) (prepared : PreparedAgentInvocation) (c winner : ArbitrationCandidate) :
    FinishLoop :=
  { l with
    action_results := l.action_results.insert c.candidate_id (conflict_rejection prepared c)
    decisions := mark_rejected l.decisions c.candidate_id (some winner.candidate_id)
    halted := l.halted || bounded_bundle prepared.response }

/-- The step no longer passes validation. -/
def invalid (l : FinishLoop) (prepared : PreparedAgentInvocation) (c : ArbitrationCandidate)
    (rejection : ActionResult) : FinishLoop :=
  { l with
    action_results := l.action_results.insert c.candidate_id rejection
    decisions := mark_rejected l.decisions c.candidate_id none
    halted := l.halted || bounded_bundle prepared.response }

/-- The step has been executed. -/
def execute (l : FinishLoop) (prepared : PreparedAgentInvocation) (c : ArbitrationCandidate)
    (result : ActionResult) : FinishLoop :=
  { l with
    action_results := l.action_results.insert c.candidate_id result
    halted := l.halted || (bounded_bundle prepared.response && result.status ≠ .succeeded)
    executed := l.executed ++ [c] }

/-- The candidates the arbiter has dropped get their results after the loop. -/
def drop_rejected (l : FinishLoop) (prepared : PreparedAgentInvocation)
    (arbitration : ArbitrationPlan) : FinishLoop :=
  { l with
    action_results := arbitration.candidates.foldl
      (fun results c =>
        if c.candidate_id ∈ arbitration.rejected then
          results.insert c.candidate_id (conflict_rejection prepared c)
        else results)
      l.action_results }

end FinishLoop

/-- The results in proposal order, none when some proposal has none. -/
def ordered_results (prepared : PreparedAgentInvocation) (results : ActionResults) :
    Option (List ActionResult) :=
  prepared.response.proposals.mapM fun p => results.lookup (candidate_id prepared.context p)

/-! ## The first pass -/

/-- The state of the loop of `_commit_prepared`. -/
structure FirstPass where
  admitted : List (AgentContext × ActionProposal) := []
  action_results : ActionResults := ∅

/-- One iteration: a proposal that passes validation goes on to arbitration. -/
def FirstPass.next (prepared : PreparedAgentInvocation) (l : FirstPass) (proposal : ActionProposal)
    (rejection : Option ActionResult) : FirstPass :=
  match rejection with
  | none => { l with admitted := l.admitted ++ [(prepared.context, proposal)] }
  | some r => { l with
      action_results := l.action_results.insert (candidate_id prepared.context proposal) r }

/-! ## One commit -/

/-- What the environment answers for one candidate of the loop. -/
structure CandidateOutcome where
  rejection : Option ActionResult
  winner : Option ArbitrationCandidate
  result : ActionResult

/-- What the environment answers during one commit: the first validation of each
proposal, the rejections on entry to `decision`, and the loop. -/
structure CommitOutcome where
  validation : ActionProposal → Option ActionResult
  rejections : List (String × ArbitrationCandidate)
  candidate : ArbitrationCandidate → CandidateOutcome

/-- One iteration of the loop. -/
def FinishLoop.next (prepared : PreparedAgentInvocation)
    (rejections : List (String × ArbitrationCandidate))
    (outcome : ArbitrationCandidate → CandidateOutcome) (l : FinishLoop)
    (c : ArbitrationCandidate) : FinishLoop :=
  if l.halted then l.stop prepared c
  else match rejections.lookup c.candidate_id with
    | some winner => l.conflict prepared c winner
    | none => match (outcome c).rejection with
      | some r => l.invalid prepared c r
      | none => match (outcome c).winner with
        | none => l.execute prepared c (outcome c).result
        | some winner => l.conflict prepared c winner

/-- `_finish_prepared`, up to `complete`. -/
def finish_prepared (prepared : PreparedAgentInvocation) (arbitration : ArbitrationPlan)
    (action_results : ActionResults) (rejections : List (String × ArbitrationCandidate))
    (outcome : ArbitrationCandidate → CandidateOutcome) : FinishLoop :=
  (arbitration.ordered.foldl (FinishLoop.next prepared rejections outcome)
    (FinishLoop.start prepared.response arbitration action_results)).drop_rejected
      prepared arbitration

/-- The loop of `_commit_prepared`. -/
def first_pass (prepared : PreparedAgentInvocation)
    (validation : ActionProposal → Option ActionResult) : FirstPass :=
  prepared.response.proposals.foldl (fun l p => l.next prepared p (validation p)) {}

/-- `_commit_prepared`, up to `complete`. -/
def commit_prepared (policy : ArbitrationPolicy) (catalog : ExecutionCatalog)
    (prepared : PreparedAgentInvocation) (outcome : CommitOutcome) : FinishLoop :=
  let pass := first_pass prepared outcome.validation
  finish_prepared prepared (arbitrate policy catalog pass.admitted) pass.action_results
    outcome.rejections outcome.candidate

/-! ## What the loop executes -/

/-- The steps handed to the executor are an initial part of `steps`, and only the
last of them can have failed. So no step is executed after one that was rejected
or did not succeed. -/
def ExecutesPrefix (steps : List ActionProposal) (executed : List ArbitrationCandidate)
    (outcome : ArbitrationCandidate → CandidateOutcome) : Prop :=
  executed.map ArbitrationCandidate.proposal <+: steps ∧
    ∀ c ∈ executed.dropLast, (outcome c).result.status = .succeeded

instance (steps : List ActionProposal) (executed : List ArbitrationCandidate)
    (outcome : ArbitrationCandidate → CandidateOutcome) :
    Decidable (ExecutesPrefix steps executed outcome) :=
  inferInstanceAs (Decidable (_ ∧ _))

section Loop

variable (prepared : PreparedAgentInvocation)
  (rejections : List (String × ArbitrationCandidate))
  (outcome : ArbitrationCandidate → CandidateOutcome)

variable {l : FinishLoop}

theorem next_of_halted (h : l.halted = true) (c : ArbitrationCandidate) :
    (l.next prepared rejections outcome c).halted = true ∧
      (l.next prepared rejections outcome c).executed = l.executed := by
  rw [FinishLoop.next, if_pos h]
  exact ⟨h, rfl⟩

/-- A halted loop executes nothing more. -/
theorem foldl_next_of_halted (h : l.halted = true) (cs : List ArbitrationCandidate) :
    (cs.foldl (FinishLoop.next prepared rejections outcome) l).executed = l.executed := by
  induction cs generalizing l with
  | nil => rfl
  | cons c cs ih =>
    obtain ⟨hhalted, hsame⟩ := next_of_halted prepared rejections outcome h c
    rw [foldl_cons, ih hhalted, hsame]

/-- One step of a bundle is executed with success, or is executed last, or halts
the bundle. -/
theorem next_of_running {prepared : PreparedAgentInvocation}
    (hbounded : bounded_bundle prepared.response = true) (h : l.halted = false)
    (c : ArbitrationCandidate) :
    ((l.next prepared rejections outcome c).executed = l.executed ++ [c] ∧
        ((l.next prepared rejections outcome c).halted = true ∨
          (outcome c).result.status = .succeeded)) ∨
      ((l.next prepared rejections outcome c).executed = l.executed ∧
        (l.next prepared rejections outcome c).halted = true) := by
  rw [FinishLoop.next, if_neg (by rw [h]; simp)]
  split
  · exact Or.inr ⟨rfl, by simp [FinishLoop.conflict, hbounded]⟩
  · split
    · exact Or.inr ⟨rfl, by simp [FinishLoop.invalid, hbounded]⟩
    · split
      · refine Or.inl ⟨rfl, ?_⟩
        by_cases hok : (outcome c).result.status = .succeeded
        · exact Or.inr hok
        · exact Or.inl (by simp [FinishLoop.execute, hbounded, hok])
      · exact Or.inr ⟨rfl, by simp [FinishLoop.conflict, hbounded]⟩

/-- The steps a bundle executes are an initial part of the loop's list, all but
the last with success. The induction is on the list; as long as the loop runs
everything before has been executed with success, and once it has halted nothing
is added. -/
theorem foldl_next_prefix {prepared : PreparedAgentInvocation}
    (hbounded : bounded_bundle prepared.response = true) (h : l.halted = false)
    (cs : List ArbitrationCandidate) : ∃ done, done <+: cs ∧
      (cs.foldl (FinishLoop.next prepared rejections outcome) l).executed = l.executed ++ done ∧
      ∀ c ∈ done.dropLast, (outcome c).result.status = .succeeded := by
  induction cs generalizing l with
  | nil => exact ⟨[], prefix_refl _, by simp, by simp⟩
  | cons c cs ih =>
    rw [foldl_cons]
    rcases next_of_running rejections outcome hbounded h c
      with ⟨hexec, hlast⟩ | ⟨hexec, hhalted⟩
    · cases hh : (l.next prepared rejections outcome c).halted with
      | true =>
        refine ⟨[c], ⟨cs, rfl⟩, ?_, by simp⟩
        rw [foldl_next_of_halted prepared rejections outcome hh, hexec]
      | false =>
        obtain ⟨done, hdone, hall, hok⟩ := ih hh
        refine ⟨c :: done, cons_prefix_cons.mpr ⟨rfl, hdone⟩, ?_, ?_⟩
        · rw [hall, hexec, append_assoc, singleton_append]
        · intro d hd
          cases done with
          | nil => simp at hd
          | cons e done =>
            rw [dropLast_cons_of_ne_nil (cons_ne_nil e done)] at hd
            rcases mem_cons.mp hd with rfl | hd
            · rcases hlast with hhalt | hsucc
              · rw [hh] at hhalt; cases hhalt
              · exact hsucc
            · exact hok d hd
    · refine ⟨[], List.nil_prefix, ?_, by simp⟩
      rw [foldl_next_of_halted prepared rejections outcome hhalted, hexec, append_nil]

/-- When every step is admitted and succeeds, the whole list is executed. -/
theorem foldl_next_all (h : l.halted = false) (cs : List ArbitrationCandidate)
    (hfree : ∀ c ∈ cs, rejections.lookup c.candidate_id = none)
    (hok : ∀ c ∈ cs, (outcome c).rejection = none ∧ (outcome c).winner = none ∧
      (outcome c).result.status = .succeeded) :
    (cs.foldl (FinishLoop.next prepared rejections outcome) l).executed = l.executed ++ cs := by
  induction cs generalizing l with
  | nil => simp
  | cons c cs ih =>
    obtain ⟨hrej, hwin, hsucc⟩ := hok c mem_cons_self
    have hnext : l.next prepared rejections outcome c
        = l.execute prepared c (outcome c).result := by
      rw [FinishLoop.next, if_neg (by rw [h]; simp), hfree c mem_cons_self, hrej, hwin]
    rw [foldl_cons, hnext, ih ?_ (fun d hd => hfree d (mem_cons_of_mem c hd))
      (fun d hd => hok d (mem_cons_of_mem c hd))]
    · simp [FinishLoop.execute]
    · simp [FinishLoop.execute, h, hsucc]

end Loop

/-! ## The first pass -/

theorem foldl_first_pass (prepared : PreparedAgentInvocation)
    (validation : ActionProposal → Option ActionResult) (ps : List ActionProposal) (l : FirstPass) :
    (ps.foldl (fun l p => l.next prepared p (validation p)) l).admitted
        = l.admitted ++ (ps.filter fun p => (validation p).isNone).map (fun p => (prepared.context, p)) ∧
      ((∀ p ∈ ps, validation p = none) →
        (ps.foldl (fun l p => l.next prepared p (validation p)) l).action_results
          = l.action_results) ∧ ((∃ p ∈ ps, validation p ≠ none) ∨ l.action_results.entries ≠ [] →
        (ps.foldl (fun l p => l.next prepared p (validation p)) l).action_results.entries ≠ []) := by
  induction ps generalizing l with
  | nil => simp
  | cons p ps ih =>
    obtain ⟨hadm, hsame, hne⟩ := ih (l.next prepared p (validation p))
    rw [foldl_cons]
    cases hv : validation p with
    | none =>
      rw [hv] at hadm hsame hne
      refine ⟨?_, ?_, ?_⟩
      · rw [hadm]; simp [FirstPass.next, hv]
      · intro hall
        exact hsame fun q hq => hall q (mem_cons_of_mem p hq)
      · rintro (⟨q, hq, hqv⟩ | hl)
        · rcases mem_cons.mp hq with rfl | hq
          · exact absurd hv hqv
          · exact hne (Or.inl ⟨q, hq, hqv⟩)
        · exact hne (Or.inr hl)
    | some rejection =>
      rw [hv] at hadm hsame hne
      refine ⟨?_, ?_, ?_⟩
      · rw [hadm]; simp [FirstPass.next, hv]
      · intro hall
        have hnone := hall p mem_cons_self
        rw [hv] at hnone
        cases hnone
      · intro _
        refine hne (Or.inr ?_)
        simp [FirstPass.next, AList.entries_insert]

variable {prepared : PreparedAgentInvocation}

variable {validation : ActionProposal → Option ActionResult}

/-- Without a rejection every proposal goes on to arbitration. -/
theorem first_pass_clean (h : ∀ p ∈ prepared.response.proposals, validation p = none) :
    (first_pass prepared validation).admitted
        = prepared.response.proposals.map (fun p => (prepared.context, p)) ∧
      (first_pass prepared validation).action_results = ∅ := by
  obtain ⟨hadm, hsame, -⟩ := foldl_first_pass prepared validation prepared.response.proposals {}
  refine ⟨?_, hsame h⟩
  have hall : prepared.response.proposals.filter (fun p => (validation p).isNone)
      = prepared.response.proposals := by
    rw [filter_eq_self]
    intro p hp
    rw [h p hp]
    rfl
  rw [first_pass, hadm, hall]
  rfl

/-- A rejection leaves a result, and a bundle with a result is halted at once. -/
theorem first_pass_rejected (h : ∃ p ∈ prepared.response.proposals, validation p ≠ none) :
    (first_pass prepared validation).action_results.entries ≠ [] :=
  (foldl_first_pass prepared validation prepared.response.proposals {}).2.2 (Or.inl h)

/-! ## Which steps of a bundle are executed -/

/-- The candidates of a bundle whose steps all pass the first validation. -/
def bundle_candidates (catalog : ExecutionCatalog) (prepared : PreparedAgentInvocation) :
    List ArbitrationCandidate :=
  context_candidates catalog prepared.context prepared.response.proposals

theorem bundle_candidates_nodup (catalog : ExecutionCatalog)
    (prepared : PreparedAgentInvocation) : (bundle_candidates catalog prepared).Nodup :=
  Nodup.of_map _
    (context_candidates_ids catalog prepared.context prepared.response.proposal_ids_unique)

/-- The steps a bundle executes: an initial part of what the arbiter let through,
and nothing when the first validation rejected a step. -/
theorem commit_prepared_executed (policy : ArbitrationPolicy) (catalog : ExecutionCatalog)
    (hbundle : bounded_bundle prepared.response = true) (outcome : CommitOutcome) :
    ∃ done, (commit_prepared policy catalog prepared outcome).executed = done ∧
      done <+: (if policy = .reject then (bundle_candidates catalog prepared).greedy conflicts
        else bundle_candidates catalog prepared) ∧
      ∀ c ∈ done.dropLast, (outcome.candidate c).result.status = .succeeded := by
  by_cases hrejected : ∃ p ∈ prepared.response.proposals, outcome.validation p ≠ none
  · refine ⟨[], ?_, List.nil_prefix, by simp⟩
    have hentries := first_pass_rejected hrejected
    have hhalted : (FinishLoop.start prepared.response
        (arbitrate policy catalog (first_pass prepared outcome.validation).admitted)
        (first_pass prepared outcome.validation).action_results).halted = true := by
      simp [FinishLoop.start, hbundle, hentries]
    exact foldl_next_of_halted prepared outcome.rejections outcome.candidate hhalted _
  · have hclean : ∀ p ∈ prepared.response.proposals, outcome.validation p = none := by
      intro p hp
      by_contra hne
      exact hrejected ⟨p, hp, hne⟩
    obtain ⟨hadm, hres⟩ := first_pass_clean hclean
    have hrunning : (FinishLoop.start prepared.response
        (arbitrate policy catalog (first_pass prepared outcome.validation).admitted)
        (first_pass prepared outcome.validation).action_results).halted = false := by
      rw [hres]
      simp [FinishLoop.start]
    obtain ⟨done, hdone, hexec, hok⟩ := foldl_next_prefix outcome.rejections outcome.candidate
      hbundle hrunning
      (arbitrate policy catalog (first_pass prepared outcome.validation).admitted).ordered
    rw [hadm, arbitrate_ordered] at hdone
    exact ⟨done, hexec, hdone, hok⟩

/-- Everything is admitted and succeeds. -/
def all_succeed (prepared : PreparedAgentInvocation) : CommitOutcome where
  validation _ := none
  rejections := []
  candidate c :=
    { rejection := none
      winner := none
      result := .success prepared.context.run_id c.proposal.id }

theorem commit_prepared_all_succeed (policy : ArbitrationPolicy) (catalog : ExecutionCatalog)
    (prepared : PreparedAgentInvocation) :
    (commit_prepared policy catalog prepared (all_succeed prepared)).executed
      = if policy = .reject then (bundle_candidates catalog prepared).greedy conflicts
        else bundle_candidates catalog prepared := by
  have hclean : ∀ p ∈ prepared.response.proposals, (all_succeed prepared).validation p = none :=
    fun _ _ => rfl
  obtain ⟨hadm, hres⟩ := first_pass_clean hclean
  have hrunning : (FinishLoop.start prepared.response
      (arbitrate policy catalog (first_pass prepared (all_succeed prepared).validation).admitted)
      (first_pass prepared (all_succeed prepared).validation).action_results).halted = false := by
    rw [hres]
    simp [FinishLoop.start]
  have hall := foldl_next_all prepared [] (all_succeed prepared).candidate hrunning
    (arbitrate policy catalog (first_pass prepared (all_succeed prepared).validation).admitted).ordered
    (fun _ _ => rfl) (fun _ _ => ⟨rfl, rfl, rfl⟩)
  calc (commit_prepared policy catalog prepared (all_succeed prepared)).executed
      = (arbitrate policy catalog
          (first_pass prepared (all_succeed prepared).validation).admitted).ordered := hall
    _ = _ := by rw [hadm, arbitrate_ordered]; rfl

/-- Lists with equal images under a function that tells their elements apart. -/
theorem eq_of_map_eq {α β : Type} {f : α → β} {l m : List α}
    (hinj : ∀ a ∈ l, ∀ b ∈ m, f a = f b → a = b) (h : l.map f = m.map f) : l = m := by
  induction l generalizing m with
  | nil => cases m with
    | nil => rfl
    | cons b m => cases h
  | cons a l ih => cases m with
    | nil => cases h
    | cons b m =>
      obtain ⟨hab, hlm⟩ := List.cons.inj h
      rw [hinj a mem_cons_self b mem_cons_self hab,
        ih (fun x hx y hy => hinj x (mem_cons_of_mem a hx) y (mem_cons_of_mem b hy)) hlm]

/-- A selection of a bundle's candidates is an initial part of them when their
proposals are an initial part of the bundle. -/
theorem prefix_of_proposals_prefix {catalog : ExecutionCatalog} {cs : List ArbitrationCandidate}
    (hsub : ∀ c ∈ cs, c ∈ bundle_candidates catalog prepared)
    (h : cs.map ArbitrationCandidate.proposal <+: prepared.response.proposals) :
    cs <+: bundle_candidates catalog prepared := by
  obtain ⟨rest, hrest⟩ := h
  rw [← context_candidates_proposal catalog prepared.context prepared.response.proposals] at hrest
  obtain ⟨l, m, hlm, hl, -⟩ := map_eq_append_iff.mp hrest.symm
  have hnodup : ((bundle_candidates catalog prepared).map ArbitrationCandidate.proposal).Nodup := by
    rw [bundle_candidates, context_candidates_proposal]
    exact Nodup.of_map _ prepared.response.proposal_ids_unique
  have hcs : l = cs := by
    refine eq_of_map_eq (fun a ha b hb heq => ?_) hl
    have hal : a ∈ bundle_candidates catalog prepared := by
      rw [bundle_candidates, hlm]
      exact mem_append.mpr (Or.inl ha)
    exact inj_on_of_nodup_map hnodup hal (hsub b hb) heq
  exact ⟨m, by rw [← hcs, bundle_candidates, hlm]⟩

/-- A recovery bundle is executed as a prefix, whatever the environment answers,
exactly when the policy does not reject or the bundle splits into steps without
conflicts and, behind them, steps that each conflict with one of those. -/
theorem bundle_executes_prefix_iff (policy : ArbitrationPolicy) (catalog : ExecutionCatalog)
    (prepared : PreparedAgentInvocation) (hbundle : bounded_bundle prepared.response = true) :
    (∀ outcome, ExecutesPrefix prepared.response.proposals
        (commit_prepared policy catalog prepared outcome).executed outcome.candidate) ↔
      policy ≠ .reject ∨ (bundle_candidates catalog prepared).ConflictsAreFinal conflicts := by
  constructor
  · intro hall
    by_cases hpol : policy = .reject
    · refine Or.inr ?_
      have hprefix := (hall (all_succeed prepared)).1
      rw [commit_prepared_all_succeed, if_pos hpol] at hprefix
      refine (List.greedy_prefix_iff (bundle_candidates_nodup catalog prepared)).mp ?_
      exact prefix_of_proposals_prefix
        (fun c hc => (List.greedy_sublist _).subset hc) hprefix
    · exact Or.inl hpol
  · intro hcond outcome
    obtain ⟨done, hexec, hdone, hok⟩ := commit_prepared_executed policy catalog hbundle outcome
    rw [hexec]
    refine ⟨?_, hok⟩
    have hbundle_prefix : done <+: bundle_candidates catalog prepared := by
      by_cases hpol : policy = .reject
      · rw [if_pos hpol] at hdone
        rcases hcond with hne | hfinal
        · exact absurd hpol hne
        · exact hdone.trans
            ((List.greedy_prefix_iff (bundle_candidates_nodup catalog prepared)).mpr hfinal)
      · rw [if_neg hpol] at hdone
        exact hdone
    have hmap := hbundle_prefix.map ArbitrationCandidate.proposal
    rw [bundle_candidates, context_candidates_proposal] at hmap
    exact hmap

/-! A bundle of three steps on two switches. With the steps on one switch last it
is executed as a prefix; with the second step on the first one's switch that step
is skipped and the third one executed. -/

/-- A recovery bundle with one step for each target. -/
def recovery_bundle (targets : List String)
    (h : (targets.zipIdx.map fun e => toString e.2).Nodup) : PreparedAgentInvocation where
  context :=
    { invocation_id := "invocation", run_id := "run", agent_id := "recovery", deployment := "lab" }
  response :=
    { message := some "install the recovery"
      proposals := targets.zipIdx.map fun e =>
        { id := toString e.2, capability := "flow.install", target := e.1 }
      metadata := [("executionKind", .str "bounded-decision"),
        ("selectedChoice", .str "install_recovery")]
      proposal_ids_unique := by rw [map_map]; exact h }

/-- The capability of the bundle's steps. -/
def recovery_catalog : ExecutionCatalog := fun _ =>
  [{ name := "flow.install", provider := some "substrate.action", effects := ["flow"] }]

theorem bundle_executes_prefix_iff_last :
    ExecutesPrefix (recovery_bundle ["s1", "s2", "s1"] (by decide)).response.proposals
      (commit_prepared .reject recovery_catalog (recovery_bundle ["s1", "s2", "s1"] (by decide))
        (all_succeed (recovery_bundle ["s1", "s2", "s1"] (by decide)))).executed
      (all_succeed (recovery_bundle ["s1", "s2", "s1"] (by decide))).candidate :=
  (bundle_executes_prefix_iff .reject recovery_catalog
    (recovery_bundle ["s1", "s2", "s1"] (by decide)) (by decide)).mpr
      (Or.inr ⟨(bundle_candidates recovery_catalog
          (recovery_bundle ["s1", "s2", "s1"] (by decide))).take 2,
        (bundle_candidates recovery_catalog
          (recovery_bundle ["s1", "s2", "s1"] (by decide))).drop 2, by decide, by decide, by decide⟩) _

theorem bundle_skips_a_step :
    (commit_prepared .reject recovery_catalog (recovery_bundle ["s1", "s1", "s2"] (by decide))
        (all_succeed (recovery_bundle ["s1", "s1", "s2"] (by decide)))).executed.map
          (fun c => c.proposal.id) = ["0", "2"] ∧
      ¬ ∀ (policy : ArbitrationPolicy) (catalog : ExecutionCatalog)
          (prepared : PreparedAgentInvocation) (outcome : CommitOutcome),
        bounded_bundle prepared.response = true → ExecutesPrefix prepared.response.proposals
            (commit_prepared policy catalog prepared outcome).executed outcome.candidate := by
  refine ⟨by decide, fun h => ?_⟩
  have hprefix := h .reject recovery_catalog (recovery_bundle ["s1", "s1", "s2"] (by decide))
    (all_succeed (recovery_bundle ["s1", "s1", "s2"] (by decide))) (by decide)
  revert hprefix
  decide

end MininetAi
