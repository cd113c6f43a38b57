/-
What the report of a coordinated request promises.

For each decision of the report the invariant gives the candidate it is about and the
invocation the candidate belongs to. The history holds the candidate exactly when the
invocation has executed it, so the disposition is right and the commit order, a position
in the history, exists exactly for `execute`. Distinct decisions have distinct candidates,
so distinct positions.
-/
import MininetAi.Coordination.ReportSafety

set_option autoImplicit false

namespace MininetAi

open List

variable {I R : Type} [DecidableEq I] [DecidableEq R] {config : CommitConfig}

/-! ## Decisions and their candidates -/

/-- The candidate of a decision was admitted to execution in its request. -/
def Admitted (s : ReportState I R) (q : R) (id : String) : Prop :=
  ∃ c ∈ s.commit.coordination.history q, c.candidate_id = id

/-- Where a decision comes from. -/
structure DecisionSource (config : CommitConfig) (s : ReportState I R) (q : R) (d : ArbitrationDecision)
    (v : CoordinatedInvocation I) (inv : CommitInvocation R) (l : FinishLoop) (arbitration : ArbitrationPlan)
    (c : ArbitrationCandidate) : Prop where
  collected : v ∈ s.invocations q
  invocation : s.commit.invocation v.invocation = some inv
  request : inv.request = q
  returned : s.returned v.invocation = some l
  results : HandsBack inv.prepared l v.results
  planned : Planned config inv arbitration
  ended : LoopOver arbitration l
  candidate : c ∈ arbitration.candidates
  describes : d.Describes c
  executes : d.disposition = .execute ↔ c ∈ l.executed

variable {q : R} {d : ArbitrationDecision} {i : I} {inv : CommitInvocation R} {pass : FirstPass}
  {policy : ArbitrationPolicy} {s : ReportState I R} {s t : ReportState I R}

omit [DecidableEq I] [DecidableEq R] in
theorem ReportInv.source {s : ReportState I R} (h : ReportInv config s)
    {v : CoordinatedInvocation I} (hv : v ∈ s.invocations q) (hd : d ∈ v.decisions) :
    ∃ inv l arbitration c, DecisionSource config s q d v inv l arbitration c := by
  obtain ⟨inv, l, hinv, hq, hl, hdecisions, hresults⟩ := h.collected q v hv
  obtain ⟨inv', hinv', ⟨arbitration, hplan, hover⟩, -⟩ := h.returned v.invocation l hl
  rw [hinv] at hinv'
  obtain rfl := Option.some.inj hinv'
  rw [hdecisions] at hd
  obtain ⟨c, hc, hdescribes, hexecutes⟩ := hover.decides.decided d hd
  exact ⟨inv, l, arbitration, c, hv, hinv, hq, hl, hresults, hplan, hover, hc, hdescribes, hexecutes⟩

section Source

variable {s : ReportState I R} {q : R} {d : ArbitrationDecision} {v : CoordinatedInvocation I}
  {inv : CommitInvocation R} {l : FinishLoop} {arbitration : ArbitrationPlan} {c : ArbitrationCandidate}

section

omit [DecidableEq I] [DecidableEq R]

section

variable (h : DecisionSource config s q d v inv l arbitration c)
include h

theorem DecisionSource.own : OwnCandidate inv c := h.planned.arbitrated.own c h.candidate

/-- A history that holds the id of a decision holds its candidate, executed. -/
theorem DecisionSource.executed_of_entered
    (hinv : ReportInv config s) (hids : InvocationIds s.commit) {q' : R} {c' : ArbitrationCandidate}
    (hc' : c' ∈ s.commit.coordination.history q') (hid : c'.candidate_id = d.candidate_id) : c ∈ l.executed := by
  have harb := h.planned.arbitrated
  obtain ⟨j, other, hother, -, hcontext, hother_id⟩ := hinv.entered q' c' hc'
  have hsame : candidate_id other.prepared.context c'.proposal = candidate_id inv.prepared.context c.proposal := by
    rw [← hother_id, hid, h.describes.candidate_id, h.own.2]
  have hparts := candidate_id_parts (hids.plain j other hother) (hids.plain _ inv h.invocation) hsame
  obtain ⟨inv', hinv', hreport⟩ := hinv.returned v.invocation l h.returned
  rw [h.invocation] at hinv'
  obtain rfl := Option.some.inj hinv'
  have hexecuted : c' ∈ l.executed := by
    refine (hreport.accounted.nothing_else q' c' hc' ?_).resolve_right fun hacting => ?_
    · rw [hcontext, hparts.1]
    · rw [hinv.returned_idle h.returned] at hacting
      cases hacting
  have heq : c' = c := harb.distinct.eq_of_id (harb.ordered.subset (h.ended.executed c' hexecuted)) h.candidate
    (hid.trans h.describes.candidate_id)
  exact heq ▸ hexecuted

/-- To be admitted is to have been executed. -/
theorem DecisionSource.admitted_iff (hinv : ReportInv config s)
    (hids : InvocationIds s.commit) : Admitted s q d.candidate_id ↔ c ∈ l.executed := by
  constructor
  · rintro ⟨c', hc', hid⟩
    exact h.executed_of_entered hinv hids hc' hid
  · intro hc
    obtain ⟨inv', hinv', hreport⟩ := hinv.returned v.invocation l h.returned
    rw [h.invocation] at hinv'
    obtain rfl := Option.some.inj hinv'
    exact ⟨c, h.request ▸ hreport.accounted.admitted c hc, h.describes.candidate_id.symm⟩

/-- The result of the proposal a decision is about. -/
theorem DecisionSource.result (hout : c ∉ l.executed) :
    ∃ r ∈ v.results, r.request_id = d.proposal_id ∧ r.status ≠ .succeeded := by
  obtain ⟨ps, hps, hplan⟩ := h.planned
  have hproposal : c.proposal ∈ inv.prepared.response.proposals := by
    have hc := h.candidate
    have hcandidates : arbitration.candidates = context_candidates config.catalog inv.prepared.context ps := by
      rw [hplan]
      unfold arbitrate
      split <;> rfl
    rw [hcandidates] at hc
    have hmem : c.proposal ∈ ps := by
      rw [← context_candidates_proposal config.catalog inv.prepared.context ps]
      exact mem_map_of_mem hc
    exact hps.subset hmem
  obtain ⟨r, hr, hlookup, hrequest⟩ := h.results.result hproposal
  obtain ⟨r', hlookup', hstatus⟩ := h.ended.refused c h.candidate hout
  rw [h.own.2, hlookup] at hlookup'
  refine ⟨r, hr, ?_, Option.some.inj hlookup' ▸ hstatus⟩
  rw [hrequest, h.describes.proposal_id]

end

end

end Source

omit [DecidableEq I] [DecidableEq R] in
/-- No two decisions are about one candidate. -/
theorem ReportInv.decisions_distinct {s : ReportState I R} (h : ReportInv config s) (hids : InvocationIds s.commit)
    (q : R) : ((s.collected q).map ArbitrationDecision.candidate_id).Nodup := by
  rw [ReportState.collected, map_flatMap, nodup_flatMap]
  refine ⟨fun v hv => ?_, (pairwise_map.mp (h.collected_once q)).imp_of_mem fun {v w} hv hw hne => ?_⟩
  · obtain ⟨inv, l, hinv, -, hl, hdecisions, -⟩ := h.collected q v hv
    obtain ⟨inv', -, ⟨arbitration, hplan, hover⟩, -⟩ := h.returned v.invocation l hl
    rw [hdecisions, hover.decides.ids]
    exact hplan.arbitrated.distinct
  · refine disjoint_left.mpr fun id hid hid' => ?_
    obtain ⟨d, hd, rfl⟩ := mem_map.mp hid
    obtain ⟨d', hd', hsame⟩ := mem_map.mp hid'
    obtain ⟨inv, l, arbitration, c, hsource⟩ := h.source hv hd
    obtain ⟨inv', l', arbitration', c', hsource'⟩ := h.source hw hd'
    -- the ids of the two invocations can be read off
    have hparts : inv.prepared.context.invocation_id = inv'.prepared.context.invocation_id ∧ c.proposal.id = c'.proposal.id := by
      refine candidate_id_parts (hids.plain _ inv hsource.invocation) (hids.plain _ inv' hsource'.invocation) ?_
      rw [← hsource.own.2, ← hsource'.own.2, ← hsource.describes.candidate_id, ← hsource'.describes.candidate_id, hsame]
    exact hne (hids.unique _ _ inv inv' hsource.invocation hsource'.invocation hparts.1)

/-! ## The contract -/

/-- What holds of the report of a request. -/
structure ReportContract (config : CommitConfig) (s : ReportState I R) (q : R) : Prop where
  /-- The history is the order of admission: a step enters nothing, or behind all others the
  candidate that an invocation goes on to execute. -/
  admission_order : ∀ e t, (report_system config).step s e = some t →
    t.commit.coordination.history q = s.commit.coordination.history q ∨ ∃ i c,
      t.commit.coordination.history q = s.commit.coordination.history q ++ [c] ∧ t.commit.acting i = some c
  /-- No candidate id keeps an invocation from its decision. -/
  entry : ∀ i inv pass, s.commit.invocation i = some inv → inv.stage = .validating pass [] →
    ((report_system config).step s (.commit (.decide i))).isSome
  /-- `execute` says that the candidate was admitted. -/
  disposition : ∀ d ∈ (s.report config.policy q).decisions,
    d.disposition = .execute ↔ Admitted s q d.candidate_id
  /-- The commit order is the place in the order of admission. -/
  commit_order : ∀ d ∈ (s.report config.policy q).decisions, ∀ n, d.commit_order = some n ↔
    ((s.commit.coordination.history q)[n]?).map ArbitrationCandidate.candidate_id = some d.candidate_id
  /-- Commit orders are distinct. -/
  commit_distinct : (s.report config.policy q).decisions.Pairwise fun d e =>
    ∀ n, d.commit_order = some n → e.commit_order ≠ some n
  /-- Admission sequences are distinct. -/
  sequence_distinct : ((s.report config.policy q).decisions.map ArbitrationDecision.admission_sequence).Nodup
  /-- Who was not admitted has a result without success, and the executor was not called. -/
  refused : ∀ d ∈ (s.report config.policy q).decisions, ¬ Admitted s q d.candidate_id →
    (∃ v ∈ s.invocations q, (∃ inv, s.commit.invocation v.invocation = some inv ∧
        inv.prepared.context.invocation_id = d.invocation_id) ∧
      ∃ r ∈ v.results, r.request_id = d.proposal_id ∧ r.status ≠ .succeeded) ∧
    ∀ c ∈ s.called, c.candidate_id ≠ d.candidate_id
  /-- Under `reject` no two executed candidates conflict. -/
  compatible : config.policy = .reject → (s.report config.policy q).decisions.Pairwise fun d e =>
    d.disposition = .execute → e.disposition = .execute →
      ∃ a ∈ s.commit.coordination.history q, ∃ b ∈ s.commit.coordination.history q,
        d.Describes a ∧ e.Describes b ∧ conflicts a b = false

/-- The monitor behind a step of a commit has made one step or none; who enters brings its
own call. -/
theorem CommitStep.coordination_cases {s t : CommitState I R} {e : CommitEvent I R} (hs : CommitStep config s e t) :
    t.coordination = s.coordination ∨
      ∃ d, (admission_system config.policy).step s.coordination d = some t.coordination ∧
        ∀ i call, d = .decision_enter i call → ∃ inv pass, s.invocation i = some inv ∧
          inv.stage = .validating pass [] ∧ call = decision_call config inv pass := by
  cases hs with
  | decide hinv hstage ha =>
    refine Or.inr ⟨_, ha, fun i call hcall => ?_⟩
    cases hcall
    exact ⟨_, _, hinv, hstage, rfl⟩
  | recheck hinv he ha =>
    refine Or.inr ⟨_, ha, fun i call hcall => ?_⟩
    rw [hcall] at he
    rcases he with he | he <;> cases he
  | admission hinv hstage ha => exact Or.inr ⟨_, ha, fun _ _ hcall => by cases hcall⟩
  | execute hinv hstage hbody ha => exact Or.inr ⟨_, ha, fun _ _ hcall => by cases hcall⟩
  | lose hinv hstage hbody ha => exact Or.inr ⟨_, ha, fun _ _ hcall => by cases hcall⟩
  | raise_admitted hinv ha => exact Or.inr ⟨_, ha, fun _ _ hcall => by cases hcall⟩
  | leave hinv hstage ha => exact Or.inr ⟨_, ha, fun _ _ hcall => by cases hcall⟩
  | _ => exact Or.inl rfl

theorem collect_commit (hs : s.collect i = some t) : t.commit = s.commit := by
  obtain ⟨inv, -, hs⟩ := Option.bind_eq_some_iff.mp hs
  obtain ⟨results, -, hs⟩ := Option.bind_eq_some_iff.mp hs
  obtain ⟨l, -, hs⟩ := Option.bind_eq_some_iff.mp hs
  split at hs
  · rw [← Option.some.inj hs]
  · cases hs

omit [DecidableEq I] [DecidableEq R] in
/-- The candidates an invocation brings to its decision. -/
theorem ReportInv.arbitrated_of_validating {s : ReportState I R} (h : ReportInv config s)
    (hinv : s.commit.invocation i = some inv) (hat : inv.stage = .validating pass []) :
    Arbitrated inv.prepared.context (arbitrate config.policy config.catalog pass.admitted) := by
  have hstage := h.stages i inv hinv
  rw [hat] at hstage
  obtain ⟨-, -, -, ps, hadmitted, hps⟩ := hstage
  rw [append_nil] at hps
  rw [hadmitted]
  exact Planned.arbitrated ⟨ps, hps, rfl⟩

/-- What a step enters in a history. -/
theorem admission_order (h : (report_system config).Reachable s) {e : ReportEvent I R}
    (hs : (report_system config).step s e = some t) (q : R) :
    t.commit.coordination.history q = s.commit.coordination.history q ∨ ∃ i c,
      t.commit.coordination.history q = s.commit.coordination.history q ++ [c] ∧ t.commit.acting i = some c := by
  cases e with
  | collect i =>
    have hsame : t.commit = s.commit := collect_commit hs
    exact Or.inl (by rw [hsame])
  | commit e =>
    obtain ⟨u, hu, rfl⟩ := Option.map_eq_some_iff.mp hs
    have hcommit := commit_inv (report_commit h)
    rcases (commit_step hu).coordination_cases with hsame | ⟨d, hd, -⟩
    · exact Or.inl (congrFun (congrArg AdmissionState.history hsame) q)
    · cases (admission_step config.policy hd).enters (admission_inv hcommit.coordination) with
      | nothing hhistory => exact Or.inl (congrFun hhistory q)
      | release hhistory => exact Or.inl (congrFun hhistory q)
      | @candidate i p c _ hp hown hhistory hactive =>
        by_cases hq : q = p.call.request
        · subst hq
          exact Or.inr ⟨i, c, (congrFun hhistory _).trans (Function.update_self _ _ _),
            (congrFun hactive i).trans (Function.update_self _ _ _)⟩
        · exact Or.inl ((congrFun hhistory q).trans (Function.update_of_ne hq _ _))

/-! ## Entry

The monitor takes candidate ids to be unique over all invocations. With unique and plain
invocation ids they are, so nobody is kept from entering its decision. -/

omit [DecidableEq R] in
/-- Every id the monitor has been brought is that of a candidate of an invocation that has
entered its decision. -/
def IssuedByEntrants (s : CommitState I R) : Prop :=
  ∀ id ∈ s.coordination.issued, ∃ i inv p, s.invocation i = some inv ∧ s.coordination.participant i ≠ none ∧
    id = candidate_id inv.prepared.context p

/-- What a step of the monitor does to the ids, and that nobody is forgotten. -/
theorem AdmissionStep.issues {s s' : AdmissionState I R} {e : AdmissionEvent I R}
    (hs : AdmissionStep policy s e s') : (∀ j, s.participant j ≠ none → s'.participant j ≠ none) ∧
      ∀ id ∈ s'.issued, id ∈ s.issued ∨ ∃ i call, e = .decision_enter i call ∧ s'.participant i ≠ none ∧
        id ∈ call.candidates.map ArbitrationCandidate.candidate_id := by
  have hmove : ∀ {u : AdmissionState I R} {i : I} {p : Participant I R} {stage : AdmissionStage}
      {a : ActionAdmission I} (j : I), u.participant j ≠ none → (u.move i p stage a).participant j ≠ none := by
    intro u i p stage a j hj
    by_cases hji : j = i
    · simp only [hji, AdmissionState.move, Function.update_self]
      exact Option.some_ne_none _
    · simp only [AdmissionState.move, Function.update_of_ne hji]
      exact hj
  have hnotify : ∀ {u : AdmissionState I R} (j : I), u.participant j ≠ none → notify_all u.participant j ≠ none := by
    intro u j hj hnone
    exact hj (Option.map_eq_none_iff.mp hnone)
  have henter : ∀ {i : I} {call : DecisionCall R} {stage : AdmissionStage} {a : ActionAdmission I},
      ∀ id ∈ ((s.issue call).move i (entrant policy s i call) stage a).issued, id ∈ s.issued ∨
        ∃ i' call', AdmissionEvent.decision_enter i call = .decision_enter i' call' ∧
          ((s.issue call).move i (entrant policy s i call) stage a).participant i' ≠ none ∧
          id ∈ call'.candidates.map ArbitrationCandidate.candidate_id := by
    intro i call stage a id hid
    refine (mem_append.mp hid).imp_right fun hnew => ⟨i, call, rfl, ?_, hnew⟩
    simp only [AdmissionState.move, Function.update_self]
    exact Option.some_ne_none _
  cases hs with
  | @enter_start i call => exact ⟨fun j hj => hmove (u := s.issue call) j hj, henter⟩
  | @enter_wait i call => exact ⟨fun j hj => hmove (u := s.issue call) j hj, henter⟩
  | recheck_start => exact ⟨hmove, fun _ hid => Or.inl hid⟩
  | recheck_wait => exact ⟨hmove, fun _ hid => Or.inl hid⟩
  | admit_refuse => exact ⟨hmove, fun _ hid => Or.inl hid⟩
  | @admit_start i p c => exact ⟨fun j hj => hmove (a := (s.admission.wait_action c).start_action c) j hj,
      fun _ hid => Or.inl hid⟩
  | admit_wait => exact ⟨hmove, fun _ hid => Or.inl hid⟩
  | @admit_recheck_start i p c => exact ⟨fun j hj => hmove (a := s.admission.start_action c) j hj,
      fun _ hid => Or.inl hid⟩
  | admit_recheck_wait => exact ⟨hmove, fun _ hid => Or.inl hid⟩
  | admit_exit => exact ⟨fun j hj => hnotify j (hmove j hj), fun _ hid => Or.inl hid⟩
  | refuse_exit => exact ⟨hmove, fun _ hid => Or.inl hid⟩
  | decision_exit => exact ⟨fun j hj => hnotify j (hmove j hj), fun _ hid => Or.inl hid⟩

/-- Nobody brings an id that is not its own. -/
theorem issued_by_entrants (h : (report_system config).Reachable s) :
    InvocationIds s.commit → IssuedByEntrants s.commit := by
  refine h.invariant (P := fun s => InvocationIds s.commit → IssuedByEntrants s.commit) ?_ ?_
  · rintro s ⟨entries, rfl⟩ - id hid
    exact absurd hid not_mem_nil
  · intro s e t hreach ih hs hids
    cases e with
    | collect i =>
      have hsame : t.commit = s.commit := collect_commit hs
      rw [hsame] at hids ⊢
      exact ih hids
    | commit e =>
      obtain ⟨u, hu, rfl⟩ := Option.map_eq_some_iff.mp hs
      have hstep := commit_step hu
      have hbefore := hids.before hstep
      have hinv := report_inv hreach hbefore
      have hold : ∀ id ∈ s.commit.coordination.issued, (∀ j, s.commit.coordination.participant j ≠ none →
          u.coordination.participant j ≠ none) → ∃ i inv p, u.invocation i = some inv ∧
            u.coordination.participant i ≠ none ∧ id = candidate_id inv.prepared.context p := by
        intro id hid hknown
        obtain ⟨i, inv, p, hinv, hpart, hown⟩ := ih hbefore id hid
        obtain ⟨inv', hinv', hprepared⟩ := hstep.prepared_kept hinv
        exact ⟨i, inv', p, hinv', hknown i hpart, hprepared ▸ hown⟩
      intro id hid
      rcases hstep.coordination_cases with hsame | ⟨d, hd, hcall⟩
      · have hissued : id ∈ s.commit.coordination.issued := hsame ▸ hid
        exact hold id hissued fun j hj => hsame ▸ hj
      · obtain ⟨hknown, hissues⟩ := (admission_step config.policy hd).issues
        rcases hissues id hid with hissued | ⟨i, call, rfl, hpart, hmem⟩
        · exact hold id hissued hknown
        · obtain ⟨inv, pass, hinvocation, hat, rfl⟩ := hcall i call rfl
          obtain ⟨inv', hinv', hprepared⟩ := hstep.prepared_kept hinvocation
          obtain ⟨c, hc, rfl⟩ := mem_map.mp hmem
          refine ⟨i, inv', c.proposal, hinv', hpart, ?_⟩
          rw [hprepared]
          exact ((hinv.arbitrated_of_validating hinvocation hat).own c
            ((hinv.arbitrated_of_validating hinvocation hat).ordered.subset hc)).2

/-- An invocation behind its first validation enters its decision. -/
theorem decide_enabled (h : (report_system config).Reachable s)
    (hids : InvocationIds s.commit) (hinv : s.commit.invocation i = some inv)
    (hat : inv.stage = .validating pass []) :
    ((report_system config).step s (.commit (.decide i))).isSome := by
  have hreport := report_inv h hids
  have harb := hreport.arbitrated_of_validating hinv hat
  have hcommit := commit_inv (report_commit h)
  have hstage := hcommit.stages i inv hinv
  rw [hat] at hstage
  have hguard : (s.commit.coordination.participant i).isNone ∧
      ((decision_call config inv pass).candidates.map ArbitrationCandidate.candidate_id).Nodup ∧
        ∀ c ∈ (decision_call config inv pass).candidates, c.candidate_id ∉ s.commit.coordination.issued := by
    refine ⟨by rw [hstage.1]; rfl, harb.ordered_ids, fun c hc hissued => ?_⟩
    obtain ⟨j, other, p, hother, hpart, hid⟩ := issued_by_entrants h hids _ hissued
    rw [(harb.own c (harb.ordered.subset hc)).2] at hid
    have hparts := candidate_id_parts (hids.plain i inv hinv) (hids.plain j other hother) hid
    have hji : i = j := hids.unique i j inv other hinv hother hparts.1
    exact hpart (hji ▸ hstage.1)
  simp only [report_system, commit_system, CommitEvent.invocation, hinv, commit_section, hat, Option.isSome_map,
    CommitState.coordinate, admission_system, decision_enter, if_pos hguard, Option.isSome_some]

/-! ## The contract is kept -/

section

omit [DecidableEq I] [DecidableEq R]

/-- A decision of the report is one that was collected, numbered. -/
theorem mem_report (h : d ∈ (s.report policy q).decisions) :
    ∃ v ∈ s.invocations q, ∃ d₀ ∈ v.decisions, ∃ n, d = numbered (s.commit.coordination.history q) (d₀, n) := by
  obtain ⟨⟨d₀, n⟩, hentry, rfl⟩ := mem_map.mp h
  obtain ⟨v, hv, hd⟩ := mem_flatMap.mp (fst_mem_of_mem_zipIdx hentry)
  exact ⟨v, hv, d₀, hd, n, rfl⟩

theorem report_ids (policy : ArbitrationPolicy) (s : ReportState I R) (q : R) :
    (s.report policy q).decisions.map ArbitrationDecision.candidate_id
      = (s.collected q).map ArbitrationDecision.candidate_id := by
  have hid : ArbitrationDecision.candidate_id ∘ numbered (s.commit.coordination.history q)
      = ArbitrationDecision.candidate_id ∘ Prod.fst := rfl
  rw [ReportState.report, map_map, hid, ← map_map, zipIdx_map_fst]

theorem report_sequences (policy : ArbitrationPolicy) (s : ReportState I R) (q : R) :
    (s.report policy q).decisions.map ArbitrationDecision.admission_sequence
      = range' 0 (s.collected q).length := by
  have hsequence : ArbitrationDecision.admission_sequence ∘ numbered (s.commit.coordination.history q)
      = Prod.snd := rfl
  rw [ReportState.report, map_map, hsequence, zipIdx_map_snd]

end

/-- In a history of distinct ids the first place of an id is its only one. -/
theorem place_iff {history : List ArbitrationCandidate} (h : DistinctIds history) (id : String) (n : ℕ) :
    history.findIdx? (fun c => c.candidate_id = id) = some n ↔
      (history[n]?).map ArbitrationCandidate.candidate_id = some id := by
  rw [findIdx?_eq_some_iff_getElem]
  constructor
  · rintro ⟨hn, hid, -⟩
    rw [getElem?_eq_getElem hn, Option.map_some, of_decide_eq_true hid]
  · intro hplace
    obtain ⟨c, hc, hid⟩ := Option.map_eq_some_iff.mp hplace
    obtain ⟨hn, hcn⟩ := List.getElem?_eq_some_iff.mp hc
    refine ⟨hn, by rw [hcn, hid]; exact decide_eq_true rfl, fun k hk => ?_⟩
    rw [decide_eq_true_eq]
    intro hid'
    have hkn : k < history.length := hk.trans hn
    have hsame : (history.map ArbitrationCandidate.candidate_id)[k]?
        = (history.map ArbitrationCandidate.candidate_id)[n]? := by
      rw [getElem?_map, getElem?_map, hplace, getElem?_eq_getElem hkn, Option.map_some, hid']
    have hplaces : k = n := (getElem?_inj (by rw [length_map]; exact hkn) h).mp hsame
    omega

/-- The report of every request, in every state of every run, tells what happened. -/
theorem report_tells_what_happened {s : ReportState I R} (h : (report_system config).Reachable s)
    (hids : InvocationIds s.commit) (q : R) : ReportContract config s q := by
  have hinv := report_inv h hids
  have hcontract := admission_contract (commit_inv (report_commit h)).coordination
  have hdisposition : ∀ d ∈ (s.report config.policy q).decisions,
      d.disposition = .execute ↔ Admitted s q d.candidate_id := by
    intro d hd
    obtain ⟨v, hv, d₀, hd₀, n, rfl⟩ := mem_report hd
    obtain ⟨inv, l, arbitration, c, hsource⟩ := hinv.source hv hd₀
    exact hsource.executes.trans (hsource.admitted_iff hinv hids).symm
  have hdistinct : ((s.report config.policy q).decisions.map ArbitrationDecision.candidate_id).Nodup := by
    rw [report_ids]
    exact hinv.decisions_distinct hids q
  have horder : ∀ d ∈ (s.report config.policy q).decisions, ∀ n, d.commit_order = some n ↔
      ((s.commit.coordination.history q)[n]?).map ArbitrationCandidate.candidate_id = some d.candidate_id := by
    intro d hd n
    have hadmitted := hdisposition d hd
    obtain ⟨v, hv, d₀, hd₀, m, rfl⟩ := mem_report hd
    rw [← place_iff (hinv.entered_once q)]
    by_cases hexecute : d₀.disposition = .execute
    · simp only [numbered, if_pos hexecute]
    · -- nothing in the history has the id
      have hnone : (s.commit.coordination.history q).findIdx? (fun c => c.candidate_id = d₀.candidate_id) = none := by
        rw [findIdx?_eq_none_iff]
        intro c hc
        rw [decide_eq_false_iff_not]
        exact fun hid => hexecute (hadmitted.mpr ⟨c, hc, hid⟩)
      simp only [numbered, if_neg hexecute, hnone]
  have hexecuted : ∀ d ∈ (s.report config.policy q).decisions, d.disposition = .execute →
      ∃ c ∈ s.commit.coordination.history q, d.Describes c := by
    intro d hd hexecute
    obtain ⟨v, hv, d₀, hd₀, m, rfl⟩ := mem_report hd
    obtain ⟨inv, l, arbitration, c, hsource⟩ := hinv.source hv hd₀
    obtain ⟨inv', hinv', hreport⟩ := hinv.returned v.invocation l hsource.returned
    rw [hsource.invocation] at hinv'
    obtain rfl := Option.some.inj hinv'
    have hentered := hreport.accounted.admitted c (hsource.executes.mp hexecute)
    have hdescribes := hsource.describes
    exact ⟨c, hsource.request ▸ hentered, ⟨hdescribes.1, hdescribes.2, hdescribes.3, hdescribes.4, hdescribes.5,
      hdescribes.6, hdescribes.7, hdescribes.8⟩⟩
  refine ⟨fun e t hs => admission_order h hs q, fun _ _ _ => decide_enabled h hids, hdisposition, horder, ?_, ?_, ?_, ?_⟩
  · refine (pairwise_map.mp hdistinct).imp_of_mem fun {d e} hd he hne n hdn hen => hne ?_
    have hplaces := ((horder d hd n).mp hdn).symm.trans ((horder e he n).mp hen)
    exact Option.some.inj hplaces
  · rw [report_sequences]
    exact nodup_range'
  · intro d hd hout
    obtain ⟨v, hv, d₀, hd₀, n, rfl⟩ := mem_report hd
    obtain ⟨inv, l, arbitration, c, hsource⟩ := hinv.source hv hd₀
    have hunexecuted : c ∉ l.executed := fun hc => hout ((hsource.admitted_iff hinv hids).mpr hc)
    refine ⟨⟨v, hv, ⟨inv, hsource.invocation, ?_⟩, hsource.result hunexecuted⟩, fun c' hc' hid => ?_⟩
    · rw [← hsource.own.1]
      exact hsource.describes.invocation_id.symm
    · obtain ⟨q', hq'⟩ := hinv.called c' hc'
      exact hunexecuted (hsource.executed_of_entered hinv hids hq' hid)
  · intro hpol
    refine (pairwise_map.mp hdistinct).imp_of_mem fun {d e} hd he hne hdx hex => ?_
    obtain ⟨a, ha, hda⟩ := hexecuted d hd hdx
    obtain ⟨b, hb, heb⟩ := hexecuted e he hex
    have hab : a ≠ b := by
      rintro rfl
      exact hne (hda.candidate_id.trans heb.candidate_id.symm)
    exact ⟨a, ha, b, hb, hda, heb, (hcontract.history hpol q).forall ha hb hab⟩

/-! ## Two agents on one link

Under `reject` the second one is refused while the first one executes its action, and the
coordinator collects the second one first. -/

/-- The id of an invocation. -/
def CommitState.invocation_id (s : CommitState I R) (i : I) : Option String :=
  (s.invocation i).map fun inv => inv.prepared.context.invocation_id

omit [DecidableEq I] [DecidableEq R] in
theorem InvocationIds.of_ids {s : CommitState I R}
    (hunique : ∀ i j, s.invocation_id i ≠ none → s.invocation_id i = s.invocation_id j → i = j)
    (hplain : ∀ i, ∀ id ∈ s.invocation_id i, ':' ∉ id.toList) : InvocationIds s := by
  have hid : ∀ {i inv}, s.invocation i = some inv → s.invocation_id i = some inv.prepared.context.invocation_id := by
    intro i inv hinv
    rw [CommitState.invocation_id, hinv, Option.map_some]
  refine ⟨fun i j inv inv' hi hj heq => hunique i j ?_ ?_, fun i inv hi => hplain i _ (hid hi)⟩
  · rw [hid hi]
    exact Option.some_ne_none _
  · rw [hid hi, hid hj, heq]

/-- The configuration of the lab under `reject`. -/
def rejecting_config : CommitConfig := { lab_config with policy := .reject }

/-- A response that takes one link down. -/
def link_response (id : String) : AgentResponse where
  proposals := [{ id := id, capability := "link.down", target := "s1-s2" }]

/-- The first one is admitted, the second one comes and leaves, the first one goes on. -/
def refused_meanwhile (first second : I) : List (ReportEvent I ℕ) :=
  ([.prepare first 0 lab_agent "a" (link_response "cut"), .validate first none none, .decide first,
    .candidate first none none, .admission first, .prepare second 0 lab_agent "b" (link_response "cut"),
    .validate second none none, .decide second, .candidate second none none, .finish second, .check second none,
    .leave second].map ReportEvent.commit) ++
  [.collect second] ++
  ([.execute first (.success "run" "cut"), .finish first, .check first none, .apply first none,
    .leave first].map ReportEvent.commit) ++
  [.collect first]

theorem report_tells_what_happened_link : ∃ s : ReportState (Fin 2) ℕ,
      (report_system rejecting_config).run { commit := { initial := ∅ } } (refused_meanwhile 0 1) = some s ∧
      ((s.report .reject 0).decisions.map fun d => (d.candidate_id, d.disposition, d.commit_order))
        = [("b:cut", .reject, none), ("a:cut", .execute, some 0)] ∧
      ReportContract rejecting_config s 0 := by
  have hrun : ((report_system rejecting_config).run { commit := { initial := ∅ } } (refused_meanwhile 0 1)).any
      (fun s : ReportState (Fin 2) ℕ =>
        decide (((s.report .reject 0).decisions.map fun d => (d.candidate_id, d.disposition, d.commit_order))
          = [("b:cut", Disposition.reject, none), ("a:cut", .execute, some 0)]) &&
        decide (∀ i j, s.commit.invocation_id i ≠ none → s.commit.invocation_id i = s.commit.invocation_id j → i = j) &&
        decide (∀ i, ∀ id ∈ s.commit.invocation_id i, ':' ∉ id.toList)) = true := by decide
  obtain ⟨s, hs, hend⟩ := (Option.any_eq_true _ _).mp hrun
  simp only [Bool.and_eq_true, decide_eq_true_eq] at hend
  exact ⟨s, hs, hend.1.1, report_tells_what_happened (System.Reachable.run (.init ⟨∅, rfl⟩) hs)
    (.of_ids hend.1.2 hend.2) 0⟩

end MininetAi
