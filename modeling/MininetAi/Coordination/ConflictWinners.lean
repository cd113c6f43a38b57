/-
The winners that conflict rejections name.

A candidate loses a conflict at three points, and each names the winner: the arbiter drops
it for an earlier candidate of the same response, `rejections` refuses it on entry to
`decision` for one that another invocation has reserved, and `admit` refuses it for one in
the history or in execution. Only `admit` can know that the winner has been admitted. At the
other two points the winner still has its own iteration of `_finish_prepared` ahead, or has
had it, and there it may fail its validation, be stopped with its bundle, lose in turn or
never come up because its invocation raises. The rejection keeps its name all the same.

So a winner is a promise: it has been admitted or it is still to come, as long as no step
gives up a candidate that is promised and no step promises one that has been given up.
-/
import Mathlib.Data.Fintype.Basic
import MininetAi.Coordination.ReportContract

set_option autoImplicit false

namespace MininetAi

open Function

open List

variable {I R : Type}

/-! ## Who is named, and who is still to come -/

/-- A decision of the loop names the winner. -/
def FinishLoop.names (l : FinishLoop) (id : String) : Bool :=
  l.decisions.any fun d => d.winner_candidate_id = some id

/-- The candidates whose iteration is still to come or not over. -/
def CommitStage.to_come : CommitStage → List ArbitrationCandidate
  | .finishing _ rest => rest
  | .admitting _ c rest => c :: rest
  | _ => []

/-- The variables of a loop that is running. -/
def CommitStage.running : CommitStage → Option FinishLoop
  | .finishing f _ | .admitting f _ _ => some f.loop
  | _ => none

def CommitState.to_come (s : CommitState I R) (i : I) : List ArbitrationCandidate :=
  ((s.invocation i).map fun inv => inv.stage.to_come).getD []

def CommitState.running (s : CommitState I R) (i : I) : Option FinishLoop :=
  (s.invocation i).bind fun inv => inv.stage.running

/-- The candidate has been admitted to execution, in whatever request. -/
def CommitState.has_admitted (s : CommitState I R) (id : String) : Prop :=
  ∃ q, ∃ c ∈ s.coordination.history q, c.candidate_id = id

/-- The candidate is still to come, in whatever invocation. -/
def CommitState.awaits (s : CommitState I R) (id : String) : Prop :=
  ∃ i, ∃ c ∈ s.to_come i, c.candidate_id = id

/-- A decision that is ready to be returned or has been collected names the winner. -/
def ReportState.returned_names (s : ReportState I R) (id : String) : Prop :=
  (∃ i, (s.returned i).any (fun l => l.names id) = true) ∨
    ∃ q, ∃ d ∈ s.collected q, d.winner_candidate_id = some id

/-! ## What a step gives up, and whom it promises -/

/-- The exception is one of invocation `i`. -/
def CommitEvent.raises [DecidableEq I] (i : I) : CommitEvent I R → Bool
  | .raise j => j = i
  | _ => false

/-- The iteration ends before `admit`. -/
def turns_down (config : CommitConfig) (inv : CommitInvocation R) (store : Entries) (f : Finishing)
    (c : ArbitrationCandidate) (engine : Option EngineRejection) (storage : Option SharedStateError) : Bool :=
  f.loop.halted || (f.rejections.lookup c.candidate_id).isSome ||
    (validate (config.access inv) (some (store_read (config.access inv) store storage)) inv.prepared c.proposal
      engine).isSome

/-- The candidates that a step of the loop of an invocation gives up: one that is turned
down or that lost in `admit`, and all that an exception leaves over. -/
def CommitStage.gives_up (config : CommitConfig) (inv : CommitInvocation R) (store : Entries) :
    CommitStage → CommitEvent I R → List ArbitrationCandidate
  | .finishing f (c :: _), .candidate _ engine storage =>
    if turns_down config inv store f c engine storage then [c] else []
  | .admitting _ c _, .lose _ => [c]
  | stage, .raise _ => stage.to_come
  | _, _ => []

def CommitState.gives_up (config : CommitConfig) (s : CommitState I R) (e : CommitEvent I R) :
    List ArbitrationCandidate :=
  ((s.invocation e.invocation).map fun inv => inv.stage.gives_up config inv s.store e).getD []

/-- The winner that an iteration takes over from the rejections on entry to `decision`. -/
def CommitStage.promises : CommitStage → CommitEvent I R → Option ArbitrationCandidate
  | .finishing f (c :: _), .candidate _ _ _ => if f.loop.halted then none else f.rejections.lookup c.candidate_id
  | _, _ => none

def CommitState.promises (s : CommitState I R) (e : CommitEvent I R) : Option ArbitrationCandidate :=
  (s.invocation e.invocation).bind fun inv => inv.stage.promises e

/-- The step gives up nobody who is named as a winner and has not been admitted, and names
nobody who has been given up. An exception takes the decisions of its own invocation along. -/
structure KeepsPromises [DecidableEq I] (config : CommitConfig) (s : ReportState I R) (e : CommitEvent I R) : Prop where
  running : ∀ c ∈ s.commit.gives_up config e, ∀ i, e.raises i = false →
    (s.commit.running i).any (fun l => l.names c.candidate_id) = true → s.commit.has_admitted c.candidate_id
  returned : ∀ c ∈ s.commit.gives_up config e, s.returned_names c.candidate_id →
    s.commit.has_admitted c.candidate_id
  promised : ∀ w ∈ s.commit.promises e, s.commit.has_admitted w.candidate_id ∨
    s.commit.awaits w.candidate_id ∧ ∀ c ∈ s.commit.gives_up config e, c.candidate_id ≠ w.candidate_id

/-- The steps of the coordinators change nothing about it. -/
def keeps_promises [DecidableEq I] (config : CommitConfig) (s : ReportState I R) : ReportEvent I R → Prop
  | .commit e => KeepsPromises config s e
  | .collect _ => True

/-! ## The decisions of a loop -/

variable {id : String} {prepared : PreparedAgentInvocation} {c : ArbitrationCandidate}
  {l : FinishLoop} {d : ArbitrationDecision}

theorem names_iff : l.names id = true ↔ ∃ d ∈ l.decisions, d.winner_candidate_id = some id := by
  simp only [FinishLoop.names, any_eq_true, decide_eq_true_eq]

/-- Marking a decision names its winner at most. -/
theorem mark_rejected_winner {decisions : List ArbitrationDecision} {candidate_id : String}
    {winner : Option String}
    (hd : d ∈ mark_rejected decisions candidate_id winner) (hid : d.winner_candidate_id = some id) :
    winner = some id ∨ ∃ d₀ ∈ decisions, d₀.winner_candidate_id = some id := by
  obtain ⟨d₀, hd₀, rfl⟩ := mem_map.mp hd
  split at hid
  · cases winner with
    | none => exact Or.inr ⟨d₀, hd₀, hid⟩
    | some w => exact Or.inl hid
  · exact Or.inr ⟨d₀, hd₀, hid⟩

theorem names_stop (h : (l.stop prepared c).names id = true) : l.names id = true := by
  obtain ⟨d, hd, hid⟩ := names_iff.mp h
  exact names_iff.mpr ((mark_rejected_winner hd hid).resolve_left fun hnone => by cases hnone)

theorem names_invalid {r : ActionResult}
    (h : (l.invalid prepared c r).names id = true) : l.names id = true := by
  obtain ⟨d, hd, hid⟩ := names_iff.mp h
  exact names_iff.mpr ((mark_rejected_winner hd hid).resolve_left fun hnone => by cases hnone)

theorem names_conflict {w : ArbitrationCandidate}
    (h : (l.conflict prepared c w).names id = true) : w.candidate_id = id ∨ l.names id = true := by
  obtain ⟨d, hd, hid⟩ := names_iff.mp h
  exact (mark_rejected_winner hd hid).imp Option.some.inj names_iff.mpr

/-- The loop of `_reject_conflicts` names winners. The induction is on the candidates still
to come. -/
theorem reject_loop_winner {l : RejectLoop} (cs : List ArbitrationCandidate)
    (h : ∀ d ∈ l.decisions, ∀ id, d.winner_candidate_id = some id → ∃ c ∈ l.winners, c.candidate_id = id) :
    ∀ d ∈ (cs.foldl RejectLoop.next l).decisions, ∀ id, d.winner_candidate_id = some id →
      ∃ c ∈ (cs.foldl RejectLoop.next l).winners, c.candidate_id = id := by
  induction cs generalizing l with
  | nil => exact h
  | cons c cs ih =>
    rw [foldl_cons]
    refine ih ?_
    unfold RejectLoop.next
    split
    · rename_i winner hwinner
      intro d hd id hid
      rcases mem_append.mp hd with hold | hnew
      · exact h d hold id hid
      · rw [mem_singleton.mp hnew] at hid
        exact ⟨winner, mem_of_find?_eq_some hwinner, Option.some.inj hid⟩
    · intro d hd id hid
      rcases mem_append.mp hd with hold | hnew
      · obtain ⟨a, ha, haid⟩ := h d hold id hid
        exact ⟨a, mem_append_left _ ha, haid⟩
      · rw [mem_singleton.mp hnew] at hid
        cases hid

/-- The winner the arbiter names is let through. -/
theorem arbitrate_winner {policy : ArbitrationPolicy} {catalog : ExecutionCatalog}
    {proposals : List (AgentContext × ActionProposal)}
    (hd : d ∈ (arbitrate policy catalog proposals).report.decisions)
    (hid : d.winner_candidate_id = some id) :
    ∃ c ∈ (arbitrate policy catalog proposals).ordered, c.candidate_id = id := by
  unfold arbitrate at hd ⊢
  split at hd
  · rename_i hpol
    rw [if_pos hpol]
    exact reject_loop_winner _ (fun d hd => absurd hd not_mem_nil) d hd id hid
  · obtain ⟨c, -, rfl⟩ := mem_map.mp hd
    cases hid

section Steps

variable [DecidableEq I] [DecidableEq R] {config : CommitConfig}

/-! ## What the monitor has let through -/

/-- Who acts is in a history, and so is the winner that somebody has lost to. -/
def StageEntered (history : R → List ArbitrationCandidate) : AdmissionStage → Prop
  | .acting c | .refused _ c => ∃ q, c ∈ history q
  | _ => True

omit [DecidableEq R] in
theorem StageEntered.mono {history history' : R → List ArbitrationCandidate}
    (hgrow : ∀ q, history q ⊆ history' q) {stage : AdmissionStage} (h : StageEntered history stage) :
    StageEntered history' stage := by
  cases stage with
  | acting c => exact h.imp fun q hc => hgrow q hc
  | refused c w => exact h.imp fun q hw => hgrow q hw
  | _ => exact trivial

omit [DecidableEq R] in
theorem StageEntered.notify {history : R → List ArbitrationCandidate} {stage : AdmissionStage}
    (h : StageEntered history stage) : StageEntered history stage.notify := by
  cases stage with
  | acting c => exact h
  | refused c w => exact h
  | _ => exact trivial

omit [DecidableEq I] in
theorem record_history (s : AdmissionState I R) (q : R) (c : ArbitrationCandidate) :
    (s.record q c).history = Function.update s.history q (s.history q ++ [c]) := rfl

omit [DecidableEq I] in
theorem subset_record (s : AdmissionState I R) (q : R) (c : ArbitrationCandidate) (q' : R) :
    s.history q' ⊆ (s.record q c).history q' := by
  rw [record_history]
  by_cases hq : q' = q
  · subst hq
    rw [update_self]
    exact subset_append_left _ _
  · rw [update_of_ne hq]
    exact Subset.refl _

omit [DecidableEq I] in
theorem mem_record (s : AdmissionState I R) (q : R) (c : ArbitrationCandidate) : c ∈ (s.record q c).history q := by
  rw [record_history, update_self]
  exact mem_append_right _ (mem_singleton_self c)

variable {policy : ArbitrationPolicy} {i : I} {inv : CommitInvocation R} {id : String}
  {e : CommitEvent I R} {s : CommitState I R} {s t : CommitState I R}

theorem AdmissionStep.history_grows {s s' : AdmissionState I R} {e : AdmissionEvent I R}
    (hs : AdmissionStep policy s e s') (q : R) : s.history q ⊆ s'.history q := by
  cases hs with
  | @admit_start i p c => exact subset_record (s.move i p _ _) p.call.request c q
  | @admit_recheck_start i p c => exact subset_record (s.move i p _ _) p.call.request c q
  | _ => exact Subset.refl _

omit [DecidableEq R] in
/-- A winner in `admit` is in the history or acts. -/
theorem admit_winner_entered {s : AdmissionState I R} (hinv : AdmissionInv policy s)
    (h : ∀ i p, s.participant i = some p → StageEntered s.history p.stage) {q : R}
    {c w : ArbitrationCandidate} (hwin : s.admission.admit_winner policy (s.history q) c = some w) :
    ∃ q, w ∈ s.history q := by
  unfold ActionAdmission.admit_winner at hwin
  split at hwin
  · rcases mem_append.mp (mem_of_find?_eq_some hwin) with hentered | hactive
    · exact ⟨q, hentered⟩
    · obtain ⟨j, hj⟩ := (hinv.lists.active.mem_iff w).mp hactive
      obtain ⟨p, hp, hentry⟩ := Option.bind_eq_some_iff.mp hj
      have hacting := h j p hp
      rw [stage_of_active_entry hentry] at hacting
      exact hacting
  · cases hwin

theorem stage_entered_step {s s' : AdmissionState I R} {e : AdmissionEvent I R}
    (hinv : AdmissionInv policy s)
    (h : ∀ i p, s.participant i = some p → StageEntered s.history p.stage)
    (hs : AdmissionStep policy s e s') :
    ∀ i p, s'.participant i = some p → StageEntered s'.history p.stage := by
  have hold : ∀ j q, s.participant j = some q → StageEntered s'.history q.stage :=
    fun j q hq => (h j q hq).mono hs.history_grows
  have hmoved : ∀ {t : AdmissionState I R} {i : I} {p : Participant I R} {stage : AdmissionStage}
      {a : ActionAdmission I}, t.participant = s.participant → StageEntered s'.history stage →
      ∀ j q, (t.move i p stage a).participant j = some q → StageEntered s'.history q.stage := by
    intro t i p stage a ht hstage
    exact forall_move (fun j q _ hq => hold j q (ht ▸ hq)) hstage
  have hnotified : ∀ {participant : I → Option (Participant I R)},
      (∀ j q, participant j = some q → StageEntered s'.history q.stage) →
      ∀ j q, notify_all participant j = some q → StageEntered s'.history q.stage := by
    intro participant hall j q hq
    obtain ⟨p, hp, rfl⟩ := Option.map_eq_some_iff.mp hq
    exact (hall j p hp).notify
  cases hs with
  | @enter_start i call => exact @hmoved (s.issue call) _ _ _ _ rfl trivial
  | @enter_wait i call => exact @hmoved (s.issue call) _ _ _ _ rfl trivial
  | recheck_start => exact hmoved rfl trivial
  | recheck_wait => exact hmoved rfl trivial
  | admit_refuse hp hstage hc hwin => exact hmoved rfl (admit_winner_entered hinv h hwin)
  | @admit_start i p c =>
    exact @hmoved s i p (.acting c) ((s.admission.wait_action c).start_action c) rfl
      ⟨p.call.request, mem_record (s.move i p _ _) p.call.request c⟩
  | admit_wait => exact hmoved rfl trivial
  | @admit_recheck_start i p c =>
    exact @hmoved s i p (.acting c) (s.admission.start_action c) rfl
      ⟨p.call.request, mem_record (s.move i p _ _) p.call.request c⟩
  | admit_recheck_wait => exact hmoved rfl trivial
  | admit_exit => exact hnotified (hmoved rfl trivial)
  | refuse_exit => exact hmoved rfl trivial
  | decision_exit => exact hnotified (hmoved rfl trivial)

theorem stage_entered {s : AdmissionState I R} (h : (admission_system policy).Reachable s) :
    ∀ i p, s.participant i = some p → StageEntered s.history p.stage := by
  refine h.invariant (P := fun s => ∀ i p, s.participant i = some p → StageEntered s.history p.stage) ?_ ?_
  · rintro s rfl i p hp
    cases hp
  · intro s e s' hreach hentered hs
    exact stage_entered_step (admission_inv hreach) hentered (admission_step policy hs)

/-! ## One step of a loop -/

section

omit [DecidableEq I] [DecidableEq R]

theorem to_come_of (hinv : s.invocation i = some inv) : s.to_come i = inv.stage.to_come := by
  rw [CommitState.to_come, hinv]
  rfl

theorem running_of (hinv : s.invocation i = some inv) : s.running i = inv.stage.running := by
  rw [CommitState.running, hinv]
  rfl

theorem gives_up_of (hinv : s.invocation e.invocation = some inv) :
    s.gives_up config e = inv.stage.gives_up config inv s.store e := by
  rw [CommitState.gives_up, hinv]
  rfl

theorem promises_of
    (hinv : s.invocation e.invocation = some inv) : s.promises e = inv.stage.promises e := by
  rw [CommitState.promises, hinv]
  rfl

theorem gives_up_raise {store : Entries} {stage : CommitStage} :
    stage.gives_up config inv store (.raise i : CommitEvent I R) = stage.to_come := by
  cases stage with
  | finishing f rest => cases rest <;> rfl
  | _ => rfl

/-- An iteration gives its candidate up, and names the winner it was refused for on entry
if any, or goes on to `admit` with it. -/
theorem candidate_stage_cases (config : CommitConfig) (inv : CommitInvocation R) (store : Entries) (f : Finishing)
    (c : ArbitrationCandidate) (rest : List ArbitrationCandidate) (i : I) (engine : Option EngineRejection)
    (storage : Option SharedStateError) : (turns_down config inv store f c engine storage = true ∧
      ∃ f', candidate_stage config inv store f c rest engine storage = .finishing f' rest ∧
        ∀ id, f'.loop.names id = true → f.loop.names id = true ∨
          ∃ w ∈ (CommitStage.finishing f (c :: rest)).promises (.candidate i engine storage : CommitEvent I R),
            w.candidate_id = id) ∨ (turns_down config inv store f c engine storage = false ∧
      ∃ f', candidate_stage config inv store f c rest engine storage = .admitting f' c rest ∧ f'.loop = f.loop) := by
  have hpromises : (CommitStage.finishing f (c :: rest)).promises (.candidate i engine storage : CommitEvent I R)
      = if f.loop.halted then none else f.rejections.lookup c.candidate_id := rfl
  rw [hpromises]
  unfold candidate_stage turns_down
  cases hhalted : f.loop.halted with
  | true => exact Or.inl ⟨rfl, _, rfl, fun id hid => Or.inl (names_stop hid)⟩
  | false =>
    cases hlookup : f.rejections.lookup c.candidate_id with
    | some w =>
      refine Or.inl ⟨rfl, _, rfl, fun id hid => ?_⟩
      exact (names_conflict hid).symm.imp_right fun hw => ⟨w, rfl, hw⟩
    | none =>
      cases hvalidate : validate (config.access inv)
          (some (store_read (config.access inv) store storage)) inv.prepared c.proposal engine with
      | some r => exact Or.inl ⟨rfl, _, rfl, fun id hid => Or.inl (names_invalid hid)⟩
      | none => exact Or.inr ⟨rfl, _, rfl, rfl⟩

end

omit [DecidableEq R] in
/-- What is to come after one invocation has moved. -/
theorem to_come_goto {s t : CommitState I R} {stage : CommitStage}
    (hinv : s.invocation i = some inv)
    (ht : t.invocation = Function.update s.invocation i (some { inv with stage := stage }))
    {P : ArbitrationCandidate → Prop} (h : ∀ c ∈ inv.stage.to_come, c ∈ stage.to_come ∨ P c) :
    ∀ j, ∀ c ∈ s.to_come j, c ∈ t.to_come j ∨ P c := by
  intro j c hc
  by_cases hj : j = i
  · subst hj
    rw [to_come_of hinv] at hc
    have hmoved : t.invocation j = some { inv with stage := stage } := by rw [ht, update_self]
    rw [to_come_of hmoved]
    exact h c hc
  · left
    have hsame : t.to_come j = s.to_come j := by
      rw [CommitState.to_come, ht, update_of_ne hj]
      rfl
    rw [hsame]
    exact hc

omit [DecidableEq R] in
/-- Who is named after one invocation has moved. -/
theorem running_goto {s t : CommitState I R} {e : CommitEvent I R} {stage : CommitStage}
    (he : e.invocation = i)
    (ht : t.invocation = Function.update s.invocation i (some { inv with stage := stage }))
    {P : Prop}
    (h : ∀ l, stage.running = some l → l.names id = true →
      (e.raises i = false ∧ (s.running i).any (fun l => l.names id) = true) ∨ P) :
    ∀ j, (t.running j).any (fun l => l.names id) = true →
      (e.raises j = false ∧ (s.running j).any (fun l => l.names id) = true) ∨ P := by
  intro j hj
  by_cases hji : j = i
  · subst hji
    have hmoved : t.invocation j = some { inv with stage := stage } := by rw [ht, update_self]
    rw [running_of hmoved] at hj
    obtain ⟨l, hl, hnames⟩ := (Option.any_eq_true _ _).mp hj
    exact h l hl hnames
  · left
    have hsame : t.running j = s.running j := by
      rw [CommitState.running, ht, update_of_ne hji]
      rfl
    refine ⟨?_, hsame ▸ hj⟩
    cases e with
    | raise k =>
      have hk : k ≠ j := fun hkj => hji (hkj.symm.trans he)
      exact decide_eq_false hk
    | _ => rfl

/-- The histories only grow. -/
theorem CommitStep.admitted_kept
    (hs : CommitStep config s e t) (h : s.has_admitted id) : t.has_admitted id := by
  have hgrow : ∀ {e : AdmissionEvent I R} {a : AdmissionState I R},
      (admission_system config.policy).step s.coordination e = some a →
      ∃ q, ∃ c ∈ a.history q, c.candidate_id = id := by
    intro e a ha
    obtain ⟨q, c, hc, hid⟩ := h
    exact ⟨q, c, (admission_step config.policy ha).history_grows q hc, hid⟩
  cases hs with
  | decide _ _ ha => exact hgrow ha
  | recheck _ _ ha => exact hgrow ha
  | admission _ _ ha => exact hgrow ha
  | execute _ _ _ ha => exact hgrow ha
  | lose _ _ _ ha => exact hgrow ha
  | raise_admitted _ ha => exact hgrow ha
  | leave _ _ ha => exact hgrow ha
  | _ => exact h

/-- The monitor's stage of an invocation, with what has been entered. -/
theorem admission_stage_entered (h : (commit_system config).Reachable s)
    {stage : AdmissionStage} (hstage : s.admission_stage i = some stage) :
    StageEntered s.coordination.history stage := by
  obtain ⟨p, hp, rfl⟩ := Option.map_eq_some_iff.mp hstage
  exact stage_entered (commit_inv h).coordination i p hp

/-- Who is to come stays so until it is given up or admitted. -/
theorem CommitStep.to_come_kept
    (hreach : (commit_system config).Reachable s) (hs : CommitStep config s e t) :
    ∀ j, ∀ c ∈ s.to_come j, c ∈ t.to_come j ∨ c ∈ s.gives_up config e ∨ s.has_admitted c.candidate_id := by
  have hnothing : ∀ {i : I} {inv : CommitInvocation R} {stage : CommitStage}, s.invocation i = some inv →
      t.invocation = Function.update s.invocation i (some { inv with stage := stage }) → inv.stage.to_come = [] →
      ∀ j, ∀ c ∈ s.to_come j, c ∈ t.to_come j ∨ c ∈ s.gives_up config e ∨ s.has_admitted c.candidate_id := by
    intro i inv stage hinv ht hempty
    refine to_come_goto hinv ht fun c hc => ?_
    rw [hempty] at hc
    cases hc
  cases hs with
  | @prepare i request agent invocation_id response hnone =>
    intro j c hc
    left
    have hj : j ≠ i := by
      rintro rfl
      rw [CommitState.to_come, hnone] at hc
      cases hc
    have hsame : (s.goto i (new_invocation config s request agent invocation_id response)
        (.validating {} response.proposals)).invocation j = s.invocation j := update_of_ne hj _ _
    rw [CommitState.to_come, hsame]
    exact hc
  | validate hinv hstage => exact hnothing hinv rfl (by rw [hstage]; rfl)
  | decide hinv hstage => exact hnothing hinv rfl (by rw [hstage]; rfl)
  | recheck => exact fun j c hc => Or.inl hc
  | @candidate i inv f c rest engine storage hinv hstage =>
    refine to_come_goto hinv rfl fun d hd => ?_
    rw [hstage] at hd
    rw [gives_up_of (e := .candidate i engine storage) hinv, hstage]
    rcases candidate_stage_cases config inv s.store f c rest i engine storage
      with ⟨hdown, f', hnext, -⟩ | ⟨-, f', hnext, -⟩
    · rw [hnext]
      rcases mem_cons.mp hd with rfl | hrest
      · right
        left
        rw [CommitStage.gives_up, if_pos hdown]
        exact mem_singleton_self d
      · exact Or.inl hrest
    · rw [hnext]
      exact Or.inl hd
  | admission => exact fun j c hc => Or.inl hc
  | @execute i inv f c rest result a hinv hstage hbody =>
    refine to_come_goto hinv rfl fun d hd => ?_
    rw [hstage] at hd
    rcases mem_cons.mp hd with rfl | hrest
    · obtain ⟨q, hentered⟩ := admission_stage_entered hreach hbody
      exact Or.inr (Or.inr ⟨q, d, hentered, rfl⟩)
    · exact Or.inl hrest
  | @lose i inv f c d w rest a hinv hstage =>
    refine to_come_goto hinv rfl fun x hx => ?_
    rw [hstage] at hx
    rcases mem_cons.mp hx with rfl | hrest
    · right
      left
      rw [gives_up_of (e := .lose i) hinv, hstage]
      exact mem_singleton_self x
    · exact Or.inl hrest
  | finish hinv hstage => exact hnothing hinv rfl (by rw [hstage]; rfl)
  | check hinv hstage => exact hnothing hinv rfl (by rw [hstage]; rfl)
  | apply_failed hinv hstage => exact hnothing hinv rfl (by rw [hstage]; rfl)
  | apply_nothing hinv hstage => exact hnothing hinv rfl (by rw [hstage]; rfl)
  | apply_commit hinv hstage => exact hnothing hinv rfl (by rw [hstage]; rfl)
  | @raise_early i inv hinv =>
    refine to_come_goto hinv rfl fun c hc => Or.inr (Or.inl ?_)
    rw [gives_up_of (e := .raise i) hinv, gives_up_raise]
    exact hc
  | @raise_body i inv hinv =>
    refine to_come_goto hinv rfl fun c hc => Or.inr (Or.inl ?_)
    rw [gives_up_of (e := .raise i) hinv, gives_up_raise]
    exact hc
  | @raise_admitted i inv a hinv =>
    refine to_come_goto hinv rfl fun c hc => Or.inr (Or.inl ?_)
    rw [gives_up_of (e := .raise i) hinv, gives_up_raise]
    exact hc
  | leave hinv hstage => exact hnothing hinv rfl (by rw [hstage]; rfl)

omit [DecidableEq I] [DecidableEq R] in
theorem finish_stage_running (inv : CommitInvocation R) (f : Finishing) : (finish_stage inv f).running = none := by
  unfold finish_stage
  simp only
  split
  · split <;> rfl
  · rfl

omit [DecidableEq I] [DecidableEq R] in
theorem check_stage_running (config : CommitConfig) (inv : CommitInvocation R) (store : Entries) (f : Finishing)
    (results : List ActionResult) (storage : Option SharedStateError) :
    (check_stage config inv store f results storage).running = none := by
  unfold check_stage
  split
  · split
    · split <;> rfl
    · rfl
  · rfl

/-- Whom a running loop names was named before, unless the step takes the winner from the
rejections on entry, from the monitor or from the arbiter. -/
theorem CommitStep.running_kept
    (hreach : (commit_system config).Reachable s) (hs : CommitStep config s e t) :
    ∀ j, (t.running j).any (fun l => l.names id) = true →
      (e.raises j = false ∧ (s.running j).any (fun l => l.names id) = true) ∨
        ((∃ w ∈ s.promises e, w.candidate_id = id) ∨ s.has_admitted id ∨ t.awaits id) := by
  have hold : ∀ {i : I} {inv : CommitInvocation R} {l : FinishLoop}, s.invocation i = some inv →
      inv.stage.running = some l → l.names id = true → (s.running i).any (fun l => l.names id) = true := by
    intro i inv l hinv hrunning hnames
    rw [running_of hinv, hrunning]
    exact hnames
  cases hs with
  | prepare => exact running_goto rfl rfl fun l hl => by cases hl
  | validate => exact running_goto rfl rfl fun l hl => by cases hl
  | @decide i inv pass a hinv =>
    refine running_goto rfl rfl fun l hl hnames => Or.inr (Or.inr (Or.inr ?_))
    rw [← Option.some.inj hl] at hnames
    obtain ⟨d, hd, hid⟩ := names_iff.mp hnames
    obtain ⟨c, hc, hcid⟩ := arbitrate_winner hd hid
    refine ⟨i, c, ?_, hcid⟩
    rw [to_come_of (update_self i _ _)]
    exact hc
  | recheck => exact fun j hj => Or.inl ⟨rfl, hj⟩
  | @candidate i inv f c rest engine storage hinv hstage =>
    refine running_goto rfl rfl fun l hl hnames => ?_
    rcases candidate_stage_cases config inv s.store f c rest i engine storage
      with ⟨-, f', hnext, hwinner⟩ | ⟨-, f', hnext, hsame⟩
    · rw [hnext] at hl
      rw [← Option.some.inj hl] at hnames
      rcases hwinner id hnames with hbefore | ⟨w, hw, hid⟩
      · exact Or.inl ⟨rfl, hold hinv (by rw [hstage]; rfl) hbefore⟩
      · refine Or.inr (Or.inl ⟨w, ?_, hid⟩)
        rw [promises_of (e := .candidate i engine storage) hinv, hstage]
        exact hw
    · rw [hnext] at hl
      rw [← Option.some.inj hl, hsame] at hnames
      exact Or.inl ⟨rfl, hold hinv (by rw [hstage]; rfl) hnames⟩
  | admission => exact fun j hj => Or.inl ⟨rfl, hj⟩
  | @execute i inv f c rest result a hinv hstage =>
    refine running_goto rfl rfl fun l hl hnames => ?_
    rw [← Option.some.inj hl] at hnames
    have hbefore : f.loop.names id = true := hnames
    exact Or.inl ⟨rfl, hold hinv (by rw [hstage]; rfl) hbefore⟩
  | @lose i inv f c d w rest a hinv hstage hbody =>
    refine running_goto rfl rfl fun l hl hnames => ?_
    rw [← Option.some.inj hl] at hnames
    rcases names_conflict hnames with hw | hbefore
    · obtain ⟨q, hentered⟩ := admission_stage_entered hreach hbody
      exact Or.inr (Or.inr (Or.inl ⟨q, w, hentered, hw⟩))
    · exact Or.inl ⟨rfl, hold hinv (by rw [hstage]; rfl) hbefore⟩
  | finish => exact running_goto rfl rfl fun l hl => by rw [finish_stage_running] at hl; cases hl
  | check => exact running_goto rfl rfl fun l hl => by rw [check_stage_running] at hl; cases hl
  | apply_failed => exact running_goto rfl rfl fun l hl => by cases hl
  | apply_nothing => exact running_goto rfl rfl fun l hl => by cases hl
  | apply_commit => exact running_goto rfl rfl fun l hl => by cases hl
  | raise_early => exact running_goto rfl rfl fun l hl => by cases hl
  | raise_body => exact running_goto rfl rfl fun l hl => by cases hl
  | raise_admitted => exact running_goto rfl rfl fun l hl => by cases hl
  | leave => exact running_goto rfl rfl fun l hl => by cases hl

omit [DecidableEq R] in
/-- What an invocation has to return is what its loop has decided. -/
theorem returned_kept {s : ReportState I R} {e : CommitEvent I R} {t : CommitState I R}
    (h : (s.committed e t).returned_names id) : s.returned_names id ∨
      ∃ i, e.raises i = false ∧ (s.commit.running i).any (fun l => l.names id) = true := by
  rcases h with ⟨j, hj⟩ | hcollected
  · cases e with
    | finish i =>
      have hreturned : (s.committed (.finish i) t).returned = Function.update s.returned i
          ((s.commit.invocation i).bind fun inv => inv.stage.finished_loop inv.prepared) := rfl
      rw [hreturned] at hj
      by_cases hji : j = i
      · subst hji
        rw [update_self] at hj
        obtain ⟨l, hl, hnames⟩ := (Option.any_eq_true _ _).mp hj
        obtain ⟨inv, hinv, hfinished⟩ := Option.bind_eq_some_iff.mp hl
        refine Or.inr ⟨j, rfl, ?_⟩
        rw [running_of hinv]
        unfold CommitStage.finished_loop at hfinished
        split at hfinished
        · rename_i f rest hstage
          rw [hstage]
          rw [← Option.some.inj hfinished] at hnames
          exact hnames
        · cases hfinished
      · rw [update_of_ne hji] at hj
        exact Or.inl (Or.inl ⟨j, hj⟩)
    | _ => exact Or.inl (Or.inl ⟨j, hj⟩)
  · exact Or.inl (Or.inr hcollected)

/-! ## The invariant -/

/-- Whoever is named as a winner has been admitted or is still to come. -/
structure WinnersPromised (s : ReportState I R) : Prop where
  running : ∀ i id, (s.commit.running i).any (fun l => l.names id) = true →
    s.commit.has_admitted id ∨ s.commit.awaits id
  returned : ∀ id, s.returned_names id → s.commit.has_admitted id ∨ s.commit.awaits id

theorem WinnersPromised.commit {s : ReportState I R} (h : WinnersPromised s)
    (hreach : (commit_system config).Reachable s.commit) {t : CommitState I R}
    (hkeeps : KeepsPromises config s e) (hs : CommitStep config s.commit e t) :
    WinnersPromised (s.committed e t) := by
  -- a promise is lost only with a candidate that is given up
  have hstill : ∀ id, (∀ c ∈ s.commit.gives_up config e, c.candidate_id = id → s.commit.has_admitted id) →
      s.commit.has_admitted id ∨ s.commit.awaits id → t.has_admitted id ∨ t.awaits id := by
    intro id hlost hpromise
    rcases hpromise with hadmitted | ⟨i, c, hc, hid⟩
    · exact Or.inl (hs.admitted_kept hadmitted)
    · rcases hs.to_come_kept hreach i c hc with hcoming | hup | hadmitted
      · exact Or.inr ⟨i, c, hcoming, hid⟩
      · exact Or.inl (hs.admitted_kept (hlost c hup hid))
      · exact Or.inl (hs.admitted_kept (hid ▸ hadmitted))
  have hnamed : ∀ id i, e.raises i = false → (s.commit.running i).any (fun l => l.names id) = true →
      t.has_admitted id ∨ t.awaits id := by
    intro id i hraises hrunning
    refine hstill id (fun c hup hid => ?_) (h.running i id hrunning)
    rw [← hid] at hrunning ⊢
    exact hkeeps.running c hup i hraises hrunning
  refine ⟨fun j id hj => ?_, fun id hid => ?_⟩
  · rcases hs.running_kept hreach j hj with ⟨hraises, hbefore⟩ | ⟨w, hw, hid⟩ | hadmitted | hawaits
    · exact hnamed id j hraises hbefore
    · rcases hkeeps.promised w hw with hadmitted | ⟨hawaits, hkept⟩
      · exact Or.inl (hs.admitted_kept (hid ▸ hadmitted))
      · exact hstill id (fun c hup hc => absurd (hc.trans hid.symm) (hkept c hup)) (Or.inr (hid ▸ hawaits))
    · exact Or.inl (hs.admitted_kept hadmitted)
    · exact Or.inr hawaits
  · rcases returned_kept hid with hbefore | ⟨i, hraises, hrunning⟩
    · refine hstill id (fun c hup hc => ?_) (h.returned id hbefore)
      rw [← hc] at hbefore ⊢
      exact hkeeps.returned c hup hbefore
    · exact hnamed id i hraises hrunning

/-- The coordinator takes decisions that were ready to be returned. -/
theorem WinnersPromised.collect {s t : ReportState I R} (h : WinnersPromised s)
    (hs : s.collect i = some t) : WinnersPromised t := by
  obtain ⟨inv, -, hs⟩ := Option.bind_eq_some_iff.mp hs
  obtain ⟨results, -, hs⟩ := Option.bind_eq_some_iff.mp hs
  obtain ⟨l, hl, hs⟩ := Option.bind_eq_some_iff.mp hs
  split at hs
  · rw [← Option.some.inj hs]
    refine ⟨h.running, fun id hid => h.returned id ?_⟩
    rcases hid with hready | ⟨q, d, hd, hwinner⟩
    · exact Or.inl hready
    · obtain ⟨v, hv, hdv⟩ := mem_flatMap.mp hd
      have hold : v ∈ s.invocations q → s.returned_names id :=
        fun hv => Or.inr ⟨q, d, mem_flatMap.mpr ⟨v, hv, hdv⟩, hwinner⟩
      by_cases hq : q = inv.request
      · subst hq
        simp only [update_self] at hv
        rcases mem_append.mp hv with hbefore | hnew
        · exact hold hbefore
        · rw [mem_singleton.mp hnew] at hdv
          refine Or.inl ⟨i, ?_⟩
          rw [hl]
          exact names_iff.mpr ⟨d, hdv, hwinner⟩
      · simp only [update_of_ne hq] at hv
        exact hold hv
  · cases hs

/-- As long as every step keeps the promises. -/
theorem winners_promised {s : ReportState I R}
    (h : (report_system config).ReachableUnder (keeps_promises config) s) : WinnersPromised s := by
  refine h.invariant ?_ ?_
  · rintro s ⟨entries, rfl⟩
    refine ⟨fun i id hi => (by cases hi), fun id hid => ?_⟩
    rcases hid with ⟨i, hi⟩ | ⟨q, d, hd, -⟩
    · cases hi
    · cases hd
  · intro s e t hreach hpromised hkeeps hs
    cases e with
    | commit e =>
      obtain ⟨u, hu, rfl⟩ := Option.map_eq_some_iff.mp hs
      exact hpromised.commit (report_commit hreach) hkeeps (commit_step hu)
    | collect i => exact hpromised.collect hs

/-- In such a run every winner that a report names has been admitted to execution or is
still to come, and once all loops are over it has been admitted. -/
theorem conflict_winners_admitted {s : ReportState I R}
    (h : (report_system config).ReachableUnder (keeps_promises config) s) (q : R) :
    ∀ d ∈ (s.report config.policy q).decisions, ∀ id, d.winner_candidate_id = some id →
      (s.commit.has_admitted id ∨ s.commit.awaits id) ∧
        ((∀ i, s.commit.to_come i = []) → s.commit.has_admitted id) := by
  intro d hd id hid
  obtain ⟨v, hv, d₀, hd₀, n, rfl⟩ := mem_report hd
  have hpromise := (winners_promised h).returned id
    (Or.inr ⟨q, d₀, mem_flatMap.mpr ⟨v, hv, hd₀⟩, hid⟩)
  refine ⟨hpromise, fun hover => hpromise.resolve_right ?_⟩
  rintro ⟨i, c, hc, -⟩
  rw [hover i] at hc
  cases hc

/-! ## Two actions on one link

Over finitely many invocations and requests the condition can be evaluated. -/

section Decide

variable [Fintype I] [Fintype R]

omit [DecidableEq I] [DecidableEq R] [Fintype I] in
instance CommitState.decidable_has_admitted (s : CommitState I R) (id : String) : Decidable (s.has_admitted id) :=
  inferInstanceAs (Decidable (∃ q, ∃ c ∈ s.coordination.history q, c.candidate_id = id))

omit [DecidableEq I] [DecidableEq R] [Fintype R] in
instance CommitState.decidable_awaits (s : CommitState I R) (id : String) : Decidable (s.awaits id) :=
  inferInstanceAs (Decidable (∃ i, ∃ c ∈ s.to_come i, c.candidate_id = id))

omit [DecidableEq I] [DecidableEq R] in
instance ReportState.decidable_returned_names (s : ReportState I R) (id : String) : Decidable (s.returned_names id) :=
  inferInstanceAs (Decidable (_ ∨ ∃ q, ∃ d ∈ s.collected q, d.winner_candidate_id = some id))

omit [DecidableEq R] [Fintype I] [Fintype R] in
theorem keeps_promises_iff (s : ReportState I R) (e : CommitEvent I R) : KeepsPromises config s e ↔
    (∀ c ∈ s.commit.gives_up config e, ∀ i, e.raises i = false →
      (s.commit.running i).any (fun l => l.names c.candidate_id) = true → s.commit.has_admitted c.candidate_id) ∧
    (∀ c ∈ s.commit.gives_up config e, s.returned_names c.candidate_id → s.commit.has_admitted c.candidate_id) ∧
    ∀ w ∈ s.commit.promises e, s.commit.has_admitted w.candidate_id ∨
      s.commit.awaits w.candidate_id ∧ ∀ c ∈ s.commit.gives_up config e, c.candidate_id ≠ w.candidate_id :=
  ⟨fun h => ⟨h.running, h.returned, h.promised⟩, fun h => ⟨h.1, h.2.1, h.2.2⟩⟩

instance decidable_keeps_promises (s : ReportState I R) : DecidablePred (keeps_promises config s)
  | .commit e => decidable_of_iff _ (keeps_promises_iff s e).symm
  | .collect _ => isTrue trivial

end Decide

end Steps

/-- The second invocation is refused for an action of the first one that is still to come. -/
def refused_ahead {I R : Type} (first second : I) (q : R) : List (ReportEvent I R) :=
  ([.prepare first q lab_agent "a" (link_response "cut"), .validate first none none, .decide first,
    .prepare second q lab_agent "b" (link_response "cut"), .validate second none none, .decide second,
    .candidate second none none, .finish second, .check second none, .leave second].map ReportEvent.commit) ++
  [.collect second] ++
  ([.candidate first none none, .admission first, .execute first (.success "run" "cut"), .finish first,
    .check first none, .apply first none, .leave first].map ReportEvent.commit) ++
  [.collect first]

theorem conflict_winners_admitted_link : ∃ s : ReportState (Fin 2) (Fin 1),
      (report_system rejecting_config).ReachableUnder (keeps_promises rejecting_config) s ∧
      (∃ d ∈ (s.report .reject 0).decisions, d.candidate_id = "b:cut" ∧ d.disposition = .reject ∧
        d.winner_candidate_id = some "a:cut") ∧
      s.commit.has_admitted "a:cut" := by
  have hrun : (((report_system rejecting_config).guarded (keeps_promises rejecting_config)).run
      { commit := { initial := ∅ } } (refused_ahead 0 1 0)).any
      (fun s : ReportState (Fin 2) (Fin 1) =>
        decide (∃ d ∈ (s.report .reject 0).decisions, d.candidate_id = "b:cut" ∧ d.disposition = .reject ∧
          d.winner_candidate_id = some "a:cut") &&
        decide (∀ i, s.commit.to_come i = [])) = true := by decide
  obtain ⟨s, hs, hend⟩ := (Option.any_eq_true _ _).mp hrun
  simp only [Bool.and_eq_true, decide_eq_true_eq] at hend
  have hreach : (report_system rejecting_config).ReachableUnder (keeps_promises rejecting_config) s :=
    System.Reachable.unguarded (System.Reachable.run (.init ⟨∅, rfl⟩) hs)
  obtain ⟨d, hd, hdid, hreject, hwinner⟩ := hend.1
  exact ⟨s, hreach, ⟨d, hd, hdid, hreject, hwinner⟩,
    (conflict_winners_admitted hreach 0 d hd "a:cut" hwinner).2 hend.2⟩

/-- A response that takes one link down twice. -/
def twice_response : AgentResponse where
  proposals := [{ id := "cut", capability := "link.down", target := "s1-s2" },
    { id := "again", capability := "link.down", target := "s1-s2" }]

/-- The engine's verdict on an action that has become invalid in the meantime. -/
def no_such_link : EngineRejection :=
  ⟨{ run_id := "run", request_id := "cut", status := .rejected,
     issue := some { code := "substrate.link.unknown", message := "link is not part of the run" },
     issue_matches_status := by decide }, by decide⟩

/-- The arbiter drops the second action for the first one, which then fails its validation. -/
def winner_turned_down {I R : Type} (i : I) (q : R) : List (ReportEvent I R) :=
  ([.prepare i q lab_agent "a" twice_response, .validate i none none, .validate i none none, .decide i,
    .candidate i (some no_such_link) none, .finish i, .check i none, .leave i].map ReportEvent.commit) ++
  [.collect i]

/-- A proposal is refused in favour of one that never runs. -/
theorem winner_never_runs :
    ¬ ∀ (config : CommitConfig) (s : ReportState (Fin 1) (Fin 1)), (report_system config).Reachable s →
      InvocationIds s.commit → (∀ i, s.commit.to_come i = []) →
      ∀ q, ∀ v ∈ s.invocations q, ∀ r ∈ v.results, ∀ d ∈ (s.report config.policy q).decisions,
        r.issue.map RuntimeIssue.code = some "coordination.conflict.rejected" → d.proposal_id = r.request_id →
        ∀ id, d.winner_candidate_id = some id → s.commit.has_admitted id := by
  have hrun : ((report_system rejecting_config).run { commit := { initial := ∅ } } (winner_turned_down 0 0)).any
      (fun s : ReportState (Fin 1) (Fin 1) =>
        decide (∃ v ∈ s.invocations 0, ∃ r ∈ v.results, ∃ d ∈ (s.report .reject 0).decisions,
          r.issue.map RuntimeIssue.code = some "coordination.conflict.rejected" ∧ d.proposal_id = r.request_id ∧
            d.winner_candidate_id = some "a:cut") &&
        decide (∀ i, s.commit.to_come i = []) && decide (¬ s.commit.has_admitted "a:cut") &&
        decide (∀ i j, s.commit.invocation_id i ≠ none → s.commit.invocation_id i = s.commit.invocation_id j → i = j) &&
        decide (∀ i, ∀ id ∈ s.commit.invocation_id i, ':' ∉ id.toList)) = true := by decide
  obtain ⟨s, hs, hend⟩ := (Option.any_eq_true _ _).mp hrun
  simp only [Bool.and_eq_true, decide_eq_true_eq] at hend
  obtain ⟨⟨⟨⟨⟨v, hv, r, hr, d, hd, hcode, hproposal, hwinner⟩, hover⟩, hnever⟩, hunique⟩, hplain⟩ := hend
  intro hclaim
  exact hnever (hclaim rejecting_config s (System.Reachable.run (.init ⟨∅, rfl⟩) hs) (.of_ids hunique hplain) hover
    0 v hv r hr d hd hcode hproposal "a:cut" hwinner)

end MininetAi
