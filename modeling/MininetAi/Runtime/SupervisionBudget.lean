/-
The restart budget of the supervisor.

The attempts are a counter that every failure raises and a success sets back, so they are
never fewer than the restarts since then. An agent whose budget is spent is `FAILED`: what
leaves that state is a start, a stop, or a recovery that was already in its back-off when
the budget was spent. The last is not meant to happen, and does not in runs where no other
recovery of the agent is in its back-off at that moment.
-/
import MininetAi.Runtime.SupervisionSections

set_option autoImplicit false

namespace MininetAi

open Function

open Option

variable {ι κ : Type}

/-! ## Steps -/

section Steps

variable [DecidableEq ι] [DecidableEq κ] {agents : List ι} {policy : ι → RestartConfiguration} {s s' : SupervisorState ι κ}

variable {i : κ} {answer : SupervisionAnswer}

/-- A call's section, with its effect. -/
theorem supervisor_step (h : (supervisor_system agents policy).step s (.step i answer) = some s') :
    ∃ stage shared next made, s.thread i = some stage ∧ s'.agents = shared ∧
      s'.thread = Function.update s.thread i (some next) ∧ made = transitions_made policy s.agents stage ∧
      SectionEffect policy s.agents stage shared next made := by
  obtain ⟨stage, hi, h⟩ := bind_eq_some_iff.mp h
  obtain ⟨⟨shared, next⟩, hsection, h⟩ := bind_eq_some_iff.mp h
  rw [← Option.some.inj h]
  exact ⟨stage, shared, next, _, hi, rfl, rfl, rfl, supervise_effect hsection⟩

theorem supervisor_call {c : SupervisorCall ι}
    (h : (supervisor_system agents policy).step s (.call i c) = some s') :
    (s.thread i).all SupervisionStage.finished = true ∧ s'.agents = s.agents ∧
      s'.thread = Function.update s.thread i (some (c.arrive agents)) := by
  simp only [supervisor_system] at h
  split at h
  · next hfinished =>
      rw [← Option.some.inj h]
      exact ⟨hfinished, rfl, rfl⟩
  · cases h

/-- The end of a call of the listener. -/
theorem supervisor_listens {later : SupervisionStage ι} (hi : s.thread i = some (.listening later))
    (h : (supervisor_system agents policy).step s (.step i answer) = some s') :
    s'.agents = s.agents ∧ ∃ next, s'.thread = Function.update s.thread i (some next) := by
  obtain ⟨stage, hstage, h⟩ := bind_eq_some_iff.mp h
  obtain rfl : SupervisionStage.listening later = stage := Option.some.inj (hi.symm.trans hstage)
  rw [← Option.some.inj h]
  exact ⟨rfl, _, rfl⟩

end Steps

/-! ## Restarts -/

section Restarts

variable [DecidableEq ι] {agents : List ι} {policy : ι → RestartConfiguration}

/-- The stage is at the end of a successful execution of the agent. -/
def SupervisionStage.succeeds_for (agent : ι) : SupervisionStage ι → Bool
  | .succeeded x => x.agent = agent
  | _ => false

/-- The step sets the attempts of the agent back. -/
def resets (s : SupervisorState ι κ) : SupervisorEvent ι κ → ι → Bool
  | .call _ _, _ => false
  | .step i _, agent =>
    decide (s.agents.states agent = some .running) && (s.thread i).any fun stage => stage.succeeds_for agent

/-- The step moves the agent into `RESTARTING`. -/
def restarts (s s' : SupervisorState ι κ) (agent : ι) : Bool :=
  decide (s.agents.states agent ≠ some .restarting ∧ s'.agents.states agent = some .restarting)

/-- The restarts of each agent since its attempts were set back. -/
def note_restarts (s : SupervisorState ι κ) (e : SupervisorEvent ι κ) (s' : SupervisorState ι κ) (counted : ι → ℕ) :
    ι → ℕ :=
  fun agent => if resets s e agent = true then 0
    else if restarts s s' agent = true then counted agent + 1 else counted agent

/-- A supervisor whose restarts are counted. -/
def counted_supervisor [DecidableEq κ] (agents : List ι) (policy : ι → RestartConfiguration) :
    System (SupervisorState ι κ × (ι → ℕ)) (SupervisorEvent ι κ) :=
  (supervisor_system agents policy).observed (fun _ => 0) note_restarts

/-- The restarts are within the attempts, and within the budget. -/
def BudgetKept (policy : ι → RestartConfiguration) (s : SupervisorState ι κ) (counted : ι → ℕ) : Prop :=
  ∀ agent, counted agent ≤ s.agents.attempts agent ∧ counted agent ≤ (policy agent).max_attempts ∧
    ((policy agent).on_failure = false → counted agent = 0)

variable {s s' : SupervisorState ι κ} {agent : ι}

omit [DecidableEq ι] in
theorem restarts_of_same (h : s'.agents.states agent = s.agents.states agent) :
    restarts s s' agent = false := by
  refine decide_eq_false fun ⟨hnot, hrestarting⟩ => ?_
  rw [h] at hrestarting
  exact hnot hrestarting

omit [DecidableEq ι] in
theorem restarts_of_other (state : AgentLifecycleState) (h : s'.agents.states agent = some state)
    (hstate : state ≠ .restarting) : restarts s s' agent = false := by
  refine decide_eq_false fun ⟨_, hrestarting⟩ => ?_
  rw [h] at hrestarting
  exact hstate (Option.some.inj hrestarting)

/-- A step that is no restart of the agent and does not lower its attempts keeps its part of the invariant. -/
theorem budget_kept_of_quiet {e : SupervisorEvent ι κ} {counted : ι → ℕ}
    (hkept : BudgetKept policy s counted) (hquiet : restarts s s' agent = false)
    (hattempts : resets s e agent = false → s.agents.attempts agent ≤ s'.agents.attempts agent) :
    note_restarts s e s' counted agent ≤ s'.agents.attempts agent ∧
      note_restarts s e s' counted agent ≤ (policy agent).max_attempts ∧
      ((policy agent).on_failure = false → note_restarts s e s' counted agent = 0) := by
  obtain ⟨hle, hmax, hnever⟩ := hkept agent
  unfold note_restarts
  by_cases hreset : resets s e agent = true
  · rw [if_pos hreset]
    exact ⟨Nat.zero_le _, Nat.zero_le _, fun _ => rfl⟩
  · rw [if_neg hreset, hquiet, if_neg Bool.false_ne_true]
    exact ⟨hle.trans (hattempts ((Bool.not_eq_true _).mp hreset)), hmax, hnever⟩

variable [DecidableEq κ]

theorem BudgetKept.step {s s' : SupervisorState ι κ} {e : SupervisorEvent ι κ} {counted : ι → ℕ}
    (hkept : BudgetKept policy s counted) (h : (supervisor_system agents policy).step s e = some s') :
    BudgetKept policy s' (note_restarts s e s' counted) := by
  intro agent
  cases e with
  | call i c =>
    obtain ⟨-, hagents, -⟩ := supervisor_call h
    refine budget_kept_of_quiet hkept (restarts_of_same ?_) fun _ => ?_
    · rw [hagents]
    · rw [hagents]
  | step i answer =>
    obtain ⟨stage, shared, next, made, hi, hagents, -, -, heffect⟩ := supervisor_step h
    -- what a section writes into another agent's state is not seen here
    have hwritten : ∀ {other : ι} {state : AgentLifecycleState}, state ≠ .restarting →
        shared = s.agents.set_state other state →
        note_restarts s (.step i answer) s' counted agent ≤ s'.agents.attempts agent ∧
          note_restarts s (.step i answer) s' counted agent ≤ (policy agent).max_attempts ∧
          ((policy agent).on_failure = false → note_restarts s (.step i answer) s' counted agent = 0) := by
      intro other state hstate hshared
      rw [hshared] at hagents
      refine budget_kept_of_quiet hkept ?_ fun _ => ?_
      · by_cases hother : agent = other
        · refine restarts_of_other state ?_ hstate
          rw [hagents, hother, set_state_same]
        · refine restarts_of_same ?_
          rw [hagents, set_state_of_ne _ _ hother]
      · rw [hagents]
        exact le_rfl
    cases heffect with
    | idle =>
      refine budget_kept_of_quiet hkept (restarts_of_same ?_) fun _ => ?_
      · rw [hagents]
      · rw [hagents]
    | lifecycle _ hstate => exact hwritten hstate.2 rfl
    | turned _ _ hstate => exact hwritten hstate.2 rfl
    | woken => exact hwritten (by decide) rfl
    | @reset x hrunning =>
      refine budget_kept_of_quiet hkept (restarts_of_same ?_) fun hreset => ?_
      · rw [hagents]
      · have hother : agent ≠ x.agent := by
          rintro rfl
          rw [resets, hrunning, hi, any_some, SupervisionStage.succeeds_for, decide_eq_true rfl,
            decide_eq_true rfl] at hreset
          cases hreset
        rw [hagents]
        exact (update_of_ne hother ..).ge
    | @restarted x raising hrunning hrestart =>
      by_cases hother : agent = x.agent
      · have hstate : s'.agents.states agent = some .restarting := by
          rw [hagents, hother, set_state_same]
        have hbefore : s.agents.states agent ≠ some .restarting := by
          rw [hother, hrunning]
          decide
        have hcounts : restarts s s' agent = true := decide_eq_true ⟨hbefore, hstate⟩
        have hreset : resets s (.step i answer) agent = false := by
          rw [resets, hi, any_some]
          exact Bool.and_false _
        have hattempts : s'.agents.attempts agent = s.agents.attempts agent + 1 := by
          rw [hagents, hother]
          exact update_self ..
        obtain ⟨hle, -, -⟩ := hkept agent
        obtain ⟨hpolicy, hbudget⟩ := hrestart
        rw [← hother] at hpolicy hbudget
        rw [note_restarts, hreset, if_neg Bool.false_ne_true, if_pos hcounts, hattempts]
        refine ⟨by omega, by omega, fun hnever => ?_⟩
        rw [hpolicy] at hnever
        cases hnever
      · refine budget_kept_of_quiet hkept (restarts_of_same ?_) fun _ => ?_
        · rw [hagents, set_state_of_ne _ _ hother, set_state_of_ne _ _ hother]
        · rw [hagents]
          exact (update_of_ne hother ..).ge
    | @exhausted x raising hrunning hrestart =>
      by_cases hother : agent = x.agent
      · refine budget_kept_of_quiet hkept (restarts_of_other .failed ?_ ?_) fun _ => ?_
        · rw [hagents, hother, set_state_same]
        · decide
        · have hattempts : s'.agents.attempts agent = s.agents.attempts agent + 1 := by
            rw [hagents, hother]
            exact update_self ..
          omega
      · refine budget_kept_of_quiet hkept (restarts_of_same ?_) fun _ => ?_
        · rw [hagents, set_state_of_ne _ _ hother]
        · rw [hagents]
          exact (update_of_ne hother ..).ge

/-- The run lemma of the restarts. -/
theorem budget_kept {p : SupervisorState ι κ × (ι → ℕ)} (h : (counted_supervisor agents policy).Reachable p) :
    BudgetKept policy p.1 p.2 := by
  refine h.invariant (P := fun p => BudgetKept policy p.1 p.2) (fun p hinit agent => ?_)
    fun p e p' _ hkept hstep => ?_
  · rw [hinit.2]
    exact ⟨Nat.zero_le _, Nat.zero_le _, fun _ => rfl⟩
  · obtain ⟨s', hs', rfl⟩ := map_eq_some_iff.mp hstep
    exact hkept.step hs'

end Restarts

/-! ## Agents without a budget -/

section Spent

variable [DecidableEq ι] {policy : ι → RestartConfiguration}

/-- The agent whose budget the section spends: its recovery writes `FAILED` and no more. -/
def SupervisionStage.spends (policy : ι → RestartConfiguration) (s : SupervisedAgents ι) : SupervisionStage ι → Option ι
  | .recovering x _ =>
    if s.states x.agent = some .running ∧ ¬ should_restart policy s x.agent then some x.agent else none
  | _ => none

/-- When a budget is spent, no other recovery of the agent is in its back-off. -/
def SpentAlone (policy : ι → RestartConfiguration) (s : SupervisorState ι κ) : SupervisorEvent ι κ → Prop
  | .call _ _ => True
  | .step i _ => ∀ agent ∈ (s.thread i).bind (SupervisionStage.spends policy s.agents),
      ∀ j, (s.thread j).bind SupervisionStage.backs_off ≠ some agent

/-- No recovery of a failed agent is in its back-off. -/
def FailuresAlone (s : SupervisorState ι κ) : Prop :=
  ∀ agent, s.agents.states agent = some .failed → ∀ j, (s.thread j).bind SupervisionStage.backs_off ≠ some agent

variable [DecidableEq κ] {agents : List ι} {s s' : SupervisorState ι κ}

omit [DecidableEq ι] in
/-- A call whose thread does not go to the back-off of an agent, where no other thread is. -/
theorem alone_of_update {i : κ} {next : SupervisionStage ι} {agent : ι}
    (hothers : ∀ j, (s.thread j).bind SupervisionStage.backs_off ≠ some agent) (hnext : next.backs_off ≠ some agent)
    (j : κ) : (Function.update s.thread i (some next) j).bind SupervisionStage.backs_off ≠ some agent := by
  by_cases hj : j = i
  · rw [hj, update_self]
    exact hnext
  · rw [update_of_ne hj]
    exact hothers j

theorem FailuresAlone.step {e : SupervisorEvent ι κ} (halone : FailuresAlone s) (hspent : SpentAlone policy s e)
    (h : (supervisor_system agents policy).step s e = some s') : FailuresAlone s' := by
  intro agent hfailed
  cases e with
  | call i c =>
    obtain ⟨-, hagents, hthread⟩ := supervisor_call h
    rw [hagents] at hfailed
    rw [hthread]
    refine alone_of_update (halone agent hfailed) ?_
    cases c <;> exact nofun
  | step i answer =>
    obtain ⟨stage, shared, next, made, hi, hagents, hthread, -, heffect⟩ := supervisor_step h
    rw [hagents] at hfailed
    rw [hthread]
    have hwritten : ∀ {other : ι} {state : AgentLifecycleState} {next : SupervisionStage ι}, state ≠ .failed →
        (s.agents.set_state other state).states agent = some .failed → next.backs_off = none →
        ∀ j, (Function.update s.thread i (some next) j).bind SupervisionStage.backs_off ≠ some agent := by
      intro other state next hstate hafter hnone
      have hother : agent ≠ other := by
        rintro rfl
        rw [set_state_same] at hafter
        exact hstate (Option.some.inj hafter)
      rw [set_state_of_ne _ _ hother] at hafter
      refine alone_of_update (halone agent hafter) ?_
      rw [hnone]
      exact nofun
    cases heffect with
    | idle hback =>
      have hbefore := halone agent hfailed
      refine alone_of_update hbefore fun hagent => hbefore i ?_
      rw [hi]
      exact hback agent hagent
    | lifecycle _ hstate hback => exact hwritten hstate.1 hfailed hback
    | turned _ _ hstate hback => exact hwritten hstate.1 hfailed hback
    | woken => exact hwritten (by decide) hfailed rfl
    | reset => exact alone_of_update (halone agent hfailed) nofun
    | @restarted x raising hrunning hrestart =>
      by_cases hother : agent = x.agent
      · rw [hother, set_state_same] at hfailed
        cases hfailed
      · rw [set_state_of_ne _ _ hother, set_state_of_ne _ _ hother] at hfailed
        refine alone_of_update (halone agent hfailed) fun hagent => ?_
        exact hother (Option.some.inj hagent).symm
    | @exhausted x raising hrunning hrestart =>
      have hnext : (SupervisionStage.listening (unrecovered raising) : SupervisionStage ι).backs_off ≠ some agent := by
        rw [SupervisionStage.backs_off, unrecovered_backs_off]
        exact nofun
      by_cases hother : agent = x.agent
      · -- the budget of this agent is spent here
        refine alone_of_update (hspent agent ?_) hnext
        rw [hi, hother]
        exact if_pos ⟨hrunning, hrestart⟩
      · rw [set_state_of_ne _ _ hother] at hfailed
        exact alone_of_update (halone agent hfailed) hnext

/-- What leaves `FAILED` is a section of a start or a stop. -/
def FailedUntilStarted (agents : List ι) (policy : ι → RestartConfiguration) (s : SupervisorState ι κ) : Prop :=
  ∀ e s', (supervisor_system agents policy).step s e = some s' →
    ∀ agent, s.agents.states agent = some .failed → s'.agents.states agent ≠ some .failed →
      ∃ i answer stage, e = .step i answer ∧ s.thread i = some stage ∧ stage.lifecycle = true

theorem FailuresAlone.until_started (halone : FailuresAlone s) : FailedUntilStarted agents policy s := by
  intro e s' h agent hfailed hleft
  cases e with
  | call i c =>
    obtain ⟨-, hagents, -⟩ := supervisor_call h
    rw [hagents] at hleft
    exact absurd hfailed hleft
  | step i answer =>
    obtain ⟨stage, shared, next, made, hi, hagents, -, -, heffect⟩ := supervisor_step h
    rw [hagents] at hleft
    have hother : ∀ {other : ι} {state : AgentLifecycleState}, s.agents.states other = some state → state ≠ .failed →
        agent ≠ other := by
      intro other state hstate hne heq
      rw [← heq, hfailed] at hstate
      exact hne (Option.some.inj hstate).symm
    cases heffect with
    | idle => exact absurd hfailed hleft
    | lifecycle hstage => exact ⟨i, answer, stage, rfl, hi, hstage⟩
    | turned hrequired hrequired' =>
      rw [set_state_of_ne _ _ (hother hrequired hrequired')] at hleft
      exact absurd hfailed hleft
    | reset => exact absurd hfailed hleft
    | restarted hrunning =>
      have hne := hother hrunning (by decide)
      rw [set_state_of_ne _ _ hne, set_state_of_ne _ _ hne] at hleft
      exact absurd hfailed hleft
    | exhausted hrunning =>
      rw [set_state_of_ne _ _ (hother hrunning (by decide))] at hleft
      exact absurd hfailed hleft
    | @woken x attempt =>
      by_cases heq : agent = x.agent
      · refine absurd ?_ (halone agent hfailed i)
        rw [hi, heq]
        rfl
      · rw [set_state_of_ne _ _ heq] at hleft
        exact absurd hfailed hleft

/-- An execution that finds its agent failed, before its invocation or after it, ends there. -/
def FailedRefuses (agents : List ι) (policy : ι → RestartConfiguration) (s : SupervisorState ι κ) : Prop :=
  ∀ i answer s', (supervisor_system agents policy).step s (.step i answer) = some s' → ∀ x,
    s.agents.states x.agent = some .failed →
      s.thread i = some (.waiting x) ∨ (∃ raising, s.thread i = some (.recovering x raising)) →
        (s'.thread i).any SupervisionStage.finished = true

omit [DecidableEq ι] [DecidableEq κ] in
theorem unrecovered_finished (raising : Bool) : (unrecovered raising : SupervisionStage ι).finished = true := by
  cases raising <;> rfl

theorem failed_refuses (agents : List ι) (policy : ι → RestartConfiguration) (s : SupervisorState ι κ) :
    FailedRefuses agents policy s := by
  intro i answer s' h x hfailed hstage
  obtain ⟨stage, hi, h⟩ := bind_eq_some_iff.mp h
  obtain ⟨⟨shared, next⟩, hsection, h⟩ := bind_eq_some_iff.mp h
  have hthread : s'.thread i = some next := by
    rw [← Option.some.inj h]
    exact update_self ..
  rw [hthread, any_some]
  rcases hstage with hwaiting | ⟨raising, hrecovering⟩
  · obtain rfl : SupervisionStage.waiting x = stage := Option.some.inj (hwaiting.symm.trans hi)
    have hout : waits_out (s.agents.states x.agent) = false := by
      rw [hfailed]
      decide
    have hnot : s.agents.states x.agent ≠ some .running := by
      rw [hfailed]
      decide
    simp only [supervise, hout, if_neg Bool.false_ne_true, if_neg hnot] at hsection
    rw [← (Prod.mk.inj (Option.some.inj hsection)).2]
    rfl
  · obtain rfl : SupervisionStage.recovering x raising = stage := Option.some.inj (hrecovering.symm.trans hi)
    have hrestarting : s.agents.states x.agent ≠ some .restarting := by
      rw [hfailed]
      decide
    have hnot : s.agents.states x.agent ≠ some .running := by
      rw [hfailed]
      decide
    simp only [supervise, recover_section, if_neg hrestarting, if_pos hnot] at hsection
    rw [← (Prod.mk.inj (Option.some.inj hsection)).2]
    exact unrecovered_finished raising

/-- The restart budget: in every run the restarts since the last reset are within the policy, none under the policy that
never restarts, and a failed agent is not executed; and where budgets are spent alone, `FAILED` is left only through a
start or a stop. -/
theorem restart_budget (agents : List ι) (policy : ι → RestartConfiguration) :
    (∀ p : SupervisorState ι κ × (ι → ℕ), (counted_supervisor agents policy).Reachable p →
      (∀ agent, p.2 agent ≤ (policy agent).max_attempts) ∧
        (∀ agent, (policy agent).on_failure = false → p.2 agent = 0) ∧ FailedRefuses agents policy p.1) ∧
    ∀ s : SupervisorState ι κ, (supervisor_system agents policy).ReachableUnder (SpentAlone policy) s →
      FailedUntilStarted agents policy s := by
  refine ⟨fun p hp => ?_, fun s hs => ?_⟩
  · have hkept := budget_kept hp
    exact ⟨fun agent => (hkept agent).2.1, fun agent => (hkept agent).2.2, failed_refuses agents policy p.1⟩
  · have halone : FailuresAlone s := by
      refine hs.invariant (fun s hinit agent hfailed => ?_) fun s e s' _ halone hspent hstep => halone.step hspent hstep
      rw [show s = {} from hinit] at hfailed
      cases hfailed
    exact halone.until_started

instance [Fintype κ] (s : SupervisorState ι κ) : DecidablePred (SpentAlone policy s)
  | .call _ _ => by unfold SpentAlone; infer_instance
  | .step _ _ => by unfold SpentAlone; infer_instance

end Spent

/-! ## Two schedules of failures -/

/-- The agent starts, fails, restarts and fails again. -/
def budget_spent : List (SupervisorEvent Unit Bool) :=
  .call false .start :: thread_steps false (List.replicate 5 .succeeds) ++
  .call true (.execute ⟨(), false⟩) :: thread_steps true
    [.succeeds, .fails, .succeeds, .succeeds, .succeeds, .succeeds, .succeeds, .fails, .succeeds]

theorem restart_budget_spent :
    ∃ s : SupervisorState Unit Bool, (supervisor_system [()] one_restart).ReachableUnder (SpentAlone one_restart) s ∧
      s.agents.states () = some .failed ∧ s.agents.attempts () = 2 ∧ FailedUntilStarted [()] one_restart s := by
  have hrun : (((supervisor_system [()] one_restart).guarded (SpentAlone one_restart)).run {} budget_spent).any
      (fun s : SupervisorState Unit Bool =>
        decide (s.agents.states () = some .failed) && decide (s.agents.attempts () = 2)) = true := by
    decide
  obtain ⟨s, hs, hend⟩ := (any_eq_true _ _).mp hrun
  obtain ⟨hfailed, hattempts⟩ := Bool.and_eq_true_iff.mp hend
  have hreach : ((supervisor_system [()] one_restart).guarded (SpentAlone one_restart)).Reachable s :=
    System.Reachable.run (.init rfl) hs
  exact ⟨s, hreach.unguarded, of_decide_eq_true hfailed, of_decide_eq_true hattempts,
    (restart_budget [()] one_restart).2 s hreach.unguarded⟩

/-- The agent is stopped and started while a recovery is in its back-off, and then fails for good. -/
def spent_in_back_off : List (SupervisorEvent Unit Bool) :=
  stopped_in_back_off ++
  .call false .start :: thread_steps false (List.replicate 5 .succeeds) ++
  .call false (.execute ⟨(), false⟩) :: thread_steps false [.succeeds, .fails, .succeeds]

/-- The recovery then ends its back-off. -/
theorem failed_agent_may_run : ¬ ∀ s : SupervisorState Unit Bool,
    (supervisor_system [()] one_restart).Reachable s → FailedUntilStarted [()] one_restart s := by
  intro hclaim
  have hrun : ((supervisor_system [()] one_restart).run {} spent_in_back_off).any (fun s : SupervisorState Unit Bool =>
      (decide (s.agents.states () = some .failed) && (s.thread true).all (fun stage => ! stage.lifecycle)) &&
        ((supervisor_system [()] one_restart).step s (.step true .succeeds)).any
          fun s' => decide (s'.agents.states () ≠ some .failed)) = true := by
    decide
  obtain ⟨s, hs, hend⟩ := (any_eq_true _ _).mp hrun
  obtain ⟨hbefore, hafter⟩ := Bool.and_eq_true_iff.mp hend
  obtain ⟨hfailed, hother⟩ := Bool.and_eq_true_iff.mp hbefore
  obtain ⟨s', hstep, hleft⟩ := (any_eq_true _ _).mp hafter
  obtain ⟨i, answer, stage, heq, hstage, hlifecycle⟩ := hclaim s (System.Reachable.run (.init rfl) hs) _ s' hstep ()
    (of_decide_eq_true hfailed) (of_decide_eq_true hleft)
  obtain ⟨rfl, -⟩ := SupervisorEvent.step.inj heq
  rw [hstage, all_some, hlifecycle] at hother
  cases hother

end MininetAi
