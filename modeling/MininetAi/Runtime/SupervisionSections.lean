/-
What a locked section of the supervisor does.

A section changes one agent at most. `SectionEffect` lists the cases with the state each
starts from, the transitions it has to report and where its call goes on; what is said of
the attempts and of the report is derived from it.
-/
import MininetAi.Runtime.Supervision

set_option autoImplicit false

namespace MininetAi

variable {ι : Type}

/-! ## Transitions -/

/-- `AgentLifecycleTransition`; the time is left out. -/
structure AgentLifecycleTransition (ι : Type) where
  agent : ι
  state : AgentLifecycleState
  previous_state : Option AgentLifecycleState
  attempt : ℕ := 0
  deriving DecidableEq

/-- What `_set_state_locked` returns. -/
def SupervisedAgents.transition (s : SupervisedAgents ι) (agent : ι) (state : AgentLifecycleState) (attempt : ℕ) :
    AgentLifecycleTransition ι where
  agent := agent
  state := state
  previous_state := s.states agent
  attempt := attempt

/-- `should_restart`, of an agent whose invocation has failed once more. -/
def should_restart (policy : ι → RestartConfiguration) (s : SupervisedAgents ι) (agent : ι) : Prop :=
  (policy agent).on_failure = true ∧ s.attempts agent + 1 ≤ (policy agent).max_attempts

instance (policy : ι → RestartConfiguration) (s : SupervisedAgents ι) (agent : ι) :
    Decidable (should_restart policy s agent) := inferInstanceAs (Decidable (_ ∧ _))

/-- The transition of `_transition_from`, if it makes one. -/
def transition_made (s : SupervisedAgents ι) (agent : ι) (required state : AgentLifecycleState) :
    List (AgentLifecycleTransition ι) :=
  if s.states agent = some required then [s.transition agent state 0] else []

/-- The transitions of the locked section of `_recover`. -/
def recovery_made (policy : ι → RestartConfiguration) (s : SupervisedAgents ι) (agent : ι) :
    List (AgentLifecycleTransition ι) :=
  if s.states agent = some .running then
    s.transition agent .failed (s.attempts agent + 1) ::
      if should_restart policy s agent then
        [{ agent := agent, state := .restarting, previous_state := some .failed, attempt := s.attempts agent + 1 }]
      else []
  else []

/-- The transitions a section hands to `_emit`. -/
def transitions_made (policy : ι → RestartConfiguration) (s : SupervisedAgents ι) :
    SupervisionStage ι → List (AgentLifecycleTransition ι)
  | .start_next (agent :: _) => [s.transition agent .starting 0]
  | .start_running agent _ => [s.transition agent .running 0]
  | .stop_next (agent :: _) => [s.transition agent .stopping 0]
  | .stop_stopped agent _ => [s.transition agent .stopped 0]
  | .pause agent => transition_made s agent .running .paused
  | .resume agent => transition_made s agent .paused .running
  | .resume_next (agent :: _) => transition_made s agent .paused .running
  | .recovering x _ => recovery_made policy s x.agent
  | .sleeping x attempt => [s.transition x.agent .running attempt]
  | .start_next [] | .stop_arrived | .stop_next [] | .resume_arrived | .resume_next [] | .waiting _ | .invoking _
  | .succeeded _ | .listening _ | .returned | .raised => []

/-! ## Sections -/

/-- The agent of a recovery that is in its back-off, or on its way there. -/
def SupervisionStage.backs_off : SupervisionStage ι → Option ι
  | .sleeping x _ => some x.agent
  | .listening next => next.backs_off
  | _ => none

section Sections

variable [DecidableEq ι] {policy : ι → RestartConfiguration} {s s' : SupervisedAgents ι}

/-- The effect of a section: the stage it is at, the agents after it, where the call goes on, and the transitions. -/
inductive SectionEffect (policy : ι → RestartConfiguration) (s : SupervisedAgents ι) : SupervisionStage ι →
    SupervisedAgents ι → SupervisionStage ι → List (AgentLifecycleTransition ι) → Prop
  | idle {stage next : SupervisionStage ι}
      (hback : ∀ agent, next.backs_off = some agent → stage.backs_off = some agent) :
      SectionEffect policy s stage s next []
  | lifecycle {stage next : SupervisionStage ι} {agent : ι} {state : AgentLifecycleState}
      (hstage : stage.lifecycle = true) (hstate : state ≠ .failed ∧ state ≠ .restarting) (hback : next.backs_off = none) :
      SectionEffect policy s stage (s.set_state agent state) (.listening next) [s.transition agent state 0]
  | turned {stage next : SupervisionStage ι} {agent : ι} {required state : AgentLifecycleState}
      (hrequired : s.states agent = some required) (hrequired' : required ≠ .failed)
      (hstate : state ≠ .failed ∧ state ≠ .restarting) (hback : next.backs_off = none) :
      SectionEffect policy s stage (s.set_state agent state) (.listening next) [s.transition agent state 0]
  | reset {x : SupervisedExecution ι} (hrunning : s.states x.agent = some .running) :
      SectionEffect policy s (.succeeded x) { s with attempts := Function.update s.attempts x.agent 0 } .returned []
  | restarted {x : SupervisedExecution ι} {raising : Bool} (hrunning : s.states x.agent = some .running)
      (hrestart : should_restart policy s x.agent) :
      SectionEffect policy s (.recovering x raising)
        ((SupervisedAgents.set_state { s with attempts := Function.update s.attempts x.agent (s.attempts x.agent + 1) }
          x.agent .failed).set_state x.agent .restarting)
        (.listening (.sleeping x (s.attempts x.agent + 1))) (recovery_made policy s x.agent)
  | exhausted {x : SupervisedExecution ι} {raising : Bool} (hrunning : s.states x.agent = some .running)
      (hrestart : ¬ should_restart policy s x.agent) :
      SectionEffect policy s (.recovering x raising)
        (SupervisedAgents.set_state { s with attempts := Function.update s.attempts x.agent (s.attempts x.agent + 1) }
          x.agent .failed)
        (.listening (unrecovered raising)) (recovery_made policy s x.agent)
  | woken {x : SupervisedExecution ι} {attempt : ℕ} :
      SectionEffect policy s (.sleeping x attempt) (s.set_state x.agent .running) (.listening (.waiting x))
        [s.transition x.agent .running attempt]

theorem transition_from_effect {stage next : SupervisionStage ι} {agent : ι} {required state : AgentLifecycleState}
    (hrequired : required ≠ .failed) (hstate : state ≠ .failed ∧ state ≠ .restarting) (hback : next.backs_off = none) :
    SectionEffect policy s stage (transition_from s agent required state next).1
      (transition_from s agent required state next).2 (transition_made s agent required state) := by
  unfold transition_from transition_made
  by_cases hfrom : s.states agent = some required
  · rw [if_pos hfrom, if_pos hfrom]
    exact .turned hfrom hrequired hstate hback
  · rw [if_neg hfrom, if_neg hfrom]
    exact .idle fun other hother => by cases hother

omit [DecidableEq ι] in
theorem unrecovered_backs_off (raising : Bool) : (unrecovered raising : SupervisionStage ι).backs_off = none := by
  cases raising <;> rfl

theorem recover_section_effect (x : SupervisedExecution ι) (raising : Bool) :
    SectionEffect policy s (.recovering x raising) (recover_section policy s x raising).1
      (recover_section policy s x raising).2 (recovery_made policy s x.agent) := by
  unfold recover_section
  by_cases hrestarting : s.states x.agent = some .restarting
  · have hnot : s.states x.agent ≠ some .running := by
      rw [hrestarting]
      decide
    rw [if_pos hrestarting, recovery_made, if_neg hnot]
    exact .idle fun agent hagent => by cases hagent
  rw [if_neg hrestarting]
  by_cases hrunning : s.states x.agent = some .running
  · rw [if_neg (not_not_intro hrunning)]
    by_cases hrestart : should_restart policy s x.agent
    · have hboth : (policy x.agent).on_failure = true ∧ s.attempts x.agent + 1 ≤ (policy x.agent).max_attempts := hrestart
      simp only [if_pos hboth]
      exact .restarted hrunning hrestart
    · have hnot : ¬ ((policy x.agent).on_failure = true ∧ s.attempts x.agent + 1 ≤ (policy x.agent).max_attempts) :=
        hrestart
      simp only [if_neg hnot]
      exact .exhausted hrunning hrestart
  · rw [if_pos hrunning, recovery_made, if_neg hrunning]
    refine .idle fun agent hagent => ?_
    rw [unrecovered_backs_off] at hagent
    cases hagent

/-- The one inversion of `supervise`. The cases are the stages. -/
theorem supervise_effect {agents : List ι} {stage next : SupervisionStage ι} {answer : SupervisionAnswer}
    (h : supervise agents policy s stage answer = some (s', next)) :
    SectionEffect policy s stage s' next (transitions_made policy s stage) := by
  have hnowhere : ∀ {stage next : SupervisionStage ι}, next.backs_off = none →
      ∀ agent, next.backs_off = some agent → stage.backs_off = some agent := by
    intro stage next hnone agent hagent
    rw [hnone] at hagent
    cases hagent
  cases stage with
  | start_next rest =>
    cases rest with
    | nil =>
      cases h
      exact .idle (hnowhere rfl)
    | cons agent rest =>
      cases h
      exact .lifecycle rfl ⟨by decide, by decide⟩ rfl
  | start_running agent rest =>
    cases h
    exact .lifecycle rfl ⟨by decide, by decide⟩ rfl
  | stop_arrived =>
    cases h
    exact .idle (hnowhere rfl)
  | stop_next rest =>
    cases rest with
    | nil =>
      cases h
      exact .idle (hnowhere rfl)
    | cons agent rest =>
      cases h
      exact .lifecycle rfl ⟨by decide, by decide⟩ rfl
  | stop_stopped agent rest =>
    cases h
    exact .lifecycle rfl ⟨by decide, by decide⟩ rfl
  | pause agent =>
    have hsection : transition_from s agent .running .paused .returned = (s', next) := Option.some.inj h
    have heffect := @transition_from_effect ι _ policy s (.pause agent) .returned agent .running .paused
      (by decide) ⟨by decide, by decide⟩ rfl
    rw [hsection] at heffect
    exact heffect
  | resume agent =>
    have hsection : transition_from s agent .paused .running .returned = (s', next) := Option.some.inj h
    have heffect := @transition_from_effect ι _ policy s (.resume agent) .returned agent .paused .running
      (by decide) ⟨by decide, by decide⟩ rfl
    rw [hsection] at heffect
    exact heffect
  | resume_arrived =>
    cases h
    exact .idle (hnowhere rfl)
  | resume_next rest =>
    cases rest with
    | nil =>
      cases h
      exact .idle (hnowhere rfl)
    | cons agent rest =>
      have hsection : transition_from s agent .paused .running (.resume_next rest) = (s', next) :=
        Option.some.inj h
      have heffect := @transition_from_effect ι _ policy s (.resume_next (agent :: rest)) (.resume_next rest) agent
        .paused .running (by decide) ⟨by decide, by decide⟩ rfl
      rw [hsection] at heffect
      exact heffect
  | waiting x =>
    cases h
    refine .idle (hnowhere ?_)
    split
    · split <;> rfl
    · split <;> rfl
  | invoking x =>
    cases h
    refine .idle (hnowhere ?_)
    cases answer with
    | succeeds => rfl
    | raises => rfl
    | fails =>
      simp only
      split <;> rfl
  | succeeded x =>
    by_cases hrunning : s.states x.agent = some .running
    · simp only [supervise, if_pos hrunning] at h
      cases h
      exact .reset hrunning
    · simp only [supervise, if_neg hrunning] at h
      cases h
      exact .idle (hnowhere rfl)
  | recovering x raising =>
    have hsection : recover_section policy s x raising = (s', next) := Option.some.inj h
    have heffect := @recover_section_effect ι _ policy s x raising
    rw [hsection] at heffect
    exact heffect
  | sleeping x attempt =>
    cases h
    exact .woken
  | listening next' =>
    cases h
    refine .idle fun agent hagent => ?_
    split at hagent
    · cases hagent
    · exact hagent
  | returned => cases h
  | raised => cases h

end Sections

end MininetAi
