/-
The agent supervisor (`mininet_ai/runtime/supervision.py`).

Every operation is a few sections under `_condition`, with the listener called between
them. Any number of threads start, pause, resume, stop and execute; what the listener and
the invocations do is the environment's.

A recovery leaves the lock for its back-off and then writes `RUNNING`, whatever has
happened to the agent meanwhile. An agent stays stopped, therefore, in the runs where no
recovery comes back to a stopped agent and no start or stop overlaps another one.
-/
import MininetAi.Lib.Transition
import Mathlib.Data.Fintype.Basic

set_option autoImplicit false

namespace MininetAi

open Function

variable {ι κ : Type}

/-! ## Calls -/

inductive AgentLifecycleState where
  | starting
  | running
  | paused
  | stopping
  | stopped
  | restarting
  | failed
  deriving DecidableEq

/-- `RestartConfiguration`; `on_failure` says which of the two policies it has. -/
structure RestartConfiguration where
  on_failure : Bool := false
  max_attempts : ℕ := 0

/-- A call of `execute`. -/
structure SupervisedExecution (ι : Type) where
  agent : ι
  continue_after_failure : Bool := false

inductive SupervisorCall (ι : Type) where
  | start
  | stop
  | pause (agent : ι)
  | resume (agent : ι)
  | resume_paused
  | execute (x : SupervisedExecution ι)

/-- Where a call is. -/
inductive SupervisionStage (ι : Type) where
  | start_next (rest : List ι)
  | start_running (agent : ι) (rest : List ι)
  | stop_arrived
  | stop_next (rest : List ι)
  | stop_stopped (agent : ι) (rest : List ι)
  | pause (agent : ι)
  | resume (agent : ι)
  | resume_arrived
  | resume_next (rest : List ι)
  | waiting (x : SupervisedExecution ι)
  | invoking (x : SupervisedExecution ι)
  | succeeded (x : SupervisedExecution ι)
  /-- In `_recover`; `raising` says that the invocation has raised. -/
  | recovering (x : SupervisedExecution ι) (raising : Bool)
  /-- In the back-off. -/
  | sleeping (x : SupervisedExecution ι) (attempt : ℕ)
  /-- In `_emit`, before the rest of the call. -/
  | listening (next : SupervisionStage ι)
  | returned
  | raised

/-- What the environment answers: the listener, `before_wait` and the invocation. -/
inductive SupervisionAnswer where
  | succeeds
  | fails
  | raises
  deriving DecidableEq

/-- The state under `_condition`. -/
structure SupervisedAgents (ι : Type) where
  states : ι → Option AgentLifecycleState := fun _ => none
  attempts : ι → ℕ := fun _ => 0

section Sections

variable [DecidableEq ι]

/-- `_set_state_locked`. -/
def SupervisedAgents.set_state (s : SupervisedAgents ι) (agent : ι) (state : AgentLifecycleState) :
    SupervisedAgents ι :=
  { s with states := update s.states agent (some state) }

/-- `_transition_from`, with what follows. -/
def transition_from (s : SupervisedAgents ι) (agent : ι) (required state : AgentLifecycleState)
    (next : SupervisionStage ι) : SupervisedAgents ι × SupervisionStage ι :=
  if s.states agent = some required then (s.set_state agent state, .listening next)
  else (s, .raised)

/-- The end of `execute` after a recovery that was not possible. -/
def unrecovered (raising : Bool) : SupervisionStage ι :=
  if raising = true then .raised else .returned

/-- The locked section of `_recover`. -/
def recover_section (policy : ι → RestartConfiguration) (s : SupervisedAgents ι)
    (x : SupervisedExecution ι) (raising : Bool) : SupervisedAgents ι × SupervisionStage ι :=
  if s.states x.agent = some .restarting then (s, .recovering x raising)
  else if s.states x.agent ≠ some .running then (s, unrecovered raising)
  else
    let attempt := s.attempts x.agent + 1
    let s' := { s with attempts := update s.attempts x.agent attempt }
    if (policy x.agent).on_failure = true ∧ attempt ≤ (policy x.agent).max_attempts then
      ((s'.set_state x.agent .failed).set_state x.agent .restarting, .listening (.sleeping x attempt))
    else (s'.set_state x.agent .failed, .listening (unrecovered raising))

/-- The states `wait_until_running` waits out. -/
def waits_out (state : Option AgentLifecycleState) : Bool :=
  state = some .starting ∨ state = some .paused ∨ state = some .restarting

/-- One section of a call. -/
def supervise (agents : List ι) (policy : ι → RestartConfiguration) (s : SupervisedAgents ι) :
    SupervisionStage ι → SupervisionAnswer → Option (SupervisedAgents ι × SupervisionStage ι)
  | .start_next [], _ => some (s, .returned)
  | .start_next (agent :: rest), _ =>
    some (s.set_state agent .starting, .listening (.start_running agent rest))
  | .start_running agent rest, _ =>
    some (s.set_state agent .running, .listening (.start_next rest))
  | .stop_arrived, _ =>
    some (s, .stop_next (agents.filter fun agent => s.states agent ≠ some .stopped))
  | .stop_next [], _ => some (s, .returned)
  | .stop_next (agent :: rest), _ =>
    some (s.set_state agent .stopping, .listening (.stop_stopped agent rest))
  | .stop_stopped agent rest, _ =>
    some (s.set_state agent .stopped, .listening (.stop_next rest))
  | .pause agent, _ => some (transition_from s agent .running .paused .returned)
  | .resume agent, _ => some (transition_from s agent .paused .running .returned)
  | .resume_arrived, _ =>
    some (s, .resume_next (agents.filter fun agent => s.states agent = some .paused))
  | .resume_next [], _ => some (s, .returned)
  | .resume_next (agent :: rest), _ =>
    some (transition_from s agent .paused .running (.resume_next rest))
  | .waiting x, answer =>
    some (s, if waits_out (s.states x.agent) = true then
        (if answer = .raises then .raised else .waiting x)
      else if s.states x.agent = some .running then .invoking x
      else .raised)
  | .invoking x, answer => some (s, match answer with
      | .succeeds => .succeeded x
      | .fails => if x.continue_after_failure = true then .returned else .recovering x false
      | .raises => .recovering x true)
  | .succeeded x, _ =>
    some (if s.states x.agent = some .running then
        { s with attempts := update s.attempts x.agent 0 }
      else s, .returned)
  | .recovering x raising, _ => some (recover_section policy s x raising)
  | .sleeping x _, _ => some (s.set_state x.agent .running, .listening (.waiting x))
  | .listening next, answer => some (s, if answer = .raises then .raised else next)
  | .returned, _ => none
  | .raised, _ => none

end Sections

/-! ## The system -/

/-- The first stage of a call. -/
def SupervisorCall.arrive (agents : List ι) : SupervisorCall ι → SupervisionStage ι
  | .start => .start_next agents
  | .stop => .stop_arrived
  | .pause agent => .pause agent
  | .resume agent => .resume agent
  | .resume_paused => .resume_arrived
  | .execute x => .waiting x

/-- The call is over. -/
def SupervisionStage.finished : SupervisionStage ι → Bool
  | .returned | .raised => true
  | _ => false

/-- The next section of the call returns from `stop`. -/
def SupervisionStage.stops : SupervisionStage ι → Bool
  | .stop_next [] => true
  | _ => false

/-- The agents, the calls on them, and `quiet`: a stop has returned and no start has been
called since. -/
structure SupervisorState (ι κ : Type) where
  agents : SupervisedAgents ι := {}
  thread : κ → Option (SupervisionStage ι) := fun _ => none
  quiet : Bool := false

inductive SupervisorEvent (ι κ : Type) where
  | call (i : κ) (c : SupervisorCall ι)
  | step (i : κ) (answer : SupervisionAnswer)

/-- The call starts or stops the agents. -/
def SupervisorCall.lifecycle : SupervisorCall ι → Bool
  | .start | .stop => true
  | _ => false

/-- A start is the call. -/
def SupervisorCall.starts : SupervisorCall ι → Bool
  | .start => true
  | _ => false

/-- A supervisor under any calls. -/
def supervisor_system [DecidableEq ι] [DecidableEq κ] (agents : List ι)
    (policy : ι → RestartConfiguration) : System (SupervisorState ι κ) (SupervisorEvent ι κ) where
  init s := s = {}
  step s
    | .call i c =>
      if (s.thread i).all SupervisionStage.finished = true then
        some
          { s with
            thread := update s.thread i (some (c.arrive agents))
            quiet := s.quiet && ! c.starts }
      else none
    | .step i answer => do
        let stage ← s.thread i
        let (shared, next) ← supervise agents policy s.agents stage answer
        some
          { agents := shared
            thread := update s.thread i (some next)
            quiet := s.quiet || stage.stops }

/-! ## UndisturbedLifecycle runs -/

/-- A start or a stop that has not ended. -/
def SupervisionStage.lifecycle : SupervisionStage ι → Bool
  | .start_next _ | .start_running _ _ | .stop_arrived | .stop_next _ | .stop_stopped _ _ => true
  | .listening next => next.lifecycle
  | _ => false

/-- The agent of a recovery in its back-off. -/
def SupervisionStage.sleeper : SupervisionStage ι → Option ι
  | .sleeping x _ => some x.agent
  | _ => none

/-- No start or stop is called while another one is under way, and no recovery comes out of
its back-off to a stopped agent. -/
def UndisturbedLifecycle (s : SupervisorState ι κ) : SupervisorEvent ι κ → Prop
  | .call _ c => c.lifecycle = true → ∀ i, (s.thread i).any SupervisionStage.lifecycle = false
  | .step i _ => ((s.thread i).bind SupervisionStage.sleeper).all
      (fun agent => s.agents.states agent ≠ some .stopped) = true

/-- A start that has not ended. -/
def SupervisionStage.starting : SupervisionStage ι → Bool
  | .start_next _ | .start_running _ _ => true
  | .listening next => next.starting
  | _ => false

/-- The agents a stop has still to stop. -/
def SupervisionStage.unstopped : SupervisionStage ι → Option (List ι)
  | .stop_next rest => some rest
  | .stop_stopped agent rest => some (agent :: rest)
  | .listening next => next.unstopped
  | _ => none

/-- All agents are stopped but those of a list. -/
def StoppedBut (agents : List ι) (s : SupervisedAgents ι) (rest : List ι) : Prop :=
  ∀ agent ∈ agents, agent ∉ rest → s.states agent = some .stopped

/-- What undisturbed runs keep. -/
structure Settled (agents : List ι) (s : SupervisorState ι κ) : Prop where
  one : ∀ i j stage stage', s.thread i = some stage → s.thread j = some stage' →
    stage.lifecycle = true → stage'.lifecycle = true → i = j
  progress : ∀ i stage rest, s.thread i = some stage → stage.unstopped = some rest →
    StoppedBut agents s.agents rest
  stopped : s.quiet = true → StoppedBut agents s.agents []
  no_start : s.quiet = true → ∀ i stage, s.thread i = some stage → stage.starting = false
  nothing_left : s.quiet = true → ∀ i stage rest, s.thread i = some stage →
    stage.unstopped = some rest → rest = []

/-! ## Steps -/

section Steps

variable [DecidableEq ι]

@[simp] theorem set_state_same (s : SupervisedAgents ι) (agent : ι) (state : AgentLifecycleState) :
    (s.set_state agent state).states agent = some state :=
  update_self ..

variable {agent : ι} {s : SupervisedAgents ι} {next : SupervisionStage ι}

variable {other : ι} {state : AgentLifecycleState}

theorem set_state_of_ne (s : SupervisedAgents ι) (state : AgentLifecycleState) (h : other ≠ agent) :
    (s.set_state agent state).states other = s.states other :=
  update_of_ne h ..

/-- Writing the state of an agent that is not stopped leaves the stopped ones alone. -/
theorem set_state_keeps (hnot : s.states agent ≠ some .stopped)
    (h : s.states other = some .stopped) :
    (s.set_state agent state).states other = some .stopped := by
  have hne : other ≠ agent := by
    rintro rfl
    exact hnot h
  rw [set_state_of_ne s state hne]
  exact h

/-- A section that is not of a start or a stop: stopped agents stay stopped, and the call
does not become a start or a stop. -/
structure Harmless (s s' : SupervisedAgents ι) (next : SupervisionStage ι) : Prop where
  keeps : ∀ agent, s.states agent = some .stopped → s'.states agent = some .stopped
  lifecycle : next.lifecycle = false
  starting : next.starting = false
  unstopped : next.unstopped = none

omit [DecidableEq ι] in
theorem Harmless.refl (s : SupervisedAgents ι) (hlifecycle : next.lifecycle = false)
    (hstarting : next.starting = false) (hunstopped : next.unstopped = none) : Harmless s s next :=
  ⟨fun _ h => h, hlifecycle, hstarting, hunstopped⟩

theorem Harmless.set_state (hnot : s.states agent ≠ some .stopped)
    (hlifecycle : next.lifecycle = false) (hstarting : next.starting = false)
    (hunstopped : next.unstopped = none) : Harmless s (s.set_state agent state) (.listening next) :=
  ⟨fun _ h => set_state_keeps hnot h, hlifecycle, hstarting, hunstopped⟩

theorem transition_from_harmless {s : SupervisedAgents ι} {agent : ι}
    {required state : AgentLifecycleState} {next : SupervisionStage ι}
    (hrequired : required ≠ .stopped) (hlifecycle : next.lifecycle = false)
    (hstarting : next.starting = false) (hunstopped : next.unstopped = none) :
    Harmless s (transition_from s agent required state next).1
      (transition_from s agent required state next).2 := by
  unfold transition_from
  by_cases hfrom : s.states agent = some required
  · rw [if_pos hfrom]
    refine Harmless.set_state ?_ hlifecycle hstarting hunstopped
    rw [hfrom]
    exact fun h => hrequired (Option.some.inj h)
  · rw [if_neg hfrom]
    exact Harmless.refl s rfl rfl rfl

omit [DecidableEq ι] in
theorem unrecovered_cases (raising : Bool) :
    (unrecovered raising : SupervisionStage ι) = .raised ∨
      (unrecovered raising : SupervisionStage ι) = .returned := by
  unfold unrecovered
  by_cases h : raising = true
  · exact Or.inl (if_pos h)
  · exact Or.inr (if_neg h)

theorem recover_section_harmless (policy : ι → RestartConfiguration) (s : SupervisedAgents ι)
    (x : SupervisedExecution ι) (raising : Bool) :
    Harmless s (recover_section policy s x raising).1 (recover_section policy s x raising).2 := by
  have hended : ∀ s' : SupervisedAgents ι, Harmless s' s' (unrecovered raising) := by
    intro s'
    rcases unrecovered_cases (ι := ι) raising with h | h
    · rw [h]
      exact Harmless.refl s' rfl rfl rfl
    · rw [h]
      exact Harmless.refl s' rfl rfl rfl
  unfold recover_section
  by_cases hrestarting : s.states x.agent = some .restarting
  · rw [if_pos hrestarting]
    exact Harmless.refl s rfl rfl rfl
  rw [if_neg hrestarting]
  by_cases hrunning : s.states x.agent ≠ some .running
  · rw [if_pos hrunning]
    exact hended s
  rw [if_neg hrunning]
  have hnot : s.states x.agent ≠ some .stopped := by
    rw [not_not.mp hrunning]
    decide
  have hkeeps : ∀ state agent, s.states agent = some .stopped →
      (SupervisedAgents.set_state { s with
        attempts := update s.attempts x.agent (s.attempts x.agent + 1) }
        x.agent state).states agent = some .stopped :=
    fun state agent h => set_state_keeps hnot h
  simp only
  split
  · refine ⟨fun agent h => set_state_keeps ?_ (hkeeps _ agent h), rfl, rfl, rfl⟩
    rw [set_state_same]
    decide
  · exact ⟨hkeeps _, (hended s).lifecycle, (hended s).starting, (hended s).unstopped⟩

omit [DecidableEq ι] in
theorem SupervisionStage.idle_of_lifecycle :
    ∀ stage : SupervisionStage ι, stage.lifecycle = false →
      stage.starting = false ∧ stage.unstopped = none
  | .listening next, h => next.idle_of_lifecycle h
  | .start_next _, h => by cases h
  | .start_running _ _, h => by cases h
  | .stop_arrived, h => by cases h
  | .stop_next _, h => by cases h
  | .stop_stopped _ _, h => by cases h
  | .pause _, _ => ⟨rfl, rfl⟩
  | .resume _, _ => ⟨rfl, rfl⟩
  | .resume_arrived, _ => ⟨rfl, rfl⟩
  | .resume_next _, _ => ⟨rfl, rfl⟩
  | .waiting _, _ => ⟨rfl, rfl⟩
  | .invoking _, _ => ⟨rfl, rfl⟩
  | .succeeded _, _ => ⟨rfl, rfl⟩
  | .recovering _ _, _ => ⟨rfl, rfl⟩
  | .sleeping _ _, _ => ⟨rfl, rfl⟩
  | .returned, _ => ⟨rfl, rfl⟩
  | .raised, _ => ⟨rfl, rfl⟩

omit [DecidableEq ι] in
theorem SupervisionStage.stops_of_lifecycle (stage : SupervisionStage ι)
    (h : stage.lifecycle = false) : stage.stops = false := by
  cases stage with
  | stop_next rest => cases h
  | _ => rfl

/-- The sections of the other calls, a recovery that comes to a stopped agent apart. -/
theorem supervise_harmless {agents : List ι} {policy : ι → RestartConfiguration}
    {s' : SupervisedAgents ι} {stage : SupervisionStage ι} {answer : SupervisionAnswer}
    (h : supervise agents policy s stage answer = some (s', next))
    (hother : stage.lifecycle = false)
    (hawake : stage.sleeper.all (fun agent => s.states agent ≠ some .stopped) = true) :
    Harmless s s' next := by
  cases stage with
  | start_next rest => cases hother
  | start_running agent rest => cases hother
  | stop_arrived => cases hother
  | stop_next rest => cases hother
  | stop_stopped agent rest => cases hother
  | pause agent =>
    have hsection : transition_from s agent .running .paused .returned = (s', next) := Option.some.inj h
    have hharmless := @transition_from_harmless _ _ s agent .running .paused .returned (by decide) rfl rfl rfl
    rw [hsection] at hharmless
    exact hharmless
  | resume agent =>
    have hsection : transition_from s agent .paused .running .returned = (s', next) := Option.some.inj h
    have hharmless := @transition_from_harmless _ _ s agent .paused .running .returned (by decide) rfl rfl rfl
    rw [hsection] at hharmless
    exact hharmless
  | resume_arrived =>
    cases h
    exact Harmless.refl s rfl rfl rfl
  | resume_next rest =>
    cases rest with
    | nil =>
      cases h
      exact Harmless.refl s rfl rfl rfl
    | cons agent rest =>
      have hsection : transition_from s agent .paused .running (.resume_next rest) = (s', next) :=
        Option.some.inj h
      have hharmless :=
        @transition_from_harmless _ _ s agent .paused .running (.resume_next rest) (by decide) rfl
          rfl rfl
      rw [hsection] at hharmless
      exact hharmless
  | waiting x =>
    cases h
    split
    · split
      · exact Harmless.refl s rfl rfl rfl
      · exact Harmless.refl s rfl rfl rfl
    · split
      · exact Harmless.refl s rfl rfl rfl
      · exact Harmless.refl s rfl rfl rfl
  | invoking x =>
    cases h
    cases answer with
    | succeeds => exact Harmless.refl s rfl rfl rfl
    | raises => exact Harmless.refl s rfl rfl rfl
    | fails =>
      simp only
      split
      · exact Harmless.refl s rfl rfl rfl
      · exact Harmless.refl s rfl rfl rfl
  | succeeded x =>
    cases h
    split
    · exact ⟨fun _ h => h, rfl, rfl, rfl⟩
    · exact Harmless.refl s rfl rfl rfl
  | recovering x raising =>
    have hsection : recover_section policy s x raising = (s', next) := Option.some.inj h
    have hharmless := recover_section_harmless policy s x raising
    rw [hsection] at hharmless
    exact hharmless
  | sleeping x attempt =>
    cases h
    exact Harmless.set_state (of_decide_eq_true hawake) rfl rfl rfl
  | listening next' =>
    cases h
    split
    · exact Harmless.refl s rfl rfl rfl
    · obtain ⟨hstarting, hunstopped⟩ := next'.idle_of_lifecycle hother
      exact Harmless.refl s hother hstarting hunstopped
  | returned => cases h
  | raised => cases h

end Steps

/-! ## Runs -/

section Runs

variable [DecidableEq ι] [DecidableEq κ] {agents : List ι} {policy : ι → RestartConfiguration}
  {s : SupervisorState ι κ}

variable {i : κ} {next : SupervisionStage ι} {shared : SupervisedAgents ι}

variable {stage : SupervisionStage ι}

omit [DecidableEq ι] [DecidableEq κ] in
theorem Settled.idle (h : Settled agents s) {j : κ} {stage' : SupervisionStage ι}
    (hi : s.thread i = some stage) (hlifecycle : stage.lifecycle = true)
    (hj : s.thread j = some stage') (hne : j ≠ i) : stage'.lifecycle = false := by
  by_contra hother
  exact hne (h.one j i stage' stage hj hi ((Bool.not_eq_false _).mp hother) hlifecycle)

omit [DecidableEq ι] in
/-- One call moves and the others are neither starting nor stopping. -/
theorem Settled.of_only {quiet : Bool}
    (hothers : ∀ j stage, j ≠ i → s.thread j = some stage → stage.lifecycle = false)
    (hprogress : ∀ rest, next.unstopped = some rest → StoppedBut agents shared rest)
    (hstopped : quiet = true → StoppedBut agents shared [])
    (hstart : quiet = true → next.starting = false)
    (hleft : quiet = true → ∀ rest, next.unstopped = some rest → rest = []) : Settled agents
      { agents := shared, thread := update s.thread i (some next), quiet := quiet } := by
  have hthread : ∀ j stage, update s.thread i (some next) j = some stage →
      j = i ∧ stage = next ∨ j ≠ i ∧ stage.lifecycle = false := by
    intro j stage h
    by_cases hj : j = i
    · rw [hj, update_self] at h
      exact Or.inl ⟨hj, (Option.some.inj h).symm⟩
    · rw [update_of_ne hj] at h
      exact Or.inr ⟨hj, hothers j stage hj h⟩
  have hidle : ∀ j stage rest, update s.thread i (some next) j = some stage →
      stage.unstopped = some rest → stage = next := by
    intro j stage rest h hrest
    rcases hthread j stage h with ⟨-, heq⟩ | ⟨-, hnot⟩
    · exact heq
    · rw [(stage.idle_of_lifecycle hnot).2] at hrest
      cases hrest
  refine ⟨?_, ?_, hstopped, ?_, ?_⟩
  · intro j k stage stage' hj hk hlifecycle hlifecycle'
    rcases hthread j stage hj with ⟨rfl, -⟩ | ⟨-, hnot⟩
    · rcases hthread k stage' hk with ⟨rfl, -⟩ | ⟨-, hnot⟩
      · rfl
      · rw [hnot] at hlifecycle'
        cases hlifecycle'
    · rw [hnot] at hlifecycle
      cases hlifecycle
  · intro j stage rest h hrest
    have heq := hidle j stage rest h hrest
    rw [heq] at hrest
    exact hprogress rest hrest
  · intro hquiet j stage h
    rcases hthread j stage h with ⟨-, heq⟩ | ⟨-, hnot⟩
    · rw [heq]
      exact hstart hquiet
    · exact (stage.idle_of_lifecycle hnot).1
  · intro hquiet j stage rest h hrest
    have heq := hidle j stage rest h hrest
    rw [heq] at hrest
    exact hleft hquiet rest hrest

omit [DecidableEq ι] in
/-- A call that is neither a start nor a stop moves. -/
theorem Settled.harmless (h : Settled agents s) (hharmless : Harmless s.agents shared next) :
    Settled agents
      { agents := shared, thread := update s.thread i (some next), quiet := s.quiet } := by
  have hkeeps : ∀ rest, StoppedBut agents s.agents rest → StoppedBut agents shared rest :=
    fun rest hall agent hagent hnot => hharmless.keeps agent (hall agent hagent hnot)
  have hthread : ∀ j stage, update s.thread i (some next) j = some stage →
      stage = next ∨ s.thread j = some stage := by
    intro j stage hj
    by_cases heq : j = i
    · rw [heq, update_self] at hj
      exact Or.inl (Option.some.inj hj).symm
    · rw [update_of_ne heq] at hj
      exact Or.inr hj
  refine ⟨?_, ?_, fun hquiet => hkeeps _ (h.stopped hquiet), ?_, ?_⟩
  · intro j k stage stage' hj hk hlifecycle hlifecycle'
    rcases hthread j stage hj with rfl | hj
    · rw [hharmless.lifecycle] at hlifecycle
      cases hlifecycle
    · rcases hthread k stage' hk with rfl | hk
      · rw [hharmless.lifecycle] at hlifecycle'
        cases hlifecycle'
      · exact h.one j k stage stage' hj hk hlifecycle hlifecycle'
  · intro j stage rest hj hrest
    rcases hthread j stage hj with rfl | hj
    · rw [hharmless.unstopped] at hrest
      cases hrest
    · exact hkeeps _ (h.progress j stage rest hj hrest)
  · intro hquiet j stage hj
    rcases hthread j stage hj with rfl | hj
    · exact hharmless.starting
    · exact h.no_start hquiet j stage hj
  · intro hquiet j stage rest hj hrest
    rcases hthread j stage hj with rfl | hj
    · rw [hharmless.unstopped] at hrest
      cases hrest
    · exact h.nothing_left hquiet j stage rest hj hrest

/-- A section of a start or a stop. The cases are its stages. -/
theorem Settled.lifecycle_step (h : Settled agents s) {answer : SupervisionAnswer}
    (hi : s.thread i = some stage) (hlifecycle : stage.lifecycle = true)
    (hstep : supervise agents policy s.agents stage answer = some (shared, next)) : Settled agents
      { agents := shared
        thread := update s.thread i (some next)
        quiet := s.quiet || stage.stops } := by
  have hothers : ∀ j stage', j ≠ i → s.thread j = some stage' → stage'.lifecycle = false :=
    fun j stage' hne hj => h.idle hi hlifecycle hj hne
  -- while a start is under way, or a stop has agents left, nothing is quiet
  have hloud : ∀ {P : Prop}, stage.starting = true ∨ (∃ agent rest,
      stage.unstopped = some (agent :: rest)) → (s.quiet || false) = true → P := by
    intro P hbusy hquiet
    rw [Bool.or_false] at hquiet
    rcases hbusy with hstarting | ⟨agent, rest, hrest⟩
    · rw [h.no_start hquiet i stage hi] at hstarting
      cases hstarting
    · cases h.nothing_left hquiet i stage _ hi hrest
  cases stage with
  | start_next rest =>
    cases rest with
    | nil =>
      cases hstep
      exact Settled.of_only hothers (fun _ hrest => by cases hrest)
        (hloud (Or.inl rfl)) (hloud (Or.inl rfl)) (hloud (Or.inl rfl))
    | cons agent rest =>
      cases hstep
      exact Settled.of_only hothers (fun _ hrest => by cases hrest)
        (hloud (Or.inl rfl)) (hloud (Or.inl rfl)) (hloud (Or.inl rfl))
  | start_running agent rest =>
    cases hstep
    exact Settled.of_only hothers (fun _ hrest => by cases hrest)
      (hloud (Or.inl rfl)) (hloud (Or.inl rfl)) (hloud (Or.inl rfl))
  | stop_arrived =>
    cases hstep
    have hfilter : ∀ agent ∈ agents,
        agent ∉ agents.filter (fun agent => s.agents.states agent ≠ some .stopped) →
        s.agents.states agent = some .stopped := by
      intro agent hagent hnot
      by_contra hstate
      exact hnot (List.mem_filter.mpr ⟨hagent, decide_eq_true hstate⟩)
    refine Settled.of_only hothers ?_ ?_ (fun _ => rfl) ?_
    · intro rest hrest
      cases hrest
      exact hfilter
    · intro hquiet
      exact h.stopped (by rw [← Bool.or_false s.quiet]; exact hquiet)
    · intro hquiet rest hrest
      cases hrest
      refine List.filter_eq_nil_iff.mpr fun agent hagent hnot => ?_
      have hall := h.stopped (by rw [← Bool.or_false s.quiet]; exact hquiet)
      exact of_decide_eq_true hnot (hall agent hagent List.not_mem_nil)
  | stop_next rest =>
    cases rest with
    | nil =>
      cases hstep
      exact Settled.of_only hothers (fun _ hrest => by cases hrest)
        (fun _ => h.progress i _ [] hi rfl) (fun _ => rfl) (fun _ _ hrest => by cases hrest)
    | cons agent rest =>
      cases hstep
      refine Settled.of_only hothers ?_ (hloud (Or.inr ⟨agent, rest, rfl⟩))
        (hloud (Or.inr ⟨agent, rest, rfl⟩)) (hloud (Or.inr ⟨agent, rest, rfl⟩))
      intro rest' hrest other hother hnot
      cases hrest
      have hne : other ≠ agent := fun heq => hnot (by rw [heq]; exact List.mem_cons_self)
      rw [set_state_of_ne _ _ hne]
      exact h.progress i _ _ hi rfl other hother hnot
  | stop_stopped agent rest =>
    cases hstep
    refine Settled.of_only hothers ?_ (hloud (Or.inr ⟨agent, rest, rfl⟩))
      (hloud (Or.inr ⟨agent, rest, rfl⟩)) (hloud (Or.inr ⟨agent, rest, rfl⟩))
    intro rest' hrest other hother hnot
    cases hrest
    by_cases heq : other = agent
    · rw [heq]
      exact set_state_same ..
    · rw [set_state_of_ne _ _ heq]
      refine h.progress i _ _ hi rfl other hother fun hmem => ?_
      rcases List.mem_cons.mp hmem with h | h
      · exact heq h
      · exact hnot h
  | listening next' =>
    cases hstep
    have hquiet : (s.quiet || (SupervisionStage.listening next').stops) = s.quiet :=
      Bool.or_false _
    rw [hquiet]
    split
    · exact Settled.of_only hothers (fun _ hrest => by cases hrest) h.stopped (fun _ => rfl)
        (fun _ _ hrest => by cases hrest)
    · exact Settled.of_only hothers (fun rest hrest => h.progress i (.listening next') rest hi hrest)
        h.stopped (fun hq => h.no_start hq i (.listening next') hi)
        (fun hq rest hrest => h.nothing_left hq i (.listening next') rest hi hrest)
  | pause agent => cases hlifecycle
  | resume agent => cases hlifecycle
  | resume_arrived => cases hlifecycle
  | resume_next rest => cases hlifecycle
  | waiting x => cases hlifecycle
  | invoking x => cases hlifecycle
  | succeeded x => cases hlifecycle
  | recovering x raising => cases hlifecycle
  | sleeping x attempt => cases hlifecycle
  | returned => cases hlifecycle
  | raised => cases hlifecycle

omit [DecidableEq ι] in
/-- A call arrives. -/
theorem Settled.call (h : Settled agents s) {c : SupervisorCall ι}
    (hundisturbed : UndisturbedLifecycle s (.call i c)) : Settled agents { s with
        thread := update s.thread i (some (c.arrive agents))
        quiet := s.quiet && ! c.starts } := by
  have hquiet : (s.quiet && ! c.starts) = true → s.quiet = true ∧ c.starts = false := by
    intro hboth
    rw [Bool.and_eq_true, Bool.not_eq_true'] at hboth
    exact hboth
  have hnothing : (c.arrive agents).unstopped = none := by cases c <;> rfl
  have hstarting : c.starts = false → (c.arrive agents).starting = false := by
    intro hnot
    cases c with
    | start => cases hnot
    | _ => rfl
  by_cases hlifecycle : c.lifecycle = true
  · have hothers : ∀ j stage, j ≠ i → s.thread j = some stage → stage.lifecycle = false := by
      intro j stage _ hj
      have hidle := hundisturbed hlifecycle j
      rw [hj] at hidle
      exact hidle
    refine Settled.of_only hothers ?_ ?_ ?_ ?_
    · intro rest hrest
      rw [hnothing] at hrest
      cases hrest
    · exact fun hboth => h.stopped (hquiet hboth).1
    · exact fun hboth => hstarting (hquiet hboth).2
    · intro _ rest hrest
      rw [hnothing] at hrest
      cases hrest
  · have harrive : (c.arrive agents).lifecycle = false := by
      cases c with
      | start => exact absurd rfl hlifecycle
      | stop => exact absurd rfl hlifecycle
      | _ => rfl
    have hstarts : (s.quiet && ! c.starts) = s.quiet := by
      cases c with
      | start => exact absurd rfl hlifecycle
      | _ => exact Bool.and_true _
    rw [hstarts]
    obtain ⟨hstart, hunstopped⟩ := (c.arrive agents).idle_of_lifecycle harrive
    exact h.harmless (Harmless.refl s.agents harrive hstart hunstopped)

/-- One step of an undisturbed run. -/
theorem Settled.step (h : Settled agents s) {e : SupervisorEvent ι κ} {s' : SupervisorState ι κ}
    (hundisturbed : UndisturbedLifecycle s e) (hstep : (supervisor_system agents policy).step s e = some s') :
    Settled agents s' := by
  cases e with
  | call i c =>
    simp only [supervisor_system] at hstep
    split at hstep
    · cases hstep
      exact h.call hundisturbed
    · cases hstep
  | step i answer =>
    obtain ⟨stage, hi, hstep⟩ := Option.bind_eq_some_iff.mp hstep
    obtain ⟨⟨shared, next⟩, hsection, hstep⟩ := Option.bind_eq_some_iff.mp hstep
    cases hstep
    by_cases hlifecycle : stage.lifecycle = true
    · exact h.lifecycle_step hi hlifecycle hsection
    · have hother := (Bool.not_eq_true _).mp hlifecycle
      have hawake : stage.sleeper.all (fun agent => s.agents.states agent ≠ some .stopped) = true := by
        have hawake : ((s.thread i).bind SupervisionStage.sleeper).all
            (fun agent => s.agents.states agent ≠ some .stopped) = true := hundisturbed
        rw [hi] at hawake
        exact hawake
      have hstops : stage.stops = false := stage.stops_of_lifecycle hother
      rw [hstops, Bool.or_false]
      exact h.harmless (supervise_harmless hsection hother hawake)

/-- A stopped agent stays stopped: in undisturbed runs, once a stop has returned and until
start is called again, every agent is stopped. -/
theorem stopped_agents_stay (agents : List ι) (policy : ι → RestartConfiguration)
    {s : SupervisorState ι κ} (h : (supervisor_system agents policy).ReachableUnder UndisturbedLifecycle s)
    (hquiet : s.quiet = true) : ∀ agent ∈ agents, s.agents.states agent = some .stopped := by
  have hsettled : Settled agents s := by
    refine h.invariant (fun s hinit => ?_) fun s e s' _ hs hundisturbed hstep =>
      hs.step hundisturbed hstep
    cases hinit
    refine ⟨?_, ?_, ?_, ?_, ?_⟩
    · intro _ _ _ _ hthread
      cases hthread
    · intro _ _ _ hthread
      cases hthread
    · intro hnot
      cases hnot
    · intro hnot
      cases hnot
    · intro hnot
      cases hnot
  exact fun agent hagent => hsettled.stopped hquiet agent hagent List.not_mem_nil

end Runs

/-! ## Two schedules -/

/-- The condition can be decided for finitely many threads. -/
instance [DecidableEq ι] [Fintype κ] (s : SupervisorState ι κ) : DecidablePred (UndisturbedLifecycle s)
  | .call _ _ => by unfold UndisturbedLifecycle; infer_instance
  | .step _ _ => by unfold UndisturbedLifecycle; infer_instance

/-- One restart for the only agent. -/
def one_restart : Unit → RestartConfiguration := fun _ => { on_failure := true, max_attempts := 1 }

def thread_steps {κ : Type} (i : κ) (answers : List SupervisionAnswer) : List (SupervisorEvent Unit κ) :=
  answers.map (.step i)

/-- A thread starts the agent, another one executes and fails, and the first one stops the
agent during the back-off. -/
def stopped_in_back_off : List (SupervisorEvent Unit Bool) :=
  .call false .start :: thread_steps false (List.replicate 5 .succeeds) ++
  .call true (.execute ⟨(), false⟩) :: thread_steps true [.succeeds, .fails, .succeeds, .succeeds] ++
  .call false .stop :: thread_steps false (List.replicate 6 .succeeds)

/-- The agent is stopped at the end. -/
theorem stopped_agents_stay_in_back_off :
    ∃ s : SupervisorState Unit Bool, (supervisor_system [()] one_restart).ReachableUnder UndisturbedLifecycle s ∧
      s.quiet = true ∧ (s.thread true).any (fun stage => stage.sleeper.isSome) = true ∧
      ∀ agent ∈ [()], s.agents.states agent = some .stopped := by
  have hrun : (((supervisor_system [()] one_restart).guarded UndisturbedLifecycle).run {}
      stopped_in_back_off).any (fun s : SupervisorState Unit Bool =>
        s.quiet && (s.thread true).any (fun stage => stage.sleeper.isSome)) = true := by
    decide
  obtain ⟨s, hs, hend⟩ := (Option.any_eq_true _ _).mp hrun
  obtain ⟨hquiet, hsleeping⟩ := Bool.and_eq_true_iff.mp hend
  have hreach : ((supervisor_system [()] one_restart).guarded UndisturbedLifecycle).Reachable s :=
    System.Reachable.run (.init rfl) hs
  exact ⟨s, hreach.unguarded, hquiet, hsleeping,
    stopped_agents_stay [()] one_restart hreach.unguarded hquiet⟩

/-- The recovery then ends its back-off. -/
theorem stopped_agents_may_run : ¬ ∀ s : SupervisorState Unit Bool,
    (supervisor_system [()] one_restart).Reachable s → s.quiet = true →
      ∀ agent ∈ [()], s.agents.states agent = some .stopped := by
  intro hclaim
  have hrun : ((supervisor_system [()] one_restart).run {}
      (stopped_in_back_off ++ [.step true .succeeds])).any (fun s : SupervisorState Unit Bool =>
        s.quiet && decide (s.agents.states () = some .running)) = true := by
    decide
  obtain ⟨s, hs, hend⟩ := (Option.any_eq_true _ _).mp hrun
  obtain ⟨hquiet, hrunning⟩ := Bool.and_eq_true_iff.mp hend
  have hstopped := hclaim s (System.Reachable.run (.init rfl) hs) hquiet () List.mem_cons_self
  rw [of_decide_eq_true hrunning] at hstopped
  cases hstopped

end MininetAi
