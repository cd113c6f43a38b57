/-
The record of lifecycle transitions (`_emit`, and `_record_transition` in
`mininet_ai/runtime/continuous.py`).

A section changes an agent under the lock and leaves it before the listener is told, one
transition after the other. In the order of the changes the transitions of an agent always
replay to its state; the record has them in the order in which they are delivered, which is
another one when a thread that changes the agent later is the first to tell.
-/
import MininetAi.Lib.Outbox
import MininetAi.Runtime.SupervisionBudget

set_option autoImplicit false

namespace MininetAi

open List

variable {ι κ : Type}

/-! ## The system -/

/-- A supervisor with the transitions that are still to be delivered, in the order they were made in, and those that
the listener has received. -/
structure RecordedSupervisor (ι κ : Type) where
  supervisor : SupervisorState ι κ := {}
  undelivered : List (κ × AgentLifecycleTransition ι) := []
  record : List (AgentLifecycleTransition ι) := []

/-- One section, or one call of the listener. -/
def recorded_step [DecidableEq ι] [DecidableEq κ] (agents : List ι) (policy : ι → RestartConfiguration)
    (s : RecordedSupervisor ι κ) : SupervisorEvent ι κ → Option (RecordedSupervisor ι κ)
  | .call i c => ((supervisor_system agents policy).step s.supervisor (.call i c)).map fun supervisor =>
    { s with supervisor := supervisor }
  | .step i answer => match Outbox.first_of i s.undelivered with
    | some (t, rest) =>
      -- `_emit` goes on with the next transition unless the listener raises
      if answer ≠ .raises ∧ (rest.any fun entry => entry.1 = i) = true then
        some { s with undelivered := rest, record := s.record ++ [t] }
      else ((supervisor_system agents policy).step s.supervisor (.step i answer)).map fun supervisor =>
        { supervisor := supervisor
          undelivered := rest.filter fun entry => entry.1 ≠ i
          record := s.record ++ [t] }
    | none => ((supervisor_system agents policy).step s.supervisor (.step i answer)).map fun supervisor =>
      { s with
        supervisor := supervisor
        undelivered := s.undelivered ++ ((s.supervisor.thread i).elim []
          (transitions_made policy s.supervisor.agents)).map fun t => (i, t) }

/-- A supervisor under any calls, with its record. -/
def recorded_supervisor [DecidableEq ι] [DecidableEq κ] (agents : List ι) (policy : ι → RestartConfiguration) :
    System (RecordedSupervisor ι κ) (SupervisorEvent ι κ) where
  init s := s = {}
  step := recorded_step agents policy

/-! ## Replay -/

section Replay

/-- The state after transitions that follow one another, `none` when one of them does not follow. -/
def replay (start : Option AgentLifecycleState) : List (AgentLifecycleTransition ι) → Option (Option AgentLifecycleState)
  | [] => some start
  | t :: ts => if t.previous_state = start then replay (some t.state) ts else none

theorem replay_append (start : Option AgentLifecycleState) (ts ts' : List (AgentLifecycleTransition ι)) :
    replay start (ts ++ ts') = (replay start ts).bind fun state => replay state ts' := by
  induction ts generalizing start with
  | nil => rfl
  | cons t ts ih =>
    rw [cons_append, replay, replay]
    by_cases hfollows : t.previous_state = start
    · rw [if_pos hfollows, if_pos hfollows]
      exact ih (some t.state)
    · rw [if_neg hfollows, if_neg hfollows]
      rfl

variable [DecidableEq ι] {policy : ι → RestartConfiguration} {s s' : SupervisedAgents ι}
  {stage next : SupervisionStage ι} {made : List (AgentLifecycleTransition ι)}

/-- The transitions of an agent. -/
def transitions_of (agent : ι) (ts : List (AgentLifecycleTransition ι)) : List (AgentLifecycleTransition ι) :=
  Outbox.about AgentLifecycleTransition.agent agent ts

theorem replay_transition (agent other : ι) (state : AgentLifecycleState) (attempt : ℕ) :
    replay (s.states agent) (transitions_of agent [s.transition other state attempt]) =
      some ((s.set_state other state).states agent) := by
  by_cases hother : other = agent
  · have hmine : transitions_of agent [s.transition other state attempt] = [s.transition other state attempt] :=
      Outbox.about_singleton_self hother
    rw [hmine, hother, replay, SupervisedAgents.transition, if_pos rfl, replay, set_state_same]
  · have hnone : transitions_of agent [s.transition other state attempt] = [] :=
      Outbox.about_singleton_of_ne hother
    rw [hnone, set_state_of_ne _ _ (Ne.symm hother)]
    rfl

theorem transitions_of_cons (agent : ι) (t : AgentLifecycleTransition ι) (ts : List (AgentLifecycleTransition ι)) :
    transitions_of agent (t :: ts) = transitions_of agent [t] ++ transitions_of agent ts :=
  Outbox.about_append agent [t] ts

/-- The transitions of a section lead from the state before it to the state after it. -/
theorem SectionEffect.replays (h : SectionEffect policy s stage s' next made) (agent : ι) :
    replay (s.states agent) (transitions_of agent made) = some (s'.states agent) := by
  cases h with
  | idle => rfl
  | lifecycle => exact replay_transition ..
  | turned => exact replay_transition ..
  | reset => rfl
  | woken => exact replay_transition ..
  | @exhausted x raising hrunning hrestart =>
    rw [recovery_made, if_pos hrunning, if_neg hrestart]
    exact replay_transition ..
  | @restarted x raising hrunning hrestart =>
    rw [recovery_made, if_pos hrunning, if_pos hrestart, transitions_of_cons, replay_append, replay_transition]
    -- the second transition starts from what the first one wrote
    have hsecond := @replay_transition ι _ (s.set_state x.agent .failed) agent x.agent .restarting (s.attempts x.agent + 1)
    rw [SupervisedAgents.transition, set_state_same] at hsecond
    exact hsecond

/-- A section that has something to report goes on in `_emit`. -/
theorem SectionEffect.reports (h : SectionEffect policy s stage s' next made) :
    made = [] ∨ ∃ later, next = .listening later := by
  cases h with
  | idle => exact Or.inl rfl
  | reset => exact Or.inl rfl
  | _ => exact Or.inr ⟨_, rfl⟩

end Replay

/-! ## Runs -/

section Runs

variable [DecidableEq ι] [DecidableEq κ] {agents : List ι} {policy : ι → RestartConfiguration}
  {s s' : RecordedSupervisor ι κ}

/-- A transition is delivered after those of its agent that were made before it, and the listener does not raise while
its call has more to deliver. -/
def DeliversInOrder (s : RecordedSupervisor ι κ) : SupervisorEvent ι κ → Prop
  | .call _ _ => True
  | .step i answer => ∀ found ∈ Outbox.first_of i s.undelivered,
      (∀ older ∈ Outbox.ahead_of i s.undelivered, older.2.agent ≠ found.1.agent) ∧
        (answer = .raises → ∀ later ∈ found.2, later.1 ≠ i)

/-- The record and what is still to be delivered replay to the states, and who has something to deliver is in `_emit`. -/
structure RecordKept (s : RecordedSupervisor ι κ) : Prop where
  replays : ∀ agent, replay none (transitions_of agent (s.record ++ s.undelivered.map Prod.snd)) =
    some (s.supervisor.agents.states agent)
  listening : ∀ entry ∈ s.undelivered, ∃ later, s.supervisor.thread entry.1 = some (.listening later)

variable {i : κ} {t : AgentLifecycleTransition ι} {rest : List (κ × AgentLifecycleTransition ι)}
  {supervisor : SupervisorState ι κ} {answer : SupervisionAnswer}

/-- What is delivered in order leaves the transitions of each agent as they were. -/
theorem transitions_of_delivered {l : List (κ × AgentLifecycleTransition ι)}
    (h : Outbox.first_of i l = some (t, rest))
    (holdest : ∀ older ∈ Outbox.ahead_of i l, older.2.agent ≠ t.agent)
    (record : List (AgentLifecycleTransition ι)) (agent : ι) :
    transitions_of agent (record ++ [t] ++ rest.map Prod.snd) = transitions_of agent (record ++ l.map Prod.snd) := by
  have hsame := Outbox.about_first_of h holdest agent
  rw [append_assoc, singleton_append, transitions_of, transitions_of, Outbox.about_append,
    Outbox.about_append, hsame]

theorem RecordKept.call (hkept : RecordKept s) {c : SupervisorCall ι}
    (h : (supervisor_system agents policy).step s.supervisor (.call i c) = some supervisor) :
    RecordKept { s with supervisor := supervisor } := by
  obtain ⟨hfinished, hagents, hthread⟩ := supervisor_call h
  refine ⟨fun agent => ?_, fun entry hentry => ?_⟩
  · rw [hagents]
    exact hkept.replays agent
  · obtain ⟨later, hlater⟩ := hkept.listening entry hentry
    have hother : entry.1 ≠ i := by
      rintro rfl
      rw [hlater] at hfinished
      cases hfinished
    rw [hthread, Function.update_of_ne hother]
    exact ⟨later, hlater⟩

/-- A section with nothing undelivered of its own. -/
theorem RecordKept.section (hkept : RecordKept s) (hnone : Outbox.first_of i s.undelivered = none)
    (h : (supervisor_system agents policy).step s.supervisor (.step i answer) = some supervisor) :
    RecordKept
      { s with
        supervisor := supervisor
        undelivered := s.undelivered ++ ((s.supervisor.thread i).elim []
          (transitions_made policy s.supervisor.agents)).map fun t => (i, t) } := by
  obtain ⟨stage, shared, next, made, hi, hagents, hthread, hmade, heffect⟩ := supervisor_step h
  rw [hi, Option.elim_some, ← hmade]
  refine ⟨fun agent => ?_, fun entry hentry => ?_⟩
  · have hsnd : (made.map fun t => (i, t)).map Prod.snd = made := by
      rw [map_map]
      exact map_id made
    rw [map_append, hsnd, ← append_assoc, transitions_of, Outbox.about_append, replay_append]
    have hbefore := hkept.replays agent
    rw [transitions_of] at hbefore
    rw [hbefore, hagents]
    exact heffect.replays agent
  · rcases mem_append.mp hentry with hold | hnew
    · obtain ⟨later, hlater⟩ := hkept.listening entry hold
      rw [hthread, Function.update_of_ne (Outbox.first_of_none hnone entry hold)]
      exact ⟨later, hlater⟩
    · obtain ⟨t, ht, rfl⟩ := mem_map.mp hnew
      rcases heffect.reports with hempty | ⟨later, hnext⟩
      · rw [hempty] at ht
        cases ht
      · rw [hthread, Function.update_self, hnext]
        exact ⟨later, rfl⟩

/-- The listener is told. -/
theorem RecordKept.delivered (hkept : RecordKept s)
    (hfound : Outbox.first_of i s.undelivered = some (t, rest))
    (horder : DeliversInOrder s (.step i answer))
    (h : recorded_step agents policy s (.step i answer) = some s') : RecordKept s' := by
  obtain ⟨holdest, hraises⟩ := horder (t, rest) hfound
  have hrecord := transitions_of_delivered hfound holdest s.record
  have hrest : ∀ entry ∈ rest, ∃ later, s.supervisor.thread entry.1 = some (.listening later) :=
    fun entry hentry => hkept.listening entry (Outbox.first_of_subset hfound hentry)
  rw [recorded_step, hfound] at h
  simp only at h
  by_cases hmore : answer ≠ .raises ∧ (rest.any fun entry => entry.1 = i) = true
  · rw [if_pos hmore] at h
    rw [← Option.some.inj h]
    refine ⟨fun agent => ?_, hrest⟩
    rw [hrecord agent]
    exact hkept.replays agent
  · rw [if_neg hmore] at h
    obtain ⟨supervisor, hstep, rfl⟩ := Option.map_eq_some_iff.mp h
    obtain ⟨after, hall, -⟩ := Outbox.first_of_split hfound
    obtain ⟨later, hlater⟩ := hkept.listening (i, t) (by rw [hall]; exact mem_append_right _ mem_cons_self)
    obtain ⟨hagents, next, hthread⟩ := supervisor_listens hlater hstep
    -- the thread has nothing more to deliver
    have hlast : ∀ entry ∈ rest, entry.1 ≠ i := by
      intro entry hentry hmine
      by_cases hraise : answer = .raises
      · exact hraises hraise entry hentry hmine
      · exact hmore ⟨hraise, any_eq_true.mpr ⟨entry, hentry, decide_eq_true hmine⟩⟩
    have hkeep : rest.filter (fun entry => entry.1 ≠ i) = rest :=
      filter_eq_self.mpr fun entry hentry => decide_eq_true (hlast entry hentry)
    rw [hkeep]
    refine ⟨fun agent => ?_, fun entry hentry => ?_⟩
    · rw [hrecord agent, hagents]
      exact hkept.replays agent
    · obtain ⟨other, hother⟩ := hrest entry hentry
      rw [hthread, Function.update_of_ne (hlast entry hentry)]
      exact ⟨other, hother⟩

theorem RecordKept.step (hkept : RecordKept s) {e : SupervisorEvent ι κ} (horder : DeliversInOrder s e)
    (h : (recorded_supervisor agents policy).step s e = some s') : RecordKept s' := by
  have hstep : recorded_step agents policy s e = some s' := h
  cases e with
  | call i c =>
    obtain ⟨supervisor, hcall, rfl⟩ := Option.map_eq_some_iff.mp hstep
    exact hkept.call hcall
  | step i answer =>
    cases hfound : Outbox.first_of i s.undelivered with
    | some found => exact hkept.delivered hfound horder hstep
    | none =>
      rw [recorded_step, hfound] at hstep
      obtain ⟨supervisor, hsection, rfl⟩ := Option.map_eq_some_iff.mp hstep
      exact hkept.section hfound hsection

/-- The record changes nothing about the supervisor. -/
theorem recorded_refines (agents : List ι) (policy : ι → RestartConfiguration) :
    System.Refines (recorded_supervisor agents policy : System (RecordedSupervisor ι κ) (SupervisorEvent ι κ))
      (supervisor_system agents policy) RecordedSupervisor.supervisor fun _ => True where
  init s hinit := by
    rw [show s = {} from hinit]
    rfl
  step s e s' _ h := by
    have hstep : recorded_step agents policy s e = some s' := h
    cases e with
    | call i c =>
      obtain ⟨supervisor, hcall, rfl⟩ := Option.map_eq_some_iff.mp hstep
      exact Or.inr ⟨_, hcall⟩
    | step i answer =>
      rw [recorded_step] at hstep
      cases hfound : Outbox.first_of i s.undelivered with
      | none =>
        simp only [hfound] at hstep
        obtain ⟨supervisor, hsection, rfl⟩ := Option.map_eq_some_iff.mp hstep
        exact Or.inr ⟨_, hsection⟩
      | some found =>
        simp only [hfound] at hstep
        split at hstep
        · rw [← Option.some.inj hstep]
          exact Or.inl rfl
        · obtain ⟨supervisor, hsection, rfl⟩ := Option.map_eq_some_iff.mp hstep
          exact Or.inr ⟨_, hsection⟩

/-- The calls have all returned. -/
def RecordedSupervisor.idle (s : RecordedSupervisor ι κ) : Prop :=
  ∀ i, (s.supervisor.thread i).all SupervisionStage.finished = true

/-- The record of an agent: its transitions follow one another from the first, and once all calls have returned they
lead to the agent's state. -/
structure RecordFaithful (s : RecordedSupervisor ι κ) : Prop where
  chain : ∀ agent, (replay none (transitions_of agent s.record)).isSome = true
  final : s.idle → ∀ agent, replay none (transitions_of agent s.record) = some (s.supervisor.agents.states agent)

/-- In runs that deliver in order, the record is a chain that replays to the true states. -/
theorem record_is_chain {s : RecordedSupervisor ι κ}
    (h : (recorded_supervisor agents policy).ReachableUnder DeliversInOrder s) : RecordFaithful s := by
  have hkept : RecordKept s := by
    refine h.invariant (fun s hinit => ?_) fun s e s' _ hkept horder hstep => hkept.step horder hstep
    rw [show s = {} from hinit]
    exact ⟨fun agent => rfl, fun entry hentry => absurd hentry not_mem_nil⟩
  refine ⟨fun agent => ?_, fun hidle agent => ?_⟩
  · have hall := hkept.replays agent
    rw [transitions_of, Outbox.about_append, replay_append] at hall
    obtain ⟨state, hstate, -⟩ := Option.bind_eq_some_iff.mp hall
    rw [transitions_of, hstate]
    rfl
  · have hnone : s.undelivered = [] := by
      refine eq_nil_iff_forall_not_mem.mpr fun entry hentry => ?_
      obtain ⟨later, hlater⟩ := hkept.listening entry hentry
      have hfinished := hidle entry.1
      rw [hlater] at hfinished
      cases hfinished
    have hall := hkept.replays agent
    rw [hnone, map_nil, append_nil] at hall
    exact hall

instance [Fintype κ] (s : RecordedSupervisor ι κ) : Decidable s.idle :=
  inferInstanceAs (Decidable (∀ i, (s.supervisor.thread i).all SupervisionStage.finished = true))

instance (s : RecordedSupervisor ι κ) : DecidablePred (DeliversInOrder s)
  | .call _ _ => by unfold DeliversInOrder; infer_instance
  | .step _ _ => by unfold DeliversInOrder; infer_instance

end Runs

/-! ## Two schedules of the listener -/

/-- An agent that is started, and paused by one thread. -/
def paused_agent : List (SupervisorEvent Unit Bool) :=
  .call false .start :: thread_steps false (replicate 5 .succeeds) ++
  [.call false (.pause ()), .step false .succeeds]

/-- The pause is delivered before another thread resumes the agent. -/
theorem record_is_chain_resumed :
    ∃ s : RecordedSupervisor Unit Bool,
      (recorded_supervisor [()] one_restart).ReachableUnder DeliversInOrder s ∧ s.idle ∧
        s.record.map AgentLifecycleTransition.state = [.starting, .running, .paused, .running] ∧ RecordFaithful s := by
  have hrun : (((recorded_supervisor [()] one_restart).guarded DeliversInOrder).run {}
      (paused_agent ++ [.step false .succeeds, .call true (.resume ()), .step true .succeeds, .step true .succeeds])).any
        (fun s : RecordedSupervisor Unit Bool => decide s.idle &&
          decide (s.record.map AgentLifecycleTransition.state = [.starting, .running, .paused, .running])) = true := by
    decide
  obtain ⟨s, hs, hend⟩ := (Option.any_eq_true _ _).mp hrun
  obtain ⟨hidle, hrecord⟩ := Bool.and_eq_true_iff.mp hend
  have hreach : ((recorded_supervisor [()] one_restart).guarded DeliversInOrder).Reachable s :=
    System.Reachable.run (.init rfl) hs
  exact ⟨s, hreach.unguarded, of_decide_eq_true hidle, of_decide_eq_true hrecord, record_is_chain hreach.unguarded⟩

/-- The thread that resumes the agent is the first to tell. -/
theorem record_may_break : ¬ ∀ s : RecordedSupervisor Unit Bool,
    (recorded_supervisor [()] one_restart).Reachable s → RecordFaithful s := by
  intro hclaim
  have hrun : ((recorded_supervisor [()] one_restart).run {}
      (paused_agent ++ [.call true (.resume ()), .step true .succeeds, .step true .succeeds, .step false .succeeds])).any
        (fun s : RecordedSupervisor Unit Bool => ! (replay none (transitions_of () s.record)).isSome) = true := by
    decide
  obtain ⟨s, hs, hbroken⟩ := (Option.any_eq_true _ _).mp hrun
  have hchain := (hclaim s (System.Reachable.run (.init rfl) hs)).chain ()
  rw [hchain] at hbroken
  cases hbroken

end MininetAi
