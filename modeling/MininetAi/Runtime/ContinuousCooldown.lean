/-
The cooldown of event triggers in the continuous runtime.

`_matches` suppresses an event that was observed less than the cooldown after the
last activation of its trigger that `_enqueue` accepted. Events are dispatched in the
order of their sources' sequences, and that is not the order in which they were
observed: an event observed before the last accepted one has a negative age, which is
less than any cooldown, so it is suppressed however long before it was and even where
there is no cooldown. An age and a cooldown are compared as doubles, which matters when
they are equal or nearly so.

What was accepted is noted beside the state from what the report counts, and the
runtime's memory of its triggers is compared with it.
-/
import MininetAi.Runtime.ContinuousCoalesce

set_option autoImplicit false

namespace MininetAi

open ContinuousState

variable {config : ContinuousConfig} {s s' : ContinuousState} {e : ContinuousEvent}

/-! ## What was accepted -/

/-- The report counts an activation as enqueued, or as coalesced and not dropped. -/
def counts_accepted (before after : ContinuousCounts) : Bool :=
  decide (before.enqueued < after.enqueued) ||
    (decide (before.coalesced < after.coalesced) && decide (after.dropped = before.dropped))

/-- The activation that a section accepts is noted. -/
def note_accepted (s : ContinuousState) (e : ContinuousEvent) (s' : ContinuousState)
    (accepted : List WorkItem) : List WorkItem :=
  match e, s.dispatcher with
  | .dispatcher, .enqueueing (item :: _) =>
    if counts_accepted s.counts s'.counts then item :: accepted else accepted
  | _, _ => accepted

/-- The runtime, with the activations it accepted, the last one first. -/
def cooldown_system (config : ContinuousConfig) :
    System (ContinuousState × List WorkItem) ContinuousEvent :=
  (continuous_system config).observed [] note_accepted

/-- The last accepted activation of an agent and a trigger. -/
def last_accepted (accepted : List WorkItem) (agent_id trigger : String) : Option WorkItem :=
  accepted.find? fun item => decide (item.agent.id = agent_id) && decide (item.trigger = trigger)

/-- When the last accepted activations were observed. -/
def observed_times (accepted : List WorkItem) (identity : String × String) : Option ℤ :=
  (last_accepted accepted identity.1 identity.2).map fun item => item.event.observed_at

theorem observed_times_cons (item : WorkItem) (accepted : List WorkItem) :
    observed_times (item :: accepted) = Function.update (observed_times accepted)
      (item.agent.id, item.trigger) (some item.event.observed_at) := by
  funext identity
  by_cases hidentity : identity = (item.agent.id, item.trigger)
  · subst hidentity
    simp [observed_times, last_accepted]
  · rw [Function.update_of_ne hidentity]
    have hother : (decide (item.agent.id = identity.1) && decide (item.trigger = identity.2)) =
        false := by
      rw [Bool.and_eq_false_iff, decide_eq_false_iff_not, decide_eq_false_iff_not]
      by_contra hboth
      rw [not_or, not_not, not_not] at hboth
      exact hidentity (Prod.ext hboth.1.symm hboth.2.symm)
    rw [observed_times, last_accepted, List.find?_cons_of_neg (by simpa using hother)]
    rfl

/-! ## The memory of the triggers -/

variable {item : WorkItem}

/-- `_enqueue` remembers an activation exactly when the report counts it as accepted. -/
theorem enqueued_memory {id : String} {execution : ExecutionConfiguration}
    (h : Enqueued config s id execution item s') :
    (counts_accepted s.counts s'.counts = true ∧ s'.last_triggered =
      Function.update s.last_triggered (item.agent.id, item.trigger)
        (some item.event.observed_at)) ∨
      (counts_accepted s.counts s'.counts = false ∧ s'.last_triggered = s.last_triggered) := by
  cases h with
  | tick_coalesced =>
    refine .inr ⟨?_, rfl⟩
    simp [counts_accepted, coalesce_tick, issue, settle]
  | replaced =>
    refine .inl ⟨?_, rfl⟩
    simp [counts_accepted, replace, settle]
  | oldest_dropped =>
    refine .inl ⟨?_, rfl⟩
    simp [counts_accepted, drop_oldest, ContinuousState.append, pop,
      issue, settle]
  | rejected =>
    refine .inr ⟨?_, rfl⟩
    simp [counts_accepted, ContinuousState.reject, issue, settle]
  | appended =>
    refine .inl ⟨?_, rfl⟩
    simp [counts_accepted, ContinuousState.append]

/-- A section of the dispatcher that enqueues nothing remembers no trigger. -/
theorem dispatcher_memory (h : DispatcherStep config s s') (accepted : List WorkItem) :
    (note_accepted s .dispatcher s' accepted = accepted ∧ s'.last_triggered = s.last_triggered) ∨
      ∃ item, note_accepted s .dispatcher s' accepted = item :: accepted ∧ s'.last_triggered =
        Function.update s.last_triggered (item.agent.id, item.trigger)
          (some item.event.observed_at) := by
  have hnote : s.dispatcher.pending = [] → note_accepted s .dispatcher s' accepted = accepted := by
    intro hpending
    unfold note_accepted
    split
    · rename_i hphase
      rw [hphase] at hpending
      cases hpending
    · rfl
  cases h with
  | receive hphase | drop hphase | all_enqueued hphase =>
    exact .inl ⟨hnote (by rw [hphase]; rfl), rfl⟩
  | close hphase =>
    refine .inl ⟨hnote (by rw [hphase]; rfl), ?_⟩
    obtain ⟨s₁, hdropped, _, _, hs₁⟩ := close_workers_spec config s
    obtain ⟨queues, queued, counts, issues, fates, rfl⟩ := hdropped.frame
    rw [hs₁]
  | dispatch hphase hdrain hdispatched =>
    refine .inl ⟨hnote (by rw [hphase]; rfl), ?_⟩
    cases hdispatched
    · rfl
    · rfl
  | @enqueue item items agent s₁ hphase hagent henqueued =>
    have hcounts : note_accepted s .dispatcher { s₁ with dispatcher := .enqueueing items } accepted =
        if counts_accepted s.counts s₁.counts then item :: accepted else accepted := by
      simp only [note_accepted, hphase]
    rw [hcounts]
    rcases enqueued_memory henqueued with ⟨haccepted, hmemory⟩ | ⟨hrefused, hmemory⟩
    · rw [if_pos haccepted]
      exact .inr ⟨item, rfl, hmemory⟩
    · rw [if_neg (by rw [hrefused]; exact Bool.false_ne_true)]
      exact .inl ⟨rfl, hmemory⟩

/-- Who is not the dispatcher accepts nothing. -/
theorem note_other (he : e ≠ .dispatcher) (accepted : List WorkItem) :
    note_accepted s e s' accepted = accepted := by
  unfold note_accepted
  split
  · exact absurd rfl he
  · rfl

/-- The runtime remembers when the last accepted activations were observed. -/
theorem triggers_remembered {p : ContinuousState × List WorkItem}
    (h : (cooldown_system config).Reachable p) : p.1.last_triggered = observed_times p.2 := by
  refine h.invariant (P := fun p => p.1.last_triggered = observed_times p.2) ?_ ?_
  · rintro ⟨s, accepted⟩ ⟨⟨capacity, _, _, hs⟩, haccepted⟩
    dsimp only at hs haccepted ⊢
    rw [hs, haccepted]
    rfl
  · rintro ⟨s, accepted⟩ e p' _ hinv hstep
    obtain ⟨s', hs', heq⟩ := Option.map_eq_some_iff.mp hstep
    dsimp only at hinv hs' heq
    rw [← heq]
    dsimp only
    have hcases := continuous_step_cases hs'
    by_cases he : e = .dispatcher
    · subst he
      cases hcases with
      | dispatcher hsection =>
        rcases dispatcher_memory hsection accepted with ⟨hnote, hmemory⟩ | ⟨item, hnote, hmemory⟩
        · rw [hnote, hmemory, hinv]
        · rw [hnote, hmemory, hinv, observed_times_cons]
    · rw [note_other he, (hcases.memory he).2.1, hinv]

/-- An activation that a full queue rejects starts no cooldown. -/
theorem rejected_memory (hs : ContinuousStep config s e s')
    (hrejected : s'.fates = s.fates ++ [(item, .rejected)]) :
    s'.last_triggered = s.last_triggered := by
  by_cases he : e = .dispatcher
  · subst he
    cases hs with
    | dispatcher hsection =>
      cases hsection with
      | receive | drop | all_enqueued => rfl
      | close =>
        obtain ⟨s₁, hdropped, _, _, hs₁⟩ := close_workers_spec config s
        obtain ⟨queues, queued, counts, issues, fates, rfl⟩ := hdropped.frame
        rw [hs₁]
      | dispatch hphase hdrain hdispatched =>
        cases hdispatched
        · rfl
        · rfl
      | enqueue hphase hagent henqueued =>
        cases henqueued with
        | tick_coalesced | rejected => rfl
        | replaced => simp [settle, replace] at hrejected
        | oldest_dropped =>
          simp [ContinuousState.append, drop_oldest, settle,
            issue, pop] at hrejected
        | appended => simp [ContinuousState.append] at hrejected
  · exact (hs.memory he).2.1

/-! ## The law of the cooldown -/

/-- `_matches` leaves an event out for a trigger because of its cooldown. -/
def ContinuousState.suppresses (s : ContinuousState) (event : RuntimeEvent) (agent : RuntimeAgent)
    (trigger : Trigger) : Bool :=
  (match_trigger s.last_triggered event agent trigger).any Sum.isLeft

/-- The event was observed less than `cooldown` before or after the last accepted
activation of the trigger. -/
def WithinCooldown (accepted : List WorkItem) (event : RuntimeEvent) (agent_id trigger : String)
    (cooldown : Duration) : Prop :=
  ∃ last ∈ last_accepted accepted agent_id trigger,
    |((event.observed_at - last.event.observed_at : ℤ) : ℚ) / 1000000| < cooldown.seconds

/-- The event was observed less than a cooldown before the last accepted activation of the
trigger, or not before it and at an age that the doubles compare rightly. -/
def ObservedInTurn (accepted : List WorkItem) (event : RuntimeEvent) (agent_id trigger : String)
    (cooldown : Duration) : Prop :=
  ∀ last ∈ last_accepted accepted agent_id trigger,
    if last.event.observed_at ≤ event.observed_at then
      ReadExactly (event.observed_at - last.event.observed_at) cooldown
    else ((last.event.observed_at - event.observed_at : ℤ) : ℚ) / 1000000 < cooldown.seconds

/-- The double of the age of one of two observations is less than that of the cooldown
exactly when they are less than the cooldown apart: as far as doubles tell, when it is the
later one, and when it is the earlier one by less than the cooldown. -/
theorem age_lt_iff {observed_at last : ℤ} {cooldown : Duration} :
    (total_seconds (observed_at - last) < duration_seconds cooldown ↔
        |((observed_at - last : ℤ) : ℚ) / 1000000| < cooldown.seconds) ↔
      if last ≤ observed_at then ReadExactly (observed_at - last) cooldown
      else ((last - observed_at : ℤ) : ℚ) / 1000000 < cooldown.seconds := by
  by_cases hlater : last ≤ observed_at
  · have hage : (0 : ℚ) ≤ ((observed_at - last : ℤ) : ℚ) / 1000000 :=
      div_nonneg (Int.cast_nonneg (by omega)) (by norm_num)
    rw [if_pos hlater, abs_of_nonneg hage]
    rfl
  · have hage : ((observed_at - last : ℤ) : ℚ) / 1000000 = -(((last - observed_at : ℤ) : ℚ) / 1000000) := by
      rw [← neg_div, ← Int.cast_neg, neg_sub]
    have hpast : (0 : ℚ) ≤ ((last - observed_at : ℤ) : ℚ) / 1000000 :=
      div_nonneg (Int.cast_nonneg (by omega)) (by norm_num)
    have hsuppressed : total_seconds (observed_at - last) < duration_seconds cooldown :=
      (total_seconds_neg (by omega)).trans_le (duration_seconds_nonneg cooldown)
    rw [if_neg hlater, iff_true_left hsuppressed, hage, abs_neg, abs_of_nonneg hpast]

/-- The doubles tell when the age and the cooldown are apart. -/
theorem observed_in_turn_of_apart {accepted : List WorkItem} {event : RuntimeEvent}
    {agent_id trigger : String} {cooldown : Duration} (hvalue : 2 ^ (-1000 : ℤ) ≤ cooldown.number)
    (hapart : ∀ last ∈ last_accepted accepted agent_id trigger,
      last.event.observed_at ≤ event.observed_at ∧ cooldown.seconds * 2 ^ (-50 : ℤ) <
        |((event.observed_at - last.event.observed_at : ℤ) : ℚ) / 1000000 - cooldown.seconds|) :
    ObservedInTurn accepted event agent_id trigger cooldown := by
  intro last hlast
  obtain ⟨hlater, hage⟩ := hapart last hlast
  rw [if_pos hlater]
  exact readExactly_of_apart (by omega) hvalue hage

/-- A trigger that takes an event suppresses it if it fired less than its cooldown ago. -/
theorem suppresses_eq {event : RuntimeEvent} {agent : RuntimeAgent} {name type : String}
    {source subject : Option String} {cooldown : Duration}
    (h : event_trigger_matches agent type source subject event = true) :
    suppresses s event agent (.event name type source subject cooldown) =
      in_cooldown (s.last_triggered (agent.id, name)) event.observed_at cooldown := by
  simp only [suppresses, match_trigger, h, not_true_eq_false, if_false]
  split
  · rename_i hcooldown
    rw [hcooldown]
    rfl
  · rename_i hcooldown
    rw [Bool.not_eq_true] at hcooldown
    rw [hcooldown]
    rfl

/-- An agent with a trigger that has no cooldown, alone. -/
def alarmed_config : ContinuousConfig where
  agents := [alarmed_agent "a"]
  max_queued_events := 2
  max_concurrent_invocations := 1
  graph := none
  budgeted := false
  payload_error := fun _ => "invalid payload"
  key_error := fun id => id
  graph_built := no_graph_built [alarmed_agent "a"]
  budgeted_graph := not_budgeted

theorem alarmed_init : (cooldown_system alarmed_config).init (.started alarmed_config 2, []) :=
  ⟨⟨2, by decide, by decide, rfl⟩, rfl⟩

/-- The alarm's source sends another one, which was observed before it. -/
def late_alarm : RuntimeEvent where
  event_id := "e2"
  type := "link.down"
  source := "telemetry"
  observed_at := -5000000
  sequence := 2

/-- The first alarm is enqueued and the dispatcher receives the second one. -/
def late_schedule : List ContinuousEvent :=
  [.offer alarm, .publish 0 none, .publish 0 none, .dispatcher, .dispatcher, .dispatcher,
    .dispatcher, .offer late_alarm, .publish 0 none, .publish 0 none, .dispatcher]

end MininetAi
