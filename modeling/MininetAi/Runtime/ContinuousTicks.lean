/-
Bounded ticks in the continuous runtime: an execution agent has at most one.

`_enqueue` admits a bounded tick to an empty queue whose agent has no marker, a
worker that takes the tick out sets the marker in the same section, and the thread
that is done with it removes the marker: the rule of a single flight. The marker is
set and removed in different threads under a budgeted coordinator, and it belongs to
the agent that executes, for whom several agents may be asked.

A worker whose wait for the supervisor raised takes its item without a marker; what
it has in hand is not counted here.
-/
import MininetAi.Lib.SingleFlight
import MininetAi.Runtime.ContinuousCoalesce

set_option autoImplicit false

namespace MininetAi

open Function

open List

open ContinuousState SingleFlight

variable {config : ContinuousConfig} {s s' : ContinuousState} {e : ContinuousEvent}

/-! ## Where ticks are -/

/-- A worker has taken a bounded tick of an agent, having found the agent running. -/
def Worker.takes (config : ContinuousConfig) (w : Worker) (id : String) : Bool :=
  decide (w.agent_id = id) && (w.marks config.budgeted).any WorkItem.bounded_tick

/-- A request thread is not done with a bounded tick of an agent. -/
def Request.takes (config : ContinuousConfig) (r : Request) (id : String) : Bool :=
  decide (config.execution_agent_id r.item.agent.id = id) && r.handles.any WorkItem.bounded_tick

namespace ContinuousState

/-- How many bounded ticks are in the queue of an agent. -/
def queued_ticks (s : ContinuousState) (id : String) : ℕ :=
  (s.queues id).countP WorkItem.bounded_tick

/-- How many bounded ticks of an agent the threads have in hand. -/
def taken_ticks (config : ContinuousConfig) (s : ContinuousState) (id : String) : ℕ :=
  s.workers.countP (·.takes config id) + s.requests.countP (·.takes config id)

/-- The activation is in the hands of a thread that will execute it, or was executed. -/
def Executed (s : ContinuousState) (item : WorkItem) : Prop :=
  item ∈ s.in_flight ∨ ∃ outcome, (item, .processed outcome) ∈ s.fates

end ContinuousState

/-- The rule, for the queues, the threads and the markers of the runtime. -/
abbrev TicksInFlight (config : ContinuousConfig) (s : ContinuousState) : Prop :=
  SingleFlight s.queued_ticks (s.taken_ticks config) s.bounded_active

/-! ## What a section does to the ticks -/

/-- A section that leaves the threads' hands and the markers alone. -/
theorem SingleFlight.of_frame (h : TicksInFlight config s)
    (hqueued : ∀ id, s'.queued_ticks id ≤ s.queued_ticks id) (hworkers : s'.workers = s.workers)
    (hrequests : s'.requests = s.requests) (hactive : s'.bounded_active = s.bounded_active) :
    TicksInFlight config s' := by
  have htaken : s'.taken_ticks config = s.taken_ticks config := by
    funext id
    rw [taken_ticks, hworkers, hrequests, taken_ticks]
  rw [TicksInFlight, htaken, hactive]
  exact h.fewer hqueued

variable {item : WorkItem} {w : Worker} {r : Request} {s₁ : ContinuousState}
  {event : RuntimeEvent}

variable {id : String} {i j : ℕ} {last_triggered : String × String → Option ℤ}

/-- `_enqueue` admits a bounded tick to an idle agent only. -/
theorem enqueued_ticks {execution : ExecutionConfiguration}
    (h : Enqueued config s id execution item s') (other : String) :
    s'.queued_ticks other ≤ s.queued_ticks other ∨
      (other ∉ s.bounded_active ∧ s'.queued_ticks other ≤ 1) := by
  have hplain : TickIdle s id item → s.queues id ≠ [] → item.bounded_tick = false := by
    intro hidle hne
    by_contra htick
    exact hne (hidle (Bool.not_eq_false _ ▸ htick)).2
  have hupdate : ∀ kept : List WorkItem, s'.queues = Function.update s.queues id kept →
      (kept.countP WorkItem.bounded_tick ≤ s.queued_ticks id ∨
        (id ∉ s.bounded_active ∧ kept.countP WorkItem.bounded_tick ≤ 1)) →
      s'.queued_ticks other ≤ s.queued_ticks other ∨
        (other ∉ s.bounded_active ∧ s'.queued_ticks other ≤ 1) := by
    intro kept hqueues hkept
    by_cases hother : other = id
    · rw [hother, queued_ticks, hqueues, update_self]
      exact hkept
    · refine .inl (le_of_eq ?_)
      rw [queued_ticks, hqueues, update_of_ne hother, queued_ticks]
  cases h with
  | tick_coalesced => exact .inl le_rfl
  | rejected => exact .inl le_rfl
  | @replaced index old hpolicy hold hkey hfirst hidle =>
    have hitem : item.bounded_tick = false := by
      refine hplain hidle fun hnil => ?_
      rw [hnil] at hold
      cases hold
    refine hupdate ((s.queues id).set index item) rfl (.inl ?_)
    have hset := List.countP_set_add WorkItem.bounded_tick item hold
    rw [hitem, Bool.toNat_false] at hset
    rw [queued_ticks]
    omega
  | @oldest_dropped dropped rest hpolicy hqueue hfull hfree =>
    have hitem : item.bounded_tick = false := by
      refine hplain hfree.idle ?_
      rw [hqueue]
      exact cons_ne_nil dropped rest
    refine hupdate (rest ++ [item]) ?_ (.inl ?_)
    · have hrest : (s.drop_oldest id dropped rest).queues = Function.update s.queues id rest := rfl
      simp only [ContinuousState.append, hrest, update_self, update_idem]
    · rw [queued_ticks, hqueue, countP_append, countP_singleton, hitem]
      exact (sublist_cons_self dropped rest).countP_le
  | appended hroom hglobal hfree =>
    refine hupdate (s.queues id ++ [item]) rfl ?_
    rw [countP_append, countP_singleton]
    by_cases htick : item.bounded_tick = true
    · obtain ⟨hmarker, hempty⟩ := hfree.idle htick
      rw [hempty, if_pos htick]
      exact .inr ⟨hmarker, le_rfl⟩
    · rw [if_neg htick]
      exact .inl le_rfl

/-- What a worker takes out of its queue is one activation less in it. -/
theorem pop_ticks {rest : List WorkItem} (hqueue : s.queues id = item :: rest) (other : String) :
    (s.pop id rest).queued_ticks other + share id item.bounded_tick other = s.queued_ticks other := by
  by_cases hother : id = other
  · subst hother
    rw [queued_ticks, pop_queues, queued_ticks, hqueue, countP_cons]
    cases htick : item.bounded_tick
    · simp [share]
    · simp [share]
  · rw [queued_ticks, s.pop_queues_of_ne (Ne.symm hother), share, decide_eq_false hother]
    rfl

/-- The marker of a bounded tick is set for its agent. -/
theorem mark_active (s : ContinuousState) (id : String) (item : WorkItem) :
    (∀ other ∈ s.bounded_active, other ∈ (s.mark id item).bounded_active) ∧
      (item.bounded_tick = true → id ∈ (s.mark id item).bounded_active) := by
  unfold ContinuousState.mark
  split
  · exact ⟨fun other hother => Finset.mem_insert_of_mem hother,
      fun _ => Finset.mem_insert_self id s.bounded_active⟩
  · rename_i htick
    exact ⟨fun other hother => hother, fun hbounded => absurd hbounded htick⟩

/-- The marker of a bounded tick is removed for its agent and no other. -/
theorem unmark_active (s : ContinuousState) (id : String) (item : WorkItem) :
    ∀ other ∈ s.bounded_active, ¬ (id = other ∧ item.bounded_tick = true) →
      other ∈ (s.unmark id item).bounded_active := by
  intro other hother hkept
  unfold ContinuousState.unmark
  split
  · rename_i htick
    exact Finset.mem_erase.mpr ⟨fun heq => hkept ⟨heq.symm, htick⟩, hother⟩
  · exact hother

/-- A worker that has marked an item takes it. -/
theorem Worker.takes_of_marks (h : w.marks config.budgeted = some item) (id : String) :
    (w.takes config id).toNat = share w.agent_id item.bounded_tick id := by
  rw [Worker.takes, h]
  rfl

/-- A worker that has marked nothing takes nothing. -/
theorem Worker.takes_of_no_marks {w : Worker} (h : w.marks config.budgeted = none) (id : String) :
    (w.takes config id).toNat = 0 := by
  rw [Worker.takes, h, Option.any_none, Bool.and_false]
  rfl

/-- A request thread that is not finished takes its item. -/
theorem Request.takes_of_phase (h : r.phase ≠ .finished) (id : String) :
    (r.takes config id).toNat =
      share (config.execution_agent_id r.item.agent.id) r.item.bounded_tick id := by
  rw [Request.takes, Request.handles, if_neg h]
  rfl

/-- What a worker has marked it handles, where no coordinator has a budget. -/
theorem Worker.marks_plain (hconf : config.budgeted = false) (w : Worker) :
    w.marks config.budgeted = w.handles := by
  rw [Worker.marks, hconf]
  exact if_neg Bool.false_ne_true

/-- When one worker changes, what it has taken is exchanged. -/
theorem taken_set_worker (config : ContinuousConfig) (hrequests : s₁.requests = s.requests)
    (hw : s.workers[i]? = some w) (w' : Worker) (id : String) :
    ({ s₁ with workers := s.workers.set i w' } : ContinuousState).taken_ticks config id +
        (w.takes config id).toNat = s.taken_ticks config id + (w'.takes config id).toNat := by
  have hset := List.countP_set_add (·.takes config id) w' hw
  simp only [taken_ticks, hrequests]
  omega

/-- When one request thread changes, what it has taken is exchanged. -/
theorem taken_set_request (config : ContinuousConfig) (hworkers : s₁.workers = s.workers)
    (hr : s.requests[j]? = some r) (r' : Request) (id : String) :
    ({ s₁ with requests := s.requests.set j r' } : ContinuousState).taken_ticks config id +
        (r.takes config id).toNat = s.taken_ticks config id + (r'.takes config id).toNat := by
  have hset := List.countP_set_add (·.takes config id) r' hr
  simp only [taken_ticks, hworkers]
  omega

/-! ## The rule is kept -/

theorem TicksInFlight.worker_step (h : TicksInFlight config s) (hplace : PlaceInv config s)
    (hw : s.workers[i]? = some w) {phase : WorkerPhase} (hstep : WorkerStep config s w s₁ phase) :
    TicksInFlight config { s₁ with workers := s.workers.set i { w with phase := phase } } := by
  have hidle : ∀ {w' : Worker}, w'.handles = none → ∀ id, (w'.takes config id).toNat = 0 :=
    fun hnone => Worker.takes_of_no_marks (marks_eq_none hnone)
  -- a worker whose marks stay as they are
  have hkept : (∀ id, s₁.queued_ticks id ≤ s.queued_ticks id) → s₁.requests = s.requests →
      s₁.bounded_active = s.bounded_active →
      (∀ id, (({ w with phase := phase } : Worker).takes config id).toNat =
        (w.takes config id).toNat) →
      TicksInFlight config { s₁ with workers := s.workers.set i { w with phase := phase } } := by
    intro hqueued hrequests hactive htakes
    have htaken : ({ s₁ with workers := s.workers.set i { w with phase := phase } } :
        ContinuousState).taken_ticks config = s.taken_ticks config := by
      funext id
      have hset := taken_set_worker config hrequests hw { w with phase := phase } id
      rw [htakes id] at hset
      omega
    rw [TicksInFlight, htaken]
    simp only [hactive]
    exact h.fewer hqueued
  cases hstep with
  | @take item rest hconf hphase hqueue =>
    have hnone : w.handles = none := by rw [Worker.handles, hphase]
    obtain ⟨hactive, hown⟩ := mark_active (s.pop w.agent_id rest) w.agent_id item
    refine h.take (fun id => ?_) (fun id => ?_) hactive hown
    · have hpop := pop_ticks hqueue id
      rw [← hpop, queued_ticks, queued_ticks]
      simp only [mark_queues]
    · have hset := taken_set_worker config
        ((pop_threads s w.agent_id rest).trans (mark_threads _ w.agent_id item)).requests_eq hw
        { w with phase := .processing item } id
      have hmarks : ({ w with phase := .processing item } : Worker).marks config.budgeted =
          some item := by
        rw [Worker.marks_plain hconf]
        rfl
      rw [hidle hnone id, Worker.takes_of_marks hmarks id] at hset
      exact hset
  | @reserved_take item rest hconf hphase hqueue =>
    have hnone : w.handles = none := by rw [Worker.handles, hphase]
    obtain ⟨hactive, hown⟩ := mark_active
      { s.pop w.agent_id rest with active_requests := s.active_requests + 1 } w.agent_id item
    refine h.take (fun id => ?_) (fun id => ?_) hactive hown
    · have hpop := pop_ticks hqueue id
      rw [← hpop, queued_ticks, queued_ticks]
      simp only [mark_queues]
    · have hset := taken_set_worker config (mark_threads
        { s.pop w.agent_id rest with active_requests := s.active_requests + 1 }
        w.agent_id item).requests_eq hw { w with phase := .submitting item } id
      have hmarks : ({ w with phase := .submitting item } : Worker).marks config.budgeted =
          some item := by
        rw [Worker.marks, hconf]
        rfl
      rw [hidle hnone id, Worker.takes_of_marks hmarks id] at hset
      exact hset
  | @submit item hconf hphase =>
    -- the item goes to the new request thread, and its agent is the worker's
    have hhandles : w.handles = some item := by rw [Worker.handles, hphase]
    have hmarks : w.marks config.budgeted = some item := by
      rw [Worker.marks, hconf, hphase]
      rfl
    have hown := (hplace.worker w (mem_of_getElem? hw) item hhandles).1
    have htaken : ({ s with
        requests := s.requests ++ [{ item := item }]
        workers := s.workers.set i { w with phase := .waiting } } :
          ContinuousState).taken_ticks config = s.taken_ticks config := by
      funext id
      have hset := List.countP_set_add (·.takes config id) { w with phase := .waiting } hw
      rw [@hidle { w with phase := .waiting } rfl id, Worker.takes_of_marks hmarks id] at hset
      have hnew : (({ item := item } : Request).takes config id).toNat =
          share w.agent_id item.bounded_tick id :=
        (Request.takes_of_phase (by rintro ⟨⟩) id).trans
          (congrArg (fun own => share own item.bounded_tick id) hown)
      rw [Bool.toNat, Bool.cond_eq_ite] at hnew
      simp only [taken_ticks, countP_append, countP_singleton]
      omega
    rw [TicksInFlight, htaken]
    exact h
  | @unmark item hconf hphase =>
    have hmarks : w.marks config.budgeted = some item := by
      rw [Worker.marks_plain hconf, Worker.handles, hphase]
    have hqueues : (s.unmark w.agent_id item).queues = s.queues := unmark_queues s w.agent_id item
    have hqueued : ∀ id, (s.unmark w.agent_id item).queued_ticks id ≤ s.queued_ticks id := by
      intro id
      rw [queued_ticks, hqueues, queued_ticks]
    refine SingleFlight.fewer (h.release (fun id => ?_) (unmark_active s w.agent_id item)) hqueued
    have hset := taken_set_worker config (unmark_threads s w.agent_id item).requests_eq hw
      { w with phase := .waiting } id
    rw [@hidle { w with phase := .waiting } rfl id, Worker.takes_of_marks hmarks id] at hset
    exact hset
  | @process item outcome phase hphase hafter =>
    have hthreads := process_threads s item outcome
    have hstays : ∀ id, (({ w with phase := phase } : Worker).takes config id).toNat =
        (w.takes config id).toNat := by
      intro id
      have hmarks : ({ w with phase := phase } : Worker).marks config.budgeted =
          w.marks config.budgeted := by
        unfold Worker.marks Worker.handles
        rw [hphase]
        rcases hafter with rfl | rfl
        · rfl
        · rfl
      rw [Worker.takes, hmarks, Worker.takes]
    cases outcome
    · exact hkept (fun _ => le_rfl) hthreads.requests_eq rfl hstays
    · exact hkept (fun _ => le_rfl) hthreads.requests_eq rfl hstays
  | @count_failure item hphase =>
    refine hkept (fun _ => le_rfl) rfl rfl fun id => ?_
    have hmarks : ({ w with phase := .processed item } : Worker).marks config.budgeted =
        w.marks config.budgeted := by
      unfold Worker.marks Worker.handles
      rw [hphase]
    rw [Worker.takes, hmarks, Worker.takes]
  | @refused_take item rest hconf hphase hqueue =>
    have hunmarked : ({ w with phase := .processing item } : Worker).marks config.budgeted =
        none := by
      rw [Worker.marks, hconf]
      rfl
    refine hkept (fun id => ?_) rfl rfl fun id => ?_
    · have hpop := pop_ticks hqueue id
      omega
    · rw [Worker.takes_of_no_marks hunmarked id, hidle (by rw [Worker.handles, hphase]) id]
  | return_empty hphase | close hphase | return_closed hphase | acquire _ hphase
  | reserved_empty _ hphase =>
    refine hkept (fun _ => le_rfl) rfl rfl fun id => ?_
    rw [hidle rfl id, hidle (by rw [Worker.handles, hphase]) id]
  | advance hconf hphases =>
    refine hkept (fun _ => le_rfl) rfl rfl fun id => ?_
    have hbefore : w.marks config.budgeted = none := by
      rw [Worker.marks, hconf, if_pos rfl]
      rcases hphases with ⟨hp, _⟩ | ⟨hp, _⟩ | ⟨hp, _⟩ | ⟨hp, _⟩ | ⟨_, hp, _⟩
      all_goals rw [hp]
    have hafter : ({ w with phase := phase } : Worker).marks config.budgeted = none := by
      rw [Worker.marks, hconf, if_pos rfl]
      rcases hphases with ⟨_, rfl⟩ | ⟨_, rfl | rfl⟩ | ⟨_, rfl⟩ | ⟨_, rfl⟩ | ⟨_, _, rfl⟩
      all_goals rfl
    rw [Worker.takes_of_no_marks hbefore id, Worker.takes_of_no_marks hafter id]

theorem TicksInFlight.request_step (h : TicksInFlight config s) (hr : s.requests[j]? = some r)
    {phase : RequestPhase} (hstep : RequestStep config s r s₁ phase) :
    TicksInFlight config { s₁ with requests := s.requests.set j { r with phase := phase } } := by
  have hset := taken_set_request config hstep.threads.workers_eq hr { r with phase := phase }
  have hqueued : ∀ id, s₁.queued_ticks id ≤ s.queued_ticks id := by
    intro id
    rw [queued_ticks, hstep.queues_eq, queued_ticks]
  -- a request thread that goes on with its item
  have hgoes : r.phase ≠ .finished → phase ≠ .finished → s₁.bounded_active = s.bounded_active →
      TicksInFlight config { s₁ with requests := s.requests.set j { r with phase := phase } } := by
    intro hbefore hafter hactive
    have htaken : ({ s₁ with requests := s.requests.set j { r with phase := phase } } :
        ContinuousState).taken_ticks config = s.taken_ticks config := by
      funext id
      have hid := hset id
      rw [Request.takes_of_phase hbefore id, Request.takes_of_phase hafter id] at hid
      exact Nat.add_right_cancel hid
    rw [TicksInFlight, htaken]
    simp only [hactive]
    exact h.fewer hqueued
  cases hstep with
  | @process outcome phase hphase hafter =>
    have hne : phase ≠ .finished := by
      rcases hafter with rfl | rfl
      all_goals rintro ⟨⟩
    have hbefore : r.phase ≠ .finished := by rw [hphase]; rintro ⟨⟩
    cases outcome
    · exact hgoes hbefore hne rfl
    · exact hgoes hbefore hne rfl
  | count_failure hphase => exact hgoes (by rw [hphase]; rintro ⟨⟩) (by rintro ⟨⟩) rfl
  | release hphase => exact hgoes (by rw [hphase]; rintro ⟨⟩) (by rintro ⟨⟩) rfl
  | finish hphase =>
    have hbefore : r.phase ≠ .finished := by rw [hphase]; rintro ⟨⟩
    have hafter : ∀ id, (({ r with phase := .finished } : Request).takes config id).toNat = 0 := by
      intro id
      rw [Request.takes, Request.handles, if_pos rfl, Option.any_none, Bool.and_false]
      rfl
    refine SingleFlight.fewer (h.release (fun id => ?_)
      (unmark_active { s with active_requests := s.active_requests - 1 }
        (config.execution_agent_id r.item.agent.id) r.item)) hqueued
    have hid := hset id
    rw [Request.takes_of_phase hbefore id, hafter id] at hid
    exact hid

theorem TicksInFlight.dispatcher_step (h : TicksInFlight config s)
    (hstep : DispatcherStep config s s') : TicksInFlight config s' := by
  cases hstep with
  | receive | drop | all_enqueued => exact h
  | close =>
    obtain ⟨s₁, hdropped, _, _, hs₁⟩ := close_workers_spec config s
    have hqueued : ∀ id, s₁.queued_ticks id ≤ s.queued_ticks id := by
      intro id
      rw [queued_ticks, queued_ticks]
      rcases hdropped.queues_eq id with hnil | heq
      · rw [hnil]
        exact Nat.zero_le _
      · rw [heq]
    obtain ⟨queues, queued, counts, issues, fates, rfl⟩ := hdropped.frame
    rw [hs₁]
    exact SingleFlight.of_frame h hqueued rfl rfl rfl
  | dispatch hphase hdrain hdispatched =>
    cases hdispatched
    · exact h
    · exact h
  | @enqueue item items agent s₁ hphase hagent henqueued =>
    have hthreads := henqueued.threads
    have hactive : s₁.bounded_active = s.bounded_active := enqueued_active_eq henqueued
    have htaken : s₁.taken_ticks config = s.taken_ticks config := by
      funext id
      rw [taken_ticks, hthreads.workers_eq, hthreads.requests_eq, taken_ticks]
    have hadmitted : TicksInFlight config s₁ := by
      rw [TicksInFlight, htaken, hactive]
      exact h.admitted (enqueued_ticks henqueued)
    exact hadmitted

theorem TicksInFlight.step (h : TicksInFlight config s) (hplace : PlaceInv config s)
    (hs : ContinuousStep config s e s') : TicksInFlight config s' := by
  cases hs with
  | offer | interval | interval_return | stop_raise => exact h
  | publish hp hstep =>
    have hframe := publish_frame hstep
    refine SingleFlight.of_frame h (fun id => ?_) hframe.workers_eq hframe.requests_eq
      hframe.bounded_active_eq
    rw [queued_ticks, hframe.queues_eq, queued_ticks]
  | dispatcher hstep => exact TicksInFlight.dispatcher_step h hstep
  | worker hw hstep => exact TicksInFlight.worker_step h hplace hw hstep
  | request hr hstep => exact TicksInFlight.request_step h hr hstep
  | stop drain =>
    rcases begin_stop_cases s drain with ⟨_, heq⟩ | ⟨_, heq⟩ | ⟨_, heq⟩
    all_goals
      rw [heq]
      exact h
  | @stop_section k c s₁ phase hc hstep =>
    generalize c.phase = before at hstep
    cases hstep with
    | _ => exact h

/-- An execution agent has at most one bounded tick, and the marker while a thread has
it in hand. -/
theorem ticks_in_flight (h : (continuous_system config).Reachable s) : TicksInFlight config s := by
  refine h.invariant (P := TicksInFlight config) ?_ ?_
  · rintro _ ⟨capacity, _, _, rfl⟩
    refine SingleFlight.idle (fun id => rfl) fun id => ?_
    have hworkers : (config.agents.flatMap (start_workers config)).countP
        (·.takes config id) = 0 := by
      apply countP_eq_zero.mpr
      intro w hw htakes
      obtain ⟨agent, _, hmem⟩ := mem_flatMap.mp hw
      rw [eq_of_mem_replicate hmem] at htakes
      have hnone := @Worker.takes_of_no_marks config { agent_id := agent.id } (marks_eq_none rfl) id
      rw [htakes] at hnone
      cases hnone
    rw [taken_ticks]
    exact hworkers
  · intro s e s' hreach hinv hs
    exact TicksInFlight.step hinv (place_inv hreach) (continuous_step_cases hs)

/-! ## A tick is one activation -/

/-- Where the dispatcher remembers a sequence, it remembers it or a later one. -/
def Follows (last_sequences last_sequences' : String → Option ℕ) : Prop :=
  ∀ source, ∀ sequence ∈ last_sequences source, ∃ sequence' ∈ last_sequences' source,
    sequence ≤ sequence'

theorem Follows.refl (last_sequences : String → Option ℕ) : Follows last_sequences last_sequences :=
  fun _ sequence hsequence => ⟨sequence, hsequence, le_rfl⟩

/-- An event in order moves its source on. -/
theorem Follows.record {last_sequences : String → Option ℕ}
    (h : in_order (last_sequences event.source) event.sequence = true) :
    Follows last_sequences (record_sequence last_sequences event) := by
  intro source sequence hsequence
  by_cases hsource : source = event.source
  · rw [hsource] at hsequence ⊢
    refine ⟨event.sequence, update_self .., ?_⟩
    rw [Option.mem_def] at hsequence
    rw [hsequence, in_order, decide_eq_true_eq] at h
    omega
  · refine ⟨sequence, ?_, le_rfl⟩
    rw [record_sequence, update_of_ne hsource]
    exact hsequence

/-- What the dispatcher does to the activations and to its memory of the sources. -/
inductive EventStep (config : ContinuousConfig) (s s' : ContinuousState) : Prop
  | same (hactivations : s'.activations = s.activations)
      (hlast : Follows s.last_sequences s'.last_sequences)
  | matched {event : RuntimeEvent} {issues : List ContinuousIssue} {items : List WorkItem}
      (horder : in_order (s.last_sequences event.source) event.sequence = true)
      (hmatches : event_matches config s.last_triggered s.scheduled_ticks event = .ok (issues, items))
      (hactivations : s'.activations = s.activations ++ items)
      (hlast : s'.last_sequences = record_sequence s.last_sequences event)

theorem dispatch_event_step (config : ContinuousConfig) (s : ContinuousState)
    (event : RuntimeEvent) : EventStep config s (s.dispatch config event) := by
  unfold ContinuousState.dispatch
  dsimp only
  split
  · exact .same rfl (.refl _)
  · rename_i horder
    rw [not_not] at horder
    split
    · exact .same rfl (.record horder)
    · rename_i issues items hmatches
      exact .matched horder hmatches rfl rfl

theorem dispatcher_event_step (h : s.dispatcher_section config = some s') :
    EventStep config s s' := by
  cases dispatcher_section_cases h with
  | receive | drop | all_enqueued => exact .same rfl (.refl _)
  | close =>
    obtain ⟨s₁, hdropped, _, _, hs₁⟩ := close_workers_spec config s
    obtain ⟨queues, queued, counts, issues, fates, rfl⟩ := hdropped.frame
    rw [hs₁]
    exact .same rfl (.refl _)
  | enqueue hphase hagent henqueued =>
    refine .same henqueued.threads.activations_eq ?_
    cases henqueued with
    | _ => exact .refl _
  | @dispatch event s₁ hphase hdrain =>
    -- what the section leaves is what `_dispatch` computes
    rw [dispatcher_section, hphase] at h
    simp only [hdrain, if_true, Option.some.injEq] at h
    rw [← h]
    cases dispatch_event_step config s event with
    | same hactivations hlast => exact .same hactivations hlast
    | matched horder hmatches hactivations hlast =>
      exact .matched horder hmatches hactivations hlast

/-- Only `_dispatch` matches events. -/
theorem continuous_event_step (h : (continuous_system config).step s e = some s') :
    EventStep config s s' := by
  by_cases he : e = .dispatcher
  · subst he
    exact dispatcher_event_step h
  · obtain ⟨hlast, _, hactivations⟩ := (continuous_step_cases h).memory he
    refine .same hactivations ?_
    rw [hlast]
    exact .refl _

/-- An event trigger has no scheduled tick. -/
theorem untimed_match {agent : RuntimeAgent} {trigger : Trigger}
    (h : match_trigger last_triggered event agent trigger = some (.inr item)) :
    item.bounded_tick = false := by
  unfold match_trigger at h
  split at h
  · cases h
  · cases h
  · split at h
    · cases h
    split at h
    · cases h
    · cases h
      rfl

/-- An event makes at most one bounded tick. -/
theorem ticks_of_event {scheduled_ticks : String → Option ℚ} {issues : List ContinuousIssue}
    {items : List WorkItem}
    (h : event_matches config last_triggered scheduled_ticks event = .ok (issues, items)) :
    (items.filter WorkItem.bounded_tick).Nodup := by
  have hnone : ([], []) = (issues, items) → (items.filter WorkItem.bounded_tick).Nodup := by
    intro heq
    cases heq
    exact nodup_nil
  have hone : ∀ found : WorkItem, ([], [found]) = (issues, items) →
      (items.filter WorkItem.bounded_tick).Nodup := by
    intro found heq
    cases heq
    exact (nodup_singleton found).filter _
  unfold event_matches at h
  split at h
  · split at h
    · split at h
      · cases h
      split at h
      · exact hnone (Except.ok.inj h)
      · exact hone _ (Except.ok.inj h)
    · cases h
  split at h
  · split at h
    · split at h
      · cases h
      split at h
      · exact hnone (Except.ok.inj h)
      · exact hone _ (Except.ok.inj h)
    · cases h
  · cases h
    refine (filter_eq_nil_iff.mpr fun item hitem => ?_) ▸ nodup_nil
    obtain ⟨found, hfound, hright⟩ := mem_filterMap.mp hitem
    obtain ⟨agent, _, trigger, _, hmatch⟩ := mem_match_triggers hfound
    rw [Sum.getRight?_eq_some_iff.mp hright] at hmatch
    rw [untimed_match hmatch]
    exact Bool.false_ne_true

/-- The bounded ticks that were matched, and the sequences of their events. -/
structure TickEvents (s : ContinuousState) : Prop where
  recorded : ∀ item ∈ s.activations, ∃ last ∈ s.last_sequences item.event.source,
    item.event.sequence ≤ last
  nodup : (s.activations.filter WorkItem.bounded_tick).Nodup

theorem TickEvents.step (h : TickEvents s) (hs : EventStep config s s') : TickEvents s' := by
  cases hs with
  | same hactivations hlast =>
    refine ⟨fun item hitem => ?_, hactivations ▸ h.nodup⟩
    rw [hactivations] at hitem
    obtain ⟨last, hmem, hle⟩ := h.recorded item hitem
    obtain ⟨last', hmem', hle'⟩ := hlast _ last hmem
    exact ⟨last', hmem', hle.trans hle'⟩
  | @matched event issues items horder hmatches hactivations hlast =>
    have hown : ∀ item ∈ items, item.event = event :=
      fun item hitem => (event_matches_items hmatches item hitem).event_eq
    refine ⟨fun item hitem => ?_, ?_⟩
    · rw [hactivations] at hitem
      rw [hlast]
      rcases mem_append.mp hitem with hold | hnew
      · obtain ⟨last, hmem, hle⟩ := h.recorded item hold
        obtain ⟨last', hmem', hle'⟩ := Follows.record horder _ last hmem
        exact ⟨last', hmem', hle.trans hle'⟩
      · rw [hown item hnew]
        exact ⟨event.sequence, update_self .., le_rfl⟩
    · rw [hactivations, filter_append]
      refine nodup_append.mpr ⟨h.nodup, ticks_of_event hmatches, ?_⟩
      -- an earlier activation is of an earlier event of its source
      rintro item hold _ hnew rfl
      obtain ⟨last, hmem, hle⟩ := h.recorded item (mem_of_mem_filter hold)
      rw [hown item (mem_of_mem_filter hnew)] at hmem hle
      rw [Option.mem_def] at hmem
      rw [hmem, in_order, decide_eq_true_eq] at horder
      exact horder hle

theorem tick_events (h : (continuous_system config).Reachable s) : TickEvents s := by
  apply h.invariant
  · rintro _ ⟨capacity, _, _, rfl⟩
    exact ⟨fun item hitem => (by cases hitem), nodup_nil⟩
  · intro s e s' _ hinv hs
    exact hinv.step (continuous_event_step hs)

/-- A bounded tick that has a fate has no other one, and nobody executes it. -/
theorem fated_tick (hwork : WorkInv config s) (hticks : TickEvents s) {fate : Fate}
    (hfate : (item, fate) ∈ s.fates) (htick : item.bounded_tick = true) :
    item ∉ s.in_flight ∧ ∀ fate', (item, fate') ∈ s.fates → fate' = fate := by
  have hconserved : (s.activations : Multiset WorkItem) = ↑s.dispatcher.pending +
      contents config.ids s.queues + ↑s.in_flight + ↑(s.fates.map Prod.fst) :=
    hwork.kept.books.conserved
  have hnodup : (Multiset.filter (·.bounded_tick = true) (s.activations : Multiset WorkItem)).Nodup := by
    rw [Multiset.filter_coe]
    simpa using hticks.nodup
  rw [hconserved, Multiset.filter_add] at hnodup
  obtain ⟨_, hfates, hdisjoint⟩ := Multiset.nodup_add.mp hnodup
  constructor
  · intro hflight
    have hended : item ∈ s.fates.map Prod.fst := mem_map.mpr ⟨_, hfate, rfl⟩
    refine Multiset.disjoint_left.mp hdisjoint (Multiset.mem_filter.mpr ⟨?_, htick⟩)
      (Multiset.mem_filter.mpr ⟨Multiset.mem_coe.mpr hended, htick⟩)
    exact Multiset.mem_add.mpr (.inr (Multiset.mem_coe.mpr hflight))
  · intro fate' hfate'
    have hmap : (s.fates.map Prod.fst).filter (fun item => item.bounded_tick) =
        (s.fates.filter fun f => f.1.bounded_tick).map Prod.fst := filter_map ..
    rw [Multiset.filter_coe, Multiset.coe_nodup] at hfates
    have hkeys : ((s.fates.filter fun f => f.1.bounded_tick).map Prod.fst).Nodup := by
      rw [← hmap]
      simpa using hfates
    have hsame := inj_on_of_nodup_map hkeys
      (mem_filter.mpr ⟨hfate', htick⟩) (mem_filter.mpr ⟨hfate, htick⟩) rfl
    exact congrArg Prod.snd hsame

/-- What was coalesced stays so. -/
theorem coalescings_kept {es : List ContinuousEvent} : ∀ {s : ContinuousState},
    (continuous_system config).Reachable s → (continuous_system config).run s es = some s' →
      ∀ f ∈ s.coalescings, f ∈ s'.coalescings := by
  induction es with
  | nil =>
    intro s _ hrun f hf
    cases hrun
    exact hf
  | cons e es ih =>
    intro s hreach hrun f hf
    obtain ⟨s₁, hs₁, hrest⟩ := Option.bind_eq_some_iff.mp hrun
    obtain ⟨ends, hends, _⟩ := coalesced_in_favour hreach (continuous_step_cases hs₁)
    refine ih (.step hreach hs₁) hrest f ?_
    rw [hends]
    exact mem_append_left ends hf

/-- In every reachable state an execution agent has at most one bounded tick that is
queued or was taken by a worker that found the agent running, and a tick that was
coalesced away is not executed, then or later. -/
theorem one_tick_at_a_time (config : ContinuousConfig) {s : ContinuousState}
    (h : (continuous_system config).Reachable s) :
    (∀ id, s.queued_ticks id + s.taken_ticks config id ≤ 1) ∧
      ∀ item fate, (item, fate) ∈ s.coalescings → item.bounded_tick = true →
        ∀ es s', (continuous_system config).run s es = some s' → ¬ s'.Executed item := by
  refine ⟨(ticks_in_flight h).once, ?_⟩
  intro item fate hfate htick es s' hrun hexecuted
  have hreach := h.run hrun
  have hkept := coalescings_kept h hrun _ hfate
  obtain ⟨hmem, hmerged⟩ := mem_filter.mp hkept
  obtain ⟨hflight, hunique⟩ := fated_tick (work_inv hreach) (tick_events hreach) hmem htick
  rcases hexecuted with hheld | ⟨outcome, hprocessed⟩
  · exact hflight hheld
  · rw [← hunique _ hprocessed] at hmerged
    cases hmerged

/-- The tick of an agent is dropped while the coordinator has an alarm in its queue. -/
theorem one_tick_at_a_time_alarmed :
    ∃ s item fate, (continuous_system centralized_config).Reachable s ∧
      (item, fate) ∈ s.coalescings ∧ item.bounded_tick = true ∧
      s.queued_ticks "coordinator" + s.taken_ticks centralized_config "coordinator" ≤ 1 ∧
      ¬ s.Executed item := by
  have hreplay : ((continuous_system centralized_config).run (.started centralized_config 4)
      alarmed_tick_schedule).any
      (fun s => s.coalescings.any fun f => f.1.bounded_tick) = true := by decide
  obtain ⟨s, hs, hstate⟩ := (Option.any_eq_true _ _).mp hreplay
  obtain ⟨⟨item, fate⟩, hmem, htick⟩ := any_eq_true.mp hstate
  have hreach := System.Reachable.run (.init centralized_init) hs
  obtain ⟨honce, hcoalesced⟩ := one_tick_at_a_time centralized_config hreach
  exact ⟨s, item, fate, hreach, hmem, htick, honce "coordinator",
    hcoalesced item fate hmem htick [] s rfl⟩

end MininetAi
