/-
Where the activations of the continuous runtime are.

Every activation that is pending, queued or in some thread's hands was matched by
`_matches`, it is in the queue of the agent that executes it, and a worker takes it
from that queue. The marker of a bounded tick has its owner: a thread that has the
tick in hand and will remove the marker (`PlaceInv`).
-/
import MininetAi.Runtime.ContinuousStop

set_option autoImplicit false

namespace MininetAi

open List

open ContinuousState

variable {config : ContinuousConfig} {s s' : ContinuousState} {e : ContinuousEvent}

/-! ## Activations as they were matched -/

/-- What holds of every activation since `_matches`. -/
structure WorkItem.Matched (config : ContinuousConfig) (item : WorkItem) : Prop where
  agent_known : item.agent ∈ config.agents
  key_eq : item.coalesce_key = (item.trigger, item.event.subject)

/-- Only `_dispatch` makes activations. -/
theorem ContinuousStep.activations_cases (hs : ContinuousStep config s e s') :
    s'.activations = s.activations ∨ ∃ event cooldowns items, s.dispatcher = .received event ∧
        event_matches config s.last_triggered s.scheduled_ticks event = .ok (cooldowns, items) ∧
        s'.activations = s.activations ++ items := by
  cases hs with
  | offer | interval | interval_return | stop_raise => exact .inl rfl
  | publish hp hstep => exact .inl (publish_frame hstep).activations_eq
  | worker hw hstep => exact .inl hstep.stages.activations_eq
  | request hr hstep => exact .inl hstep.threads.activations_eq
  | stop drain =>
    rcases begin_stop_cases s drain with ⟨_, heq⟩ | ⟨_, heq⟩ | ⟨_, heq⟩
    all_goals
      rw [heq]
      exact .inl rfl
  | @stop_section k c s₁ phase hc hstep =>
    generalize c.phase = before at hstep
    cases hstep with
    | _ => exact .inl rfl
  | dispatcher hstep =>
    cases hstep with
    | receive | drop | all_enqueued => exact .inl rfl
    | enqueue hphase hagent henqueued => exact .inl henqueued.threads.activations_eq
    | close =>
      obtain ⟨s₁, hdropped, _, _, hs₁⟩ := close_workers_spec config s
      obtain ⟨queues, queued, counts, issues, fates, rfl⟩ := hdropped.frame
      rw [hs₁]
      exact .inl rfl
    | @dispatch event s₁ hphase hdrain hdispatched =>
      cases hdispatched with
      | rejected => exact .inl rfl
      | @matched cooldowns items horder hmatches =>
        exact .inr ⟨event, cooldowns, items, hphase, hmatches, rfl⟩

theorem matched_inv (h : (continuous_system config).Reachable s) :
    ∀ item ∈ s.activations, item.Matched config := by
  refine h.invariant (P := fun s => ∀ item ∈ s.activations, item.Matched config) ?_ ?_
  · rintro _ ⟨capacity, _, _, rfl⟩ item hitem
    cases hitem
  · intro s e s' _ hinv hs
    rcases (continuous_step_cases hs).activations_cases with heq |
      ⟨event, cooldowns, items, _, hmatches, heq⟩
    · rw [heq]
      exact hinv
    · rw [heq]
      intro item hitem
      rcases mem_append.mp hitem with hold | hnew
      · exact hinv item hold
      · obtain ⟨hknown, hevent, hkey⟩ := event_matches_items hmatches item hnew
        exact ⟨hknown, hevent ▸ hkey⟩

/-- What is pending, queued or in flight was matched. -/
theorem WorkInv.pending_matched (h : WorkInv config s) :
    ∀ item ∈ s.dispatcher.pending, item ∈ s.activations := by
  intro item hitem
  have hconserved := h.kept.books.conserved
  have hmem : item ∈ (s.activations : Multiset WorkItem) := by
    rw [ContinuousState.books] at hconserved
    rw [hconserved]
    simp only [Multiset.mem_add, Multiset.mem_coe]
    exact .inl (.inl (.inl hitem))
  exact hmem

variable {id other : String} {w : Worker} {item : WorkItem} {s₁ : ContinuousState}

theorem WorkInv.queued_matched (h : WorkInv config s) (hid : id ∈ config.ids) :
    ∀ item ∈ s.queues id, item ∈ s.activations := by
  intro item hitem
  have hconserved := h.kept.books.conserved
  have hmem : item ∈ (s.activations : Multiset WorkItem) := by
    rw [ContinuousState.books] at hconserved
    rw [hconserved]
    simp only [Multiset.mem_add, Multiset.mem_coe]
    exact .inl (.inl (.inr (mem_contents hid hitem)))
  exact hmem

/-! ## Where activations are -/

/-- The item for which a worker has set the marker of its agent, if it is a bounded
tick. -/
def Worker.marks (budgeted : Bool) (w : Worker) : Option WorkItem :=
  if budgeted then
    match w.phase with
    | .submitting item => some item
    | _ => none
  else w.handles

theorem Worker.handles_of_marks {budgeted : Bool} (h : w.marks budgeted = some item) :
    w.handles = some item := by
  unfold Worker.marks at h
  split at h
  · split at h
    · rename_i hphase
      rw [Worker.handles, hphase]
      exact h
    · cases h
  · exact h

/-- Somebody has set the marker of an agent and not yet removed it. -/
inductive Marker (config : ContinuousConfig) (s : ContinuousState) (id : String) : Prop
  | worker {i : ℕ} {w : Worker} {item : WorkItem} (hw : s.workers[i]? = some w)
      (hmarks : w.marks config.budgeted = some item) (htick : item.bounded_tick = true)
      (hid : w.agent_id = id)
  | request {j : ℕ} {r : Request} (hr : s.requests[j]? = some r) (hphase : r.phase ≠ .finished)
      (htick : r.item.bounded_tick = true) (hid : config.execution_agent_id r.item.agent.id = id)

/-- Every activation is with the agent that executes it, and a marker has its owner. -/
structure PlaceInv (config : ContinuousConfig) (s : ContinuousState) : Prop where
  queued : ∀ id, ∀ item ∈ s.queues id, config.execution_agent_id item.agent.id = id
  worker : ∀ w ∈ s.workers, ∀ item, w.handles = some item →
    config.execution_agent_id item.agent.id = w.agent_id ∧ item ∈ s.activations
  request : ∀ r ∈ s.requests, r.item ∈ s.activations
  marker : ∀ id ∈ s.bounded_active, Marker config s id

/-- A section that leaves the threads alone and puts nothing into a queue but what is
executed there. -/
theorem PlaceInv.of_frame (h : PlaceInv config s) (hqueues : ∀ id, ∀ item ∈ s'.queues id,
      item ∈ s.queues id ∨ config.execution_agent_id item.agent.id = id)
    (hworkers : s'.workers = s.workers) (hrequests : s'.requests = s.requests)
    (hactive : s'.bounded_active = s.bounded_active)
    (hmatched : ∀ item ∈ s.activations, item ∈ s'.activations) : PlaceInv config s' where
  queued id item hitem := (hqueues id item hitem).elim (h.queued id item) fun heq => heq
  worker w hw item hitem := by
    rw [hworkers] at hw
    obtain ⟨hid, hmem⟩ := h.worker w hw item hitem
    exact ⟨hid, hmatched item hmem⟩
  request r hr := by
    rw [hrequests] at hr
    exact hmatched r.item (h.request r hr)
  marker id hid := by
    rw [hactive] at hid
    cases h.marker id hid with
    | worker hw hmarks htick hid => exact .worker (hworkers ▸ hw) hmarks htick hid
    | request hr hphase htick hid => exact .request (hrequests ▸ hr) hphase htick hid

variable {execution : ExecutionConfiguration} {phase : WorkerPhase}

/-- `_enqueue` puts its activation into the queue of the agent that executes it. -/
theorem enqueued_mem_queues (h : Enqueued config s id execution item s') {queued : WorkItem}
    (hqueued : queued ∈ s'.queues other) : queued ∈ s.queues other ∨ (queued = item ∧ other = id) := by
  have hupdate : ∀ kept : List WorkItem, queued ∈ Function.update s.queues id kept other →
      (queued ∈ kept → queued ∈ s.queues id ∨ queued = item) →
      queued ∈ s.queues other ∨ (queued = item ∧ other = id) := by
    intro kept hmem hkept
    by_cases heq : other = id
    · rw [heq, Function.update_self] at hmem
      rw [heq]
      exact (hkept hmem).imp_right fun hnew => ⟨hnew, rfl⟩
    · rw [Function.update_of_ne heq] at hmem
      exact .inl hmem
  cases h with
  | tick_coalesced => exact .inl hqueued
  | rejected => exact .inl hqueued
  | @replaced index old =>
    refine hupdate ((s.queues id).set index item) hqueued fun hmem => ?_
    exact mem_or_eq_of_mem_set hmem
  | appended =>
    refine hupdate (s.queues id ++ [item]) hqueued fun hmem => ?_
    exact (mem_append.mp hmem).imp_right mem_singleton.mp
  | @oldest_dropped dropped rest hpolicy hqueue =>
    have hrest : (s.drop_oldest id dropped rest).queues = Function.update s.queues id rest := rfl
    simp only [ContinuousState.append, hrest, Function.update_self, Function.update_idem] at hqueued
    refine hupdate (rest ++ [item]) hqueued fun hmem => ?_
    refine (mem_append.mp hmem).imp (fun hold => ?_) mem_singleton.mp
    rw [hqueue]
    exact mem_cons_of_mem dropped hold

theorem enqueued_active_eq (h : Enqueued config s id execution item s') :
    s'.bounded_active = s.bounded_active := by
  cases h with
  | _ => rfl

theorem mem_mark (h : other ∈ (s.mark id item).bounded_active) :
    other ∈ s.bounded_active ∨ (other = id ∧ item.bounded_tick = true) := by
  unfold ContinuousState.mark at h
  split at h
  · rename_i htick
    exact (Finset.mem_insert.mp h).symm.imp_right fun heq => ⟨heq, htick⟩
  · exact .inl h

theorem mem_unmark (h : other ∈ (s.unmark id item).bounded_active) :
    other ∈ s.bounded_active ∧ (item.bounded_tick = true → other ≠ id) := by
  unfold ContinuousState.unmark at h
  split at h
  · obtain ⟨hne, hmem⟩ := Finset.mem_erase.mp h
    exact ⟨hmem, fun _ => hne⟩
  · rename_i htick
    exact ⟨h, fun hbounded => absurd hbounded htick⟩

/-- A worker gets its item from its queue. -/
theorem worker_handles_after (h : WorkerStep config s w s₁ phase)
    (hitem : ({ w with phase := phase } : Worker).handles = some item) :
    w.handles = some item ∨ item ∈ s.queues w.agent_id := by
  cases h with
  | take _ _ hqueue | refused_take _ _ hqueue | reserved_take _ _ hqueue =>
    cases hitem
    rw [hqueue]
    exact .inr mem_cons_self
  | process hphase hafter =>
    refine .inl ?_
    rw [Worker.handles, hphase]
    rcases hafter with rfl | rfl
    · exact hitem
    · exact hitem
  | count_failure hphase =>
    refine .inl ?_
    rw [Worker.handles, hphase]
    exact hitem
  | advance _ hphases =>
    rcases hphases with ⟨_, rfl⟩ | ⟨_, rfl | rfl⟩ | ⟨_, rfl⟩ | ⟨_, rfl⟩ | ⟨_, _, rfl⟩
    all_goals cases hitem
  | _ => cases hitem

/-- A worker that has no item has set no marker. -/
theorem marks_eq_none (h : w.handles = none) : w.marks config.budgeted = none := by
  cases hmarks : w.marks config.budgeted with
  | none => rfl
  | some item =>
    rw [Worker.handles_of_marks hmarks] at h
    cases h

/-- The marker a worker has set stays its own, goes to the request thread it starts,
or is removed. -/
theorem worker_marks_after (h : WorkerStep config s w s₁ phase)
    (hmarks : w.marks config.budgeted = some item) (htick : item.bounded_tick = true) :
    ({ w with phase := phase } : Worker).marks config.budgeted = some item ∨
      s₁.requests = s.requests ++ [{ item := item }] ∨ w.agent_id ∉ s₁.bounded_active := by
  have hhandles := Worker.handles_of_marks hmarks
  have hidle : w.handles = none → ({ w with phase := phase } : Worker).marks config.budgeted =
      some item ∨ s₁.requests = s.requests ++ [{ item := item }] ∨
        w.agent_id ∉ s₁.bounded_active := fun hnone => by
    rw [hnone] at hhandles
    cases hhandles
  cases h with
  | take _ hphase | return_empty hphase | close hphase | return_closed hphase
  | refused_take _ hphase | acquire _ hphase | reserved_empty _ hphase | reserved_take _ hphase =>
    exact hidle (by rw [Worker.handles, hphase])
  | @process held outcome phase hphase hafter =>
    refine .inl ?_
    unfold Worker.marks at hmarks ⊢
    split at hmarks
    · rw [hphase] at hmarks
      cases hmarks
    · rename_i hplain
      rw [if_neg hplain]
      rw [Worker.handles, hphase] at hmarks
      rcases hafter with rfl | rfl
      · exact hmarks
      · exact hmarks
  | @count_failure held hphase =>
    refine .inl ?_
    unfold Worker.marks at hmarks ⊢
    split at hmarks
    · rw [hphase] at hmarks
      cases hmarks
    · rename_i hplain
      rw [if_neg hplain]
      rw [Worker.handles, hphase] at hmarks
      exact hmarks
  | @unmark held hconf hphase =>
    refine .inr (.inr fun hmem => ?_)
    rw [Worker.handles, hphase] at hhandles
    cases hhandles
    exact (mem_unmark hmem).2 htick rfl
  | advance hconf hphases =>
    unfold Worker.marks at hmarks
    rw [if_pos hconf] at hmarks
    rcases hphases with ⟨hp, _⟩ | ⟨hp, _⟩ | ⟨hp, _⟩ | ⟨hp, _⟩ | ⟨_, hp, _⟩
    all_goals
      rw [hp] at hmarks
      cases hmarks
  | @submit held hconf hphase =>
    rw [Worker.handles, hphase] at hhandles
    cases hhandles
    exact .inr (.inl rfl)

/-- A marker that was not there before is the worker's own. -/
theorem worker_mem_active (h : WorkerStep config s w s₁ phase) (hid : id ∈ s₁.bounded_active) :
    id ∈ s.bounded_active ∨ ∃ item, item.bounded_tick = true ∧ w.agent_id = id ∧
      ({ w with phase := phase } : Worker).marks config.budgeted = some item := by
  cases h with
  | @take item rest hconf =>
    refine (mem_mark hid).imp_right fun ⟨heq, htick⟩ => ⟨item, htick, heq.symm, ?_⟩
    rw [Worker.marks, hconf]
    rfl
  | @reserved_take item rest hconf =>
    refine (mem_mark hid).imp_right fun ⟨heq, htick⟩ => ⟨item, htick, heq.symm, ?_⟩
    rw [Worker.marks, hconf]
    rfl
  | unmark => exact .inl (mem_unmark hid).1
  | @process item outcome =>
    cases outcome
    · exact .inl hid
    · exact .inl hid
  | _ => exact .inl hid

theorem PlaceInv.worker_step (h : PlaceInv config s) (hwork : WorkInv config s) {i : ℕ}
    (hw : s.workers[i]? = some w) (hstep : WorkerStep config s w s₁ phase) :
    PlaceInv config { s₁ with workers := s.workers.set i { w with phase := phase } } := by
  have hmem := mem_of_getElem? hw
  have hactivations := hstep.stages.activations_eq
  have hset : (s.workers.set i { w with phase := phase })[i]? = some { w with phase := phase } := by
    obtain ⟨hlt, _⟩ := List.getElem?_eq_some_iff.mp hw
    rw [getElem?_set_self hlt]
  -- what the worker has, and what it has put into a new request thread
  have hrequests : s₁.requests = s.requests ∨ ∃ item, w.handles = some item ∧
      s₁.requests = s.requests ++ [{ item := item }] := by
    rcases hstep.threads with hthreads | ⟨item, hphase, _, rfl⟩
    · exact .inl hthreads.requests_eq
    · exact .inr ⟨item, by rw [Worker.handles, hphase], rfl⟩
  refine ⟨?_, ?_, ?_, ?_⟩
  · intro id item hitem
    exact h.queued id item (hstep.mem_queues hitem)
  · intro w' hw' item hitem
    simp only [hactivations]
    rcases mem_or_eq_of_mem_set hw' with hold | rfl
    · exact h.worker w' hold item hitem
    · rcases worker_handles_after hstep hitem with hhandles | hqueue
      · exact h.worker w hmem item hhandles
      · exact ⟨h.queued w.agent_id item hqueue,
          hwork.queued_matched (hwork.workers_known w hmem) item hqueue⟩
  · intro r hr
    simp only [hactivations]
    rcases hrequests with heq | ⟨item, hhandles, heq⟩
    · rw [heq] at hr
      exact h.request r hr
    · rw [heq] at hr
      rcases mem_append.mp hr with hold | hnew
      · exact h.request r hold
      · rw [mem_singleton.mp hnew]
        exact (h.worker w hmem item hhandles).2
  · intro id hid
    rcases worker_mem_active hstep hid with hactive | ⟨item, htick, hown, hmarks⟩
    · cases h.marker id hactive with
      | @worker k w' item hw' hmarks htick hown =>
        by_cases hk : i = k
        · rw [← hk, hw] at hw'
          cases hw'
          rcases worker_marks_after hstep hmarks htick with hafter | hrequest | hremoved
          · exact .worker hset hafter htick hown
          · have hlast : s₁.requests[s.requests.length]? = some { item := item } := by
              rw [hrequest, getElem?_concat_length]
            refine .request hlast (by rintro ⟨⟩) htick ?_
            exact ((h.worker w hmem item (Worker.handles_of_marks hmarks)).1).trans hown
          · exact absurd (hown ▸ hid) hremoved
        · exact .worker ((getElem?_set_ne hk).trans hw') hmarks htick hown
      | @request j r hr hphase htick hown =>
        have hr' : s₁.requests[j]? = some r := by
          rcases hrequests with heq | ⟨item, _, heq⟩
          · rw [heq]
            exact hr
          · obtain ⟨hlt, _⟩ := List.getElem?_eq_some_iff.mp hr
            rw [heq, getElem?_append_left hlt]
            exact hr
        exact .request hr' hphase htick hown
    · exact .worker hset hmarks htick hown

theorem PlaceInv.request_step (h : PlaceInv config s) {j : ℕ} {r : Request}
    (hr : s.requests[j]? = some r) {phase : RequestPhase}
    (hstep : RequestStep config s r s₁ phase) :
    PlaceInv config { s₁ with requests := s.requests.set j { r with phase := phase } } := by
  have hthreads := hstep.threads
  have hset : (s.requests.set j { r with phase := phase })[j]? = some { r with phase := phase } := by
    obtain ⟨hlt, _⟩ := List.getElem?_eq_some_iff.mp hr
    rw [getElem?_set_self hlt]
  -- the last section removes the marker, the others leave it
  have hactive : ∀ id ∈ s₁.bounded_active, id ∈ s.bounded_active ∧
      (r.item.bounded_tick = true → config.execution_agent_id r.item.agent.id = id →
        phase ≠ .finished) := by
    intro id hid
    cases hstep with
    | @process outcome phase hphase hafter =>
      have hne : phase ≠ .finished := by
        rcases hafter with rfl | rfl
        all_goals rintro ⟨⟩
      cases outcome
      · exact ⟨hid, fun _ _ => hne⟩
      · exact ⟨hid, fun _ _ => hne⟩
    | count_failure => exact ⟨hid, fun _ _ => by rintro ⟨⟩⟩
    | release => exact ⟨hid, fun _ _ => by rintro ⟨⟩⟩
    | finish =>
      obtain ⟨hmem, hne⟩ := mem_unmark hid
      exact ⟨hmem, fun htick heq => absurd heq.symm (hne htick)⟩
  refine ⟨?_, ?_, ?_, ?_⟩
  · intro id item hitem
    simp only [hstep.queues_eq] at hitem
    exact h.queued id item hitem
  · intro w hw item hitem
    simp only [hthreads.workers_eq, hthreads.activations_eq] at hw ⊢
    exact h.worker w hw item hitem
  · intro r' hr'
    simp only [hthreads.activations_eq]
    rcases mem_or_eq_of_mem_set hr' with hold | rfl
    · exact h.request r' hold
    · exact h.request r (mem_of_getElem? hr)
  · intro id hid
    obtain ⟨hmem, hkept⟩ := hactive id hid
    cases h.marker id hmem with
    | worker hw hmarks htick hown =>
      exact .worker (hthreads.workers_eq ▸ hw) hmarks htick hown
    | @request k r' hr' hphase htick hown =>
      by_cases hk : j = k
      · rw [← hk, hr] at hr'
        cases hr'
        exact .request hset (hkept htick hown) htick hown
      · exact .request ((getElem?_set_ne hk).trans hr') hphase htick hown

theorem PlaceInv.dispatcher_step (h : PlaceInv config s) (hstep : DispatcherStep config s s') :
    PlaceInv config s' := by
  cases hstep with
  | receive | drop | all_enqueued =>
    exact h.of_frame (fun _ _ hitem => .inl hitem) rfl rfl rfl fun _ hitem => hitem
  | close =>
    obtain ⟨s₁, hdropped, _, _, hs₁⟩ := close_workers_spec config s
    have hqueues : ∀ id, ∀ item ∈ s₁.queues id, item ∈ s.queues id := by
      intro id item hitem
      rcases hdropped.queues_eq id with hnil | heq
      · rw [hnil] at hitem
        cases hitem
      · rwa [heq] at hitem
    obtain ⟨queues, queued, counts, issues, fates, rfl⟩ := hdropped.frame
    rw [hs₁]
    exact h.of_frame (fun id item hitem => .inl (hqueues id item hitem)) rfl rfl rfl
      fun _ hitem => hitem
  | dispatch hphase hdrain hdispatched =>
    cases hdispatched with
    | rejected => exact h.of_frame (fun _ _ hitem => .inl hitem) rfl rfl rfl fun _ hitem => hitem
    | matched =>
      exact h.of_frame (fun _ _ hitem => .inl hitem) rfl rfl rfl
        fun _ hitem => mem_append_left _ hitem
  | @enqueue item items agent s₁ hphase hagent henqueued =>
    have hthreads := henqueued.threads
    have hactive : s₁.bounded_active = s.bounded_active := enqueued_active_eq henqueued
    have hactivations : s₁.activations = s.activations := hthreads.activations_eq
    refine h.of_frame (fun id queued hqueued => ?_) hthreads.workers_eq hthreads.requests_eq
      hactive fun _ hitem => hactivations ▸ hitem
    refine (enqueued_mem_queues henqueued hqueued).imp_right ?_
    rintro ⟨rfl, rfl⟩
    rfl

theorem PlaceInv.step (h : PlaceInv config s) (hwork : WorkInv config s)
    (hs : ContinuousStep config s e s') : PlaceInv config s' := by
  have hsame : ∀ {s₁ : ContinuousState}, s₁.queues = s.queues → s₁.workers = s.workers →
      s₁.requests = s.requests → s₁.bounded_active = s.bounded_active →
      s₁.activations = s.activations → PlaceInv config s₁ := by
    intro s₁ hqueues hworkers hrequests hactive hactivations
    refine h.of_frame (fun _ _ hitem => .inl ?_) hworkers hrequests hactive fun _ hitem => ?_
    · rwa [hqueues] at hitem
    · rwa [hactivations]
  cases hs with
  | offer | interval | interval_return | stop_raise => exact hsame rfl rfl rfl rfl rfl
  | publish hp hstep =>
    have hframe := publish_frame hstep
    exact hsame hframe.queues_eq hframe.workers_eq hframe.requests_eq hframe.bounded_active_eq
      hframe.activations_eq
  | dispatcher hstep => exact h.dispatcher_step hstep
  | worker hw hstep => exact h.worker_step hwork hw hstep
  | request hr hstep => exact h.request_step hr hstep
  | stop drain =>
    rcases begin_stop_cases s drain with ⟨_, heq⟩ | ⟨_, heq⟩ | ⟨_, heq⟩
    all_goals
      rw [heq]
      exact hsame rfl rfl rfl rfl rfl
  | @stop_section k c s₁ phase hc hstep =>
    generalize c.phase = before at hstep
    cases hstep with
    | _ => exact hsame rfl rfl rfl rfl rfl

theorem place_inv (h : (continuous_system config).Reachable s) : PlaceInv config s := by
  apply h.invariant
  · rintro _ ⟨capacity, _, _, rfl⟩
    refine ⟨fun _ _ hitem => (by cases hitem), ?_, fun _ hr => (by cases hr), fun id hid => ?_⟩
    · intro w hw item hitem
      obtain ⟨agent, _, hmem⟩ := mem_flatMap.mp hw
      rw [eq_of_mem_replicate hmem] at hitem
      cases hitem
    · exact absurd hid (Finset.notMem_empty id)
  · intro s e s' hreach hinv hs
    exact hinv.step (work_inv hreach) (continuous_step_cases hs)

/-- Who has set a marker has a bounded tick in hand. -/
theorem PlaceInv.marker_handled (h : PlaceInv config s) (hid : id ∈ s.bounded_active) :
    ∃ item ∈ s.handling, item ∈ s.activations ∧ item.bounded_tick = true ∧
      config.execution_agent_id item.agent.id = id := by
  cases h.marker id hid with
  | @worker i w item hw hmarks htick hown =>
    have hmem := mem_of_getElem? hw
    have hhandles := Worker.handles_of_marks hmarks
    obtain ⟨hexecuted, hactivation⟩ := h.worker w hmem item hhandles
    refine ⟨item, mem_append_left _ ?_, hactivation, htick, hexecuted.trans hown⟩
    exact mem_filterMap.mpr ⟨w, hmem, hhandles⟩
  | @request j r hr hphase htick hown =>
    have hmem := mem_of_getElem? hr
    refine ⟨r.item, mem_append_right _ ?_, h.request r hmem, htick, hown⟩
    exact mem_filterMap.mpr ⟨r, hmem, by rw [Request.handles, if_neg hphase]⟩

end MininetAi
