/-
The books of the continuous runtime: what happens to an activation.

Once it is matched an activation is pending with the dispatcher, waiting in a queue
or in flight, until it has its fate. `Books` says that these places together hold
every activation that was matched, each once, that the counters of the report count
what they are named for, and that the queues stay within their bounds. It has the
activations in the hands of the dispatcher and of the workers as arguments, since a
section moves an activation and its thread's phase together: there is one rule for
each thing the code does to a queue, and the sections are put together from them.
-/
import MininetAi.Lib.Occupancy
import MininetAi.Runtime.ContinuousStep

set_option autoImplicit false

namespace MininetAi

open Option

open List

/-! ## Fates and reports -/

/-- The activation was counted as coalesced, or its successor was. -/
def Fate.merged : Fate → Bool
  | .replaced _ | .coalesced _ => true
  | _ => false

/-- The activation was counted as rejected. -/
def Fate.refused : Fate → Bool
  | .rejected => true
  | _ => false

/-- `_process_item` is done with the activation. -/
def Fate.done : Fate → Bool
  | .processed _ => true
  | _ => false

/-- The activation was removed from its queue unprocessed. -/
def Fate.removed : Fate → Bool
  | .dropped_oldest | .dropped_on_stop => true
  | _ => false

/-- What the runtime reports of the end of an activation. -/
def Fate.report (item : WorkItem) : Fate → Option ContinuousIssue
  | .processed (.completed _) | .replaced _ => none
  | .processed (.raised text) => some (item.issue .invocation_failed text)
  | .coalesced _ => some (item.issue .tick_coalesced
      "bounded decision tick was dropped while an earlier tick was queued or in flight")
  | .rejected => some (item.issue .queue_full "agent invocation queue is full")
  | .dropped_oldest => some (item.issue .drop_oldest "oldest queued invocation was replaced")
  | .dropped_on_stop => some (item.issue .dropped_on_stop "queued invocation dropped during stop")

/-- The record of a completed activation. -/
def Fate.record (item : WorkItem) : Fate → Option InvocationRecord
  | .processed (.completed status) => some
      { event_id := item.event.event_id
        agent_id := item.agent.id
        trigger := item.trigger
        status := status }
  | _ => none

/-- The issue is about the end of an activation. -/
def ContinuousIssue.about_activation (issue : ContinuousIssue) : Bool :=
  match issue.code with
  | .queue_full | .drop_oldest | .tick_coalesced | .invocation_failed => true
  | .dropped_on_stop => issue.agent_id.isSome
  | .out_of_order | .payload_invalid | .cooldown | .publish_failed => false

/-- The issues that are counted as rejected. -/
def IssueCode.rejected : IssueCode → Bool
  | .queue_full | .out_of_order | .payload_invalid | .publish_failed => true
  | _ => false

/-- The issues that are counted as dropped. -/
def IssueCode.dropped : IssueCode → Bool
  | .tick_coalesced | .drop_oldest | .dropped_on_stop => true
  | _ => false

/-- What is reported of an activation is about it. -/
theorem Fate.report_about {item : WorkItem} {fate : Fate} {issue : ContinuousIssue}
    (h : fate.report item = some issue) : issue.about_activation = true := by
  unfold Fate.report at h
  split at h
  all_goals cases h
  all_goals rfl

/-! ## Books -/

/-- The fields of the state the books are about. -/
structure WorkBooks where
  queues : String → List WorkItem
  queued : ℤ
  matched : ℕ
  enqueued : ℕ
  coalesced : ℕ
  completed : ℕ
  rejected : ℕ
  dropped : ℕ
  invocations : List InvocationRecord
  issues : List ContinuousIssue
  activations : List WorkItem
  fates : List (WorkItem × Fate)

def ContinuousState.books (s : ContinuousState) : WorkBooks where
  queues := s.queues
  queued := s.queued
  matched := s.counts.matched
  enqueued := s.counts.enqueued
  coalesced := s.counts.coalesced
  completed := s.counts.completed
  rejected := s.counts.rejected
  dropped := s.counts.dropped
  invocations := s.invocations
  issues := s.issues
  activations := s.activations
  fates := s.fates

/-- How many activations had a fate of a kind. -/
def WorkBooks.count (b : WorkBooks) (kind : Fate → Bool) : ℕ :=
  b.fates.countP fun f => kind f.2

/-- The books are in order when the dispatcher has `pending` to enqueue and the
workers have `flight` to process. -/
structure Books (config : ContinuousConfig) (b : WorkBooks) (pending flight : Multiset WorkItem) :
    Prop where
  /-- Every activation matched is in one place, or has one fate. -/
  conserved : (b.activations : Multiset WorkItem) =
    pending + contents config.ids b.queues + flight + ↑(b.fates.map Prod.fst)
  queued_eq : b.queued = occupancy config.ids b.queues
  queued_le : b.queued ≤ config.max_queued_events
  length_le : ∀ id agent, config.agent id = some agent →
    (b.queues id).length ≤ agent.execution.queue_capacity
  matched_eq : b.matched = b.activations.length
  enqueued_eq : b.enqueued = occupancy config.ids b.queues + flight.card +
    b.count Fate.done + b.count Fate.removed
  coalesced_eq : b.coalesced = b.count Fate.merged

/-- The report says of every activation that came to its end how it did, once. -/
structure Reported (b : WorkBooks) : Prop where
  reported : b.issues.filter ContinuousIssue.about_activation =
    b.fates.filterMap fun f => f.2.report f.1
  recorded : b.invocations = b.fates.filterMap fun f => f.2.record f.1
  completed_eq : b.completed = b.invocations.length

/-- The counters of the issues. -/
structure IssuesCounted (b : WorkBooks) : Prop where
  rejected_eq : b.rejected = b.issues.countP fun issue => issue.code.rejected
  dropped_eq : b.dropped = b.issues.countP fun issue => issue.code.dropped

/-! ## Reporting -/

section Reports

variable {s : ContinuousState} {item : WorkItem} {fate : Fate} {notice : ContinuousIssue}
  {dropped rejected : Bool}

/-- `_issue` is called with the flags of its code. -/
theorem IssuesCounted.issue (h : IssuesCounted s.books) (hdropped : notice.code.dropped = dropped)
    (hrejected : notice.code.rejected = rejected) :
    IssuesCounted (s.issue notice dropped rejected).books where
  rejected_eq := by
    have hcount : (s.issues ++ [notice]).countP (fun issue => issue.code.rejected) =
        s.issues.countP (fun issue => issue.code.rejected) + rejected.toNat := by
      rw [countP_append, countP_singleton, hrejected]
      cases rejected <;> rfl
    exact (congrArg (· + rejected.toNat) h.rejected_eq).trans hcount.symm
  dropped_eq := by
    have hcount : (s.issues ++ [notice]).countP (fun issue => issue.code.dropped) =
        s.issues.countP (fun issue => issue.code.dropped) + dropped.toNat := by
      rw [countP_append, countP_singleton, hdropped]
      cases dropped <;> rfl
    exact (congrArg (· + dropped.toNat) h.dropped_eq).trans hcount.symm

theorem IssuesCounted.settle_issue (h : IssuesCounted s.books)
    (hdropped : notice.code.dropped = dropped) (hrejected : notice.code.rejected = rejected) :
    IssuesCounted ((s.issue notice dropped rejected).settle item fate).books := by
  have hissue := h.issue hdropped hrejected
  exact ⟨hissue.rejected_eq, hissue.dropped_eq⟩

/-- The report after an issue `notice`, a record `entry` and a fate, each of them
about the same end of an activation or missing. -/
theorem Reported.append {b b' : WorkBooks} (h : Reported b) (notices : List ContinuousIssue)
    (entry : Option InvocationRecord) (ends : List (WorkItem × Fate))
    (hissues : b'.issues = b.issues ++ notices) (hfates : b'.fates = b.fates ++ ends)
    (hinvocations : b'.invocations = b.invocations ++ entry.toList)
    (hcounts : b'.completed = b.completed + entry.toList.length)
    (hreport : notices.filter ContinuousIssue.about_activation =
      ends.filterMap fun f => f.2.report f.1)
    (hrecord : entry.toList = ends.filterMap fun f => f.2.record f.1) : Reported b' where
  reported := by
    rw [hissues, hfates, filter_append, filterMap_append, h.reported, hreport]
  recorded := by
    rw [hinvocations, hfates, filterMap_append, h.recorded, hrecord]
  completed_eq := by
    rw [hcounts, hinvocations, length_append, h.completed_eq]

/-- An issue that is not about an activation. -/
theorem Reported.issue (h : Reported s.books) (habout : notice.about_activation = false) :
    Reported (s.issue notice dropped rejected).books := by
  apply h.append [notice] none [] rfl
  · exact (append_nil s.fates).symm
  · exact (append_nil s.invocations).symm
  · rfl
  · rw [filter_singleton, habout]
    rfl
  · rfl

/-- An activation comes to its end and this is reported as an issue. -/
theorem Reported.settle_issue (h : Reported s.books) (hreport : fate.report item = some notice)
    (hrecord : fate.record item = none) :
    Reported ((s.issue notice dropped rejected).settle item fate).books := by
  apply h.append [notice] none [(item, fate)] rfl rfl
  · exact (append_nil s.invocations).symm
  · rfl
  · simp [Fate.report_about hreport, hreport]
  · simp [hrecord]

/-- An activation comes to its end and nothing is reported. -/
theorem Reported.settle (h : Reported s.books) (hreport : fate.report item = none)
    (hrecord : fate.record item = none) : Reported (s.settle item fate).books := by
  apply h.append [] none [(item, fate)]
  · exact (append_nil s.issues).symm
  · rfl
  · exact (append_nil s.invocations).symm
  · rfl
  · simp [hreport]
  · simp [hrecord]

/-- `_process_item` ends: the report has a record or an issue more. -/
theorem Reported.process (h : Reported s.books) (item : WorkItem) (outcome : ProcessOutcome) :
    Reported ((s.record item outcome).settle item (.processed outcome)).books := by
  cases outcome with
  | raised text => exact h.settle_issue rfl rfl
  | completed status =>
    apply h.append [] (Fate.record item (.processed (.completed status)))
      [(item, .processed (.completed status))]
    · exact (append_nil s.issues).symm
    all_goals rfl

theorem IssuesCounted.process (h : IssuesCounted s.books) (item : WorkItem)
    (outcome : ProcessOutcome) :
    IssuesCounted ((s.record item outcome).settle item (.processed outcome)).books := by
  cases outcome with
  | raised text => exact h.settle_issue rfl rfl
  | completed status => exact ⟨h.rejected_eq, h.dropped_eq⟩

end Reports

/-! ## Moving an activation -/

section Moves

variable {config : ContinuousConfig} {s : ContinuousState} {pending flight : Multiset WorkItem}
  {id : String} {item : WorkItem} {agent : RuntimeAgent}

theorem count_settle (s : ContinuousState) (item : WorkItem) (fate : Fate) (kind : Fate → Bool) :
    (s.settle item fate).books.count kind = s.books.count kind + (kind fate).toNat := by
  unfold WorkBooks.count ContinuousState.settle ContinuousState.books
  rw [countP_append, countP_singleton]
  cases kind fate <;> rfl

theorem fates_settle (s : ContinuousState) (item : WorkItem) (fate : Fate) :
    (((s.settle item fate).books.fates.map Prod.fst : List WorkItem) : Multiset WorkItem) =
      ↑(s.books.fates.map Prod.fst) + {item} := by
  unfold ContinuousState.settle ContinuousState.books
  rw [map_append, ← Multiset.coe_add]
  rfl

/-- The books do not depend on what is reported of issues. -/
theorem Books.issue (h : Books config s.books pending flight) (notice : ContinuousIssue)
    (dropped rejected : Bool) : Books config (s.issue notice dropped rejected).books pending flight :=
  ⟨h.conserved, h.queued_eq, h.queued_le, h.length_le, h.matched_eq, h.enqueued_eq, h.coalesced_eq⟩

/-- Nothing but the length of one queue moves with it. -/
theorem Books.length_update (h : Books config s.books pending flight)
    (hagent : config.agent id = some agent) {l : List WorkItem}
    (hl : l.length ≤ agent.execution.queue_capacity) (other : String) (agent' : RuntimeAgent)
    (hagent' : config.agent other = some agent') :
    (Function.update s.queues id l other).length ≤ agent'.execution.queue_capacity := by
  by_cases heq : other = id
  · subst heq
    rw [hagent] at hagent'
    cases hagent'
    rw [Function.update_self]
    exact hl
  · rw [Function.update_of_ne heq]
    exact h.length_le other agent' hagent'

variable {rest : List WorkItem}

/-- A worker takes the first activation of a queue. -/
theorem Books.pop (h : Books config s.books pending flight) (hid : id ∈ config.ids)
    (hq : s.queues id = item :: rest) :
    Books config (s.pop id rest).books pending (flight + {item}) := by
  obtain ⟨agent, hagent⟩ := ContinuousConfig.agent_isSome hid
  have hcontents := contents_pop hid hq
  have hcard : occupancy config.ids s.queues =
      occupancy config.ids (Function.update s.queues id rest) + 1 := by
    rw [← card_contents, hcontents, Multiset.card_add, card_contents, Multiset.card_singleton]
  have hlength := h.length_le id agent hagent
  have hqueued := h.queued_eq
  have hle := h.queued_le
  have henqueued := h.enqueued_eq
  simp only [ContinuousState.books] at hlength hqueued hle henqueued
  refine ⟨?_, ?_, ?_, ?_, h.matched_eq, ?_, h.coalesced_eq⟩
  · refine h.conserved.trans ?_
    simp only [ContinuousState.books, ContinuousState.pop]
    rw [hcontents]
    abel
  · simp only [ContinuousState.books, ContinuousState.pop]
    omega
  · simp only [ContinuousState.books, ContinuousState.pop]
    omega
  · rw [hq, length_cons] at hlength
    exact h.length_update hagent (by omega)
  · simp only [ContinuousState.books, ContinuousState.pop, Multiset.card_add,
      Multiset.card_singleton]
    rw [henqueued, hcard]
    simp only [WorkBooks.count]
    omega

/-- An activation leaves its worker. -/
theorem Books.process (h : Books config s.books pending (flight + {item}))
    (outcome : ProcessOutcome) :
    Books config ((s.record item outcome).settle item (.processed outcome)).books pending
      flight := by
  have hframe : Books config (s.record item outcome).books pending (flight + {item}) := by
    cases outcome with
    | raised text => exact h.issue _ _ _
    | completed status =>
      exact ⟨h.conserved, h.queued_eq, h.queued_le, h.length_le, h.matched_eq, h.enqueued_eq,
        h.coalesced_eq⟩
  refine ⟨?_, hframe.queued_eq, hframe.queued_le, hframe.length_le, hframe.matched_eq, ?_, ?_⟩
  · rw [fates_settle]
    refine hframe.conserved.trans ?_
    simp only [ContinuousState.books, ContinuousState.settle]
    abel
  · rw [count_settle, count_settle]
    refine hframe.enqueued_eq.trans ?_
    simp only [Multiset.card_add, Multiset.card_singleton, Fate.done, Fate.removed, Bool.toNat_true,
      Bool.toNat_false, ContinuousState.settle, ContinuousState.books]
    omega
  · rw [count_settle]
    exact hframe.coalesced_eq

section

variable (h : Books config s.books (pending + {item}) flight)
include h

/-- An activation of the dispatcher comes to its end without a queue. -/
theorem Books.refuse (notice : ContinuousIssue) (dropped rejected : Bool) :
    Books config ((s.issue notice dropped rejected).settle item .rejected).books pending flight := by
  have hframe := h.issue notice dropped rejected
  refine ⟨?_, hframe.queued_eq, hframe.queued_le, hframe.length_le, hframe.matched_eq, ?_, ?_⟩
  · rw [fates_settle]
    refine hframe.conserved.trans ?_
    simp only [ContinuousState.books, ContinuousState.settle]
    abel
  · rw [count_settle, count_settle]
    exact hframe.enqueued_eq
  · rw [count_settle]
    exact hframe.coalesced_eq

/-- A bounded tick is dropped. -/
theorem Books.coalesce_tick (id : String) :
    Books config (s.coalesce_tick id item).books pending flight := by
  unfold ContinuousState.coalesce_tick
  refine ⟨?_, h.queued_eq, h.queued_le, h.length_le, h.matched_eq, ?_, ?_⟩
  · rw [fates_settle]
    refine h.conserved.trans ?_
    simp only [ContinuousState.books, ContinuousState.settle, ContinuousState.issue]
    abel
  · rw [count_settle, count_settle]
    exact h.enqueued_eq
  · rw [count_settle]
    exact congrArg (· + 1) h.coalesced_eq

/-- An activation takes the place of a queued one. -/
theorem Books.replace (hagent : config.agent id = some agent) {index : ℕ} {old : WorkItem}
    (hold : (s.queues id)[index]? = some old) :
    Books config ((s.replace id index item).settle old (.replaced item)).books pending flight := by
  have hid := ContinuousConfig.ids_of_agent hagent
  have hcontents := contents_set hid hold item
  have hcard : occupancy config.ids (Function.update s.queues id ((s.queues id).set index item)) =
      occupancy config.ids s.queues := by
    have hcards := congrArg Multiset.card hcontents
    simp only [Multiset.card_add, card_contents, Multiset.card_singleton] at hcards
    omega
  refine ⟨?_, ?_, h.queued_le, ?_, h.matched_eq, ?_, ?_⟩
  · rw [fates_settle]
    refine h.conserved.trans ?_
    simp only [ContinuousState.books, ContinuousState.settle, ContinuousState.replace]
    rw [add_right_comm pending, add_assoc pending, ← hcontents]
    abel
  · exact h.queued_eq.trans (congrArg _ hcard.symm)
  · have hlength := h.length_le id agent hagent
    apply h.length_update hagent
    rw [length_set]
    exact hlength
  · rw [count_settle, count_settle]
    refine h.enqueued_eq.trans ?_
    simp only [ContinuousState.books, ContinuousState.settle, ContinuousState.replace, hcard,
      WorkBooks.count, Fate.done, Fate.removed, Bool.toNat_false, add_zero]
  · rw [count_settle]
    exact congrArg (· + 1) h.coalesced_eq

/-- An activation is appended to a queue with room. -/
theorem Books.append (hagent : config.agent id = some agent)
    (hroom : (s.queues id).length < agent.execution.queue_capacity)
    (hglobal : s.queued < config.max_queued_events) :
    Books config (s.append id item).books pending flight := by
  have hid := ContinuousConfig.ids_of_agent hagent
  have hcontents := contents_push hid s.queues item
  have hcard : occupancy config.ids (Function.update s.queues id (s.queues id ++ [item])) =
      occupancy config.ids s.queues + 1 := by
    rw [← card_contents, hcontents, Multiset.card_add, card_contents, Multiset.card_singleton]
  refine ⟨?_, ?_, ?_, ?_, h.matched_eq, ?_, h.coalesced_eq⟩
  · refine h.conserved.trans ?_
    simp only [ContinuousState.books, ContinuousState.append]
    rw [hcontents]
    abel
  · have hqueued := h.queued_eq
    simp only [ContinuousState.books, ContinuousState.append] at hqueued ⊢
    omega
  · simp only [ContinuousState.books, ContinuousState.append]
    omega
  · apply h.length_update hagent
    rw [length_append, length_singleton]
    exact hroom
  · have henqueued := h.enqueued_eq
    simp only [ContinuousState.books, ContinuousState.append, WorkBooks.count] at henqueued ⊢
    omega

end

/-- A queued activation is removed unprocessed. -/
theorem Books.remove (h : Books config s.books pending flight) (hid : id ∈ config.ids)
    (hq : s.queues id = item :: rest) {fate : Fate} (hremoved : fate.removed = true)
    (notice : ContinuousIssue) (dropped rejected : Bool) :
    Books config (((s.pop id rest).issue notice dropped rejected).settle item fate).books pending
      flight := by
  have hdone : fate.done = false := by
    cases fate <;> simp_all [Fate.done, Fate.removed]
  have hmerged : fate.merged = false := by
    cases fate <;> simp_all [Fate.merged, Fate.removed]
  have hframe := (h.pop hid hq).issue notice dropped rejected
  refine ⟨?_, hframe.queued_eq, hframe.queued_le, hframe.length_le, hframe.matched_eq, ?_, ?_⟩
  · rw [fates_settle]
    refine hframe.conserved.trans ?_
    simp only [ContinuousState.books, ContinuousState.settle]
    abel
  · rw [count_settle, count_settle, hdone, hremoved]
    refine hframe.enqueued_eq.trans ?_
    simp only [Multiset.card_add, Multiset.card_singleton, Bool.toNat_true, Bool.toNat_false,
      ContinuousState.settle, ContinuousState.books]
    omega
  · rw [count_settle, hmerged]
    exact hframe.coalesced_eq

end Moves

/-! ## Enqueueing -/

section Enqueue

open ContinuousState

variable {config : ContinuousConfig} {s s' : ContinuousState} {pending flight : Multiset WorkItem}
  {id : String} {item : WorkItem} {agent : RuntimeAgent}

section

variable (h : Enqueued config s id agent.execution item s')
include h

/-- `_enqueue` takes one activation from the dispatcher. -/
theorem ContinuousState.Enqueued.books (hagent : config.agent id = some agent)
    (hb : Books config s.books (pending + {item}) flight) : Books config s'.books pending flight := by
  cases h with
  | tick_coalesced htick hbusy => exact hb.coalesce_tick id
  | replaced hpolicy hold hkey hfirst hidle => exact hb.replace hagent hold
  | rejected hfull hplain => exact hb.refuse _ _ _
  | appended hroom hglobal hplain => exact hb.append hagent hroom hglobal
  | @oldest_dropped dropped rest hpolicy hqueue hfull hplain =>
    have hid := ContinuousConfig.ids_of_agent hagent
    have hremoved : Books config (s.drop_oldest id dropped rest).books (pending + {item}) flight :=
      hb.remove hid hqueue rfl _ _ _
    -- the bounds held before, so there is room for one after the removal
    have hlength : (s.queues id).length ≤ agent.execution.queue_capacity :=
      hb.length_le id agent hagent
    have hqueued : s.queued ≤ config.max_queued_events := hb.queued_le
    rw [hqueue, length_cons] at hlength
    apply hremoved.append hagent
    · simp only [drop_oldest, ContinuousState.settle, ContinuousState.issue,
        ContinuousState.pop, Function.update_self]
      omega
    · simp only [drop_oldest, ContinuousState.settle, ContinuousState.issue,
        ContinuousState.pop]
      omega

theorem ContinuousState.Enqueued.reported (hr : Reported s.books) : Reported s'.books := by
  cases h with
  | tick_coalesced htick hbusy =>
    have hframe : Reported ({ s with counts := { s.counts with
        coalesced := s.counts.coalesced + 1 } } : ContinuousState).books :=
      ⟨hr.reported, hr.recorded, hr.completed_eq⟩
    exact hframe.settle_issue rfl rfl
  | @replaced index old hpolicy hold hkey hfirst hidle =>
    have hframe : Reported (s.replace id index item).books :=
      ⟨hr.reported, hr.recorded, hr.completed_eq⟩
    exact hframe.settle rfl rfl
  | @oldest_dropped dropped rest hpolicy hqueue hfull hplain =>
    have hframe : Reported (s.pop id rest).books := ⟨hr.reported, hr.recorded, hr.completed_eq⟩
    have hdropped : Reported (s.drop_oldest id dropped rest).books :=
      hframe.settle_issue rfl rfl
    exact ⟨hdropped.reported, hdropped.recorded, hdropped.completed_eq⟩
  | rejected hfull hplain => exact hr.settle_issue rfl rfl
  | appended hroom hglobal hplain => exact ⟨hr.reported, hr.recorded, hr.completed_eq⟩

theorem ContinuousState.Enqueued.counted (hc : IssuesCounted s.books) : IssuesCounted s'.books := by
  cases h with
  | tick_coalesced htick hbusy =>
    have hframe : IssuesCounted ({ s with counts := { s.counts with
        coalesced := s.counts.coalesced + 1 } } : ContinuousState).books :=
      ⟨hc.rejected_eq, hc.dropped_eq⟩
    exact hframe.settle_issue rfl rfl
  | replaced hpolicy hold hkey hfirst hidle => exact ⟨hc.rejected_eq, hc.dropped_eq⟩
  | @oldest_dropped dropped rest hpolicy hqueue hfull hplain =>
    have hframe : IssuesCounted (s.pop id rest).books := ⟨hc.rejected_eq, hc.dropped_eq⟩
    have hdropped : IssuesCounted (s.drop_oldest id dropped rest).books :=
      hframe.settle_issue rfl rfl
    exact ⟨hdropped.rejected_eq, hdropped.dropped_eq⟩
  | rejected hfull hplain => exact hc.settle_issue rfl rfl
  | appended hroom hglobal hplain => exact ⟨hc.rejected_eq, hc.dropped_eq⟩

end

end Enqueue

/-! ## A stop that does not drain -/

section Drop

open ContinuousState

variable {config : ContinuousConfig} {pending flight : Multiset WorkItem}

/-- The books of the activations and the reports about them. -/
structure BooksKept (config : ContinuousConfig) (s : ContinuousState)
    (pending flight : Multiset WorkItem) : Prop where
  books : Books config s.books pending flight
  reported : Reported s.books
  counted : IssuesCounted s.books

theorem BooksKept.drop_items {id : String} (hid : id ∈ config.ids) (items : List WorkItem) :
    ∀ s : ContinuousState, s.queues id = items → BooksKept config s pending flight →
      BooksKept config (s.drop_items id items) pending flight := by
  induction items with
  | nil => exact fun _ _ h => h
  | cons item rest ih =>
    intro s hq h
    apply ih
    · exact s.pop_queues id rest
    have hreported : Reported (s.pop id rest).books :=
      ⟨h.reported.reported, h.reported.recorded, h.reported.completed_eq⟩
    have hcounted : IssuesCounted (s.pop id rest).books :=
      ⟨h.counted.rejected_eq, h.counted.dropped_eq⟩
    exact ⟨h.books.remove hid hq rfl _ _ _, hreported.settle_issue rfl rfl,
      hcounted.settle_issue rfl rfl⟩

theorem BooksKept.drop_queues (ids : List String) (hids : ∀ id ∈ ids, id ∈ config.ids) :
    ∀ s : ContinuousState, BooksKept config s pending flight →
      BooksKept config (s.drop_queues ids) pending flight := by
  induction ids with
  | nil => exact fun _ h => h
  | cons id ids ih =>
    intro s h
    apply ih fun other hother => hids other (mem_cons_of_mem id hother)
    exact h.drop_items (hids id mem_cons_self) (s.queues id) s rfl

theorem BooksKept.close_workers {s : ContinuousState} (h : BooksKept config s pending flight) :
    BooksKept config (s.close_workers config) pending flight := by
  have hdropped : BooksKept config (if s.drain then s else
      s.drop_queues (config.agents.map RuntimeAgent.id)) pending flight := by
    split
    · exact h
    · exact BooksKept.drop_queues _ (fun id hid => mem_toFinset.mpr hid) s h
  exact ⟨hdropped.books, hdropped.reported, hdropped.counted⟩

end Drop

/-! ## The hands of the workers -/

section Hands

variable {s : ContinuousState}

theorem in_flight_eq (s : ContinuousState) : (s.in_flight : Multiset WorkItem) =
    ↑(s.workers.filterMap Worker.held) + ↑(s.requests.filterMap Request.held) :=
  (Multiset.coe_add _ _).symm

variable {s₁ : ContinuousState}

/-- A worker exchanges what it holds. -/
theorem in_flight_set_worker (hrequests : s₁.requests = s.requests) {i : ℕ} {w : Worker}
    (hw : s.workers[i]? = some w) (w' : Worker) :
    (({ s₁ with workers := s.workers.set i w' } : ContinuousState).in_flight : Multiset WorkItem) +
        ↑w.held.toList = ↑s.in_flight + ↑w'.held.toList := by
  rw [in_flight_eq, in_flight_eq s]
  simp only [hrequests]
  rw [add_right_comm, List.filterMap_set_add Worker.held w' hw]
  abel

/-- A request thread exchanges what it holds. -/
theorem in_flight_set_request (hworkers : s₁.workers = s.workers) {j : ℕ} {r : Request}
    (hr : s.requests[j]? = some r) (r' : Request) :
    (({ s₁ with requests := s.requests.set j r' } : ContinuousState).in_flight :
        Multiset WorkItem) + ↑r.held.toList = ↑s.in_flight + ↑r'.held.toList := by
  rw [in_flight_eq, in_flight_eq s]
  simp only [hworkers]
  rw [add_assoc, List.filterMap_set_add Request.held r' hr]
  abel

theorem mark_books (s : ContinuousState) (id : String) (item : WorkItem) :
    (s.mark id item).books = s.books := by
  unfold ContinuousState.mark
  split
  · rfl
  · rfl

theorem unmark_books (s : ContinuousState) (id : String) (item : WorkItem) :
    (s.unmark id item).books = s.books := by
  unfold ContinuousState.unmark
  split
  · rfl
  · rfl

end Hands

/-! ## The sections -/

section Sections

open ContinuousState

variable {config : ContinuousConfig} {s s' : ContinuousState} {pending flight : Multiset WorkItem}

section

variable (h : BooksKept config s pending flight)
include h

/-- What does not touch the books keeps them. -/
theorem BooksKept.congr (hbooks : s'.books = s.books) : BooksKept config s' pending flight := by
  obtain ⟨hb, hr, hc⟩ := h
  rw [← hbooks] at hb hr hc
  exact ⟨hb, hr, hc⟩

/-- An issue that is not about an activation. -/
theorem BooksKept.issue {notice : ContinuousIssue}
    {dropped rejected : Bool} (habout : notice.about_activation = false)
    (hdropped : notice.code.dropped = dropped) (hrejected : notice.code.rejected = rejected) :
    BooksKept config (s.issue notice dropped rejected) pending flight :=
  ⟨h.books.issue _ _ _, h.reported.issue habout, h.counted.issue hdropped hrejected⟩

theorem BooksKept.pop {id : String} (hid : id ∈ config.ids)
    {item : WorkItem} {rest : List WorkItem} (hq : s.queues id = item :: rest) :
    BooksKept config (s.pop id rest) pending (flight + {item}) :=
  ⟨h.books.pop hid hq, ⟨h.reported.reported, h.reported.recorded, h.reported.completed_eq⟩,
    ⟨h.counted.rejected_eq, h.counted.dropped_eq⟩⟩

end

theorem BooksKept.process {item : WorkItem} (h : BooksKept config s pending (flight + {item}))
    (outcome : ProcessOutcome) :
    BooksKept config ((s.record item outcome).settle item (.processed outcome)) pending flight :=
  ⟨h.books.process outcome, h.reported.process item outcome, h.counted.process item outcome⟩

/-- A section of a worker that starts no request thread. The activations in flight
change with what it holds. -/
theorem BooksKept.worker (h : BooksKept config s pending flight) {w : Worker} {phase : WorkerPhase}
    (hstep : WorkerStep config s w s' phase) (hid : w.agent_id ∈ config.ids)
    {flight' : Multiset WorkItem}
    (hflight : flight' + ↑w.held.toList = flight + ↑(Worker.held { w with phase := phase }).toList)
    (hthreads : SameThreads s s') : BooksKept config s' pending flight' := by
  cases hstep with
  | @take item rest hconf hphase hqueue =>
    simp only [Worker.held, hphase, toList_none, toList_some, Multiset.coe_nil,
      add_zero, Multiset.coe_singleton] at hflight
    rw [hflight]
    exact (h.pop hid hqueue).congr (mark_books _ _ _)
  | refused_take hconf hphase hqueue =>
    simp only [Worker.held, hphase, toList_none, toList_some, Multiset.coe_nil,
      add_zero, Multiset.coe_singleton] at hflight
    rw [hflight]
    exact h.pop hid hqueue
  | reserved_take hconf hphase hqueue =>
    simp only [Worker.held, hphase, toList_none, toList_some, Multiset.coe_nil,
      add_zero, Multiset.coe_singleton] at hflight
    rw [hflight]
    refine BooksKept.congr ?_ (mark_books _ _ _)
    exact (h.pop hid hqueue).congr rfl
  | @process item outcome phase hphase hafter =>
    have hnone : Worker.held { w with phase := phase } = none := by
      rcases hafter with rfl | rfl
      · rfl
      · rfl
    rw [hnone] at hflight
    simp only [Worker.held, hphase, toList_none, toList_some, Multiset.coe_nil,
      add_zero, Multiset.coe_singleton] at hflight
    rw [← hflight] at h
    exact h.process outcome
  | submit hconf hphase =>
    have hlength := congrArg length hthreads.requests_eq
    simp at hlength
  | count_failure hphase =>
    simp only [Worker.held, hphase, toList_none, Multiset.coe_nil, add_zero] at hflight
    rw [hflight]
    exact h.congr rfl
  | unmark hconf hphase =>
    simp only [Worker.held, hphase, toList_none, Multiset.coe_nil, add_zero] at hflight
    rw [hflight]
    exact h.congr (unmark_books _ _ _)
  | return_empty hphase | close hphase | return_closed hphase | acquire _ hphase
  | reserved_empty _ hphase =>
    simp only [Worker.held, hphase, toList_none, Multiset.coe_nil, add_zero] at hflight
    rw [hflight]
    exact h.congr rfl
  | advance hconf hphases =>
    have hequal : flight' = flight := by
      rcases hphases with ⟨hphase, rfl⟩ | ⟨hphase, rfl | rfl⟩ | ⟨hphase, rfl⟩ | ⟨hphase, rfl⟩ |
        ⟨item, hphase, rfl⟩
      all_goals
        simpa only [Worker.held, hphase, toList_none, Multiset.coe_nil, add_zero]
          using hflight
    rw [hequal]
    exact h

/-- A section of a request thread. -/
theorem BooksKept.request (h : BooksKept config s pending flight) {r : Request}
    {phase : RequestPhase} (hstep : RequestStep config s r s' phase) {flight' : Multiset WorkItem}
    (hflight : flight' + ↑r.held.toList =
      flight + ↑(Request.held { r with phase := phase }).toList) :
    BooksKept config s' pending flight' := by
  cases hstep with
  | @process outcome phase hphase hafter =>
    have hnone : Request.held { r with phase := phase } = none := by
      rcases hafter with rfl | rfl
      · rfl
      · rfl
    rw [hnone] at hflight
    simp only [Request.held, hphase, if_true, toList_none, toList_some,
      Multiset.coe_nil, add_zero, Multiset.coe_singleton] at hflight
    rw [← hflight] at h
    exact h.process outcome
  | count_failure hphase | release hphase =>
    have hequal : flight' = flight := by simpa [Request.held, hphase] using hflight
    rw [hequal]
    exact h.congr rfl
  | finish hphase =>
    have hequal : flight' = flight := by simpa [Request.held, hphase] using hflight
    rw [hequal]
    refine BooksKept.congr ?_ (unmark_books _ _ _)
    exact h.congr rfl

/-- A section of the dispatcher: `after` is what it has still to enqueue. -/
theorem BooksKept.dispatched (h : BooksKept config s 0 flight) {event : RuntimeEvent}
    (hstep : Dispatched config s event s') : BooksKept config s' ↑s'.dispatcher.pending flight := by
  cases hstep with
  | rejected notice received last_sequences hcode hreceived =>
    have hframe : BooksKept config
        ({ s with counts := received, last_sequences := last_sequences } : ContinuousState)
        0 flight := by
      rw [hreceived]
      exact h.congr rfl
    rcases hcode with hcode | hcode
    · have habout : notice.about_activation = false := by
        simp [ContinuousIssue.about_activation, hcode]
      refine (hframe.issue habout ?_ ?_).congr rfl
      · rw [hcode]
        rfl
      · rw [hcode]
        rfl
    · have habout : notice.about_activation = false := by
        simp [ContinuousIssue.about_activation, hcode]
      refine (hframe.issue habout ?_ ?_).congr rfl
      · rw [hcode]
        rfl
      · rw [hcode]
        rfl
  | @matched cooldowns items horder hmatches =>
    have hcodes := event_matches_issues hmatches
    obtain ⟨hb, hr, hc⟩ := h
    refine ⟨⟨?_, hb.queued_eq, hb.queued_le, hb.length_le, ?_, hb.enqueued_eq, hb.coalesced_eq⟩,
      ⟨?_, hr.recorded, hr.completed_eq⟩, ⟨?_, ?_⟩⟩
    · have hconserved := hb.conserved
      simp only [ContinuousState.books, DispatcherPhase.pending, zero_add] at hconserved ⊢
      rw [← Multiset.coe_add, hconserved]
      abel
    · have hmatched := hb.matched_eq
      simp only [ContinuousState.books, length_append] at hmatched ⊢
      omega
    · have hreported := hr.reported
      have hnone : cooldowns.filter ContinuousIssue.about_activation = [] := by
        apply filter_eq_nil_iff.mpr
        intro issue hissue
        simp [ContinuousIssue.about_activation, hcodes issue hissue]
      simp only [ContinuousState.books, filter_append, hnone, append_nil]
        at hreported ⊢
      exact hreported
    · have hrejected := hc.rejected_eq
      have hnone : cooldowns.countP (fun issue => issue.code.rejected) = 0 := by
        apply countP_eq_zero.mpr
        intro issue hissue
        simp [IssueCode.rejected, hcodes issue hissue]
      simp only [ContinuousState.books, countP_append, hnone, add_zero] at hrejected ⊢
      exact hrejected
    · have hdropped := hc.dropped_eq
      have hnone : cooldowns.countP (fun issue => issue.code.dropped) = 0 := by
        apply countP_eq_zero.mpr
        intro issue hissue
        simp [IssueCode.dropped, hcodes issue hissue]
      simp only [ContinuousState.books, countP_append, hnone, add_zero] at hdropped ⊢
      exact hdropped

end Sections

/-! ## The invariant -/

/-- The books of a state, with the hands of its threads. -/
structure WorkInv (config : ContinuousConfig) (s : ContinuousState) : Prop where
  kept : BooksKept config s ↑s.dispatcher.pending ↑s.in_flight
  pending_known : ∀ item ∈ s.dispatcher.pending, item.agent ∈ config.agents
  workers_known : ∀ w ∈ s.workers, w.agent_id ∈ config.ids

section Invariant

open ContinuousState

variable {config : ContinuousConfig} {s s' : ContinuousState} {e : ContinuousEvent}

/-- The runtime starts with nothing in its books. -/
theorem work_inv_started (config : ContinuousConfig) (capacity : ℕ) :
    WorkInv config (.started config capacity) := by
  have hworkers : ∀ w ∈ config.agents.flatMap (start_workers config),
      w.agent_id ∈ config.ids ∧ w.phase = .waiting := by
    intro w hw
    obtain ⟨agent, hagent, hmem⟩ := mem_flatMap.mp hw
    rw [eq_of_mem_replicate hmem]
    exact ⟨ContinuousConfig.mem_ids.mpr ⟨agent, hagent, rfl⟩, rfl⟩
  have hflight : (started config capacity).in_flight = [] := by
    refine append_eq_nil_iff.mpr ⟨?_, rfl⟩
    apply filterMap_eq_nil_iff.mpr
    intro w hw
    rw [Worker.held, (hworkers w hw).2]
  have hcontents : contents config.ids (fun _ => ([] : List WorkItem)) = 0 :=
    contents_eq_zero fun _ _ => rfl
  have hoccupancy : occupancy config.ids (fun _ => ([] : List WorkItem)) = 0 :=
    occupancy_eq_zero_iff.mpr fun _ _ => rfl
  refine ⟨?_, fun item hitem => (by cases hitem), fun w hw => (hworkers w hw).1⟩
  rw [hflight]
  refine ⟨⟨?_, ?_, Int.natCast_nonneg _, fun _ _ _ => Nat.zero_le _, rfl, ?_, rfl⟩,
    ⟨rfl, rfl, rfl⟩, ⟨rfl, rfl⟩⟩
  · simp only [ContinuousState.books, started, hcontents]
    rfl
  · simp only [ContinuousState.books, started, hoccupancy]
    rfl
  · simp only [ContinuousState.books, started, hoccupancy]
    rfl

theorem WorkInv.publish (h : WorkInv config s) {k : ℕ} {p : Publication}
    (hstep : PublishStep s k p s') : WorkInv config s' := by
  cases hstep with
  | checked hchecked hstate => exact ⟨h.kept.congr rfl, h.pending_known, h.workers_known⟩
  | accepted hchecked hbus => exact ⟨h.kept.congr rfl, h.pending_known, h.workers_known⟩
  | failed text =>
    rcases publish_failed_cases s p text with hsame | ⟨notice, hcode, hissue⟩
    · rw [hsame]
      exact ⟨h.kept.congr rfl, h.pending_known, h.workers_known⟩
    · rw [hissue]
      have hkept : BooksKept config (s.issue notice false true) ↑s.dispatcher.pending
          ↑s.in_flight := by
        apply h.kept.issue
        · simp [ContinuousIssue.about_activation, hcode]
        · rw [hcode]
          rfl
        · rw [hcode]
          rfl
      exact ⟨hkept.congr rfl, h.pending_known, h.workers_known⟩

theorem WorkInv.dispatcher (h : WorkInv config s) (hstep : DispatcherStep config s s') :
    WorkInv config s' := by
  have hkept := h.kept
  cases hstep with
  | receive hphase hbus =>
    rw [hphase] at hkept
    exact ⟨hkept.congr rfl, fun item hitem => (by cases hitem), h.workers_known⟩
  | close hphase hempty hclosed =>
    rw [hphase] at hkept
    have hclose := hkept.close_workers
    obtain ⟨s₁, hdropped, _, _, hs₁⟩ := close_workers_spec config s
    obtain ⟨queues, queued, counts, issues, fates, rfl⟩ := hdropped.frame
    rw [hs₁] at hclose ⊢
    exact ⟨hclose, fun item hitem => (by cases hitem), h.workers_known⟩
  | @dispatch event s₁ hphase hdrain hdispatched =>
    rw [hphase] at hkept
    have hkept' := hkept.dispatched hdispatched
    have hthreads : s₁.workers = s.workers ∧ s₁.in_flight = s.in_flight ∧
        ∀ item ∈ s₁.dispatcher.pending, item.agent ∈ config.agents := by
      cases hdispatched with
      | rejected => exact ⟨rfl, rfl, fun item hitem => (by cases hitem)⟩
      | matched horder hmatches =>
        exact ⟨rfl, rfl, fun item hitem => (event_matches_items hmatches item hitem).agent_known⟩
    obtain ⟨hworkers, hflight, hpending⟩ := hthreads
    rw [← hflight] at hkept'
    refine ⟨hkept'.congr rfl, hpending, ?_⟩
    intro w hw
    exact h.workers_known w (hworkers ▸ hw)
  | @drop event hphase hdrain =>
    rw [hphase] at hkept
    have hissue : BooksKept config (s.drop_event event) 0 ↑s.in_flight :=
      hkept.issue rfl rfl rfl
    exact ⟨hissue.congr rfl, fun item hitem => (by cases hitem), h.workers_known⟩
  | @enqueue item items agent s₁ hphase hagent henqueued =>
    have hknown := h.pending_known
    rw [hphase] at hkept hknown
    have hpending : ((item :: items : List WorkItem) : Multiset WorkItem) = ↑items + {item} := by
      rw [← Multiset.cons_coe, ← Multiset.singleton_add, add_comm]
    simp only [DispatcherPhase.pending, hpending] at hkept
    have hthreads := henqueued.threads
    have hflight : s₁.in_flight = s.in_flight := by
      unfold in_flight
      rw [hthreads.workers_eq, hthreads.requests_eq]
    rw [← hflight] at hkept
    refine ⟨⟨henqueued.books hagent hkept.books, henqueued.reported hkept.reported,
      henqueued.counted hkept.counted⟩, ?_, ?_⟩
    · intro other hother
      exact hknown other (mem_cons_of_mem item hother)
    · intro w hw
      exact h.workers_known w (hthreads.workers_eq ▸ hw)
  | all_enqueued hphase =>
    rw [hphase] at hkept
    exact ⟨hkept.congr rfl, fun item hitem => (by cases hitem), h.workers_known⟩

theorem WorkInv.worker (h : WorkInv config s) {i : ℕ} {w : Worker} {s₁ : ContinuousState}
    {phase : WorkerPhase} (hw : s.workers[i]? = some w) (hstep : WorkerStep config s w s₁ phase) :
    WorkInv config { s₁ with workers := s.workers.set i { w with phase := phase } } := by
  have hid := h.workers_known w (mem_of_getElem? hw)
  have hstages := hstep.stages
  have hknown : ∀ w' ∈ s.workers.set i { w with phase := phase }, w'.agent_id ∈ config.ids := by
    intro w' hw'
    rcases mem_or_eq_of_mem_set hw' with hmem | rfl
    · exact h.workers_known w' hmem
    · exact hid
  refine ⟨?_, ?_, hknown⟩
  · rcases hstep.threads with hthreads | ⟨item, hphase, rfl, rfl⟩
    · have hflight := in_flight_set_worker hthreads.requests_eq hw { w with phase := phase }
      have hkept : BooksKept config s₁ ↑s.dispatcher.pending
          ↑({ s₁ with workers := s.workers.set i { w with phase := phase } } :
            ContinuousState).in_flight :=
        h.kept.worker hstep hid hflight hthreads
      rw [← hstages.dispatcher_eq] at hkept
      exact hkept.congr rfl
    · -- the item goes from the worker to the new request thread
      have hset := List.filterMap_set_add Worker.held { w with phase := .waiting } hw
      have hheld : w.held = some item := by
        rw [Worker.held, hphase]
      have hnone : Worker.held { w with phase := .waiting } = none := rfl
      rw [hheld, hnone] at hset
      simp only [toList_some, toList_none, Multiset.coe_singleton, Multiset.coe_nil,
        add_zero] at hset
      have hflight : (({ s with
          requests := s.requests ++ [{ item := item }]
          workers := s.workers.set i { w with phase := .waiting } } :
            ContinuousState).in_flight : Multiset WorkItem) = ↑s.in_flight := by
        rw [in_flight_eq, in_flight_eq s]
        simp only [filterMap_append]
        rw [← Multiset.coe_add, ← hset]
        have hnew : (filterMap Request.held [{ item := item }] : Multiset WorkItem) = {item} :=
          rfl
        rw [hnew]
        abel
      have hkept := h.kept
      rw [← hflight] at hkept
      exact hkept.congr rfl
  · intro item hitem
    apply h.pending_known
    rw [← hstages.dispatcher_eq]
    exact hitem

theorem WorkInv.request (h : WorkInv config s) {j : ℕ} {r : Request} {s₁ : ContinuousState}
    {phase : RequestPhase} (hr : s.requests[j]? = some r)
    (hstep : RequestStep config s r s₁ phase) :
    WorkInv config { s₁ with requests := s.requests.set j { r with phase := phase } } := by
  have hthreads := hstep.threads
  have hflight := in_flight_set_request hthreads.workers_eq hr { r with phase := phase }
  have hkept := h.kept.request hstep hflight
  rw [← hthreads.dispatcher_eq] at hkept
  refine ⟨hkept.congr rfl, ?_, ?_⟩
  · intro item hitem
    apply h.pending_known
    rw [← hthreads.dispatcher_eq]
    exact hitem
  · intro w hw
    apply h.workers_known
    rw [← hthreads.workers_eq]
    exact hw

/-- Every section keeps the books. -/
theorem WorkInv.step (h : WorkInv config s) (hs : ContinuousStep config s e s') :
    WorkInv config s' := by
  cases hs with
  | offer event => exact ⟨h.kept.congr rfl, h.pending_known, h.workers_known⟩
  | interval => exact ⟨h.kept.congr rfl, h.pending_known, h.workers_known⟩
  | interval_return => exact ⟨h.kept.congr rfl, h.pending_known, h.workers_known⟩
  | publish hp hstep => exact h.publish hstep
  | dispatcher hstep => exact h.dispatcher hstep
  | worker hw hstep => exact h.worker hw hstep
  | request hr hstep => exact h.request hr hstep
  | stop drain =>
    rcases begin_stop_cases s drain with ⟨_, heq⟩ | ⟨_, heq⟩ | ⟨_, heq⟩
    all_goals
      rw [heq]
      exact ⟨h.kept.congr rfl, h.pending_known, h.workers_known⟩
  | @stop_section k c s₁ phase hc hstep =>
    generalize c.phase = before at hstep
    cases hstep with
    | _ => exact ⟨h.kept.congr rfl, h.pending_known, h.workers_known⟩
  | stop_raise => exact ⟨h.kept.congr rfl, h.pending_known, h.workers_known⟩

/-- The books are in order in every reachable state. -/
theorem work_inv (h : (continuous_system config).Reachable s) : WorkInv config s := by
  apply h.invariant
  · rintro _ ⟨capacity, _, _, rfl⟩
    exact work_inv_started config capacity
  · intro s e s' _ hinv hs
    exact hinv.step (continuous_step_cases hs)

end Invariant

/-! ## What the report counts -/

section Counting

variable {b : WorkBooks}

/-- The issues of a kind are as many as the fates that are reported so. -/
theorem Reported.count_issues (h : Reported b) (kind : Fate → Bool)
    (about : ContinuousIssue → Bool)
    (habout : ∀ issue, about issue = true → issue.about_activation = true)
    (hkind : ∀ item fate, ((Fate.report item fate).map about).getD false = kind fate) :
    b.issues.countP about = b.count kind := by
  have hfilter : (b.issues.filter ContinuousIssue.about_activation).countP about =
      b.issues.countP about := by
    rw [countP_filter]
    apply countP_congr
    intro issue _
    cases hissue : about issue with
    | false => simp
    | true => simp [habout issue hissue]
  rw [← hfilter, h.reported, countP_filterMap]
  unfold WorkBooks.count
  apply countP_congr
  intro f _
  rw [hkind f.1 f.2]

/-- Every activation that came to its end was processed, removed from its queue,
coalesced or rejected. -/
theorem fates_partition (fates : List (WorkItem × Fate)) :
    fates.length = (fates.countP fun f => f.2.done) + (fates.countP fun f => f.2.removed) +
      (fates.countP fun f => f.2.merged) + fates.countP fun f => f.2.refused := by
  induction fates with
  | nil => rfl
  | cons f fates ih =>
    obtain ⟨item, fate⟩ := f
    rw [length_cons, ih]
    cases fate with
    | _ => simp [Fate.done, Fate.removed, Fate.merged, Fate.refused]; omega

/-- Every matched activation is counted once: it is enqueued, coalesced, rejected or
still pending. -/
theorem Books.matched_once {config : ContinuousConfig} {pending flight : Multiset WorkItem}
    (h : Books config b pending flight) :
    b.matched = b.enqueued + b.coalesced + b.count Fate.refused + pending.card := by
  have hcard := congrArg Multiset.card h.conserved
  have hpartition := fates_partition b.fates
  simp only [Multiset.card_add, Multiset.coe_card, card_contents, length_map] at hcard
  rw [h.matched_eq, h.enqueued_eq, h.coalesced_eq, hcard, hpartition]
  unfold WorkBooks.count
  omega

end Counting

end MininetAi
