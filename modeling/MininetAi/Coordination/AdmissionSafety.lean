/-
Safety and absence of deadlock of the admission monitor.

Four groups of invariants, each over all interleavings:

* `AdmissionCalls`: what an invocation brought never changes, and no two
  invocations brought the same candidate;
* `AdmissionLists`: each list of the monitor holds exactly what the invocations
  at the corresponding stage put there;
* `AdmissionCompatible`: what is in execution, in commitment and (under `reject`)
  in one history is pairwise compatible;
* `AdmissionAsleep`: a waiter that nobody has notified still has a false
  predicate.

The admits never wait, so the second group has no list for them: under `reject`
a conflicting candidate is refused instead, and under the other policies the
candidates of two decisions in progress do not conflict. Since only decisions
wait, the waiter that goes before all others can start as soon as nothing is in
commitment, which is the argument against deadlock.
-/
import Mathlib.Data.Finset.Max
import MininetAi.Coordination.AdmissionSystem

set_option autoImplicit false

namespace MininetAi

open Function

open Option

open ActionAdmission

variable {I R : Type} (p : Participant I R)

/-! ## Entries -/

/-- What the invocation has in `_waiting`. -/
def Participant.waiting_entry (p : Participant I R) : Option (CommitReservation I) :=
  match p.stage with
  | .waiting _ => some p.reservation
  | _ => none

/-- What the invocation has in `_committing`. -/
def Participant.committing_entry (p : Participant I R) : Option (CommitReservation I) :=
  match p.stage with
  | .waiting _ | .finished => none
  | _ => some p.reservation

/-- What the invocation has in `_active`. -/
def Participant.active_entry (p : Participant I R) : Option ArbitrationCandidate :=
  match p.stage with
  | .acting c => some c
  | _ => none

/-- The entries of all invocations in one list. -/
def entries {α : Type} (f : Participant I R → Option α)
    (participant : I → Option (Participant I R)) : I → Option α :=
  fun i => (participant i).bind f

theorem entries_notify_all {α : Type} {f : Participant I R → Option α}
    (hf : ∀ p : Participant I R, f { p with stage := p.stage.notify } = f p)
    (participant : I → Option (Participant I R)) :
    entries f (notify_all participant) = entries f participant := by
  funext i
  unfold entries notify_all
  cases participant i with
  | none => rfl
  | some p => exact hf p

theorem waiting_entry_notify :
    Participant.waiting_entry { p with stage := p.stage.notify } = p.waiting_entry := by
  unfold Participant.waiting_entry
  cases p.stage <;> rfl

theorem committing_entry_notify :
    Participant.committing_entry { p with stage := p.stage.notify } = p.committing_entry := by
  unfold Participant.committing_entry
  cases p.stage <;> rfl

theorem active_entry_notify :
    Participant.active_entry { p with stage := p.stage.notify } = p.active_entry := by
  unfold Participant.active_entry
  cases p.stage <;> rfl

section

variable [DecidableEq I]

variable {α : Type}

theorem entries_update (f : Participant I R → Option α)
    (participant : I → Option (Participant I R)) (i : I) (p : Participant I R) :
    entries f (Function.update participant i (some p))
      = Function.update (entries f participant) i (f p) := by
  funext j
  unfold entries
  by_cases hj : j = i
  · subst hj; rw [update_self, update_self]; rfl
  · rw [update_of_ne hj, update_of_ne hj]

/-- A step of one invocation that keeps its entry keeps all entries. -/
theorem entries_update_same {f : Participant I R → Option α}
    {participant : I → Option (Participant I R)} {i : I} {p : Participant I R}
    (h : entries f participant i = f p) :
    entries f (Function.update participant i (some p)) = entries f participant := by
  rw [entries_update, ← h, update_eq_self]

end

/-! ## The invariants -/

/-- What the invocations brought. -/
structure AdmissionCalls (policy : ArbitrationPolicy) (s : AdmissionState I R) : Prop where
  owner : ∀ i p, s.participant i = some p → p.reservation.owner = i
  kept : policy ≠ .reject → ∀ i p, s.participant i = some p →
    p.reservation.candidates = p.call.candidates
  issued : ∀ i p, s.participant i = some p → ∀ c ∈ p.call.candidates, c.candidate_id ∈ s.issued
  unique : ∀ i j p q, s.participant i = some p → s.participant j = some q →
    ∀ c ∈ p.call.candidates, ∀ d ∈ q.call.candidates,
      c.candidate_id = d.candidate_id → i = j ∧ c = d

/-- What the lists hold. -/
structure AdmissionLists (s : AdmissionState I R) : Prop where
  waiting : Tracks s.admission.waiting (entries Participant.waiting_entry s.participant)
  committing : Tracks s.admission.committing (entries Participant.committing_entry s.participant)
  active : Tracks s.admission.active (entries Participant.active_entry s.participant)
  pending : s.admission.pending = []
  never_waits : ∀ i p, s.participant i = some p → ∀ c notified,
    p.stage ≠ .admit_waiting c notified
  acting : ∀ i p c, s.participant i = some p → p.stage = .acting c → c ∈ p.call.candidates

/-- What is compatible. -/
structure AdmissionCompatible (policy : ArbitrationPolicy) (s : AdmissionState I R) : Prop where
  active : s.admission.active.Pairwise fun a b => conflicts a b = false
  committing : s.admission.committing.Pairwise fun l r => decision_conflicts policy l r = false
  history : policy = .reject → ∀ q, (s.history q).Pairwise fun a b => conflicts a b = false

/-- Every invocation of `t` is one of `s` with the same call and reservation. -/
def SameCalls (s t : AdmissionState I R) : Prop :=
  ∀ j q, t.participant j = some q →
    ∃ p, s.participant j = some p ∧ p.call = q.call ∧ p.reservation = q.reservation

variable {s : AdmissionState I R} {policy : ArbitrationPolicy}

variable {t : AdmissionState I R}

theorem SameCalls.notify (h : SameCalls s t) :
    SameCalls s { t with participant := notify_all t.participant } := by
  intro j q hq
  simp only [notify_all, map_eq_some_iff] at hq
  obtain ⟨q', hq', rfl⟩ := hq
  exact h j q' hq'

theorem AdmissionCalls.of_same (h : AdmissionCalls policy s) (hsame : SameCalls s t)
    (hissued : t.issued = s.issued) : AdmissionCalls policy t where
  owner i q hq := by
    obtain ⟨p, hp, -, hr⟩ := hsame i q hq
    rw [← hr]; exact h.owner i p hp
  kept hpol i q hq := by
    obtain ⟨p, hp, hc, hr⟩ := hsame i q hq
    rw [← hr, ← hc]; exact h.kept hpol i p hp
  issued i q hq c hc := by
    obtain ⟨p, hp, hcall, -⟩ := hsame i q hq
    rw [hissued]; exact h.issued i p hp c (by rw [hcall]; exact hc)
  unique i j p q hp hq c hc d hd hid := by
    obtain ⟨p', hp', hpc, -⟩ := hsame i p hp
    obtain ⟨q', hq', hqc, -⟩ := hsame j q hq
    exact h.unique i j p' q' hp' hq' c (by rw [hpc]; exact hc) d (by rw [hqc]; exact hd) hid

/-- Under the policies that wait nothing is refused on entry. -/
theorem entrant_kept (hpol : policy ≠ .reject) (s : AdmissionState I R) (i : I)
    (call : DecisionCall R) :
    (entrant policy s i call).reservation.candidates = call.candidates := by
  simp [entrant, reservation, kept_candidates, rejections, hpol]

/-- The stage an entry in execution comes from. -/
theorem stage_of_active_entry {p : Participant I R} {c : ArbitrationCandidate}
    (h : p.active_entry = some c) : p.stage = .acting c := by
  unfold Participant.active_entry at h
  split at h
  · rename_i d hd
    rw [hd, Option.some.inj h]
  · cases h

/-- A reservation made by `i` is nobody else's entry. -/
theorem AdmissionCalls.fresh_entry (h : AdmissionCalls policy s)
    {f : Participant I R → Option (CommitReservation I)}
    (hf : ∀ p r, f p = some r → r = p.reservation) {i : I} {r : CommitReservation I}
    (hi : entries f s.participant i = none) (hr : r.owner = i) :
    ∀ j, entries f s.participant j ≠ some r := by
  intro j hj
  obtain ⟨q, hq, hfq⟩ := bind_eq_some_iff.mp hj
  have hji : j = i := by rw [← h.owner j q hq, ← hf q r hfq, hr]
  rw [hji, hi] at hj
  cases hj

theorem waiting_entry_eq (r : CommitReservation I)
    (h : p.waiting_entry = some r) : r = p.reservation := by
  unfold Participant.waiting_entry at h
  split at h
  · exact (Option.some.inj h).symm
  · cases h

theorem committing_entry_eq (r : CommitReservation I)
    (h : p.committing_entry = some r) : r = p.reservation := by
  unfold Participant.committing_entry at h
  split at h
  · cases h
  · cases h
  · exact (Option.some.inj h).symm

section Invariants

variable [DecidableEq I]

/-- A sleeping decision still has a reason to wait. -/
def AdmissionAsleep (policy : ArbitrationPolicy) (s : AdmissionState I R) : Prop :=
  ∀ i p, s.participant i = some p → p.stage = .waiting false →
    s.admission.decision_ready policy p.reservation = false

/-- The four groups together. -/
structure AdmissionInv (policy : ArbitrationPolicy) (s : AdmissionState I R) : Prop where
  calls : AdmissionCalls policy s
  lists : AdmissionLists s
  compatible : AdmissionCompatible policy s
  asleep : AdmissionAsleep policy s

/-! ## Calls -/

variable {s t s' : AdmissionState I R} {i j : I} {p : Participant I R} {stage : AdmissionStage}
  {a : ActionAdmission I} {policy : ArbitrationPolicy} {c : ArbitrationCandidate}
  {e : AdmissionEvent I R}

/-- A property of all invocations after one of them has moved. -/
theorem forall_move {P : I → Participant I R → Prop}
    (hold : ∀ j q, j ≠ i → s.participant j = some q → P j q)
    (hnew : P i { p with stage := stage }) :
    ∀ j q, (s.move i p stage a).participant j = some q → P j q := by
  intro j q hq
  by_cases hj : j = i
  · subst hj
    simp only [AdmissionState.move, update_self, Option.some.injEq] at hq
    exact hq ▸ hnew
  · simp only [AdmissionState.move, update_of_ne hj] at hq
    exact hold j q hj hq

theorem same_calls_move (hp : s.participant i = some p) (stage : AdmissionStage)
    (a : ActionAdmission I) : SameCalls s (s.move i p stage a) :=
  forall_move (fun _ q _ hq => ⟨q, hq, rfl, rfl⟩) ⟨p, hp, rfl, rfl⟩

variable {call : DecisionCall R}

theorem AdmissionCalls.enter (h : AdmissionCalls policy s)
    (hnodup : (call.candidates.map ArbitrationCandidate.candidate_id).Nodup)
    (hfresh : ∀ c ∈ call.candidates, c.candidate_id ∉ s.issued) (stage : AdmissionStage)
    (a : ActionAdmission I) :
    AdmissionCalls policy ((s.issue call).move i (entrant policy s i call) stage a) := by
  have hcase : ∀ j q, ((s.issue call).move i (entrant policy s i call) stage a).participant j
      = some q → (j = i ∧ q.call = call ∧
        q.reservation = (entrant policy s i call).reservation) ∨ s.participant j = some q :=
    forall_move (fun _ _ _ hq => Or.inr hq) (Or.inl ⟨rfl, rfl, rfl⟩)
  have hold : ∀ j q, s.participant j = some q → ∀ c ∈ q.call.candidates, ∀ d ∈ call.candidates,
      c.candidate_id ≠ d.candidate_id := by
    intro j q hq c hc d hd hid
    exact hfresh d hd (hid ▸ h.issued j q hq c hc)
  refine ⟨?_, ?_, ?_, ?_⟩
  · intro j q hq
    rcases hcase j q hq with ⟨rfl, -, hr⟩ | hq'
    · rw [hr]; rfl
    · exact h.owner j q hq'
  · intro hpol j q hq
    rcases hcase j q hq with ⟨rfl, hc, hr⟩ | hq'
    · rw [hr, hc]; exact entrant_kept hpol s j call
    · exact h.kept hpol j q hq'
  · intro j q hq c hc
    refine List.mem_append.mpr ?_
    rcases hcase j q hq with ⟨-, hcall, -⟩ | hq'
    · exact Or.inr (List.mem_map_of_mem (hcall ▸ hc))
    · exact Or.inl (h.issued j q hq' c hc)
  · intro j k p q hp hq c hc d hd hid
    rcases hcase j p hp with ⟨rfl, hpc, -⟩ | hp' <;>
      rcases hcase k q hq with ⟨rfl, hqc, -⟩ | hq'
    · rw [hpc] at hc
      rw [hqc] at hd
      exact ⟨rfl, List.inj_on_of_nodup_map hnodup hc hd hid⟩
    · exact absurd hid.symm (hold k q hq' d hd c (hpc ▸ hc))
    · exact absurd hid (hold j p hp' c hc d (hqc ▸ hd))
    · exact h.unique j k p q hp' hq' c hc d hd hid

/-! ## Admits never wait -/

/-- What the admit of an invocation in its own decision meets: nothing in
execution conflicts with its candidate. Under `reject` because a conflicting
candidate has a winner; otherwise because whoever is in execution holds a
decision that is compatible with this one. -/
theorem AdmissionInv.active_free (h : AdmissionInv policy s) (hp : s.participant i = some p)
    (hstage : p.stage = .deciding) (hc : c ∈ p.call.candidates)
    (hwin : s.admission.admit_winner policy (s.history p.call.request) c = none) :
    ∀ other ∈ s.admission.active, conflicts other c = false := by
  intro other hother
  by_cases hpol : policy = .reject
  · simp only [admit_winner, if_pos hpol, List.find?_eq_none] at hwin
    simpa using hwin other (List.mem_append.mpr (Or.inr hother))
  · obtain ⟨j, hj⟩ := (h.lists.active.mem_iff other).mp hother
    obtain ⟨q, hq, hact⟩ := bind_eq_some_iff.mp hj
    have hqstage : q.stage = .acting other := stage_of_active_entry hact
    have hji : j ≠ i := by
      rintro rfl
      rw [hp] at hq
      cases hq
      rw [hstage] at hqstage
      cases hqstage
    -- both decisions are in commitment, so their candidates do not conflict
    have hqc : q.reservation ∈ s.admission.committing := by
      refine h.lists.committing.mem (i := j) ?_
      simp [entries, hq, Participant.committing_entry, hqstage]
    have hpc : p.reservation ∈ s.admission.committing := by
      refine h.lists.committing.mem (i := i) ?_
      simp [entries, hp, Participant.committing_entry, hstage]
    have hne : q.reservation ≠ p.reservation := by
      intro heq
      exact hji ((h.calls.owner j q hq).symm.trans
        ((congrArg CommitReservation.owner heq).trans (h.calls.owner i p hp)))
    have hcompat := h.compatible.committing.forall hqc hpc hne
    refine conflicts_of_decision_conflicts hpol hcompat ?_ ?_
    · rw [h.calls.kept hpol j q hq]
      exact h.lists.acting j q other hq hqstage
    · rw [h.calls.kept hpol i p hp]
      exact hc

/-- An admit issued inside its own invocation's decision does not wait. -/
theorem AdmissionInv.admit_ready (h : AdmissionInv policy s) (hp : s.participant i = some p)
    (hstage : p.stage = .deciding) (hc : c ∈ p.call.candidates)
    (hwin : s.admission.admit_winner policy (s.history p.call.request) c = none) :
    (s.admission.wait_action c).ready policy c = true := by
  refine ready_of_alone ?_ (h.active_free hp hstage hc hwin)
  simp [wait_action, h.lists.pending]

/-! ## Steps -/

variable [DecidableEq R]

omit [DecidableEq I] in
theorem SameCalls.record (h : SameCalls s t) (q : R) (c : ArbitrationCandidate) :
    SameCalls s (t.record q c) := h

theorem AdmissionCalls.step {policy : ArbitrationPolicy} {s s' : AdmissionState I R}
    {e : AdmissionEvent I R} (h : AdmissionCalls policy s) (hs : AdmissionStep policy s e s') :
    AdmissionCalls policy s' := by
  cases hs with
  | enter_start hnone hnodup hfresh hready => exact h.enter hnodup hfresh _ _
  | enter_wait hnone hnodup hfresh hready => exact h.enter hnodup hfresh _ _
  | recheck_start hp => exact h.of_same (same_calls_move hp _ _) rfl
  | recheck_wait hp => exact h.of_same (same_calls_move hp _ _) rfl
  | admit_refuse hp => exact h.of_same (same_calls_move hp _ _) rfl
  | admit_start hp => exact h.of_same ((same_calls_move hp _ _).record _ _) rfl
  | admit_wait hp => exact h.of_same (same_calls_move hp _ _) rfl
  | admit_recheck_start hp => exact h.of_same ((same_calls_move hp _ _).record _ _) rfl
  | admit_recheck_wait hp => exact h.of_same (same_calls_move hp _ _) rfl
  | admit_exit hp => exact h.of_same (same_calls_move hp _ _).notify rfl
  | refuse_exit hp => exact h.of_same (same_calls_move hp _ _) rfl
  | decision_exit hp => exact h.of_same (same_calls_move hp _ _).notify rfl

/-! ## Lists -/

omit [DecidableEq R] in
/-- The reservation of a new decision is not queued yet. -/
theorem AdmissionInv.entrant_not_waiting (h : AdmissionInv policy s)
    (hnone : s.participant i = none) (call : DecisionCall R) :
    (entrant policy s i call).reservation ∉ s.admission.waiting := by
  intro hm
  obtain ⟨j, hj⟩ := (h.lists.waiting.mem_iff _).mp hm
  refine h.calls.fresh_entry waiting_entry_eq (i := i) ?_ rfl j hj
  simp [entries, hnone]

omit [DecidableEq R] in
/-- A candidate of an invocation that is not in execution is not in `_active`. -/
theorem AdmissionInv.not_acting (h : AdmissionInv policy s) (hp : s.participant i = some p)
    (hstage : p.stage = .deciding) (hc : c ∈ p.call.candidates) : c ∉ s.admission.active := by
  intro hm
  obtain ⟨j, hj⟩ := (h.lists.active.mem_iff c).mp hm
  obtain ⟨q, hq, hact⟩ := bind_eq_some_iff.mp hj
  have hacting := stage_of_active_entry hact
  -- ids are unique, so whoever executes the candidate brought it
  have hji := (h.calls.unique j i q p hq hp c (h.lists.acting j q c hq hacting) c hc rfl).1
  subst hji
  rw [hp] at hq
  cases hq
  rw [hstage] at hacting
  cases hacting

section Moved

variable {α : Type} {f : Participant I R → Option α} {s : AdmissionState I R} {l : List α}
  {i : I} {p : Participant I R} {stage : AdmissionStage} {a : ActionAdmission I} {x : α}

omit [DecidableEq R] in
theorem tracks_move_same (h : Tracks l (entries f s.participant))
    (hsame : entries f s.participant i = f { p with stage := stage }) :
    Tracks l (entries f (s.move i p stage a).participant) := by
  rw [AdmissionState.move, entries_update_same hsame]
  exact h

omit [DecidableEq R] in
theorem tracks_move_acquire (h : Tracks l (entries f s.participant))
    (hnone : entries f s.participant i = none) (hx : ∀ j, entries f s.participant j ≠ some x)
    (hnew : f { p with stage := stage } = some x) :
    Tracks (l ++ [x]) (entries f (s.move i p stage a).participant) := by
  rw [AdmissionState.move, entries_update, hnew]
  exact h.acquire hnone hx

omit [DecidableEq R] in
theorem tracks_move_release [DecidableEq α] (h : Tracks l (entries f s.participant))
    (hold : entries f s.participant i = some x) (hnew : f { p with stage := stage } = none) :
    Tracks (l.erase x) (entries f (s.move i p stage a).participant) := by
  rw [AdmissionState.move, entries_update, hnew]
  exact h.release hold

end Moved

omit [DecidableEq I] [DecidableEq R] in
/-- The lists after `notify_all`: nobody's entry changes. -/
theorem AdmissionLists.notify (h : AdmissionLists s) :
    AdmissionLists { s with participant := notify_all s.participant } where
  waiting := by
    rw [entries_notify_all waiting_entry_notify]; exact h.waiting
  committing := by
    rw [entries_notify_all committing_entry_notify]; exact h.committing
  active := by
    rw [entries_notify_all active_entry_notify]; exact h.active
  pending := h.pending
  never_waits i q hq c notified hstage := by
    simp only [notify_all, map_eq_some_iff] at hq
    obtain ⟨p, hp, rfl⟩ := hq
    cases hp' : p.stage with
    | admit_waiting d b => exact h.never_waits i p hp d b hp'
    | _ => rw [hp'] at hstage; cases hstage
  acting i q c hq hstage := by
    simp only [notify_all, map_eq_some_iff] at hq
    obtain ⟨p, hp, rfl⟩ := hq
    cases hp' : p.stage with
    | acting d =>
      rw [hp'] at hstage
      exact h.acting i p c hp (hp'.trans hstage)
    | _ => rw [hp'] at hstage; cases hstage

omit [DecidableEq R] in
/-- The lists after a move of one invocation, from its effect on each list. The
new stage is not the wait of an admit, and what it executes is its own. -/
theorem AdmissionLists.moved (h : AdmissionLists s) (hwait : Tracks a.waiting
      (entries Participant.waiting_entry (s.move i p stage a).participant))
    (hcommit : Tracks a.committing
      (entries Participant.committing_entry (s.move i p stage a).participant))
    (hactive : Tracks a.active
      (entries Participant.active_entry (s.move i p stage a).participant))
    (hpending : a.pending = []) (hnever : ∀ c notified, stage ≠ .admit_waiting c notified)
    (hacting : ∀ c, stage = .acting c → c ∈ p.call.candidates) :
    AdmissionLists (s.move i p stage a) where
  waiting := hwait
  committing := hcommit
  active := hactive
  pending := hpending
  never_waits := forall_move (fun j q _ hq => h.never_waits j q hq) hnever
  acting := by
    have hall : ∀ j q, (s.move i p stage a).participant j = some q →
        ∀ c, q.stage = .acting c → c ∈ q.call.candidates :=
      forall_move (fun j q _ hq c hc => h.acting j q c hq hc) hacting
    exact fun j q c hq hc => hall j q hq c hc

theorem AdmissionInv.lists_step (h : AdmissionInv policy s) (hs : AdmissionStep policy s e s') :
    AdmissionLists s' := by
  cases hs with
  | @enter_start i call hnone hnodup hfresh hready =>
    have hw0 : entries Participant.waiting_entry s.participant i = none := by
      simp [entries, hnone]
    have hc0 : entries Participant.committing_entry s.participant i = none := by
      simp [entries, hnone]
    have ha0 : entries Participant.active_entry s.participant i = none := by
      simp [entries, hnone]
    have hnot := h.entrant_not_waiting hnone call
    refine AdmissionLists.moved (s := s.issue call)
      ⟨h.lists.waiting, h.lists.committing, h.lists.active, h.lists.pending,
        h.lists.never_waits, h.lists.acting⟩ ?_ ?_ ?_ h.lists.pending (by simp) (by simp)
    · rw [start_new_decision hnot]
      exact tracks_move_same (s := s.issue call) h.lists.waiting hw0
    · exact tracks_move_acquire (s := s.issue call) h.lists.committing hc0
        (h.calls.fresh_entry committing_entry_eq hc0 rfl) rfl
    · exact tracks_move_same (s := s.issue call) h.lists.active ha0
  | @enter_wait i call hnone hnodup hfresh hready =>
    have hw0 : entries Participant.waiting_entry s.participant i = none := by
      simp [entries, hnone]
    have hc0 : entries Participant.committing_entry s.participant i = none := by
      simp [entries, hnone]
    have ha0 : entries Participant.active_entry s.participant i = none := by
      simp [entries, hnone]
    refine AdmissionLists.moved (s := s.issue call)
      ⟨h.lists.waiting, h.lists.committing, h.lists.active, h.lists.pending,
        h.lists.never_waits, h.lists.acting⟩ ?_ ?_ ?_ h.lists.pending (by simp) (by simp)
    · exact tracks_move_acquire (s := s.issue call) h.lists.waiting hw0
        (h.calls.fresh_entry waiting_entry_eq hw0 rfl) rfl
    · exact tracks_move_same (s := s.issue call) h.lists.committing hc0
    · exact tracks_move_same (s := s.issue call) h.lists.active ha0
  | @recheck_start i p hp hstage hready =>
    have hc0 : entries Participant.committing_entry s.participant i = none := by
      simp [entries, hp, Participant.committing_entry, hstage]
    refine h.lists.moved ?_ ?_ ?_ h.lists.pending (by simp) (by simp)
    · exact tracks_move_release h.lists.waiting
        (by simp [entries, hp, Participant.waiting_entry, hstage]) rfl
    · exact tracks_move_acquire h.lists.committing hc0
        (h.calls.fresh_entry committing_entry_eq hc0 (h.calls.owner i p hp)) rfl
    · exact tracks_move_same h.lists.active
        (by simp [entries, hp, Participant.active_entry, hstage])
  | @recheck_wait i p hp hstage hready =>
    refine h.lists.moved ?_ ?_ ?_ h.lists.pending (by simp) (by simp)
    · exact tracks_move_same h.lists.waiting
        (by simp [entries, hp, Participant.waiting_entry, hstage])
    · exact tracks_move_same h.lists.committing
        (by simp [entries, hp, Participant.committing_entry, hstage])
    · exact tracks_move_same h.lists.active
        (by simp [entries, hp, Participant.active_entry, hstage])
  | @admit_refuse i p c w hp hstage hc hwin =>
    refine h.lists.moved ?_ ?_ ?_ h.lists.pending (by simp) (by simp)
    · exact tracks_move_same h.lists.waiting
        (by simp [entries, hp, Participant.waiting_entry, hstage])
    · exact tracks_move_same h.lists.committing
        (by simp [entries, hp, Participant.committing_entry, hstage])
    · exact tracks_move_same h.lists.active
        (by simp [entries, hp, Participant.active_entry, hstage])
  | @admit_start i p c hp hstage hc hwin hready =>
    have ha0 : entries Participant.active_entry s.participant i = none := by
      simp [entries, hp, Participant.active_entry, hstage]
    have hfresh : ∀ j, entries Participant.active_entry s.participant j ≠ some c :=
      fun j hj => h.not_acting hp hstage hc (h.lists.active.mem hj)
    have hlists : AdmissionLists (s.move i p (.acting c)
        ((s.admission.wait_action c).start_action c)) := by
      refine h.lists.moved ?_ ?_ ?_ ?_ (by simp) ?_
      · exact tracks_move_same h.lists.waiting
          (by simp [entries, hp, Participant.waiting_entry, hstage])
      · exact tracks_move_same h.lists.committing
          (by simp [entries, hp, Participant.committing_entry, hstage])
      · exact tracks_move_acquire h.lists.active ha0 hfresh rfl
      · simp [start_action, wait_action, h.lists.pending]
      · intro d hd
        cases hd
        exact hc
    exact ⟨hlists.waiting, hlists.committing, hlists.active, hlists.pending,
      hlists.never_waits, hlists.acting⟩
  | @admit_wait i p c hp hstage hc hwin hready =>
    rw [h.admit_ready hp hstage hc hwin] at hready
    cases hready
  | @admit_recheck_start i p c hp hstage hready =>
    exact absurd hstage (h.lists.never_waits i p hp c true)
  | @admit_recheck_wait i p c hp hstage hready =>
    exact absurd hstage (h.lists.never_waits i p hp c true)
  | @admit_exit i p c raised hp hstage =>
    refine AdmissionLists.notify (h.lists.moved ?_ ?_ ?_ h.lists.pending (by simp) (by simp))
    · exact tracks_move_same h.lists.waiting
        (by simp [entries, hp, Participant.waiting_entry, hstage])
    · exact tracks_move_same h.lists.committing
        (by simp [entries, hp, Participant.committing_entry, hstage])
    · exact tracks_move_release h.lists.active
        (by simp [entries, hp, Participant.active_entry, hstage]) rfl
  | @refuse_exit i p c w raised hp hstage =>
    refine h.lists.moved ?_ ?_ ?_ h.lists.pending (by simp) (by simp)
    · exact tracks_move_same h.lists.waiting
        (by simp [entries, hp, Participant.waiting_entry, hstage])
    · exact tracks_move_same h.lists.committing
        (by simp [entries, hp, Participant.committing_entry, hstage])
    · exact tracks_move_same h.lists.active
        (by simp [entries, hp, Participant.active_entry, hstage])
  | @decision_exit i p raised hp hstage =>
    refine AdmissionLists.notify (h.lists.moved ?_ ?_ ?_ h.lists.pending (by simp) (by simp))
    · exact tracks_move_same h.lists.waiting
        (by simp [entries, hp, Participant.waiting_entry, hstage])
    · exact tracks_move_release h.lists.committing
        (by simp [entries, hp, Participant.committing_entry, hstage]) rfl
    · exact tracks_move_same h.lists.active
        (by simp [entries, hp, Participant.active_entry, hstage])

/-! ## Compatibility -/

omit [DecidableEq I] [DecidableEq R] in
theorem AdmissionCompatible.of_same (h : AdmissionCompatible policy s)
    (hactive : t.admission.active = s.admission.active)
    (hcommit : t.admission.committing = s.admission.committing) (hhist : t.history = s.history) :
    AdmissionCompatible policy t := by
  refine ⟨?_, ?_, ?_⟩
  · rw [hactive]; exact h.active
  · rw [hcommit]; exact h.committing
  · rw [hhist]; exact h.history

omit [DecidableEq R] in
/-- A decision joins those in commitment. -/
theorem AdmissionCompatible.start_decision (h : AdmissionCompatible policy s)
    {r : CommitReservation I} (hready : a.decision_ready policy r = true)
    (hcommit : a.committing = s.admission.committing) :
    (a.start_decision r).committing.Pairwise fun l r => decision_conflicts policy l r = false := by
  have hfree := committing_free_of_ready hready
  rw [ActionAdmission.start_decision, List.pairwise_append]
  refine ⟨hcommit ▸ h.committing, List.pairwise_singleton _ _, ?_⟩
  intro l hl r' hr'
  rw [List.mem_singleton.mp hr', decision_conflicts_comm]
  exact hfree l hl

/-- A candidate joins those in execution and, under `reject`, a history without a
conflicting one. -/
theorem AdmissionInv.compatible_start_action (h : AdmissionInv policy s)
    (hp : s.participant i = some p) (hstage : p.stage = .deciding) (hc : c ∈ p.call.candidates)
    (hwin : s.admission.admit_winner policy (s.history p.call.request) c = none) :
    AdmissionCompatible policy
      ((s.move i p (.acting c) ((s.admission.wait_action c).start_action c)).record
        p.call.request c) where
  active := by
    refine List.pairwise_append.mpr ⟨h.compatible.active, List.pairwise_singleton _ _, ?_⟩
    intro a ha b hb
    rw [List.mem_singleton.mp hb]
    exact h.active_free hp hstage hc hwin a ha
  committing := h.compatible.committing
  history := by
    intro hpol q
    by_cases hq : q = p.call.request
    · subst hq
      simp only [AdmissionState.record, AdmissionState.move, update_self]
      refine List.pairwise_append.mpr
        ⟨h.compatible.history hpol _, List.pairwise_singleton _ _, ?_⟩
      intro a ha b hb
      rw [List.mem_singleton.mp hb]
      simp only [admit_winner, if_pos hpol, List.find?_eq_none] at hwin
      simpa using hwin a (List.mem_append.mpr (Or.inl ha))
    · simp only [AdmissionState.record, AdmissionState.move, update_of_ne hq]
      exact h.compatible.history hpol q

theorem AdmissionInv.compatible_step (h : AdmissionInv policy s)
    (hs : AdmissionStep policy s e s') : AdmissionCompatible policy s' := by
  cases hs with
  | enter_start hnone hnodup hfresh hready =>
    exact ⟨h.compatible.active, h.compatible.start_decision hready rfl, h.compatible.history⟩
  | enter_wait => exact h.compatible.of_same rfl rfl rfl
  | recheck_start hp hstage hready =>
    exact ⟨h.compatible.active, h.compatible.start_decision hready rfl, h.compatible.history⟩
  | recheck_wait => exact h.compatible.of_same rfl rfl rfl
  | admit_refuse => exact h.compatible.of_same rfl rfl rfl
  | admit_start hp hstage hc hwin => exact h.compatible_start_action hp hstage hc hwin
  | admit_wait hp hstage hc hwin hready =>
    rw [h.admit_ready hp hstage hc hwin] at hready
    cases hready
  | admit_recheck_start hp hstage => exact absurd hstage (h.lists.never_waits _ _ hp _ true)
  | admit_recheck_wait hp hstage => exact absurd hstage (h.lists.never_waits _ _ hp _ true)
  | admit_exit =>
    exact ⟨h.compatible.active.sublist List.erase_sublist, h.compatible.committing,
      h.compatible.history⟩
  | refuse_exit => exact h.compatible.of_same rfl rfl rfl
  | decision_exit =>
    exact ⟨h.compatible.active, h.compatible.committing.sublist List.erase_sublist,
      h.compatible.history⟩

/-! ## Sleeping waiters -/

omit [DecidableEq R] in
/-- Only `waiting` and `committing` decide whether a decision has to wait. -/
theorem AdmissionAsleep.of_same (h : AdmissionAsleep policy s)
    (hwait : a.waiting = s.admission.waiting) (hcommit : a.committing = s.admission.committing)
    (hnew : stage = .waiting false → s.admission.decision_ready policy p.reservation = false) :
    AdmissionAsleep policy (s.move i p stage a) := by
  have hsame : ∀ r, a.decision_ready policy r = s.admission.decision_ready policy r := by
    intro r
    unfold decision_ready
    rw [hwait, hcommit]
  refine forall_move ?_ ?_
  · intro j q _ hq hstage
    exact (hsame _).trans (h j q hq hstage)
  · intro hstage
    exact (hsame _).trans (hnew hstage)

omit [DecidableEq R] in
/-- After `notify_all` nobody sleeps. -/
theorem AdmissionAsleep.notify (policy : ArbitrationPolicy) (s : AdmissionState I R) :
    AdmissionAsleep policy { s with participant := notify_all s.participant } := by
  intro i q hq hstage
  simp only [notify_all, map_eq_some_iff] at hq
  obtain ⟨p, -, rfl⟩ := hq
  cases hp' : p.stage <;> rw [hp'] at hstage <;> cases hstage

theorem AdmissionInv.asleep_step (h : AdmissionInv policy s) (hs : AdmissionStep policy s e s') :
    AdmissionAsleep policy s' := by
  have hnodup := h.lists.waiting.nodup
  -- a sleeping decision is one of those in `waiting`
  have hmem : ∀ j q, s.participant j = some q → q.stage = .waiting false →
      q.reservation ∈ s.admission.waiting := fun j q hq hstage =>
    h.lists.waiting.mem (i := j) (by simp [entries, hq, Participant.waiting_entry, hstage])
  cases hs with
  | @enter_start i call hnone hnd hfresh hready =>
    have hnot := h.entrant_not_waiting hnone call
    refine forall_move ?_ nofun
    intro j q _ hq hstage
    have hqueue := congrArg ActionAdmission.waiting (start_new_decision hnot)
    refine not_ready_of_more_committing (a := s.admission) (h.asleep j q hq hstage) ?_ ?_
    · exact hqueue
    · exact fun r hr => List.mem_append.mpr (Or.inl hr)
  | @enter_wait i call hnone hnd hfresh hready =>
    refine forall_move ?_ (fun _ => hready)
    intro j q _ hq hstage
    exact not_ready_of_append hnodup (h.entrant_not_waiting hnone call) (hmem j q hq hstage)
      (h.asleep j q hq hstage)
  | @recheck_start i p hp hstage hready =>
    refine forall_move ?_ nofun
    intro j q hji hq hqstage
    refine not_ready_of_start hnodup ?_ (h.asleep j q hq hqstage)
    intro heq
    exact hji ((h.calls.owner j q hq).symm.trans
      ((congrArg CommitReservation.owner heq).trans (h.calls.owner i p hp)))
  | recheck_wait hp hstage hready => exact h.asleep.of_same rfl rfl fun _ => hready
  | admit_refuse hp => exact h.asleep.of_same rfl rfl nofun
  | admit_start hp => exact h.asleep.of_same rfl rfl nofun
  | admit_wait hp => exact h.asleep.of_same rfl rfl nofun
  | admit_recheck_start hp => exact h.asleep.of_same rfl rfl nofun
  | admit_recheck_wait hp => exact h.asleep.of_same rfl rfl nofun
  | admit_exit => exact AdmissionAsleep.notify policy _
  | refuse_exit hp => exact h.asleep.of_same rfl rfl nofun
  | decision_exit => exact AdmissionAsleep.notify policy _

/-! ## Every reachable state -/

omit [DecidableEq R] in
theorem admission_inv_init (policy : ArbitrationPolicy) :
    AdmissionInv policy ({} : AdmissionState I R) where
  calls := ⟨by simp, by simp, by simp, by simp⟩
  lists := ⟨Tracks.empty, Tracks.empty, Tracks.empty, rfl, by simp, by simp⟩
  compatible := ⟨List.Pairwise.nil, List.Pairwise.nil, fun _ _ => List.Pairwise.nil⟩
  asleep := by simp [AdmissionAsleep]

theorem AdmissionInv.step {policy : ArbitrationPolicy} {s s' : AdmissionState I R}
    {e : AdmissionEvent I R} (h : AdmissionInv policy s) (hs : AdmissionStep policy s e s') :
    AdmissionInv policy s' :=
  ⟨h.calls.step hs, h.lists_step hs, h.compatible_step hs, h.asleep_step hs⟩

theorem admission_inv (h : (admission_system policy).Reachable s) : AdmissionInv policy s :=
  h.invariant (fun _ hinit => hinit ▸ admission_inv_init policy)
    fun _ _ _ _ hinv hs => hinv.step (admission_step policy hs)

/-! ## Absence of deadlock -/

/-- The order in which waiting decisions are served. -/
def waiting_key (policy : ArbitrationPolicy) (waiting : List (CommitReservation I))
    (r : CommitReservation I) : ℤ ×ₗ ℕ :=
  toLex (if policy = .priority then -r.priority else 0, waiting.idxOf r)

omit [DecidableEq R] in
/-- Nobody goes before the waiter with the least key. -/
theorem goes_before_iff_key (policy : ArbitrationPolicy) (waiting : List (CommitReservation I))
    (l r : CommitReservation I) :
    goes_before policy (l.priority, waiting.idxOf l) (r.priority, waiting.idxOf r) = true ↔
      waiting_key policy waiting l < waiting_key policy waiting r := by
  unfold goes_before waiting_key
  rw [Prod.Lex.toLex_lt_toLex]
  by_cases hpol : policy = .priority
  · simp [hpol]
  · simp [hpol]

omit [DecidableEq R] in
/-- When nothing is in commitment, the first waiter can start. -/
theorem first_waiter_ready (hnodup : a.waiting.Nodup) (hcommit : a.committing = [])
    (hwait : a.waiting ≠ []) : ∃ r ∈ a.waiting, a.decision_ready policy r = true := by
  obtain ⟨r, hr, hmin⟩ := Finset.exists_min_image a.waiting.toFinset
    (waiting_key policy a.waiting) (List.toFinset_nonempty_iff _ |>.mpr hwait)
  refine ⟨r, List.mem_toFinset.mp hr, (decision_ready_iff hnodup r).mpr ⟨?_, ?_⟩⟩
  · rw [hcommit]; exact fun _ h => absurd h List.not_mem_nil
  · intro other ho _ _
    rw [Bool.eq_false_iff, ne_eq, goes_before_iff_key, not_lt]
    exact hmin other (List.mem_toFinset.mpr ho)

/-- The invocation is in the wait of one of the two context managers. -/
def AdmissionStage.in_wait : AdmissionStage → Bool
  | .waiting _ | .admit_waiting _ _ => true
  | _ => false

/-- An invocation that can go on: it is in no wait, or it has been notified and
its predicate holds. -/
def Runnable (policy : ArbitrationPolicy) (s : AdmissionState I R) (p : Participant I R) : Prop :=
  p.stage.in_wait = false ∨
    p.stage = .waiting true ∧ s.admission.decision_ready policy p.reservation = true

omit [DecidableEq R] in
/-- Some live invocation can go on. -/
theorem AdmissionInv.progress (h : AdmissionInv policy s) (hp : s.participant i = some p)
    (hlive : p.stage ≠ .finished) :
    ∃ j q, s.participant j = some q ∧ q.stage ≠ .finished ∧ Runnable policy s q := by
  by_cases hcommit : s.admission.committing = []
  · -- with nothing in commitment, a live invocation is a waiting decision
    have hw : p.waiting_entry = some p.reservation := by
      by_contra hno
      have hc : p.committing_entry = some p.reservation := by
        cases hstage : p.stage with
        | waiting b => exact absurd (by simp [Participant.waiting_entry, hstage]) hno
        | finished => exact absurd hstage hlive
        | _ => simp [Participant.committing_entry, hstage]
      have hmem := h.lists.committing.mem (i := i) (a := p.reservation) (by simp [entries, hp, hc])
      rw [hcommit] at hmem
      cases hmem
    have hwait : s.admission.waiting ≠ [] :=
      List.ne_nil_of_mem (h.lists.waiting.mem (i := i) (a := p.reservation)
        (by simp [entries, hp, hw]))
    obtain ⟨r, hr, hready⟩ : ∃ r ∈ s.admission.waiting, s.admission.decision_ready policy r = true :=
      first_waiter_ready h.lists.waiting.nodup hcommit hwait
    obtain ⟨j, hj⟩ := (h.lists.waiting.mem_iff r).mp hr
    obtain ⟨q, hq, hqw⟩ := bind_eq_some_iff.mp hj
    have hrq := waiting_entry_eq q r hqw
    subst hrq
    cases hstage : q.stage with
    | waiting b =>
      cases b with
      | true => exact ⟨j, q, hq, by simp [hstage], Or.inr ⟨hstage, hready⟩⟩
      | false =>
        rw [h.asleep j q hq hstage] at hready
        cases hready
    | _ => simp [Participant.waiting_entry, hstage] at hqw
  · obtain ⟨r, hr⟩ := List.exists_mem_of_ne_nil _ hcommit
    obtain ⟨j, hj⟩ := (h.lists.committing.mem_iff r).mp hr
    obtain ⟨q, hq, hqc⟩ := bind_eq_some_iff.mp hj
    refine ⟨j, q, hq, ?_, Or.inl ?_⟩
    · intro hfin
      simp [Participant.committing_entry, hfin] at hqc
    · cases hstage : q.stage with
      | waiting b => simp [Participant.committing_entry, hstage] at hqc
      | admit_waiting c b => exact absurd hstage (h.lists.never_waits j q hq c b)
      | _ => rfl

/-! ## What enters add and exits remove -/

/-- The invocation a section belongs to. -/
def AdmissionEvent.invocation : AdmissionEvent I R → I
  | .decision_enter i _ | .decision_recheck i | .admit_enter i _ | .admit_recheck i
  | .admit_exit i _ | .decision_exit i _ => i

/-- What a section does to the lists of the monitor when it takes its invocation
from `p` to `q`. -/
inductive ListChange (a : ActionAdmission I) :
    AdmissionEvent I R → Option (Participant I R) → Participant I R → ActionAdmission I → Prop
  /-- `decision` queues a reservation that is not there yet. -/
  | queue {i : I} {call : DecisionCall R} {q : Participant I R}
      (hnot : q.reservation ∉ a.waiting) (hstage : q.stage = .waiting false) :
      ListChange a (.decision_enter i call) none q
        { a with waiting := a.waiting ++ [q.reservation] }
  /-- `decision` starts at once. -/
  | enter {i : I} {call : DecisionCall R} {q : Participant I R}
      (hnot : q.reservation ∉ a.committing) (hstage : q.stage = .deciding) :
      ListChange a (.decision_enter i call) none q
        { a with committing := a.committing ++ [q.reservation] }
  /-- A queued decision starts. -/
  | start {i : I} {p q : Participant I R} (hcall : q.reservation = p.reservation)
      (hone : a.waiting.count p.reservation = 1) (hnot : p.reservation ∉ a.committing)
      (hstage : q.stage = .deciding) :
      ListChange a (.decision_recheck i) (some p) q
        { a with
          waiting := a.waiting.erase p.reservation
          committing := a.committing ++ [p.reservation] }
  /-- A queued decision goes on waiting. -/
  | wait {i : I} {p q : Participant I R} (hcall : q.reservation = p.reservation)
      (hstage : q.stage = .waiting false) : ListChange a (.decision_recheck i) (some p) q a
  /-- A decision exits. -/
  | leave {i : I} {p q : Participant I R} {raised : Bool} (hcall : q.reservation = p.reservation)
      (hone : a.committing.count p.reservation = 1) (hstage : q.stage = .finished) :
      ListChange a (.decision_exit i raised) (some p) q
        { a with committing := a.committing.erase p.reservation }
  /-- An admit puts its candidate into execution. -/
  | act {i : I} {p q : Participant I R} {c : ArbitrationCandidate}
      (hcall : q.reservation = p.reservation) (hnot : c ∉ a.active) (hstage : q.stage = .acting c) :
      ListChange a (.admit_enter i c) (some p) q { a with active := a.active ++ [c] }
  /-- The exit of that admit takes the candidate out. -/
  | done {i : I} {p q : Participant I R} {c : ArbitrationCandidate} {raised : Bool}
      (hcall : q.reservation = p.reservation) (hacting : p.stage = .acting c)
      (hone : a.active.count c = 1) (hstage : q.stage = .deciding) :
      ListChange a (.admit_exit i raised) (some p) q { a with active := a.active.erase c }
  /-- An admit that yields a winner adds nothing. -/
  | refuse {i : I} {p q : Participant I R} {c w : ArbitrationCandidate}
      (hcall : q.reservation = p.reservation) (hstage : q.stage = .refused c w) :
      ListChange a (.admit_enter i c) (some p) q a
  /-- The exit of that admit removes nothing. -/
  | refused {i : I} {p q : Participant I R} {c w : ArbitrationCandidate} {raised : Bool}
      (hcall : q.reservation = p.reservation) (hrefused : p.stage = .refused c w)
      (hstage : q.stage = .deciding) : ListChange a (.admit_exit i raised) (some p) q a

omit [DecidableEq I] [DecidableEq R] in
/-- An invocation's entry is in the list, once. -/
theorem count_entry {α : Type} [DecidableEq α] {f : Participant I R → Option α} {l : List α}
    {participant : I → Option (Participant I R)} (h : Tracks l (entries f participant)) {x : α}
    (hp : participant i = some p) (hx : f p = some x) : l.count x = 1 :=
  List.count_eq_one_of_mem h.nodup (h.mem (i := i) (by simp [entries, hp, hx]))

/-- Every section changes the lists as `ListChange` says. -/
theorem AdmissionInv.list_change (h : AdmissionInv policy s) (hs : AdmissionStep policy s e s') :
    ∃ q, s'.participant e.invocation = some q ∧
      ListChange s.admission e (s.participant e.invocation) q s'.admission := by
  -- nobody else has the reservation of an invocation that is not in commitment
  have hfree : ∀ i p, s.participant i = some p → p.committing_entry = none →
      p.reservation ∉ s.admission.committing := by
    intro i p hp hnone hm
    obtain ⟨j, hj⟩ := (h.lists.committing.mem_iff _).mp hm
    refine h.calls.fresh_entry committing_entry_eq (i := i) ?_ (h.calls.owner i p hp) j hj
    simp [entries, hp, hnone]
  cases hs with
  | @enter_start i call hnone hnodup hfresh hready =>
    refine ⟨_, update_self _ _ _, ?_⟩
    have hstart := start_new_decision (h.entrant_not_waiting hnone call)
    simp only [AdmissionEvent.invocation, hnone, AdmissionState.move, hstart]
    refine .enter ?_ rfl
    intro hm
    obtain ⟨j, hj⟩ := (h.lists.committing.mem_iff _).mp hm
    refine h.calls.fresh_entry committing_entry_eq (i := i) ?_ rfl j hj
    simp [entries, hnone]
  | @enter_wait i call hnone hnodup hfresh hready =>
    refine ⟨_, update_self _ _ _, ?_⟩
    simp only [AdmissionEvent.invocation, hnone]
    exact .queue (h.entrant_not_waiting hnone call) rfl
  | @recheck_start i p hp hstage hready =>
    refine ⟨_, update_self _ _ _, ?_⟩
    simp only [AdmissionEvent.invocation, hp]
    refine .start rfl (count_entry h.lists.waiting hp ?_) (hfree i p hp ?_) rfl
    · simp [Participant.waiting_entry, hstage]
    · simp [Participant.committing_entry, hstage]
  | @recheck_wait i p hp hstage hready =>
    refine ⟨_, update_self _ _ _, ?_⟩
    simp only [AdmissionEvent.invocation, hp]
    exact .wait rfl rfl
  | @admit_refuse i p c w hp hstage hc hwin =>
    refine ⟨_, update_self _ _ _, ?_⟩
    simp only [AdmissionEvent.invocation, hp]
    exact .refuse rfl rfl
  | @admit_start i p c hp hstage hc hwin hready =>
    refine ⟨_, update_self _ _ _, ?_⟩
    have hback : (s.admission.wait_action c).start_action c
        = { s.admission with active := s.admission.active ++ [c] } := by
      simp [start_action, wait_action, h.lists.pending]
    simp only [AdmissionEvent.invocation, hp, AdmissionState.record, AdmissionState.move, hback]
    exact .act rfl (h.not_acting hp hstage hc) rfl
  | @admit_wait i p c hp hstage hc hwin hready =>
    rw [h.admit_ready hp hstage hc hwin] at hready
    cases hready
  | admit_recheck_start hp hstage => exact absurd hstage (h.lists.never_waits _ _ hp _ true)
  | admit_recheck_wait hp hstage => exact absurd hstage (h.lists.never_waits _ _ hp _ true)
  | @admit_exit i p c raised hp hstage =>
    refine ⟨{ p with stage := .deciding }, ?_, ?_⟩
    · simp [AdmissionEvent.invocation, AdmissionState.move, notify_all, AdmissionStage.notify]
    · simp only [AdmissionEvent.invocation, hp]
      refine .done rfl hstage (count_entry h.lists.active hp ?_) rfl
      simp [Participant.active_entry, hstage]
  | @refuse_exit i p c w raised hp hstage =>
    refine ⟨_, update_self _ _ _, ?_⟩
    simp only [AdmissionEvent.invocation, hp]
    exact .refused rfl hstage rfl
  | @decision_exit i p raised hp hstage =>
    refine ⟨{ p with stage := .finished }, ?_, ?_⟩
    · simp [AdmissionEvent.invocation, AdmissionState.move, notify_all, AdmissionStage.notify]
    · simp only [AdmissionEvent.invocation, hp]
      refine .leave rfl (count_entry h.lists.committing hp ?_) rfl
      simp [Participant.committing_entry, hstage]

/-! ## What a step keeps -/

/-- Invocation `j` is still there, with its call and its reservation, and still
in commitment if it was. -/
def Keeps (s t : AdmissionState I R) (j : I) : Prop :=
  ∀ p, s.participant j = some p → ∃ q, t.participant j = some q ∧ q.call = p.call ∧
    q.reservation = p.reservation ∧ (p.committing_entry.isSome → q.committing_entry.isSome)

omit [DecidableEq R] in
theorem keeps_move_of_ne (hj : j ≠ i) (p : Participant I R) (stage : AdmissionStage)
    (a : ActionAdmission I) : Keeps s (s.move i p stage a) j := by
  intro q hq
  exact ⟨q, (update_of_ne hj _ _).trans hq, rfl, rfl, id⟩

omit [DecidableEq R] in
theorem keeps_move (hp : s.participant i = some p) (a : ActionAdmission I)
    (hstage : p.committing_entry.isSome →
      (Participant.committing_entry { p with stage := stage }).isSome) (j : I) :
    Keeps s (s.move i p stage a) j := by
  by_cases hj : j = i
  · subst hj
    intro q hq
    rw [hp] at hq
    cases hq
    exact ⟨_, update_self _ _ _, rfl, rfl, hstage⟩
  · exact keeps_move_of_ne hj p stage a

omit [DecidableEq I] [DecidableEq R] in
theorem Keeps.notify (h : Keeps s t j) :
    Keeps s { t with participant := notify_all t.participant } j := by
  intro p hp
  obtain ⟨q, hq, hcall, hres, hcommit⟩ := h p hp
  refine ⟨{ q with stage := q.stage.notify }, by simp [notify_all, hq], hcall, hres, ?_⟩
  intro hin
  rw [committing_entry_notify]
  exact hcommit hin

omit [DecidableEq I] in
theorem Keeps.record (h : Keeps s t j) (q : R) (c : ArbitrationCandidate) :
    Keeps s (t.record q c) j := h

/-- A step keeps every invocation that does not leave its decision. -/
theorem AdmissionStep.keeps (hs : AdmissionStep policy s e s')
    (hstay : ∀ raised, e ≠ .decision_exit j raised) : Keeps s s' j := by
  cases hs with
  | @enter_start i call hnone hnodup hfresh hready =>
    intro p hp
    have hj : j ≠ i := by rintro rfl; rw [hnone] at hp; cases hp
    exact keeps_move_of_ne (s := s.issue call) hj _ _ _ p hp
  | @enter_wait i call hnone hnodup hfresh hready =>
    intro p hp
    have hj : j ≠ i := by rintro rfl; rw [hnone] at hp; cases hp
    exact keeps_move_of_ne (s := s.issue call) hj _ _ _ p hp
  | recheck_start hp => exact keeps_move hp _ (fun _ => rfl) j
  | recheck_wait hp hstage =>
    exact keeps_move hp _ (fun h => by simp [Participant.committing_entry, hstage] at h) j
  | admit_refuse hp => exact keeps_move hp _ (fun _ => rfl) j
  | admit_start hp => exact (keeps_move hp _ (fun _ => rfl) j).record _ _
  | admit_wait hp => exact keeps_move hp _ (fun _ => rfl) j
  | admit_recheck_start hp => exact (keeps_move hp _ (fun _ => rfl) j).record _ _
  | admit_recheck_wait hp => exact keeps_move hp _ (fun _ => rfl) j
  | admit_exit hp => exact (keeps_move hp _ (fun _ => rfl) j).notify
  | refuse_exit hp => exact keeps_move hp _ (fun _ => rfl) j
  | @decision_exit i p raised hp =>
    have hj : j ≠ i := by rintro rfl; exact hstay raised rfl
    exact (keeps_move_of_ne hj _ _ _).notify

/-- Who has not entered is not entered by somebody else's step. -/
theorem AdmissionStep.stranger (hs : AdmissionStep policy s e s') (hj : j ≠ e.invocation)
    (hnone : s.participant j = none) : s'.participant j = none := by
  cases hs <;> simp_all [AdmissionEvent.invocation, AdmissionState.move, AdmissionState.record,
    AdmissionState.issue, notify_all]

/-- Who enters has the reservation built on entry. -/
theorem AdmissionStep.entered (hs : AdmissionStep policy s (.decision_enter i call) s') :
    ∃ q, s'.participant i = some q ∧ q.call = call ∧
      q.reservation = (entrant policy s i call).reservation := by
  cases hs with
  | enter_start => exact ⟨_, update_self _ _ _, rfl, rfl⟩
  | enter_wait => exact ⟨_, update_self _ _ _, rfl, rfl⟩

omit [DecidableEq R] in
/-- Two invocations in commitment: what one writes the other neither reads nor
writes. -/
theorem AdmissionInv.disjoint (h : AdmissionInv policy s) {q : Participant I R} (hij : i ≠ j)
    (hp : s.participant i = some p) (hq : s.participant j = some q)
    (hpc : p.committing_entry.isSome) (hqc : q.committing_entry.isSome) :
    Disjoint q.reservation.writes (p.reservation.reads ∪ p.reservation.writes) := by
  have hmem : ∀ k r, s.participant k = some r → r.committing_entry.isSome →
      r.reservation ∈ s.admission.committing := by
    intro k r hr hrc
    obtain ⟨x, hx⟩ := isSome_iff_exists.mp hrc
    have hxr := committing_entry_eq r x hx
    subst hxr
    exact h.lists.committing.mem (i := k) (by simp [entries, hr, hx])
  have hne : p.reservation ≠ q.reservation := by
    intro heq
    exact hij ((h.calls.owner i p hp).symm.trans
      ((congrArg CommitReservation.owner heq).trans (h.calls.owner j q hq)))
  have hcompat := h.compatible.committing.forall (hmem i p hp hpc) (hmem j q hq hqc) hne
  exact (disjoint_of_decision_conflicts hcompat).2

/-! ## The contract of the monitor -/

/-- What holds in every reachable state of the monitor. -/
structure AdmissionContract (policy : ArbitrationPolicy) (s : AdmissionState I R) : Prop where
  /-- No two actions in execution conflict. -/
  active : s.admission.active.Pairwise fun a b => conflicts a b = false
  /-- No write of one decision in commitment is a read or a write of another. -/
  committing : s.admission.committing.Pairwise fun l r =>
    Disjoint l.writes (r.reads ∪ r.writes) ∧ Disjoint r.writes (l.reads ∪ l.writes)
  /-- Under `reject` the admitted candidates of one request do not conflict. -/
  history : policy = .reject → ∀ q, (s.history q).Pairwise fun a b => conflicts a b = false
  /-- Every exit removes what its enter added, whether or not the body raised. -/
  exits : ∀ e s', (admission_system policy).step s e = some s' →
    ∃ q, s'.participant e.invocation = some q ∧
      ListChange s.admission e (s.participant e.invocation) q s'.admission
  /-- Every exit is possible, so nothing an enter added stays for ever. -/
  exits_enabled : ∀ i p raised, s.participant i = some p →
    (p.stage = .deciding → ((admission_system policy).step s (.decision_exit i raised)).isSome) ∧
      ∀ c, p.stage = .acting c → ((admission_system policy).step s (.admit_exit i raised)).isSome
  /-- While an invocation is live, some live invocation can go on. -/
  progress : ∀ i p, s.participant i = some p → p.stage ≠ .finished →
    ∃ j q, s.participant j = some q ∧ q.stage ≠ .finished ∧ Runnable policy s q
  /-- No admit waits. -/
  admits : ∀ i p, s.participant i = some p → ∀ c notified, p.stage ≠ .admit_waiting c notified

/-- The admission monitor keeps its contract under every interleaving. -/
theorem admission_contract {policy : ArbitrationPolicy} {s : AdmissionState I R}
    (h : (admission_system policy).Reachable s) : AdmissionContract policy s := by
  have hinv := admission_inv h
  refine ⟨hinv.compatible.active, ?_, hinv.compatible.history, ?_, ?_, ?_, hinv.lists.never_waits⟩
  · exact hinv.compatible.committing.imp disjoint_of_decision_conflicts
  · exact fun e s' hs => hinv.list_change (admission_step policy hs)
  · intro i p raised hp
    constructor
    · intro hstage
      simp [admission_system, decision_exit, hp, hstage]
    · intro c hstage
      simp [admission_system, admit_exit, hp, hstage]
  · exact fun i p hp hlive => hinv.progress hp hlive

end Invariants

/-! Two requests under `serialize` whose agents act on one link: the second one
waits until the first one has left. -/

/-- The call of invocation `i`, with one proposal on the link. -/
def link_call (i : String) : DecisionCall ℕ :=
  let context : AgentContext :=
    { invocation_id := i, run_id := "run", agent_id := "repair", deployment := "lab" }
  let proposal : ActionProposal := { id := "cut", capability := "link.down", target := "s1-s2" }
  { request := 0
    context := context
    response := { proposals := [proposal] }
    candidates := arbitration_candidates (fun _ => []) [(context, proposal)] }

theorem admission_contract_link : ∃ s : AdmissionState ℕ ℕ, (admission_system .serialize).run {}
        [.decision_enter 0 (link_call "a"), .decision_enter 1 (link_call "b")] = some s ∧
      (s.participant 0).map Participant.stage = some .deciding ∧
      (s.participant 1).map Participant.stage = some (.waiting false) ∧
      AdmissionContract .serialize s := by
  have hrun : ((admission_system .serialize).run {}
      [.decision_enter 0 (link_call "a"), .decision_enter 1 (link_call "b")]).any
        (fun s => (s.participant 0).map Participant.stage = some .deciding ∧
          (s.participant 1).map Participant.stage = some (.waiting false)) = true := by decide
  obtain ⟨s, hs, hstages⟩ := (any_eq_true _ _).mp hrun
  have hboth := of_decide_eq_true hstages
  exact ⟨s, hs, hboth.1, hboth.2, admission_contract (System.Reachable.run (.init rfl) hs)⟩

end MininetAi
