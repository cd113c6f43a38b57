/-
What a `DecisionAuthority` guarantees under any calls: authority is linear.

The sections under `_lock` are totally ordered, and the log is that order. A
revocation is recorded at most once, so it cuts the log in two: starts stand
before it, and behind it only calls of actions that had been started. The other
half is mutual exclusion: from its check until its action is over an execution
holds `_action_serial`.
-/
import MininetAi.Agents.Bounded

set_option autoImplicit false

namespace MininetAi

open Option

open List

variable {ι T : Type}

/-! ## Reading a log -/

/-- The reason a record gives. -/
def AuthorityRecord.reason : AuthorityRecord ι T → Option RevocationReason
  | .revoked r => some r
  | _ => none

/-- The tick of a recorded start. -/
def AuthorityRecord.tick : AuthorityRecord ι T → Option T
  | .started _ tick => some tick
  | _ => none

/-- What may stand behind what: behind a revocation only calls, and a call is
there once. -/
def AuthorityRecord.Behind : AuthorityRecord ι T → AuthorityRecord ι T → Prop
  | .revoked _, .revoked _ | .revoked _, .started _ _ => False
  | .called i, .called j => i ≠ j
  | _, _ => True

/-- The action was started before it is called. -/
def CalledStarted (log : List (AuthorityRecord ι T)) : Prop :=
  log.Preceded (fun r => ∃ i, r = .called i)
    fun y x => ∀ i, x = .called i → ∃ tick, y = .started i tick

/-! ## What a step can do -/

/-- The execution holds `_action_serial`. -/
def AuthorityStage.serial : AuthorityStage → Bool
  | .checking | .started | .running => true
  | _ => false

/-- The action has been called. -/
def AuthorityStage.called : AuthorityStage → Bool
  | .running | .raised | .returned true _ => true
  | _ => false

section Steps

variable [DecidableEq ι] [LinearOrder T]

/-- The section of a revocation that is the first, at a reading of the clock. -/
def AuthorityState.revoked (s : AuthorityState ι T) (now : T) (r : RevocationReason) :
    AuthorityState ι T :=
  { s with
    clock := now
    authority := { s.authority with revocation := some r }
    log := s.log ++ [.revoked r] }

/-- A step moves one call, or it revokes, or it is a reading of the clock. -/
inductive AuthorityStep (s : AuthorityState ι T) : AuthorityState ι T → Prop
  | read (now : T) (hclock : s.clock ≤ now) : AuthorityStep s { s with clock := now }
  | revoke (now : T) (hclock : s.clock ≤ now) (r : RevocationReason)
      (hnone : s.authority.revocation = none) : AuthorityStep s (s.revoked now r)
  | arrive (i : ι) (call : AuthorityCall) (hnew : s.thread i = none) :
      AuthorityStep s (s.goto i { call := call, stage := .arrived } .arrived)
  | lock_start (i : ι) (t : AuthorityThread) (ht : s.thread i = some t)
      (hstage : t.stage = .arrived) (lock : Option ι) :
      AuthorityStep s (({ s with action_start_lock := lock } : AuthorityState ι T).goto i t .ready)
  | lock_serial (i : ι) (t : AuthorityThread) (ht : s.thread i = some t)
      (hstage : t.stage = .ready) (hfree : s.action_serial = none) :
      AuthorityStep s
        (({ s with action_serial := some i } : AuthorityState ι T).goto i t .checking)
  | start (i : ι) (t : AuthorityThread) (ht : s.thread i = some t)
      (hstage : t.stage = .checking) (now : T) (hclock : s.clock ≤ now)
      (hnone : s.authority.revocation = none) (hdeadline : now < s.authority.deadline_tick) :
      AuthorityStep s
        (({ s with
            clock := now
            authority := { s.authority with action_starts := s.authority.action_starts ++ [now] }
            log := s.log ++ [.started i now] } : AuthorityState ι T).goto i t .started)
  | refuse (i : ι) (t : AuthorityThread) (ht : s.thread i = some t)
      (hstage : t.stage = .checking) (now : T) (hclock : s.clock ≤ now)
      (hsome : s.authority.revocation ≠ none) :
      AuthorityStep s
        (({ s with clock := now, action_serial := none } : AuthorityState ι T).goto i t .refused)
  | expire (i : ι) (t : AuthorityThread) (ht : s.thread i = some t)
      (hstage : t.stage = .checking) (now : T) (hclock : s.clock ≤ now)
      (hnone : s.authority.revocation = none) (hdeadline : s.authority.deadline_tick ≤ now) :
      AuthorityStep s
        (({ s.revoked now .timeout with action_serial := none } : AuthorityState ι T).goto i t
          .refused)
  | call (i : ι) (t : AuthorityThread) (ht : s.thread i = some t) (hstage : t.stage = .started) :
      AuthorityStep s
        (({ s with log := s.log ++ [.called i] } : AuthorityState ι T).goto i t .running)
  | finish (i : ι) (t : AuthorityThread) (ht : s.thread i = some t) (hstage : t.stage = .running)
      (result : ActionResult) :
      AuthorityStep s ((s.unlock i).goto i t (.returned true (some result)))
  | raise (i : ι) (t : AuthorityThread) (ht : s.thread i = some t) (hstage : t.stage = .running) :
      AuthorityStep s ((s.unlock i).goto i t .raised)
  | report_execute (i : ι) (prepared : PreparedAgentInvocation) (proposal : ActionProposal)
      (ht : s.thread i = some ⟨.execute prepared proposal, .refused⟩) :
      AuthorityStep s ((s.unlock i).goto i ⟨.execute prepared proposal, .refused⟩
        (.returned false (some (refused_result prepared proposal s.authority.revocation))))
  | report_other (i : ι) (ht : s.thread i = some ⟨.other, .refused⟩) :
      AuthorityStep s ((s.unlock i).goto i ⟨.other, .refused⟩ (.returned false none))

omit [DecidableEq ι] [LinearOrder T] in
/-- A change of the authority that leaves its revocation alone is not logged. -/
theorem update_same (s : AuthorityState ι T) (now : T) (a : DecisionAuthority T)
    (ha : a.revocation = s.authority.revocation) :
    ({ s with clock := now } : AuthorityState ι T).update a
      = { s with clock := now, authority := a } := by
  unfold AuthorityState.update
  by_cases hnone : s.authority.revocation = none
  · simp [ha, hnone]
  · simp [hnone]

omit [DecidableEq ι] [LinearOrder T] in
theorem update_revoked (s : AuthorityState ι T) (now : T) (r : RevocationReason)
    (hnone : s.authority.revocation = none) :
    ({ s with clock := now } : AuthorityState ι T).update
      { s.authority with revocation := some r } = s.revoked now r := by
  simp [AuthorityState.update, AuthorityState.revoked, hnone]

variable {s s' : AuthorityState ι T} {e : AuthorityEvent ι T}

/-- The inversion of a section of a known call. -/
theorem authority_thread_step {i : ι} {t : AuthorityThread} (ht : s.thread i = some t)
    (hi : e.thread = some i) (h : thread_section s t e = some s') : AuthorityStep s s' := by
  rcases t with ⟨call, stage⟩
  rcases e with _ | _ | _ | j | j | ⟨j, now⟩ | j | ⟨j, result⟩ | j | j <;>
    simp only [AuthorityEvent.thread, Option.some.injEq, reduceCtorEq] at hi <;> subst hi
  · simp [thread_section] at h
  · -- `action_start_lock` is for calls from `execute`
    rcases stage <;> rcases call <;> simp [thread_section] at h
    · obtain ⟨-, rfl⟩ := h
      exact .lock_start _ _ ht rfl _
    · subst h
      exact .lock_start _ _ ht rfl s.action_start_lock
  · rcases stage <;> simp [thread_section] at h
    obtain ⟨hfree, rfl⟩ := h
    exact .lock_serial _ _ ht rfl hfree
  · rcases stage <;> simp only [thread_section, reduceCtorEq] at h
    by_cases hclock : s.clock ≤ now
    swap
    · simp [hclock] at h
    by_cases hnone : s.authority.revocation = none
    swap
    · -- revoked before
      have hstart : s.authority.start now = (s.authority, false) := by
        simp [DecisionAuthority.start, hnone]
      simp [hclock, hstart, update_same s now s.authority rfl] at h
      subst h
      exact .refuse _ _ ht rfl now hclock hnone
    by_cases hdeadline : s.authority.deadline_tick ≤ now
    · have hstart : s.authority.start now
          = ({ s.authority with revocation := some .timeout }, false) := by
        simp [DecisionAuthority.start, hnone, hdeadline]
      simp [hclock, hstart, update_revoked s now .timeout hnone] at h
      subst h
      exact .expire _ _ ht rfl now hclock hnone hdeadline
    · have hstart : s.authority.start now
          = ({ s.authority with action_starts := s.authority.action_starts ++ [now] }, true) := by
        simp [DecisionAuthority.start, hnone, hdeadline]
      have hupd := update_same s now
        { s.authority with action_starts := s.authority.action_starts ++ [now] } rfl
      simp only [hclock, hstart, hupd, if_true, Option.some.injEq] at h
      subst h
      exact .start _ _ ht rfl now hclock hnone (lt_of_not_ge hdeadline)
  · rcases stage <;> simp [thread_section] at h
    subst h
    exact .call _ _ ht rfl
  · rcases stage <;> simp [thread_section] at h
    subst h
    exact .finish _ _ ht rfl result
  · rcases stage <;> simp [thread_section] at h
    subst h
    exact .raise _ _ ht rfl
  · rcases stage <;> rcases call <;> simp [thread_section] at h
    · subst h
      exact .report_execute _ _ _ ht
    · subst h
      exact .report_other _ ht

theorem authority_step (h : authority_system.step s e = some s') : AuthorityStep s s' := by
  have hthread : ∀ i t, s.thread i = some t → e.thread = some i →
      thread_section s t e = some s' → AuthorityStep s s' :=
    fun i t ht hi hs => authority_thread_step ht hi hs
  rcases e with reason | now | ⟨i, call⟩ | i | i | ⟨i, now⟩ | i | ⟨i, result⟩ | i | i
  · simp only [authority_system] at h
    split at h
    · rename_i r hr
      by_cases hnone : s.authority.revocation = none
      · simp [DecisionAuthority.revoke, hnone] at h
        have hupd := update_revoked s s.clock r hnone
        rw [show ({ s with clock := s.clock } : AuthorityState ι T) = s from rfl] at hupd
        rw [hupd] at h
        subst h
        exact .revoke _ le_rfl r hnone
      · simp [DecisionAuthority.revoke, hnone] at h
        have hupd := update_same s s.clock s.authority rfl
        rw [show ({ s with clock := s.clock } : AuthorityState ι T) = s from rfl] at hupd
        rw [hupd] at h
        subst h
        exact .read s.clock le_rfl
    · obtain rfl := Option.some.inj h
      exact .read s.clock le_rfl
  · simp only [authority_system] at h
    by_cases hclock : s.clock ≤ now
    swap
    · simp [hclock] at h
    by_cases hnone : s.authority.revocation = none
    swap
    · simp [hclock, DecisionAuthority.validate_response, hnone, update_same s now s.authority rfl] at h
      subst h
      exact .read now hclock
    by_cases hdeadline : s.authority.deadline_tick ≤ now
    · simp [hclock, DecisionAuthority.validate_response, hnone, hdeadline,
        update_revoked s now .timeout hnone] at h
      subst h
      exact .revoke now hclock .timeout hnone
    · simp [hclock, DecisionAuthority.validate_response, hnone, hdeadline, update_same s now s.authority rfl] at h
      subst h
      exact .read now hclock
  · simp only [authority_system] at h
    split at h
    · rename_i hnew
      obtain rfl := Option.some.inj h
      exact .arrive i call hnew
    · cases h
  all_goals
    simp only [authority_system, AuthorityEvent.thread, bind_eq_bind, bind_some,
      bind_eq_some_iff] at h
    obtain ⟨t, ht, hs⟩ := h
    exact hthread _ t ht rfl hs

end Steps

/-! ## Invariants -/

section Invariants

variable [LinearOrder T]

/-- What the log says about the fields of the authority, and in what order. -/
structure LogInv (a : DecisionAuthority T) (log : List (AuthorityRecord ι T)) : Prop where
  reason : log.filterMap AuthorityRecord.reason = a.revocation.toList
  starts : log.filterMap AuthorityRecord.tick = a.action_starts
  deadline : ∀ tick ∈ a.action_starts, tick < a.deadline_tick
  behind : log.Pairwise AuthorityRecord.Behind
  started : CalledStarted log

/-- What holds of one call. -/
structure CallInv (s : AuthorityState ι T) (i : ι) (t : AuthorityThread) : Prop where
  serial : t.stage.serial = true → s.action_serial = some i
  called : .called i ∈ s.log ↔ t.stage.called = true
  started : t.stage = .started → ∃ tick, .started i tick ∈ s.log
  refused : t.stage = .refused → s.authority.revocation ≠ none
  reported : ∀ prepared proposal result, t.call = .execute prepared proposal →
    t.stage = .returned false result → ∃ reason, s.authority.revocation = some reason ∧
      result = some (refused_result prepared proposal (some reason))

structure AuthorityInv (s : AuthorityState ι T) : Prop where
  log : LogInv s.authority s.log
  calls : ∀ i t, s.thread i = some t → CallInv s i t
  strangers : ∀ i, s.thread i = none → .called i ∉ s.log

/-- What a step leaves to call `i` when it is not a step of it. -/
structure Outside (s s' : AuthorityState ι T) (i : ι) : Prop where
  serial : s.action_serial = some i → s'.action_serial = some i
  called : .called i ∈ s'.log ↔ .called i ∈ s.log
  started : ∀ tick, .started i tick ∈ s.log → .started i tick ∈ s'.log
  revocation : ∀ r, s.authority.revocation = some r → s'.authority.revocation = some r

variable {s s' : AuthorityState ι T} {i : ι} {t : AuthorityThread} {a : DecisionAuthority T}
  {log : List (AuthorityRecord ι T)}

omit [LinearOrder T] in
theorem CallInv.outside (h : CallInv s i t) (hout : Outside s s' i) : CallInv s' i t where
  serial hs := hout.serial (h.serial hs)
  called := hout.called.trans h.called
  started hs := by
    obtain ⟨tick, htick⟩ := h.started hs
    exact ⟨tick, hout.started tick htick⟩
  refused hs := by
    obtain ⟨r, hr⟩ := ne_none_iff_exists'.mp (h.refused hs)
    rw [hout.revocation r hr]
    exact some_ne_none r
  reported prepared proposal result hcall hs := by
    obtain ⟨reason, hreason, hresult⟩ := h.reported prepared proposal result hcall hs
    exact ⟨reason, hout.revocation reason hreason, hresult⟩

/-! ### The log -/

/-- Nothing is revoked in the log of an authority that is not. -/
theorem LogInv.unrevoked (h : LogInv a log) (hnone : a.revocation = none) (r : RevocationReason) :
    .revoked r ∉ log := by
  intro hmem
  have hr : r ∈ log.filterMap AuthorityRecord.reason :=
    mem_filterMap.mpr ⟨.revoked r, hmem, rfl⟩
  rw [h.reason, hnone] at hr
  simp at hr

theorem LogInv.revoke (h : LogInv a log) (hnone : a.revocation = none) (r : RevocationReason) :
    LogInv { a with revocation := some r } (log ++ [.revoked r]) where
  reason := by
    rw [filterMap_append, h.reason, hnone]
    rfl
  starts := by
    rw [filterMap_append, h.starts]
    exact append_nil _
  deadline := h.deadline
  behind := by
    refine List.pairwise_append_singleton h.behind fun y hy => ?_
    rcases y with r' | _ | _
    · exact absurd hy (h.unrevoked hnone r')
    · trivial
    · trivial
  started := h.started.append fun ⟨i, hi⟩ => by cases hi

theorem LogInv.start (h : LogInv a log) (hnone : a.revocation = none) {now : T}
    (hnow : now < a.deadline_tick) (i : ι) :
    LogInv { a with action_starts := a.action_starts ++ [now] } (log ++ [.started i now]) where
  reason := by
    rw [filterMap_append, h.reason]
    exact append_nil _
  starts := by
    rw [filterMap_append, h.starts]
    rfl
  deadline tick htick := by
    rcases mem_append.mp htick with hold | hnew
    · exact h.deadline tick hold
    · rw [mem_singleton.mp hnew]
      exact hnow
  behind := by
    refine List.pairwise_append_singleton h.behind fun y hy => ?_
    rcases y with r' | _ | _
    · exact absurd hy (h.unrevoked hnone r')
    · trivial
    · trivial
  started := h.started.append fun ⟨j, hj⟩ => by cases hj

theorem LogInv.call (h : LogInv a log) (hnew : .called i ∉ log) {tick : T}
    (hstarted : .started i tick ∈ log) : LogInv a (log ++ [.called i]) where
  reason := by
    rw [filterMap_append, h.reason]
    exact append_nil _
  starts := by
    rw [filterMap_append, h.starts]
    exact append_nil _
  deadline := h.deadline
  behind := by
    refine List.pairwise_append_singleton h.behind fun y hy => ?_
    rcases y with _ | _ | j
    · trivial
    · trivial
    · rintro rfl
      exact hnew hy
  started := by
    refine h.started.append fun _ => ⟨.started i tick, hstarted, ?_⟩
    intro j hj
    obtain rfl := AuthorityRecord.called.inj hj
    exact ⟨tick, rfl⟩

/-! ### Steps -/

omit [LinearOrder T] in
/-- A step that changes neither the log nor the authority nor a lock somebody else
holds. -/
theorem outside_of_same (hlog : s'.log = s.log) (hauthority : s'.authority = s.authority)
    (hserial : s.action_serial = some i → s'.action_serial = some i) : Outside s s' i where
  serial := hserial
  called := by rw [hlog]
  started tick hmem := by rwa [hlog]
  revocation r hr := by rwa [hauthority]

variable [DecidableEq ι]

omit [LinearOrder T] in
@[simp] theorem goto_self (s : AuthorityState ι T) (i : ι) (t : AuthorityThread)
    (stage : AuthorityStage) : (s.goto i t stage).thread i = some { t with stage := stage } :=
  Function.update_self i _ s.thread

variable {j : ι} {base : AuthorityState ι T} {stage : AuthorityStage}

omit [LinearOrder T] in
theorem goto_other (s : AuthorityState ι T) (hj : j ≠ i) (t : AuthorityThread)
    (stage : AuthorityStage) : (s.goto i t stage).thread j = s.thread j :=
  Function.update_of_ne hj _ s.thread

/-- The rule for a step of call `i`: what it owes is the log, its own stage, and
what it leaves to the others. -/
theorem AuthorityInv.goto (h : AuthorityInv s) (hthread : base.thread = s.thread)
    (hlog : LogInv base.authority base.log)
    (hself : CallInv (base.goto i t stage) i { t with stage := stage })
    (hout : ∀ j, j ≠ i → Outside s base j) : AuthorityInv (base.goto i t stage) where
  log := hlog
  calls j u hu := by
    by_cases hj : j = i
    · subst hj
      rw [goto_self] at hu
      obtain rfl := Option.some.inj hu
      exact hself
    · rw [goto_other base hj, hthread] at hu
      have hb : Outside s (base.goto i t stage) j :=
        ⟨(hout j hj).serial, (hout j hj).called, (hout j hj).started, (hout j hj).revocation⟩
      exact (h.calls j u hu).outside hb
  strangers j hnone := by
    by_cases hj : j = i
    · subst hj
      rw [goto_self] at hnone
      cases hnone
    · rw [goto_other base hj, hthread] at hnone
      exact fun hmem => h.strangers j hnone ((hout j hj).called.mp hmem)

omit [DecidableEq ι] in
/-- A section that is nobody's. -/
theorem AuthorityInv.section_alone (h : AuthorityInv s) (hthread : s'.thread = s.thread)
    (hlog : LogInv s'.authority s'.log) (hout : ∀ j, Outside s s' j) : AuthorityInv s' where
  log := hlog
  calls j t ht := (h.calls j t (hthread ▸ ht)).outside (hout j)
  strangers j hnone := fun hmem => h.strangers j (hthread ▸ hnone) ((hout j).called.mp hmem)

omit [LinearOrder T] in
/-- Who moves its call alone. -/
theorem CallInv.restage (h : CallInv s i t) (hlog : base.log = s.log)
    (hserial : stage.serial = true → base.action_serial = some i)
    (hcalled : stage.called = t.stage.called) (hstarted : stage ≠ .started)
    (hrefused : stage = .refused → base.authority.revocation ≠ none)
    (hreported : ∀ prepared proposal result, t.call = .execute prepared proposal →
      stage = .returned false result → ∃ reason, base.authority.revocation = some reason ∧
        result = some (refused_result prepared proposal (some reason))) :
    CallInv (base.goto i t stage) i { t with stage := stage } where
  serial := hserial
  called := by
    show .called i ∈ base.log ↔ stage.called = true
    rw [hlog, hcalled]
    exact h.called
  started hs := absurd hs hstarted
  refused := hrefused
  reported := hreported

omit [LinearOrder T] [DecidableEq ι] in
/-- A revocation is no call and no start. -/
theorem outside_revoked (hnone : s.authority.revocation = none) (now : T) (r : RevocationReason)
    (i : ι) : Outside s (s.revoked now r) i where
  serial := id
  called := by simp [AuthorityState.revoked]
  started tick hmem := mem_append_left _ hmem
  revocation r' hr := by rw [hnone] at hr; cases hr

omit [LinearOrder T] in
/-- Nobody but the holder loses `_action_serial`. -/
theorem unlock_serial (hj : j ≠ i) (h : s.action_serial = some j) :
    (s.unlock i).action_serial = some j := by
  show (if s.action_serial = some i then none else s.action_serial) = some j
  rw [if_neg, h]
  rw [h]
  exact fun heq => hj (Option.some.inj heq)

theorem authority_inv_step (h : AuthorityInv s) (hs : AuthorityStep s s') : AuthorityInv s' := by
  rcases hs with ⟨now, -⟩ | ⟨now, -, r, hnone⟩ | ⟨i, call, hnew⟩ | ⟨i, t, ht, hstage, lock⟩ |
    ⟨i, t, ht, hstage, hfree⟩ | ⟨i, t, ht, hstage, now, -, hnone, hdeadline⟩ |
    ⟨i, t, ht, hstage, now, -, hsome⟩ | ⟨i, t, ht, hstage, now, -, hnone, hdeadline⟩ |
    ⟨i, t, ht, hstage⟩ | ⟨i, t, ht, hstage, result⟩ | ⟨i, t, ht, hstage⟩ |
    ⟨i, prepared, proposal, ht⟩ | ⟨i, ht⟩
  · exact h.section_alone rfl h.log fun j => outside_of_same rfl rfl id
  · exact h.section_alone rfl (h.log.revoke hnone r) (outside_revoked hnone now r)
  · refine h.goto rfl h.log ?_ fun j _ => outside_of_same rfl rfl id
    refine ⟨by simp [AuthorityStage.serial], ?_, by simp, by simp, by simp⟩
    exact iff_of_false (h.strangers i hnew) (by simp [AuthorityStage.called])
  · refine h.goto rfl h.log ?_ fun j _ => outside_of_same rfl rfl id
    exact (h.calls i t ht).restage rfl (by simp [AuthorityStage.serial])
      (by simp [hstage, AuthorityStage.called]) (by simp) (by simp) (by simp)
  · refine h.goto rfl h.log ?_ fun j hj => outside_of_same rfl rfl ?_
    · exact (h.calls i t ht).restage rfl (fun _ => rfl) (by simp [hstage, AuthorityStage.called])
        (by simp) (by simp) (by simp)
    · intro hother
      rw [hfree] at hother
      cases hother
  · -- the start is the first record of call `i`
    refine h.goto rfl (h.log.start hnone hdeadline i) ?_ fun j hj => ⟨id, ?_, ?_, fun r hr => hr⟩
    · have hcall := h.calls i t ht
      refine ⟨fun _ => hcall.serial (by rw [hstage]; rfl), ?_, ?_, by simp, by simp⟩
      · have hold := hcall.called
        rw [hstage] at hold
        simpa [AuthorityState.goto, AuthorityStage.called] using hold
      · exact fun _ => ⟨now, mem_append_right _ (mem_singleton.mpr rfl)⟩
    · simp
    · exact fun tick hmem => mem_append_left _ hmem
  · refine h.goto rfl h.log ?_ fun j hj => outside_of_same rfl rfl ?_
    · exact (h.calls i t ht).restage rfl (by simp [AuthorityStage.serial])
        (by simp [hstage, AuthorityStage.called]) (by simp) (fun _ => hsome) (by simp)
    · intro hother
      have hmine := (h.calls i t ht).serial (by rw [hstage]; rfl)
      exact absurd (Option.some.inj (hother.symm.trans hmine)) hj
  · refine h.goto rfl (h.log.revoke hnone .timeout) ?_ fun j hj => ?_
    · have hcall := (h.calls i t ht).outside (outside_revoked hnone now .timeout i)
      exact hcall.restage rfl (by simp [AuthorityStage.serial])
        (by simp [hstage, AuthorityStage.called]) (by simp)
        (fun _ => by simp [AuthorityState.revoked]) (by simp)
    · have hout := outside_revoked hnone now .timeout j
      refine ⟨?_, hout.called, hout.started, hout.revocation⟩
      intro hother
      have hmine := (h.calls i t ht).serial (by rw [hstage]; rfl)
      exact absurd (Option.some.inj (hother.symm.trans hmine)) hj
  · have hcall := h.calls i t ht
    obtain ⟨tick, htick⟩ := hcall.started hstage
    have hnew : .called i ∉ s.log := by
      rw [hcall.called, hstage]
      exact Bool.false_ne_true
    refine h.goto rfl (h.log.call hnew htick) ?_ fun j hj => ⟨id, ?_, ?_, fun r hr => hr⟩
    · exact ⟨fun _ => hcall.serial (by rw [hstage]; rfl),
        by simp [AuthorityState.goto, AuthorityStage.called], by simp, by simp, by simp⟩
    · simp [hj]
    · exact fun tick hmem => mem_append_left _ hmem
  · refine h.goto rfl h.log ?_ fun j hj => outside_of_same rfl rfl (unlock_serial hj)
    exact (h.calls i t ht).restage rfl (by simp [AuthorityStage.serial])
      (by simp [hstage, AuthorityStage.called]) (by simp) (by simp) (by simp)
  · refine h.goto rfl h.log ?_ fun j hj => outside_of_same rfl rfl (unlock_serial hj)
    exact (h.calls i t ht).restage rfl (by simp [AuthorityStage.serial])
      (by simp [hstage, AuthorityStage.called]) (by simp) (by simp) (by simp)
  · -- the reason is there since the refusal, and stays
    obtain ⟨reason, hreason⟩ := ne_none_iff_exists'.mp ((h.calls i _ ht).refused rfl)
    refine h.goto rfl h.log ?_ fun j hj => outside_of_same rfl rfl (unlock_serial hj)
    refine (h.calls i _ ht).restage rfl (by simp [AuthorityStage.serial])
      (by simp [AuthorityStage.called]) (by simp) (by simp) ?_
    intro prepared' proposal' result hcall hresult
    obtain ⟨rfl, rfl⟩ := AuthorityCall.execute.inj hcall
    obtain ⟨-, rfl⟩ := AuthorityStage.returned.inj hresult
    exact ⟨reason, hreason, by rw [hreason]⟩
  · refine h.goto rfl h.log ?_ fun j hj => outside_of_same rfl rfl (unlock_serial hj)
    exact (h.calls i _ ht).restage rfl (by simp [AuthorityStage.serial])
      (by simp [AuthorityStage.called]) (by simp) (by simp) (by simp)

theorem authority_inv (h : authority_system.Reachable s) : AuthorityInv s := by
  refine h.invariant ?_ fun s e s' _ hinv hs => authority_inv_step hinv (authority_step hs)
  rintro s ⟨deadline_tick, clock, rfl⟩
  refine ⟨⟨rfl, rfl, ?_, List.Pairwise.nil, List.preceded_nil _ _⟩, ?_, ?_⟩
  · intro tick htick
    cases htick
  · intro i t ht
    cases ht
  · intro i _ hmem
    cases hmem

end Invariants

/-! ## What the authority guarantees -/

section Contract

variable [DecidableEq ι] [LinearOrder T]

variable {s s' : AuthorityState ι T} {r : RevocationReason}

/-- Once revoked, an authority keeps its reason and records no start. -/
theorem authority_step_revoked (hs : AuthorityStep s s') (hr : s.authority.revocation = some r) :
    s'.authority = s.authority := by
  have hno : s.authority.revocation ≠ none := by
    rw [hr]
    exact some_ne_none r
  rcases hs with ⟨now, -⟩ | ⟨now, -, r', hnone⟩ | _ | _ | _ | ⟨i, t, ht, hstage, now, -, hnone, -⟩ |
    _ | ⟨i, t, ht, hstage, now, -, hnone, -⟩ | _ | _ | _ | _ | _
  case revoke | start | expire => exact absurd hnone hno
  all_goals rfl

theorem authority_run_revoked (hr : s.authority.revocation = some r)
    {es : List (AuthorityEvent ι T)} (hrun : authority_system.run s es = some s') :
    s'.authority = s.authority := by
  induction es generalizing s with
  | nil =>
    obtain rfl := Option.some.inj hrun
    rfl
  | cons e es ih =>
    obtain ⟨t, ht, hrun⟩ := bind_eq_some_iff.mp hrun
    have hstep := authority_step_revoked (authority_step ht) hr
    rw [← hstep]
    refine ih ?_ hrun
    rw [hstep]
    exact hr

/-- Authority is linear: the order of the sections under `_lock` is one in which
nothing starts behind the first revocation. -/
structure AuthorityContract (s : AuthorityState ι T) : Prop where
  no_start_after_revocation : ∀ before r after, s.log = before ++ .revoked r :: after →
    ∀ i tick, .started i tick ∉ after
  starts_recorded : s.log.filterMap AuthorityRecord.tick = s.authority.action_starts
  starts_before_deadline : ∀ tick ∈ s.authority.action_starts, tick < s.authority.deadline_tick
  /-- The action of a call is executed once at most, and its start stands before it. -/
  executed_started : ∀ before i after, s.log = before ++ .called i :: after →
    (∃ tick, .started i tick ∈ before) ∧ .called i ∉ after
  executed_iff : ∀ i t, s.thread i = some t → (.called i ∈ s.log ↔ t.stage.called = true)
  first_reason : ∀ before r after, s.log = before ++ .revoked r :: after →
    (∀ r', .revoked r' ∉ before) → s.authority.revocation = some r
  /-- A recorded reason is never changed, and no start is recorded after it. -/
  revocation_final : ∀ r, s.authority.revocation = some r → ∀ es s',
    authority_system.run s es = some s' → s'.authority = s.authority
  one_action : ∀ i j t u, s.thread i = some t → s.thread j = some u →
    t.stage = .running → u.stage = .running → i = j
  /-- A refused proposal is reported as failed and never reaches the engine. -/
  refused_reported : ∀ i prepared proposal result,
    s.thread i = some ⟨.execute prepared proposal, .returned false result⟩ →
      ∃ reason, s.authority.revocation = some reason ∧
        result = some (refused_result prepared proposal (some reason)) ∧
        (refused_result prepared proposal (some reason)).status = .failed ∧ .called i ∉ s.log
  refused_reports : ∀ i prepared proposal, s.thread i = some ⟨.execute prepared proposal, .refused⟩ →
    .called i ∉ s.log ∧ ∃ s' result, authority_system.step s (.report i) = some s' ∧
      s'.thread i = some ⟨.execute prepared proposal, .returned false result⟩

theorem authority_contract {s : AuthorityState ι T} (h : authority_system.Reachable s) :
    AuthorityContract s := by
  have hinv := authority_inv h
  have hsplit : ∀ before x after, s.log = before ++ x :: after →
      (∀ y ∈ after, AuthorityRecord.Behind x y) := by
    intro before x after heq
    have hbehind := hinv.log.behind
    rw [heq] at hbehind
    exact (pairwise_cons.mp (pairwise_append.mp hbehind).2.1).1
  refine ⟨?_, hinv.log.starts, hinv.log.deadline, ?_, fun i t ht => (hinv.calls i t ht).called, ?_,
    fun r hr es s' hrun => authority_run_revoked hr hrun, ?_, ?_, ?_⟩
  · intro before r after heq i tick hmem
    exact hsplit before _ after heq _ hmem
  · intro before i after heq
    refine ⟨?_, fun hmem => hsplit before _ after heq _ hmem rfl⟩
    obtain ⟨y, hy, hstart⟩ := hinv.log.started before _ after heq ⟨i, rfl⟩
    obtain ⟨tick, rfl⟩ := hstart i rfl
    exact ⟨tick, hy⟩
  · intro before r after heq hfirst
    have hreason := hinv.log.reason
    -- the reasons before the first one are none
    have hbefore : before.filterMap AuthorityRecord.reason = [] := by
      refine filterMap_eq_nil_iff.mpr fun y hy => ?_
      rcases y with r' | _ | _
      · exact absurd hy (hfirst r')
      · rfl
      · rfl
    rw [heq, filterMap_append, hbefore, filterMap_cons] at hreason
    cases hrev : s.authority.revocation with
    | none => simp [hrev, AuthorityRecord.reason] at hreason
    | some r' =>
      rw [hrev] at hreason
      simp only [AuthorityRecord.reason, nil_append, toList_some,
        List.cons.injEq] at hreason
      rw [hreason.1]
  · intro i j t u ht hu hti huj
    have hi := (hinv.calls i t ht).serial (by rw [hti]; rfl)
    have hj := (hinv.calls j u hu).serial (by rw [huj]; rfl)
    exact Option.some.inj (hi.symm.trans hj)
  · intro i prepared proposal result ht
    have hcall := hinv.calls i _ ht
    obtain ⟨reason, hreason, hresult⟩ := hcall.reported prepared proposal result rfl rfl
    refine ⟨reason, hreason, hresult, rfl, ?_⟩
    rw [hcall.called]
    exact Bool.false_ne_true
  · intro i prepared proposal ht
    refine ⟨?_, (s.unlock i).goto i ⟨.execute prepared proposal, .refused⟩ (.returned false
      (some (refused_result prepared proposal s.authority.revocation))), _, ?_, goto_self _ i _ _⟩
    · rw [(hinv.calls i _ ht).called]
      exact Bool.false_ne_true
    · simp [authority_system, AuthorityEvent.thread, ht, thread_section]

/-! An action runs while the decision is cancelled; the next proposal is refused. -/

/-- The proposal to take one link down, prepared. -/
def link_down_prepared : PreparedAgentInvocation where
  context := { invocation_id := "invoke-1", run_id := "run", agent_id := "local", deployment := "net" }
  response :=
    { proposals := [{ id := "first", capability := "link.down", target := "s1-s2" }]
      response_has_an_outcome := Or.inr (Or.inl (cons_ne_nil _ _)) }

/-- Two executions around a cancellation, both before the deadline at tick 9. -/
def cancelled_between : List (AuthorityEvent ℕ ℕ) :=
  [.arrive 0 (.execute link_down_prepared
      { id := "first", capability := "link.down", target := "s1-s2" }),
    .lock_start 0, .lock_serial 0, .start 0 2, .call 0, .revoke "cancelled",
    .finish 0 (.success "run" "first"),
    .arrive 1 (.execute link_down_prepared
      { id := "second", capability := "link.down", target := "s1-s3" }),
    .lock_start 1, .lock_serial 1, .start 1 4, .report 1]

theorem authority_contract_cancelled : ∃ s : AuthorityState ℕ ℕ,
      authority_system.run { authority := { deadline_tick := 9 }, clock := 0 } cancelled_between
        = some s ∧
      s.authority.action_starts = [2] ∧ s.authority.revocation = some .cancelled ∧
      AuthorityContract s := by
  have hrun : ((authority_system.run
      { authority := { deadline_tick := 9 }, clock := 0 } cancelled_between).any
        fun s : AuthorityState ℕ ℕ => s.authority.action_starts = [2] ∧
          s.authority.revocation = some .cancelled) = true := by decide
  obtain ⟨s, hs, hstate⟩ := (any_eq_true _ _).mp hrun
  obtain ⟨hstarts, hrevoked⟩ := of_decide_eq_true hstate
  exact ⟨s, hs, hstarts, hrevoked, authority_contract (System.Reachable.run (.init ⟨9, 0, rfl⟩) hs)⟩

end Contract

end MininetAi
