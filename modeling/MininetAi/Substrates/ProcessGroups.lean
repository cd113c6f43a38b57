/-
What stopping a process does to its group (`_terminate` and its callers).

`_terminate` returns after it has seen that the group has no process left, or when the
leader could not be found any more. Its callers do not call it for a leader that a `poll`
has found to have exited. So a leader that exits before its descendants leaves them
behind, and that is the only way: where every leader that is found to have exited was
the last of its group, whatever has returned has left no process of the group alive.

The rules hold under any terms that lead to later states, whoever else is at work.
-/
import MininetAi.Substrates.ProcessHistory

set_option autoImplicit false

namespace MininetAi

open ProcessHost Routine

/-! ## Terms -/

/-- The operations on one process. -/
def ProcessOp.concerns (pid : ℕ) : ProcessOp → Bool
  | .poll other => other = pid
  | .collect other => other = pid
  | .wait other _ => other = pid
  | .returncode other => other = pid
  | .getpgid other => other = pid
  | .send other _ => other = pid
  | .killpg group _ => group = pid
  | .getpgrp => true
  | .deadline _ => true
  | _ => false

/-- Operations do what they do to the host when they meet `C`, and the others lead to
later states. -/
structure Ordinary (C : ProcessOp → ProcessHost → Prop)
    (T : Terms ProcessOp ProcessOp.Reply ProcessHost) : Prop where
  act : ∀ o s r t, T.act o s r t → C o s ∧ ∃ a, o.act a s = (r, t)
  rely : ∀ s t, T.rely s t → s.Later t
  guar : ∀ pid o s r t, o.concerns pid = true → T.act o s r t → T.guar s t

/-- What the operations on a process and the others keep. -/
structure Upheld (T : Terms ProcessOp ProcessOp.Reply ProcessHost) (pid : ℕ)
    (K : ProcessHost → Prop) : Prop where
  stable : T.Stable K
  act : ∀ o s r t, o.concerns pid = true → K s → T.act o s r t → K t

/-- A process that was started, and what is kept. -/
structure Known (K : ProcessHost → Prop) (pid : ℕ) (s : ProcessHost) : Prop where
  sound : s.OsSound
  child : pid ∈ s.children
  kept : K s

/-- What is over about a process. -/
def StaysOver (pid : ℕ) (F : ProcessHost → Prop) : Prop :=
  ∀ s t : ProcessHost, s.OsSound → pid ∈ s.children → s.Later t → F s → F t

theorem past_true (pid : ℕ) : StaysOver pid fun _ => True := fun _ _ _ _ _ => id

theorem past_stopped (pid : ℕ) : StaysOver pid fun s => s.runs pid = false :=
  fun _ _ hs hpid hlater => hlater.stopped hs pid (hs.children_lt pid hpid)

theorem past_dead (pid : ℕ) : StaysOver pid fun s => s.alive pid = false :=
  fun _ _ hs hpid hlater => hlater.dead hs pid hpid

theorem past_returned (pid : ℕ) : StaysOver pid fun s => s.returncode pid ≠ none := by
  intro s t _ _ hlater hcode
  obtain ⟨code, hcode⟩ := Option.ne_none_iff_exists'.mp hcode
  rw [hlater.returned pid code hcode]
  exact nofun

variable {pid : ℕ} {F : ProcessHost → Prop}

theorem StaysOver.and {G : ProcessHost → Prop} (hF : StaysOver pid F) (hG : StaysOver pid G) :
    StaysOver pid fun s => F s ∧ G s :=
  fun s t hs hpid hlater h => ⟨hF s t hs hpid hlater h.1, hG s t hs hpid hlater h.2⟩

theorem StaysOver.imp {c : Prop} (hF : c → StaysOver pid F) : StaysOver pid fun s => c → F s :=
  fun s t hs hpid hlater h hc => hF hc s t hs hpid hlater (h hc)

section Rules

variable {C : ProcessOp → ProcessHost → Prop} {T : Terms ProcessOp ProcessOp.Reply ProcessHost}
  {K : ProcessHost → Prop} {pid : ℕ} {F : ProcessHost → Prop}

theorem Upheld.known (hK : Upheld T pid K) (hT : Ordinary C T) (hF : StaysOver pid F) :
    T.Stable fun s => Known K pid s ∧ F s := by
  rintro s t ⟨⟨hsound, hchild, hkept⟩, hs⟩ hst
  have hlater := hT.rely s t hst
  exact ⟨⟨hlater.sound hsound, hlater.children pid hchild, hK.stable s t hkept hst⟩,
    hF s t hsound hchild hlater hs⟩

variable {R : ProcessRaised → ProcessHost → Prop} {s : ProcessHost}

variable {o : ProcessOp} {code : ℤ}

/-- One operation on the process. -/
theorem Upheld.ask (hK : Upheld T pid K) (hT : Ordinary C T) (ho : o.concerns pid = true)
    {G : o.Reply → ProcessHost → Prop} (hF : StaysOver pid F) (hG : ∀ r, StaysOver pid (G r))
    (h : ∀ s a, Known K pid s → F s → C o s → G (o.act a s).1 (o.act a s).2) :
    Meets T (fun s => Known K pid s ∧ F s) (ask_host o) (fun r s => Known K pid s ∧ G r s) R := by
  refine Meets.ask (hK.known hT hF) (fun s r t hs hact => ?_) fun r => hK.known hT (hG r)
  obtain ⟨hknown, hfact⟩ := hs
  obtain ⟨hc, a, heq⟩ := hT.act o s r t hact
  have hlater := later_act o a s
  have hend := h s a hknown hfact hc
  rw [heq] at hlater hend
  exact ⟨hT.guar pid o s r t ho hact, ⟨hlater.sound hknown.sound, hlater.children pid hknown.child,
    hK.act o s r t ho hknown.kept hact⟩, hend⟩

/-! ## Waiting for a group -/

/-- `_process_group_exists` says no about a group that is over. -/
theorem process_group_exists_meets (hK : Upheld T pid K) (hT : Ordinary C T) (hF : StaysOver pid F) :
    Meets T (fun s => Known K pid s ∧ F s) (process_group_exists pid)
      (fun r s => Known K pid s ∧ F s ∧ (r = false → s.alive pid = false)) fun _ _ => False := by
  have hend : StaysOver pid fun s => F s ∧ s.alive pid = false := hF.and (past_dead pid)
  have hanswer : ∀ r : Except OsFault Unit,
      StaysOver pid fun s => F s ∧ (r = .error .no_process → s.alive pid = false) :=
    fun r => hF.and (StaysOver.imp fun _ => past_dead pid)
  refine Meets.bind (hK.ask hT (o := .killpg pid .probe) (decide_eq_true rfl) hF hanswer ?_)
    (fun r => ?_) fun _ _ _ hfalse => hfalse.elim
  · intro s a _ hs _
    rw [ProcessOp.act, ProcessHost.killpg]
    split
    · rename_i hnone
      exact ⟨hs, fun _ => dead_of_members hnone⟩
    · split
      · exact ⟨hs, fun heq => by cases heq⟩
      · exact ⟨hs, fun heq => by cases heq⟩
  · have hstable := hK.known hT (hanswer r)
    cases r with
    | ok _ => exact Meets.pure hstable fun s hs => ⟨hs.1, hs.2.1, fun heq => by cases heq⟩
    | error e =>
      cases e with
      | no_process => exact Meets.pure hstable fun s hs => ⟨hs.1, hs.2.1, fun _ => hs.2.2 rfl⟩
      | not_permitted => exact Meets.pure hstable fun s hs => ⟨hs.1, hs.2.1, fun heq => by cases heq⟩

/-- A test for a group that exists. -/
theorem Meets.exists {α : Type} {x y : ProcessRoutine α} {Q : α → ProcessHost → Prop}
    (hK : Upheld T pid K) (hT : Ordinary C T) (hF : StaysOver pid F)
    (hx : Meets T (fun s => Known K pid s ∧ F s) x Q R)
    (hy : Meets T (fun s => Known K pid s ∧ F s ∧ s.alive pid = false) y Q R)
    (hR : ∀ e, T.Stable (R e)) :
    Meets T (fun s => Known K pid s ∧ F s) (do if ← process_group_exists pid then x else y) Q R := by
  refine Meets.bind (process_group_exists_meets hK hT hF).quiet (fun r => ?_) hR
  cases r with
  | true => exact hx.pre fun s hs => ⟨hs.1, hs.2.1⟩
  | false => exact hy.pre fun s hs => ⟨hs.1, hs.2.1, hs.2.2 rfl⟩

/-- A `poll` whose answer nothing reads changes nothing that is known. -/
theorem collect_meets (hK : Upheld T pid K) (hT : Ordinary C T) (hF : StaysOver pid F) :
    Meets T (fun s => Known K pid s ∧ F s) (ask_host (.collect pid) : ProcessRoutine Unit)
      (fun _ s => Known K pid s ∧ F s) fun _ _ => False :=
  hK.ask hT (o := .collect pid) (decide_eq_true rfl) hF (fun _ => hF) fun s _ hknown hs _ =>
    hF s _ hknown.sound hknown.child (Later.waited s pid) hs

/-- A process that was waited for has stopped. -/
theorem waited_stopped (h : s.OsSound) (hcode : (s.waited pid).1 = some code) :
    (s.waited pid).2.runs pid = false := by
  unfold ProcessHost.waited at hcode ⊢
  cases hreturn : s.returncode pid with
  | some before =>
    refine runs_eq_false_iff.mpr fun p hp => ?_
    dsimp only at hp
    rw [(h.gone pid before hreturn).1] at hp
    cases hp
  | none =>
    rw [hreturn] at hcode
    cases hstatus : (s.processes pid).bind HostProcess.status with
    | none =>
      dsimp only at hcode
      rw [hstatus] at hcode
      cases hcode
    | some after =>
      refine runs_eq_false_iff.mpr fun p hp => ?_
      dsimp only at hp
      rw [Function.update_self] at hp
      cases hp

/-- It had stopped before. -/
theorem waited_before (h : s.OsSound) (hcode : (s.waited pid).1 = some code) :
    s.runs pid = false := by
  refine runs_eq_false_iff.mpr fun p hp hnone => ?_
  unfold ProcessHost.waited at hcode
  cases hreturn : s.returncode pid with
  | some before =>
    rw [(h.gone pid before hreturn).1] at hp
    cases hp
  | none =>
    rw [hreturn, hp, Option.bind_some, hnone] at hcode
    cases hcode

/-- `process.wait` returns when the leader has stopped, and expires only when it was not
waited for before. -/
theorem wait_meets (hK : Upheld T pid K) (hT : Ordinary C T) (hF : StaysOver pid F) (timeout : ℚ)
    (expired : ProcessRaised) : Meets T (fun s => Known K pid s ∧ F s) (wait pid timeout expired)
      (fun _ s => Known K pid s ∧ F s ∧ s.runs pid = false)
      (fun e s => (Known K pid s ∧ F s) ∧ e = expired ∧ ∃ s', F s' ∧ s'.returncode pid = none) := by
  have hanswer : ∀ r : Option ℤ, StaysOver pid fun s => F s ∧ (r ≠ none → s.runs pid = false) ∧
      (r = none → ∃ s', F s' ∧ s'.returncode pid = none) :=
    fun r => hF.and ((StaysOver.imp fun _ => past_stopped pid).and fun _ _ _ _ _ => id)
  have hR : ∀ e, T.Stable fun s =>
      (Known K pid s ∧ F s) ∧ e = expired ∧ ∃ s', F s' ∧ s'.returncode pid = none :=
    fun e s t hs hst => ⟨hK.known hT hF s t hs.1 hst, hs.2⟩
  refine Meets.bind (hK.ask hT (o := .wait pid timeout) (decide_eq_true rfl) hF hanswer ?_) (fun r => ?_) hR
  · intro s a hknown hs _
    refine ⟨hF s _ hknown.sound hknown.child (Later.waited s pid) hs, fun hcode => ?_, fun hcode => ?_⟩
    · obtain ⟨code, hcode⟩ := Option.ne_none_iff_exists'.mp hcode
      exact waited_stopped hknown.sound hcode
    · refine ⟨s, hs, ?_⟩
      cases hreturn : s.returncode pid with
      | none => rfl
      | some code =>
        rw [ProcessOp.act, ProcessHost.waited, hreturn] at hcode
        cases hcode
  · have hstable := hK.known hT (hanswer r)
    cases r with
    | none => exact Meets.raise hstable fun s hs => ⟨⟨hs.1, hs.2.1⟩, rfl, hs.2.2.2 rfl⟩
    | some code =>
      exact Meets.pure hstable fun s hs => ⟨hs.1, hs.2.1, hs.2.2.1 fun hnone => by cases hnone⟩

/-- The loop after `SIGTERM` only waits. -/
theorem await_group_meets (hK : Upheld T pid K) (hT : Ordinary C T) (rounds : ℕ) :
    Meets T (fun s => Known K pid s ∧ True) (await_group pid pid rounds)
      (fun _ s => Known K pid s ∧ True) fun _ _ => False := by
  have hR : ProcessRaised → T.Stable fun _ => False := fun _ _ _ hs _ => hs
  have hstable := hK.known hT ((past_true pid).and (past_dead pid))
  have hdone : Meets T (fun s => Known K pid s ∧ True ∧ s.alive pid = false)
      (pure () : ProcessRoutine Unit) (fun _ s => Known K pid s ∧ True) fun _ _ => False :=
    Meets.pure hstable fun s hs => ⟨hs.1, trivial⟩
  induction rounds with
  | zero => exact Meets.exists hK hT (past_true pid) (collect_meets hK hT (past_true pid)) hdone hR
  | succ rounds ih =>
    refine Meets.exists hK hT (past_true pid) ?_ hdone hR
    exact Meets.bind (collect_meets hK hT (past_true pid)) (fun _ => ih) hR

/-! ## Stopping a group -/

/-- The error is not a `TimeoutExpired`. -/
def ProcessRaised.unexpired : ProcessRaised → Bool
  | .timeout _ => false
  | _ => true

/-- How the parts of `_terminate` fail. -/
def Failed (K : ProcessHost → Prop) (pid : ℕ) (e : ProcessRaised) (s : ProcessHost) : Prop :=
  (Known K pid s ∧ True) ∧ e.unexpired = true

section

variable (hK : Upheld T pid K)
include hK

section

variable (hT : Ordinary C T)
include hT

theorem failed_stable (e : ProcessRaised) : T.Stable (Failed K pid e) :=
  fun s t hs hst => ⟨hK.known hT (past_true pid) s t hs.1 hst, hs.2⟩

/-- A signal is sent, or it fails. -/
theorem settled_meets (r : Except OsFault Unit) :
    Meets T (fun s => Known K pid s ∧ True) (settled r) (fun _ s => Known K pid s ∧ True)
      (Failed K pid) := by
  have hstable := hK.known hT (past_true pid)
  match r with
  | .ok () => exact Meets.pure hstable fun s hs => hs
  | .error fault => exact Meets.raise hstable fun s hs => ⟨hs, rfl⟩

/-- An answer that tells nothing. -/
theorem Upheld.ask_any (ho : o.concerns pid = true) :
    Meets T (fun s => Known K pid s ∧ True) (ask_host o) (fun _ s => Known K pid s ∧ True) R :=
  hK.ask hT ho (past_true pid) (fun _ => past_true pid) fun _ _ _ _ _ => trivial

/-- The loop after `SIGKILL` returns when the group is over. -/
theorem await_killed_meets (rounds : ℕ) :
    Meets T (fun s => Known K pid s ∧ True) (await_killed pid rounds)
      (fun _ s => Known K pid s ∧ s.alive pid = false) (Failed K pid) := by
  have hdone : Meets T (fun s => Known K pid s ∧ True ∧ s.alive pid = false) (pure () : ProcessRoutine Unit)
      (fun _ s => Known K pid s ∧ s.alive pid = false) (Failed K pid) :=
    Meets.pure (hK.known hT ((past_true pid).and (past_dead pid))) fun s hs => ⟨hs.1, hs.2.2⟩
  induction rounds with
  | zero =>
    refine Meets.exists hK hT (past_true pid) ?_ hdone (failed_stable hK hT)
    exact Meets.raise (hK.known hT (past_true pid)) fun s hs => ⟨hs, rfl⟩
  | succ rounds ih => exact Meets.exists hK hT (past_true pid) ih hdone (failed_stable hK hT)

theorem kill_group_meets (timeout : ℚ) :
    Meets T (fun s => Known K pid s ∧ True) (kill_group pid pid timeout)
      (fun _ s => Known K pid s ∧ s.alive pid = false) (Failed K pid) := by
  have hR := failed_stable hK hT
  have hwait : Meets T (fun s => Known K pid s ∧ True)
      (wait pid timeout (did_not_stop "process group " pid)) (fun _ s => Known K pid s ∧ True)
      (Failed K pid) := by
    refine (wait_meets hK hT (past_true pid) timeout _).mono (fun _ => id) (fun _ s hs => ⟨hs.1, trivial⟩) ?_
    rintro e s ⟨hs, rfl, _⟩
    exact ⟨hs, rfl⟩
  refine Meets.bind (hK.ask_any hT (o := .killpg pid .kill) (decide_eq_true rfl)) (fun r => ?_) hR
  refine Meets.bind (settled_meets hK hT r) (fun _ => ?_) hR
  refine Meets.bind hwait (fun _ => ?_) hR
  exact Meets.bind (hK.ask_any hT (o := .deadline timeout) rfl) (await_killed_meets hK hT) hR

theorem stop_group_meets (timeout : ℚ) :
    Meets T (fun s => Known K pid s ∧ True) (stop_group pid pid timeout)
      (fun _ s => Known K pid s ∧ s.alive pid = false) (Failed K pid) := by
  have hR := failed_stable hK hT
  refine Meets.bind (hK.ask_any hT (o := .killpg pid .term) (decide_eq_true rfl)) (fun r => ?_) hR
  refine Meets.bind (settled_meets hK hT r) (fun _ => ?_) hR
  refine Meets.bind (hK.ask_any hT (o := .deadline timeout) rfl) (fun rounds => ?_) hR
  refine Meets.bind (await_group_meets hK hT rounds).quiet (fun _ => ?_) hR
  refine Meets.exists hK hT (past_true pid) (kill_group_meets hK hT timeout) ?_ hR
  exact (collect_meets hK hT ((past_true pid).and (past_dead pid))).quiet.mono (fun _ => id)
    (fun _ s hs => ⟨hs.1, hs.2.2⟩) fun _ _ => id

end

end

/-! ## `_terminate` -/

/-- A leader that is found to have exited was the last of its group. -/
def LeaderLast : ProcessOp → ProcessHost → Prop
  | .poll pid, s => s.runs pid = false → s.alive pid = false
  | .getpgid pid, s => s.processes pid = none → s.alive pid = false
  | _, _ => True

/-- The condition on the operations asks for that. -/
def Strict (C : ProcessOp → ProcessHost → Prop) : Prop := ∀ o s, C o s → LeaderLast o s

/-- A process has stopped, and its group as well if leaders are the last of theirs. -/
def Stopped (C : ProcessOp → ProcessHost → Prop) (pid : ℕ) (s : ProcessHost) : Prop :=
  s.runs pid = false ∧ (Strict C → s.alive pid = false)

theorem past_over (C : ProcessOp → ProcessHost → Prop) (pid : ℕ) : StaysOver pid (Stopped C pid) :=
  (past_stopped pid).and (StaysOver.imp fun _ => past_dead pid)

theorem Known.stopped (h : Known K pid s) (hdead : s.alive pid = false) : Stopped C pid s :=
  ⟨h.sound.leader_stopped h.child hdead, fun _ => hdead⟩

section

variable (hK : Upheld T pid K)
include hK

section

variable (hT : Ordinary C T)
include hT

/-- What `getpgid` tells of a leader. -/
theorem getpgid_meets :
    Meets T (fun s => Known K pid s ∧ True) (ask_host (.getpgid pid)) (fun r s => Known K pid s ∧
      (∀ group, r = .ok group → group = pid) ∧ ∀ fault, r = .error fault → fault = .no_process ∧
        s.returncode pid ≠ none ∧ (Strict C → s.alive pid = false)) R := by
  refine hK.ask hT (o := .getpgid pid) (decide_eq_true rfl) (past_true pid) (fun r => ?_) ?_
  · intro s t hs hchild hlater h
    refine ⟨h.1, fun fault hfault => ?_⟩
    obtain ⟨heq, hreturn, hdead⟩ := h.2 fault hfault
    exact ⟨heq, past_returned pid s t hs hchild hlater hreturn,
      fun hstrict => past_dead pid s t hs hchild hlater (hdead hstrict)⟩
  · intro s a hknown _ hc
    rw [ProcessOp.act]
    cases hprocess : s.processes pid with
    | none =>
      refine ⟨fun group heq => (by cases heq), fun fault heq => ?_⟩
      cases heq
      exact ⟨rfl, fun hcode => hknown.sound.present pid hknown.child hcode hprocess,
        fun hstrict => hstrict _ s hc hprocess⟩
    | some p =>
      refine ⟨fun group heq => ?_, fun fault heq => (by cases heq)⟩
      cases heq
      exact hknown.sound.leads pid hknown.child p hprocess

theorem terminate_body_meets (timeout : ℚ) :
    Meets T (fun s => Known K pid s ∧ True) (terminate_body pid timeout)
      (fun _ s => Known K pid s ∧ Stopped C pid s) (Failed K pid) := by
  have hR := failed_stable hK hT
  refine Meets.bind (getpgid_meets hK hT) (fun r => ?_) hR
  match r with
  | .error fault =>
    have hwait : Meets T (fun s => Known K pid s ∧ s.returncode pid ≠ none ∧
        (Strict C → s.alive pid = false)) (wait pid timeout (.timeout none))
          (fun _ s => Known K pid s ∧ Stopped C pid s) (Failed K pid) := by
      refine (wait_meets hK hT ((past_returned pid).and (StaysOver.imp fun _ => past_dead pid)) timeout _).mono
        (fun _ => id) (fun _ s hs => ⟨hs.1, hs.2.2, hs.2.1.2⟩) ?_
      -- a leader that is gone was waited for, so nothing is left to wait for
      rintro e s ⟨_, _, s', ⟨hreturn, _⟩, hnone⟩
      exact absurd hnone hreturn
    cases fault with
    | no_process => exact hwait.pre fun s hs => ⟨hs.1, (hs.2.2 _ rfl).2⟩
    | not_permitted => exact Meets.never fun s hs => by cases (hs.2.2 _ rfl).1
  | .ok group =>
    refine Meets.mono (P := fun s => group = pid ∧ Known K pid s ∧ True) (Meets.given ?_)
      (fun s hs => ⟨hs.2.1 group rfl, hs.1, trivial⟩) (fun _ _ => id) (fun _ _ => id)
    rintro rfl
    have hgroup : Meets T (fun s => Known K group s ∧ True) (ask_host .getpgrp)
        (fun r s => Known K group s ∧ group ≠ r) (Failed K group) := by
      refine hK.ask hT (o := .getpgrp) rfl (past_true group) (fun _ _ _ _ _ _ => id) ?_
      -- the code is in none of the groups that it has started
      intro s a hknown _ _ heq
      have hown : group = s.own_group := heq
      exact hknown.sound.own (hown ▸ hknown.child)
    refine Meets.bind hgroup (fun own => Meets.ite (fun heq => ?_) fun _ => ?_) hR
    · exact Meets.never fun s hs => hs.2 heq
    · exact (stop_group_meets hK hT timeout).mono (fun s hs => ⟨hs.1, trivial⟩)
        (fun _ s hs => ⟨hs.1, hs.1.stopped hs.2⟩) fun _ _ => id

/-- `_terminate` returns when the process has stopped. -/
theorem terminate_meets (timeout : ℚ) :
    Meets T (fun s => Known K pid s ∧ True) (terminate pid timeout)
      (fun _ s => Known K pid s ∧ Stopped C pid s) (fun _ s => Known K pid s ∧ True) := by
  refine Meets.handle (terminate_body_meets hK hT timeout) (fun e => ?_)
    fun _ => hK.known hT (past_over C pid)
  have hraise : ∀ e', Meets T (Failed K pid e) (raise e' : ProcessRoutine Unit)
      (fun _ s => Known K pid s ∧ Stopped C pid s) (fun _ s => Known K pid s ∧ True) :=
    fun e' => Meets.raise (failed_stable hK hT e) fun s hs => hs.1
  cases e with
  | action error => exact hraise _
  | os fault => exact hraise _
  | missing id => exact hraise _
  | timeout group => exact Meets.never fun s hs => by cases hs.2

/-- What a `poll` tells of a leader. -/
theorem poll_meets :
    Meets T (fun s => Known K pid s ∧ True) (ask_host (.poll pid))
      (fun r s => Known K pid s ∧ (r ≠ none → Stopped C pid s)) R := by
  refine hK.ask hT (o := .poll pid) (decide_eq_true rfl) (past_true pid)
    (fun r => StaysOver.imp fun _ => past_over C pid) fun s a hknown _ hc hcode => ?_
  obtain ⟨code, hcode⟩ := Option.ne_none_iff_exists'.mp hcode
  have hlater := Later.waited s pid
  refine ⟨waited_stopped hknown.sound hcode, fun hstrict => ?_⟩
  have hbefore : s.runs pid = false := waited_before hknown.sound hcode
  exact past_dead pid s _ hknown.sound hknown.child hlater (hstrict _ s hc hbefore)

/-- A leader that runs is terminated; one that has exited is left as it is. -/
theorem stop_running_meets (timeout : ℚ) :
    Meets T (fun s => Known K pid s ∧ True) (stop_running pid timeout)
      (fun _ s => Known K pid s ∧ Stopped C pid s) (fun _ s => Known K pid s ∧ True) := by
  have hR : ∀ _ : ProcessRaised, T.Stable fun s => Known K pid s ∧ True :=
    fun _ => hK.known hT (past_true pid)
  refine Meets.bind (poll_meets hK hT) (fun r => ?_) hR
  cases r with
  | none =>
    refine Meets.bind ((terminate_meets hK hT timeout).pre fun s hs => ⟨hs.1, trivial⟩) (fun _ => ?_) hR
    exact Meets.pure (hK.known hT (past_over C pid)) fun s hs => hs
  | some code =>
    exact Meets.pure (hK.known hT (StaysOver.imp fun _ => past_over C pid))
      fun s hs => ⟨hs.1, hs.2 fun hnone => by cases hnone⟩

end

end

end Rules

end MininetAi
