/-
Crash safety of the record of the Mininet/OVS runtime (`deploy`, `teardown` and
`_recover_persisted` in `mininet_ai/substrates/mininet_ovs/runtime.py`).

A process may crash between any two steps, so what it has built has to be named by the
record before it is there and until it is gone. Two answers can break that. `read` asks
whether the file is there and takes a system call that failed for a no: the next run is
then claimed over the record of an orphaned one. The handler of `deploy` asks whether the
network is true, and a network without nodes is not: what it has left is then forgotten.
Under answers that are faithful in these two places the promise is kept along every run.
-/
import MininetAi.Substrates.DeployLock
import MininetAi.Substrates.RuntimeProcesses

set_option autoImplicit false

namespace MininetAi

open Option RunStateStore

open List

open Routine

section Safety

variable {κ : Type} [DecidableEq κ] {i : κ} {Φ Φ' : Side → Prop} {Ψ Ψ' : Memory → Prop}

/-! ## The runs of a process -/

/-- Every run stands under its id, and only `run` may be active. -/
structure Drives (runs : Dict String MininetRun) (run : String) : Prop where
  keyed : ∀ key r, runs.lookup key = some r → r.info.id = key
  active : ∀ key r, runs.lookup key = some r → r.info.state ≠ .stopped → key = run

/-- Every run stands under its id and is stopped. -/
structure AllStopped (runs : Dict String MininetRun) : Prop where
  keyed : ∀ key r, runs.lookup key = some r → r.info.id = key
  stopped : ∀ key r, runs.lookup key = some r → r.info.state = .stopped

/-- The record, if there is one, is the run's. -/
def RecordOf (record : Option PersistedRun) (run : String) : Prop := ∀ r, record = some r → r.run.id = run

variable {runs : Dict String MininetRun} {P : Machine κ → Prop} {α : Type} {run : String}
  {record : PersistedStoppedRun}

theorem AllStopped.drives (h : AllStopped runs) (run : String) : Drives runs run where
  keyed := h.keyed
  active key r hr hactive := absurd (h.stopped key r hr) hactive

theorem Drives.insert (h : Drives runs run) {r : MininetRun}
    (hid : r.info.id = run) : Drives (runs.insert run r) run where
  keyed key r' hr' := by
    by_cases hkey : key = run
    · subst hkey
      rw [AList.lookup_insert] at hr'
      rw [← Option.some.inj hr', hid]
    · rw [AList.lookup_insert_ne hkey] at hr'
      exact h.keyed key r' hr'
  active key r' hr' hactive := by
    by_contra hkey
    rw [AList.lookup_insert_ne hkey] at hr'
    exact hkey (h.active key r' hr' hactive)

theorem drives_nothing (run : String) : Drives ∅ run where
  keyed key r hr := by cases hr
  active key r hr := by cases hr

theorem record_of_none (run : String) : RecordOf none run := fun r hr => by cases hr

theorem record_of_some_run (record : Option PersistedRun) : ∃ run, RecordOf record run := by
  cases record with
  | none => exact ⟨"", record_of_none ""⟩
  | some r => exact ⟨r.run.id, fun r' hr' => by rw [Option.some.inj hr']⟩

/-- The runs of the process meet `F`, and the record, if there is one, is the run's. -/
structure Tied (F : Dict String MininetRun → Prop) (run : String) (x : Side) : Prop where
  known : F x.memory.runs
  record : RecordOf x.record run

/-- Nothing is left of the run, either. -/
structure Emptied (F : Dict String MininetRun → Prop) (run : String) (x : Side) : Prop extends Tied F run x where
  nothing : x.left run = []

/-- The process drives the run, and the record is the run's. -/
abbrev Driven (run : String) : Side → Prop := Tied (fun runs => Drives runs run) run

/-- A process between two calls that drives `run`. -/
def Driving (i : κ) (run : String) : Machine κ → Prop := Within i (Driven run) fun m => Drives m.runs run

/-- A process between two calls. -/
def AtRest (i : κ) : Machine κ → Prop := Within i (fun x => ∃ run, Driven run x) fun m => ∃ run, Drives m.runs run

omit [DecidableEq κ] in
theorem Driving.at_rest {run : String} {s : Machine κ} (h : Driving i run s) : AtRest i s :=
  h.mono (fun _ hx => ⟨run, hx⟩) fun _ hm => ⟨run, hm⟩

/-- A process that drives no run. -/
def Unoccupied (i : κ) : Machine κ → Prop := Within i (fun x => AllStopped x.memory.runs) fun m => AllStopped m.runs

omit [DecidableEq κ] in
theorem Unoccupied.at_rest {s : Machine κ} (h : Unoccupied i s) : AtRest i s := by
  refine h.mono (fun x hx => ?_) fun m hm => ⟨"", hm.drives ""⟩
  obtain ⟨run, hrun⟩ := record_of_some_run x.record
  exact ⟨run, hx.drives run, hrun⟩

/-! ## Writing -/

theorem Writable.of_stopped
    (htemporary : ∀ x c, Φ x → Φ { x with memory := { x.memory with temporary := c } }) :
    Writable (.stopped record) Φ where
  kept _ _ r hr := ⟨r, hr, rfl⟩
  temporary := htemporary
  after _ hx := hx

theorem Writable.of_active {record : PersistedRun} (hrecord : ∀ x, Φ x → RecordOf x.record record.run.id)
    (htemporary : ∀ x c, Φ x → Φ { x with memory := { x.memory with temporary := c } })
    (hafter : ∀ x, Φ x → Φ { x with record := some record }) : Writable (.active record) Φ where
  kept x hx r hr := ⟨record, rfl, (hrecord x hx r hr).symm⟩
  temporary := htemporary
  after := hafter

variable {F : Dict String MininetRun → Prop} {info : RunInfo} {plan : DeploymentPlan}
  {e : RaisedError} {residue : Residue} {e : RaisedError} {x : HostRoutine Unit}

/-- A record of the run is written. -/
theorem write_tied {w : Writing} {groups : List ℕ} (hid : info.id = run) :
    Among i (Within i (Tied F run) Ψ) (MininetOVSRuntime.write_state w info plan groups)
      (fun _ => Held i (Tied F run)) fun _ => Within i (Tied F run) Ψ := by
  have hwritable : Writable (.active { run := info, plan := plan, process_groups := groups }) (Tied F run) := by
    refine .of_active (fun x hx => ?_) (fun x c hx => ⟨hx.known, hx.record⟩) fun x hx => ⟨hx.known, fun r hr => ?_⟩
    · rw [show RunInfo.id _ = run from hid]
      exact hx.record
    · rw [← Option.some.inj hr]
      exact hid
  refine (write_json_tells hwritable).on_return fun _ s h => ?_
  exact h.mono fun x hx => hx.1

/-! ## Parts of the calls -/

theorem require_tells {b : Bool} : Among i (Within i Φ Ψ) (require b e)
    (fun _ => Within i (fun x => b = true ∧ Φ x) fun m => b = true ∧ Ψ m) fun _ => Within i Φ Ψ := by
  refine Meets.ite (fun h => within_pure fun s hs => ?_) fun _ => within_raise fun _ hs => hs
  exact hs.mono (fun _ hx => ⟨h, hx⟩) fun _ hm => ⟨h, hm⟩

theorem issue_from_still {code : String} : Among i (Within i Φ Ψ)
    (issue_from code e) (fun _ => Within i Φ Ψ) fun _ => Within i Φ Ψ :=
  Meets.ite (fun _ => within_raise fun _ hs => hs) fun _ => within_pure fun _ hs => hs

theorem write_stopped_still
    (htemporary : ∀ x c, Φ x → Φ { x with memory := { x.memory with temporary := c } }) :
    Among i (Within i Φ Ψ) (write_stopped record) (fun _ => Held i Φ)
      fun _ => Within i Φ Ψ :=
  (write_json_tells (.of_stopped htemporary)).on_return fun _ _ h => h.mono fun _ hx => hx.1

theorem read_state_for_error_still : Among i (Within i Φ Ψ) MininetOVSRuntime.read_state_for_error
    (fun _ => Within i Φ Ψ) fun _ => Within i Φ Ψ := by
  have hread : Among i (Within i Φ Ψ) read (fun _ => Within i Φ Ψ)
      fun _ => Within i Φ Ψ :=
    read_tells.on_return fun _ _ h => h.mono (fun _ hx => hx.1) fun _ hm => hm
  refine hread.handle (fun e => ?_) fun _ => within_stable
  exact Meets.ite (fun _ => within_pure fun _ hs => hs) fun _ => within_raise fun _ hs => hs

/-- The lock goes, what the process knows stays. -/
theorem release_knowing (hΦ : ∀ x, Φ x → F x.memory.runs) (hΨ : ∀ m, Ψ m → F m.runs) :
    Among i (Within i Φ Ψ) release
      (fun _ => Free i fun m => F m.runs) fun _ => Free i fun m => F m.runs :=
  unlock_meets (fun x hx => hΦ x hx) hΨ

/-- An operation whose exception is kept: without one it has returned. -/
theorem suppressed_tells (hforget : ∀ y, Φ' y → Φ y)
    (hx : Among i P x (fun _ => Held i Φ') fun _ => Held i Φ) :
    Among i P (suppressed x) (fun failure => Held i fun y => Φ y ∧ (failure = none → Φ' y))
      fun _ => Held i Φ := by
  refine Meets.attempt hx (fun _ => Meets.pure held_stable fun s hs => ?_) fun e => ?_
  · exact hs.mono fun y hy => ⟨hforget y hy, fun _ => hy⟩
  · refine Meets.ite (fun _ => Meets.pure held_stable fun s hs => ?_) fun _ => within_raise fun _ hs => hs
    exact hs.mono fun y hy => ⟨hy, fun h => by cases h⟩

/-! ## Cleaning up -/

/-- An assertion that stands when less is left. -/
def Shrinks (Φ : Side → Prop) : Prop :=
  ∀ x left, (∀ run, left run ⊆ x.left run) → Φ x → Φ { x with left := left }

omit [DecidableEq κ] in
theorem Host.Named.shrink {h : Host κ} (hnamed : h.Named) {left : String → List Residue}
    (hleft : ∀ run, left run ⊆ h.left run) : Host.Named { h with left := left } := by
  intro run hrun
  refine hnamed run fun hempty => hrun (eq_nil_of_subset_nil ?_)
  rw [← hempty]
  exact hleft run

omit [DecidableEq κ] in
theorem Host.remove_left (h : Host κ) (run : String) (residue : Residue) :
    (h.remove run residue).left run = (h.left run).filter (· ≠ residue) :=
  Function.update_self run _ h.left

omit [DecidableEq κ] in
theorem Host.remove_subset (h : Host κ) (run : String) (residue : Residue) (q : String) :
    (h.remove run residue).left q ⊆ h.left q := by
  by_cases hq : q = run
  · subst hq
    rw [h.remove_left]
    exact filter_sublist.subset
  · have hother : (h.remove run residue).left q = h.left q := Function.update_of_ne hq _ h.left
    rw [hother]
    exact Subset.refl _

/-- What a cleanup operation removes. -/
def HostStep.removes : HostStep → Option Residue
  | close_actions => some .processes
  | stop_network => some .nodes
  | remove_owned_artifacts => some .artifacts
  | _ => none

theorem Answer.returned {a : Answer} {r : Except RaisedError α} {v : α} (h : a.reply r = .ok v) :
    a.raised = none := by
  unfold Answer.reply at h
  cases hraised : a.raised with
  | none => rfl
  | some e =>
    rw [hraised] at h
    cases h

theorem removal_of {s : HostStep} (hquiet : s ≠ .flock ∧ s ≠ .unlock)
    (heffect : ∀ (g : Host κ) m (a : Answer),
      s.effect i run g m a = (if a.raised.isNone = true then g.remove run residue else g, m))
    (houtcome : ∀ (g : Host κ) m a v, s.outcome i g m a = .ok v → a.raised = none)
    (hΦ : Shrinks Φ) :
    Among i (Held i Φ) (host s run) (fun _ => Held i fun x => Φ x ∧ residue ∉ x.left run)
      fun _ => Held i Φ := by
  refine held_meets (F := fun _ x => Φ x ∧ residue ∉ x.left run) hquiet fun g m a hnamed hx => ?_
  have hless := g.remove_subset run residue
  rw [heffect]
  by_cases hraised : a.raised.isNone = true
  · rw [if_pos hraised]
    have hafter : Φ ⟨g.record, (g.remove run residue).left, m⟩ := hΦ ⟨g.record, g.left, m⟩ _ hless hx
    refine ⟨.refl rfl, hnamed.shrink hless, ?_⟩
    cases s.outcome i g m a with
    | ok v =>
      refine ⟨hafter, fun hmem => ?_⟩
      have hfilter : residue ∈ (g.remove run residue).left run := hmem
      rw [g.remove_left] at hfilter
      exact of_decide_eq_true (mem_filter.mp hfilter).2 rfl
    | error e => exact hafter
  · rw [if_neg hraised]
    refine ⟨.refl rfl, hnamed, ?_⟩
    cases hends : s.outcome i g m a with
    | ok v =>
      rw [houtcome g m a v hends] at hraised
      exact absurd rfl hraised
    | error e => exact hx

/-- A cleanup operation that returns has removed what it removes. -/
theorem removal_tells {s : HostStep} (hs : s.removes = some residue)
    (hΦ : Shrinks Φ) : Among i (Held i Φ) (host s run)
      (fun _ => Held i fun x => Φ x ∧ residue ∉ x.left run) fun _ => Held i Φ := by
  cases s with
  | close_actions =>
    cases hs
    exact removal_of ⟨by decide, by decide⟩ (fun _ _ _ => rfl) (fun _ _ _ _ h => Answer.returned h) hΦ
  | stop_network =>
    cases hs
    exact removal_of ⟨by decide, by decide⟩ (fun _ _ _ => rfl) (fun _ _ _ _ h => Answer.returned h) hΦ
  | remove_owned_artifacts =>
    cases hs
    exact removal_of ⟨by decide, by decide⟩ (fun _ _ _ => rfl) (fun _ _ _ _ h => Answer.returned h) hΦ
  | _ => cases hs

theorem Shrinks.and_gone {p : Prop} (hΦ : Shrinks Φ) :
    Shrinks fun x => Φ x ∧ (p → residue ∉ x.left run) := by
  intro x left hleft hx
  exact ⟨hΦ x left hleft hx.1, fun hp hmem => hx.2 hp (hleft run hmem)⟩

/-- A removal whose exception is kept. -/
theorem removal_suppressed
    (hx : Among i (Held i Φ) x (fun _ => Held i fun y => Φ y ∧ residue ∉ y.left run)
      fun _ => Held i Φ) : Among i (Held i Φ) (suppressed x)
      (fun failure => Held i fun y => Φ y ∧ (failure = none → residue ∉ y.left run)) fun _ => Held i Φ := by
  refine (suppressed_tells (fun _ hy => hy.1) hx).on_return fun _ _ h => h.mono fun y hy => ?_
  exact ⟨hy.1, fun hnone => (hy.2 hnone).2⟩

/-- The loop over cleanup operations: without an error, what they remove is gone. -/
theorem clean_up_tells {steps : List HostStep} (hsteps : ∀ s ∈ steps, s.removes.isSome = true)
    (hΦ : Shrinks Φ) : Among i (Held i Φ) (MininetOVSRuntime.clean_up run steps)
      (fun errors => Held i fun x => Φ x ∧
        (errors = [] → ∀ s ∈ steps, ∀ residue, s.removes = some residue → residue ∉ x.left run))
      fun _ => Held i Φ := by
  induction steps generalizing Φ with
  | nil =>
    rw [MininetOVSRuntime.clean_up]
    refine Meets.pure held_stable fun s hs => hs.mono fun x hx => ⟨hx, fun _ t ht => ?_⟩
    cases ht
  | cons s rest ih =>
    obtain ⟨residue, hresidue⟩ := isSome_iff_exists.mp (hsteps s mem_cons_self)
    have hone : Among i (Held i Φ) (suppressed (perform_all run [s]))
        (fun failure => Held i fun x => Φ x ∧ (failure = none → residue ∉ x.left run)) fun _ => Held i Φ :=
      removal_suppressed (within_bind (removal_tells hresidue hΦ) fun _ => within_pure fun _ h => h)
    rw [MininetOVSRuntime.clean_up]
    refine within_bind hone fun failure => ?_
    have hshrinks : Shrinks fun x => Φ x ∧ (failure = none → residue ∉ x.left run) := hΦ.and_gone
    have hrest := ih (fun t ht => hsteps t (mem_cons_of_mem s ht)) hshrinks
    have hforget : ∀ s, Held i (fun x => Φ x ∧ (failure = none → residue ∉ x.left run)) s → Held i Φ s :=
      fun s hs => hs.mono fun x hx => hx.1
    refine within_bind (hrest.on_raise fun _ => hforget) fun errors => ?_
    refine Meets.pure held_stable fun u hu => hu.mono fun x hx => ⟨hx.1.1, fun hempty t ht q hq => ?_⟩
    obtain ⟨hnone, herrors⟩ := append_eq_nil_iff.mp hempty
    rcases mem_cons.mp ht with rfl | ht
    · rw [hresidue] at hq
      rw [← Option.some.inj hq]
      exact hx.1.2 (toList_eq_nil_iff.mp hnone)
    · exact hx.2 herrors t ht q hq

/-! ## Tearing down -/

theorem tied_shrinks (F : Dict String MininetRun → Prop) (run : String) : Shrinks (Tied F run) :=
  fun _ _ _ hx => ⟨hx.known, hx.record⟩

theorem nothing_left {x : Side} (h : ∀ s ∈ MininetOVSRuntime.cleanup_steps, ∀ residue,
    s.removes = some residue → residue ∉ x.left run) : x.left run = [] := by
  refine eq_nil_iff_forall_not_mem.mpr fun residue => ?_
  cases residue with
  | nodes => exact h .stop_network (by decide) .nodes rfl
  | artifacts => exact h .remove_owned_artifacts (by decide) .artifacts rfl
  | processes => exact h .close_actions (by decide) .processes rfl

/-- A sequence whose first part raises under the lock. -/
theorem held_then {β : Type} {x : HostRoutine α} {f : α → HostRoutine β}
    {Q : α → Machine κ → Prop} {Q' : β → Machine κ → Prop} (hΦ : ∀ y, Φ y → Φ' y)
    (hx : Among i P x Q fun _ => Held i Φ)
    (hf : ∀ a, Among i (Q a) (f a) Q' fun _ => Within i Φ' Ψ') :
    Among i P (x >>= f) Q' fun _ => Within i Φ' Ψ' :=
  within_bind (hx.on_raise fun _ _ h => (h.mono hΦ).within) hf

/-- The record goes when nothing is left of its run. -/
theorem clear_emptied :
    Among i (Held i (Emptied F run)) clear (fun _ => Held i (Tied F run))
      fun _ => Held i (Emptied F run) := by
  refine Meets.mono (P := Held i (Emptied F run)) (clear_record_meets (fun x hx r hr => ?_) fun x hx => ?_)
    (fun _ h => h) (fun _ _ h => h.mono fun x hx => hx.toTied) fun _ _ h => h
  · rw [hx.record r hr]
    exact hx.nothing
  · exact ⟨⟨hx.known, record_of_none run⟩, hx.nothing⟩

/-- The run is stopped: its stopped record is written and its active one goes. -/
theorem stopped_and_cleared :
    Among i (Held i (Emptied F run))
      (write_stopped record >>= fun _ => clear) (fun _ => Held i (Tied F run))
      fun _ => Held i (Emptied F run) :=
  within_bind (write_stopped_still fun _ _ hx => ⟨⟨hx.known, hx.record⟩, hx.nothing⟩) fun _ => clear_emptied

theorem set_info_driving (hid : info.id = run) :
    Among i (Driving i run) (MininetOVSRuntime.set_info info plan) (fun _ => Driving i run)
      fun _ _ => False := by
  subst hid
  exact modify_tells (f := fun m => { m with runs := m.runs.insert info.id { info := info, plan := plan } })
    (fun x hx => ⟨hx.known.insert rfl, hx.record⟩) fun m hm => hm.insert rfl

/-- The record is cleared only after every cleanup operation has returned. -/
theorem stopping_safe (hid : info.id = run) :
    Among i (Driving i run) (MininetOVSRuntime.stopping info plan) (fun _ => Held i (Driven run))
      fun _ => Driving i run := by
  subst hid
  refine within_bind (process_returns (set_info_driving rfl)) fun _ => ?_
  refine within_bind (still_meets rfl) fun groups => ?_
  refine within_bind (write_tied rfl) fun _ => ?_
  refine held_then (fun _ h => h) (clean_up_tells (by decide) (tied_shrinks _ info.id)) fun errors => ?_
  refine held_then (fun x hx => hx.1) require_tells fun _ => ?_
  refine Meets.pre (P := Held i (Emptied (fun runs => Drives runs info.id) info.id)) ?_ fun s hs => ?_
  · refine held_then (fun _ h => h.toTied) (still_meets rfl) fun _ => ?_
    exact stopped_and_cleared.on_raise fun _ _ h => (h.mono fun _ hx => hx.toTied).within
  · refine hs.mono (fun x hx => ⟨hx.2.1, nothing_left (hx.2.2 ?_)⟩) fun _ hm => hm.2
    exact List.isEmpty_iff.mp hx.1

/-- The record of a failure, whose error is passed over. -/
theorem failure_recorded {failed : RunInfo} (hid : failed.id = run) :
    Among i (Driving i run) (Routine.handle
        (lists (.owned .teardown_failed) >>= fun groups =>
          MininetOVSRuntime.write_state .teardown_failed failed plan groups)
        fun e => if e.is_store = true then pure () else .raise e)
      (fun _ => Driving i run) fun _ => Driving i run := by
  have hwritten : Among i (Driving i run)
      (lists (.owned .teardown_failed) >>= fun groups =>
        MininetOVSRuntime.write_state .teardown_failed failed plan groups)
      (fun _ => Driving i run) fun _ => Driving i run :=
    within_bind (still_meets rfl) fun groups =>
      (write_tied hid).on_return fun _ _ h => h.within
  refine hwritten.handle (fun e => ?_) fun _ => within_stable
  exact Meets.ite (fun _ => within_pure fun _ h => h) fun _ => within_raise fun _ h => h

theorem stopping_failed_safe (hid : info.id = run) :
    Among i (Driving i run) (MininetOVSRuntime.stopping_failed info plan e)
      (fun _ => Held i (Driven run)) fun _ => Driving i run := by
  have hback : ∀ s, Free i (fun m => Drives m.runs run) s → Driving i run s :=
    fun s hs => hs.mono (fun _ hx => hx.elim) fun _ hm => hm
  unfold MininetOVSRuntime.stopping_failed
  refine Meets.ite (fun _ => within_bind issue_from_still fun issue => ?_) fun _ => within_raise fun _ h => h
  have hfailed : ({ MininetOVSRuntime.failed_info info issue with cleanup := legacy_cleanup plan } : RunInfo).id = run :=
    hid
  refine within_bind (process_returns (set_info_driving hfailed)) fun _ => ?_
  refine within_bind (failure_recorded hfailed) fun _ => ?_
  have hreleased : Among i (Driving i run) release
      (fun _ => Free i fun m => Drives m.runs run) fun _ => Free i fun m => Drives m.runs run :=
    release_knowing (F := fun runs => Drives runs run) (fun x hx => hx.known) fun _ hm => hm
  exact within_bind (hreleased.on_raise fun _ => hback) fun _ => within_raise hback

/-- `teardown` of a run of this process. -/
theorem teardown_run_safe {run : MininetRun} {k : String} (hid : run.info.state ≠ .stopped → run.info.id = k) :
    Among i (Driving i k) (MininetOVSRuntime.teardown_run run) (fun _ => AtRest i)
      fun _ => AtRest i := by
  unfold MininetOVSRuntime.teardown_run
  refine Meets.ite (fun _ => Meets.pure within_stable fun s hs => hs.at_rest) fun hactive => ?_
  replace hid := hid hactive
  have hrest : ∀ s, Driving i k s → AtRest i s := fun s hs => hs.at_rest
  have hfree : ∀ s, Free i (fun m => Drives m.runs k) s → AtRest i s :=
    fun s hs => hs.mono (fun _ hx => hx.elim) fun m hm => ⟨k, hm⟩
  have hstopping : Among i (Driving i k)
      ((MininetOVSRuntime.stopping run.info run.plan).handle (MininetOVSRuntime.stopping_failed run.info run.plan))
      (fun _ => Held i (Driven k)) fun _ => Driving i k :=
    (stopping_safe hid).handle (fun e => stopping_failed_safe hid) fun _ => held_stable
  refine within_bind (hstopping.on_raise fun _ => hrest) fun _ => ?_
  have hreleased : Among i (Held i (Driven k)) release
      (fun _ => Free i fun m => Drives m.runs k) fun _ => Free i fun m => Drives m.runs k :=
    release_knowing (F := fun runs => Drives runs k) (fun x hx => hx.known) fun _ hm => hm.elim
  refine within_bind (hreleased.on_raise fun _ => hfree) fun _ => ?_
  refine within_bind (process_returns ?_) fun _ => Meets.pure within_stable fun s hs => hrest s hs
  refine Meets.pre (set_info_driving hid) fun s hs => ?_
  exact hs.mono (fun _ hx => hx.elim) fun _ hm => hm

/-! ## Recovering -/

/-- Recovery that returns leaves nothing of the run. -/
theorem recovery_tells :
    Among i (Held i (Tied F run)) (host .recovery run) (fun _ => Held i (Emptied F run))
      fun _ => Held i (Tied F run) := by
  refine held_meets (F := fun _ => Emptied F run) ⟨by decide, by decide⟩ fun g m a hnamed hx => ?_
  have heffect : HostStep.recovery.effect i run g m a =
      (if a.raised.isNone = true then { g with left := Function.update g.left run [] } else g, m) := rfl
  have houtcome : HostStep.recovery.outcome i g m a = a.reply (.ok ()) := rfl
  rw [heffect, houtcome]
  unfold Answer.reply
  cases a.raised with
  | some e => exact ⟨.refl rfl, hnamed, hx.known, hx.record⟩
  | none =>
    have hempty : Function.update g.left run [] run = [] := Function.update_self run [] g.left
    refine ⟨.refl rfl, hnamed.shrink fun q => ?_, ⟨hx.known, hx.record⟩, hempty⟩
    by_cases hq : q = run
    · subst hq
      rw [hempty]
      exact nil_subset _
    · rw [Function.update_of_ne hq]
      exact Subset.refl _

section Recover

variable {F : Dict String MininetRun → Prop} {run_id : String}

/-- The process has runs that meet `F`, and the lock. -/
def KnownRuns (F : Dict String MininetRun → Prop) (x : Side) : Prop := F x.memory.runs

theorem recover_stopped_safe : Among i (Held i (KnownRuns F)) (MininetOVSRuntime.recover_stopped run_id)
    (fun _ => Held i (KnownRuns F)) fun _ => Held i (KnownRuns F) := by
  refine within_bind read_stopped_meets fun record => ?_
  cases record with
  | none => exact within_raise fun _ h => h
  | some record => exact Meets.ite (fun _ => within_pure fun _ h => h) fun _ => within_raise fun _ h => h

/-- Only the record of the run is recovered, and it goes when recovery has returned. -/
theorem recover_record_safe {record : PersistedRun} : Among i
    (Held i fun x => KnownRuns F x ∧ x.record = some record) (MininetOVSRuntime.recover_record run_id record)
    (fun _ => Held i (KnownRuns F)) fun _ => Held i (KnownRuns F) := by
  unfold MininetOVSRuntime.recover_record
  refine Meets.ite (fun hid => ?_) fun _ => within_raise fun s hs => Held.mono hs fun _ hx => hx.1
  have hforget : ∀ x, Tied F run_id x → KnownRuns F x := fun x hx => hx.known
  refine Meets.pre (P := Held i (Tied F run_id)) ?_ fun s hs => hs.mono fun x hx => ⟨hx.1, fun r hr => ?_⟩
  · refine held_then hforget (still_meets rfl) fun _ => ?_
    refine held_then hforget recovery_tells fun _ => ?_
    refine held_then (fun x hx => hforget x hx.toTied) (still_meets rfl) fun _ => ?_
    refine held_then (fun x hx => hforget x hx.toTied) (write_stopped_still fun _ _ hx =>
      ⟨⟨hx.known, hx.record⟩, hx.nothing⟩) fun _ => ?_
    refine held_then (fun x hx => hforget x hx.toTied) clear_emptied fun _ => ?_
    exact within_pure fun s hs => Held.mono hs hforget
  · rw [hx.2] at hr
    rw [← Option.some.inj hr]
    exact hid

theorem recover_failed_safe : Among i (Held i (KnownRuns F))
    (MininetOVSRuntime.recover_failed run_id e) (fun _ => Held i (KnownRuns F)) fun _ => Held i (KnownRuns F) :=
  Meets.ite (fun _ => within_raise fun _ h => h) fun _ =>
    Meets.ite (fun _ => within_raise fun _ h => h) fun _ => within_raise fun _ h => h

theorem recover_locked_out_still {Q : Unit → Machine κ → Prop} :
    Among i (Within i Φ Ψ) (MininetOVSRuntime.recover_locked_out run_id e) Q
      fun _ => Within i Φ Ψ := by
  unfold MininetOVSRuntime.recover_locked_out
  refine Meets.ite (fun _ => within_bind read_state_for_error_still fun _ => within_raise fun _ h => h) fun _ => ?_
  exact Meets.ite (fun _ => within_raise fun _ h => h) fun _ => within_raise fun _ h => h

theorem recover_persisted_safe {k : String} : Among i (Driving i k)
    (MininetOVSRuntime.recover_persisted run_id) (fun _ => AtRest i) fun _ => AtRest i := by
  have hfree : ∀ s, Free i (fun m => Drives m.runs k) s → AtRest i s :=
    fun s hs => hs.mono (fun _ hx => hx.elim) fun m hm => ⟨k, hm⟩
  have hacquired : Among i (Driving i k)
      (acquire.handle (MininetOVSRuntime.recover_locked_out run_id))
      (fun _ => Held i (KnownRuns fun runs => Drives runs k)) fun _ => Driving i k :=
    (lock_acquired_meets (fun x hx => hx.known) fun _ _ _ hm => hm).handle (fun e => recover_locked_out_still)
      fun _ => held_stable
  have hreleased : Among i (Held i (KnownRuns fun runs => Drives runs k)) release
      (fun _ => AtRest i) fun _ => AtRest i :=
    (release_knowing (F := fun runs => Drives runs k) (fun x hx => hx) fun _ hm => hm.elim).post
      (fun _ => hfree) fun _ => hfree
  refine within_bind (hacquired.on_raise fun _ s hs => hs.at_rest) fun _ => ?_
  refine Meets.eventually (Q := fun _ => Held i (KnownRuns fun runs => Drives runs k))
    (R := fun _ => Held i (KnownRuns fun runs => Drives runs k)) ?_ (fun _ => hreleased) (fun _ => hreleased)
    (fun _ => within_stable) fun _ => within_stable
  refine Meets.handle (R := fun _ => Held i (KnownRuns fun runs => Drives runs k)) ?_
    (fun e => recover_failed_safe) fun _ => held_stable
  refine within_bind read_tells fun record => ?_
  cases record with
  | none => exact Meets.pre recover_stopped_safe fun s hs => Held.mono hs fun x hx => hx.1
  | some record => exact recover_record_safe

/-- `teardown`. -/
theorem teardown_safe : Among i (AtRest i) (MininetOVSRuntime.teardown run_id)
    (fun _ => AtRest i) fun _ => AtRest i := by
  refine Meets.pre (P := fun s => ∃ k, Driving i k s) (Meets.of_exists fun k => ?_) fun s hs => ?_
  · refine within_bind (process_returns memory_tells) fun m => ?_
    cases hrun : m.runs.lookup run_id with
    | none =>
      refine Meets.pre (recover_persisted_safe (k := k)) fun s hs => ?_
      exact hs.mono (fun _ hx => hx.1) fun _ hm => hm.1
    | some run =>
      have hknown : ∀ s, Within i (fun x => Driven k x ∧ x.memory = m) (fun n => Drives n.runs k ∧ n = m) s →
          Drives m.runs k := by
        intro s hs
        by_cases hlock : s.host.lock = some i
        · rw [← (hs.held hlock).2]
          exact (hs.held hlock).1.known
        · rw [← (hs.free hlock).2]
          exact (hs.free hlock).1
      intro s hs
      have hdrives := hknown s hs
      refine teardown_run_safe (k := k) (fun hactive => ?_) s (hs.mono (fun _ hx => hx.1) fun _ hm => hm.1)
      rw [hdrives.keyed run_id run hrun]
      exact hdrives.active run_id run hrun hactive
  · by_cases hlock : s.host.lock = some i
    · obtain ⟨k, hk⟩ := hs.held hlock
      exact ⟨k, hs.sound, fun _ => hk, fun h => absurd hlock h⟩
    · obtain ⟨k, hk⟩ := hs.free hlock
      exact ⟨k, hs.sound, fun h => absurd h hlock, fun _ => hk⟩

end Recover

/-! ## Before a run is claimed -/

theorem validate_plan_still : Among i (Within i Φ Ψ) MininetOVSRuntime.validate_plan
    (fun _ => Within i Φ Ψ) fun _ => Within i Φ Ψ := by
  refine within_bind (still_meets rfl) fun b => Meets.ite (fun _ => ?_) fun _ => within_raise fun _ h => h
  refine within_bind (still_meets rfl) fun b => Meets.ite (fun _ => ?_) fun _ => within_raise fun _ h => h
  exact within_pure fun _ h => h

/-- A process without active runs goes on. -/
theorem ensure_no_active_run_tells : Among i (AtRest i) MininetOVSRuntime.ensure_no_active_run
    (fun _ => Unoccupied i) fun _ => AtRest i := by
  refine within_bind (process_returns memory_tells) fun m => ?_
  dsimp only
  cases hactive : insertionSort (· ≤ ·) ((m.runs.entries.filter fun e =>
      e.2.info.state ≠ .stopped).map fun e => e.2.info.id) with
  | nil =>
    have hquiet : ∀ run, Drives m.runs run → AllStopped m.runs := by
      refine fun run hdrives => ⟨hdrives.keyed, fun key r hr => ?_⟩
      by_contra hstate
      have hmem : r.info.id ∈ insertionSort (· ≤ ·) ((m.runs.entries.filter fun e =>
          e.2.info.state ≠ .stopped).map fun e => e.2.info.id) :=
        (perm_insertionSort _ _).mem_iff.mpr (mem_map_of_mem
          (mem_filter.mpr ⟨AList.mem_lookup_iff.mp hr, decide_eq_true hstate⟩))
      rw [hactive] at hmem
      cases hmem
    refine Meets.pure within_stable fun s hs => hs.mono (fun x hx => ?_) fun n hn => ?_
    · obtain ⟨⟨run, hrun⟩, rfl⟩ := hx
      exact hquiet run hrun.known
    · obtain ⟨⟨run, hrun⟩, rfl⟩ := hn
      exact hquiet run hrun
  | cons id rest => exact within_raise fun s hs => hs.mono (fun _ hx => hx.1) fun _ hn => hn.1

theorem new_run_id_still : Among i (Within i Φ Ψ) MininetOVSRuntime.new_run_id
    (fun _ => Within i Φ Ψ) fun _ => Within i Φ Ψ := by
  refine within_bind (still_meets rfl) fun run_id => Meets.ite (fun _ => within_raise fun _ h => h) fun _ => ?_
  have hmemory : Among i (Within i Φ Ψ) memory (fun _ => Within i Φ Ψ) fun _ => Within i Φ Ψ :=
    (process_returns memory_tells).on_return fun _ _ h => h.mono (fun _ hx => hx.1) fun _ hm => hm.1
  refine within_bind hmemory fun m => Meets.ite (fun _ => within_raise fun _ h => h) fun _ => ?_
  exact within_pure fun _ h => h

/-! ## Claiming a run -/

section Deploy

variable {run : String} {info : RunInfo} {plan : DeploymentPlan}

/-- The locals of a deployment that has not begun. -/
structure Prepared (run : String) (m : Memory) : Prop where
  quiet : AllStopped m.runs
  id : m.deploying.info.id = run
  network : m.deploying.network = false

/-- There is no record of another run and nothing of this one. -/
structure Claimable (run : String) (x : Side) : Prop where
  prepared : Prepared run x.memory
  record : RecordOf x.record run
  nothing : x.left run = []

/-- The record names the run, and what a build has left can be told from the locals. -/
structure Claimed (run : String) (x : Side) : Prop where
  quiet : AllStopped x.memory.runs
  named : ∃ r, x.record = some r ∧ r.run.id = run
  processes : Residue.processes ∉ x.left run
  id : x.memory.deploying.info.id = run
  unbuilt : x.memory.deploying.network = false → x.left run = []

theorem Claimed.tied {x : Side} (h : Claimed run x) : Tied AllStopped run x := by
  refine ⟨h.quiet, fun r hr => ?_⟩
  obtain ⟨r', hr', hid⟩ := h.named
  rw [hr] at hr'
  rw [Option.some.inj hr']
  exact hid

variable {s : Machine κ} {Q : Unit → Machine κ → Prop} {groups : List ℕ} {m : Memory}

omit [DecidableEq κ] in
theorem resting_of_free (h : Free i (fun m => AllStopped m.runs) s) : Unoccupied i s :=
  h.mono (fun _ hx => hx.elim) fun _ hm => hm

theorem released_resting : Among i (Unoccupied i) release (fun _ => Unoccupied i)
    fun _ => Unoccupied i :=
  (release_knowing (F := AllStopped) (fun _ hx => hx) fun _ hm => hm).post
    (fun _ _ h => resting_of_free h) fun _ _ h => resting_of_free h

theorem claim_failed_safe : Among i (Unoccupied i)
    (MininetOVSRuntime.claim_failed info e) Q fun _ => Unoccupied i := by
  refine Meets.ite (fun _ => within_bind read_state_for_error_still fun _ => within_raise fun _ h => h) fun _ => ?_
  exact Meets.ite (fun _ => within_bind released_resting fun _ => within_raise fun _ h => h) fun _ =>
    within_raise fun _ h => h

/-- A record that is found is left alone; without one the run is claimed. -/
theorem claim_found_safe {existing : Option PersistedRun} (hid : info.id = run) : Among i
    (Held i fun x => Prepared run x.memory ∧ x.record = existing)
    (MininetOVSRuntime.claim_found info plan existing) (fun _ => Held i (Claimed run)) fun _ => Unoccupied i := by
  cases existing with
  | some existing =>
    refine Meets.pre (P := Unoccupied i) ?_ fun s hs => (hs.mono fun x hx => hx.1.quiet).within
    exact within_bind released_resting fun _ => within_raise fun _ h => h
  | none =>
    have hresting : ∀ s, Held i (Claimable run) s → Unoccupied i s :=
      fun s hs => (hs.mono fun x hx => hx.prepared.quiet).within
    have hwritable : Writable (.active { run := info, plan := plan }) (Claimable run) := by
      refine .of_active (fun x hx => ?_) (fun x _ hx => ⟨⟨hx.prepared.quiet, hx.prepared.id,
        hx.prepared.network⟩, hx.record, hx.nothing⟩) fun x hx => ⟨hx.prepared, fun r hr => ?_, hx.nothing⟩
      · rw [show RunInfo.id _ = run from hid]
        exact hx.record
      · rw [← Option.some.inj hr]
        exact hid
    refine Meets.pre (P := Held i (Claimable run)) ?_ fun s hs => ?_
    · refine within_bind (clear_stopped_still.on_raise fun _ => hresting) fun _ => ?_
      refine (write_json_tells hwritable).post (fun _ s hs => ?_) fun _ => hresting
      refine hs.mono fun x hx => ⟨hx.1.prepared.quiet, ⟨_, hx.2.symm, hid⟩, ?_, hx.1.prepared.id, fun _ => hx.1.nothing⟩
      rw [hx.1.nothing]
      exact not_mem_nil
    · refine ⟨hs.sound, fun hlock => ⟨hs.side.1, ?_, ?_⟩, fun hlock => hlock hs.lock⟩
      · rw [hs.side.2]
        exact record_of_none run
      · -- without a record nothing is left of any run
        refine hs.sound.named.nothing fun r hr => ?_
        have hnone : s.host.record = none := hs.side.2
        rw [hnone] at hr
        cases hr

theorem claim_run_safe (hid : info.id = run) : Among i
    (Within i (fun x => Prepared run x.memory) (Prepared run)) (MininetOVSRuntime.claim_run info plan)
    (fun _ => Held i (Claimed run)) fun _ => Unoccupied i := by
  have hresting : ∀ s, Within i (fun x => Prepared run x.memory) (Prepared run) s → Unoccupied i s :=
    fun s hs => hs.mono (fun x hx => hx.quiet) fun _ hm => hm.quiet
  have hacquired : Among i (Within i (fun x => Prepared run x.memory) (Prepared run))
      acquire (fun _ => Held i fun x => Prepared run x.memory) fun _ => Unoccupied i :=
    (lock_acquired_meets (fun _ hx => hx) fun _ _ _ hm => ⟨hm.quiet, hm.id, hm.network⟩).on_raise fun _ => hresting
  refine Meets.handle (within_bind hacquired fun _ => ?_) (fun e => claim_failed_safe) fun _ => held_stable
  refine within_bind (read_tells.on_raise fun _ s hs => ?_) fun existing =>
    claim_found_safe hid
  exact hs.mono (fun x hx => hx.quiet) fun _ hm => hm.elim

/-! ## Building the network -/

omit [DecidableEq κ] in
theorem Host.Named.leave {h : Host κ} (hnamed : h.Named) (hrecord : ∃ r, h.record = some r ∧ r.run.id = run)
    (residues : List Residue) : (h.leave run residues).Named := by
  intro q hq
  by_cases hrun : q = run
  · subst hrun
    exact hrecord
  · have hother : (h.leave run residues).left q = h.left q := Function.update_of_ne hrun _ h.left
    rw [hother] at hq
    exact hnamed q hq

theorem write_claimed {w : Writing} (hid : info.id = run) : Among i
    (Held i (Claimed run)) (MininetOVSRuntime.write_state w info plan groups) (fun _ => Held i (Claimed run))
    fun _ => Held i (Claimed run) := by
  have hwritable : Writable (.active { run := info, plan := plan, process_groups := groups }) (Claimed run) := by
    refine .of_active (fun x hx => ?_) (fun x c hx => ⟨hx.quiet, hx.named, hx.processes, hx.id, hx.unbuilt⟩) fun x hx =>
      ⟨hx.quiet, ⟨_, rfl, hid⟩, hx.processes, hx.id, hx.unbuilt⟩
    rw [show RunInfo.id _ = run from hid]
    exact hx.tied.record
  exact (write_json_tells hwritable).on_return fun _ _ h => h.mono fun _ hx => hx.1

/-- The locals change, but neither the run nor whether there is a network. -/
theorem note_claimed {f : DeployLocals → DeployLocals} (hid : ∀ l, l.info.id = run → (f l).info.id = run)
    (hnetwork : ∀ l, (f l).network = l.network) : Among i (Held i (Claimed run))
      (MininetOVSRuntime.note f) (fun _ => Held i (Claimed run)) fun _ _ => False := by
  refine modify_tells (f := fun m => { m with deploying := f m.deploying }) (fun x hx => ?_) fun _ hm => hm
  refine ⟨hx.quiet, hx.named, hx.processes, hid _ hx.id, fun h => hx.unbuilt ?_⟩
  rw [← hnetwork]
  exact h

/-- A build, finished or not, leaves nodes and artifacts of the run its record names. -/
theorem build_network_tells : Among i
    (Held i fun x => Claimed run x ∧ x.memory.deploying.network = true) (host .build_network run)
    (fun _ => Held i (Claimed run)) fun _ => Held i (Claimed run) := by
  refine held_meets (F := fun _ => Claimed run) ⟨by decide, by decide⟩ fun g m a hnamed hx => ?_
  obtain ⟨hx, hnetwork⟩ := hx
  have heffect : HostStep.build_network.effect i run g m a = (g.leave run [.nodes, .artifacts], m) := rfl
  have hleft : (g.leave run [.nodes, .artifacts]).left run = [.nodes, .artifacts] ++ g.left run :=
    Function.update_self run _ g.left
  have hafter : Claimed run ⟨g.record, (g.leave run [.nodes, .artifacts]).left, m⟩ := by
    refine ⟨hx.quiet, hx.named, fun hmem => ?_, hx.id, fun h => ?_⟩
    · have hmember : Residue.processes ∈ (g.leave run [.nodes, .artifacts]).left run := hmem
      rw [hleft] at hmember
      rcases mem_append.mp hmember with hnew | hold
      · exact absurd hnew (by decide)
      · exact hx.processes hold
    · have hno : m.deploying.network = false := h
      have hyes : m.deploying.network = true := hnetwork
      rw [hyes] at hno
      cases hno
  rw [heffect]
  refine ⟨.refl rfl, hnamed.leave hx.named _, ?_⟩
  cases HostStep.build_network.outcome i g m a with
  | ok _ => exact hafter
  | error _ => exact hafter

theorem bring_up_safe (hid : info.id = run) : Among i
    (Held i fun x => Claimed run x ∧ x.memory.deploying.network = true) (MininetOVSRuntime.bring_up info plan)
    (fun _ => Held i (Claimed run)) fun _ => Held i (Claimed run) := by
  subst hid
  have hrunning : ∀ l : DeployLocals, l.info.id = info.id → (MininetOVSRuntime.running_info info).id = info.id :=
    fun _ _ => rfl
  refine within_bind build_network_tells fun _ => within_bind (still_meets rfl) fun groups => ?_
  refine within_bind (process_returns (note_claimed (fun _ h => h) fun _ => rfl)) fun _ => ?_
  refine within_bind (write_claimed rfl) fun _ => ?_
  refine within_bind (perform_all_still (by decide)) fun _ => within_bind (still_meets rfl) fun operational => ?_
  refine within_bind (require_tells.on_return fun _ _ h => h.mono (fun _ hx => hx.2) fun _ hm => hm.2) fun _ => ?_
  refine within_bind (process_returns (note_claimed hrunning fun _ => rfl)) fun _ => ?_
  exact write_claimed rfl

theorem deploying_safe (hid : info.id = run) : Among i (Held i (Claimed run))
    (MininetOVSRuntime.deploying info plan) (fun _ => Held i (Claimed run)) fun _ => Held i (Claimed run) := by
  refine within_bind (still_meets rfl) fun _ => within_bind (still_meets rfl) fun interfaces_free => ?_
  refine within_bind (require_tells.on_return fun _ _ h => h.mono (fun _ hx => hx.2) fun _ hm => hm.2) fun _ => ?_
  refine within_bind (process_returns (note_claimed (fun _ h => h) fun _ => rfl)) fun _ => ?_
  refine within_bind (still_meets rfl) fun _ => within_bind (process_returns ?_) fun _ => bring_up_safe hid
  refine modify_tells (f := fun m => { m with deploying := { m.deploying with network := true } }) (fun x hx => ?_)
    fun _ hm => hm
  exact ⟨⟨hx.quiet, hx.named, hx.processes, hx.id, fun h => by cases h⟩, rfl⟩

/-! ## Undoing a deployment -/

theorem rollback_safe : Among i (Held i (Claimed run)) (MininetOVSRuntime.rollback run)
    (fun failure => Held i fun x => Tied AllStopped run x ∧ (failure = none → x.left run = []))
    fun _ => Held i (Tied AllStopped run) := by
  have hshrinks : Shrinks fun x => Tied AllStopped run x ∧ Residue.processes ∉ x.left run :=
    fun x left hleft hx => ⟨tied_shrinks AllStopped run x left hleft hx.1, fun hmem => hx.2 (hleft run hmem)⟩
  refine Meets.pre (P := Held i fun x => Tied AllStopped run x ∧ Residue.processes ∉ x.left run) ?_ fun s hs => ?_
  · refine held_then (fun _ hx => hx.1) (removal_suppressed (removal_tells rfl hshrinks)) fun failure => ?_
    refine held_then (fun _ hx => hx.1.1) (removal_suppressed (removal_tells rfl hshrinks.and_gone)) fun error => ?_
    refine Meets.pure held_stable fun s hs => hs.mono fun x hx => ⟨hx.1.1.1, fun hnone => ?_⟩
    obtain ⟨hfailure, herror⟩ := or_eq_none_iff.mp hnone
    refine eq_nil_iff_forall_not_mem.mpr fun residue => ?_
    cases residue with
    | nodes => exact hx.1.2 hfailure
    | artifacts => exact hx.2 herror
    | processes => exact hx.1.1.2
  · exact hs.mono fun x hx => ⟨hx.tied, hx.processes⟩

/-- A network that is not true has left nothing. -/
theorem network_truth_tells : Among i (Held i (Claimed run)) (asks .network_truth)
    (fun truth => Held i fun x => Claimed run x ∧ (truth = false → x.left run = []))
    fun _ => Held i (Claimed run) := by
  have htells := @still_tells _ _ i (Claimed run) (fun _ => False) (.asks .network_truth) "" rfl
    (fun truth x => truth = false → x.left x.memory.deploying.info.id = []) ?_
  · refine htells.on_return fun truth s hs => Held.mono hs fun x hx => ⟨hx.1, fun hno => ?_⟩
    rw [← hx.1.id]
    exact hx.2 hno
  intro s a truth hfaithful houtcome hno
  have hreply : a.reply (.ok a.yes) = .ok truth := houtcome
  have hanswer : (a.yes || a.raised.isSome || (s.host.left (s.memory i).deploying.info.id).isEmpty) = true := hfaithful
  have hraised := Answer.returned hreply
  unfold Answer.reply at hreply
  rw [hraised] at hreply hanswer
  have hyes : a.yes = truth := Except.ok.inj hreply
  rw [hyes, hno] at hanswer
  exact List.isEmpty_iff.mp hanswer

/-- `if network`: without a rollback that failed nothing is left. -/
theorem roll_back_network_safe (hid : m.deploying.info.id = run) : Among i
    (Held i fun x => Claimed run x ∧ x.memory = m) (MininetOVSRuntime.roll_back_network m.deploying)
    (fun failure => Held i fun x => Tied AllStopped run x ∧ (failure = none → x.left run = []))
    fun _ => Held i (Tied AllStopped run) := by
  unfold MininetOVSRuntime.roll_back_network
  refine Meets.ite (fun _ => ?_) fun hno => Meets.pure held_stable fun s hs => hs.mono fun x hx => ?_
  · refine Meets.pre (P := Held i (Claimed run)) ?_ fun s hs => hs.mono fun x hx => hx.1
    refine held_then (fun x hx => hx.tied) network_truth_tells fun truth => Meets.ite (fun _ => ?_) fun hno => ?_
    · rw [hid]
      exact Meets.pre rollback_safe fun s hs => hs.mono fun x hx => hx.1
    · refine Meets.pure held_stable fun s hs => hs.mono fun x hx => ⟨hx.1.tied, fun _ => hx.2 ?_⟩
      exact (Bool.not_eq_true truth).mp hno
  · refine ⟨hx.1.tied, fun _ => hx.1.unbuilt ?_⟩
    rw [hx.2]
    exact (Bool.not_eq_true m.deploying.network).mp hno

theorem settle_failed_deploy_safe {failure : Option RaisedError} (hid : info.id = run) :
    Among i (Held i fun x => Tied AllStopped run x ∧ (failure = none → x.left run = []))
      (MininetOVSRuntime.settle_failed_deploy info plan groups failure) (fun _ => Unoccupied i) fun _ => Unoccupied i := by
  have hrecord : Among i (Held i fun x => Tied AllStopped run x ∧ (failure = none → x.left run = []))
      (MininetOVSRuntime.settle_record info plan groups failure) (fun _ => Held i (Tied AllStopped run))
      fun _ => Held i (Tied AllStopped run) := by
    cases failure with
    | none =>
      refine Meets.mono (P := Held i (Emptied AllStopped run)) clear_emptied (fun s hs => ?_) (fun _ _ h => h)
        fun _ _ h => h.mono fun x hx => hx.toTied
      exact hs.mono fun x hx => ⟨hx.1, hx.2 rfl⟩
    | some e =>
      refine Meets.pre (P := Held i (Tied AllStopped run)) ?_ fun s hs => hs.mono fun x hx => hx.1
      exact within_bind issue_from_still fun issue => write_tied hid
  have hrelease : Among i (Held i (Tied AllStopped run)) release (fun _ => Unoccupied i)
      fun _ => Unoccupied i :=
    Meets.pre released_resting fun s hs => (hs.mono fun x hx => hx.known).within
  have hsettled : Among i (Held i fun x => Tied AllStopped run x ∧ (failure = none → x.left run = []))
      ((MininetOVSRuntime.settle_record info plan groups failure).attempt >>= MininetOVSRuntime.settled)
      (fun _ => Held i (Tied AllStopped run)) fun _ => Held i (Tied AllStopped run) := by
    refine Meets.attempt hrecord (fun _ => within_pure fun _ h => h) fun e => ?_
    exact Meets.ite (fun _ => within_pure fun _ h => h) fun _ => within_raise fun _ h => h
  exact hsettled.eventually (fun _ => hrelease) (fun _ => hrelease) (fun _ => within_stable) fun _ => within_stable

/-- What the memory is known to meet. -/
theorem memory_known {F : Memory → Prop} (h : ∀ x, Φ x → F x.memory) : Among i (Held i Φ) memory
    (fun m s => F m ∧ Held i (fun x => Φ x ∧ x.memory = m) s) fun _ _ => False := by
  refine memory_tells.on_return fun m s hs => ?_
  have hheld : Held i (fun x => Φ x ∧ x.memory = m) s := hs.mono (fun _ hx => hx) fun _ hm => hm.1
  refine ⟨?_, hheld⟩
  rw [← hheld.side.2]
  exact h _ hheld.side.1

theorem deploy_failed_safe : Among i
    (Held i (Claimed run)) (MininetOVSRuntime.deploy_failed info plan e) Q fun _ => Unoccupied i := by
  have hresting : ∀ s, Held i (Tied AllStopped run) s → Unoccupied i s := fun s hs => (hs.mono fun x hx => hx.known).within
  refine within_bind (process_returns (memory_known (F := fun m => m.deploying.info.id = run) fun x hx => hx.id))
    fun m => Meets.given fun hid => ?_
  dsimp only
  refine within_bind ((roll_back_network_safe hid).on_raise fun _ => hresting)
    fun failure => ?_
  refine within_bind (settle_failed_deploy_safe hid) fun error => ?_
  refine Meets.ite (fun _ => within_raise fun _ h => h) fun _ => ?_
  exact Meets.ite (fun _ => within_raise fun _ h => h) fun _ => within_raise fun _ h => h

/-! ## Deploying -/

/-- The process drives the run, which its record names. -/
structure DeployedRun (run : String) (x : Side) : Prop extends Tied (fun runs => Drives runs run) run x where
  named : ∃ r, x.record = some r ∧ r.run.id = run

/-- What the actions of a run leave is the run's that the record names. -/
theorem hand_over_tells : Among i (Held i (DeployedRun run)) (hand_over run)
    (fun _ => Held i (Driven run)) fun _ _ => False := by
  refine operation_meets (o := .hand_over run) (k := .ok) held_stable (fun _ => held_stable)
    (fun _ _ _ h _ => h) fun t a ht _ => ?_
  have hnamed : (t.host.leave run [.processes]).Named := ht.sound.named.leave ht.side.named _
  have hguar : ProcessGuarantee i t (Machine.act i (.hand_over run) a t).2 :=
    .of rfl rfl (.refl rfl) (fun _ => hnamed) fun hother => absurd ht.lock hother
  have hmemory : (Machine.act i (.hand_over run) a t).2.memory i = t.memory i := t.moved_memory i _ _
  refine ⟨hguar, hguar.sound ht.sound, fun _ => ⟨?_, ht.side.record⟩, fun hlock => hlock ht.lock⟩
  show Drives ((Machine.act i (.hand_over run) a t).2.memory i).runs run
  rw [hmemory]
  exact ht.side.known

/-- The run that is up is remembered. -/
theorem remember_run_tells {r : MininetRun} (hid : r.info.id = run) : Among i
    (Held i fun x => Claimed run x ∧ x.memory = m) (remember { m with runs := m.runs.insert run r })
    (fun _ => Held i (DeployedRun run)) fun _ _ => False := by
  refine remember_tells (fun x hx => ?_) fun _ hm => hm
  obtain ⟨hx, rfl⟩ := hx
  exact ⟨⟨(hx.quiet.drives run).insert hid, hx.tied.record⟩, hx.named⟩

/-- The locals of a deployment that begins. -/
theorem note_prepared (hid : info.id = run) : Among i (Unoccupied i)
    (MininetOVSRuntime.note fun _ => { info := info }) (fun _ => Within i (fun x => Prepared run x.memory) (Prepared run))
    fun _ _ => False :=
  modify_tells (f := fun m => { m with deploying := { info := info } }) (fun _ hx => ⟨hx, hid, rfl⟩)
    fun _ hm => ⟨hm, hid, rfl⟩

/-- `deploy`. -/
theorem deploy_safe : Among i (AtRest i) (MininetOVSRuntime.deploy plan) (fun _ => AtRest i)
    fun _ => AtRest i := by
  have hrest : ∀ s, Unoccupied i s → AtRest i s := fun s hs => hs.at_rest
  refine within_bind validate_plan_still fun _ => within_bind ensure_no_active_run_tells fun _ => ?_
  refine within_bind (new_run_id_still.on_raise fun _ => hrest) fun run_id => ?_
  refine within_bind ((still_meets rfl).on_raise fun _ => hrest) fun _ => ?_
  refine within_bind (process_returns (note_prepared rfl)) fun _ => ?_
  refine within_bind ((claim_run_safe rfl).on_raise fun _ => hrest) fun _ => ?_
  have hdeploying : ∀ info : RunInfo, info.id = run_id → Among i (Held i (Claimed run_id))
      ((MininetOVSRuntime.deploying info plan).handle (MininetOVSRuntime.deploy_failed info plan))
      (fun _ => Held i (Claimed run_id)) fun _ => Unoccupied i :=
    fun info hid => (deploying_safe hid).handle (fun e => deploy_failed_safe) fun _ => held_stable
  refine within_bind ((hdeploying _ rfl).on_raise fun _ => hrest) fun _ => ?_
  refine within_bind (process_returns (memory_known (F := fun _ => True) fun _ _ => trivial)) fun m =>
    Meets.given fun _ => ?_
  refine within_bind (process_returns (remember_run_tells rfl)) fun _ => ?_
  refine within_bind (process_returns hand_over_tells) fun _ => Meets.pure within_stable fun s hs => ?_
  exact Driving.at_rest hs.within

/-! ## Every run -/

theorem call_safe (c : RuntimeCall) (hs : AtRest i s) :
    Program.Ensures (process_terms i) c.body (fun _ => AtRest i) s := by
  cases c with
  | deploy plan =>
    have hdeploy : Among i (AtRest i) (MininetOVSRuntime.deploy plan) (fun _ => AtRest i)
        fun _ => AtRest i := deploy_safe
    refine Program.Ensures.bind ((hdeploy s hs).mono fun r t ht u hu => ?_)
    cases r with
    | ok _ => exact within_stable t u ht hu
    | error _ => exact within_stable t u ht hu
  | teardown run_id =>
    have hteardown : Among i (AtRest i) (MininetOVSRuntime.teardown run_id) (fun _ => AtRest i)
        fun _ => AtRest i := teardown_safe
    refine Program.Ensures.bind ((hteardown s hs).mono fun r t ht u hu => ?_)
    cases r with
    | ok _ => exact within_stable t u ht hu
    | error _ => exact within_stable t u ht hu


end Deploy

theorem Machine.crash_lock {s : Machine κ} {j : κ} (hj : j ≠ i) :
    (s.crash i).host.lock = some j ↔ s.host.lock = some j := by
  unfold Machine.crash Machine.moved
  by_cases hlock : s.host.lock = some i
  · rw [if_pos hlock, hlock]
    exact iff_of_false nofun fun h => hj (Option.some.inj h).symm
  · rw [if_neg hlock]

theorem Machine.crash_host (s : Machine κ) : (s.crash i).host.record = s.host.record ∧
    (s.crash i).host.left = s.host.left := by
  unfold Machine.crash Machine.moved
  by_cases hlock : s.host.lock = some i
  · rw [if_pos hlock]
    exact ⟨rfl, rfl⟩
  · rw [if_neg hlock]
    exact ⟨rfl, rfl⟩

/-- A crash takes the memory and the lock, and leaves the record and what is built. -/
theorem Machine.crash_sound {s : Machine κ} (hs : s.Sound) : (s.crash i).Sound where
  agrees j := by
    by_cases hj : j = i
    · subst hj
      have hmemory : (s.crash j).memory j = {} := s.moved_memory j _ _
      rw [hmemory]
      refine iff_of_false Bool.false_ne_true ?_
      unfold Machine.crash Machine.moved
      by_cases hlock : s.host.lock = some j
      · rw [if_pos hlock]
        exact nofun
      · rw [if_neg hlock]
        exact hlock
    · have hmemory : (s.crash i).memory j = s.memory j := s.moved_others hj _ _
      rw [hmemory, Machine.crash_lock hj]
      exact hs.agrees j
  named run hrun := by
    rw [s.crash_host.2] at hrun
    rw [s.crash_host.1]
    exact hs.named run hrun

/-- Processes that make calls and crash keep to their terms. -/
theorem runtime_discipline : (@runtime_processes κ _).Discipline
    (fun i o a s => faithful i o a s = true) process_terms Machine.Sound AtRest where
  init s hs := by
    obtain ⟨hlock, hleft, hmemory⟩ := hs
    have hsound : s.Sound := by
      refine ⟨fun i => ?_, fun run hrun => absurd (hleft run) hrun⟩
      rw [hmemory i, hlock]
      exact iff_of_false Bool.false_ne_true nofun
    refine ⟨hsound, fun i => ⟨hsound, fun h => ?_, fun _ => ⟨"", ?_⟩⟩⟩
    · rw [hlock] at h
      cases h
    · rw [hmemory i]
      exact drives_nothing ""
  act i o a s ha := ⟨a, ha, rfl⟩
  body i c s _ hidle := call_safe c hidle
  keeps i s t hs hguar := hguar.sound hs
  relied i j s t hj _ hguar := hguar.relied hj
  idle i := within_stable
  die i s hs := by
    have hmemory : (s.crash i).memory i = {} := s.moved_memory i _ _
    have hdead : (s.crash i).Sound := Machine.crash_sound hs
    refine ⟨hdead, ⟨hdead, fun hlock => ?_, fun _ => ⟨"", ?_⟩⟩, fun j hj => ?_⟩
    · have hacquired := (hdead.agrees i).mpr hlock
      rw [hmemory] at hacquired
      cases hacquired
    · rw [show runtime_processes.die i s = s.crash i from rfl, hmemory]
      exact drives_nothing ""
    · exact ⟨fun _ => hdead, s.moved_others hj _ _, Machine.crash_lock hj, fun _ => s.crash_host⟩

/-- The processes whose answers about the record and the network are faithful. -/
def faithful_processes : System (Pool HostOp HostOp.Reply (Machine κ) κ) (PoolEvent κ RuntimeCall Answer) :=
  runtime_processes.system.guarded (Threads.Permitted fun i o a s => faithful i o a s = true)

end Safety

/-- What the record promises: what is left of a run it names, it goes only when nothing is left of
its run, and no other run's takes its place. -/
structure CrashSafe {κ : Type} [DecidableEq κ]
    (S : System (Pool HostOp HostOp.Reply (Machine κ) κ) (PoolEvent κ RuntimeCall Answer))
    (p : Pool HostOp HostOp.Reply (Machine κ) κ) : Prop where
  named : p.shared.host.Named
  kept : ∀ e p', S.step p e = some p' → RunRecordKept p.shared.host p'.shared.host

/-- Along every run of calls and crashes under faithful answers the promise is kept. -/
theorem crash_safe_faithful {κ : Type} [DecidableEq κ] {p : Pool HostOp HostOp.Reply (Machine κ) κ}
    (hp : faithful_processes.Reachable p) : CrashSafe faithful_processes p where
  named := (runtime_discipline.reachable hp.unguarded).1.named
  kept e p' hs := by
    simp only [faithful_processes, System.guarded, ite_none_right_eq_some] at hs
    obtain ⟨hpermitted, hs⟩ := hs
    cases e with
    | call i c =>
      simp only [Threads.system, ite_none_right_eq_some, Option.some.injEq] at hs
      rw [← hs.2]
      exact .refl rfl
    | die i =>
      simp only [Threads.system, Option.some.injEq] at hs
      rw [← hs]
      exact .refl p.shared.crash_host.1
    | act i a =>
      obtain ⟨program, hi, rfl⟩ := map_eq_some_iff.mp hs
      cases program with
      | done u => exact .refl rfl
      | perform o next =>
        have hfaithful : Threads.permits (fun i o a s => faithful i o a s = true) i a p.shared (p.running i) :=
          hpermitted
        rw [hi] at hfaithful
        exact (runtime_discipline.next hp.unguarded hi hfaithful).kept

/-! ### A record that is not seen -/

/-- Nothing has been deployed. -/
def processes_unused : Pool HostOp HostOp.Reply (Machine Bool) Bool where
  shared := {}
  running _ := none

theorem processes_unused_init : (@runtime_processes Bool _).system.init processes_unused :=
  ⟨⟨rfl, fun _ => rfl, fun _ => rfl⟩, fun _ => rfl⟩

/-- The process `false` deploys and crashes when its network has been built. -/
def crashed_schedule : List (PoolEvent Bool RuntimeCall Answer) :=
  .call false (.deploy no_resources) :: replicate 35 (.act false {}) ++ [.die false]

/-- The process `true` deploys: its look at the record's file fails and counts as a no. -/
def unseen_schedule : List (PoolEvent Bool RuntimeCall Answer) :=
  .call true (.deploy no_resources) :: replicate 13 (.act true { name := "mn-2" }) ++
    .act true { yes := false } :: replicate 12 (.act true { name := "mn-2" })

/-- The crash leaves a network, and its record. -/
theorem crash_safe_crashed : ∃ p : Pool HostOp HostOp.Reply (Machine Bool) Bool,
    p.shared.host.left "mn-1" ≠ [] ∧ CrashSafe faithful_processes p := by
  have hrun : ((faithful_processes.run processes_unused crashed_schedule).any fun p =>
      !(p.shared.host.left "mn-1").isEmpty) = true := by
    decide
  obtain ⟨p, hp, hleft⟩ := (any_eq_true _ _).mp hrun
  refine ⟨p, fun hempty => ?_, crash_safe_faithful (System.Reachable.run (.init processes_unused_init) hp)⟩
  rw [hempty] at hleft
  cases hleft

/-- A run is claimed over the record of an orphaned one, whose network nothing names any more. -/
theorem orphan_overwritten : ¬ ∀ p : Pool HostOp HostOp.Reply (Machine Bool) Bool,
    (@runtime_processes Bool _).system.Reachable p → CrashSafe (@runtime_processes Bool _).system p := by
  intro hclaim
  have hrun : (((@runtime_processes Bool _).system.run processes_unused
      (crashed_schedule ++ unseen_schedule)).any fun p =>
        p.shared.host.record.any (fun r => r.run.id = "mn-2") && !(p.shared.host.left "mn-1").isEmpty) = true := by
    decide
  obtain ⟨p, hp, hends⟩ := (any_eq_true _ _).mp hrun
  obtain ⟨hrecord, hleft⟩ := (Bool.and_eq_true _ _).mp hends
  obtain ⟨r, hr, hid⟩ := (any_eq_true _ _).mp hrecord
  have hsafe := hclaim p (System.Reachable.run (.init processes_unused_init) hp)
  obtain ⟨r', hr', hid'⟩ := hsafe.named "mn-1" fun hempty => by
    rw [hempty] at hleft
    cases hleft
  rw [hr] at hr'
  rw [← Option.some.inj hr', of_decide_eq_true hid] at hid'
  exact absurd hid' (by decide)

end MininetAi
