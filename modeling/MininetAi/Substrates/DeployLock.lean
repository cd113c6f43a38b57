/-
Which failed deploys leave the lock behind.

A deploy that raises has given the lock back unless, after taking it, something other
than an error of the store has left `_claim_run`, or the rollback of a network has been
left by something that is not an `Exception`. The first happens where `_write_json` and
the readers stand outside of a `try`; the second because the lock is given back after the
rollback.
-/
import MininetAi.Substrates.Alone

set_option autoImplicit false

namespace MininetAi

open Option

open Routine MininetOVSRuntime

/-! ## The condition -/

/-- The driver accepts the plan. -/
structure PlanAccepted (env : Environment) : Prop where
  asked : raises env (.asks .substrate_matches) = none
  same : (env (.asks .substrate_matches)).yes = true
  validated : raises env (.asks .resources_valid) = none
  valid : (env (.asks .resources_valid)).yes = true

/-- No run of the process is active. -/
def Idle (runs : Dict String MininetRun) : Prop := ∀ e ∈ runs.entries, e.2.info.state = .stopped

/-- The factory gives a new id. -/
structure Named (env : Environment) (runs : Dict String MininetRun) : Prop where
  made : raises env .run_id = none
  nonempty : (env .run_id).name ≠ ""
  fresh : (env .run_id).name ∉ runs

/-- A deploy gets as far as the claim. -/
structure ReachesClaim (env : Environment) (runs : Dict String MininetRun) : Prop where
  accepted : PlanAccepted env
  idle : Idle runs
  named : Named env runs
  timed : raises env .clock = none

/-- The claim of a process that has taken the lock ends with an error that is not one of the
store. -/
inductive ClaimEscapes (env : Environment) (record : Option PersistedRun) : Prop
  | reading (e : RaisedError) (h : read_result env record = .error e) (hraw : e.is_store = false)
  | writing (e : RaisedError) (hfree : read_result env record = .ok none)
      (h : (clear_stopped_error env).or (write_error env .claim) = some e) (hraw : e.is_store = false)

/-- The claim of a process that has taken the lock succeeds. -/
structure ClaimPasses (env : Environment) (record : Option PersistedRun) : Prop where
  free : read_result env record = .ok none
  written : (clear_stopped_error env).or (write_error env .claim) = none

/-- There is a network to roll back. -/
structure NetworkCreated (env : Environment) : Prop where
  bound : raises env .bindings = none
  asked : raises env (.asks .interfaces_free) = none
  unused : (env (.asks .interfaces_free)).yes = true
  created : raises env .create_network = none

/-- A network that is there is not brought up. -/
inductive BuildFails (env : Environment) : Prop
  | building (h : raises env .build_network ≠ none)
  | listing (h : raises env (.lists .network) ≠ none)
  | recording (h : write_error env .process_groups ≠ none)
  | starting (h : first_raised env [.start_network, .observation_factory, .action_factory] ≠ none)
  | asking (h : raises env (.asks .resources_operational) ≠ none)
  | unavailable (h : (env (.asks .resources_operational)).yes = false)
  | publishing (h : write_error env .running ≠ none)

/-- What does not return from a rollback: the truth value of the network raises, or one of
the operations is interrupted. -/
inductive RollbackInterrupted (env : Environment) : Prop
  | truth (h : raises env (.asks .network_truth) ≠ none)
  | stop (e : RaisedError) (hyes : (env (.asks .network_truth)).yes = true)
      (h : raises env .stop_network = some e) (hkind : e.is_exception = false)
  | artifacts (e : RaisedError) (hyes : (env (.asks .network_truth)).yes = true)
      (h : raises env .remove_owned_artifacts = some e) (hkind : e.is_exception = false)

/-- A failed deploy keeps the lock. -/
structure DeployKeepsLock {κ : Type} [DecidableEq κ] (i : κ) (env : Environment) (h : Host κ)
    (runs : Dict String MininetRun) : Prop where
  reached : ReachesClaim env runs
  taken : TakesLock i env h
  kept : ClaimEscapes env h.record ∨
    ClaimPasses env h.record ∧ NetworkCreated env ∧ BuildFails env ∧ RollbackInterrupted env

section

variable {κ : Type} [DecidableEq κ] {i : κ} {env : Environment} {l : DeployLocals}
  {runs : Dict String MininetRun}

/-! ## Before the claim -/

variable {P : Host κ × Memory → Prop} {v : Bool × DeployLocals × Dict String MininetRun}
  {f : DeployLocals → DeployLocals} {record : Option PersistedRun} {st : Host κ × Memory}
  {rollback_error : Option RaisedError} {F : Host κ → Prop}

theorem validate_plan_meets :
    Alone i env P validate_plan (fun _ t => PlanAccepted env ∧ P t)
      (fun _ t => ¬ PlanAccepted env ∧ P t) := by
  refine alone_bind (asks_meets.on_raise fun e t ht => ⟨?_, ht.2⟩)
    fun b => Meets.given fun hb => Meets.ite (fun hyes => ?_) fun hno => alone_raise fun t ht => ⟨?_, ht⟩
  · intro haccepted
    rw [haccepted.asked] at ht
    cases ht.1
  · refine alone_bind (asks_meets.on_raise fun e t ht => ⟨?_, ht.2⟩)
      fun b' => Meets.given fun hb' => Meets.ite (fun hyes' => alone_pure fun t ht => ⟨?_, ht⟩)
        fun hno' => alone_raise fun t ht => ⟨?_, ht⟩
    · intro haccepted
      rw [haccepted.validated] at ht
      cases ht.1
    · exact ⟨hb.1, hb.2 ▸ hyes, hb'.1, hb'.2 ▸ hyes'⟩
    · exact fun haccepted => hno' (hb'.2.trans haccepted.valid)
  · exact fun haccepted => hno (hb.2.trans haccepted.same)

/-- The process looks at its memory. -/
theorem memory_remembers :
    Alone i env (fun st => F st.1 ∧ Remembers v st) memory
      (fun m t => m.view = v ∧ F t.1 ∧ Remembers v t) (fun _ _ => False) :=
  memory_meets.on_return fun m t ht => ⟨by rw [← ht.1]; exact ht.2.2, ht.2⟩

variable {h : Host κ} {b : Bool} {e : RaisedError} {info : RunInfo} {plan : DeploymentPlan}

theorem ensure_no_active_run_meets :
    Alone i env (fun st => st.1 = h ∧ Remembers (false, l, runs) st)
      ensure_no_active_run (fun _ t => Idle runs ∧ t.1 = h ∧ Remembers (false, l, runs) t)
      (fun _ t => ¬ Idle runs ∧ t.1 = h ∧ Remembers (false, l, runs) t) := by
  refine alone_bind (alone_returns (memory_remembers (F := (· = h)))) fun m => Meets.given fun hm => ?_
  have hruns : m.runs = runs := congrArg (fun v => v.2.2) hm
  rw [hruns]
  simp only
  cases hactive : List.insertionSort (· ≤ ·) ((runs.entries.filter fun e =>
      e.2.info.state ≠ .stopped).map fun e => e.2.info.id) with
  | nil =>
    refine alone_pure fun t ht => ⟨fun e he => ?_, ht⟩
    by_contra hstate
    have hmem : e.2.info.id ∈ List.insertionSort (· ≤ ·) ((runs.entries.filter fun e =>
        e.2.info.state ≠ .stopped).map fun e => e.2.info.id) :=
      (List.perm_insertionSort _ _).mem_iff.mpr
        (List.mem_map_of_mem (List.mem_filter.mpr ⟨he, decide_eq_true hstate⟩))
    rw [hactive] at hmem
    cases hmem
  | cons id rest =>
    refine alone_raise fun t ht => ⟨fun hidle => ?_, ht⟩
    have hmem : id ∈ List.insertionSort (· ≤ ·) ((runs.entries.filter fun e =>
        e.2.info.state ≠ .stopped).map fun e => e.2.info.id) := by
      rw [hactive]
      exact List.mem_cons_self
    obtain ⟨e, he, -⟩ := List.mem_map.mp ((List.perm_insertionSort _ _).mem_iff.mp hmem)
    obtain ⟨he, hstate⟩ := List.mem_filter.mp he
    exact of_decide_eq_true hstate (hidle e he)

/-- The factory's id. -/
theorem run_id_meets : Alone i env P (host .run_id)
      (fun (id : String) t => (raises env .run_id = none ∧ id = (env .run_id).name) ∧ P t)
      (fun e t => raises env .run_id = some e ∧ P t) :=
  @reply_meets _ _ i env P .run_id "" (fun _ _ => .ok (env .run_id).name) (fun _ _ => rfl) _ _
    (fun hnone _ hst => ⟨⟨hnone, rfl⟩, hst⟩) fun _ he _ hst => ⟨he, hst⟩

theorem new_run_id_meets :
    Alone i env (fun st => st.1 = h ∧ Remembers (false, l, runs) st) new_run_id
      (fun id t => (Named env runs ∧ id = (env .run_id).name) ∧ t.1 = h ∧ Remembers (false, l, runs) t)
      (fun _ t => ¬ Named env runs ∧ t.1 = h ∧ Remembers (false, l, runs) t) := by
  refine alone_bind (run_id_meets.on_raise fun e t ht => ⟨?_, ht.2⟩)
    fun id => Meets.given ?_
  · intro hnamed
    rw [hnamed.made] at ht
    cases ht.1
  rintro ⟨hmade, rfl⟩
  refine Meets.ite (fun hempty => alone_raise fun t ht => ⟨fun hnamed => hnamed.nonempty hempty, ht⟩)
    fun hnonempty => alone_bind (alone_returns (memory_remembers (F := (· = h)))) fun m => Meets.given fun hm => ?_
  have hruns : m.runs = runs := congrArg (fun v => v.2.2) hm
  rw [hruns]
  exact Meets.ite (fun hmem => alone_raise fun t ht => ⟨fun hnamed => hnamed.fresh hmem, ht⟩)
    fun hfresh => alone_pure fun t ht => ⟨⟨⟨hmade, hnonempty, hfresh⟩, rfl⟩, ht⟩

/-- The process changes what it remembers. -/
theorem change_meets {f : Memory → Memory} {l' : DeployLocals} {runs' : Dict String MininetRun}
    (hf : ∀ m, m.deploying = l → m.runs = runs → (f m).view.2 = (l', runs')) :
    Alone i env (fun st => F st.1 ∧ Remembers (b, l, runs) st)
      (memory >>= fun m => remember (f m))
      (fun _ t => F t.1 ∧ Remembers (b, l', runs') t) (fun _ _ => False) := by
  refine alone_bind memory_remembers fun m => remember_meets fun st hst => ⟨hst.2.1, ?_⟩
  obtain ⟨hm, -, hst⟩ := hst
  have hacquired : st.2.acquired = b := congrArg Prod.fst hst
  exact Prod.ext hacquired (hf m (congrArg (fun v => v.2.1) hm) (congrArg (fun v => v.2.2) hm))

theorem note_meets :
    Alone i env (fun st => F st.1 ∧ Remembers (b, l, runs) st) (note f)
      (fun _ t => F t.1 ∧ Remembers (b, f l, runs) t) (fun _ _ => False) :=
  change_meets fun m hl hruns => by rw [← hl, ← hruns]; rfl

/-! ## The claim -/

/-! ### Its errors -/

theorem raises_not_store {s : HostStep} (h : raises env s = some e) : e.is_store = false := by
  obtain ⟨e', -, rfl⟩ := map_eq_some_iff.mp h
  exact e'.not_store

theorem lock_held_is_store (h : e.is_store = false) : e.kind ≠ .state_lock_held :=
  fun hkind => of_decide_eq_false h (Or.inl hkind)

theorem first_raised_not_store {steps : List HostStep} (h : first_raised env steps = some e) :
    e.is_store = false := by
  obtain ⟨s, -, hs⟩ := List.exists_of_findSome?_eq_some h
  exact raises_not_store hs

/-- No error of the store but that of `acquire` says that the lock is held. -/
theorem write_error_kind {w : Writing} (h : write_error env w = some e) :
    e.kind ≠ .state_lock_held := by
  rcases or_eq_some_iff.mp h with hfirst | ⟨-, hsecond⟩
  · exact lock_held_is_store (first_raised_not_store hfirst)
  · obtain ⟨e', he', rfl⟩ := map_eq_some_iff.mp hsecond
    by_cases hos : e'.is_os = true
    · rw [if_pos hos]
      cases hunlink : unless_missing (raises env (.write w .unlink_temporary)) with
      | none =>
        intro hkind
        cases hkind
      | some e'' => exact lock_held_is_store (raises_not_store (eq_some_of_filter_eq_some hunlink))
    · rw [if_neg hos]
      exact lock_held_is_store (first_raised_not_store he')

theorem removal_error_kind {text : String} {e' : RaisedError} (he : e.kind ≠ .state_lock_held)
    (h : removal_error text e = some e') : e'.kind ≠ .state_lock_held := by
  unfold removal_error at h
  split at h
  · cases h
  · split at h
    · split at h
      · cases h
      · cases h
        intro hkind
        cases hkind
    · cases h
      exact he

theorem clear_stopped_error_kind (h : clear_stopped_error env = some e) :
    e.kind ≠ .state_lock_held := by
  obtain ⟨e', he', h⟩ := bind_eq_some_iff.mp h
  refine removal_error_kind ?_ h
  rcases or_eq_some_iff.mp he' with hfirst | ⟨-, hsecond⟩
  · exact lock_held_is_store (raises_not_store (eq_some_of_filter_eq_some hfirst))
  · exact lock_held_is_store (raises_not_store hsecond)

theorem read_result_kind (h : read_result env record = .error e) : e.kind ≠ .state_lock_held := by
  unfold read_result at h
  cases hexists : raises env .state_exists with
  | some e' =>
    rw [hexists] at h
    cases h
    exact lock_held_is_store (raises_not_store hexists)
  | none =>
    rw [hexists] at h
    cases record with
    | none => cases h
    | some r =>
      simp only [elim_none, elim_some] at h
      split at h
      · cases hread : raises env .read_state with
        | none =>
          rw [hread] at h
          cases h
        | some e' =>
          rw [hread] at h
          cases h
          unfold reading_error
          split
          · intro hkind
            cases hkind
          · exact lock_held_is_store (raises_not_store hread)
      · cases h

/-! ### Its end -/

/-- How the body of `_claim_run` raises. -/
inductive ClaimError (i : κ) (env : Environment) (h : Host κ) (l : DeployLocals)
    (runs : Dict String MininetRun) (e : RaisedError) (st : Host κ × Memory) : Prop
  | blocked (htakes : ¬ TakesLock i env h) (hst : Remembers (false, l, runs) st)
  | reading (htakes : TakesLock i env h) (hread : read_result env h.record = .error e)
      (hst : Acquired l runs st)
  | writing (htakes : TakesLock i env h) (hread : read_result env h.record = .ok none)
      (hwrite : (clear_stopped_error env).or (write_error env .claim) = some e)
      (hst : Acquired l runs st)
  | orphaned (existing : PersistedRun) (hread : read_result env h.record = .ok (some existing))
      (hkind : e.is_store = false) (hst : Remembers (false, l, runs) st)

theorem claim_found_meets {existing : Option PersistedRun} (htakes : TakesLock i env h)
    (hread : read_result env h.record = .ok existing) :
    Alone i env (Acquired l runs) (claim_found info plan existing)
      (fun _ t => (TakesLock i env h ∧ ClaimPasses env h.record) ∧ Acquired l runs t)
      (ClaimError i env h l runs) := by
  cases existing with
  | some existing =>
    refine alone_bind (release_meets.on_raise fun e t ht => ?_) fun _ =>
      alone_raise fun t ht => .orphaned existing hread rfl ht.2
    exact .orphaned existing hread (raises_not_store ht.1) ht.2
  | none =>
    have hbody := or_meets (@clear_stopped_meets _ _ i env l runs)
      (@write_json_meets _ _ i env l runs .claim (.active { run := info, plan := plan }))
    exact hbody.post (fun _ t ht => ⟨⟨htakes, hread, ht.1⟩, ht.2⟩)
      fun e t ht => .writing htakes hread ht.1 ht.2

theorem read_state_for_error_meets :
    Alone i env (Remembers v) read_state_for_error (fun _ => Remembers v)
      (fun _ => Remembers v) := by
  intro st hst
  have hread := @read_meets _ _ i env v st.1.record
  refine alone_handle (P := fun t => t.1.record = st.1.record ∧ Remembers v t)
    (hread.post (fun _ _ h => h.2.2) fun _ _ h => h.2.2) (fun e => ?_) st ⟨rfl, hst⟩
  exact Meets.ite (fun _ => alone_pure fun _ h => h) fun _ => alone_raise fun _ h => h

/-- What `_claim_run` leaves behind when it raises. -/
def ClaimRaised (i : κ) (env : Environment) (h : Host κ) (l : DeployLocals)
    (runs : Dict String MininetRun) (st : Host κ × Memory) : Prop :=
  ¬ (TakesLock i env h ∧ ClaimPasses env h.record) ∧
    (Acquired l runs st ∧ TakesLock i env h ∧ ClaimEscapes env h.record ∨
      Remembers (false, l, runs) st ∧ ¬ (TakesLock i env h ∧ ClaimEscapes env h.record))

/-- The handlers, when the lock is not there any more. -/
theorem claim_failed_free
    (hend : ∀ st, Remembers (false, l, runs) st → ClaimRaised i env h l runs st) :
    Alone i env (Remembers (false, l, runs)) (claim_failed info e) (fun _ _ => False)
      (fun _ => ClaimRaised i env h l runs) := by
  refine Meets.ite (fun _ => ?_) fun _ => Meets.ite (fun _ => ?_) fun _ => alone_raise hend
  · exact alone_bind (read_state_for_error_meets.on_raise
      fun _ t ht => hend t ht) fun _ => alone_raise hend
  · exact alone_bind (alone_returns release_nothing) fun _ => alone_raise hend

/-- The handlers, when it is: an error of the store gives it back, and another one keeps it. -/
theorem claim_failed_locked (htakes : TakesLock i env h) (hkind : e.kind ≠ .state_lock_held)
    (hpasses : ¬ ClaimPasses env h.record)
    (hescapes : ClaimEscapes env h.record ↔ e.is_store = false) :
    Alone i env (Acquired l runs) (claim_failed info e) (fun _ _ => False)
      (fun _ => ClaimRaised i env h l runs) := by
  refine Meets.ite (fun hlock => absurd hlock hkind) fun _ => Meets.ite (fun hstore => ?_) fun hraw => ?_
  · have hend : ∀ st, Remembers (false, l, runs) st → ClaimRaised i env h l runs st := by
      refine fun st hst => ⟨fun hall => hpasses hall.2, Or.inr ⟨hst, fun hall => ?_⟩⟩
      rw [hescapes.mp hall.2] at hstore
      cases hstore
    exact alone_bind (release_meets.on_raise fun _ t ht => hend t ht.2)
      fun _ => alone_raise fun t ht => hend t ht.2
  · refine alone_raise fun st hst => ⟨fun hall => hpasses hall.2, Or.inl ⟨hst, htakes, ?_⟩⟩
    exact hescapes.mpr ((Bool.not_eq_true _).mp hraw)

theorem claim_run_meets :
    Alone i env (fun st => st.1 = h ∧ Remembers (false, l, runs) st) (claim_run info plan)
      (fun _ t => (TakesLock i env h ∧ ClaimPasses env h.record) ∧ Acquired l runs t)
      (fun _ => ClaimRaised i env h l runs) := by
  have hbody : Alone i env (fun st => st.1 = h ∧ Remembers (false, l, runs) st)
      (RunStateStore.acquire >>= fun _ => RunStateStore.read >>= claim_found info plan)
      (fun _ t => (TakesLock i env h ∧ ClaimPasses env h.record) ∧ Acquired l runs t)
      (ClaimError i env h l runs) := by
    refine alone_bind (acquire_meets.on_raise
      fun e t ht => .blocked ht.1 ht.2) fun _ => Meets.given fun htakes => ?_
    refine alone_bind (read_meets.on_raise
      fun e t ht => .reading htakes ht.1 ht.2.2) fun existing => Meets.given fun hread => ?_
    exact (claim_found_meets htakes hread).pre fun _ hst => hst.2
  refine alone_handle hbody fun e st hst => ?_
  have hhandler : Program.Ensures (alone_terms i env) (claim_failed info e)
      (ends (fun _ _ => False) fun _ => ClaimRaised i env h l runs) st := by
    cases hst with
    | blocked htakes hst =>
      refine claim_failed_free (fun t ht => ⟨fun hall => htakes hall.1, Or.inr ⟨ht, ?_⟩⟩) st hst
      exact fun hall => htakes hall.1
    | orphaned existing hread hkind hst =>
      refine claim_failed_free (fun t ht => ⟨fun hall => ?_, Or.inr ⟨ht, fun hall => ?_⟩⟩) st hst
      · rw [hall.2.free] at hread
        cases hread
      · obtain ⟨-, hescapes⟩ := hall
        cases hescapes with
        | reading e h hraw =>
          rw [hread] at h
          cases h
        | writing e hfree h hraw =>
          rw [hread] at hfree
          cases hfree
    | reading htakes hread hst =>
      refine claim_failed_locked htakes (read_result_kind hread) (fun hpasses => ?_) ⟨?_, ?_⟩ st hst
      · rw [hpasses.free] at hread
        cases hread
      · intro hescapes
        cases hescapes with
        | reading e' h hraw =>
          rw [hread] at h
          cases h
          exact hraw
        | writing e' hfree h hraw =>
          rw [hread] at hfree
          cases hfree
      · exact fun hraw => .reading e hread hraw
    | writing htakes hread hwrite hst =>
      have hkind : e.kind ≠ .state_lock_held := by
        rcases or_eq_some_iff.mp hwrite with hclear | ⟨-, hwrite⟩
        · exact clear_stopped_error_kind hclear
        · exact write_error_kind hwrite
      refine claim_failed_locked htakes hkind (fun hpasses => ?_) ⟨?_, ?_⟩ st hst
      · rw [hpasses.written] at hwrite
        cases hwrite
      · intro hescapes
        cases hescapes with
        | reading e' h hraw =>
          rw [hread] at h
          cases h
        | writing e' hfree h hraw =>
          rw [hwrite] at h
          cases h
          exact hraw
      · exact fun hraw => .writing e hread hwrite hraw
  refine hhandler.mono fun r t hr => ?_
  cases r with
  | ok _ => exact hr.elim
  | error e => exact hr

/-! ## Bringing the network up -/

/-- The locals are noted and nothing else. -/
theorem note_remembers : Alone i env (Remembers (b, l, runs)) (note f)
      (fun _ => @Remembers κ (b, f l, runs)) (fun _ _ => False) :=
  (note_meets (F := fun _ => True)).mono (fun _ h => ⟨trivial, h⟩) (fun _ _ h => h.2) fun _ _ h => h

/-- The locals of a deploy that holds the lock, with a network or without. -/
def HasNetwork (b : Bool) (runs : Dict String MininetRun) (st : Host κ × Memory) : Prop :=
  ∃ l : DeployLocals, l.network = b ∧ Acquired l runs st

omit [DecidableEq κ] in
theorem HasNetwork.of_remembers (h : Acquired l runs st) (hl : l.network = b) :
    HasNetwork b runs st := ⟨l, hl, h⟩

theorem bring_up_meets (hl : l.network = true) :
    Alone i env (Acquired l runs) (bring_up info plan)
      (fun _ _ => ¬ BuildFails env) (fun _ t => BuildFails env ∧ @HasNetwork κ true runs t) := by
  have hbuild := @plain_meets _ _ i env (Acquired l runs) .build_network info.id
    (Acquired l runs) rfl fun st hst => hst
  have hstart := fun l => @perform_all_meets _ _ i env (Acquired l runs) ""
    [.start_network, .observation_factory, .action_factory] (by simp [HostStep.plain])
    (remembers_effect (by simp))
  refine alone_bind (hbuild.on_raise fun e t ht =>
    ⟨.building (by rw [ht.1]; simp), HasNetwork.of_remembers ht.2 hl⟩) fun _ => Meets.given fun hbuild => ?_
  refine alone_bind (lists_meets.on_raise fun e t ht =>
    ⟨.listing (by rw [ht.1]; simp), HasNetwork.of_remembers ht.2 hl⟩) fun groups => Meets.given fun hlist => ?_
  refine alone_bind (alone_returns note_remembers) fun _ => ?_
  refine alone_bind (write_json_meets.on_raise fun e t ht =>
    ⟨.recording (by rw [ht.1]; simp), HasNetwork.of_remembers ht.2 hl⟩) fun _ => Meets.given fun hrecord => ?_
  refine alone_bind ((hstart _).on_raise fun e t ht =>
    ⟨.starting (by rw [ht.1]; simp), HasNetwork.of_remembers ht.2 hl⟩) fun _ => Meets.given fun hstart => ?_
  refine alone_bind (asks_meets.on_raise fun e t ht =>
    ⟨.asking (by rw [ht.1]; simp), HasNetwork.of_remembers ht.2 hl⟩) fun b => Meets.given fun hask => ?_
  refine alone_bind (require_meets.on_raise fun e t ht =>
    ⟨.unavailable (hask.2.symm.trans ht.1.1), HasNetwork.of_remembers ht.2 hl⟩) fun _ => Meets.given fun hup => ?_
  refine alone_bind (alone_returns note_remembers) fun _ => ?_
  refine write_json_meets.post (fun _ t ht hfails => ?_) fun e t ht =>
    ⟨.publishing (by rw [ht.1]; simp), HasNetwork.of_remembers ht.2 hl⟩
  cases hfails with
  | building h => exact h hbuild
  | listing h => exact h hlist
  | recording h => exact h hrecord
  | starting h => exact h hstart
  | asking h => exact h hask.1
  | unavailable h =>
    rw [← hask.2, hup] at h
    cases h
  | publishing h => exact h ht.1

/-- How the body of `deploy` ends: raising, it has a network exactly when one was created. -/
theorem deploying_meets (hl : l.network = false) :
    Alone i env (Acquired l runs) (deploying info plan)
      (fun _ _ => ¬ BuildFails env) (fun _ t => ¬ NetworkCreated env ∧ @HasNetwork κ false runs t ∨
        (NetworkCreated env ∧ BuildFails env) ∧ HasNetwork true runs t) := by
  have hbindings := @plain_meets _ _ i env (Acquired l runs) .bindings ""
    (Acquired l runs) rfl fun st hst => hst
  have hcreate := fun l => @plain_meets _ _ i env (Acquired l runs) .create_network ""
    (Acquired l runs) rfl fun st hst => hst
  refine alone_bind (hbindings.on_raise fun e t ht =>
    Or.inl ⟨fun hc => ?_, HasNetwork.of_remembers ht.2 hl⟩) fun _ => Meets.given fun hbound => ?_
  · rw [hc.bound] at ht
    cases ht.1
  refine alone_bind (asks_meets.on_raise fun e t ht =>
    Or.inl ⟨fun hc => ?_, HasNetwork.of_remembers ht.2 hl⟩) fun b => Meets.given fun hasked => ?_
  · rw [hc.asked] at ht
    cases ht.1
  refine alone_bind (require_meets.on_raise fun e t ht =>
    Or.inl ⟨fun hc => ?_, HasNetwork.of_remembers ht.2 hl⟩) fun _ => Meets.given fun hunused => ?_
  · rw [hasked.2, hc.unused] at ht
    cases ht.1.1
  refine alone_bind (alone_returns note_remembers) fun _ => ?_
  refine alone_bind ((hcreate _).on_raise fun e t ht =>
    Or.inl ⟨fun hc => ?_, HasNetwork.of_remembers ht.2 hl⟩) fun _ => Meets.given fun hcreated => ?_
  · rw [hc.created] at ht
    cases ht.1
  refine alone_bind (alone_returns note_remembers) fun _ => ?_
  exact (bring_up_meets rfl).on_raise fun e t ht =>
    Or.inr ⟨⟨⟨hbound, hasked.1, hasked.2.symm.trans hunused, hcreated⟩, ht.1⟩, ht.2⟩

/-! ## The handler -/

theorem rollback_meets {run_id : String} (hyes : (env (.asks .network_truth)).yes = true)
    (htruth : raises env (.asks .network_truth) = none) :
    Alone i env (Acquired l runs) (rollback run_id)
      (fun _ t => ¬ RollbackInterrupted env ∧ @Remembers κ (true, l, runs) t)
      (fun _ t => RollbackInterrupted env ∧ Acquired l runs t) := by
  have hstop := @plain_meets _ _ i env (Acquired l runs) .stop_network run_id
    (Acquired l runs) rfl fun st hst => by
      unfold Acquired Remembers at hst ⊢
      rw [(HostStep.effect_quiet i (by decide) (by decide) ..).1]
      exact hst
  have hremove := @plain_meets _ _ i env (Acquired l runs) .remove_owned_artifacts run_id
    (Acquired l runs) rfl fun st hst => by
      unfold Acquired Remembers at hst ⊢
      rw [(HostStep.effect_quiet i (by decide) (by decide) ..).1]
      exact hst
  refine alone_bind ((suppressed_meets hstop).on_raise
    fun e t ht => ⟨.stop e hyes (interrupt_eq_some.mp ht.1).1 (interrupt_eq_some.mp ht.1).2, ht.2⟩)
    fun _ => Meets.given fun hstopped => ?_
  refine alone_bind ((suppressed_meets hremove).on_raise
    fun e t ht => ⟨.artifacts e hyes (interrupt_eq_some.mp ht.1).1 (interrupt_eq_some.mp ht.1).2, ht.2⟩)
    fun _ => Meets.given fun hremoved => alone_pure fun t ht => ⟨fun hinterrupted => ?_, ht⟩
  cases hinterrupted with
  | truth h => exact h htruth
  | stop e _ h hkind =>
    have hsome := interrupt_eq_some.mpr ⟨h, hkind⟩
    rw [hstopped.1] at hsome
    cases hsome
  | artifacts e _ h hkind =>
    have hsome := interrupt_eq_some.mpr ⟨h, hkind⟩
    rw [hremoved.1] at hsome
    cases hsome

theorem roll_back_network_meets (hl : l.network = true) :
    Alone i env (Acquired l runs) (roll_back_network l)
      (fun _ t => ¬ RollbackInterrupted env ∧ @Remembers κ (true, l, runs) t)
      (fun _ t => RollbackInterrupted env ∧ Acquired l runs t) := by
  refine Meets.ite (fun _ => ?_) fun h => absurd hl h
  refine alone_bind (asks_meets.on_raise fun e t ht =>
    ⟨.truth (by rw [ht.1]; simp), ht.2⟩) fun b => Meets.given fun hasked =>
      Meets.ite (fun hb => rollback_meets (hasked.2.symm.trans hb) hasked.1) fun hb =>
        alone_pure fun t ht => ⟨fun hinterrupted => ?_, ht⟩
  cases hinterrupted with
  | truth h => exact h hasked.1
  | stop e hyes h hkind => exact hb (hasked.2.trans hyes)
  | artifacts e hyes h hkind => exact hb (hasked.2.trans hyes)

theorem roll_back_nothing (hl : l.network = false) :
    Alone i env (@Remembers κ (true, l, runs)) (roll_back_network l)
      (fun _ => Acquired l runs) (fun _ _ => False) := by
  refine Meets.ite (fun h => ?_) fun _ => alone_pure fun _ ht => ht
  rw [hl] at h
  cases h

/-- The failed deploy is settled: the lock is given back whatever happens. -/
theorem settle_failed_deploy_meets {groups : List ℕ} :
    Alone i env (Acquired l runs) (settle_failed_deploy info plan groups rollback_error)
      (fun _ => @Remembers κ (false, l, runs)) (fun _ => Remembers (false, l, runs)) := by
  have hrecord : Alone i env (Acquired l runs)
      (settle_record info plan groups rollback_error) (fun _ => Acquired l runs)
      (fun _ => Acquired l runs) := by
    cases rollback_error with
    | none => exact clear_meets.right
    | some e =>
      refine alone_bind (Q := fun _ => Acquired l runs) (Meets.ite (fun _ =>
        alone_raise fun _ h => h) fun _ => alone_pure fun _ h => h) fun issue => ?_
      exact write_json_meets.right
  have hsettled : Alone i env (Acquired l runs)
      ((settle_record info plan groups rollback_error).attempt >>= settled)
      (fun _ => Acquired l runs) (fun _ => Acquired l runs) :=
    hrecord.attempt (fun _ => alone_pure fun _ h => h) fun e =>
      Meets.ite (fun _ => alone_pure fun _ h => h) fun _ => alone_raise fun _ h => h
  have hrelease : Alone i env (Acquired l runs) RunStateStore.release
      (fun _ => Remembers (false, l, runs)) (fun _ => Remembers (false, l, runs)) :=
    release_meets.right
  exact hsettled.eventually (fun _ => hrelease) (fun _ => hrelease)
    (fun _ => Terms.alone_stable _ _) fun _ => Terms.alone_stable _ _

/-- The handler after the rollback. -/
theorem deploy_settled_meets : Alone i env (Acquired l runs) (do
        let state_error ← settle_failed_deploy l.info plan l.process_groups rollback_error
        let undone := rollback_error.isNone && state_error.isNone
        if e.is_exception = false ∧ undone = true then
          .raise e
        else if e.kind = .operation ∧ undone = true then
          .raise { e with cleanup := legacy_cleanup plan, effects := deploy_effects l }
        else
          .raise (operation_error "runtime.deploy.failed" (deploy_text e rollback_error state_error)
            (some info.id) (deploy_effects l) (legacy_cleanup plan)) : HostRoutine Unit)
      (fun _ _ => False) (fun _ => @Remembers κ (false, l, runs)) :=
  alone_bind settle_failed_deploy_meets fun _ => Meets.ite (fun _ => alone_raise fun _ ht => ht)
    fun _ => Meets.ite (fun _ => alone_raise fun _ ht => ht) fun _ => alone_raise fun _ ht => ht

omit [DecidableEq κ] in
theorem not_acquired {F : Prop} (hnot : ¬ F) (hst : Remembers (false, l, runs) st) :
    st.2.acquired = true ↔ F := by
  refine iff_of_false ?_ hnot
  rw [show st.2.acquired = false from congrArg Prod.fst hst]
  decide

theorem deploy_failed_meets :
    Alone i env (HasNetwork b runs) (deploy_failed info plan e) (fun _ _ => False)
      (fun _ t => t.2.acquired = true ↔ b = true ∧ RollbackInterrupted env) := by
  rintro st ⟨l, hl, hst⟩
  refine (alone_bind (alone_returns (memory_remembers (F := fun _ => True))) fun m =>
    Meets.given fun hm => ?_ : Alone i env (fun t => True ∧ Acquired l runs t)
      (deploy_failed info plan e) _ _) st ⟨trivial, hst⟩
  have hlocals : m.deploying = l := congrArg (fun v => v.2.1) hm
  rw [hlocals]
  cases b with
  | false =>
    refine alone_bind (alone_returns ((roll_back_nothing hl).pre fun _ ht => ht.2)) fun _ => ?_
    refine deploy_settled_meets.on_raise fun _ t ht => ?_
    exact not_acquired (fun hall => by cases hall.1) ht
  | true =>
    refine alone_bind (((roll_back_network_meets hl).pre fun _ ht => ht.2).on_raise fun _ t ht => ?_) fun _ => Meets.given fun hdone => ?_
    · exact iff_of_true (congrArg Prod.fst ht.2) ⟨rfl, ht.1⟩
    · refine deploy_settled_meets.on_raise fun _ t ht => ?_
      exact not_acquired (fun hall => hdone hall.2) ht

/-! ## Deploying -/

theorem ClaimPasses.no_escape (h : ClaimPasses env record) : ¬ ClaimEscapes env record := by
  intro hescapes
  cases hescapes with
  | reading e hread _ =>
    rw [h.free] at hread
    cases hread
  | writing e _ hwrite _ =>
    rw [h.written] at hwrite
    cases hwrite

/-- What follows a claim. -/
theorem deploy_claimed_meets (hl : l.network = false) (hreached : ReachesClaim env runs)
    (htakes : TakesLock i env h) (hpasses : ClaimPasses env h.record) :
    Alone i env (Acquired l runs) ((deploying info plan).handle (deploy_failed info plan))
      (fun _ _ => ¬ DeployKeepsLock i env h runs)
      (fun _ t => t.2.acquired = true ↔ DeployKeepsLock i env h runs) := by
  refine alone_handle ((deploying_meets hl).on_return fun _ t hnot hkeeps => ?_) fun e => ?_
  · rcases hkeeps.kept with hescapes | ⟨-, -, hfails, -⟩
    · exact hpasses.no_escape hescapes
    · exact hnot hfails
  rintro st (⟨hnone, hst⟩ | ⟨⟨hcreated, hfails⟩, hst⟩)
  · refine (deploy_failed_meets st hst).mono fun r t hr => ?_
    cases r with
    | ok _ => exact hr.elim
    | error e =>
      refine hr.trans (iff_of_false (fun hall => by cases hall.1) fun hkeeps => ?_)
      rcases hkeeps.kept with hescapes | ⟨-, hcreated, -, -⟩
      · exact hpasses.no_escape hescapes
      · exact hnone hcreated
  · refine (deploy_failed_meets st hst).mono fun r t hr => ?_
    cases r with
    | ok _ => exact hr.elim
    | error e =>
      refine hr.trans ⟨fun hall => ?_, fun hkeeps => ?_⟩
      · exact ⟨hreached, htakes, Or.inr ⟨hpasses, hcreated, hfails, hall.2⟩⟩
      · rcases hkeeps.kept with hescapes | ⟨-, -, -, hinterrupted⟩
        · exact absurd hescapes hpasses.no_escape
        · exact ⟨rfl, hinterrupted⟩

/-- How a deploy that raises leaves the lock stream. -/
theorem deploy_meets {h : Host κ} {plan : DeploymentPlan} :
    Alone i env (fun st => st.1 = h ∧ Remembers (false, l, runs) st) (deploy plan)
      (fun _ _ => ¬ DeployKeepsLock i env h runs)
      (fun _ t => t.2.acquired = true ↔ DeployKeepsLock i env h runs) := by
  refine alone_bind (validate_plan_meets.on_raise fun _ t ht =>
    not_acquired (fun hkeeps => ht.1 hkeeps.reached.accepted) ht.2.2) fun _ =>
      Meets.given fun haccepted => ?_
  refine alone_bind (ensure_no_active_run_meets.on_raise fun _ t ht =>
    not_acquired (fun hkeeps => ht.1 hkeeps.reached.idle) ht.2.2) fun _ => Meets.given fun hidle => ?_
  refine alone_bind (new_run_id_meets.on_raise fun _ t ht =>
    not_acquired (fun hkeeps => ht.1 hkeeps.reached.named) ht.2.2) fun run_id =>
      Meets.given fun hnamed => ?_
  have hclock := @plain_meets _ _ i env (fun st => st.1 = h ∧ Remembers (false, l, runs) st) .clock ""
    (fun st => st.1 = h ∧ Remembers (false, l, runs) st) rfl fun st hst => hst
  refine alone_bind (hclock.on_raise fun e t ht =>
    not_acquired (fun hkeeps => ?_) ht.2.2) fun _ => Meets.given fun htimed => ?_
  · rw [hkeeps.reached.timed] at ht
    cases ht.1
  have hreached : ReachesClaim env runs := ⟨haccepted, hidle, hnamed.1, htimed⟩
  refine alone_bind (alone_returns (note_meets (F := (· = h)))) fun _ => ?_
  refine alone_bind (claim_run_meets.on_raise fun _ t ht => ?_) fun _ =>
    Meets.given fun hclaimed => ?_
  · obtain ⟨hnot, hkept | hfree⟩ := ht
    · exact iff_of_true (congrArg Prod.fst hkept.1) ⟨hreached, hkept.2.1, Or.inl hkept.2.2⟩
    · refine not_acquired (fun hkeeps => ?_) hfree.1
      rcases hkeeps.kept with hescapes | ⟨hpasses, -⟩
      · exact hfree.2 ⟨hkeeps.taken, hescapes⟩
      · exact hnot ⟨hkeeps.taken, hpasses⟩
  refine alone_bind (deploy_claimed_meets rfl hreached hclaimed.1 hclaimed.2) fun _ => ?_
  refine alone_bind (alone_returns (memory_meets.on_return fun _ _ h => h.2))
    fun m => ?_
  refine alone_bind (alone_returns (remember_meets (Q := fun _ => ¬ DeployKeepsLock i env h runs)
    fun _ h => h)) fun _ => ?_
  refine alone_bind (Q := fun _ _ => ¬ DeployKeepsLock i env h runs) ?_ fun _ => alone_pure fun _ h => h
  rintro st hst t rfl r u hact
  cases hact
  exact ⟨trivial, fun v _ => hst⟩

/-! ## The kernel's lock -/

/-- The lock stream of a process is there exactly when the kernel's lock is the process's. -/
def LockAgrees (i : κ) (st : Host κ × Memory) : Prop := st.2.acquired = true ↔ st.1.lock = some i

theorem alone_lock_agrees (i : κ) (env : Environment) :
    ∀ o st, LockAgrees i st → LockAgrees i (HostOp.alone i env o st).2 := by
  rintro o ⟨h, m⟩ hst
  cases o with
  | get => exact hst
  | put m' => exact hst
  | hand_over run => exact hst
  | host s run =>
    show LockAgrees i (s.effect i run h m (env s))
    by_cases hflock : s = .flock
    · subst hflock
      rcases HostStep.flock_effect i run h m (env .flock) with heq | ⟨-, heq⟩
      · rw [heq]
        exact hst
      · rw [heq]
        exact iff_of_true rfl rfl
    by_cases hunlock : s = .unlock
    · subst hunlock
      rcases HostStep.unlock_effect i run h m (env .unlock) with ⟨-, heq⟩ | ⟨-, heq⟩
      · rw [heq]
        exact hst
      · rw [heq]
        exact iff_of_false Bool.false_ne_true nofun
    obtain ⟨hmemory, hlock⟩ := HostStep.effect_quiet i hflock hunlock run h m (env s)
    unfold LockAgrees
    rw [hmemory, hlock]
    exact hst

/-- A deploy that raises, of a process that does not hold the lock, leaves it not held unless it
keeps the lock. -/
theorem deploy_releases_iff (i : κ) (env : Environment) (plan : DeploymentPlan) (h : Host κ) (m : Memory)
    (hfree : m.acquired = false) (hlock : h.lock ≠ some i) :
    (∀ e, ((deploy plan).run (HostOp.alone i env) (h, m)).1 = .error e →
      ((deploy plan).run (HostOp.alone i env) (h, m)).2.1.lock ≠ some i) ↔
    ¬ DeployKeepsLock i env h m.runs := by
  have hend := (@deploy_meets _ _ i env m.deploying m.runs _ plan).run
    (I := HostOp.alone i env) (s := (h, m)) ⟨rfl, by unfold Remembers Memory.view; rw [hfree]⟩
  have hagrees : LockAgrees i ((deploy plan).run (HostOp.alone i env) (h, m)).2 :=
    Program.run_keeps _ (alone_lock_agrees i env) (deploy plan) (iff_of_false (by rw [hfree]; decide) hlock)
  cases hresult : ((deploy plan).run (HostOp.alone i env) (h, m)).1 with
  | ok info =>
    rw [hresult] at hend
    exact iff_of_true (fun e he => by cases he) hend
  | error e =>
    rw [hresult] at hend
    constructor
    · intro hall hkeeps
      exact hall e rfl (hagrees.mp (hend.mpr hkeeps))
    · intro hkeeps e' _ hheld
      exact hkeeps (hend.mp (hagrees.mpr hheld))

end

/-! ## Two deploys -/

/-- A plan without resources. -/
def no_resources : DeploymentPlan where
  resources := []
  agents := []
  mode := .independent
  edges := []
  require_postcondition_check := false
  blueprints := []
  capability_definitions := []

/-- An error of the operating system. -/
def no_space : HostError where
  kind := .os_error
  text := "No space left on device"
  not_store := rfl

/-- Every step passes but one. -/
def failing (s : HostStep) : Environment := fun t => if t = s then { raised := some no_space } else {}

/-- The bindings fail: the lock is given back. -/
theorem deploy_releases_without_bindings :
    ∃ e, ((deploy no_resources).run (HostOp.alone () (failing .bindings)) ({}, {})).1 = .error e ∧
      ((deploy no_resources).run (HostOp.alone () (failing .bindings)) ({}, {})).2.1.lock ≠ some () := by
  have hreleases := (deploy_releases_iff () (failing .bindings) no_resources {} {} rfl (by decide)).mpr
    fun hkeeps => by
      rcases hkeeps.kept with hescapes | ⟨-, hcreated, -⟩
      · have hpasses : ClaimPasses (failing .bindings) none := ⟨rfl, rfl⟩
        exact hpasses.no_escape hescapes
      · cases hcreated.bound
  exact ⟨_, rfl, hreleases _ rfl⟩

/-- The state directory cannot be made: the lock is kept. -/
theorem deploy_keeps_lock : ¬ ∀ (env : Environment) (plan : DeploymentPlan) (h : Host Unit) (m : Memory),
    m.acquired = false → h.lock ≠ some () →
      ∀ e, ((deploy plan).run (HostOp.alone () env) (h, m)).1 = .error e →
        ((deploy plan).run (HostOp.alone () env) (h, m)).2.1.lock ≠ some () := by
  intro hclaim
  have hraises : ((deploy no_resources).run
      (HostOp.alone () (failing (.write .claim .make_directory))) ({}, {})).1 =
        .error no_space.toRaisedError := rfl
  exact hclaim _ no_resources {} {} rfl (by decide) _ hraises rfl

end MininetAi
