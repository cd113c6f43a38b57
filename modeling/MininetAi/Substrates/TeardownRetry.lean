/-
Which failed teardowns their owner can retry.

The handler of a failed teardown writes a failed record and gives the lock back, and the
next teardown starts by writing a record, which it cannot do without the lock. A later
call succeeds, therefore, only when the handler was left before it gave the lock back.
-/
import MininetAi.Substrates.DeployLock

set_option autoImplicit false

namespace MininetAi

open Option RunStateStore

open Routine MininetOVSRuntime

/-! ## The conditions -/

/-- What the cleanup operations raise together: the first one that is not an `Exception`, or
else all of them. -/
def cleanup_error (env : Environment) : Option RaisedError :=
  (cleanup_steps.findSome? fun s => interrupt (raises env s)).or
    (if cleanup_steps.filterMap (raises env) = [] then none
      else some (cleanup_failed (cleanup_steps.filterMap (raises env))))

/-- What the body of `teardown` raises while the lock is held. -/
def stopping_error (env : Environment) : Option RaisedError :=
  ((raises env (.lists (.owned .stopping))).or (write_error env .stopping)).or
    ((cleanup_error env).or
      ((raises env .clock).or ((write_error env .stopped).or (clear_error env))))

/-- `clear` removes the record. -/
structure Clears (env : Environment) : Prop where
  listed : raises env .unlink_temporaries = none
  unlinked : (env .unlink_state).effective = true

/-- The failed record raises something that is not an error of the store. -/
def FailedRecordEscapes (env : Environment) : Prop :=
  ∃ e, (raises env (.lists (.owned .teardown_failed))).or (write_error env .teardown_failed) = some e ∧
    e.is_store = false

/-- A call that fails and keeps the lock: what it fails with is not an `Exception`, or it has no
text for an issue, or the failed record cannot be written for a reason that is not the store's. -/
def KeepsLock (env : Environment) : Prop :=
  ∃ e, stopping_error env = some e ∧ (e.is_exception = false ∨ e.text = "" ∨ FailedRecordEscapes env)

/-- A call that holds the lock and does everything. -/
structure Completes (env : Environment) : Prop where
  stopped : stopping_error env = none
  cleared : Clears env
  released : raises env .unlock = none

/-- What remains to be done when the cleanup operations succeed. -/
structure Finishes (env : Environment) : Prop where
  recorded : (raises env (.lists (.owned .stopping))).or (write_error env .stopping) = none
  ended : (raises env .clock).or ((write_error env .stopped).or (clear_error env)) = none
  cleared : Clears env
  released : raises env .unlock = none

/-- After some calls, the last one finds the lock and finishes, or one before it has. -/
def Recoverable : List Environment → Environment → Prop
  | [], last => Finishes last
  | env :: rest, last => Completes env ∨ KeepsLock env ∧ Recoverable rest last

/-! ## The calls -/

section

variable {κ : Type} [DecidableEq κ] (i : κ) (run_id : String)

/-- Teardowns of one run by one process. -/
def teardowns : List Environment → Host κ × Memory → Host κ × Memory
  | [], st => st
  | env :: rest, st => teardowns rest ((teardown run_id).run (HostOp.alone i env) st).2

/-- The process owns the run: it has it in memory, the run is active, and it holds the lock. -/
structure Owns (st : Host κ × Memory) (run : MininetRun) : Prop where
  found : st.2.runs.lookup run_id = some run
  named : run.info.id = run_id
  active : run.info.state ≠ .stopped
  acquired : st.2.acquired = true
  locked : st.1.lock = some i

/-- A call returns `STOPPED`, without a record and without the lock. -/
def StopsRun (env : Environment) (st : Host κ × Memory) : Prop :=
  ∃ result, ((teardown run_id).run (HostOp.alone i env) st).1 = .ok result ∧
    result.run.state = .stopped ∧
    ((teardown run_id).run (HostOp.alone i env) st).2.1.record = none ∧
    ((teardown run_id).run (HostOp.alone i env) st).2.1.lock ≠ some i

/-! ## One call -/

variable {i run_id} {env : Environment} {l : DeployLocals} {runs : Dict String MininetRun}

/-- There is a record. -/
def Recorded (h : Host κ) : Prop := h.record.isSome = true

omit [DecidableEq κ] in
theorem Recorded.store {h : Host κ} (hrecord : Recorded h) (c : Option StoredRecord) :
    Recorded (h.store c) := by
  cases c with
  | none => exact hrecord
  | some c =>
    cases c with
    | active r => exact rfl
    | stopped r => exact hrecord

variable {w : Writing} {b : Bool}

theorem recorded_write (s : WriteStep) (st : Host κ × Memory) (h : Recorded st.1) :
    Recorded ((HostStep.write w s).effect i "" st.1 st.2 (env (.write w s))).1 := by
  cases s with
  | replace =>
    show Recorded (if (env (.write w .replace)).effective = true then st.1.store st.2.temporary else st.1)
    split
    · exact h.store st.2.temporary
    · exact h
  | _ => exact h

/-- Writing a record leaves one. -/
theorem write_records {record : PersistedRun} :
    Alone i env (Acquired l runs) (write w record) (fun _ t => Recorded t.1) (fun _ _ => True) := by
  let T : Host κ × Memory → Prop := fun st => st.2.temporary = some (.active record)
  have hunguarded := @perform_all_meets _ _ i env (Acquired l runs) ""
    (unguarded_steps w) (by simp [unguarded_steps, HostStep.plain])
    (remembers_effect (by simp [unguarded_steps]))
  have hquiet := fun s (hs : s ≠ WriteStep.replace) => @plain_meets _ _ i env T (.write w s) "" T rfl
    fun st hst => by
      show T _
      unfold T
      rw [(HostStep.effect_quiet i (by simp) (by simp) ..).1]
      exact hst
  have hreplace : Alone i env T (host (.write w .replace)) (fun _ t => Recorded t.1)
      (fun _ _ => True) := by
    refine @reply_meets _ _ i env T (.write w .replace) "" (fun _ _ => .ok ()) (fun _ _ => rfl) _ _
      (fun hnone st hst => ?_) fun _ _ _ _ => trivial
    have heffective : (env (.write w .replace)).effective = true := by
      unfold Answer.effective
      rw [raises_none.mp hnone]
      rfl
    show Recorded (if (env (.write w .replace)).effective = true then st.1.store st.2.temporary else st.1)
    rw [if_pos heffective, show st.2.temporary = some (.active record) from hst]
    rfl
  have hsync := @plain_meets _ _ i env (fun st => Recorded st.1) (.write w .sync_directory) ""
    (fun st => Recorded st.1) rfl fun st hst => hst
  have hguarded : Alone i env T (perform_all "" (guarded_steps w))
      (fun _ t => Recorded t.1) (fun _ _ => True) := by
    refine alone_bind ((hquiet .temporary_mode (by decide)).post (fun _ _ h => h.2)
      fun _ _ _ => trivial) fun _ => ?_
    refine alone_bind ((hquiet .write_temporary (by decide)).post (fun _ _ h => h.2)
      fun _ _ _ => trivial) fun _ => ?_
    refine alone_bind hreplace fun _ => ?_
    refine alone_bind (hsync.post (fun _ _ h => h.2) fun _ _ _ => trivial) fun _ =>
      alone_pure fun _ h => h
  have hhandler : ∀ e, Alone i env (fun _ : Host κ × Memory => True)
      (unwritable w e) (fun _ t => Recorded t.1) (fun _ _ => True) := by
    refine fun e => Meets.ite (fun _ => ?_) fun _ => alone_raise fun _ _ => trivial
    exact alone_bind ((unlink_meets (Q := fun _ => True) rfl fun _ _ => trivial).post
      (fun _ _ _ => trivial) fun _ _ _ => trivial) fun _ => alone_raise fun _ _ => trivial
  refine alone_bind (alone_returns ((require_lock_meets (F := fun _ => True)).pre
    fun _ h => ⟨trivial, h⟩)) fun _ => ?_
  refine alone_bind ((hunguarded.pre fun _ h => h.2).post (fun _ _ h => h.2)
    fun _ _ _ => trivial) fun _ => ?_
  refine alone_bind (alone_returns ((dump_meets (F := fun _ => True)).pre fun _ h => ⟨trivial, h⟩))
    fun _ => ?_
  exact alone_handle (hguarded.pre fun _ h => h.1) hhandler

theorem clear_clears :
    Alone i env (fun st => Recorded st.1 ∧ Acquired l runs st)
      clear (fun _ t => t.1.record = none ↔ Clears env) (fun _ _ => True) := by
  have htemporaries := @plain_meets _ _ i env (fun st => Recorded st.1) .unlink_temporaries ""
    (fun st => Recorded st.1) rfl fun st hst => hst
  have hunlink := fun hlisted => @unlink_meets _ _ i env .unlink_state (fun st => Recorded st.1)
    (fun st => st.1.record = none ↔ Clears env) rfl fun st hst => by
      show (if (env .unlink_state).effective = true then { st.1 with record := none }
        else st.1).record = none ↔ Clears env
      by_cases heffective : (env .unlink_state).effective = true
      · rw [if_pos heffective]
        exact iff_of_true rfl ⟨hlisted, heffective⟩
      · rw [if_neg heffective]
        refine iff_of_false (fun hnone => ?_) fun hclears => heffective hclears.unlinked
        unfold Recorded at hst
        rw [hnone] at hst
        cases hst
  have hremove := @plain_meets _ _ i env (fun st => st.1.record = none ↔ Clears env) .remove_directory ""
    (fun st => st.1.record = none ↔ Clears env) rfl fun st hst => hst
  refine alone_bind (alone_returns (require_lock_meets (F := Recorded))) fun _ => ?_
  refine alone_handle (R := fun _ t => t.1.record = none ↔ Clears env) ?_ fun e => ?_
  · refine alone_bind ((htemporaries.pre fun _ h => h.1).on_raise
      fun e t ht => ?_) fun _ => Meets.given fun hlisted => ?_
    · refine iff_of_false (fun hnone => ?_) fun hclears => ?_
      · have hrecorded := ht.2
        unfold Recorded at hrecorded
        rw [hnone] at hrecorded
        cases hrecorded
      · rw [hclears.listed] at ht
        cases ht.1
    · refine alone_bind ((hunlink hlisted).on_raise fun _ _ h => h.2)
        fun _ => ?_
      exact hremove.mono (fun _ h => h.2) (fun _ _ h => h.2) fun _ _ h => h.2
  · unfold unremovable
    refine Meets.ite (fun _ => alone_pure fun _ h => h) fun _ => Meets.ite (fun _ => ?_) fun _ =>
      alone_raise fun _ _ => trivial
    exact Meets.ite (fun _ => alone_pure fun _ h => h) fun _ => alone_raise fun _ _ => trivial

variable {info : RunInfo} {plan : DeploymentPlan} {run : MininetRun}

theorem set_info_meets {F : Host κ → Prop} :
    Alone i env (fun st => F st.1 ∧ Remembers (b, l, runs) st) (set_info info plan)
      (fun _ t => F t.1 ∧
        Remembers (b, l, runs.insert info.id { info := info, plan := plan }) t) (fun _ _ => False) :=
  change_meets fun m hl hruns => by rw [← hl, ← hruns]; rfl

/-- The loop over the cleanup operations. The induction is on the operations. -/
theorem clean_up_meets {P : Host κ × Memory → Prop} {steps : List HostStep}
    (hplain : ∀ s ∈ steps, s.plain = true)
    (hP : ∀ s ∈ steps, ∀ st, P st → P (s.effect i run_id st.1 st.2 (env s))) :
    Alone i env P (clean_up run_id steps)
      (fun r t => ((steps.findSome? fun s => interrupt (raises env s)) = none ∧
        r = steps.filterMap (raises env)) ∧ P t)
      (fun e t => (steps.findSome? fun s => interrupt (raises env s)) = some e ∧ P t) := by
  induction steps with
  | nil => exact alone_pure fun _ hst => ⟨⟨rfl, rfl⟩, hst⟩
  | cons s rest ih =>
    have hstep : Alone i env P (perform_all run_id [s])
        (fun _ t => raises env s = none ∧ P t) (fun e t => raises env s = some e ∧ P t) :=
      alone_bind (plain_meets (hplain s List.mem_cons_self) (hP s List.mem_cons_self)) fun _ =>
        alone_pure fun _ hst => hst
    have hrest := ih (fun t ht => hplain t (List.mem_cons_of_mem s ht))
      fun t ht => hP t (List.mem_cons_of_mem s ht)
    refine alone_bind ((suppressed_meets hstep).on_raise
      fun e t ht => ?_) fun failure => Meets.given fun hfailure => ?_
    · rw [List.findSome?_cons, ht.1]
      exact ⟨rfl, ht.2⟩
    rw [List.findSome?_cons, hfailure.1, hfailure.2]
    refine alone_bind hrest fun errors => alone_pure fun t ht => ⟨⟨ht.1.1, ?_⟩, ht.2⟩
    rw [ht.1.2]
    cases hraised : raises env s with
    | none => rw [List.filterMap_cons_none hraised]; rfl
    | some e => rw [List.filterMap_cons_some hraised]; rfl

/-- The cleanup operations leave the record and the memory alone. -/
theorem cleanup_steps_keep {v : Bool × DeployLocals × Dict String MininetRun} :
    ∀ s ∈ cleanup_steps, ∀ st : Host κ × Memory, Recorded st.1 ∧ Remembers v st →
      Recorded (s.effect i run_id st.1 st.2 (env s)).1 ∧
        Remembers v (s.effect i run_id st.1 st.2 (env s)) := by
  unfold cleanup_steps
  simp only [List.mem_cons, List.not_mem_nil, or_false]
  rintro s (rfl | rfl | rfl) st hst
  all_goals
    refine ⟨?_, ?_⟩
    · unfold HostStep.effect
      simp only
      split
      · exact hst.1
      · exact hst.1
    · exact hst.2

/-- The body of `teardown` with the lock. -/
theorem stopping_meets :
    Alone i env (Acquired l runs) (stopping info plan)
      (fun _ t => stopping_error env = none ∧ (t.1.record = none ↔ Clears env) ∧
        Remembers (true, l, runs.insert info.id { info := { info with state := .stopping }, plan := plan }) t)
      (fun e t => stopping_error env = some e ∧
        Remembers (true, l, runs.insert info.id { info := { info with state := .stopping }, plan := plan }) t) := by
  let runs' := runs.insert info.id { info := { info with state := .stopping }, plan := plan }
  have hwrite : ∀ groups, Alone i env (Acquired l runs')
      (write_state .stopping { info with state := .stopping } plan groups)
      (fun _ t => write_error env .stopping = none ∧ Recorded t.1 ∧ Acquired l runs' t)
      (fun e t => write_error env .stopping = some e ∧ Acquired l runs' t) := fun groups =>
    (write_json_meets.and write_records).post (fun _ _ h => ⟨h.1.1, h.2, h.1.2⟩)
      fun _ _ h => h.1
  have hclean := @clean_up_meets _ _ i info.id env
    (fun st => Recorded st.1 ∧ Acquired l runs' st) cleanup_steps (by decide) cleanup_steps_keep
  have hclock := @plain_meets _ _ i env (fun st => Recorded st.1 ∧ Acquired l runs' st) .clock ""
    (fun st => Recorded st.1 ∧ Acquired l runs' st) rfl fun st hst => hst
  have hclear : Alone i env (fun st => Recorded st.1 ∧ Acquired l runs' st)
      clear
      (fun _ t => clear_error env = none ∧ (t.1.record = none ↔ Clears env) ∧
        Acquired l runs' t)
      (fun e t => clear_error env = some e ∧ Acquired l runs' t) :=
    ((clear_meets.pre fun _ h => h.2).and clear_clears).post
      (fun _ _ h => ⟨h.1.1, h.2, h.1.2⟩) fun _ _ h => h.1
  unfold stopping_error
  refine alone_bind (alone_returns ((set_info_meets (F := fun _ => True)).pre fun _ h => ⟨trivial, h⟩))
    fun _ => ?_
  refine alone_bind ((lists_meets.pre fun _ h => h.2).on_raise fun e t ht => ?_)
    fun groups => Meets.given fun hlisted => ?_
  · rw [ht.1]
    exact ⟨rfl, ht.2⟩
  rw [hlisted, none_or]
  refine alone_bind ((hwrite groups).on_raise fun e t ht => ?_) fun _ =>
    Meets.given fun hwritten => ?_
  · rw [ht.1]
    exact ⟨rfl, ht.2⟩
  rw [hwritten, none_or]
  refine alone_bind (hclean.on_raise fun e t ht => ?_) fun errors =>
    Meets.given fun hcleaned => ?_
  · unfold cleanup_error
    rw [ht.1]
    exact ⟨rfl, ht.2.2⟩
  unfold cleanup_error
  rw [hcleaned.1, none_or, ← hcleaned.2]
  refine alone_bind (require_meets.on_raise fun e t ht => ?_) fun _ =>
    Meets.given fun hempty => ?_
  · obtain ⟨⟨hsome, rfl⟩, -, ht⟩ := ht
    rw [if_neg fun hnil => by rw [hnil] at hsome; cases hsome]
    exact ⟨rfl, ht⟩
  rw [if_pos (List.isEmpty_iff.mp hempty), none_or]
  refine alone_bind (hclock.on_raise fun e t ht => ?_) fun _ =>
    Meets.given fun htimed => ?_
  · rw [ht.1]
    exact ⟨rfl, ht.2.2⟩
  rw [htimed, none_or]
  refine alone_bind ((write_json_keeps recorded_write).on_raise
    fun e t ht => ?_) fun _ => Meets.given fun hstopped => ?_
  · rw [ht.1]
    exact ⟨rfl, ht.2.2⟩
  rw [hstopped, none_or]
  exact hclear

/-- The run is in memory and active; `b` says whether the process has its lock stream. -/
def HoldsRun (run_id : String) (b : Bool) (st : Host κ × Memory) : Prop :=
  ∃ (l : DeployLocals) (runs : Dict String MininetRun) (run : MininetRun),
    Remembers (b, l, runs) st ∧ runs.lookup run_id = some run ∧ run.info.id = run_id ∧
      run.info.state ≠ .stopped

omit [DecidableEq κ] in
theorem HoldsRun.of_insert {key : String} {st : Host κ × Memory}
    (h : Remembers (b, l, runs.insert key run) st) (hkey : key = run_id)
    (hid : run.info.id = run_id) (hactive : run.info.state ≠ .stopped) : HoldsRun run_id b st := by
  refine ⟨l, _, run, h, ?_, hid, hactive⟩
  rw [← hkey]
  exact AList.lookup_insert _

/-- The call fails for `e`: what the handler is left with. -/
def Kept (env : Environment) (e : RaisedError) : Prop :=
  e.is_exception = false ∨ e.text = "" ∨ FailedRecordEscapes env

theorem failed_record_meets :
    Alone i env (Acquired l runs) (Routine.handle
        (do
          let groups ← lists (.owned .teardown_failed)
          write_state .teardown_failed info plan groups)
        (fun e => if e.is_store = true then pure () else .raise e))
      (fun _ t => ¬ FailedRecordEscapes env ∧ @Remembers κ (true, l, runs) t)
      (fun _ t => FailedRecordEscapes env ∧ Acquired l runs t) := by
  have hbody : Alone i env (Acquired l runs)
      (lists (.owned .teardown_failed) >>= fun groups => write_state .teardown_failed info plan groups)
      (fun _ t => (raises env (.lists (.owned .teardown_failed))).or
        (write_error env .teardown_failed) = none ∧ @Remembers κ (true, l, runs) t)
      (fun e t => (raises env (.lists (.owned .teardown_failed))).or
        (write_error env .teardown_failed) = some e ∧ Acquired l runs t) := by
    refine alone_bind (lists_meets.on_raise fun e t ht => ?_) fun groups =>
      Meets.given fun hlisted => ?_
    · rw [ht.1]
      exact ⟨rfl, ht.2⟩
    · rw [hlisted, none_or]
      exact write_json_meets
  refine alone_handle (hbody.on_return fun _ t ht => ⟨?_, ht.2⟩) fun e =>
    Meets.given fun hraised => ?_
  · rintro ⟨e, he, -⟩
    rw [ht.1] at he
    cases he
  refine Meets.ite (fun hstore => alone_pure fun t ht => ⟨?_, ht⟩) fun hraw => alone_raise fun t ht =>
    ⟨⟨e, hraised, (Bool.not_eq_true _).mp hraw⟩, ht⟩
  rintro ⟨e', he', hraw⟩
  rw [hraised] at he'
  rw [← Option.some.inj he', hstore] at hraw
  cases hraw

/-- The handler of `teardown` with the lock. -/
theorem stopping_failed_meets {e : RaisedError} (hid : info.id = run_id) :
    Alone i env (fun st => HoldsRun run_id true st ∧ @Remembers κ (true, l, runs) st)
      (stopping_failed info plan e) (fun _ _ => False)
      (fun _ t => Kept env e ∧ HoldsRun run_id true t ∨ ¬ Kept env e ∧ HoldsRun run_id false t) := by
  refine Meets.ite (fun hexception => ?_) fun hinterrupt => alone_raise fun t ht =>
    Or.inl ⟨Or.inl ((Bool.not_eq_true _).mp hinterrupt), ht.1⟩
  refine alone_bind (Q := fun issue t => e.text ≠ "" ∧ Acquired l runs t)
    (Meets.ite (fun hempty => alone_raise fun t ht => Or.inl ⟨Or.inr (Or.inl hempty), ht.1⟩)
      fun htext => alone_pure fun t ht => ⟨htext, ht.2⟩) fun issue => Meets.given fun htext => ?_
  refine alone_bind (alone_returns ((set_info_meets (F := fun _ => True)).pre fun _ h => ⟨trivial, h⟩))
    fun _ => ?_
  refine alone_bind ((failed_record_meets.pre fun _ h => h.2).on_raise
    fun _ t ht => Or.inl ⟨Or.inr (Or.inr ht.1), ?_⟩) fun _ => Meets.given fun hnot => ?_
  · exact HoldsRun.of_insert ht.2 hid hid nofun
  have hend : ∀ t : Host κ × Memory, HoldsRun run_id false t →
      Kept env e ∧ HoldsRun run_id true t ∨ ¬ Kept env e ∧ HoldsRun run_id false t := by
    refine fun t ht => Or.inr ⟨?_, ht⟩
    rintro (hinterrupt | hempty | hescapes)
    · rw [hexception] at hinterrupt
      cases hinterrupt
    · exact htext hempty
    · exact hnot hescapes
  refine alone_bind (release_meets.on_raise fun _ t ht => hend t ?_)
    fun _ => alone_raise fun t ht => hend t ?_
  · exact HoldsRun.of_insert ht.2 hid hid nofun
  · exact HoldsRun.of_insert ht.2 hid hid nofun

/-- The run is in memory and stopped, and its record is gone exactly when `c`. -/
def Ended (run_id : String) (c : Prop) (st : Host κ × Memory) : Prop :=
  ∃ (l : DeployLocals) (runs : Dict String MininetRun) (run : MininetRun),
    Remembers (false, l, runs) st ∧ runs.lookup run_id = some run ∧ run.info.state = .stopped ∧
      (st.1.record = none ↔ c)

/-- A call goes to the run it finds. -/
theorem teardown_finds {b : Bool} {run : MininetRun} {F : Host κ → Prop}
    {Q : TeardownResult → Host κ × Memory → Prop} {R : RaisedError → Host κ × Memory → Prop}
    (hfound : runs.lookup run_id = some run)
    (h : Alone i env (fun st => F st.1 ∧ Remembers (b, l, runs) st) (teardown_run run) Q R) :
    Alone i env (fun st => F st.1 ∧ Remembers (b, l, runs) st) (teardown run_id) Q R := by
  refine alone_bind (alone_returns memory_remembers) fun m => Meets.given fun hm => ?_
  have hruns : m.runs = runs := congrArg (fun v => v.2.2) hm
  rw [hruns, hfound]
  exact h

/-- A call of a process with the lock. -/
theorem teardown_run_held (hid : run.info.id = run_id) (hactive : run.info.state ≠ .stopped) :
    Alone i env (fun st => True ∧ @Remembers κ (true, l, runs) st) (teardown_run run)
      (fun r t => ((stopping_error env = none ∧ raises env .unlock = none) ∧ r.run.state = .stopped) ∧
        Ended run_id (Clears env) t)
      (fun _ t => ¬ (stopping_error env = none ∧ raises env .unlock = none) ∧
        (KeepsLock env ∧ HoldsRun run_id true t ∨ ¬ KeepsLock env ∧ HoldsRun run_id false t)) := by
  refine Meets.ite (fun hstopped => absurd hstopped hactive) fun _ => ?_
  refine alone_bind (alone_handle (R := fun e t => stopping_error env = some e ∧
      HoldsRun run_id true t ∧ Remembers (true, l, runs.insert run.info.id
        { info := { run.info with state := .stopping }, plan := run.plan }) t)
    ((stopping_meets.pre fun _ h => h.2).on_raise fun e t ht => ?_)
    fun e => Meets.given fun hraised => ?_) fun _ => Meets.given fun hdone => ?_
  · exact ⟨ht.1, HoldsRun.of_insert ht.2 hid hid nofun, ht.2⟩
  · refine (stopping_failed_meets hid).post (fun _ _ h => h.elim) fun _ t ht => ⟨?_, ?_⟩
    · rintro ⟨hnone, -⟩
      rw [hraised] at hnone
      cases hnone
    · rcases ht with ⟨hkept, ht⟩ | ⟨hnot, ht⟩
      · exact Or.inl ⟨⟨e, hraised, hkept⟩, ht⟩
      · refine Or.inr ⟨?_, ht⟩
        rintro ⟨e', he', hkept⟩
        rw [hraised] at he'
        rw [← Option.some.inj he'] at hkept
        exact hnot hkept
  have hrelease := @release_keeps κ _ i env l (runs.insert run.info.id
    { info := { run.info with state := .stopping }, plan := run.plan })
    (fun h => h.record = none ↔ Clears env) fun _ h => h
  refine alone_bind (hrelease.on_raise fun e t ht => ⟨?_, Or.inr ⟨?_, ?_⟩⟩)
    fun _ => Meets.given fun hreleased => ?_
  · rintro ⟨-, hnone⟩
    rw [ht.1] at hnone
    cases hnone
  · rintro ⟨e', he', -⟩
    rw [hdone] at he'
    cases he'
  · exact HoldsRun.of_insert ht.2.2 hid hid nofun
  refine alone_bind (alone_returns (set_info_meets (F := fun h => h.record = none ↔ Clears env))) fun _ =>
    alone_pure fun t ht => ⟨⟨⟨hdone, hreleased⟩, rfl⟩, l, _,
      { info := stopped_info run.info run.plan, plan := run.plan }, ht.2, ?_, rfl, ht.1⟩
  rw [← hid]
  exact AList.lookup_insert _

/-- A call of a process without the lock. -/
theorem teardown_run_unheld (hid : run.info.id = run_id) (hactive : run.info.state ≠ .stopped) :
    Alone i env (fun st => True ∧ @Remembers κ (false, l, runs) st) (teardown_run run)
      (fun _ _ => False) (fun _ t => HoldsRun run_id false t) := by
  let runs' := runs.insert run.info.id { info := { run.info with state := .stopping }, plan := run.plan }
  have hend : ∀ t : Host κ × Memory, Remembers (false, l, runs') t → HoldsRun run_id false t :=
    fun t ht => HoldsRun.of_insert ht hid hid nofun
  have hwrite : ∀ {w : Writing} {runs : Dict String MininetRun} {content : StoredRecord},
      Alone i env (Remembers (false, l, runs)) (write_json w content)
        (fun _ _ => False) (fun _ => @Remembers κ (false, l, runs)) := fun {w runs content} =>
    alone_bind (require_lock_refuses.on_raise fun _ _ h => h.2) fun _ _ h => h.elim
  have hstopping : Alone i env (fun st => True ∧ Remembers (false, l, runs) st)
      (stopping run.info run.plan) (fun _ _ => False) (fun _ => @Remembers κ (false, l, runs')) := by
    refine alone_bind (alone_returns (set_info_meets (F := fun _ => True))) fun _ => ?_
    refine alone_bind ((lists_meets.pre fun _ h => h.2).post (fun _ _ h => h.2) fun _ _ h => h.2)
      fun groups => ?_
    exact alone_bind hwrite fun _ _ h => h.elim
  refine Meets.ite (fun hstopped => absurd hstopped hactive) fun _ => ?_
  refine alone_bind (alone_handle hstopping fun e => ?_) fun _ _ h => h.elim
  refine Meets.ite (fun _ => ?_) fun _ => alone_raise hend
  refine alone_bind (Q := fun _ => Remembers (false, l, runs')) (Meets.ite (fun _ => alone_raise hend)
    fun _ => alone_pure fun _ ht => ht) fun issue => ?_
  refine alone_bind (alone_returns ((set_info_meets (F := fun _ => True)).pre fun _ h => ⟨trivial, h⟩))
    fun _ => ?_
  refine alone_bind (Q := fun _ => Remembers (false, l, runs'.insert run.info.id
    { info := { failed_info run.info issue with cleanup := legacy_cleanup run.plan }, plan := run.plan }))
    (alone_handle (R := fun _ => Remembers (false, l, runs'.insert run.info.id
      { info := { failed_info run.info issue with cleanup := legacy_cleanup run.plan }, plan := run.plan }))
      ?_ fun e => ?_) fun _ => ?_
  · refine alone_bind ((lists_meets.pre fun _ h => h.2).post (fun _ _ h => h.2) fun _ _ h => h.2)
      fun groups => ?_
    exact hwrite.on_return fun _ _ h => h.elim
  · exact Meets.ite (fun _ => alone_pure fun _ h => h) fun _ => alone_raise fun t ht =>
      HoldsRun.of_insert ht hid hid nofun
  · exact alone_bind (alone_returns release_nothing) fun _ => alone_raise fun t ht =>
      HoldsRun.of_insert ht hid hid nofun

/-- A call for a run that is stopped. -/
theorem teardown_run_ended {c : Prop} (hstopped : run.info.state = .stopped) :
    Alone i env
      (fun st => (st.1.record = none ↔ c) ∧ @Remembers κ (false, l, runs) st) (teardown_run run)
      (fun r t => r.run.state = .stopped ∧ (t.1.record = none ↔ c) ∧ @Remembers κ (false, l, runs) t)
      (fun _ _ => False) :=
  Meets.ite (fun _ => alone_pure fun _ ht => ⟨hstopped, ht⟩) fun hactive => absurd hstopped hactive

/-! ## A sequence of calls -/

section Calls

variable {st : Host κ × Memory} {c : Prop} (envs : List Environment)

variable (env) in
theorem call_held (h : HoldsRun run_id true st) :
    ends (fun r t => ((stopping_error env = none ∧ raises env .unlock = none) ∧ r.run.state = .stopped) ∧
        Ended run_id (Clears env) t)
      (fun _ t => ¬ (stopping_error env = none ∧ raises env .unlock = none) ∧
        (KeepsLock env ∧ HoldsRun run_id true t ∨ ¬ KeepsLock env ∧ HoldsRun run_id false t))
      ((teardown run_id).run (HostOp.alone i env) st).1
      ((teardown run_id).run (HostOp.alone i env) st).2 := by
  obtain ⟨l, runs, run, hst, hfound, hid, hactive⟩ := h
  exact (teardown_finds (F := fun _ => True) hfound (teardown_run_held hid hactive)).run ⟨trivial, hst⟩

variable (env) in
theorem call_unheld (h : HoldsRun run_id false st) :
    ends (fun _ _ => False) (fun _ t => HoldsRun run_id false t)
      ((teardown run_id).run (HostOp.alone i env) st).1
      ((teardown run_id).run (HostOp.alone i env) st).2 := by
  obtain ⟨l, runs, run, hst, hfound, hid, hactive⟩ := h
  exact (teardown_finds (F := fun _ => True) hfound (teardown_run_unheld hid hactive)).run ⟨trivial, hst⟩

variable (env) in
theorem call_ended (h : Ended run_id c st) :
    ends (fun r t => r.run.state = .stopped ∧ Ended run_id c t) (fun _ _ => False)
      ((teardown run_id).run (HostOp.alone i env) st).1
      ((teardown run_id).run (HostOp.alone i env) st).2 := by
  obtain ⟨l, runs, run, hst, hfound, hstopped, hrecord⟩ := h
  have hend := (@teardown_finds _ _ i run_id env l runs _ _ (fun h => h.record = none ↔ c) _ _ hfound
    (teardown_run_ended hstopped)).run ⟨hrecord, hst⟩
  cases hresult : ((teardown run_id).run (HostOp.alone i env) st).1 with
  | ok r =>
    rw [hresult] at hend
    exact ⟨hend.1, l, runs, run, hend.2.2, hfound, hstopped, hend.2.1⟩
  | error e =>
    rw [hresult] at hend
    exact hend.elim

/-- Without the lock every call fails. -/
theorem unheld_not_stops (h : HoldsRun run_id false st) : ¬ StopsRun i run_id env st := by
  rintro ⟨r, hr, -⟩
  have hend := call_unheld (i := i) env h
  rw [hr] at hend
  exact hend

theorem teardowns_unheld (h : HoldsRun run_id false st) :
    HoldsRun run_id false (teardowns i run_id envs st) := by
  induction envs generalizing st with
  | nil => exact h
  | cons env rest ih =>
    refine ih ?_
    have hend := call_unheld (i := i) env h
    cases hresult : ((teardown run_id).run (HostOp.alone i env) st).1 with
    | ok r =>
      rw [hresult] at hend
      exact hend.elim
    | error e =>
      rw [hresult] at hend
      exact hend

theorem teardowns_ended (h : Ended run_id c st) : Ended run_id c (teardowns i run_id envs st) := by
  induction envs generalizing st with
  | nil => exact h
  | cons env rest ih =>
    refine ih ?_
    have hend := call_ended (i := i) env h
    cases hresult : ((teardown run_id).run (HostOp.alone i env) st).1 with
    | ok r =>
      rw [hresult] at hend
      exact hend.2
    | error e =>
      rw [hresult] at hend
      exact hend.elim

theorem call_agrees (h : LockAgrees i st) :
    LockAgrees i ((teardown run_id).run (HostOp.alone i env) st).2 :=
  Program.run_keeps _ (alone_lock_agrees i env) (teardown run_id) h

theorem teardowns_agree (h : LockAgrees i st) : LockAgrees i (teardowns i run_id envs st) := by
  induction envs generalizing st with
  | nil => exact h
  | cons env rest ih => exact ih (call_agrees h)

omit [DecidableEq κ] in
theorem Ended.lock_free (h : Ended run_id c st) (hagrees : LockAgrees i st) : st.1.lock ≠ some i := by
  obtain ⟨l, runs, run, hst, -⟩ := h
  intro hlock
  have hacquired := hagrees.mpr hlock
  rw [show st.2.acquired = false from congrArg Prod.fst hst] at hacquired
  cases hacquired

/-- A run that has been stopped is reported as stopped. -/
theorem ended_stops_iff (h : Ended run_id c st) (hagrees : LockAgrees i st) :
    StopsRun i run_id env st ↔ c := by
  have hend := call_ended (i := i) env h
  cases hresult : ((teardown run_id).run (HostOp.alone i env) st).1 with
  | error e =>
    rw [hresult] at hend
    exact hend.elim
  | ok r =>
    rw [hresult] at hend
    have hrecord : ((teardown run_id).run (HostOp.alone i env) st).2.1.record = none ↔ c := by
      obtain ⟨_, _, _, _, _, _, hrecord⟩ := hend.2
      exact hrecord
    constructor
    · rintro ⟨_, _, _, hnone, -⟩
      exact hrecord.mp hnone
    · exact fun hc => ⟨r, hresult, hend.1, hrecord.mpr hc, hend.2.lock_free (call_agrees hagrees)⟩

/-- With the lock the call does everything or fails. -/
theorem held_stops_iff (h : HoldsRun run_id true st) (hagrees : LockAgrees i st) :
    StopsRun i run_id env st ↔ Completes env := by
  have hend := call_held (i := i) env h
  cases hresult : ((teardown run_id).run (HostOp.alone i env) st).1 with
  | error e =>
    rw [hresult] at hend
    refine iff_of_false ?_ fun hcompletes => hend.1 ⟨hcompletes.stopped, hcompletes.released⟩
    rintro ⟨r, hr, -⟩
    rw [hresult] at hr
    cases hr
  | ok r =>
    rw [hresult] at hend
    have hrecord : ((teardown run_id).run (HostOp.alone i env) st).2.1.record = none ↔ Clears env := by
      obtain ⟨_, _, _, _, _, _, hrecord⟩ := hend.2
      exact hrecord
    constructor
    · rintro ⟨_, _, _, hnone, -⟩
      exact ⟨hend.1.1.1, hrecord.mp hnone, hend.1.1.2⟩
    · exact fun hcompletes => ⟨r, hresult, hend.1.2, hrecord.mpr hcompletes.cleared,
        hend.2.lock_free (call_agrees hagrees)⟩

/-- The last of some calls. The induction is on the calls before it. -/
theorem teardowns_stop_iff (last : Environment)
    (hlast : Completes last ↔ Finishes last) (h : HoldsRun run_id true st) (hagrees : LockAgrees i st) :
    StopsRun i run_id last (teardowns i run_id envs st) ↔ Recoverable envs last := by
  induction envs generalizing st with
  | nil => exact (held_stops_iff h hagrees).trans hlast
  | cons env rest ih =>
    have hend := call_held (i := i) env h
    cases hresult : ((teardown run_id).run (HostOp.alone i env) st).1 with
    | ok r =>
      rw [hresult] at hend
      refine (ended_stops_iff (teardowns_ended rest hend.2) (teardowns_agree rest (call_agrees hagrees))).trans
        ⟨fun hclears => Or.inl ⟨hend.1.1.1, hclears, hend.1.1.2⟩, ?_⟩
      rintro (hcompletes | ⟨⟨e, he, -⟩, -⟩)
      · exact hcompletes.cleared
      · rw [hend.1.1.1] at he
        cases he
    | error e =>
      rw [hresult] at hend
      have hnot : ¬ Completes env := fun hcompletes => hend.1 ⟨hcompletes.stopped, hcompletes.released⟩
      rcases hend.2 with ⟨hkeeps, hheld⟩ | ⟨hnotkept, hunheld⟩
      · refine (ih hheld (call_agrees hagrees)).trans ⟨fun hrest => Or.inr ⟨hkeeps, hrest⟩, ?_⟩
        rintro (hcompletes | ⟨-, hrest⟩)
        · exact absurd hcompletes hnot
        · exact hrest
      · refine iff_of_false (unheld_not_stops (teardowns_unheld rest hunheld)) ?_
        rintro (hcompletes | ⟨hkeeps, -⟩)
        · exact hnot hcompletes
        · exact hnotkept hkeeps

end Calls

/-! ## The retry -/

/-- The cleanup operations succeed. -/
def CleansUp (env : Environment) : Prop := ∀ s ∈ cleanup_steps, raises env s = none

theorem cleans_up_iff : CleansUp env ↔ cleanup_error env = none := by
  have hfilter : cleanup_steps.filterMap (raises env) = [] ↔ CleansUp env := List.filterMap_eq_nil_iff
  unfold cleanup_error
  constructor
  · intro hclean
    have hnone : (cleanup_steps.findSome? fun s => interrupt (raises env s)) = none := by
      refine List.findSome?_eq_none_iff.mpr fun s hs => ?_
      rw [hclean s hs]
      rfl
    rw [hnone, none_or, if_pos (hfilter.mpr hclean)]
  · intro hnone
    obtain ⟨-, hnone⟩ := or_eq_none_iff.mp hnone
    by_contra hclean
    rw [if_neg fun hempty => hclean (hfilter.mp hempty)] at hnone
    cases hnone

/-- With the cleanup done, completing is finishing. -/
theorem completes_iff_finishes (hclean : CleansUp env) : Completes env ↔ Finishes env := by
  have herror : stopping_error env = none ↔
      (raises env (.lists (.owned .stopping))).or (write_error env .stopping) = none ∧
        (raises env .clock).or ((write_error env .stopped).or (clear_error env)) = none := by
    unfold stopping_error
    rw [cleans_up_iff.mp hclean, none_or, or_eq_none_iff]
  constructor
  · rintro ⟨hstopped, hcleared, hreleased⟩
    exact ⟨(herror.mp hstopped).1, (herror.mp hstopped).2, hcleared, hreleased⟩
  · rintro ⟨hrecorded, hended, hcleared, hreleased⟩
    exact ⟨herror.mpr ⟨hrecorded, hended⟩, hcleared, hreleased⟩

theorem not_completes (hclean : ¬ CleansUp env) : ¬ Completes env := by
  intro hcompletes
  have hnone := hcompletes.stopped
  unfold stopping_error at hnone
  exact hclean (cleans_up_iff.mpr (or_eq_none_iff.mp (or_eq_none_iff.mp hnone).2).1)

/-- A later call stops a run whose first teardown has failed in its cleanup exactly when
the first call has kept the lock and every one between them has kept it too, or has completed. -/
theorem teardown_retry_iff (i : κ) (run_id : String) {st : Host κ × Memory} {run : MininetRun}
    (howns : Owns i run_id st run) (first : Environment) (between : List Environment)
    (last : Environment) (hfirst : ¬ CleansUp first) (hlast : CleansUp last) :
    StopsRun i run_id last (teardowns i run_id (first :: between) st) ↔
      KeepsLock first ∧ Recoverable between last := by
  have hheld : HoldsRun run_id true st := by
    refine ⟨st.2.deploying, st.2.runs, run, ?_, howns.found, howns.named, howns.active⟩
    unfold Remembers Memory.view
    rw [howns.acquired]
  have hagrees : LockAgrees i st := iff_of_true howns.acquired howns.locked
  refine (teardowns_stop_iff (first :: between) last (completes_iff_finishes hlast) hheld hagrees).trans
    ⟨?_, fun hall => Or.inr hall⟩
  rintro (hcompletes | hall)
  · exact absurd hcompletes (not_completes hfirst)
  · exact hall

end

/-! ## Two retries -/

/-- A process that owns a run. -/
def owner : Host Unit × Memory :=
  ({ record := some { run := { id := "mn-1", state := .running }, plan := no_resources }, lock := some () },
    { acquired := true
      runs := AList.singleton "mn-1"
        { info := { id := "mn-1", state := .running }, plan := no_resources } })

theorem owner_owns : Owns () "mn-1" owner { info := { id := "mn-1", state := .running }, plan := no_resources } :=
  ⟨rfl, rfl, by decide, rfl, rfl⟩

/-- Every step passes. -/
def passing : Environment := fun _ => {}

/-- The nodes cannot be stopped. -/
def stop_fails : Environment := failing .stop_network

/-- The nodes cannot be stopped, and neither can the failed record be written: the state directory
cannot be made. -/
def stop_and_record_fail : Environment := fun s =>
  if s = .stop_network ∨ s = .write .teardown_failed .make_directory then { raised := some no_space } else {}

/-- The failed record was not written either, so the lock is still there. -/
theorem teardown_retried : StopsRun () "mn-1" passing (teardowns () "mn-1" [stop_and_record_fail] owner) := by
  refine (teardown_retry_iff () "mn-1" owner_owns stop_and_record_fail [] passing ?_ ?_).mpr ⟨?_, ?_⟩
  · intro hclean
    have hraises := hclean .stop_network (by decide)
    cases hraises
  · exact fun s _ => rfl
  · exact ⟨cleanup_failed [no_space.toRaisedError], rfl, Or.inr (Or.inr ⟨no_space.toRaisedError, rfl, rfl⟩)⟩
  · exact ⟨rfl, rfl, ⟨rfl, rfl⟩, rfl⟩

/-- The nodes cannot be stopped, and after that nothing fails. -/
theorem teardown_not_retried : ¬ ∀ (first last : Environment) (st : Host Unit × Memory) (run : MininetRun),
    Owns () "mn-1" st run → ¬ CleansUp first → (∀ s, raises last s = none) →
      StopsRun () "mn-1" last (teardowns () "mn-1" [first] st) := by
  intro hclaim
  have hstops := hclaim stop_fails passing owner _ owner_owns
    (fun hclean => by
      have hraises := hclean .stop_network (by decide)
      cases hraises)
    fun _ => rfl
  obtain ⟨r, hr, -⟩ := hstops
  have hraises : ((teardown "mn-1").run (HostOp.alone () passing)
      (teardowns () "mn-1" [stop_fails] owner)).1.toOption.isNone = true := by
    decide
  rw [hr] at hraises
  cases hraises

end MininetAi
