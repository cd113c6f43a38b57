/-
The store run by one process against answers fixed in advance.

An environment answers each step; within one call no step is asked for twice. What an
operation of the store raises is then a function of the answers, and so is what becomes
of the lock: only `acquire` and `release` touch it.
-/
import MininetAi.Lib.Conduct
import MininetAi.Substrates.Runtime

set_option autoImplicit false

namespace MininetAi

open Option RunStateStore

open Routine

/-- The answers to the steps of a call. -/
abbrev Environment : Type := HostStep → Answer

section

variable {κ : Type} [DecidableEq κ] (i : κ) (env : Environment)

/-- An operation under an environment. -/
def HostOp.alone : (o : HostOp) → Host κ × Memory → o.Reply × (Host κ × Memory)
  | host s run => HostOp.act i (env s) (.host s run)
  | get => HostOp.act i {} .get
  | put m => HostOp.act i {} (.put m)
  | hand_over run => HostOp.act i {} (.hand_over run)

/-- The terms of a process that runs by itself. -/
def alone_terms : Terms HostOp HostOp.Reply (Host κ × Memory) := Terms.alone (HostOp.alone i env)

/-- What a call of such a process does. -/
abbrev Alone {α : Type} (P : Host κ × Memory → Prop) (x : HostRoutine α)
    (Q : α → Host κ × Memory → Prop) (R : RaisedError → Host κ × Memory → Prop) : Prop :=
  Meets (alone_terms i env) P x Q R

/-! ## What raises -/

/-- What a step raises. -/
def raises (s : HostStep) : Option RaisedError := (env s).raised.map HostError.toRaisedError

/-- What the first of some steps raises. -/
def first_raised (steps : List HostStep) : Option RaisedError := steps.findSome? (raises env)

/-- What is raised when a missing file may be missing. -/
def unless_missing (e : Option RaisedError) : Option RaisedError := e.filter fun e => e.kind ≠ .file_not_found

/-- What `_write_json` raises while the lock is held. -/
def write_error (w : Writing) : Option RaisedError :=
  (first_raised env (unguarded_steps w)).or
    ((first_raised env (guarded_steps w)).map fun e =>
      if e.is_os = true then
        (unless_missing (raises env (.write w .unlink_temporary))).getD
          (state_store_error "could not write runtime state" e)
      else e)

/-- What is raised past an `except Exception`. -/
def interrupt (e : Option RaisedError) : Option RaisedError := e.filter fun e => e.is_exception = false

theorem interrupt_eq_some {e : Option RaisedError} {e' : RaisedError} :
    interrupt e = some e' ↔ e = some e' ∧ e'.is_exception = false := by
  unfold interrupt
  rw [filter_eq_some_iff, decide_eq_true_eq]

/-- What the handler of `clear` and `clear_stopped` makes of an exception. -/
def removal_error (text : String) (e : RaisedError) : Option RaisedError :=
  if e.kind = .file_not_found then none
  else if e.is_os = true then (if e.kind = .not_empty then none else some (state_store_error text e))
  else some e

/-- What `clear_stopped` raises while the lock is held. -/
def clear_stopped_error : Option RaisedError :=
  ((unless_missing (raises env .unlink_stopped)).or (raises env .remove_stopped_directory)).bind
    (removal_error "could not remove stopped-run state")

/-- What `clear` raises while the lock is held. -/
def clear_error : Option RaisedError :=
  (((raises env .unlink_temporaries).or (unless_missing (raises env .unlink_state))).or
    (raises env .remove_directory)).bind (removal_error "could not remove runtime state directory")

/-- What `read` makes of an exception. -/
def reading_error (text : String) (e : RaisedError) : RaisedError :=
  if e.is_os = true ∨ e.kind = .value_error then state_store_error text e else e

/-- How `read` ends on a record. -/
def read_result (record : Option PersistedRun) : Except RaisedError (Option PersistedRun) :=
  (raises env .state_exists).elim
    (record.elim (.ok none) fun r =>
      if (env .state_exists).yes = true then
        (raises env .read_state).elim (.ok (some r))
          fun e => .error (reading_error "invalid runtime state file" e)
      else .ok none)
    .error

/-! ## Steps and memory -/

/-- The steps whose end is the environment's. -/
def HostStep.plain : HostStep → Bool
  | flock | unlock | state_exists | stopped_exists | read_state | read_stopped => false
  | _ => true

variable {i env} {P : Host κ × Memory → Prop}

variable {s : HostStep} {α : Type} {a : Answer} {P : Host κ × Memory → Prop}

theorem HostStep.outcome_plain (h : s.plain = true) (host : Host κ) (m : Memory) (a : Answer) :
    ∃ v, s.outcome i host m a = a.reply (.ok v) := by
  cases s with
  | flock => cases h
  | unlock => cases h
  | state_exists => cases h
  | stopped_exists => cases h
  | read_state => cases h
  | read_stopped => cases h
  | _ => exact ⟨_, rfl⟩

theorem Answer.reply_passes (h : a.raised = none) (r : Except RaisedError α) : a.reply r = r := by
  unfold Answer.reply
  rw [h]
  rfl

theorem Answer.reply_raises {e : HostError} (h : a.raised = some e) (r : Except RaisedError α) :
    a.reply r = .error e.toRaisedError := by
  unfold Answer.reply
  rw [h]
  rfl

theorem raises_none : raises env s = none ↔ (env s).raised = none := map_eq_none_iff

/-- One step. -/
theorem host_meets {s : HostStep} {run : String} {Q : s.Value → Host κ × Memory → Prop}
    {R : RaisedError → Host κ × Memory → Prop}
    (h : ∀ st, P st → ends Q R (s.outcome i st.1 st.2 (env s)) (s.effect i run st.1 st.2 (env s))) :
    Alone i env P (host s run) Q R := by
  rintro st hst t rfl r u hact
  cases hact
  exact ⟨trivial, fun v hv => by rw [← show _ = v from hv]; exact h st hst⟩

/-- A step that raises what the environment answers, or ends with its value. -/
theorem reply_meets {s : HostStep} {run : String} (value : Host κ → Memory → Except RaisedError s.Value)
    (houtcome : ∀ h m, s.outcome i h m (env s) = (env s).reply (value h m))
    {Q : s.Value → Host κ × Memory → Prop} {R : RaisedError → Host κ × Memory → Prop}
    (hpasses : raises env s = none →
      ∀ st, P st → ends Q R (value st.1 st.2) (s.effect i run st.1 st.2 (env s)))
    (hraises : ∀ e, raises env s = some e → ∀ st, P st → R e (s.effect i run st.1 st.2 (env s))) :
    Alone i env P (host s run) Q R := by
  refine host_meets fun st hst => ?_
  rw [houtcome]
  cases hraised : (env s).raised with
  | none =>
    rw [Answer.reply_passes hraised]
    exact hpasses (raises_none.mpr hraised) st hst
  | some e =>
    rw [Answer.reply_raises hraised]
    refine hraises e.toRaisedError ?_ st hst
    unfold raises
    rw [hraised]
    rfl

/-- A step whose end is the environment's. -/
theorem plain_meets {s : HostStep} {run : String} {Q : Host κ × Memory → Prop} (hs : s.plain = true)
    (h : ∀ st, P st → Q (s.effect i run st.1 st.2 (env s))) :
    Alone i env P (host s run) (fun _ t => raises env s = none ∧ Q t)
      (fun e t => raises env s = some e ∧ Q t) := by
  choose value hvalue using fun (host : Host κ) (m : Memory) =>
    HostStep.outcome_plain (i := i) hs host m (env s)
  exact reply_meets (fun h m => .ok (value h m)) hvalue (fun hnone st hst => ⟨hnone, h st hst⟩)
    fun e he st hst => ⟨he, h st hst⟩

/-- A check. -/
theorem asks_meets {q : HostQuestion} : Alone i env P (asks q)
      (fun b t => (raises env (.asks q) = none ∧ b = (env (.asks q)).yes) ∧ P t)
      (fun e t => raises env (.asks q) = some e ∧ P t) :=
  @reply_meets _ _ i env P (.asks q) "" (fun _ _ => .ok (env (.asks q)).yes) (fun _ _ => rfl) _ _
    (fun hnone _ hst => ⟨⟨hnone, rfl⟩, hst⟩) fun _ he _ hst => ⟨he, hst⟩

theorem lists_meets {g : HostListing} :
    Alone i env P (lists g) (fun _ t => raises env (.lists g) = none ∧ P t)
      (fun e t => raises env (.lists g) = some e ∧ P t) :=
  @reply_meets _ _ i env P (.lists g) "" (fun _ _ => .ok (env (.lists g)).pids) (fun _ _ => rfl) _ _
    (fun hnone _ hst => ⟨hnone, hst⟩) fun _ he _ hst => ⟨he, hst⟩

theorem first_raised_cons (s : HostStep) (rest : List HostStep) :
    first_raised env (s :: rest) = (raises env s).or (first_raised env rest) := by
  unfold first_raised
  rw [List.findSome?_cons]
  cases raises env s with
  | none => rfl
  | some e => rfl

/-- Steps whose ends are the environment's. The induction is on the steps. -/
theorem perform_all_meets {run : String} {steps : List HostStep}
    (hplain : ∀ s ∈ steps, s.plain = true)
    (hP : ∀ s ∈ steps, ∀ st, P st → P (s.effect i run st.1 st.2 (env s))) :
    Alone i env P (perform_all run steps) (fun _ t => first_raised env steps = none ∧ P t)
      (fun e t => first_raised env steps = some e ∧ P t) := by
  induction steps with
  | nil => exact Meets.pure (Terms.alone_stable _ _) fun st hst => ⟨rfl, hst⟩
  | cons s rest ih =>
    have hstep := @plain_meets _ _ _ _ _ _ run _ (hplain s List.mem_cons_self)
      (hP s List.mem_cons_self)
    have hrest := ih (fun t ht => hplain t (List.mem_cons_of_mem s ht))
      fun t ht => hP t (List.mem_cons_of_mem s ht)
    unfold perform_all
    refine Meets.bind (hstep.on_raise fun e t h => ?_)
      (fun _ => Meets.given fun hnone => hrest.post (fun _ t h => ?_) fun e t h => ?_)
      fun _ => Terms.alone_stable _ _
    · rw [first_raised_cons, h.1]
      exact ⟨rfl, h.2⟩
    · rw [first_raised_cons, hnone]
      exact h
    · rw [first_raised_cons, hnone]
      exact h

/-- The memory apart from the temporary file. -/
def Memory.view (m : Memory) : Bool × DeployLocals × Dict String MininetRun :=
  (m.acquired, m.deploying, m.runs)

/-- The process remembers this. -/
def Remembers (v : Bool × DeployLocals × Dict String MininetRun) (st : Host κ × Memory) : Prop :=
  st.2.view = v

/-- The same of a process that holds the lock. -/
abbrev Acquired (l : DeployLocals) (runs : Dict String MininetRun) : Host κ × Memory → Prop :=
  Remembers (true, l, runs)

/-- Steps that leave the memory alone, on their way through a routine. -/
theorem remembers_effect {v : Bool × DeployLocals × Dict String MininetRun} {steps : List HostStep}
    {run : String} (h : ∀ s ∈ steps, s ≠ .flock ∧ s ≠ .unlock) :
    ∀ s ∈ steps, ∀ st : Host κ × Memory, Remembers v st →
      Remembers v (s.effect i run st.1 st.2 (env s)) := by
  intro s hs st hst
  unfold Remembers at hst ⊢
  rw [(HostStep.effect_quiet i (h s hs).1 (h s hs).2 ..).1]
  exact hst

theorem memory_meets : Alone i env P memory (fun m t => t.2 = m ∧ P t) (fun _ _ => False) := by
  rintro st hst t rfl r u hact
  cases hact
  exact ⟨trivial, fun v hv => by rw [← show _ = v from hv]; exact ⟨rfl, hst⟩⟩

theorem remember_meets {m : Memory} {Q : Host κ × Memory → Prop}
    (h : ∀ st, P st → Q (st.1, m.set_acquired st.2.acquired)) :
    Alone i env P (remember m) (fun _ => Q) (fun _ _ => False) := by
  rintro st hst t rfl r u hact
  cases hact
  exact ⟨trivial, fun v hv => by rw [← show _ = v from hv]; exact h st hst⟩

/-! ## Rules for a process by itself -/

section Rules

variable {α β : Type} {x : HostRoutine α} {Q : α → Host κ × Memory → Prop}
  {R R' : RaisedError → Host κ × Memory → Prop}

theorem alone_bind {f : α → HostRoutine β} {Q' : β → Host κ × Memory → Prop}
    (hx : Alone i env P x Q R) (hf : ∀ a, Alone i env (Q a) (f a) Q' R) :
    Alone i env P (x >>= f) Q' R :=
  hx.bind hf fun _ => Terms.alone_stable _ _

theorem alone_handle {handler : RaisedError → HostRoutine α} (hx : Alone i env P x Q R)
    (hh : ∀ e, Alone i env (R e) (handler e) Q R') : Alone i env P (x.handle handler) Q R' :=
  hx.handle hh fun _ => Terms.alone_stable _ _

theorem alone_pure {a : α} (h : ∀ st, P st → Q a st) : Alone i env P (pure a : HostRoutine α) Q R :=
  Meets.pure (Terms.alone_stable _ _) h

theorem alone_raise {e : RaisedError} (h : ∀ st, P st → R e st) :
    Alone i env P (raise e : HostRoutine α) Q R :=
  Meets.raise (Terms.alone_stable _ _) h

/-- A routine that does not raise. -/
theorem alone_returns (h : Alone i env P x Q fun _ _ => False) : Alone i env P x Q R :=
  h.on_raise fun _ _ hst => hst.elim

end Rules

theorem require_meets {b : Bool} {e : RaisedError} :
    Alone i env P (require b e) (fun _ t => b = true ∧ P t)
      (fun e' t => (b = false ∧ e' = e) ∧ P t) :=
  Meets.ite (fun hb => alone_pure fun _ hst => ⟨hb, hst⟩) fun hb =>
    alone_raise fun _ hst => ⟨⟨(Bool.not_eq_true _).mp hb, rfl⟩, hst⟩

/-! ## The store -/

section Store

variable {l : DeployLocals} {runs : Dict String MininetRun}

variable {F : Host κ → Prop} {v : Bool × DeployLocals × Dict String MininetRun}
  {x : HostRoutine Unit} {ex : Option RaisedError}

theorem acquired_meets {b : Bool} :
    Alone i env (fun st => F st.1 ∧ Remembers (b, l, runs) st) acquired
      (fun a t => a = b ∧ F t.1 ∧ Remembers (b, l, runs) t) (fun _ _ => False) := by
  refine alone_bind memory_meets fun m => alone_pure fun st hst => ⟨?_, hst.2⟩
  rw [← hst.1]
  exact congrArg Prod.fst hst.2.2

theorem require_lock_meets :
    Alone i env (fun st => F st.1 ∧ Acquired l runs st)
      require_lock (fun _ t => F t.1 ∧ Acquired l runs t) (fun _ _ => False) := by
  refine alone_bind acquired_meets fun a => Meets.given ?_
  rintro rfl
  exact alone_pure fun _ hst => hst

/-- Without the lock nothing is written. -/
theorem require_lock_refuses :
    Alone i env (Remembers (false, l, runs)) require_lock
      (fun _ _ => False)
      (fun e t => e = { kind := .state_store, text := "the runtime state lock is not held" } ∧
        Remembers (false, l, runs) t) := by
  refine alone_bind (alone_returns ((acquired_meets (F := fun _ => True)).pre fun _ hst => ⟨trivial, hst⟩))
    fun a => Meets.given ?_
  rintro rfl
  exact alone_raise fun _ hst => ⟨rfl, hst.2⟩

variable {content : StoredRecord} {h : Host κ}

theorem dump_meets :
    Alone i env (fun st => F st.1 ∧ Remembers v st) (dump content)
      (fun _ t => t.2.temporary = some content ∧ F t.1 ∧ Remembers v t) (fun _ _ => False) := by
  refine alone_bind memory_meets fun m => remember_meets fun st hst => ?_
  obtain ⟨rfl, hst⟩ := hst
  exact ⟨rfl, hst⟩

/-- An operation whose exception is kept: what is not an `Exception` goes on. -/
theorem suppressed_meets {P Q : Host κ × Memory → Prop}
    (hx : Alone i env P x (fun _ t => ex = none ∧ Q t) (fun e t => ex = some e ∧ Q t)) :
    Alone i env P (suppressed x) (fun r t => (interrupt ex = none ∧ r = ex) ∧ Q t)
      (fun e t => interrupt ex = some e ∧ Q t) := by
  refine hx.attempt (fun _ => Meets.given ?_) fun e => Meets.given ?_
  · rintro rfl
    exact alone_pure fun t ht => ⟨⟨rfl, rfl⟩, ht⟩
  · rintro rfl
    refine Meets.ite (fun hkind => alone_pure fun t ht => ⟨⟨?_, rfl⟩, ht⟩) fun hkind =>
      alone_raise fun t ht => ⟨interrupt_eq_some.mpr ⟨rfl, (Bool.not_eq_true _).mp hkind⟩, ht⟩
    refine filter_eq_none_iff.mpr fun e' he' => ?_
    rw [← Option.some.inj he', hkind]
    decide

/-- `unlink(missing_ok=True)` of some file; `Q` is what it does to the host. -/
theorem unlink_meets {s : HostStep} {P Q : Host κ × Memory → Prop} (hplain : s.plain = true)
    (h : ∀ st, P st → Q (s.effect i "" st.1 st.2 (env s))) :
    Alone i env P (unlink s) (fun _ t => unless_missing (raises env s) = none ∧ Q t)
      (fun e t => unless_missing (raises env s) = some e ∧ Q t) := by
  have hstep : Alone i env P (perform_all "" [s]) (fun _ t => raises env s = none ∧ Q t)
      (fun e t => raises env s = some e ∧ Q t) :=
    alone_bind (plain_meets hplain h) fun _ => alone_pure fun _ hst => hst
  refine alone_handle (hstep.on_return fun _ st hst => ?_) fun e => ?_
  · rw [hst.1]
    exact ⟨rfl, hst.2⟩
  · refine Meets.given fun hraised => Meets.ite (fun hkind => alone_pure fun st hst => ?_)
      fun hkind => alone_raise fun st hst => ?_
    · rw [hraised]
      exact ⟨filter_eq_none_iff.mpr fun e' he' => by
        rw [← Option.some.inj he', decide_eq_true_eq, not_not]; exact hkind, hst⟩
    · rw [hraised]
      exact ⟨filter_eq_some_iff.mpr ⟨rfl, decide_eq_true hkind⟩, hst⟩

/-- `_write_json` with the lock, which keeps what its steps keep of the host. -/
theorem write_json_keeps {w : Writing} (hF : ∀ s (st : Host κ × Memory), F st.1 →
      F ((HostStep.write w s).effect i "" st.1 st.2 (env (.write w s))).1) :
    Alone i env (fun st => F st.1 ∧ Acquired l runs st) (write_json w content)
      (fun _ t => write_error env w = none ∧ F t.1 ∧ Acquired l runs t)
      (fun e t => write_error env w = some e ∧ F t.1 ∧ Acquired l runs t) := by
  have hkeeps : ∀ s (st : Host κ × Memory), F st.1 ∧ Acquired l runs st →
      F ((HostStep.write w s).effect i "" st.1 st.2 (env (.write w s))).1 ∧
        Acquired l runs ((HostStep.write w s).effect i "" st.1 st.2 (env (.write w s))) := by
    refine fun s st hst => ⟨hF s st hst.1, ?_⟩
    unfold Acquired Remembers
    rw [(HostStep.effect_quiet i (by simp) (by simp) ..).1]
    exact hst.2
  have hunguarded := @perform_all_meets _ _ i env (fun st => F st.1 ∧ Acquired l runs st) ""
    (unguarded_steps w) (by simp [unguarded_steps, HostStep.plain])
    (by
      unfold unguarded_steps
      simp only [List.mem_cons, List.not_mem_nil, or_false]
      rintro s (rfl | rfl | rfl) st hst <;> exact hkeeps _ st hst)
  have hguarded := @perform_all_meets _ _ i env (fun st => F st.1 ∧ Acquired l runs st) ""
    (guarded_steps w) (by simp [guarded_steps, HostStep.plain])
    (by
      unfold guarded_steps
      simp only [List.mem_cons, List.not_mem_nil, or_false]
      rintro s (rfl | rfl | rfl | rfl) st hst <;> exact hkeeps _ st hst)
  have hhandler : ∀ e, Alone i env
      (fun t => first_raised env (guarded_steps w) = some e ∧
        F t.1 ∧ Acquired l runs t)
      (unwritable w e) (fun _ _ => False)
      (fun e' t => (first_raised env (guarded_steps w)).map (fun e =>
        if e.is_os = true then
          (unless_missing (raises env (.write w .unlink_temporary))).getD
            (state_store_error "could not write runtime state" e)
        else e) = some e' ∧ F t.1 ∧ Acquired l runs t) := by
    refine fun e => Meets.given fun hraised => ?_
    rw [hraised]
    have hunlink := @unlink_meets _ _ i env (.write w .unlink_temporary)
      (fun st => F st.1 ∧ Acquired l runs st)
      (fun st => F st.1 ∧ Acquired l runs st) rfl (hkeeps .unlink_temporary)
    refine Meets.ite (fun hos => alone_bind (hunlink.on_raise ?_) fun _ =>
      Meets.given fun hnone => alone_raise ?_) fun hos => alone_raise fun st hst => ⟨?_, hst⟩
    · intro e' st hst
      rw [map_some, if_pos hos, hst.1]
      exact ⟨rfl, hst.2⟩
    · intro st hst
      rw [map_some, if_pos hos, hnone]
      exact ⟨rfl, hst⟩
    · rw [map_some, if_neg hos]
  unfold write_error
  refine alone_bind (alone_returns require_lock_meets) fun _ =>
    alone_bind (hunguarded.on_raise ?_) fun _ =>
      Meets.given fun hnone => ?_
  · intro e t ht
    rw [ht.1]
    exact ⟨rfl, ht.2⟩
  · rw [hnone]
    refine alone_bind (alone_returns dump_meets) fun _ =>
      alone_handle ((hguarded.pre fun _ ht => ht.2).on_return fun _ t ht => ?_) fun e => (hhandler e).on_return fun _ _ h => h.elim
    rw [ht.1]
    exact ⟨rfl, ht.2⟩

/-- `_write_json` with the lock. -/
theorem write_json_meets {w : Writing} {content : StoredRecord} :
    Alone i env (Acquired l runs) (write_json w content)
      (fun _ t => write_error env w = none ∧ Acquired l runs t)
      (fun e t => write_error env w = some e ∧ Acquired l runs t) :=
  (write_json_keeps (F := fun _ => True) fun _ _ _ => trivial).mono (fun _ h => ⟨trivial, h⟩)
    (fun _ _ h => ⟨h.1, h.2.2⟩) fun _ _ h => ⟨h.1, h.2.2⟩

section

variable (hx : Alone i env P x (fun _ t => ex = none ∧ P t) (fun e t => ex = some e ∧ P t))
include hx

/-- One routine after another, each of which ends as the answers say. -/
theorem or_meets {y : HostRoutine Unit} {ey : Option RaisedError}
    (hy : Alone i env P y (fun _ t => ey = none ∧ P t) (fun e t => ey = some e ∧ P t)) :
    Alone i env P (x >>= fun _ => y) (fun _ t => ex.or ey = none ∧ P t)
      (fun e t => ex.or ey = some e ∧ P t) := by
  refine alone_bind (hx.on_raise ?_) fun _ => Meets.given fun hnone => ?_
  · intro e t ht
    rw [ht.1]
    exact ⟨rfl, ht.2⟩
  · rw [hnone]
    exact hy

/-- A body with the handler of `clear` and `clear_stopped`. -/
theorem removal_meets {text : String}
    :
    Alone i env P (x.handle (unremovable text))
      (fun _ t => ex.bind (removal_error text) = none ∧ P t)
      (fun e t => ex.bind (removal_error text) = some e ∧ P t) := by
  refine alone_handle (hx.on_return fun _ t ht => ?_) fun e =>
    Meets.given fun hraised => ?_
  · rw [ht.1]
    exact ⟨rfl, ht.2⟩
  rw [hraised, bind_some]
  unfold removal_error unremovable
  by_cases hmissing : e.kind = .file_not_found
  · rw [if_pos hmissing, if_pos hmissing]
    exact alone_pure fun _ hst => ⟨rfl, hst⟩
  rw [if_neg hmissing, if_neg hmissing]
  by_cases hos : e.is_os = true
  · rw [if_pos hos, if_pos hos]
    by_cases hempty : e.kind = .not_empty
    · rw [if_pos hempty, if_pos hempty]
      exact alone_pure fun _ hst => ⟨rfl, hst⟩
    · rw [if_neg hempty, if_neg hempty]
      exact alone_raise fun _ hst => ⟨rfl, hst⟩
  · rw [if_neg hos, if_neg hos]
    exact alone_raise fun _ hst => ⟨rfl, hst⟩

end

/-- `clear_stopped` with the lock. -/
theorem clear_stopped_meets :
    Alone i env (Acquired l runs) clear_stopped
      (fun _ t => clear_stopped_error env = none ∧ Acquired l runs t)
      (fun e t => clear_stopped_error env = some e ∧ Acquired l runs t) := by
  have hunlink := @unlink_meets _ _ i env .unlink_stopped
    (Acquired l runs) (Acquired l runs) rfl fun st hst => hst
  have hremove := @plain_meets _ _ i env (Acquired l runs) .remove_stopped_directory ""
    (Acquired l runs) rfl fun st hst => hst
  refine alone_bind (alone_returns ((require_lock_meets (F := fun _ => True)).pre fun _ h => ⟨trivial, h⟩))
    fun _ => (removal_meets (or_meets hunlink hremove)).pre fun _ h => h.2

/-- `clear` with the lock. -/
theorem clear_meets : Alone i env (Acquired l runs) clear
      (fun _ t => clear_error env = none ∧ Acquired l runs t)
      (fun e t => clear_error env = some e ∧ Acquired l runs t) := by
  have htemporaries := @plain_meets _ _ i env (Acquired l runs) .unlink_temporaries ""
    (Acquired l runs) rfl fun st hst => hst
  have hunlink := @unlink_meets _ _ i env .unlink_state
    (Acquired l runs) (Acquired l runs) rfl fun st hst => hst
  have hremove := @plain_meets _ _ i env (Acquired l runs) .remove_directory ""
    (Acquired l runs) rfl fun st hst => hst
  have hbody := or_meets htemporaries (or_meets hunlink hremove)
  rw [← Option.or_assoc] at hbody
  exact alone_bind (alone_returns ((require_lock_meets (F := fun _ => True)).pre fun _ h => ⟨trivial, h⟩))
    fun _ => (removal_meets hbody).pre fun _ h => h.2

/-- The process gets the lock: no step of `acquire` fails and no other stream has it. -/
structure TakesLock (i : κ) (env : Environment) (h : Host κ) : Prop where
  opened : first_raised env [.make_lock_directory, .open_lock, .lock_mode] = none
  flocked : raises env .flock = none
  available : h.locked_out i = false

/-- `flock`. -/
theorem flock_meets :
    Alone i env (fun st => st.1 = h ∧ Remembers (false, l, runs) st) (host .flock)
      (fun _ t => (raises env .flock = none ∧ h.locked_out i = false) ∧ t.1.record = h.record ∧
        Acquired l runs t) (fun _ t => ¬ (raises env .flock = none ∧ h.locked_out i = false) ∧
        Remembers (false, l, runs) t) := by
  refine @reply_meets _ _ i env _ .flock ""
    (fun h _ => if h.locked_out i = true then .error would_block else .ok ()) (fun _ _ => rfl) _ _
    (fun hnone st hst => ?_) fun e he st hst => ?_
  · obtain ⟨rfl, hst⟩ := hst
    have hpasses : (env .flock).raised.isSome = false := by
      rw [raises_none.mp hnone]
      rfl
    unfold HostStep.effect
    cases hlocked : st.1.locked_out i with
    | true =>
      rw [if_pos rfl, hpasses]
      refine ⟨fun hfree => ?_, hst⟩
      cases hfree.2
    | false =>
      rw [if_neg (by decide), hpasses]
      refine ⟨⟨hnone, rfl⟩, rfl, ?_⟩
      have hview : (st.2.deploying, st.2.runs) = (l, runs) := congrArg Prod.snd hst
      exact congrArg (Prod.mk true) hview
  · refine ⟨fun hfree => ?_, ?_⟩
    · rw [he] at hfree
      cases hfree.1
    · have hraised : (env .flock).raised.isSome = true := by
        unfold raises at he
        obtain ⟨e', he', -⟩ := map_eq_some_iff.mp he
        rw [he']
        rfl
      unfold HostStep.effect
      rw [hraised]
      exact hst.2

/-- `acquire` of a process that does not have the lock. -/
theorem acquire_meets :
    Alone i env (fun st => st.1 = h ∧ Remembers (false, l, runs) st)
      acquire
      (fun _ t => TakesLock i env h ∧ t.1.record = h.record ∧ Acquired l runs t)
      (fun _ t => ¬ TakesLock i env h ∧ Remembers (false, l, runs) t) := by
  have hsteps := @perform_all_meets _ _ i env (fun st => st.1 = h ∧ Remembers (false, l, runs) st) ""
    [.make_lock_directory, .open_lock, .lock_mode] (by simp [HostStep.plain])
    (by simp only [List.mem_cons, List.not_mem_nil, or_false]; rintro s (rfl | rfl | rfl) st hst <;> exact hst)
  refine alone_bind (alone_returns (acquired_meets (F := (· = h)))) fun a => Meets.given ?_
  rintro rfl
  refine alone_bind (hsteps.on_raise ?_) fun _ => Meets.given fun hopened => ?_
  · rintro e t ⟨hraised, -, ht⟩
    refine ⟨fun htakes => ?_, ht⟩
    rw [htakes.opened] at hraised
    cases hraised
  · refine alone_handle (flock_meets.mono (fun _ h => h) ?_ fun _ _ h => h) fun e => ?_
    · rintro _ t ⟨⟨hflock, hfree⟩, hrecord, ht⟩
      exact ⟨⟨hopened, hflock, hfree⟩, hrecord, ht⟩
    · have hend : ∀ st : Host κ × Memory,
          ¬ (raises env .flock = none ∧ h.locked_out i = false) ∧ Remembers (false, l, runs) st →
          ¬ TakesLock i env h ∧ Remembers (false, l, runs) st :=
        fun st hst => ⟨fun htakes => hst.1 ⟨htakes.flocked, htakes.available⟩, hst.2⟩
      exact Meets.ite (fun _ => alone_raise hend) fun _ => alone_raise hend

/-- `release` of a process that has the lock: it is gone in any case. -/
theorem release_keeps {F : Host κ → Prop} (hF : ∀ h, F h → F (h.set_lock none)) :
    Alone i env (fun st => F st.1 ∧ Acquired l runs st) release
      (fun _ t => raises env .unlock = none ∧ F t.1 ∧ Remembers (false, l, runs) t)
      (fun e t => raises env .unlock = some e ∧ F t.1 ∧ Remembers (false, l, runs) t) := by
  refine @host_meets _ _ i env _ .unlock "" _ _ fun st hst => ?_
  have hacquired : st.2.acquired = true := congrArg Prod.fst hst.2
  have hview : (st.2.deploying, st.2.runs) = (l, runs) := congrArg Prod.snd hst.2
  have houtcome : HostStep.unlock.outcome i st.1 st.2 (env .unlock) = (env .unlock).reply (.ok ()) :=
    if_pos hacquired
  have heffect : HostStep.unlock.effect i "" st.1 st.2 (env .unlock) =
      (st.1.set_lock none, st.2.set_acquired false) := if_pos hacquired
  have hremembers : Remembers (false, l, runs)
      (st.1.set_lock none, st.2.set_acquired false) := congrArg (Prod.mk false) hview
  rw [houtcome, heffect]
  cases hraised : (env .unlock).raised with
  | none =>
    rw [Answer.reply_passes hraised]
    exact ⟨raises_none.mpr hraised, hF _ hst.1, hremembers⟩
  | some e =>
    rw [Answer.reply_raises hraised]
    refine ⟨?_, hF _ hst.1, hremembers⟩
    unfold raises
    rw [hraised]
    rfl

theorem release_meets :
    Alone i env (Acquired l runs) release
      (fun _ t => raises env .unlock = none ∧ @Remembers κ (false, l, runs) t)
      (fun e t => raises env .unlock = some e ∧ Remembers (false, l, runs) t) :=
  (release_keeps (F := fun _ => True) fun _ _ => trivial).mono (fun _ h => ⟨trivial, h⟩)
    (fun _ _ h => ⟨h.1, h.2.2⟩) fun _ _ h => ⟨h.1, h.2.2⟩

/-- `release` of a process that does not have the lock. -/
theorem release_nothing :
    Alone i env (Remembers (false, l, runs)) release
      (fun _ => Remembers (false, l, runs)) (fun _ _ => False) := by
  refine @host_meets _ _ i env _ .unlock "" _ _ fun st hst => ?_
  have hacquired : ¬ st.2.acquired = true := by
    rw [show st.2.acquired = false from congrArg Prod.fst hst]
    decide
  have houtcome : HostStep.unlock.outcome i st.1 st.2 (env .unlock) = .ok () := if_neg hacquired
  have heffect : HostStep.unlock.effect i "" st.1 st.2 (env .unlock) = (st.1, st.2) :=
    if_neg hacquired
  rw [houtcome, heffect]
  exact hst

/-- `Path.exists` of the record. -/
theorem state_exists_meets {record : Option PersistedRun} :
    Alone i env (fun st => st.1.record = record ∧ Remembers v st) (host .state_exists)
      (fun (found : Bool) t => (raises env .state_exists = none ∧
        found = (record.isSome && (env .state_exists).yes)) ∧ t.1.record = record ∧ Remembers v t)
      (fun e t => raises env .state_exists = some e ∧ t.1.record = record ∧ Remembers v t) := by
  refine @reply_meets _ _ i env _ .state_exists ""
    (fun h _ => .ok (h.record.isSome && (env .state_exists).yes)) (fun _ _ => rfl) _ _
    (fun hnone st hst => ⟨⟨hnone, ?_⟩, hst⟩) fun e he st hst => ⟨he, hst⟩
  rw [← hst.1]

/-- `read_text` of a record that is there. -/
theorem read_state_meets {r : PersistedRun} :
    Alone i env (fun st => st.1.record = some r ∧ Remembers v st)
      (some <$> host .read_state : HostRoutine (Option PersistedRun))
      (fun r' t => (raises env .read_state = none ∧ r' = some r) ∧ t.1.record = some r ∧ Remembers v t)
      (fun e t => raises env .read_state = some e ∧ t.1.record = some r ∧ Remembers v t) := by
  have hread : Alone i env (fun st => st.1.record = some r ∧ Remembers v st)
      (host .read_state)
      (fun (r' : PersistedRun) t =>
        (raises env .read_state = none ∧ r' = r) ∧ t.1.record = some r ∧ Remembers v t)
      (fun e t => raises env .read_state = some e ∧ t.1.record = some r ∧ Remembers v t) := by
    refine @reply_meets _ _ i env _ .read_state ""
      (fun h _ => h.record.elim (.error no_such_file) .ok) (fun _ _ => rfl) _ _
      (fun hnone st hst => ?_) fun e he st hst => ⟨he, hst⟩
    rw [hst.1]
    exact ⟨⟨hnone, rfl⟩, hst⟩
  refine alone_bind hread fun r' => alone_pure fun st hst => ⟨⟨hst.1.1, ?_⟩, hst.2⟩
  exact congrArg some hst.1.2

/-- `read`: the process knows the record. -/
theorem read_meets {v : Bool × DeployLocals × Dict String MininetRun} {record : Option PersistedRun} :
    Alone i env (fun st => st.1.record = record ∧ Remembers v st) read
      (fun r t => read_result env record = .ok r ∧ t.1.record = record ∧ Remembers v t)
      (fun e t => read_result env record = .error e ∧ t.1.record = record ∧ Remembers v t) := by
  unfold read_result
  refine alone_bind (state_exists_meets.on_raise fun e t ht => ?_)
    fun found => Meets.given fun hfound => ?_
  · rw [ht.1]
    exact ⟨rfl, ht.2⟩
  rw [hfound.1, hfound.2]
  cases record with
  | none => exact Meets.ite nofun fun _ => alone_pure fun _ hst => ⟨rfl, hst⟩
  | some r =>
    refine Meets.ite (fun hyes => ?_) fun hno => alone_pure fun st hst => ⟨?_, hst⟩
    · have hyes : (env .state_exists).yes = true := hyes
      refine alone_handle (read_state_meets.on_return fun r' t ht => ?_)
        fun e => Meets.given fun hraised => ?_
      · refine ⟨?_, ht.2⟩
        simp only [elim_none, elim_some, if_pos hyes, ht.1.1, ht.1.2]
      · simp only [elim_none, elim_some, if_pos hyes, hraised]
        unfold unreadable reading_error
        refine Meets.ite (fun hstore => alone_raise fun st hst => ⟨?_, hst⟩) fun hraw =>
          alone_raise fun st hst => ⟨?_, hst⟩
        · rw [if_pos hstore]
        · rw [if_neg hraw]
    · have hno : ¬ (env .state_exists).yes = true := hno
      simp only [elim_none, elim_some, if_neg hno]

end Store

end

end MininetAi
