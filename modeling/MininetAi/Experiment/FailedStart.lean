/-
Stopping after a start that has failed.

A stop tears the network down when its gate lets it in, both layers confirm and nothing but
an `Exception` comes in between. A layer that was constructed and never started is skipped
by the cleanup inside `start`, which asks for its flag, but not by `stop`, which asks
whether it is there: it refuses to stop, and no stop gets to the teardown any more.
-/
import MininetAi.Experiment.Conduct

set_option autoImplicit false

namespace MininetAi

open Function

open Routine ExperimentRuntime
open MininetOVSRuntime (TeardownResult)

/-! ## Calls against answers fixed in advance -/

/-- The answers to the calls of one `start` or `stop`. -/
structure ExperimentEnvironment where
  answer : ExperimentCall → ExperimentAnswer := fun _ => {}
  report : ContinuousRuntimeReport := {}

variable {κ : Type}

/-- The answer to an operation. -/
def ExperimentEnvironment.of (env : ExperimentEnvironment) : ExperimentOp κ → ExperimentAnswer
  | .call c => env.answer c
  | .continuous_report => { report := env.report }
  | .begin_start | .begin_stop | .update _ => {}

/-- An operation by itself. -/
def ExperimentOp.alone (i : κ) (env : ExperimentEnvironment) (o : ExperimentOp κ) (m : Experiment κ) :
    o.Reply × Experiment κ :=
  o.act i (env.of o) m

/-- A call of `stop`. -/
structure LaterStop where
  drain : Bool := true
  timeout_seconds : ℚ := 30
  env : ExperimentEnvironment := {}

/-- How it ends, and what it leaves. -/
def LaterStop.run (config : ExperimentConfig) (i : κ) (call : LaterStop) (m : Experiment κ) :
    Except ExperimentError ExperimentRuntimeReport × Experiment κ :=
  (stop config call.drain call.timeout_seconds).run (ExperimentOp.alone i call.env) m

/-- The fields after some stops. -/
def after_stops (config : ExperimentConfig) (i : κ) (calls : List LaterStop) (m : Experiment κ) :
    Experiment κ :=
  calls.foldl (fun m call => (call.run config i m).2) m

/-- Every layer that was started is able to stop. -/
def AbleToStop (call : LaterStop) (m : Experiment κ) : Prop :=
  ∀ c : Component, m.component c = some .running ∨ m.component c = some .stopping →
    (call.env.answer (c.wind_down call.drain)).raised = none

/-- A stop calls `substrate.teardown`. -/
def TearsDown (config : ExperimentConfig) (i : κ) (run_id : String) (call : LaterStop)
    (m : Experiment κ) : Prop :=
  ∃ outcome, (call.run config i m).2.history.teardowns = (run_id, outcome) :: m.history.teardowns

/-! ## When a stop gets to the teardown -/

/-- Something else than an `Exception` is raised. -/
def ExperimentEnvironment.interrupts (env : ExperimentEnvironment) (c : ExperimentCall) : Bool :=
  (env.answer c).raised.any fun e => !e.is_exception

def ledger_interrupted (config : ExperimentConfig) (env : ExperimentEnvironment) (entry : LifecycleEntry) :
    Bool :=
  config.ledger && env.interrupts (.append entry)

/-- The agents are interrupted while they close. -/
def closing_interrupted (config : ExperimentConfig) (env : ExperimentEnvironment) : Bool :=
  config.agents && env.interrupts .close_agents

/-- What `start` calls before a layer is there. -/
def preparations (config : ExperimentConfig) : List ExperimentCall :=
  [.verify_bounded_startup] ++ [.deploy] ++ (if config.ledger = true then [.create_run] else []) ++
    (if config.ledger = true then [.append { type := "run.starting", state := .starting }] else []) ++
    [.event_bus, .invoker, .coordinator, .continuous, .telemetry].map .construct

/-- These calls raise nothing. -/
def ExperimentEnvironment.Passes (env : ExperimentEnvironment) (calls : List ExperimentCall) : Prop :=
  ∀ c ∈ calls, (env.answer c).raised = none

/-- A start fails in `continuous.start`: the telemetry is there, and was not started. -/
structure ContinuousStartFails (config : ExperimentConfig) (env : ExperimentEnvironment) : Prop where
  prepared : env.Passes (preparations config)
  raised : (env.answer (.launch .continuous)).raised ≠ none

/-- The gate of a stop is open, the start did not fail in `continuous.start`, and nothing
interrupts the stop before the teardown. -/
structure ReachesTeardown (config : ExperimentConfig) (env : ExperimentEnvironment) (call : LaterStop)
    (m : Experiment κ) : Prop where
  timeout : 0 < call.timeout_seconds
  admitted : m.stoppable = true
  launched : ¬ ContinuousStartFails config env
  recorded : ledger_interrupted config call.env (stopping_entry m.retrying) = false
  closed : closing_interrupted config call.env = false

/-! ## Rules -/

section Rules

variable (i : κ) (env : ExperimentEnvironment)

/-- A thread that runs by itself. -/
def alone_turns : Terms (ExperimentOp κ) ExperimentOp.Reply (Experiment κ) :=
  turns i (fun o a _ => a = env.of o) (fun s t => s = t) (fun _ _ => True) (fun _ => rfl)
    fun _ _ _ h h' => h.trans h'

/-- What a call of such a thread does. -/
abbrev Solo {α : Type} (P : Experiment κ → Prop) (x : ExperimentRoutine κ α)
    (Q : α → Experiment κ → Prop) (R : ExperimentError → Experiment κ → Prop) : Prop :=
  Meets (alone_turns i env) P x Q R

variable {i env} {α β : Type} {P : Experiment κ → Prop}

theorem withstands_alone (P : Experiment κ → Prop) : Withstands (fun s t => s = t) P :=
  fun _ _ hs hst => hst ▸ hs

variable {R : ExperimentError → Experiment κ → Prop} {c : ExperimentCall}
  {Q : α → Experiment κ → Prop} {f : Experiment κ → Experiment κ} {x : ExperimentRoutine κ α}

theorem run_alone {m : Experiment κ} (h : Solo i env P x Q R) (hm : P m) :
    ends Q R (x.run (ExperimentOp.alone i env) m).1 (x.run (ExperimentOp.alone i env) m).2 :=
  Program.Ensures.run_of (T := alone_turns i env) (fun o _ => ⟨env.of o, rfl, rfl⟩) (h m hm)

theorem alone_then {f : α → ExperimentRoutine κ β} {Q' : β → Experiment κ → Prop}
    (hx : Solo i env P x Q R) (hf : ∀ a, Solo i env (Q a) (f a) Q' R) :
    Solo i env P (x >>= f) Q' R :=
  hx.bind hf fun _ => withstands_alone _

theorem alone_returned {a : α} (h : ∀ s, P s → Q a s) :
    Solo i env P (pure a : ExperimentRoutine κ α) Q R :=
  Meets.pure (withstands_alone _) h

theorem alone_access {Q : Experiment κ → Experiment κ → Prop}
    (h : ∀ s, P s → Q s (f s)) : Solo i env P (access f) Q R :=
  access_meets (withstands_alone _) (fun _ => withstands_alone _) (fun _ => withstands_alone _)
    (fun _ _ => trivial) h

theorem alone_assign {Q : Experiment κ → Prop}
    (h : ∀ s, P s → Q (f s)) : Solo i env P (assign f) (fun _ => Q) R :=
  assign_meets (withstands_alone _) (withstands_alone _) (fun _ => withstands_alone _)
    (fun _ _ => trivial) h

theorem alone_call {Q : c.Value → Experiment κ → Prop}
    (h : ∀ s, P s → ends Q R (c.outcome (env.answer c))
      { s with history := c.recorded (env.answer c) s.history }) :
    Solo i env P (experiment_call c) Q R := by
  refine call_meets (withstands_alone _) (fun _ => withstands_alone _) (fun _ => withstands_alone _)
    ⟨fun _ _ _ _ => trivial, fun s a hs ha => ?_⟩
  rw [ha]
  exact h s hs

/-- A plain call, to an assertion that does not look at what failed. -/
theorem alone_plain (hc : c.plain = true)
    (hP : ∀ s b, P s → P { s with history := { s.history with unrecorded := b } }) :
    Solo i env P (experiment_call c) (fun _ s => (env.answer c).raised = none ∧ P s)
      fun e s => (env.answer c).raised = some e ∧ P s := by
  refine alone_call fun s hs => ?_
  obtain ⟨v, hv⟩ := c.outcome_plain hc (env.answer c)
  obtain ⟨b, hb⟩ := c.recorded_plain hc (env.answer c) s.history
  rw [hv, hb]
  exact ExperimentAnswer.reply_ends (fun hnone => ⟨hnone, hP s b hs⟩) fun e he => ⟨he, hP s b hs⟩

/-- A plain call that may be left out. -/
theorem alone_plain_if {p : Prop} [Decidable p] (hc : c.plain = true)
    (hP : ∀ s b, P s → P { s with history := { s.history with unrecorded := b } }) :
    Solo i env P (call_all (if p then [c] else []))
      (fun _ s => (p → (env.answer c).raised = none) ∧ P s)
      fun e s => (p ∧ (env.answer c).raised = some e) ∧ P s := by
  by_cases hp : p
  · rw [if_pos hp]
    refine alone_then ((alone_plain hc hP).on_raise fun e s hs => ?_)
      fun _ => alone_returned fun s hs => ⟨fun _ => hs.1, hs.2⟩
    exact ⟨⟨hp, hs.1⟩, hs.2⟩
  · rw [if_neg hp]
    exact alone_returned fun s hs => ⟨fun h => absurd h hp, hs⟩

/-- When such a call is caught it matters whether it is interrupted. -/
theorem alone_tried {b : Bool} {x : ExperimentRoutine κ Unit}
    (hx : Solo i env P x (fun _ s => (b = true → (env.answer c).raised = none) ∧ P s)
      fun e s => (b = true ∧ (env.answer c).raised = some e) ∧ P s) :
    Solo i env P (tried x) (fun _ s => (b && env.interrupts c) = false ∧ P s)
      fun _ s => (b && env.interrupts c) = true ∧ P s := by
  refine (tried_meets (fun _ => withstands_alone _) (fun _ => withstands_alone _) hx).post (fun r s hs => ?_) fun e s hs => ?_
  · unfold ExperimentEnvironment.interrupts
    cases r with
    | ok _ =>
      refine ⟨?_, hs.2⟩
      cases b with
      | false => rfl
      | true => rw [hs.1 rfl]; rfl
    | error e =>
      obtain ⟨hexception, ⟨rfl, hraised⟩, hs⟩ := hs
      rw [hraised]
      exact ⟨by simp [hexception], hs⟩
  · obtain ⟨hexception, ⟨rfl, hraised⟩, hs⟩ := hs
    unfold ExperimentEnvironment.interrupts
    rw [hraised]
    exact ⟨by simp [hexception], hs⟩

end Rules

/-! ## The parts of a stop -/

section Stop

variable {i : κ} {env : ExperimentEnvironment} {config : ExperimentConfig} {run : RunInfo}
  {torn : List (String × Except ExperimentError TeardownResult)}

/-- What a stop sees: the layers, the run and the teardowns. -/
structure Sees (component : Component → Option ComponentState) (run : RunInfo)
    (torn : List (String × Except ExperimentError TeardownResult)) (m : Experiment κ) : Prop where
  component : m.component = component
  run : m.run = some run
  torn : m.history.teardowns = torn

variable {component : Component → Option ComponentState}

variable {m : Experiment κ} {entry : LifecycleEntry} {retrying : Bool}

/-- A record that fails is not seen. -/
theorem Sees.unrecorded (h : Sees component run torn m) (b : Bool) :
    Sees component run torn { m with history := { m.history with unrecorded := b } } where
  component := h.component
  run := h.run
  torn := h.torn

variable {R : ExperimentError → Experiment κ → Prop} {c : Component} {drain : Bool}

theorem sees_fields : Solo i env (Sees component run torn) fields
      (fun m s => Sees component run torn m ∧ Sees component run torn s) R :=
  alone_access fun _ hs => ⟨hs, hs⟩

/-- A record of a stop. -/
theorem record_issues_alone :
    Solo i env (Sees component run torn) (record_issues config entry)
      (fun _ s => ledger_interrupted config env entry = false ∧ Sees component run torn s)
      fun _ s => ledger_interrupted config env entry = true ∧ Sees component run torn s := by
  refine alone_then (alone_tried (b := config.ledger) (c := .append entry) ?_) fun _ =>
    alone_returned fun _ hs => hs
  refine alone_then (sees_fields) fun m => Meets.given fun hm => ?_
  have hrun : m.run.isSome = true := by rw [hm.run]; rfl
  refine (alone_plain_if rfl fun _ _ hs => hs.unrecorded _).post (fun _ s hs => ?_)
    fun e s hs => ?_
  · exact ⟨fun hledger => hs.1 ⟨hledger, hrun⟩, hs.2⟩
  · exact ⟨⟨hs.1.1.1, hs.1.2⟩, hs.2⟩

/-- What a layer waits for has ended. -/
theorem wound_down_alone (hable : (env.answer (c.wind_down drain)).raised = none) :
    Solo i env (Sees component run torn) (c.wound_down drain)
      (fun _ => Sees (update component c (some .stopped)) run torn) fun _ _ => False := by
  have hplain : (c.wind_down drain).plain = true := by cases c <;> rfl
  have hcall : Solo i env (Sees component run torn) (call_all [c.wind_down drain])
      (fun _ => Sees component run torn) fun _ _ => False := by
    refine alone_then ((alone_plain hplain fun _ _ hs => hs.unrecorded _).on_raise fun e s hs => ?_) fun _ => alone_returned fun s hs => hs.2
    rw [hable] at hs
    cases hs.1
  refine alone_then hcall fun _ => alone_assign fun s hs => ⟨?_, hs.run, hs.torn⟩
  exact congrArg (fun f => update f c (some ComponentState.stopped)) hs.component

/-- A layer that was started and is able to stop is stopped. -/
theorem component_stop_alone (hlaunched : component c ≠ some .created)
    (hthere : component c ≠ none)
    (hable : component c = some .running ∨ component c = some .stopping →
      (env.answer (c.wind_down drain)).raised = none) :
    Solo i env (Sees component run torn) (c.stop drain)
      (fun _ => Sees (update component c (some .stopped)) run torn) fun _ _ => False := by
  have hgate : Solo i env (Sees component run torn)
      (access (Experiment.begin_wind_down c))
      (fun m s => m.component c = component c ∧
        ∃ g, (update g c (some ComponentState.stopped) =
          update component c (some ComponentState.stopped) ∧
            (component c = some .stopped → g = component)) ∧ Sees g run torn s)
      fun _ _ => False := by
    refine alone_access fun s hs => ⟨congrFun hs.component c, ?_⟩
    unfold Experiment.begin_wind_down
    by_cases hrunning : s.component c = some .running
    · rw [if_pos hrunning]
      refine ⟨update s.component c (some .stopping), ⟨?_, fun hstopped => ?_⟩, rfl, hs.run, hs.torn⟩
      · rw [update_idem, hs.component]
      · rw [← hs.component, hrunning] at hstopped
        cases hstopped
    · rw [if_neg hrunning]
      exact ⟨component, ⟨rfl, fun _ => rfl⟩, hs⟩
  refine alone_then hgate fun m => Meets.given fun hm => Meets.of_exists fun g => Meets.given fun hg => ?_
  rw [hm, ← hg.1]
  cases hstate : component c with
  | none => exact absurd hstate hthere
  | some state =>
    cases state with
    | created => exact absurd hstate hlaunched
    | running => exact wound_down_alone (hable (Or.inl hstate))
    | stopping => exact wound_down_alone (hable (Or.inr hstate))
    | stopped =>
      refine alone_returned fun s hs => ?_
      rw [hg.2 hstate, ← hstate, update_eq_self]
      rw [hg.2 hstate] at hs
      exact hs

/-- A layer that was never started refuses. -/
theorem component_stop_refuses (hcreated : component c = some .created) :
    Solo i env (Sees component run torn) (c.stop drain) (fun _ _ => False)
      fun e s => e.is_exception = true ∧ Sees component run torn s := by
  have hgate : Solo i env (Sees component run torn)
      (access (Experiment.begin_wind_down c))
      (fun m s => m.component c = some .created ∧ Sees component run torn s) fun _ _ => False := by
    refine alone_access fun s hs => ?_
    have hstate : s.component c = some .created := (congrFun hs.component c).trans hcreated
    unfold Experiment.begin_wind_down
    rw [if_neg (by rw [hstate]; decide)]
    exact ⟨hstate, hs⟩
  refine alone_then (hgate.on_raise fun _ _ hs => hs.elim) fun m =>
    Meets.given fun hm => ?_
  rw [hm]
  exact Meets.raise (withstands_alone _) fun s hs => ⟨rfl, hs⟩

/-- `_stop_telemetry` and `_stop_continuous`, when what was started is able to stop. -/
theorem stop_layer_alone (hable : component c = some .running ∨ component c = some .stopping →
      (env.answer (c.wind_down drain)).raised = none) :
    Solo i env (Sees component run torn) (stop_layer c drain)
      (fun r s => (r.1 = true ↔ component c ≠ some .created) ∧
        ∃ g, (∀ c', c' ≠ c → g c' = component c') ∧ Sees g run torn s) R := by
  refine alone_then sees_fields fun m => Meets.given fun hm => ?_
  rw [hm.component]
  by_cases hnone : (component c).isNone = true
  · rw [if_pos hnone]
    refine alone_returned fun s hs => ⟨⟨fun _ hcreated => ?_, fun _ => rfl⟩, component, fun _ _ => rfl, hs⟩
    rw [hcreated] at hnone
    cases hnone
  rw [if_neg hnone]
  by_cases hcreated : component c = some .created
  · have htried : Solo i env (Sees component run torn) (tried (stop_and_note c drain))
        (fun r s => r.isOk = false ∧ Sees component run torn s) R := by
      have hstop : Solo i env (Sees component run torn) (stop_and_note c drain)
          (fun _ _ => False) fun e s => e.is_exception = true ∧ Sees component run torn s :=
        alone_then (component_stop_refuses hcreated) fun _ => fun _ hs => hs.elim
      refine (tried_meets (fun _ => withstands_alone _) (fun _ => withstands_alone _) hstop).post (fun r s hs => ?_) fun e s hs => ?_
      · cases r with
        | ok _ => exact hs.elim
        | error e => exact ⟨rfl, hs.2.2⟩
      · exact absurd hs.2.1 (by rw [hs.1]; decide)
    refine alone_then htried fun r => Meets.given fun hr => alone_returned fun s hs => ⟨?_, ?_⟩
    · exact iff_of_false (fun htrue => Bool.false_ne_true (hr.symm.trans htrue)) fun h => h hcreated
    · exact ⟨component, fun _ _ => rfl, hs⟩
  · have hstop : Solo i env (Sees component run torn) (stop_and_note c drain)
        (fun _ => Sees (update component c (some .stopped)) run torn) fun _ _ => False :=
      alone_then (component_stop_alone hcreated (fun h => hnone (by rw [h]; rfl)) hable) fun _ =>
        alone_assign fun s hs => ⟨hs.component, hs.run, hs.torn⟩
    have htried := tried_meets (fun _ => withstands_alone _) (fun _ => withstands_alone _) hstop
    refine alone_then (htried.on_raise fun _ _ hs => hs.2.elim) fun r =>
      alone_returned fun s hs => ?_
    cases r with
    | error e => exact hs.2.elim
    | ok _ =>
      refine ⟨iff_of_true rfl hcreated, _, fun c' hc' => ?_, hs⟩
      exact update_of_ne hc' _ _

/-- The teardown of the run was called. -/
def Torn (run : RunInfo) (torn : List (String × Except ExperimentError TeardownResult))
    (past : List (String × Except ExperimentError TeardownResult)) : Prop :=
  ∃ outcome, past = (run.id, outcome) :: torn

/-- The layers that are there and were never started. -/
def Unstarted (S : Component → Prop) (m : Experiment κ) : Prop := ∀ c, m.component c = some .created ↔ S c

/-- What stops and cleanups keep, the run and the layers that were never started, and
something about the teardowns. -/
def Past (run : Option RunInfo) (S : Component → Prop)
    (K : List (String × Except ExperimentError TeardownResult) → Prop) (m : Experiment κ) : Prop :=
  m.run = run ∧ Unstarted S m ∧ K m.history.teardowns

theorem Sees.past {K : List (String × Except ExperimentError TeardownResult) → Prop}
    (h : Sees component run torn m) (hK : K torn) :
    Past (some run) (fun c => component c = some .created) K m :=
  ⟨h.run, fun c => iff_of_eq (congrArg (· = some ComponentState.created) (congrFun h.component c)), h.torn ▸ hK⟩

variable {r : Option RunInfo} {S : Component → Prop}
  {K : List (String × Except ExperimentError TeardownResult) → Prop}

theorem teardown_settled_alone {issues : List ExperimentRuntimeIssue}
    {result : Except ExperimentError TeardownResult} :
    Solo i env (Past r S K) (teardown_settled issues result) (fun _ => Past r S K)
      fun _ => Past r S K := by
  cases result with
  | ok result => exact alone_then (alone_assign fun s hs => hs) fun _ => alone_returned fun s hs => hs
  | error e =>
    refine alone_then ((conclude_meets (withstands_alone _)).post (fun _ _ hs => hs.2) fun _ _ hs => hs.2)
      fun failure => ?_
    refine alone_then (alone_assign (Q := Past r S K) fun s hs => hs) fun _ => ?_
    refine alone_then (alone_access (Q := fun _ => Past r S K) fun s hs => hs) fun m => ?_
    refine alone_then ((demand_meets (withstands_alone _)).post (fun _ _ hs => hs.2) fun _ _ hs => hs.2)
      fun _ => ?_
    exact alone_then (alone_assign (Q := Past r S K) fun s hs => hs) fun _ => alone_returned fun s hs => hs

/-- `_teardown` calls the teardown unless the agents are interrupted. -/
theorem teardown_alone : Solo i env (Sees component run torn) (teardown config)
      (fun _ s => closing_interrupted config env = false ∧ Past (some run) (fun c => component c = some .created) (Torn run torn) s)
      fun _ s => closing_interrupted config env = true ∧ Past (some run) (fun c => component c = some .created) (· = torn) s ∨
        closing_interrupted config env = false ∧ Past (some run) (fun c => component c = some .created) (Torn run torn) s := by
  refine alone_then (alone_assign (Q := Sees component run torn) fun s hs => ⟨hs.component, hs.run, hs.torn⟩)
    fun _ => ?_
  have hclose : Solo i env (Sees component run torn)
      (tried (call_all (if config.agents = true then [.close_agents] else [])))
      (fun _ s => closing_interrupted config env = false ∧ Sees component run torn s)
      fun _ s => closing_interrupted config env = true ∧ Sees component run torn s :=
    alone_tried (alone_plain_if rfl fun _ _ hs => hs.unrecorded _)
  refine alone_then (hclose.on_raise fun _ s hs =>
      Or.inl ⟨hs.1, hs.2.past rfl⟩)
    fun closing => Meets.given fun hclosed => ?_
  refine alone_then sees_fields fun m => Meets.given fun hm => ?_
  rw [hm.run]
  have hcall : Solo i env (Sees component run torn) (experiment_call (.teardown run.id))
      (fun _ => Past (some run) (fun c => component c = some .created) (Torn run torn)) fun _ => Past (some run) (fun c => component c = some .created) (Torn run torn) := by
    refine alone_call fun s hs => ?_
    have htorn : Past (some run) (fun c => component c = some .created) (Torn run torn)
        { s with history := (ExperimentCall.teardown run.id).recorded (env.answer (.teardown run.id)) s.history } :=
      ⟨hs.run, (hs.past (K := fun _ => True) trivial).2.1, _, by rw [← hs.torn]; rfl⟩
    exact ExperimentAnswer.reply_ends (fun _ => htorn) fun _ _ => htorn
  have htried := tried_meets (fun _ => withstands_alone _) (fun _ => withstands_alone _) hcall
  refine alone_then (htried.post (fun r s hs => ?_) fun e s hs => Or.inr ⟨hclosed, hs.2⟩)
    fun r => teardown_settled_alone.post (fun _ s hs => ⟨hclosed, hs⟩)
      fun _ s hs => Or.inr ⟨hclosed, hs⟩
  cases r with
  | ok _ => exact hs
  | error e => exact hs.2

theorem tried_past {α : Type} {x : ExperimentRoutine κ α}
    (hx : Solo i env (Past r S K) x (fun _ => Past r S K) fun _ => Past r S K) :
    Solo i env (Past r S K) (tried x) (fun _ => Past r S K) fun _ => Past r S K := by
  refine (tried_meets (fun _ => withstands_alone _) (fun _ => withstands_alone _) hx).post (fun r s hs => ?_) fun _ _ hs => hs.2
  cases r with
  | ok _ => exact hs
  | error e => exact hs.2

theorem record_issues_past :
    Solo i env (Past r S K) (record_issues config entry) (fun _ => Past r S K) fun _ => Past r S K := by
  have hrecord : Solo i env (Past r S K) (record_lifecycle config entry) (fun _ => Past r S K)
      fun _ => Past r S K := by
    refine alone_then (alone_access (Q := fun _ => Past r S K) fun s hs => hs) fun m => ?_
    exact (alone_plain_if (P := Past r S K) rfl fun _ _ hs => hs).post (fun _ _ hs => hs.2) fun _ _ hs => hs.2
  exact alone_then (tried_past hrecord) fun _ => alone_returned fun _ hs => hs

/-- After the teardown nothing is torn down. -/
theorem finish_past {o : StopOutcome} :
    Solo i env (Past r S K) (finish config o) (fun _ => Past r S K) fun _ => Past r S K := by
  refine alone_then (alone_access (Q := fun _ => Past r S K) fun s hs => hs) fun m => ?_
  refine alone_then record_issues_past fun recorded => ?_
  refine alone_then (alone_assign (Q := Past r S K) fun s hs => hs) fun _ => ?_
  refine alone_then (alone_assign (Q := Past r S K) fun s hs => hs) fun _ => ?_
  refine alone_then (alone_access (Q := fun _ => Past r S K) fun s hs => hs) fun m' => ?_
  refine alone_then ((conclude_meets (withstands_alone _)).post (fun _ _ hs => hs.2) fun _ _ hs => hs.2)
    fun found => ?_
  exact alone_then (alone_assign (Q := Past r S K) fun s hs => hs) fun _ => alone_returned fun s hs => hs

theorem report_continuous_alone :
    Solo i env (Sees component run torn) report_continuous
      (fun _ => Sees component run torn) R := by
  refine alone_then sees_fields fun m => Meets.given fun _ => ?_
  refine Meets.ite (fun _ => alone_returned fun _ hs => hs) fun _ => ?_
  exact perform_meets (o := .continuous_report) (k := .ok) (withstands_alone _)
    (fun _ => withstands_alone _) (fun _ => withstands_alone _)
    ⟨fun _ _ _ _ => trivial, fun _ _ hs _ => hs⟩

theorem report_continuous_past :
    Solo i env (Past r S K) report_continuous (fun _ => Past r S K) fun _ => Past r S K := by
  refine alone_then (alone_access (Q := fun _ => Past r S K) fun s hs => hs) fun m => ?_
  refine Meets.ite (fun _ => alone_returned fun _ hs => hs) fun _ => ?_
  exact perform_meets (o := .continuous_report) (k := .ok) (withstands_alone _)
    (fun _ => withstands_alone _) (fun _ => withstands_alone _)
    ⟨fun _ _ _ _ => trivial, fun _ _ hs _ => hs⟩

/-- A layer that is asked to stop stays as it is when it was never started, and nothing is
torn down. -/
theorem component_stop_past :
    Solo i env (Past r S K) (c.stop drain) (fun _ => Past r S K) fun _ => Past r S K := by
  have hplain : (c.wind_down drain).plain = true := by cases c <;> rfl
  have hset : ∀ (s : Experiment κ) (state : ComponentState), state ≠ .created → ¬ S c → Past r S K s →
      Past r S K (s.set_component c state) := by
    intro s state hstate hc hs
    refine ⟨hs.1, fun c' => ?_, hs.2.2⟩
    by_cases heq : c' = c
    · rw [heq]
      refine iff_of_false (fun hcreated => hstate ?_) hc
      rw [show (s.set_component c state).component c = some state from update_self ..] at hcreated
      exact Option.some.inj hcreated
    · rw [show (s.set_component c state).component c' = s.component c' from update_of_ne heq _ _]
      exact hs.2.1 c'
  have hdown : ¬ S c → Solo i env (Past r S K) (c.wound_down drain) (fun _ => Past r S K)
      fun _ => Past r S K := by
    intro hc
    refine alone_then ?_ fun _ => alone_assign fun s hs => hset s .stopped (by decide) hc hs
    refine alone_then ((alone_plain (P := Past r S K) hplain fun _ _ hs => hs).post
      (fun _ _ hs => hs.2) fun _ _ hs => hs.2) fun _ => alone_returned fun _ hs => hs
  have hgate : Solo i env (Past r S K) (access (Experiment.begin_wind_down c))
      (fun m s => (m.component c = some .created ↔ S c) ∧ Past r S K s) fun _ => Past r S K := by
    refine alone_access fun s hs => ⟨hs.2.1 c, ?_⟩
    unfold Experiment.begin_wind_down
    by_cases hrunning : s.component c = some .running
    · rw [if_pos hrunning]
      refine hset s .stopping (by decide) (fun hc => ?_) hs
      rw [(hs.2.1 c).mpr hc] at hrunning
      cases hrunning
    · rw [if_neg hrunning]
      exact hs
  refine alone_then hgate fun m => Meets.given fun hm => ?_
  cases hstate : m.component c with
  | none => exact Meets.raise (withstands_alone _) fun _ hs => hs
  | some state =>
    rw [hstate] at hm
    cases state with
    | created => exact Meets.raise (withstands_alone _) fun _ hs => hs
    | running => exact hdown fun hc => by cases hm.mpr hc
    | stopping => exact hdown fun hc => by cases hm.mpr hc
    | stopped => exact alone_returned fun _ hs => hs

theorem stop_and_note_past :
    Solo i env (Past r S K) (stop_and_note c drain) (fun _ => Past r S K)
      fun _ => Past r S K :=
  alone_then component_stop_past fun _ => alone_assign fun _ hs => hs

theorem stop_layer_past :
    Solo i env (Past r S K) (stop_layer c drain) (fun _ => Past r S K) fun _ => Past r S K := by
  refine alone_then (alone_access (Q := fun _ => Past r S K) fun s hs => hs) fun m => ?_
  refine Meets.ite (fun _ => alone_returned fun _ hs => hs) fun _ => ?_
  exact alone_then (tried_past stop_and_note_past) fun _ => alone_returned fun _ hs => hs

/-- A teardown keeps what is known but the teardowns. -/
theorem teardown_past : Solo i env (Past r S fun _ => True) (teardown config)
      (fun _ => Past r S fun _ => True) fun _ => Past r S fun _ => True := by
  refine alone_then (alone_assign (Q := Past r S fun _ => True) fun s hs => hs) fun _ => ?_
  refine alone_then (tried_past ((alone_plain_if rfl fun _ _ hs => hs).post
    (fun _ _ hs => hs.2) fun _ _ hs => hs.2)) fun closing => ?_
  refine alone_then (alone_access (Q := fun _ => Past r S fun _ => True) fun s hs => hs) fun m => ?_
  cases m.run with
  | none => exact alone_returned fun _ hs => hs
  | some found =>
    refine alone_then (tried_past ?_) fun result => teardown_settled_alone
    refine alone_call fun s hs => ?_
    exact ExperimentAnswer.reply_ends (fun _ => ⟨hs.1, hs.2.1, trivial⟩) fun _ _ => ⟨hs.1, hs.2.1, trivial⟩

/-- So does a stop past its gate. -/
theorem stopping_past :
    Solo i env (Past r S fun _ => True) (stopping config drain retrying)
      (fun _ => Past r S fun _ => True) fun _ => Past r S fun _ => True := by
  refine alone_then (alone_access (Q := fun _ => Past r S fun _ => True) fun s hs => hs) fun m => ?_
  refine alone_then record_issues_past fun recorded => ?_
  refine alone_then stop_layer_past fun telemetry => ?_
  refine alone_then stop_layer_past fun continuous => ?_
  refine alone_then report_continuous_past fun report => ?_
  refine alone_then ?_ fun result => finish_past
  exact Meets.ite (fun _ => teardown_past) fun _ => alone_returned fun _ hs => hs

/-- What a stop past its gate has done, when `c` says whether it gets to the teardown. -/
def Decided (c : Prop) (run : RunInfo) (torn : List (String × Except ExperimentError TeardownResult))
    (m : Experiment κ) : Prop :=
  (c → Torn run torn m.history.teardowns) ∧ (¬ c → m.history.teardowns = torn)

/-- A stop past its gate. -/
theorem stopping_alone
    (hable : ∀ c : Component, component c = some .running ∨ component c = some .stopping →
      (env.answer (c.wind_down drain)).raised = none) :
    Solo i env (Sees component run torn) (stopping config drain retrying)
      (fun _ => Decided ((∀ c, component c ≠ some .created) ∧
        ledger_interrupted config env (stopping_entry retrying) = false ∧
          closing_interrupted config env = false) run torn)
      fun _ => Decided ((∀ c, component c ≠ some .created) ∧
        ledger_interrupted config env (stopping_entry retrying) = false ∧
          closing_interrupted config env = false) run torn := by
  refine alone_then sees_fields fun m => Meets.given fun _ => ?_
  refine alone_then (record_issues_alone.on_raise fun _ s hs => ?_)
    fun recorded => Meets.given fun hrecorded => ?_
  · exact ⟨fun hc => absurd hs.1 (by rw [hc.2.1]; decide), fun _ => hs.2.torn⟩
  refine alone_then (stop_layer_alone (hable .telemetry)) fun telemetry =>
    Meets.given fun htelemetry => Meets.of_exists fun g => Meets.given fun hg => ?_
  have hcontinuous : g .continuous = component .continuous := hg .continuous (by decide)
  refine alone_then (stop_layer_alone (by rw [hcontinuous]; exact hable .continuous)) fun continuous =>
    Meets.given fun hstopped => Meets.of_exists fun g' => Meets.given fun _ => ?_
  refine alone_then report_continuous_alone fun report => ?_
  rw [hcontinuous] at hstopped
  have hlaunched : (telemetry.1 && continuous.1) = true ↔ ∀ c, component c ≠ some .created := by
    rw [Bool.and_eq_true, htelemetry, hstopped]
    refine ⟨fun h c => ?_, fun h => ⟨h .telemetry, h .continuous⟩⟩
    cases c with
    | telemetry => exact h.1
    | continuous => exact h.2
  by_cases hsafe : (telemetry.1 && continuous.1) = true
  · have hall := hlaunched.mp hsafe
    have hteardown : Solo i env (Sees g' run torn)
        (teardown_if (telemetry.1 && continuous.1) config)
        (fun _ s => closing_interrupted config env = false ∧
          Past (some run) (fun c => g' c = some .created) (Torn run torn) s)
        fun _ s => closing_interrupted config env = true ∧
            Past (some run) (fun c => g' c = some .created) (· = torn) s ∨
          closing_interrupted config env = false ∧
            Past (some run) (fun c => g' c = some .created) (Torn run torn) s := by
      unfold teardown_if
      rw [if_pos hsafe]
      exact teardown_alone
    refine alone_then (hteardown.on_raise fun _ s hs => ?_) fun result =>
      Meets.given fun hclosed => finish_past.post
        (fun _ s hs => ⟨fun _ => hs.2.2, fun hc => absurd ⟨hall, hrecorded, hclosed⟩ hc⟩)
        fun _ s hs => ⟨fun _ => hs.2.2, fun hc => absurd ⟨hall, hrecorded, hclosed⟩ hc⟩
    rcases hs with ⟨hclosing, hs⟩ | ⟨hclosed, hs⟩
    · exact ⟨fun hc => absurd hclosing (by rw [hc.2.2]; decide), fun _ => hs.2.2⟩
    · exact ⟨fun _ => hs.2.2, fun hc => absurd ⟨hall, hrecorded, hclosed⟩ hc⟩
  · have hteardown : Solo i env (Sees g' run torn)
        (teardown_if (telemetry.1 && continuous.1) config)
        (fun _ => Past (some run) (fun c => g' c = some .created) (· = torn)) fun _ _ => False := by
      unfold teardown_if
      rw [if_neg hsafe]
      exact alone_returned fun s hs => hs.past rfl
    exact alone_then (hteardown.on_raise fun _ _ hs => hs.elim) fun result =>
      finish_past.post
        (fun _ s hs => ⟨fun hc => absurd (hlaunched.mpr hc.1) hsafe, fun _ => hs.2.2⟩)
        fun _ s hs => ⟨fun hc => absurd (hlaunched.mpr hc.1) hsafe, fun _ => hs.2.2⟩

end Stop

/-! ## The main result -/

section Result

variable {config : ExperimentConfig} {i : κ} {run : RunInfo} {call : LaterStop} {m : Experiment κ}

/-- The gate of `stop`. -/
theorem begin_stop_alone {env : ExperimentEnvironment} {R : ExperimentError → Experiment κ → Prop} :
    Solo i env (fun s => s = m)
      (Program.perform .begin_stop fun m => .done (.ok m) : ExperimentRoutine κ (Experiment κ))
      (fun m' s => m' = m ∧ s = m.begin_stop i) R :=
  perform_meets (o := .begin_stop) (k := .ok) (withstands_alone _) (fun _ => withstands_alone _)
    (fun _ => withstands_alone _)
    ⟨fun _ _ _ _ => trivial, fun _ _ hs _ => ⟨hs, congrArg (Experiment.begin_stop i) hs⟩⟩

theorem begin_stop_sees (hrun : m.run = some run) (hopen : m.stoppable = true) :
    Sees m.component run m.history.teardowns (m.begin_stop i) := by
  unfold Experiment.begin_stop
  rw [if_pos hopen]
  exact ⟨rfl, hrun, rfl⟩

theorem begin_stop_closed (hclosed : ¬ m.stoppable = true) : m.begin_stop i = m := by
  unfold Experiment.begin_stop
  exact if_neg hclosed

/-- One assertion for returning and raising. -/
theorem ends_same {α : Type} {result : Except ExperimentError α} {P : Experiment κ → Prop}
    (h : ends (fun _ => P) (fun _ => P) result m) : P m := by
  cases result with
  | ok _ => exact h
  | error e => exact h

/-- A stop that may get to the teardown: what is asked of the fields and of the call. -/
structure MayTearDown (config : ExperimentConfig) (call : LaterStop) (m : Experiment κ) : Prop where
  timeout : 0 < call.timeout_seconds
  admitted : m.stoppable = true
  launched : ∀ c, m.component c ≠ some .created
  recorded : ledger_interrupted config call.env (stopping_entry m.retrying) = false
  closed : closing_interrupted config call.env = false

/-- What a stop has done. -/
theorem stop_decides (hrun : m.run = some run) (hable : AbleToStop call m) :
    Decided (MayTearDown config call m) run m.history.teardowns (call.run config i m).2 := by
  have hstop : Meets (alone_turns i call.env) (fun s => s = m)
      (stop config call.drain call.timeout_seconds)
      (fun _ => Decided (MayTearDown config call m) run m.history.teardowns)
      fun _ => Decided (MayTearDown config call m) run m.history.teardowns := by
    refine alone_then ((demand_meets (withstands_alone _)).on_raise
      fun _ s hs => ?_) fun _ => Meets.given fun htimeout => ?_
    · obtain ⟨⟨hfalse, -⟩, rfl⟩ := hs
      exact ⟨fun hc => absurd (decide_eq_true hc.timeout) (by rw [hfalse]; decide), fun _ => rfl⟩
    refine alone_then begin_stop_alone fun m' => Meets.given fun hm => ?_
    rw [hm]
    by_cases hopen : m.stoppable = true
    · unfold stop_from
      rw [if_pos hopen]
      have hmay : MayTearDown config call m ↔ (∀ c, m.component c ≠ some .created) ∧
          ledger_interrupted config call.env (stopping_entry m.retrying) = false ∧
            closing_interrupted config call.env = false :=
        ⟨fun h => ⟨h.launched, h.recorded, h.closed⟩,
          fun h => ⟨of_decide_eq_true htimeout, hopen, h.1, h.2.1, h.2.2⟩⟩
      rw [hmay]
      exact (stopping_alone hable).pre fun s hs => hs ▸ begin_stop_sees hrun hopen
    · unfold stop_from
      rw [if_neg hopen]
      have hkept : ∀ s, s = m.begin_stop i → Decided (MayTearDown config call m) run m.history.teardowns s := by
        intro s hs
        rw [hs, begin_stop_closed hopen]
        exact ⟨fun hc => absurd hc.admitted hopen, fun _ => rfl⟩
      exact (conclude_meets (withstands_alone _)).post (fun _ s hs => hkept s hs.2)
        fun _ s hs => hkept s hs.2
  exact ends_same (run_alone hstop rfl)

variable {S : Component → Prop}

/-- A stop keeps the run and the layers that were never started. -/
theorem stop_keeps (hm : Past (some run) S (fun _ => True) m) :
    Past (some run) S (fun _ => True) (call.run config i m).2 := by
  have hstop : Meets (alone_turns i call.env) (fun s => s = m)
      (stop config call.drain call.timeout_seconds) (fun _ => Past (some run) S fun _ => True)
      fun _ => Past (some run) S fun _ => True := by
    refine alone_then ((demand_meets (withstands_alone _)).post (fun _ _ hs => hs.2)
      fun _ s hs => ?_) fun _ => ?_
    · rw [hs.2]
      exact hm
    refine alone_then begin_stop_alone fun m' => Meets.given fun hm' => ?_
    rw [hm']
    by_cases hopen : m.stoppable = true
    · unfold stop_from
      rw [if_pos hopen]
      refine stopping_past.pre fun s hs => ?_
      rw [hs]
      unfold Experiment.begin_stop
      rw [if_pos hopen]
      exact hm
    · unfold stop_from
      rw [if_neg hopen, begin_stop_closed hopen]
      exact (conclude_meets (withstands_alone _)).post (fun _ s hs => hs.2 ▸ hm)
        fun _ s hs => hs.2 ▸ hm
  exact ends_same (run_alone hstop rfl)

/-- So do several. The induction is on the stops. -/
theorem after_stops_keep {stops : List LaterStop} (hm : Past (some run) S (fun _ => True) m) :
    Past (some run) S (fun _ => True) (after_stops config i stops m) := by
  induction stops generalizing m with
  | nil => exact hm
  | cons call rest ih => exact ih (stop_keeps hm)

end Result

/-! ## The layers a start that fails leaves -/

section Start

variable {i : κ} {env : ExperimentEnvironment} {config : ExperimentConfig} {S : Component → Prop}
  {P : Experiment κ → Prop}

/-- A call, to an assertion that does not look at the history. -/
theorem call_alone {c : ExperimentCall} (hP : ∀ s past, P s → P { s with history := past }) :
    Solo i env P (experiment_call c) (fun _ s => env.Passes [c] ∧ P s)
      fun _ s => ¬ env.Passes [c] ∧ P s := by
  refine alone_call fun s hs => ExperimentCall.outcome_ends (fun hnone _ => ⟨?_, hP s _ hs⟩) fun hraised _ =>
    ⟨fun hpasses => hraised (hpasses c List.mem_cons_self), hP s _ hs⟩
  exact List.forall_mem_singleton.mpr hnone

variable {calls : List ExperimentCall} {m : Experiment κ} {e : ExperimentError}

theorem ExperimentEnvironment.passes_append {calls' : List ExperimentCall} :
    env.Passes (calls ++ calls') ↔ env.Passes calls ∧ env.Passes calls' :=
  List.forall_mem_append

/-- Calls one after the other. -/
theorem calls_alone (hP : ∀ s past, P s → P { s with history := past }) :
    Solo i env P (call_all calls) (fun _ s => env.Passes calls ∧ P s)
      fun _ s => ¬ env.Passes calls ∧ P s := by
  refine call_all_meets (K := fun c => (env.answer c).raised = none) (withstands_alone _)
    (fun _ => withstands_alone _) fun c hc => (call_alone hP).post
      (fun _ s hs => ⟨hs.1 c List.mem_cons_self, hs.2⟩) fun _ s hs => ⟨fun hpasses => ?_, hs.2⟩
  exact hs.1 (List.forall_mem_singleton.mpr (hpasses c hc))

/-- There is a run, and these layers were never started. -/
def Deployed (S : Component → Prop) (m : Experiment κ) : Prop := m.run.isSome = true ∧ Unstarted S m

/-- A record of a run that is there. -/
theorem record_alone {entry : LifecycleEntry} :
    Solo i env (Deployed S) (record_lifecycle config entry)
      (fun _ s => env.Passes (if config.ledger = true then [.append entry] else []) ∧ Deployed S s)
      fun _ s => ¬ env.Passes (if config.ledger = true then [.append entry] else []) ∧ Deployed S s := by
  refine alone_then (alone_access (Q := fun m s => m.run.isSome = true ∧ Deployed S s)
    fun s hs => ⟨hs.1, hs⟩) fun m => Meets.given fun hrun => ?_
  simp only [hrun, and_true]
  exact calls_alone fun _ _ hs => hs

/-- `start` before a layer is there. -/
theorem prepare_alone : Solo i env (Unstarted S) (prepare config)
      (fun _ s => env.Passes (preparations config) ∧ Deployed S s)
      fun _ s => ¬ env.Passes (preparations config) ∧ Unstarted S s := by
  have hall : env.Passes (preparations config) ↔ (((env.Passes [.verify_bounded_startup] ∧
      env.Passes [.deploy]) ∧ env.Passes (if config.ledger = true then [.create_run] else [])) ∧
      env.Passes (if config.ledger = true then
        [.append { type := "run.starting", state := .starting }] else [])) ∧
      env.Passes ([.event_bus, .invoker, .coordinator, .continuous, .telemetry].map .construct) := by
    unfold preparations
    rw [env.passes_append, env.passes_append, env.passes_append, env.passes_append]
  refine alone_then ((call_alone fun _ _ hs => hs).on_raise
    fun _ s hs => ⟨fun h => hs.1 (hall.mp h).1.1.1.1, hs.2⟩) fun _ => Meets.given fun hverified => ?_
  refine alone_then ((call_alone fun _ _ hs => hs).on_raise
    fun _ s hs => ⟨fun h => hs.1 (hall.mp h).1.1.1.2, hs.2⟩) fun run => Meets.given fun hdeployed => ?_
  refine alone_then (alone_assign (Q := Deployed S) fun s hs => ⟨rfl, hs⟩) fun _ => ?_
  refine alone_then ((calls_alone fun _ _ hs => hs).on_raise
    fun _ s hs => ⟨fun h => hs.1 (hall.mp h).1.1.2, hs.2.2⟩) fun _ => Meets.given fun hcreated => ?_
  refine alone_then (record_alone.on_raise
    fun _ s hs => ⟨fun h => hs.1 (hall.mp h).1.2, hs.2.2⟩) fun _ => Meets.given fun hrecorded => ?_
  refine alone_then ((calls_alone fun _ _ hs => hs).on_raise
    fun _ s hs => ⟨fun h => hs.1 (hall.mp h).2, hs.2.2⟩) fun _ => Meets.given fun hparts => ?_
  exact alone_returned fun s hs => ⟨hall.mpr ⟨⟨⟨⟨hverified, hdeployed⟩, hcreated⟩, hrecorded⟩, hparts⟩, hs⟩

/-- A layer that is there starts: from then on it was started. -/
theorem launch_alone {c : Component} (hc : S c) :
    Solo i env (Unstarted S) (launch c)
      (fun _ s => (env.answer (.launch c)).raised = none ∧ Unstarted (fun c' => S c' ∧ c' ≠ c) s)
      fun _ s => (env.answer (.launch c)).raised ≠ none ∧ Unstarted (fun c' => S c' ∧ c' ≠ c) s := by
  refine alone_then (alone_assign (Q := Unstarted S) fun s hs => hs) fun _ => ?_
  refine alone_then (alone_access (Q := fun m s => m.component c = some .created ∧
    Unstarted (fun c' => S c' ∧ c' ≠ c) s) fun s hs => ⟨(hs c).mpr hc, fun c' => ?_⟩) fun m =>
      Meets.given fun hm => ?_
  · unfold Experiment.begin_launch
    rw [if_pos ((hs c).mpr hc)]
    by_cases heq : c' = c
    · rw [heq, show (s.set_component c .running).component c = some .running from update_self ..]
      exact iff_of_false (by decide) fun h => h.2 rfl
    · rw [show (s.set_component c .running).component c' = s.component c' from update_of_ne heq _ _]
      exact (hs c').trans (and_iff_left heq).symm
  · rw [hm]
    refine (call_alone fun _ _ hs => hs).post
      (fun _ s hs => ⟨hs.1 _ List.mem_cons_self, hs.2⟩) fun _ s hs => ⟨fun hnone => hs.1 ?_, hs.2⟩
    exact List.forall_mem_singleton.mpr hnone

/-- The layer a failing `continuous.start` leaves. -/
def Forgotten (config : ExperimentConfig) (env : ExperimentEnvironment) (c : Component) : Prop :=
  c = .telemetry ∧ ContinuousStartFails config env

theorem unstarted_congr {S' : Component → Prop} (h : ∀ c, S c ↔ S' c) (hm : Unstarted S m) :
    Unstarted S' m :=
  fun c => (hm c).trans (h c)

/-- The body of `start`, when it raises. -/
theorem starting_alone :
    Solo i env (Unstarted fun _ => False) (starting config) (fun _ _ => True)
      fun _ => Unstarted (Forgotten config env) := by
  refine alone_then (prepare_alone.on_raise fun _ s hs => ?_) fun run =>
    Meets.given fun hprepared => ?_
  · exact unstarted_congr (fun c => iff_of_false id fun h => hs.1 h.2.prepared) hs.2
  refine alone_then (alone_assign (Q := Unstarted fun _ => True) fun s hs c => ?_) fun _ => ?_
  · refine iff_of_true ?_ trivial
    cases c <;> rfl
  refine alone_then ((launch_alone (c := .continuous) trivial).on_raise
    fun _ s hs => ?_) fun _ => Meets.given fun hpasses => ?_
  · refine unstarted_congr (fun c => ?_) hs.2
    cases c with
    | telemetry => exact iff_of_true ⟨trivial, by decide⟩ ⟨rfl, hprepared, hs.1⟩
    | continuous => exact iff_of_false (fun h => h.2 rfl) fun h => by cases h.1
  have hnone : ∀ s : Experiment κ, Unstarted (fun c => (True ∧ c ≠ .continuous) ∧ c ≠ .telemetry) s →
      Unstarted (Forgotten config env) s := by
    intro s hs
    refine unstarted_congr (fun c => iff_of_false (fun h => ?_) fun h => h.2.raised hpasses) hs
    cases c with
    | telemetry => exact h.2 rfl
    | continuous => exact h.1.2 rfl
  refine alone_then ((launch_alone (c := .telemetry) ⟨trivial, by decide⟩).post
    (fun _ s hs => hnone s hs.2) fun _ s hs => hnone s hs.2) fun _ => ?_
  refine alone_then (alone_assign (Q := Unstarted (Forgotten config env)) fun s hs => hs) fun _ => ?_
  refine alone_then (alone_then (alone_access (Q := fun _ => Unstarted (Forgotten config env))
    fun s hs => hs) fun m => (calls_alone fun _ _ hs => hs).post
      (fun _ _ hs => hs.2) fun _ _ hs => hs.2) fun _ => ?_
  exact alone_returned fun _ _ => trivial

/-- The handler of `start` keeps the layers that were never started. -/
theorem start_failed_alone {r : Option RunInfo} :
    Solo i env (Past r S fun _ => True) (start_failed config e) (fun _ _ => True)
      fun _ => Unstarted S := by
  have hstopped : ∀ c, Solo i env (Past r S fun _ => True) (stop_started c)
      (fun _ => Past r S fun _ => True) fun _ => Past r S fun _ => True := by
    intro c
    refine alone_then (alone_access (Q := fun _ => Past r S fun _ => True) fun s hs => hs) fun m => ?_
    refine alone_then (alone_access (Q := fun _ => Past r S fun _ => True) fun s hs => hs) fun m' => ?_
    refine Meets.ite (fun _ => ?_) fun _ => alone_returned fun _ hs => hs
    exact alone_then (tried_past stop_and_note_past) fun _ => alone_returned fun _ hs => hs
  have hcleanup : Solo i env (Past r S fun _ => True) (cleanup_start_failure config)
      (fun _ => Past r S fun _ => True) fun _ => Past r S fun _ => True := by
    refine alone_then (hstopped .telemetry) fun telemetry => ?_
    refine alone_then (hstopped .continuous) fun continuous => ?_
    refine Meets.ite (fun _ => ?_) fun _ => alone_returned fun _ hs => hs
    exact alone_then teardown_past fun result => alone_assign fun s hs => hs
  refine alone_then (alone_assign (Q := Past r S fun _ => True) fun s hs => hs) fun _ => ?_
  refine alone_then (alone_assign (Q := Past r S fun _ => True) fun s hs => hs) fun _ => ?_
  refine alone_then (hcleanup.on_raise fun _ _ hs => hs.2.1) fun _ => ?_
  refine alone_then (alone_assign (Q := Unstarted S) fun s hs => hs.2.1) fun _ => ?_
  refine alone_then (alone_access (Q := fun _ => Unstarted S) fun s hs => hs) fun m => ?_
  exact Meets.raise (withstands_alone _) fun _ hs => hs

/-- What a start that fails leaves. -/
theorem failed_start_layers (h : (start config).run (ExperimentOp.alone i env) {} = (.error e, m)) :
    Unstarted (Forgotten config env) m := by
  have hstart : Solo i env (fun s => s = ({} : Experiment κ)) (start config)
      (fun _ _ => True) fun _ => Unstarted (Forgotten config env) := by
    have hgate : Solo i env (fun s => s = ({} : Experiment κ))
        (Program.perform .begin_start fun m => .done (.ok m) : ExperimentRoutine κ (Experiment κ))
        (fun m s => m.state = .created ∧ Unstarted (fun _ => False) s)
        fun _ => Unstarted (Forgotten config env) := by
      refine perform_meets (o := .begin_start) (k := .ok) (withstands_alone _) (fun _ => withstands_alone _)
        (fun _ => withstands_alone _) ⟨fun _ _ _ _ => trivial, fun s a hs _ => ?_⟩
      rw [hs]
      exact ⟨rfl, fun c => iff_of_false nofun id⟩
    refine alone_then hgate fun m => Meets.given fun hm => ?_
    unfold start_from
    rw [if_pos hm]
    refine starting_alone.handle (fun e => ?_) fun _ => withstands_alone _
    exact (Meets.of_exists fun r => start_failed_alone (r := r)).pre fun s hs => ⟨s.run, rfl, hs, trivial⟩
  have hend := run_alone hstart rfl
  rw [h] at hend
  exact hend

end Start

/-! ## The main result -/

/-- What Python raises when the system gives no more threads. -/
def no_thread : ExperimentError where
  class_name := "RuntimeError"
  text := "can't start new thread"

/-- Every call passes but these. -/
def refusing (calls : List ExperimentCall) : ExperimentEnvironment where
  answer c := if c ∈ calls then { raised := some no_thread } else {}

end MininetAi
