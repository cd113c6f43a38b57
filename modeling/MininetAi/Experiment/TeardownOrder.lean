/-
No teardown under running writers.

A layer is quiet when it was never started or has confirmed its stop. The thread that starts
the layers has the fields to itself until they are up: a stop is refused before that. From
then on a quiet layer stays quiet, whoever stops it, so what a stop or the cleanup of a start
that fails has seen of one layer still holds when it comes to the teardown.
-/
import MininetAi.Experiment.Conduct

set_option autoImplicit false

namespace MininetAi

open Routine ExperimentRuntime
open MininetOVSRuntime (TeardownResult)

variable {κ : Type} {c : Component} {K' : Component → Prop}

/-! ## What the threads rely on -/

/-- A layer that was never started, or has confirmed its stop. -/
def Resting (m : Experiment κ) (c : Component) : Prop :=
  m.component c ≠ some .running ∧ m.component c ≠ some .stopping

/-- The thread `i` starts the layers. -/
def Opening (i : κ) (m : Experiment κ) : Prop := m.state = .starting ∧ m.history.starter = some i

/-- The layers were started, or the start has failed. -/
def Late (m : Experiment κ) : Prop := m.state ≠ .created ∧ m.state ≠ .starting

theorem late_of {m : Experiment κ} {x : ExperimentRuntimeState} (h : m.state = x)
    (hx : x ≠ .created ∧ x ≠ .starting) : Late m := by
  unfold Late
  rw [h]
  exact hx

/-- The order of a shutdown. -/
structure Ordered (m : Experiment κ) : Prop where
  flagged : ∀ c, m.started c = true ∨ Resting m c
  torn : m.history.teardowns ≠ [] → ∀ c, Resting m c
  fresh : m.state = .created → m = {}

/-- What a thread can rely on. -/
structure OrderKept (i : κ) (s t : Experiment κ) : Prop where
  ordered : Ordered s → Ordered t
  opening : Opening i s → t = s
  late : Late s → Late t
  quiet : Late s → ∀ c, Resting s c → Resting t c

theorem OrderKept.refl (i : κ) (s : Experiment κ) : OrderKept i s s :=
  ⟨id, fun _ => rfl, id, fun _ _ => id⟩

theorem OrderKept.trans {i : κ} (s t u : Experiment κ) (h : OrderKept i s t) (h' : OrderKept i t u) :
    OrderKept i s u where
  ordered hs := h'.ordered (h.ordered hs)
  opening hs := by
    have ht := h.opening hs
    rw [ht] at h'
    exact h'.opening hs
  late hs := h'.late (h.late hs)
  quiet hs c hc := h'.quiet (h.late hs) c (h.quiet hs c hc)

/-- What it guarantees. -/
def OrderGuaranteed (i : κ) (s t : Experiment κ) : Prop :=
  (Ordered s → Ordered t) ∧ ∀ j, j ≠ i → OrderKept j s t

/-- The terms of a thread. -/
def order_terms (i : κ) : Terms (ExperimentOp κ) ExperimentOp.Reply (Experiment κ) :=
  turns i (fun _ _ _ => True) (OrderKept i) (OrderGuaranteed i) (OrderKept.refl i) OrderKept.trans

/-- What a call of thread `i` does beside the others, as far as the order goes. -/
abbrev Orders (i : κ) {α : Type} (P : Experiment κ → Prop) (x : ExperimentRoutine κ α)
    (Q : α → Experiment κ → Prop) (R : ExperimentError → Experiment κ → Prop) : Prop :=
  Meets (order_terms i) P x Q R

/-! ## Assertions -/

/-- A thread past its gate knows which layers are quiet. -/
structure Knows (i : κ) (K : Component → Prop) (m : Experiment κ) : Prop where
  ordered : Ordered m
  past : Opening i m ∨ Late m
  quiet : ∀ c, K c → Resting m c

section

variable {i : κ} {K : Component → Prop} {s t : Experiment κ}

theorem knows_withstands : Withstands (OrderKept i) (Knows i K) := by
  intro s t hs hst
  rcases hs.past with hopening | hlate
  · rw [hst.opening hopening]
    exact hs
  · exact ⟨hst.ordered hs.ordered, Or.inr (hst.late hlate), fun c hc => hst.quiet hlate c (hs.quiet c hc)⟩

/-- A fact that does not look at the fields goes with it. -/
theorem knows_with {p : Prop} : Withstands (OrderKept i) fun m => p ∧ Knows i K m :=
  fun s t hs hst => ⟨hs.1, knows_withstands s t hs.2 hst⟩

theorem Knows.mono (h : Knows i K s) (hK : ∀ c, K' c → K c) : Knows i K' s :=
  ⟨h.ordered, h.past, fun c hc => h.quiet c (hK c hc)⟩

theorem Knows.not_created (h : Knows i K s) : s.state ≠ .created := by
  rcases h.past with hopening | hlate
  · rw [hopening.1]
    decide
  · exact hlate.1

/-- What a thread past its gate does concerns no thread that starts. -/
theorem Knows.guaranteed (h : Knows i K s) (hordered : Ordered t) (hlate : Late s → Late t)
    (hquiet : Late s → ∀ c, Resting s c → Resting t c) : OrderGuaranteed i s t := by
  refine ⟨fun _ => hordered, fun j hj => ⟨fun _ => hordered, fun hopening => ?_, hlate, hquiet⟩⟩
  rcases h.past with hi | hi
  · exact absurd (Option.some.inj (hopening.2.symm.trans hi.2)) hj
  · exact absurd hopening.1 hi.2

/-- A step that leaves alone what the assertions look at. -/
structure Calm (s t : Experiment κ) : Prop where
  state : t.state = s.state
  component : t.component = s.component
  started : t.started = s.started
  starter : t.history.starter = s.history.starter
  teardowns : t.history.teardowns = s.history.teardowns

theorem Calm.quiet (h : Calm s t) (hc : Resting s c) : Resting t c := by
  unfold Resting
  rw [h.component]
  exact hc

theorem Calm.late (h : Calm s t) (hs : Late s) : Late t := by
  unfold Late
  rw [h.state]
  exact hs

theorem Knows.calm (hs : Knows i K s) (h : Calm s t) : Knows i K t where
  ordered :=
    { flagged := fun c => by
        rw [h.started]
        exact (hs.ordered.flagged c).imp id h.quiet
      torn := fun htorn c => by
        rw [h.teardowns] at htorn
        exact h.quiet (hs.ordered.torn htorn c)
      fresh := fun hcreated => absurd (h.state.symm.trans hcreated) hs.not_created }
  past := by
    refine hs.past.imp (fun hopening => ?_) h.late
    exact ⟨h.state.trans hopening.1, h.starter.trans hopening.2⟩
  quiet c hc := h.quiet (hs.quiet c hc)

theorem Knows.calm_guaranteed (hs : Knows i K s) (h : Calm s t) : OrderGuaranteed i s t :=
  hs.guaranteed (hs.calm h).ordered h.late fun _ _ => h.quiet

end

/-! ## Operations -/

section

variable {i : κ} {K : Component → Prop} {R : ExperimentError → Experiment κ → Prop}

variable {f : Experiment κ → Experiment κ} {α : Type} {x : ExperimentRoutine κ α}
  {s : Experiment κ} {drain : Bool} {config : ExperimentConfig} {P : Experiment κ → Prop}

theorem calm_assign (hf : ∀ s, Calm s (f s)) :
    Orders i (Knows i K) (assign f) (fun _ => Knows i K) fun _ => Knows i K :=
  assign_meets knows_withstands knows_withstands (fun _ => knows_withstands)
    (fun s hs => hs.calm_guaranteed (hf s)) fun s hs => hs.calm (hf s)

theorem knows_then {β : Type} {P : Experiment κ → Prop} {Q : α → Experiment κ → Prop}
    {Q' : β → Experiment κ → Prop} {g : α → ExperimentRoutine κ β}
    (hx : Orders i P x Q fun _ => Knows i K) (hg : ∀ a, Orders i (Q a) (g a) Q' fun _ => Knows i K) :
    Orders i P (x >>= g) Q' fun _ => Knows i K :=
  hx.bind hg fun _ => knows_withstands

/-- Such a step comes first. -/
theorem calm_then {Q : α → Experiment κ → Prop} (hf : ∀ s, Calm s (f s))
    (hx : Orders i (Knows i K) x Q fun _ => Knows i K) :
    Orders i (Knows i K) (assign f >>= fun _ => x) Q fun _ => Knows i K :=
  (calm_assign hf).bind (fun _ => hx) fun _ => knows_withstands

/-- Fields are read: a layer that is found quiet stays so. -/
theorem fields_know :
    Orders i (Knows i K) fields
      (fun m s => Ordered m ∧ Knows i (fun c => K c ∨ Resting m c) s) fun _ => Knows i K := by
  refine access_meets knows_withstands (fun m => knows_with) (fun _ => knows_withstands)
    (fun s hs => hs.calm_guaranteed ⟨rfl, rfl, rfl, rfl, rfl⟩) fun s hs => ⟨hs.ordered, hs.ordered, hs.past, ?_⟩
  exact fun c hc => hc.elim (hs.quiet c) id

/-- Fields are read, and nothing is made of it. -/
theorem fields_keep : Orders i (Knows i K) fields (fun _ => Knows i K) fun _ => Knows i K :=
  fields_know.on_return fun _ _ hs => hs.2.mono fun _ => Or.inl

/-- A call that is no teardown. -/
theorem recorded_calm {c : ExperimentCall} (hc : ∀ id, c ≠ .teardown id) (a : ExperimentAnswer)
    (s : Experiment κ) : Calm s { s with history := c.recorded a s.history } := by
  cases c with
  | teardown id => exact absurd rfl (hc id)
  | append entry =>
    by_cases hfails : entry.type = "run.running" ∧ a.raised.isSome = true
    · rw [show (ExperimentCall.append entry).recorded a s.history = _ from if_pos hfails]
      exact ⟨rfl, rfl, rfl, rfl, rfl⟩
    · rw [show (ExperimentCall.append entry).recorded a s.history = _ from if_neg hfails]
      exact ⟨rfl, rfl, rfl, rfl, rfl⟩
  | _ => exact ⟨rfl, rfl, rfl, rfl, rfl⟩

theorem call_knows {c : ExperimentCall} (hc : ∀ id, c ≠ .teardown id) :
    Orders i (Knows i K) (experiment_call c) (fun _ => Knows i K) fun _ => Knows i K := by
  refine call_meets knows_withstands (fun _ => knows_withstands) (fun _ => knows_withstands)
    ⟨fun s a hs _ => hs.calm_guaranteed (recorded_calm hc a s), fun s a hs _ => ?_⟩
  have hcalm := hs.calm (recorded_calm hc a s)
  exact ExperimentCall.outcome_ends (fun _ _ => hcalm) fun _ _ => hcalm

variable {calls : List ExperimentCall} {entry : LifecycleEntry} {t : Experiment κ}
  {Q : Experiment κ → Prop}

theorem calls_know (hcalls : ∀ c ∈ calls, ∀ id, c ≠ .teardown id) :
    Orders i (Knows i K) (call_all calls) (fun _ => Knows i K) fun _ => Knows i K :=
  (call_all_meets (K := fun _ => True) knows_withstands (fun _ => knows_withstands) fun c hc =>
    (call_knows (hcalls c hc)).on_return fun _ _ hs => ⟨trivial, hs⟩).on_return fun _ _ hs => hs.2

theorem tried_knows (hK : ∀ c, K c → K' c)
    (hx : Orders i (Knows i K) x (fun _ => Knows i K') fun _ => Knows i K) :
    Orders i (Knows i K) (tried x)
      (fun r => Knows i fun c => K c ∨ r.isOk = true ∧ K' c) fun _ => Knows i K := by
  refine (tried_meets (fun _ => knows_withstands) (fun _ => knows_withstands) hx).post (fun r s hs => ?_) fun _ _ hs => hs.2
  cases r with
  | ok _ => exact Knows.mono hs fun c hc => hc.elim (hK c) And.right
  | error e => exact hs.2.mono fun c hc => hc.elim id fun h => absurd h.1 Bool.false_ne_true

/-- What is tried for its effects. -/
theorem tried_keeps (hx : Orders i (Knows i K) x (fun _ => Knows i K) fun _ => Knows i K) :
    Orders i (Knows i K) (tried x) (fun _ => Knows i K) fun _ => Knows i K :=
  (tried_knows (fun _ hc => hc) hx).on_return fun _ _ hs => hs.mono fun _ => Or.inl

/-! ## Stopping a layer -/

theorem quiet_of_ne {c c' : Component} {state : ComponentState} (hne : c' ≠ c) (hc : Resting s c') :
    Resting (s.set_component c state) c' := by
  unfold Resting
  rw [show (s.set_component c state).component c' = s.component c' from Function.update_of_ne hne _ _]
  exact hc

theorem quiet_stopped (s : Experiment κ) (c : Component) : Resting (s.set_component c .stopped) c := by
  unfold Resting
  rw [show (s.set_component c .stopped).component c = some .stopped from Function.update_self ..]
  exact ⟨by decide, by decide⟩

/-- A layer that runs begins to stop. -/
theorem Knows.begins (hs : Knows i K s) :
    OrderGuaranteed i s (s.begin_wind_down c) ∧
      Knows i (fun c' => K c' ∨ Resting s c') (s.begin_wind_down c) := by
  unfold Experiment.begin_wind_down
  by_cases hrunning : s.component c = some .running
  · rw [if_pos hrunning]
    have hkept : ∀ c', Resting s c' → Resting (s.set_component c .stopping) c' := fun c' hc' =>
      quiet_of_ne (fun heq => hc'.1 (heq ▸ hrunning)) hc'
    have hordered : Ordered (s.set_component c .stopping) :=
      { flagged := fun c' => (hs.ordered.flagged c').imp id (hkept c')
        torn := fun htorn => absurd hrunning (hs.ordered.torn htorn c).1
        fresh := fun hcreated => absurd hcreated hs.not_created }
    exact ⟨hs.guaranteed hordered id fun _ => hkept, hordered, hs.past,
      fun c' hc' => hkept c' (hc'.elim (hs.quiet c') id)⟩
  · rw [if_neg hrunning]
    exact ⟨hs.calm_guaranteed ⟨rfl, rfl, rfl, rfl, rfl⟩, hs.ordered, hs.past,
      fun c' hc' => hc'.elim (hs.quiet c') id⟩

/-- A layer has stopped. -/
theorem Knows.stops (hs : Knows i K s) :
    OrderGuaranteed i s (s.set_component c .stopped) ∧
      Knows i (fun c' => K c' ∨ c' = c) (s.set_component c .stopped) := by
  have hkept : ∀ c', Resting s c' → Resting (s.set_component c .stopped) c' := by
    intro c' hc'
    by_cases heq : c' = c
    · rw [heq]
      exact quiet_stopped s c
    · exact quiet_of_ne heq hc'
  have hordered : Ordered (s.set_component c .stopped) :=
    { flagged := fun c' => (hs.ordered.flagged c').imp id (hkept c')
      torn := fun htorn c' => hkept c' (hs.ordered.torn htorn c')
      fresh := fun hcreated => absurd hcreated hs.not_created }
  refine ⟨hs.guaranteed hordered id fun _ => hkept, hordered, hs.past, fun c' hc' => ?_⟩
  rcases hc' with hc' | heq
  · exact hkept c' (hs.quiet c' hc')
  · rw [heq]
    exact quiet_stopped s c

theorem wind_down_ne (c : Component) (drain : Bool) : ∀ id, c.wind_down drain ≠ .teardown id := by
  intro id heq
  cases c <;> cases heq

/-- `stop` of a layer returns when the layer is quiet. -/
theorem component_stop_knows :
    Orders i (Knows i K) (c.stop drain) (fun _ => Knows i fun c' => K c' ∨ c' = c)
      fun _ => Knows i K := by
  have hgate : Orders i (Knows i K) (access (Experiment.begin_wind_down c))
      (fun m => Knows i fun c' => K c' ∨ Resting m c') fun _ => Knows i K :=
    access_meets knows_withstands (fun _ => knows_withstands) (fun _ => knows_withstands)
      (fun _ hs => hs.begins.1) fun _ hs => hs.begins.2
  have hdown : Orders i (Knows i K) (c.wound_down drain)
      (fun _ => Knows i fun c' => K c' ∨ c' = c) fun _ => Knows i K := by
    refine knows_then (calls_know fun c' hc' => ?_) fun _ => ?_
    · rw [List.mem_singleton.mp hc']
      exact wind_down_ne c drain
    · exact assign_meets knows_withstands knows_withstands (fun _ => knows_withstands)
        (fun _ hs => hs.stops.1) fun _ hs => hs.stops.2
  refine knows_then hgate fun m => ?_
  have hforget : ∀ s, Knows i (fun c' => K c' ∨ Resting m c') s → Knows i K s :=
    fun s hs => hs.mono fun _ => Or.inl
  cases hstate : m.component c with
  | none => exact Meets.raise knows_withstands hforget
  | some state =>
    cases state with
    | created => exact Meets.raise knows_withstands hforget
    | running => exact hdown.pre hforget
    | stopping => exact hdown.pre hforget
    | stopped =>
      have hquiet : Resting m c := by
        unfold Resting
        rw [hstate]
        exact ⟨by decide, by decide⟩
      refine Meets.pure knows_withstands fun s hs => hs.mono fun c' hc' => hc'.imp id ?_
      rintro rfl
      exact hquiet

/-- The flag goes with the layer. -/
theorem stop_and_note_knows :
    Orders i (Knows i K) (stop_and_note c drain) (fun _ => Knows i fun c' => K c' ∨ c' = c)
      fun _ => Knows i K := by
  refine knows_then component_stop_knows fun _ => ?_
  have hflag : ∀ s : Experiment κ, Knows i (fun c' => K c' ∨ c' = c) s → Ordered (s.set_started c false) :=
    fun s hs =>
      { flagged := fun c' => by
          by_cases heq : c' = c
          · exact Or.inr (hs.quiet c' (Or.inr heq))
          · rw [show (s.set_started c false).started c' = s.started c' from Function.update_of_ne heq _ _]
            exact hs.ordered.flagged c'
        torn := hs.ordered.torn
        fresh := fun hcreated => absurd hcreated hs.not_created }
  exact assign_meets knows_withstands knows_withstands (fun _ => knows_withstands)
    (fun s hs => hs.guaranteed (hflag s hs) id fun _ _ => id) fun s hs => ⟨hflag s hs, hs.past, hs.quiet⟩

/-- What the result of stopping a layer says. -/
theorem stop_result_knows :
    Orders i (Knows i K) (do
        let result ← tried (stop_and_note c drain)
        pure (stop_result c result))
      (fun r => Knows i fun c' => K c' ∨ r.1 = true ∧ c' = c) fun _ => Knows i K := by
  refine knows_then (tried_knows (fun _ => Or.inl) stop_and_note_knows) fun r => ?_
  refine Meets.pure knows_withstands fun s hs => hs.mono fun c' hc' => ?_
  exact hc'.imp id fun h => ⟨h.1, Or.inr h.2⟩

/-- `_stop_telemetry` and `_stop_continuous`. -/
theorem stop_layer_knows :
    Orders i (Knows i K) (stop_layer c drain)
      (fun r => Knows i fun c' => K c' ∨ r.1 = true ∧ c' = c) fun _ => Knows i K := by
  refine fields_know.bind (fun m => Meets.given fun _ => ?_) fun _ => knows_withstands
  refine Meets.ite (fun hnone => Meets.pure knows_withstands fun s hs => hs.mono fun c' hc' => ?_) fun _ =>
    stop_result_knows.pre fun s hs => hs.mono fun _ => Or.inl
  refine hc'.imp id fun h => ?_
  unfold Resting
  rw [h.2, Option.isNone_iff_eq_none.mp hnone]
  exact ⟨by decide, by decide⟩

/-- The layers in the cleanup of a start that has failed: a layer that is passed over was
never started, or its flag says that it has stopped. -/
theorem stop_started_knows :
    Orders i (Knows i K) (stop_started c)
      (fun r => Knows i fun c' => K c' ∨ r.1 = true ∧ c' = c) fun _ => Knows i K := by
  refine fields_know.bind (fun m => Meets.given fun hm => ?_) fun _ => knows_withstands
  have hagain : Orders i (Knows i fun c' => K c' ∨ Resting m c') fields
      (fun m' => Knows i fun c' => (K c' ∨ Resting m c') ∨ Resting m' c') fun _ => Knows i K :=
    fields_know.post (fun _ _ hs => hs.2) fun _ _ hs => hs.mono fun _ => Or.inl
  refine hagain.bind (fun m' => ?_) fun _ => knows_withstands
  refine Meets.ite (fun _ => stop_result_knows.pre fun s hs => hs.mono fun _ h => Or.inl (Or.inl h))
    fun hskip => Meets.pure knows_withstands fun s hs => hs.mono fun c' hc' => ?_
  rcases hc' with hc' | ⟨-, rfl⟩
  · exact Or.inl (Or.inl hc')
  by_cases hcreated : m'.component c' = some .created
  · right
    unfold Resting
    rw [hcreated]
    exact ⟨by decide, by decide⟩
  · left; right
    rcases hm.flagged c' with hflag | hquiet
    · cases hthere : m.component c' with
      | none =>
        unfold Resting
        rw [hthere]
        exact ⟨by decide, by decide⟩
      | some state => exact absurd ⟨by rw [hthere]; rfl, hflag, hcreated⟩ hskip
    · exact hquiet

/-! ## Tearing down -/

theorem teardown_settled_knows {issues : List ExperimentRuntimeIssue}
    {result : Except ExperimentError TeardownResult} :
    Orders i (Knows i K) (teardown_settled issues result) (fun _ => Knows i K)
      fun _ => Knows i K := by
  cases result with
  | ok result =>
    exact calm_then (fun s => by exact ⟨rfl, rfl, rfl, rfl, rfl⟩)
      (Meets.pure knows_withstands fun _ hs => hs)
  | error e =>
    refine knows_then (conclude_meets knows_withstands).right fun failure => ?_
    refine calm_then (fun s => by exact ⟨rfl, rfl, rfl, rfl, rfl⟩) ?_
    refine knows_then fields_keep fun m => ?_
    refine knows_then (demand_meets knows_withstands).right fun _ => ?_
    exact calm_then (fun s => by exact ⟨rfl, rfl, rfl, rfl, rfl⟩)
      (Meets.pure knows_withstands fun _ hs => hs)

/-- The call of a teardown, once both layers are quiet. -/
theorem teardown_call_knows {id : String} (hK : ∀ c, K c) :
    Orders i (Knows i K) (experiment_call (.teardown id)) (fun _ => Knows i K)
      fun _ => Knows i K := by
  have hnext : ∀ (s : Experiment κ) (a : ExperimentAnswer), Knows i K s →
      Knows i K { s with history := (ExperimentCall.teardown id).recorded a s.history } := fun s a hs =>
    { ordered :=
        { flagged := hs.ordered.flagged
          torn := fun _ c => hs.quiet c (hK c)
          fresh := fun hcreated => absurd hcreated hs.not_created }
      past := hs.past
      quiet := hs.quiet }
  exact call_meets knows_withstands (fun _ => knows_withstands) (fun _ => knows_withstands)
    ⟨fun s a hs _ => hs.guaranteed (hnext s a hs).ordered (fun h => h) fun _ _ h => h, fun s a hs _ =>
      ExperimentCall.outcome_ends (fun _ _ => hnext s a hs) fun _ _ => hnext s a hs⟩

/-- `_teardown`, once both layers are quiet. -/
theorem teardown_knows (hK : ∀ c, K c) :
    Orders i (Knows i K) (teardown config) (fun _ => Knows i K) fun _ => Knows i K := by
  refine calm_then (fun s => by exact ⟨rfl, rfl, rfl, rfl, rfl⟩) ?_
  refine knows_then (tried_keeps (calls_know fun c hc id heq => ?_)) fun closing => ?_
  · by_cases hagents : config.agents = true
    · rw [if_pos hagents, List.mem_singleton] at hc
      rw [hc] at heq
      cases heq
    · rw [if_neg hagents] at hc
      exact absurd hc List.not_mem_nil
  refine knows_then fields_keep fun m => ?_
  cases m.run with
  | none => exact Meets.pure knows_withstands fun _ hs => hs
  | some run =>
    exact (tried_keeps (teardown_call_knows hK)).bind (fun result => teardown_settled_knows)
      fun _ => knows_withstands

theorem record_knows :
    Orders i (Knows i K) (record_lifecycle config entry) (fun _ => Knows i K)
      fun _ => Knows i K := by
  refine fields_keep.bind (fun m => calls_know fun c hc id heq => ?_) fun _ => knows_withstands
  by_cases hrecords : config.ledger = true ∧ m.run.isSome = true
  · rw [if_pos hrecords, List.mem_singleton] at hc
    rw [hc] at heq
    cases heq
  · rw [if_neg hrecords] at hc
    exact absurd hc List.not_mem_nil

theorem record_issues_knows :
    Orders i (Knows i K) (record_issues config entry) (fun _ => Knows i K)
      fun _ => Knows i K :=
  (tried_keeps record_knows).bind (fun _ => Meets.pure knows_withstands fun _ hs => hs)
    fun _ => knows_withstands

/-- The state is set at the end of a call. -/
theorem Knows.ends (hs : Knows i K s) (hstate : Late t) (hcomponent : t.component = s.component)
    (hstarted : t.started = s.started) (hteardowns : t.history.teardowns = s.history.teardowns) :
    OrderGuaranteed i s t ∧ Knows i K t := by
  have hquiet : ∀ c, Resting s c → Resting t c := by
    intro c hc
    unfold Resting
    rw [hcomponent]
    exact hc
  have hordered : Ordered t :=
    { flagged := fun c => by
        rw [hstarted]
        exact (hs.ordered.flagged c).imp id (hquiet c)
      torn := fun htorn c => by
        rw [hteardowns] at htorn
        exact hquiet c (hs.ordered.torn htorn c)
      fresh := fun hcreated => absurd hcreated hstate.1 }
  exact ⟨hs.guaranteed hordered (fun _ => hstate) fun _ => hquiet, hordered, Or.inr hstate,
    fun c hc => hquiet c (hs.quiet c hc)⟩

/-! ## Stopping -/

theorem final_state_late (issues : List ExperimentRuntimeIssue) (failed : Bool) :
    final_state issues failed ≠ .created ∧ final_state issues failed ≠ .starting := by
  unfold final_state
  by_cases hclean : issues = [] ∧ failed = false
  · rw [if_pos hclean]
    exact ⟨by decide, by decide⟩
  · rw [if_neg hclean]
    exact ⟨by decide, by decide⟩

/-- The end of a stop. -/
theorem finish_knows {o : StopOutcome} :
    Orders i (Knows i K) (finish config o) (fun _ => Knows i K) fun _ => Knows i K := by
  have hfailed : Orders i (Knows i K)
      (access fun m : Experiment κ => { m with operation_failed := work_failed o.issues o.continuous m })
      (fun _ => Knows i K) fun _ => Knows i K :=
    access_meets knows_withstands (fun _ => knows_withstands) (fun _ => knows_withstands)
      (fun _ hs => hs.calm_guaranteed ⟨rfl, rfl, rfl, rfl, rfl⟩) fun _ hs => hs.calm ⟨rfl, rfl, rfl, rfl, rfl⟩
  refine knows_then hfailed fun m => ?_
  refine knows_then record_issues_knows fun recorded => ?_
  refine calm_then (fun s => by exact ⟨rfl, rfl, rfl, rfl, rfl⟩) ?_
  have hsettle : ∀ (issues : List ExperimentRuntimeIssue) (failed : Bool),
      Orders i (Knows i K) (assign (settle_stop o issues failed)) (fun _ => Knows i K)
        fun _ => Knows i K := fun issues failed =>
    assign_meets knows_withstands knows_withstands (fun _ => knows_withstands)
      (fun s hs => (hs.ends (t := settle_stop o issues failed s) (final_state_late issues failed) rfl rfl rfl).1)
      fun s hs => (hs.ends (t := settle_stop o issues failed s) (final_state_late issues failed) rfl rfl rfl).2
  refine knows_then (hsettle _ _) fun _ => ?_
  refine fields_keep.bind (fun m' => ?_) fun _ => knows_withstands
  refine knows_then (conclude_meets knows_withstands).right fun run => ?_
  exact calm_then (fun s => by exact ⟨rfl, rfl, rfl, rfl, rfl⟩)
    (Meets.pure knows_withstands fun _ hs => hs)

theorem report_continuous_knows :
    Orders i (Knows i K) report_continuous (fun _ => Knows i K) fun _ => Knows i K := by
  refine knows_then fields_keep fun m => ?_
  refine Meets.ite (fun _ => Meets.pure knows_withstands fun _ hs => hs) fun _ => ?_
  exact perform_meets (o := .continuous_report) (k := .ok) knows_withstands (fun _ => knows_withstands)
    (fun _ => knows_withstands)
    ⟨fun _ _ hs _ => hs.calm_guaranteed ⟨rfl, rfl, rfl, rfl, rfl⟩, fun _ _ hs _ => hs⟩

/-- A stop past its gate. -/
theorem stopping_knows {retrying : Bool} :
    Orders i (Knows i fun _ => False) (stopping config drain retrying)
      (fun _ => Knows i fun _ => False) fun _ => Knows i fun _ => False := by
  have hforget : ∀ {K' : Component → Prop} (s : Experiment κ), Knows i K' s → Knows i (fun _ => False) s :=
    fun s hs => hs.mono fun _ => False.elim
  refine knows_then fields_keep fun m => ?_
  refine knows_then record_issues_knows fun recorded => ?_
  refine knows_then (stop_layer_knows (c := .telemetry)) fun telemetry => ?_
  refine knows_then ((stop_layer_knows (c := .continuous)).on_raise
    fun _ => hforget) fun continuous => ?_
  refine knows_then (report_continuous_knows.on_raise fun _ => hforget) fun report => ?_
  refine Meets.bind (Q := fun _ => Knows i fun _ => False) ?_ (fun result => finish_knows)
    fun _ => knows_withstands
  refine Meets.ite (fun hsafe => ?_) fun _ => Meets.pure knows_withstands hforget
  obtain ⟨htelemetry, hcontinuous⟩ := (Bool.and_eq_true _ _).mp hsafe
  refine (teardown_knows (K := fun _ => True) fun _ => trivial).mono (fun s hs => hs.mono fun c _ => ?_)
    (fun _ => hforget) fun _ => hforget
  cases c with
  | telemetry => exact Or.inl (Or.inr ⟨htelemetry, rfl⟩)
  | continuous => exact Or.inr ⟨hcontinuous, rfl⟩

/-! ## Starting -/

/-- The thread that starts the layers has the fields to itself, and nothing was torn down. -/
structure Opens (i : κ) (P : Experiment κ → Prop) (m : Experiment κ) : Prop where
  ordered : Ordered m
  opening : Opening i m
  untorn : m.history.teardowns = []
  holds : P m

theorem opens_withstands : Withstands (OrderKept i) (Opens i P) := by
  intro s t hs hst
  rw [hst.opening hs.opening]
  exact hs

theorem Opens.knows (hs : Opens i P s) : Knows i (fun _ => False) s :=
  ⟨hs.ordered, Or.inl hs.opening, fun _ => False.elim⟩

/-- What that thread does, as long as a layer that runs has its flag. -/
theorem Opens.opens (hs : Opens i P s) (hstate : t.state = s.state)
    (hstarter : t.history.starter = s.history.starter)
    (huntorn : t.history.teardowns = s.history.teardowns)
    (hflagged : ∀ c, t.started c = true ∨ Resting t c) (hQ : Q t) :
    OrderGuaranteed i s t ∧ Opens i Q t := by
  have hopening : Opening i t := ⟨hstate.trans hs.opening.1, hstarter.trans hs.opening.2⟩
  have hordered : Ordered t :=
    { flagged := hflagged
      torn := fun htorn => absurd (huntorn.trans hs.untorn) htorn
      fresh := fun hcreated => by
        rw [hopening.1] at hcreated
        cases hcreated }
  refine ⟨hs.knows.guaranteed hordered (fun hlate => absurd hs.opening.1 hlate.2)
    fun hlate => absurd hs.opening.1 hlate.2, hordered, hopening, huntorn.trans hs.untorn, hQ⟩

theorem assign_opens (hstate : ∀ s, (f s).state = s.state)
    (hhistory : ∀ s, (f s).history = s.history)
    (hflagged : ∀ s, Opens i P s → ∀ c, (f s).started c = true ∨ Resting (f s) c)
    (hQ : ∀ s, P s → Q (f s)) :
    Orders i (Opens i P) (assign f) (fun _ => Opens i Q) fun _ => Knows i fun _ => False :=
  assign_meets opens_withstands opens_withstands (fun _ => knows_withstands)
    (fun s hs => (hs.opens (Q := Q) (hstate s) (congrArg _ (hhistory s)) (congrArg _ (hhistory s))
      (hflagged s hs) (hQ s hs.holds)).1)
    fun s hs => (hs.opens (Q := Q) (hstate s) (congrArg _ (hhistory s)) (congrArg _ (hhistory s))
      (hflagged s hs) (hQ s hs.holds)).2

theorem call_opens {c : ExperimentCall} (hc : ∀ id, c ≠ .teardown id)
    (hP : ∀ s past, P s → P { s with history := past }) :
    Orders i (Opens i P) (experiment_call c) (fun _ => Opens i P)
      fun _ => Knows i fun _ => False := by
  have hopens : ∀ (s : Experiment κ) (a : ExperimentAnswer), Opens i P s →
      OrderGuaranteed i s { s with history := c.recorded a s.history } ∧
        Opens i P { s with history := c.recorded a s.history } := fun s a hs =>
    hs.opens rfl (recorded_calm hc a s).starter (recorded_calm hc a s).teardowns hs.ordered.flagged
      (hP s _ hs.holds)
  exact call_meets opens_withstands (fun _ => opens_withstands) (fun _ => knows_withstands)
    ⟨fun s a hs _ => (hopens s a hs).1, fun s a hs _ =>
      ExperimentCall.outcome_ends (fun _ _ => (hopens s a hs).2) fun _ _ => (hopens s a hs).2.knows⟩

theorem calls_open (hcalls : ∀ c ∈ calls, ∀ id, c ≠ .teardown id)
    (hP : ∀ s past, P s → P { s with history := past }) :
    Orders i (Opens i P) (call_all calls) (fun _ => Opens i P)
      fun _ => Knows i fun _ => False :=
  (call_all_meets (K := fun _ => True) opens_withstands (fun _ => knows_withstands) fun c hc =>
    (call_opens (hcalls c hc) hP).on_return fun _ _ hs => ⟨trivial, hs⟩).on_return fun _ _ hs => hs.2

/-- Before the layers are there. -/
theorem prepare_opens :
    Orders i (Opens i fun _ => True) (prepare config) (fun _ => Opens i fun _ => True)
      fun _ => Knows i fun _ => False := by
  refine knows_then (call_opens (fun id heq => by cases heq) fun _ _ h => h) fun _ => ?_
  refine knows_then (call_opens (fun id heq => by cases heq) fun _ _ h => h) fun run => ?_
  refine Meets.bind (Q := fun _ => Opens i fun _ => True)
    (assign_opens (by intro _; rfl) (by intro _; rfl) (fun s hs => hs.ordered.flagged) fun _ h => h)
    (fun _ => ?_) fun _ => knows_withstands
  refine knows_then (calls_open (fun c hc id heq => ?_) fun _ _ h => h) fun _ => ?_
  · by_cases hledger : config.ledger = true
    · rw [if_pos hledger, List.mem_singleton] at hc
      rw [hc] at heq
      cases heq
    · rw [if_neg hledger] at hc
      exact absurd hc List.not_mem_nil
  refine Meets.bind (Q := fun _ => Opens i fun _ => True) ?_ (fun _ => ?_) fun _ => knows_withstands
  · refine (access_meets (Q := fun _ => Opens i fun _ => True) opens_withstands (fun _ => opens_withstands)
      (fun _ => knows_withstands) (fun s hs => hs.knows.calm_guaranteed ⟨rfl, rfl, rfl, rfl, rfl⟩)
        fun s hs => hs).bind (fun m => calls_open (fun c hc id heq => ?_) fun _ _ h => h) fun _ => knows_withstands
    by_cases hrecords : config.ledger = true ∧ m.run.isSome = true
    · rw [if_pos hrecords, List.mem_singleton] at hc
      rw [hc] at heq
      cases heq
    · rw [if_neg hrecords] at hc
      exact absurd hc List.not_mem_nil
  · refine (calls_open (fun c hc id heq => ?_) fun _ _ h => h).bind
      (fun _ => Meets.pure opens_withstands fun _ hs => hs) fun _ => knows_withstands
    obtain ⟨part, -, rfl⟩ := List.mem_map.mp hc
    cases heq

/-- A layer starts. -/
theorem launch_opens :
    Orders i (Opens i fun _ => True) (launch c) (fun _ => Opens i fun _ => True)
      fun _ => Knows i fun _ => False := by
  have hflag : Orders i (Opens i fun _ => True) (assign fun m => m.set_started c true)
      (fun _ => Opens i fun m => m.started c = true) fun _ => Knows i fun _ => False := by
    refine assign_opens (fun _ => rfl) (fun _ => rfl) (fun s hs c' => ?_) fun s _ => Function.update_self ..
    by_cases heq : c' = c
    · left
      rw [heq]
      exact Function.update_self ..
    · rw [show (s.set_started c true).started c' = s.started c' from Function.update_of_ne heq _ _]
      exact hs.ordered.flagged c'
  have hgate : Orders i (Opens i fun m => m.started c = true)
      (access (Experiment.begin_launch c)) (fun _ => Opens i fun _ => True) fun _ => Knows i fun _ => False := by
    have hopens : ∀ s : Experiment κ, Opens i (fun m => m.started c = true) s →
        OrderGuaranteed i s (s.begin_launch c) ∧ Opens i (fun _ => True) (s.begin_launch c) := by
      intro s hs
      unfold Experiment.begin_launch
      by_cases hcreated : s.component c = some .created
      · rw [if_pos hcreated]
        refine hs.opens rfl rfl rfl (fun c' => ?_) trivial
        by_cases heq : c' = c
        · left
          rw [heq]
          exact hs.holds
        · exact (hs.ordered.flagged c').imp id (quiet_of_ne heq)
      · rw [if_neg hcreated]
        exact hs.opens rfl rfl rfl hs.ordered.flagged trivial
    exact access_meets opens_withstands (fun _ => opens_withstands) (fun _ => knows_withstands)
      (fun s hs => (hopens s hs).1) fun s hs => (hopens s hs).2
  refine hflag.bind (fun _ => hgate.bind (fun m => ?_) fun _ => knows_withstands) fun _ => knows_withstands
  cases m.component c with
  | none => exact Meets.raise opens_withstands fun _ hs => hs.knows
  | some state =>
    cases state with
    | created => exact call_opens (fun id heq => by cases heq) fun _ _ h => h
    | running => exact Meets.raise opens_withstands fun _ hs => hs.knows
    | stopping => exact Meets.raise opens_withstands fun _ hs => hs.knows
    | stopped => exact Meets.raise opens_withstands fun _ hs => hs.knows

theorem quiet_constructed (s : Experiment κ) (c : Component) : Resting (constructed s) c := by
  have hcreated : (constructed s).component c = some .created := by cases c <;> rfl
  unfold Resting
  rw [hcreated]
  exact ⟨by decide, by decide⟩

/-- The body of `start`. -/
theorem starting_knows :
    Orders i (Opens i fun _ => True) (starting config) (fun _ => Knows i fun _ => False)
      fun _ => Knows i fun _ => False := by
  refine knows_then prepare_opens fun run => ?_
  refine Meets.bind (Q := fun _ => Opens i fun _ => True)
    (assign_opens (by intro _; rfl) (by intro _; rfl) (fun s hs c => Or.inr (quiet_constructed s c)) fun _ h => h)
    (fun _ => ?_) fun _ => knows_withstands
  refine knows_then launch_opens fun _ => ?_
  refine knows_then launch_opens fun _ => ?_
  refine Meets.bind (Q := fun _ => Knows i fun _ => False) ?_ (fun _ => ?_) fun _ => knows_withstands
  · have hlate : ∀ s : Experiment κ, Late { s with state := .running } := fun _ =>
      late_of (x := .running) rfl (by decide)
    exact assign_meets opens_withstands knows_withstands (fun _ => knows_withstands)
      (fun s hs => (hs.knows.ends (hlate s) rfl rfl rfl).1) fun s hs => (hs.knows.ends (hlate s) rfl rfl rfl).2
  · exact record_knows.bind (fun _ => Meets.pure knows_withstands fun _ hs => hs) fun _ => knows_withstands

theorem cleanup_start_failure_knows :
    Orders i (Knows i fun _ => False) (cleanup_start_failure config)
      (fun _ => Knows i fun _ => False) fun _ => Knows i fun _ => False := by
  have hforget : ∀ {K' : Component → Prop} (s : Experiment κ), Knows i K' s → Knows i (fun _ => False) s :=
    fun s hs => hs.mono fun _ => False.elim
  refine knows_then (stop_started_knows (c := .telemetry)) fun telemetry => ?_
  refine knows_then ((stop_started_knows (c := .continuous)).on_raise
    fun _ => hforget) fun continuous => ?_
  refine Meets.ite (fun hsafe => ?_) fun _ => Meets.pure knows_withstands hforget
  have hteardown : ∀ issues, Orders i (Knows i fun _ => True)
      (tear_down_start_failure config issues) (fun _ => Knows i fun _ => True)
      fun _ => Knows i fun _ => True := by
    intro issues
    refine knows_then (teardown_knows fun _ => trivial) fun result => ?_
    exact calm_assign (by intro s; exact ⟨rfl, rfl, rfl, rfl, rfl⟩)
  refine (hteardown _).mono (fun s hs => hs.mono fun c _ => ?_) (fun _ => hforget) fun _ => hforget
  cases c with
  | telemetry => exact Or.inl (Or.inr ⟨hsafe.1, rfl⟩)
  | continuous => exact Or.inr ⟨hsafe.2, rfl⟩

/-- The handler of `start`. -/
theorem start_failed_knows {e : ExperimentError} :
    Orders i (Knows i fun _ => False) (start_failed config e)
      (fun _ => Knows i fun _ => False) fun _ => Knows i fun _ => False := by
  refine calm_then (fun s => by exact ⟨rfl, rfl, rfl, rfl, rfl⟩) ?_
  refine calm_then (fun s => by exact ⟨rfl, rfl, rfl, rfl, rfl⟩) ?_
  refine knows_then cleanup_start_failure_knows fun _ => ?_
  refine Meets.bind (Q := fun _ => Knows i fun _ => False) ?_ (fun _ => ?_) fun _ => knows_withstands
  · have hlate : ∀ s : Experiment κ, Late { s with state := .failed } := fun _ =>
      late_of (x := .failed) rfl (by decide)
    exact assign_meets knows_withstands knows_withstands (fun _ => knows_withstands)
      (fun s hs => (hs.ends (hlate s) rfl rfl rfl).1) fun s hs => (hs.ends (hlate s) rfl rfl rfl).2
  · exact fields_keep.bind (fun m => Meets.raise knows_withstands fun _ hs => hs) fun _ => knows_withstands

end

/-! ## The calls -/

section Calls

variable {i : κ} {config : ExperimentConfig}

theorem ordered_withstands : Withstands (OrderKept i) Ordered := fun _ _ hs hst => hst.ordered hs

variable {s : Experiment κ}

/-- The gate of `start` gives the fields to one thread. -/
theorem begin_start_order (hs : Ordered s) :
    OrderGuaranteed i s (s.begin_start i) ∧
      (s.state = .created → Opens i (fun _ => True) (s.begin_start i)) := by
  unfold Experiment.begin_start
  by_cases hcreated : s.state = .created
  · rw [if_pos hcreated, hs.fresh hcreated]
    have hordered : Ordered ({ state := .starting, history := { starter := some i } } : Experiment κ) :=
      { flagged := fun c => Or.inr ⟨fun h => Option.some_ne_none _ h.symm, fun h => Option.some_ne_none _ h.symm⟩
        torn := fun htorn => absurd rfl htorn
        fresh := fun h => ExperimentRuntimeState.noConfusion h }
    refine ⟨⟨fun _ => hordered, fun j _ => ⟨fun _ => hordered, fun h => ?_, fun h => ?_, fun h => ?_⟩⟩,
      fun _ => ⟨hordered, ⟨rfl, rfl⟩, rfl, trivial⟩⟩
    · exact ExperimentRuntimeState.noConfusion h.1
    · exact absurd rfl h.1
    · exact absurd rfl h.1
  · rw [if_neg hcreated]
    exact ⟨⟨id, fun j _ => OrderKept.refl j s⟩, fun h => absurd h hcreated⟩

/-- The gate of `stop` lets nobody in before the layers are up. -/
theorem begin_stop_order (hs : Ordered s) :
    OrderGuaranteed i s (s.begin_stop i) ∧
      (s.stoppable = true → Knows i (fun _ => False) (s.begin_stop i)) := by
  unfold Experiment.begin_stop
  by_cases hopen : s.stoppable = true
  · rw [if_pos hopen]
    have hlate : Late s := by
      have hstate := ((Bool.and_eq_true _ _).mp hopen).2
      rcases (Bool.or_eq_true _ _).mp hstate with hrunning | hretrying
      · exact late_of (of_decide_eq_true hrunning) (by decide)
      · have hfailed := ((Bool.and_eq_true _ _).mp ((Bool.and_eq_true _ _).mp hretrying).1).1
        exact late_of (of_decide_eq_true hfailed) (by decide)
    have hknows : Knows i (fun _ => False) s := ⟨hs, Or.inr hlate, fun _ => False.elim⟩
    have hends := hknows.ends (t := { s with
      state := .stopping, history := { s.history with stopper := some i } })
      (late_of (x := .stopping) rfl (by decide)) rfl rfl rfl
    exact ⟨hends.1, fun _ => hends.2⟩
  · rw [if_neg hopen]
    exact ⟨⟨id, fun j _ => OrderKept.refl j s⟩, fun h => absurd h hopen⟩

theorem order_end : Withstands (OrderKept i) fun _ => True := fun _ _ _ _ => trivial

theorem start_order : Orders i Ordered (start config) (fun _ _ => True) fun _ _ => True := by
  have hgate : Orders i Ordered
      (Program.perform .begin_start fun m => .done (.ok m) : ExperimentRoutine κ (Experiment κ))
      (fun m s => m.state = .created → Opens i (fun _ => True) s) fun _ _ => True :=
    perform_meets (o := .begin_start) (k := .ok) ordered_withstands
      (fun m s t hs hst hm => opens_withstands s t (hs hm) hst) (fun _ => order_end)
      ⟨fun s a hs _ => (begin_start_order hs).1, fun s a hs _ => (begin_start_order hs).2⟩
  refine hgate.bind (fun m => ?_) fun _ => order_end
  refine Meets.ite (fun hcreated => ?_) fun _ => fun s _ t _ => trivial
  refine Meets.mono (starting_knows.handle (fun e => start_failed_knows) fun _ => knows_withstands)
    (fun s hs => hs hcreated) (fun _ _ _ => trivial) fun _ _ _ => trivial

theorem stop_order {drain : Bool} {timeout_seconds : ℚ} :
    Orders i Ordered (stop config drain timeout_seconds) (fun _ _ => True) fun _ _ => True := by
  have hgate : Orders i Ordered
      (Program.perform .begin_stop fun m => .done (.ok m) : ExperimentRoutine κ (Experiment κ))
      (fun m s => m.stoppable = true → Knows i (fun _ => False) s) fun _ _ => True :=
    perform_meets (o := .begin_stop) (k := .ok) ordered_withstands
      (fun m s t hs hst hm => knows_withstands s t (hs hm) hst) (fun _ => order_end)
      ⟨fun s a hs _ => (begin_stop_order hs).1, fun s a hs _ => (begin_stop_order hs).2⟩
  refine ((demand_meets ordered_withstands).post (fun _ _ hs => hs.2)
    fun _ _ _ => trivial).bind (fun _ => ?_) fun _ => order_end
  refine hgate.bind (fun m => ?_) fun _ => order_end
  refine Meets.ite (fun hopen => ?_) fun _ => fun s _ t _ => ?_
  · exact stopping_knows.mono (fun s hs => hs hopen) (fun _ _ _ => trivial) fun _ _ _ => trivial
  · cases m.finished <;> exact trivial

theorem request_order {request : ExperimentRequest} (hs : Ordered s) :
    (request.body config).Ensures (order_terms i) (fun _ _ => True) s := by
  cases request with
  | start => exact Program.Ensures.bind ((start_order s hs).mono fun _ _ _ _ _ => trivial)
  | stop drain timeout_seconds => exact Program.Ensures.bind ((stop_order s hs).mono fun _ _ _ _ _ => trivial)

/-- The threads keep the order. -/
theorem order_discipline [DecidableEq κ] (config : ExperimentConfig) :
    (@experiment_threads κ _ config).Discipline (fun _ _ _ _ => True) order_terms Ordered
      fun _ _ => True where
  init m hm := by
    rw [show m = {} from hm]
    have hordered : Ordered ({} : Experiment κ) :=
      { flagged := fun c => Or.inr ⟨fun h => Option.some_ne_none _ h.symm, fun h => Option.some_ne_none _ h.symm⟩
        torn := fun htorn => absurd rfl htorn
        fresh := fun _ => rfl }
    exact ⟨hordered, fun _ => trivial⟩
  act i o a s _ := ⟨a, trivial, rfl⟩
  body i c s hs _ := request_order hs
  keeps i s t hs hguar := hguar.1 hs
  relied i j s t hj _ hguar := hguar.2 j hj
  idle i := fun _ _ _ _ => trivial
  die i s hs := ⟨hs, trivial, fun j _ => OrderKept.refl j s⟩

end Calls

/-! ## In every run -/

/-- The order of every run: both layers are quiet when a thread is about to call a teardown,
and they stay so. -/
structure TeardownOrdered (p : Pool (ExperimentOp κ) ExperimentOp.Reply (Experiment κ) κ) : Prop where
  calling : ∀ i id next, p.running i = some (.perform (.call (.teardown id)) next) → ∀ c, Resting p.shared c
  called : p.shared.history.teardowns ≠ [] → ∀ c, Resting p.shared c

/-- No network is torn down under running writers, however the calls interleave. -/
theorem teardown_ordered [DecidableEq κ] (config : ExperimentConfig)
    {p : Pool (ExperimentOp κ) ExperimentOp.Reply (Experiment κ) κ}
    (hp : (experiment_threads config).system.Reachable p) : TeardownOrdered p := by
  have hunder := Threads.under hp
  have hinv := ((order_discipline config).reachable hunder).1
  refine ⟨fun i id next hi c => ?_, hinv.torn⟩
  -- the state after the call has a teardown and the same layers
  have hguar := (order_discipline config).next hunder hi (a := {}) trivial
  exact (hguar.1 hinv).torn (List.cons_ne_nil _ _) c

end MininetAi
