/-
Labelled transition systems with an executable step function: replay,
reachability, the invariant rule, runs whose steps meet a condition, observers, and
maps between systems.

Every concurrent component of this development is a set of initial states and a
function that performs one atomic section of the code: `step s e` is the state
after the section `e`, and `none` when the section cannot run in `s`. The label
carries everything the section does not decide itself (which thread runs, what
a caller passes, what the environment answers), so a concrete schedule is a list
of labels and replaying it is a computation. What is proved about a component is
an invariant of its reachable states, and the induction behind that is done
once, here.
-/
import Mathlib.Logic.Relation

set_option autoImplicit false

universe u v w x

/-- A labelled transition system: `ε` labels the atomic sections. -/
structure System (σ : Type u) (ε : Type v) where
  init : σ → Prop
  step : σ → ε → Option σ

namespace System

variable {σ : Type u} {ε : Type v} {τ : Type w} {δ : Type x} {S : System σ ε} {C : σ → ε → Prop}
  {s : σ}

/-! ## Replay -/

/-- The state after a schedule, `none` when some section of it cannot run. -/
def run (S : System σ ε) (s : σ) : List ε → Option σ
  | [] => some s
  | e :: es => (S.step s e).bind fun s' => run S s' es

/-! ## Reachability -/

/-- The states some schedule from an initial state ends in. -/
inductive Reachable (S : System σ ε) : σ → Prop
  | init {s : σ} (h : S.init s) : Reachable S s
  | step {s s' : σ} {e : ε} (h : Reachable S s) (hs : S.step s e = some s') : Reachable S s'

/-- Replay stays among the reachable states. -/
theorem Reachable.run {s s' : σ} (h : S.Reachable s) {es : List ε}
    (hr : S.run s es = some s') : S.Reachable s' := by
  induction es generalizing s with
  | nil => exact Option.some.inj hr ▸ h
  | cons e es ih =>
    obtain ⟨t, ht, hrun⟩ := Option.bind_eq_some_iff.mp hr
    exact ih (.step h ht) hrun

/-- The invariant rule: a property of the initial states that every step from a
reachable state keeps is a property of every reachable state. -/
theorem Reachable.invariant {P : σ → Prop} (hinit : ∀ s, S.init s → P s)
    (hstep : ∀ s e s', S.Reachable s → P s → S.step s e = some s' → P s')
    {s : σ} (h : S.Reachable s) : P s := by
  induction h with
  | init h => exact hinit _ h
  | step h hs ih => exact hstep _ _ _ h ih hs

/-! ## Runs with a condition on every step -/

/-- The states some schedule ends in when every section of it meets `C`, a
condition on the state before the section and its label. -/
inductive ReachableUnder (S : System σ ε) (C : σ → ε → Prop) : σ → Prop
  | init {s : σ} (h : S.init s) : ReachableUnder S C s
  | step {s s' : σ} {e : ε} (h : ReachableUnder S C s) (hc : C s e)
      (hs : S.step s e = some s') : ReachableUnder S C s'

/-- A conditioned run is a run. -/
theorem ReachableUnder.reachable (h : S.ReachableUnder C s) : S.Reachable s := by
  induction h with
  | init h => exact .init h
  | step _ _ hs ih => exact .step ih hs

/-- The invariant rule for conditioned runs. -/
theorem ReachableUnder.invariant {P : σ → Prop} (hinit : ∀ s, S.init s → P s)
    (hstep : ∀ s e s', S.Reachable s → P s → C s e → S.step s e = some s' → P s')
    {s : σ} (h : S.ReachableUnder C s) : P s := by
  induction h with
  | init h => exact hinit _ h
  | step h hc hs ih => exact hstep _ _ _ h.reachable ih hc hs

/-- Runs that meet one condition meet another one that holds along them. -/
theorem ReachableUnder.imp {C D : σ → ε → Prop}
    (himp : ∀ s e, S.ReachableUnder C s → C s e → D s e) {s : σ} (h : S.ReachableUnder C s) :
    S.ReachableUnder D s := by
  induction h with
  | init h => exact .init h
  | step h hc hs ih => exact .step ih (himp _ _ h hc) hs

/-- The system that refuses the steps that do not meet `C`: a schedule can be
replayed in it. -/
def guarded (S : System σ ε) (C : σ → ε → Prop) [∀ s, DecidablePred (C s)] : System σ ε where
  init := S.init
  step s e := if C s e then S.step s e else none

theorem Reachable.unguarded [∀ s, DecidablePred (C s)]
    (h : (S.guarded C).Reachable s) : S.ReachableUnder C s := by
  induction h with
  | init h => exact .init h
  | step _ hs ih =>
    simp only [guarded, Option.ite_none_right_eq_some] at hs
    exact .step ih hs.1 hs.2

/-! ## Observers -/

/-- The system with something that is noted down at every step. -/
def observed (S : System σ ε) (start : τ) (note : σ → ε → σ → τ → τ) : System (σ × τ) ε where
  init p := S.init p.1 ∧ p.2 = start
  step p e := (S.step p.1 e).map fun s' => (s', note p.1 e s' p.2)

/-! ## Maps between systems -/

/-- A refinement map: initial states go to initial states, and every step from a
state that meets `Inv` is matched by a step of `T` or by none. -/
structure Refines (S : System σ ε) (T : System τ δ) (f : σ → τ) (Inv : σ → Prop) : Prop where
  init : ∀ s, S.init s → T.init (f s)
  step : ∀ s e s', Inv s → S.step s e = some s' →
    f s' = f s ∨ ∃ d, T.step (f s) d = some (f s')

/-- What is reachable maps to what is reachable. -/
theorem Refines.reachable {T : System τ δ} {f : σ → τ} {Inv : σ → Prop}
    (h : Refines S T f Inv) (hinv : ∀ s, S.Reachable s → Inv s)
    {s : σ} (hs : S.Reachable s) : T.Reachable (f s) := by
  induction hs with
  | init hs => exact .init (h.init _ hs)
  | step hr hs ih =>
    rcases h.step _ _ _ (hinv _ hr) hs with heq | ⟨d, hd⟩
    · rw [heq]; exact ih
    · exact .step ih hd

end System
