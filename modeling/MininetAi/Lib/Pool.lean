/-
Threads that take turns at operations on one state.

Each thread makes one call at a time, and a call is a program. A section is one operation
of one thread under an answer of the environment, a call, a return, or the death of a
thread. `Discipline` is the rule for threads in parallel: when every call keeps to its
terms and what one thread guarantees the others can rely on, the invariant holds in every
reachable state and what is left of each call ensures its end.
-/
import Mathlib.Logic.Function.Basic
import MininetAi.Lib.Conduct
import MininetAi.Lib.Transition

set_option autoImplicit false

/-- Threads `κ` that make calls `γ`; `δ` are the answers to operations. -/
structure Threads (ω : Type) (ρ : ω → Type) (σ κ γ δ : Type) where
  init : σ → Prop
  body : κ → γ → Program ω ρ Unit
  act : κ → (o : ω) → δ → σ → ρ o × σ
  /-- What the death of a thread does. -/
  die : κ → σ → σ

/-- The state of threads: what is left of the call of each of them. -/
structure Pool (ω : Type) (ρ : ω → Type) (σ κ : Type) where
  shared : σ
  running : κ → Option (Program ω ρ Unit)

inductive PoolEvent (κ γ δ : Type) where
  | call (i : κ) (c : γ)
  | act (i : κ) (a : δ)
  | die (i : κ)

namespace Threads

variable {ω : Type} {ρ : ω → Type} {σ κ γ δ : Type} [DecidableEq κ] (T : Threads ω ρ σ κ γ δ)

/-- The next operation of a call, or its return. -/
def advance (p : Pool ω ρ σ κ) (i : κ) (a : δ) : Program ω ρ Unit → Pool ω ρ σ κ
  | .done _ => { p with running := Function.update p.running i none }
  | .perform o next =>
    { shared := (T.act i o a p.shared).2
      running := Function.update p.running i (some (next (T.act i o a p.shared).1)) }

/-- The system of the threads. -/
def system : System (Pool ω ρ σ κ) (PoolEvent κ γ δ) where
  init p := T.init p.shared ∧ ∀ i, p.running i = none
  step p
    | .call i c =>
      if (p.running i).isNone then some { p with running := Function.update p.running i (some (T.body i c)) }
      else none
    | .act i a => (p.running i).map (T.advance p i a)
    | .die i => some { shared := T.die i p.shared, running := Function.update p.running i none }

/-- The condition on the next operation of a call. -/
def permits (C : κ → ω → δ → σ → Prop) (i : κ) (a : δ) (s : σ) : Option (Program ω ρ Unit) → Prop
  | some (.perform o _) => C i o a s
  | some (.done _) => True
  | none => True

/-- A condition on operations as one on the steps of the system. -/
def Permitted (C : κ → ω → δ → σ → Prop) (p : Pool ω ρ σ κ) : PoolEvent κ γ δ → Prop
  | .act i a => permits C i a p.shared (p.running i)
  | .call _ _ => True
  | .die _ => True

instance (C : κ → ω → δ → σ → Prop) [∀ i o a s, Decidable (C i o a s)] (i : κ) (a : δ) (s : σ) :
    (x : Option (Program ω ρ Unit)) → Decidable (permits C i a s x)
  | some (.perform o _) => inferInstanceAs (Decidable (C i o a s))
  | some (.done _) => inferInstanceAs (Decidable True)
  | none => inferInstanceAs (Decidable True)

instance (C : κ → ω → δ → σ → Prop) [∀ i o a s, Decidable (C i o a s)] (p : Pool ω ρ σ κ) :
    DecidablePred (Permitted (γ := γ) C p)
  | .act i a => inferInstanceAs (Decidable (permits C i a p.shared (p.running i)))
  | .call _ _ => inferInstanceAs (Decidable True)
  | .die _ => inferInstanceAs (Decidable True)

/-! ## The rule -/

/-- Threads that keep to their terms, when the operations meet `C`. -/
structure Discipline (C : κ → ω → δ → σ → Prop) (terms : κ → Terms ω ρ σ) (Inv : σ → Prop)
    (Idle : κ → σ → Prop) : Prop where
  init : ∀ s, T.init s → Inv s ∧ ∀ i, Idle i s
  act : ∀ i o a s, C i o a s → (terms i).act o s (T.act i o a s).1 (T.act i o a s).2
  body : ∀ i c s, Inv s → Idle i s → (T.body i c).Ensures (terms i) (fun _ => Idle i) s
  keeps : ∀ i s t, Inv s → (terms i).guar s t → Inv t
  relied : ∀ i j s t, j ≠ i → Inv s → (terms i).guar s t → (terms j).rely s t
  idle : ∀ i, (terms i).Stable (Idle i)
  die : ∀ i s, Inv s → Inv (T.die i s) ∧ Idle i (T.die i s) ∧
    ∀ j, j ≠ i → (terms j).rely s (T.die i s)

/-- What is left of a call, or what holds of a thread that makes none. -/
def remains (terms : κ → Terms ω ρ σ) (Idle : κ → σ → Prop) (i : κ) (s : σ) :
    Option (Program ω ρ Unit) → Prop
  | some program => program.Ensures (terms i) (fun _ => Idle i) s
  | none => Idle i s

variable {T} {C : κ → ω → δ → σ → Prop} {terms : κ → Terms ω ρ σ} {Inv : σ → Prop}
  {Idle : κ → σ → Prop} {p : Pool ω ρ σ κ}

omit [DecidableEq κ] in
theorem remains.stable (hidle : ∀ i, (terms i).Stable (Idle i)) {i : κ} {s t : σ}
    {x : Option (Program ω ρ Unit)} (h : remains terms Idle i s x) (hst : (terms i).rely s t) :
    remains terms Idle i t x := by
  cases x with
  | none => exact hidle i s t h hst
  | some program => exact Program.Ensures.stable h hst

/-- The state of the others is kept, that of `i` is given. -/
theorem remains.set {t : σ} {i : κ} {x : Option (Program ω ρ Unit)} (hi : remains terms Idle i t x)
    (hothers : ∀ j, j ≠ i → remains terms Idle j t (p.running j)) (j : κ) :
    remains terms Idle j t (Function.update p.running i x j) := by
  by_cases hj : j = i
  · rw [hj, Function.update_self]
    exact hi
  · rw [Function.update_of_ne hj]
    exact hothers j hj

/-- The next operation of a call keeps to the discipline. -/
theorem Discipline.advance (D : T.Discipline C terms Inv Idle) {i : κ} {a : δ}
    {program : Program ω ρ Unit} (hinv : Inv p.shared)
    (hall : ∀ j, remains terms Idle j p.shared (p.running j)) (hi : p.running i = some program)
    (hc : permits C i a p.shared (p.running i)) : Inv (T.advance p i a program).shared ∧
      ∀ j, remains terms Idle j (T.advance p i a program).shared ((T.advance p i a program).running j) := by
  have hprogram := hall i
  rw [hi] at hprogram hc
  cases program with
  | done u =>
    have hdone : (Program.done u).Ensures (terms i) (fun _ => Idle i) p.shared := hprogram
    exact ⟨hinv, remains.set hdone.ended fun j _ => hall j⟩
  | perform o next =>
    have hnext := Program.Ensures.act hprogram (D.act i o a p.shared hc)
    refine ⟨D.keeps i _ _ hinv hnext.1, remains.set hnext.2 fun j hj => ?_⟩
    exact (hall j).stable D.idle (D.relied i j _ _ hj hinv hnext.1)

/-- The rule of threads in parallel. -/
theorem Discipline.reachable (D : T.Discipline C terms Inv Idle)
    (h : T.system.ReachableUnder (Permitted C) p) :
    Inv p.shared ∧ ∀ i, remains terms Idle i p.shared (p.running i) := by
  refine System.ReachableUnder.invariant
    (P := fun p => Inv p.shared ∧ ∀ i, remains terms Idle i p.shared (p.running i))
    (fun p hp => ?_) (fun p e p' _ ih hc hs => ?_) h
  · refine ⟨(D.init _ hp.1).1, fun i => ?_⟩
    rw [hp.2 i]
    exact (D.init _ hp.1).2 i
  obtain ⟨hinv, hall⟩ := ih
  cases e with
  | call i c =>
    simp only [system, Option.ite_none_right_eq_some, Option.some.injEq] at hs
    obtain ⟨hnone, rfl⟩ := hs
    have hi := hall i
    rw [Option.isNone_iff_eq_none.mp hnone] at hi
    exact ⟨hinv, remains.set (D.body i c _ hinv hi) fun j _ => hall j⟩
  | act i a =>
    obtain ⟨program, hi, rfl⟩ := Option.map_eq_some_iff.mp hs
    exact D.advance hinv hall hi hc
  | die i =>
    simp only [system, Option.some.injEq] at hs
    obtain ⟨hdead, hidle, hrely⟩ := D.die i _ hinv
    rw [← hs]
    exact ⟨hdead, remains.set hidle fun j hj => (hall j).stable D.idle (hrely j hj)⟩

omit [DecidableEq κ] in
theorem permits_all (i : κ) (a : δ) (s : σ) (x : Option (Program ω ρ Unit)) :
    permits (fun _ _ _ _ => True) i a s x := by
  cases x with
  | none => trivial
  | some program => cases program <;> trivial

/-- Every run meets a condition that is no condition. -/
theorem under (h : T.system.Reachable p) :
    T.system.ReachableUnder (Permitted fun _ _ _ _ => True) p := by
  induction h with
  | init h => exact .init h
  | @step p p' e _ hs ih =>
    refine .step ih ?_ hs
    cases e with
    | act i a => exact permits_all i a p.shared (p.running i)
    | call i c => trivial
    | die i => trivial

/-- A call that is about to perform an operation has what its terms ensure. -/
theorem Discipline.next (D : T.Discipline C terms Inv Idle)
    (h : T.system.ReachableUnder (Permitted C) p) {i : κ} {o : ω} {next : ρ o → Program ω ρ Unit}
    (hi : p.running i = some (.perform o next)) {a : δ} (hc : C i o a p.shared) :
    (terms i).guar p.shared (T.act i o a p.shared).2 := by
  have hprogram := (D.reachable h).2 i
  rw [hi] at hprogram
  exact (Program.Ensures.act hprogram (D.act i o a p.shared hc)).1

end Threads
