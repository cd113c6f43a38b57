/-
Programs over operations that something else performs.

A program is what code does between the operations it asks for: it ends with a result, or
it asks for an operation and goes on with the reply. What the operations do is an
interpreter's, so one program can be run by itself, against replies fixed in advance, and
be a thread of a system whose threads take turns at every operation.

A routine is a program that ends by returning or by raising.
-/
import Mathlib.Logic.Basic

set_option autoImplicit false

/-- A program: `ω` are the operations and `ρ o` the replies to `o`. -/
inductive Program (ω : Type) (ρ : ω → Type) (α : Type) where
  | done (a : α)
  | perform (o : ω) (next : ρ o → Program ω ρ α)

namespace Program

variable {ω : Type} {ρ : ω → Type} {σ α β γ : Type}

/-- One program after another. -/
def bind : Program ω ρ α → (α → Program ω ρ β) → Program ω ρ β
  | done a, f => f a
  | perform o next, f => perform o fun r => (next r).bind f

/-- One operation. -/
def ask (o : ω) : Program ω ρ (ρ o) := perform o done

/-! ## Running a program by itself -/

/-- What an interpreter makes of a program. -/
def run (I : (o : ω) → σ → ρ o × σ) : Program ω ρ α → σ → α × σ
  | done a, s => (a, s)
  | perform o next, s => (next (I o s).1).run I (I o s).2

variable (I : (o : ω) → σ → ρ o × σ)

/-- What every operation keeps a run keeps. -/
theorem run_keeps {P : σ → Prop} (h : ∀ o s, P s → P (I o s).2) (p : Program ω ρ α) {s : σ} (hs : P s) :
    P (p.run I s).2 := by
  induction p generalizing s with
  | done a => exact hs
  | perform o next ih => exact ih (I o s).1 (h o s hs)

end Program

/-! ## Routines -/

/-- A program that returns or raises. -/
def Routine (ω : Type) (ρ : ω → Type) (ε α : Type) : Type := Program ω ρ (Except ε α)

namespace Routine

variable {ω : Type} {ρ : ω → Type} {σ ε α β : Type}

/-- What comes after a result: the rest, or nothing when it is raised. -/
def after (f : α → Routine ω ρ ε β) : Except ε α → Routine ω ρ ε β
  | .ok a => f a
  | .error e => Program.done (.error e)

instance : Monad (Routine ω ρ ε) where
  pure a := Program.done (.ok a)
  bind x f := Program.bind x (after f)

def raise (e : ε) : Routine ω ρ ε α := Program.done (.error e)

/-- A program of its own: it does not raise. -/
def lift (p : Program ω ρ α) : Routine ω ρ ε α := p.bind fun a => Program.done (.ok a)

/-- `try`: how the routine has ended, as a value. -/
def attempt (x : Routine ω ρ ε α) : Routine ω ρ ε (Except ε α) := Program.bind x fun r => Program.done (.ok r)

/-- Ends as the result says. -/
def conclude : Except ε α → Routine ω ρ ε α := Program.done

/-- What a handler makes of a result. -/
def recover (handler : ε → Routine ω ρ ε α) : Except ε α → Routine ω ρ ε α
  | .ok a => Program.done (.ok a)
  | .error e => handler e

/-- `try` with an `except` clause. -/
def handle (x : Routine ω ρ ε α) (handler : ε → Routine ω ρ ε α) : Routine ω ρ ε α :=
  Program.bind x (recover handler)

/-- `try` with a `finally` clause: what it raises takes the place of how the body has ended. -/
def eventually (x : Routine ω ρ ε α) (clause : Routine ω ρ ε Unit) : Routine ω ρ ε α :=
  Program.bind x fun r => Program.bind clause (after fun _ => Program.done r)

/-- Runs to a result and a state. -/
def run (I : (o : ω) → σ → ρ o × σ) (x : Routine ω ρ ε α) (s : σ) : Except ε α × σ :=
  Program.run I x s

variable (I : (o : ω) → σ → ρ o × σ)

/-- A sequence that starts with a value. -/
theorem run_pure_bind (a : α) (f : α → Routine ω ρ ε β) (s : σ) :
    ((pure a : Routine ω ρ ε α) >>= f).run I s = (f a).run I s := rfl

/-- A sequence that starts with an operation. -/
theorem run_ask_bind (o : ω) (f : ρ o → Routine ω ρ ε β) (s : σ) :
    (lift (Program.ask o) >>= f).run I s = (f (I o s).1).run I (I o s).2 := rfl

end Routine
