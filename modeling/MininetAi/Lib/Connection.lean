/-
A connection to a stored value with transactions.

One user at a time is connected. Between `begin_immediate` and the end of the
transaction the connection reads and writes a working value; `commit` puts it in the
place of the stored one and `rollback` forgets it. Nothing is assumed of the value, so
a table, several tables or a file will do.
-/
import Mathlib.Data.Option.Basic

set_option autoImplicit false

universe u

/-- A stored value, and the working value of the transaction that is open. -/
structure Connection (τ : Type u) where
  stored : τ
  working : Option τ := none

namespace Connection

variable {τ : Type u}

/-- What the connection reads. -/
def view (c : Connection τ) : τ :=
  c.working.getD c.stored

/-- Opens a transaction; there is no transaction within a transaction. -/
def begin_immediate (c : Connection τ) : Option (Connection τ) :=
  if c.working.isSome then none else some { c with working := some c.stored }

/-- Writes what it reads back changed. -/
def write (c : Connection τ) (f : τ → τ) : Connection τ :=
  { c with working := some (f c.view) }

/-- Ends the transaction and keeps its value. -/
def commit (c : Connection τ) : Connection τ where
  stored := c.view

/-- Ends the transaction and forgets its value. -/
def rollback (c : Connection τ) : Connection τ where
  stored := c.stored

/-- No transaction is open. -/
def Idle (c : Connection τ) : Prop :=
  c.working = none

theorem idle_commit (c : Connection τ) : c.commit.Idle := rfl

theorem idle_rollback (c : Connection τ) : c.rollback.Idle := rfl

variable {c : Connection τ}

theorem Idle.view_eq (h : c.Idle) : c.view = c.stored := by
  rw [view, h]
  rfl

/-- Without an open transaction one can be opened, and it starts with what is stored. -/
theorem Idle.begin_eq (h : c.Idle) :
    ∃ c', c.begin_immediate = some c' ∧ c'.view = c.stored ∧ c'.stored = c.stored := by
  refine ⟨{ c with working := some c.stored }, ?_, rfl, rfl⟩
  rw [begin_immediate, h]
  rfl

/-- Forgetting a transaction leaves the connection as it was before it. -/
theorem Idle.rollback_eq {c' : Connection τ} (h : c.Idle) (hstored : c'.stored = c.stored) :
    c'.rollback = c := by
  rw [rollback, hstored, ← h]

end Connection
