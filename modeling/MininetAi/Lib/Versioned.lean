/-
Versioned cells and serial runs, for optimistic concurrency control.

A cell holds a version that only grows and possibly a value; a deleted cell
keeps its version. Whoever has read a cell and later finds the same visible
version there knows that the visible value is the one it read, also when the
cell was empty both times and was written and emptied in between. That is the
whole reason why comparing versions is enough.

A serial run is the other end: transactions one after another, each of which
sees, on its footprint, the state the previous ones left. A concurrent execution
is serializable in commit order when its commits form such a run.
-/
import Mathlib.Data.Set.Basic

set_option autoImplicit false

universe u v w

/-! ## Cells -/

/-- A cell of a versioned store. Version zero is for cells never written. -/
structure Cell (ν : Type u) where
  version : ℕ
  value : Option ν
  written : value.isSome → 0 < version

namespace Cell

variable {ν : Type u}

/-- A cell nobody has written. -/
def fresh : Cell ν where
  version := 0
  value := none
  written := by simp

/-- The version a reader sees: zero when there is nothing to see. -/
def visible_version (c : Cell ν) : ℕ :=
  if c.value.isSome then c.version else 0

/-- `d` is `c` some writes later. -/
def Later (c d : Cell ν) : Prop :=
  c = d ∨ c.version < d.version

theorem Later.refl (c : Cell ν) : Later c c := Or.inl rfl

variable {c d : Cell ν}

theorem Later.trans {e : Cell ν} (hcd : Later c d) (hde : Later d e) : Later c e := by
  rcases hcd with rfl | hcd
  · exact hde
  · rcases hde with rfl | hde
    · exact Or.inr hcd
    · exact Or.inr (hcd.trans hde)

theorem visible_version_of_none (h : c.value = none) : c.visible_version = 0 := by
  simp [visible_version, h]

theorem visible_version_of_some {x : ν} (h : c.value = some x) :
    c.visible_version = c.version ∧ 0 < c.version := by
  have hsome : c.value.isSome := by rw [h]; rfl
  exact ⟨by simp [visible_version, hsome], c.written hsome⟩

/-- A visible version other than zero is the version. -/
theorem version_of_visible (h : c.visible_version ≠ 0) : c.version = c.visible_version := by
  rw [visible_version] at h ⊢
  split at h
  · rename_i hsome
    rw [if_pos hsome]
  · exact absurd rfl h

/-- A reader that sees no version sees no value. -/
theorem value_of_visible_zero (h : c.visible_version = 0) : c.value = none := by
  cases hc : c.value with
  | none => rfl
  | some x =>
    obtain ⟨hversion, hpos⟩ := visible_version_of_some hc
    omega

/-- Equal visible versions: the reader sees the value it saw. -/
theorem Later.value_eq (h : Later c d) (hver : d.visible_version = c.visible_version) :
    d.value = c.value := by
  rcases h with rfl | hlt
  · rfl
  cases hc : c.value with
  | none =>
    cases hd : d.value with
    | none => rfl
    | some y =>
      obtain ⟨hy, hpos⟩ := visible_version_of_some hd
      rw [visible_version_of_none hc, hy] at hver
      omega
  | some x =>
    obtain ⟨hx, hpos⟩ := visible_version_of_some hc
    cases hd : d.value with
    | none =>
      rw [visible_version_of_none hd, hx] at hver
      omega
    | some y =>
      obtain ⟨hy, -⟩ := visible_version_of_some hd
      rw [hx, hy] at hver
      omega

end Cell

/-! ## Serial runs -/

/-- A transaction: the places its decision rests on, what it saw there, and how
it changes the state. -/
structure Transaction (σ : Type u) (κ : Type v) (ν : Type w) where
  footprint : Set κ
  seen : κ → ν
  commit : σ → Option σ

/-- A run of one transaction after another, in the order of the list: each sees
on its footprint what its predecessors left. -/
inductive Serial {σ : Type u} {κ : Type v} {ν : Type w} (view : σ → κ → ν) (start : σ) :
    List (Transaction σ κ ν) → σ → Prop
  | nil : Serial view start [] start
  | commit {log : List (Transaction σ κ ν)} {s s' : σ} {t : Transaction σ κ ν}
      (h : Serial view start log s) (hseen : ∀ k ∈ t.footprint, view s k = t.seen k)
      (hs : t.commit s = some s') : Serial view start (log ++ [t]) s'

namespace Serial

variable {σ : Type u} {κ : Type v} {ν : Type w} {view : σ → κ → ν} {start : σ}

end Serial
