/-
Descent: why a run cannot go on for ever.

The events of a system that count as work lower a rank in a well-founded order, and
the others leave it alone; then an endless run does work only finitely often. The
rank of a worklist is a multiset of the ranks of its items: handling one item puts
any number of smaller ones in its place (the Dershowitz-Manna order).
-/
import Mathlib.Data.Multiset.DershowitzManna
import Mathlib.Order.WellFounded
import MininetAi.Lib.Transition

set_option autoImplicit false

universe u v w

namespace System

variable {σ : Type u} {ε : Type v} {α : Type w}

/-! ## Endless runs -/

/-- A run that goes on for ever, from a reachable state. -/
structure EndlessRun (S : System σ ε) where
  state : ℕ → σ
  event : ℕ → ε
  start : S.Reachable (state 0)
  step : ∀ n, S.step (state n) (event n) = some (state (n + 1))

variable {S : System σ ε}

theorem EndlessRun.reachable (run : S.EndlessRun) (n : ℕ) : S.Reachable (run.state n) := by
  induction n with
  | zero => exact run.start
  | succ n ih => exact .step ih (run.step n)

/-- The rule of descent. -/
theorem EndlessRun.eventually_idle (run : S.EndlessRun) {lt : α → α → Prop}
    (hlt : WellFounded lt) (rank : σ → α) (work : σ → ε → Prop)
    (hwork : ∀ n, work (run.state n) (run.event n) →
      lt (rank (run.state (n + 1))) (rank (run.state n)))
    (hidle : ∀ n, ¬ work (run.state n) (run.event n) →
      rank (run.state (n + 1)) = rank (run.state n)) :
    ∃ N, ∀ n, N ≤ n → ¬ work (run.state n) (run.event n) := by
  -- from a point with a minimal rank on there is no work
  obtain ⟨a, ⟨N, rfl⟩, hmin⟩ :=
    hlt.has_min (Set.range fun n => rank (run.state n)) ⟨_, 0, rfl⟩
  have hno_work : ∀ n, rank (run.state n) = rank (run.state N) →
      ¬ work (run.state n) (run.event n) := by
    intro n hn hw
    have hlower := hwork n hw
    rw [hn] at hlower
    exact hmin _ ⟨n + 1, rfl⟩ hlower
  have hconst : ∀ n, N ≤ n → rank (run.state n) = rank (run.state N) := by
    intro n hn
    induction n, hn using Nat.le_induction with
    | base => rfl
    | succ n _ ih =>
      rw [hidle n (hno_work n ih)]
      exact ih
  exact ⟨N, fun n hn => hno_work n (hconst n hn)⟩

end System

/-! ## Worklists -/

namespace Multiset

variable {α : Type u} [Preorder α]

/-- Some items are replaced by smaller ones. -/
theorem IsDershowitzMannaLT.replace (rest : Multiset α) {old new : Multiset α} {x : α}
    (hx : x ∈ old) (h : ∀ y ∈ new, ∃ z ∈ old, y < z) :
    IsDershowitzMannaLT (rest + new) (rest + old) := by
  refine ⟨rest, new, old, ?_, rfl, rfl, h⟩
  rintro rfl
  exact notMem_zero x hx

/-- Other items do not matter. -/
theorem IsDershowitzMannaLT.add_left {M N : Multiset α} (h : IsDershowitzMannaLT M N)
    (rest : Multiset α) : IsDershowitzMannaLT (rest + M) (rest + N) := by
  obtain ⟨X, Y, Z, hZ, rfl, rfl, hYZ⟩ := h
  exact ⟨rest + X, Y, Z, hZ, (add_assoc rest X Y).symm, (add_assoc rest X Z).symm, hYZ⟩

/-- A part is below as well. -/
theorem IsDershowitzMannaLT.of_add {M N P : Multiset α} (h : IsDershowitzMannaLT (M + P) N) :
    IsDershowitzMannaLT M N := by
  rcases P.empty_or_exists_mem with rfl | ⟨x, hx⟩
  · rw [add_zero] at h
    exact h
  · have hpart : IsDershowitzMannaLT (M + 0) (M + P) :=
      .replace M hx fun y hy => absurd hy (notMem_zero y)
    rw [add_zero] at hpart
    exact hpart.trans h

end Multiset

/-- The rank of a list is that of its item `i` and of the others. -/
theorem List.sum_map_set {α : Type u} {β : Type v} (rank : β → Multiset α) {l : List β} {i : ℕ}
    {a : β} (ha : l[i]? = some a) : ∃ others : Multiset α, (l.map rank).sum = others + rank a ∧
      ∀ b, ((l.set i b).map rank).sum = others + rank b := by
  obtain ⟨hi, rfl⟩ := List.getElem?_eq_some_iff.mp ha
  refine ⟨((l.take i).map rank).sum + ((l.drop (i + 1)).map rank).sum, ?_, fun b => ?_⟩
  · have hsplit : l = l.take i ++ l[i] :: l.drop (i + 1) := by
      rw [List.cons_getElem_drop_succ, List.take_append_drop]
    conv_lhs => rw [hsplit]
    rw [List.map_append, List.sum_append, List.map_cons, List.sum_cons, add_comm (rank l[i]),
      add_assoc]
  · have hset : l.set i b = l.take i ++ b :: l.drop (i + 1) := by
      rw [List.set_eq_take_append_cons_drop, if_pos hi]
    rw [hset, List.map_append, List.sum_append, List.map_cons, List.sum_cons, add_comm (rank b),
      add_assoc]
