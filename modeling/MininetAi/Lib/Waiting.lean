/-
Positions in a waiting list.

A FIFO of distinct waiters is a list without duplicates that grows at its end and
loses elements anywhere. "Queued before" is the comparison of positions, and what
every argument about such a list needs is that it does not change while both
waiters stay: neither when somebody appends, nor when somebody else leaves.
-/
import Mathlib.Data.List.Nodup

set_option autoImplicit false

universe u

variable {α : Type u} [DecidableEq α]

namespace List

variable {l : List α} {a : α}

/-- The index `enumerate` gives an element of a list without duplicates is its
position. -/
theorem mem_zipIdx_iff_idxOf (h : l.Nodup) (a : α) (k : ℕ) :
    (a, k) ∈ l.zipIdx ↔ a ∈ l ∧ l.idxOf a = k := by
  rw [List.mem_zipIdx_iff_getElem?, List.getElem?_eq_some_iff]
  constructor
  · rintro ⟨hk, hka⟩
    dsimp only at hk hka
    subst hka
    exact ⟨List.getElem_mem hk, h.idxOf_getElem k hk⟩
  · rintro ⟨ha, rfl⟩
    exact ⟨List.idxOf_lt_length_iff.mpr ha, List.getElem_idxOf (List.idxOf_lt_length_iff.mpr ha)⟩

/-- Appending keeps positions. -/
theorem idxOf_append_singleton (ha : a ∈ l) (b : α) : (l ++ [b]).idxOf a = l.idxOf a :=
  List.idxOf_append_of_mem ha

/-- Who is queued before whom does not depend on a third waiter. -/
theorem idxOf_lt_idxOf_erase (l : List α) {b x : α} (hxa : x ≠ a) (hxb : x ≠ b) :
    (l.erase x).idxOf a < (l.erase x).idxOf b ↔ l.idxOf a < l.idxOf b := by
  induction l with
  | nil => rfl
  | cons c l ih =>
    by_cases hcx : c = x
    · subst hcx
      rw [List.erase_cons_head, List.idxOf_cons_ne _ hxa, List.idxOf_cons_ne _ hxb]
      exact Nat.succ_lt_succ_iff.symm
    · rw [List.erase_cons_tail (by simpa using hcx)]
      by_cases hca : c = a
      · subst hca
        by_cases hcb : c = b
        · subst hcb; simp
        · rw [List.idxOf_cons_self, List.idxOf_cons_self, List.idxOf_cons_ne _ hcb,
            List.idxOf_cons_ne _ hcb]
          simp
      · by_cases hcb : c = b
        · subst hcb; simp
        · rw [List.idxOf_cons_ne _ hca, List.idxOf_cons_ne _ hcb, List.idxOf_cons_ne _ hca,
            List.idxOf_cons_ne _ hcb, Nat.succ_lt_succ_iff, Nat.succ_lt_succ_iff]
          exact ih

end List
