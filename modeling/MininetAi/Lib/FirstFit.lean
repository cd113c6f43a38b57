/-
First fit over a list of slots, some of which are reserved for others.

Of the slots that are not reserved the first `m` are taken, and perhaps some of the reserved
ones. If the first slot that is free is not reserved it is the next one in turn, and every
free reserved slot stands behind it; if it is reserved, no more than `m` slots that are not
stand before it.
-/
import Mathlib.Data.List.Nodup
import Mathlib.Data.List.Perm.Basic
import Mathlib.Data.List.TakeWhile

set_option autoImplicit false

universe u

namespace List

variable {α : Type u}

variable {A B : List α} {d : α}

/-- A list is taken up to an element when exactly what stands before the element is in the
part that is taken. -/
theorem length_eq_of_take {m : ℕ} (hnodup : (A ++ d :: B).Nodup)
    (hbefore : ∀ x ∈ A, x ∈ (A ++ d :: B).take m) (hout : d ∉ (A ++ d :: B).take m) : A.length = m := by
  have hle : m ≤ A.length := by
    by_contra hlt
    have htake : (A ++ d :: B).take m = A ++ (d :: B).take (m - A.length) := by
      rw [take_append, take_of_length_le (by omega)]
    rw [htake] at hout
    obtain ⟨k, hk⟩ : ∃ k, m - A.length = k + 1 := ⟨m - A.length - 1, by omega⟩
    rw [hk, take_succ_cons] at hout
    exact hout (mem_append_right _ mem_cons_self)
  by_contra hne
  have hlt : m < A.length := by omega
  have hlast : A[m] ∈ (A ++ d :: B).take m := hbefore _ (getElem_mem hlt)
  rw [take_append_of_le_length hle] at hlast
  -- the element behind the taken part stands in the list once
  have hsplit : (A.take m ++ A.drop m).Nodup := by
    rw [take_append_drop]
    exact (nodup_append.mp hnodup).1
  refine (nodup_append.mp hsplit).2.2 _ hlast _ ?_ rfl
  rw [drop_eq_getElem_cons hlt]
  exact mem_cons_self

/-- What stands before an element. -/
theorem takeWhile_ne [DecidableEq α] (hnodup : (A ++ d :: B).Nodup) :
    (A ++ d :: B).takeWhile (fun x => decide (x ≠ d)) = A := by
  have hne : ∀ x ∈ A, decide (x ≠ d) = true := fun x hx =>
    decide_eq_true ((nodup_append.mp hnodup).2.2 x hx d mem_cons_self)
  rw [takeWhile_append_of_pos hne, takeWhile_cons_of_neg (by simp), append_nil]

section FirstFit

variable [DecidableEq α] {l : List α} {free unreserved : α → Bool} {m : ℕ} {d : α}

/-- How many unreserved slots stand before a slot. -/
def slots_before (unreserved : α → Bool) (l : List α) (d : α) : ℕ :=
  ((l.takeWhile fun x => decide (x ≠ d)).filter unreserved).length

/-- The first `m` unreserved slots are taken, and no other unreserved one. -/
def TakenInTurn (free unreserved : α → Bool) (l : List α) (m : ℕ) : Prop :=
  ∀ x ∈ l, unreserved x = true → (free x = false ↔ x ∈ (l.filter unreserved).take m)

/-- The first free slot is unreserved: it is the next one in turn. -/
theorem TakenInTurn.next (h : TakenInTurn free unreserved l m) (hnodup : l.Nodup)
    (hfirst : l.find? free = some d) (hd : unreserved d = true) :
    (l.filter unreserved).take (m + 1) = (l.filter unreserved).take m ++ [d] ∧ m < (l.filter unreserved).length ∧
      ∀ x ∈ l, free x = true → unreserved x = false → m < slots_before unreserved l x := by
  obtain ⟨hfree, A, B, rfl, htaken⟩ := find?_eq_some_iff_append.mp hfirst
  have hfilter : (A ++ d :: B).filter unreserved = A.filter unreserved ++ d :: B.filter unreserved := by
    rw [filter_append, filter_cons_of_pos hd]
  have hlength : (A.filter unreserved).length = m := by
    refine length_eq_of_take (d := d) (B := B.filter unreserved) ?_ (fun x hx => ?_) ?_
    · rw [← hfilter]
      exact hnodup.filter _
    · obtain ⟨hxA, hx⟩ := mem_filter.mp hx
      rw [← hfilter]
      refine (h x (mem_append_left _ hxA) hx).mp ?_
      have hnot := htaken x hxA
      rwa [Bool.not_eq_true'] at hnot
    · rw [← hfilter]
      intro hmem
      rw [(h d (mem_append_right _ mem_cons_self) hd).mpr hmem] at hfree
      cases hfree
  refine ⟨?_, ?_, fun x hx hxfree hxd => ?_⟩
  · rw [hfilter, ← hlength, take_left, take_length_add_append]
    rfl
  · rw [hfilter, length_append, length_cons, hlength]
    omega
  · -- a free reserved slot stands behind `d`
    rcases mem_append.mp hx with hxA | hxB
    · have hnot := htaken x hxA
      rw [hxfree] at hnot
      cases hnot
    rcases mem_cons.mp hxB with rfl | hxB
    · rw [hd] at hxd
      cases hxd
    obtain ⟨C, D, rfl⟩ := append_of_mem hxB
    have hregroup : A ++ d :: (C ++ x :: D) = (A ++ d :: C) ++ x :: D := by rw [append_assoc, cons_append]
    rw [hregroup] at hnodup ⊢
    rw [slots_before, takeWhile_ne hnodup, filter_append, filter_cons_of_pos hd, length_append, length_cons, hlength]
    omega

/-- The first free slot is reserved: the slots before it are taken. -/
theorem TakenInTurn.overtaken (h : TakenInTurn free unreserved l m) (hnodup : l.Nodup)
    (hfirst : l.find? free = some d) : slots_before unreserved l d ≤ m := by
  obtain ⟨-, A, B, rfl, htaken⟩ := find?_eq_some_iff_append.mp hfirst
  rw [slots_before, takeWhile_ne hnodup]
  have hsubset : A.filter unreserved ⊆ ((A ++ d :: B).filter unreserved).take m := by
    intro x hx
    obtain ⟨hxA, hx⟩ := mem_filter.mp hx
    refine (h x (mem_append_left _ hxA) hx).mp ?_
    have hnot := htaken x hxA
    rwa [Bool.not_eq_true'] at hnot
  have hnodupA : (A.filter unreserved).Nodup := (nodup_append.mp hnodup).1.filter _
  calc (A.filter unreserved).length
      ≤ (((A ++ d :: B).filter unreserved).take m).length := (subperm_of_subset hnodupA hsubset).length_le
    _ ≤ m := length_take_le _ _

omit [DecidableEq α] in
/-- No slot is free: all unreserved ones have been taken in turn. -/
theorem TakenInTurn.exhausted (h : TakenInTurn free unreserved l m) (hnodup : l.Nodup)
    (hnone : l.find? free = none) : (l.filter unreserved).length ≤ m := by
  have hsubset : l.filter unreserved ⊆ (l.filter unreserved).take m := by
    intro x hx
    obtain ⟨hxl, hxu⟩ := mem_filter.mp hx
    refine (h x hxl hxu).mp ?_
    have hnot := find?_eq_none.mp hnone x hxl
    rwa [Bool.not_eq_true] at hnot
  calc (l.filter unreserved).length
      ≤ ((l.filter unreserved).take m).length := (subperm_of_subset (hnodup.filter _) hsubset).length_le
    _ ≤ m := length_take_le _ _

end FirstFit

end List
