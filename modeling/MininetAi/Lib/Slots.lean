/-
Bookkeeping lists: a list that holds exactly what its participants put there.

A monitor keeps lists of what its participants currently wait for or hold, and
each participant appends at most one entry and removes it later. `Tracks l f`
says that `l` is that list when `f i` is the entry of participant `i`: every
entry has one owner, and no entry is there twice. The four rules below are the
four things a step can do to such a list.
-/
import Mathlib.Data.List.Nodup

set_option autoImplicit false

universe u v

variable {ι : Type u} {α : Type v}

/-- The list `l` holds exactly the entries `f i`, each once, and no two
participants have the same entry. -/
structure Tracks (l : List α) (f : ι → Option α) : Prop where
  nodup : l.Nodup
  mem_iff : ∀ a, a ∈ l ↔ ∃ i, f i = some a
  owner : ∀ i j a, f i = some a → f j = some a → i = j

namespace Tracks

/-- Nobody has an entry. -/
theorem empty : Tracks ([] : List α) (fun _ : ι => none) where
  nodup := List.nodup_nil
  mem_iff := by simp
  owner := by simp

variable {l : List α} {f : ι → Option α} {i : ι} {a : α}

/-- The entry of a participant is in the list. -/
theorem mem (h : Tracks l f) (hi : f i = some a) : a ∈ l :=
  (h.mem_iff a).mpr ⟨i, hi⟩

variable [DecidableEq ι]

/-- A participant without an entry appends a new one. -/
theorem acquire (h : Tracks l f) (hi : f i = none) (ha : ∀ j, f j ≠ some a) :
    Tracks (l ++ [a]) (Function.update f i (some a)) := by
  have hal : a ∉ l := fun hm => by
    obtain ⟨j, hj⟩ := (h.mem_iff a).mp hm
    exact ha j hj
  refine ⟨?_, ?_, ?_⟩
  · exact List.nodup_append.mpr ⟨h.nodup, List.nodup_singleton a,
      fun x hx y hy => by rw [List.mem_singleton.mp hy]; rintro rfl; exact hal hx⟩
  · intro b
    rw [List.mem_append, List.mem_singleton, h.mem_iff]
    constructor
    · rintro (⟨j, hj⟩ | rfl)
      · have hji : j ≠ i := by rintro rfl; rw [hi] at hj; cases hj
        exact ⟨j, by rw [Function.update_of_ne hji]; exact hj⟩
      · exact ⟨i, Function.update_self i _ f⟩
    · rintro ⟨j, hj⟩
      by_cases hji : j = i
      · subst hji
        rw [Function.update_self] at hj
        exact Or.inr (Option.some.inj hj).symm
      · rw [Function.update_of_ne hji] at hj
        exact Or.inl ⟨j, hj⟩
  · intro j k b hj hk
    by_cases hji : j = i <;> by_cases hki : k = i
    · rw [hji, hki]
    · rw [hji, Function.update_self] at hj
      rw [Function.update_of_ne hki] at hk
      exact absurd (hk.trans hj.symm) (ha k)
    · rw [hki, Function.update_self] at hk
      rw [Function.update_of_ne hji] at hj
      exact absurd (hj.trans hk.symm) (ha j)
    · rw [Function.update_of_ne hji] at hj
      rw [Function.update_of_ne hki] at hk
      exact h.owner j k b hj hk

/-- A participant removes its entry. -/
theorem release [DecidableEq α] {l : List α} {f : ι → Option α} (h : Tracks l f) {i : ι} {a : α}
    (hi : f i = some a) : Tracks (l.erase a) (Function.update f i none) := by
  refine ⟨h.nodup.erase a, ?_, ?_⟩
  · intro b
    rw [h.nodup.mem_erase_iff, h.mem_iff]
    constructor
    · rintro ⟨hba, j, hj⟩
      have hji : j ≠ i := by
        rintro rfl
        exact hba (Option.some.inj (hj.symm.trans hi))
      exact ⟨j, by rw [Function.update_of_ne hji]; exact hj⟩
    · rintro ⟨j, hj⟩
      by_cases hji : j = i
      · subst hji; rw [Function.update_self] at hj; cases hj
      · rw [Function.update_of_ne hji] at hj
        refine ⟨?_, j, hj⟩
        rintro rfl
        exact hji (h.owner j i b hj hi)
  · intro j k b hj hk
    by_cases hji : j = i
    · subst hji; rw [Function.update_self] at hj; cases hj
    by_cases hki : k = i
    · subst hki; rw [Function.update_self] at hk; cases hk
    rw [Function.update_of_ne hji] at hj
    rw [Function.update_of_ne hki] at hk
    exact h.owner j k b hj hk

end Tracks
