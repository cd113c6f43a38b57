/-
Single flight: of the jobs with one key at most one waits or runs.

A component that keeps this rule has a queue and a marker for every key. It admits a
job only to an idle key, one whose queue is empty and whose marker is not set; it
sets the marker of a job it takes and removes it when the job is done. Nobody counts
the running jobs: that the marker stands for all of them is the invariant, and that
the job which removes it was the only one is what makes the removal safe.

Jobs are counted by key, `waiting` and `taken`. Jobs that the rule does not apply to
go through the same queue; `share` is what one job counts for a key.
-/
import Mathlib.Data.Finset.Insert
import Mathlib.Algebra.Order.Group.Nat

set_option autoImplicit false

universe u

variable {κ : Type u}

namespace SingleFlight

section Share

variable [DecidableEq κ]

/-- What a job of the key `own` counts for the key `k`. -/
def share (own : κ) (counted : Bool) (k : κ) : ℕ := (decide (own = k) && counted).toNat

theorem share_pos_iff {own : κ} {counted : Bool} {k : κ} :
    0 < share own counted k ↔ own = k ∧ counted = true := by
  by_cases hown : own = k
  · cases counted
    · simp [share]
    · simp [share, hown]
  · simp [share, hown]

end Share

end SingleFlight

open SingleFlight

/-- At most one job of a key waits or runs, and the key of a running job is marked. -/
structure SingleFlight (waiting taken : κ → ℕ) (marked : Finset κ) : Prop where
  once : ∀ k, waiting k + taken k ≤ 1
  marked : ∀ k, 0 < taken k → k ∈ marked

namespace SingleFlight

variable {waiting taken waiting' taken' : κ → ℕ} {marked marked' : Finset κ}

/-- Nothing waits and nothing runs. -/
theorem idle (hwaiting : ∀ k, waiting k = 0) (htaken : ∀ k, taken k = 0) :
    SingleFlight waiting taken marked where
  once k := by rw [hwaiting, htaken]; omega
  marked k hk := by rw [htaken] at hk; omega

section

variable (h : SingleFlight waiting taken marked)
include h

/-- An unmarked key has nothing that runs. -/
theorem taken_eq_zero {k : κ} (hk : k ∉ marked) : taken k = 0 := by
  by_contra hne
  exact hk (h.marked k (Nat.pos_of_ne_zero hne))

/-- Jobs that leave the queue unprocessed leave the rule alone. -/
theorem fewer (hwaiting : ∀ k, waiting' k ≤ waiting k) :
    SingleFlight waiting' taken marked where
  once k := by
    have honce := h.once k
    have hle := hwaiting k
    omega
  marked := h.marked

/-- A key gets a job only when it is idle. -/
theorem admitted (hwaiting : ∀ k, waiting' k ≤ waiting k ∨ (k ∉ marked ∧ waiting' k ≤ 1)) :
    SingleFlight waiting' taken marked where
  once k := by
    have honce := h.once k
    rcases hwaiting k with hle | ⟨hfree, hle⟩
    · omega
    · have hzero := h.taken_eq_zero hfree
      omega
  marked := h.marked

end

variable [DecidableEq κ]

/-- A job is taken out of its queue and its key marked. -/
theorem take (h : SingleFlight waiting taken marked) {own : κ} {counted : Bool}
    (hwaiting : ∀ k, waiting' k + share own counted k = waiting k)
    (htaken : ∀ k, taken' k = taken k + share own counted k)
    (hmarked : ∀ k ∈ marked, k ∈ marked') (hown : counted = true → own ∈ marked') :
    SingleFlight waiting' taken' marked' where
  once k := by
    have honce := h.once k
    have hmoved := hwaiting k
    rw [htaken k]
    omega
  marked k hk := by
    rw [htaken k] at hk
    by_cases hold : 0 < taken k
    · exact hmarked k (h.marked k hold)
    · have hnew : 0 < share own counted k := by omega
      obtain ⟨rfl, hcounted⟩ := share_pos_iff.mp hnew
      exact hown hcounted

/-- A job is done and the marker removed: it was the only one that the marker could
have stood for. -/
theorem release (h : SingleFlight waiting taken marked) {own : κ} {counted : Bool}
    (htaken : ∀ k, taken' k + share own counted k = taken k)
    (hmarked : ∀ k ∈ marked, ¬ (own = k ∧ counted = true) → k ∈ marked') :
    SingleFlight waiting taken' marked' where
  once k := by
    have honce := h.once k
    have hmoved := htaken k
    omega
  marked k hk := by
    have hmoved := htaken k
    refine hmarked k (h.marked k (by omega)) fun hshare => ?_
    have hone := share_pos_iff.mpr hshare
    have honce := h.once k
    omega

end SingleFlight
