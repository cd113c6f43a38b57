/-
Reconciliation of a fixed action bundle (`mininet_ai/agents/reconciliation.py`).

The bundle is installed in order, so an interrupted recovery has left a prefix of it. Of
the states that an inspection reports only that shape is resumed from; anything else,
a state that is no known word included, is unknown.
-/
import Mathlib.Data.List.Basic

set_option autoImplicit false

namespace MininetAi

open List

/-- The policies of a `Reconciliation`. -/
inductive PolicyState where
  | unknown
  | verified_primary
  | verified_recovery
  | partially
  deriving DecidableEq

structure Reconciliation where
  policy : PolicyState
  present : List ℕ
  missing : List ℕ
  deriving DecidableEq

/-- `index for index, state in enumerate(states, start) if state == word`. -/
def indexes (word : String) : ℕ → List String → List ℕ
  | _, [] => []
  | start, state :: states =>
    if state = word then start :: indexes word (start + 1) states
    else indexes word (start + 1) states

def reconcile_bundle (states : List String) : Reconciliation :=
  let present := indexes "present" 0 states
  let missing := indexes "missing" 0 states
  if ∃ state ∈ states, state ≠ "present" ∧ state ≠ "missing" then
    { policy := .unknown, present := [], missing := range states.length }
  else if present ≠ range present.length then
    { policy := .unknown, present := [], missing := range states.length }
  else if present = [] then
    { policy := .verified_primary, present := present, missing := missing }
  else if missing = [] then
    { policy := .verified_recovery, present := present, missing := missing }
  else { policy := .partially, present := present, missing := missing }

/-! ## Prefixes -/

/-- `k` steps are installed and the `m` after them are not. -/
def installed (k m : ℕ) : List String :=
  replicate k "present" ++ replicate m "missing"

theorem indexes_replicate (word : String) (start k : ℕ) :
    indexes word start (replicate k word) = range' start k := by
  induction k generalizing start with
  | zero => rfl
  | succ k ih => rw [replicate_succ, indexes, if_pos rfl, ih, range'_succ]

variable {word : String} {start : ℕ} {states : List String}

theorem indexes_replicate_of_ne {other : String} (h : other ≠ word) (start k : ℕ) :
    indexes word start (replicate k other) = [] := by
  induction k generalizing start with
  | zero => rfl
  | succ k ih => rw [replicate_succ, indexes, if_neg h, ih]

theorem indexes_append (word : String) (start : ℕ) (states states' : List String) :
    indexes word start (states ++ states') =
      indexes word start states ++ indexes word (start + states.length) states' := by
  induction states generalizing start with
  | nil => rfl
  | cons state states ih =>
    have hshift : start + 1 + states.length = start + (state :: states).length := by
      rw [length_cons]
      omega
    rw [cons_append, indexes, indexes, ih, hshift]
    by_cases hword : state = word
    · rw [if_pos hword, if_pos hword, cons_append]
    · rw [if_neg hword, if_neg hword]

theorem present_of_installed (k m : ℕ) : indexes "present" 0 (installed k m) = range k := by
  have hne : "missing" ≠ "present" := by decide
  rw [installed, indexes_append, indexes_replicate, indexes_replicate_of_ne hne, append_nil,
    ← range_eq_range']

theorem missing_of_installed (k m : ℕ) : indexes "missing" 0 (installed k m) = range' k m := by
  have hne : "present" ≠ "missing" := by decide
  rw [installed, indexes_append, indexes_replicate_of_ne hne, length_replicate,
    indexes_replicate, nil_append, Nat.zero_add]

theorem le_of_mem_indexes {i : ℕ} (h : i ∈ indexes word start states) : start ≤ i := by
  induction states generalizing start with
  | nil => exact absurd h not_mem_nil
  | cons state states ih =>
    rw [indexes] at h
    split at h
    · rcases mem_cons.mp h with rfl | h
      · exact Nat.le_refl _
      · have hle := ih h
        omega
    · have hle := ih h
      omega

/-- Known states whose installed steps are numbered without a gap are a prefix. -/
theorem installed_of_indexes {k : ℕ}
    (hknown : ∀ state ∈ states, state = "present" ∨ state = "missing")
    (h : indexes "present" start states = range' start k) : ∃ m, states = installed k m := by
  induction states generalizing start k with
  | nil =>
    cases k with
    | zero => exact ⟨0, rfl⟩
    | succ k => cases h
  | cons state states ih =>
    have hrest : ∀ other ∈ states, other = "present" ∨ other = "missing" :=
      fun other hother => hknown other (mem_cons_of_mem _ hother)
    rw [indexes] at h
    by_cases hpresent : state = "present"
    · rw [if_pos hpresent] at h
      cases k with
      | zero => cases h
      | succ k =>
        rw [range'_succ] at h
        obtain ⟨m, hm⟩ := ih hrest (List.cons.inj h).2
        refine ⟨m, ?_⟩
        rw [hpresent, hm, installed, installed, replicate_succ, cons_append]
    · rw [if_neg hpresent] at h
      have hmissing := (hknown state mem_cons_self).resolve_left hpresent
      cases k with
      | zero =>
        obtain ⟨m, hm⟩ := @ih (start + 1) 0 hrest h
        refine ⟨m + 1, ?_⟩
        rw [hmissing, hm, installed, installed, replicate_zero, nil_append,
          nil_append, replicate_succ]
      | succ k =>
        -- the first index cannot be that of a missing step
        have hmem : start ∈ indexes "present" (start + 1) states := by
          rw [h, range'_succ]
          exact mem_cons_self
        have hle := le_of_mem_indexes hmem
        omega

/-! ## Reconciliation -/

/-- The policy of a prefix. -/
def installed_policy (k m : ℕ) : PolicyState :=
  if k = 0 then .verified_primary else if m = 0 then .verified_recovery else .partially

theorem reconcile_installed (k m : ℕ) : reconcile_bundle (installed k m) =
      { policy := installed_policy k m, present := range k, missing := range' k m } := by
  have hknown : ¬ ∃ state ∈ installed k m, state ≠ "present" ∧ state ≠ "missing" := by
    rintro ⟨state, hmem, hpresent, hmissing⟩
    rcases mem_append.mp hmem with h | h
    · exact hpresent (mem_replicate.mp h).2
    · exact hmissing (mem_replicate.mp h).2
  unfold reconcile_bundle installed_policy
  simp only [present_of_installed, missing_of_installed]
  rw [if_neg hknown, length_range, if_neg (not_not.mpr rfl)]
  by_cases hk : k = 0
  · rw [if_pos (range_eq_nil.mpr hk), if_pos hk]
  · rw [if_neg (mt range_eq_nil.mp hk), if_neg hk]
    by_cases hm : m = 0
    · rw [if_pos (range'_eq_nil_iff.mpr hm), if_pos hm]
    · rw [if_neg (mt range'_eq_nil_iff.mp hm), if_neg hm]

/-- Every bundle state that is no prefix is unknown. -/
theorem reconcile_cases (states : List String) :
    (∃ k m, states = installed k m) ∨ (reconcile_bundle states).policy = .unknown := by
  by_cases hknown : ∃ state ∈ states, state ≠ "present" ∧ state ≠ "missing"
  · refine Or.inr ?_
    unfold reconcile_bundle
    rw [if_pos hknown]
  by_cases hnumbered : indexes "present" 0 states = range (indexes "present" 0 states).length
  · refine Or.inl ⟨(indexes "present" 0 states).length, ?_⟩
    refine installed_of_indexes (fun state hmem => ?_) (hnumbered.trans range_eq_range')
    by_contra hneither
    exact hknown ⟨state, hmem, not_or.mp hneither⟩
  · refine Or.inr ?_
    unfold reconcile_bundle
    rw [if_neg hknown, if_pos hnumbered]

/-- What a recovery may be resumed from: a prefix with a step missing. -/
theorem resumable_cases (hunknown : (reconcile_bundle states).policy ≠ .unknown)
    (hrecovered : (reconcile_bundle states).policy ≠ .verified_recovery) (hsome : states ≠ []) :
    ∃ k m, states = installed k m ∧ 0 < m := by
  obtain ⟨k, m, hstates⟩ := (reconcile_cases states).resolve_right hunknown
  refine ⟨k, m, hstates, ?_⟩
  by_contra hm
  have hzero : m = 0 := Nat.eq_zero_of_not_pos hm
  rw [hstates, reconcile_installed, installed_policy, hzero] at hrecovered
  by_cases hk : k = 0
  · rw [hstates, hzero, hk] at hsome
    exact hsome rfl
  · rw [if_neg hk, if_pos rfl] at hrecovered
    exact hrecovered rfl

end MininetAi
