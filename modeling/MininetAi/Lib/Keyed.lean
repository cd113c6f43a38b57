/-
Lists whose items have distinct keys.

Such a list is a dictionary in some order: what is looked up in it by a key, and the list
sorted by its keys, do not depend on the order. `first_outside` is the search of an
allocator for the first candidate that is not taken yet.
-/
import Mathlib.Data.List.Perm.Basic
import Mathlib.Data.List.Sort

set_option autoImplicit false

namespace Keyed

variable {α κ : Type*} (key : α → κ)

/-- The item of a key. -/
def find [DecidableEq κ] (l : List α) (k : κ) : Option α := l.find? fun a => key a = k

/-- The items in the order of their keys. -/
def sort [LinearOrder κ] (l : List α) : List α := l.insertionSort fun a b => key a ≤ key b

variable {key} {l l' : List α}

variable {k : κ} {a : α}

theorem find_some [DecidableEq κ] (h : find key l k = some a) : a ∈ l ∧ key a = k := by
  have hkey := List.find?_some h
  exact ⟨List.mem_of_find?_eq_some h, of_decide_eq_true hkey⟩

theorem find_none_iff [DecidableEq κ] : find key l k = none ↔ k ∉ l.map key := by
  unfold find
  rw [List.find?_eq_none, List.mem_map]
  constructor
  · rintro h ⟨a, ha, hk⟩
    exact h a ha (decide_eq_true hk)
  · exact fun h a ha hk => h ⟨a, ha, of_decide_eq_true hk⟩

/-- Items with one key are one item. -/
theorem eq_of_key (hl : (l.map key).Nodup) {b : α} (ha : a ∈ l) (hb : b ∈ l) (h : key a = key b) :
    a = b :=
  List.inj_on_of_nodup_map hl ha hb h

theorem find_eq_some_iff [DecidableEq κ] (hl : (l.map key).Nodup) :
    find key l k = some a ↔ a ∈ l ∧ key a = k := by
  refine ⟨find_some, fun ⟨ha, hk⟩ => ?_⟩
  cases hfind : find key l k with
  | none =>
    have hnot := find_none_iff.mp hfind
    rw [← hk] at hnot
    exact absurd (List.mem_map_of_mem ha) hnot
  | some b =>
    obtain ⟨hb, hkb⟩ := find_some hfind
    rw [eq_of_key hl hb ha (hkb.trans hk.symm)]

/-- The order does not matter to a lookup. -/
theorem find_perm [DecidableEq κ] (h : l.Perm l') (hl : (l.map key).Nodup) (k : κ) :
    find key l k = find key l' k := by
  have hl' : (l'.map key).Nodup := (h.map key).nodup_iff.mp hl
  refine Option.ext fun a => ?_
  rw [find_eq_some_iff hl, find_eq_some_iff hl', h.mem_iff]

theorem perm_sort [LinearOrder κ] (l : List α) : (sort key l).Perm l := List.perm_insertionSort _ l

theorem pairwise_sort [LinearOrder κ] (l : List α) : (sort key l).Pairwise fun a b => key a ≤ key b := by
  have : Std.Total fun a b : α => key a ≤ key b := ⟨fun a b => le_total (key a) (key b)⟩
  have : IsTrans α fun a b : α => key a ≤ key b := ⟨fun a b c => le_trans⟩
  exact List.pairwise_insertionSort _ l

/-- The order does not matter to the sorted list. -/
theorem sort_perm [LinearOrder κ] (h : l.Perm l') (hl : (l.map key).Nodup) : sort key l = sort key l' := by
  have hperm : (sort key l).Perm (sort key l') := (perm_sort l).trans (h.trans (perm_sort l').symm)
  refine hperm.eq_of_pairwise (fun a b ha hb hab hba => ?_) (pairwise_sort l) (pairwise_sort l')
  have hmem : a ∈ l := (List.mem_insertionSort _).mp ha
  have hmem' : b ∈ l := h.mem_iff.mpr ((List.mem_insertionSort _).mp hb)
  exact eq_of_key hl hmem hmem' (le_antisymm hab hba)

end Keyed

/-! ## Searching for a free candidate -/

section FirstOutside

variable {α : Type*}

/-- The first of the candidates `a`, `next a`, ... that is not taken, if there is one among
the first `fuel`. -/
def first_outside (taken : α → Bool) (next : α → α) : ℕ → α → α
  | 0, a => a
  | fuel + 1, a => if taken a = true then first_outside taken next fuel (next a) else a

variable {taken : α → Bool} {next : α → α}

/-- A search that ends at what is taken has met nothing else. -/
theorem taken_of_first_outside {fuel : ℕ} {a : α} (h : taken (first_outside taken next fuel a) = true) :
    ∀ i, i ≤ fuel → taken (next^[i] a) = true := by
  induction fuel generalizing a with
  | zero =>
    intro i hi
    rw [Nat.le_zero.mp hi]
    exact h
  | succ fuel ih =>
    intro i hi
    by_cases ha : taken a = true
    · rw [first_outside, if_pos ha] at h
      cases i with
      | zero => exact ha
      | succ i =>
        rw [Function.iterate_succ_apply]
        exact ih h i (Nat.le_of_succ_le_succ hi)
    · rw [first_outside, if_neg ha] at h
      exact absurd h ha

/-- Distinct candidates run out of a list that is no longer than the fuel. -/
theorem first_outside_free {used : List α} {fuel : ℕ} {a : α}
    (hused : ∀ b, taken b = true → b ∈ used) (hfuel : used.length ≤ fuel)
    (hdistinct : ∀ i j, i ≤ fuel → j ≤ fuel → next^[i] a = next^[j] a → i = j) :
    taken (first_outside taken next fuel a) = false := by
  by_contra hends
  have htaken := taken_of_first_outside ((Bool.not_eq_false _).mp hends)
  have hnodup : ((List.range (fuel + 1)).map fun i => next^[i] a).Nodup := by
    refine List.Nodup.map_on (fun i hi j hj => ?_) List.nodup_range
    rw [List.mem_range] at hi hj
    exact hdistinct i j (by omega) (by omega)
  have hsubset : ((List.range (fuel + 1)).map fun i => next^[i] a) ⊆ used := by
    intro b hb
    obtain ⟨i, hi, rfl⟩ := List.mem_map.mp hb
    rw [List.mem_range] at hi
    exact hused _ (htaken i (by omega))
  have hlength := (List.subperm_of_subset hnodup hsubset).length_le
  rw [List.length_map, List.length_range] at hlength
  omega

/-- The search returns one of the candidates, and everything before it is taken. -/
theorem first_outside_spec (fuel : ℕ) (a : α) :
    ∃ i ≤ fuel, first_outside taken next fuel a = next^[i] a ∧ ∀ j < i, taken (next^[j] a) = true := by
  induction fuel generalizing a with
  | zero => exact ⟨0, le_rfl, rfl, fun j hj => absurd hj (Nat.not_lt_zero j)⟩
  | succ fuel ih =>
    by_cases ha : taken a = true
    · obtain ⟨i, hi, hfound, hbefore⟩ := ih (next a)
      refine ⟨i + 1, Nat.succ_le_succ hi, ?_, fun j hj => ?_⟩
      · rw [first_outside, if_pos ha, hfound, Function.iterate_succ_apply]
      · cases j with
        | zero => exact ha
        | succ j =>
          rw [Function.iterate_succ_apply]
          exact hbefore j (Nat.lt_of_succ_lt_succ hj)
    · refine ⟨0, Nat.zero_le _, ?_, fun j hj => absurd hj (Nat.not_lt_zero j)⟩
      rw [first_outside, if_neg ha]
      rfl

theorem succ_iterate (i a : ℕ) : Nat.succ^[i] a = a + i := by
  induction i with
  | zero => rfl
  | succ i ih => rw [Function.iterate_succ_apply', ih, Nat.add_succ]

/-- Counting up never comes back. -/
theorem succ_iterate_inj {i j a : ℕ} (h : Nat.succ^[i] a = Nat.succ^[j] a) : i = j := by
  rw [succ_iterate, succ_iterate] at h
  omega

/-- Counting up from `a` the search meets everything between `a` and what it returns. -/
theorem first_outside_succ_spec {p : ℕ → Bool} (fuel a : ℕ) :
    a ≤ first_outside p Nat.succ fuel a ∧ ∀ n, a ≤ n → n < first_outside p Nat.succ fuel a → p n = true := by
  obtain ⟨i, -, hfound, hbefore⟩ := @first_outside_spec ℕ p Nat.succ fuel a
  rw [hfound, succ_iterate]
  refine ⟨Nat.le_add_right a i, fun n hle hlt => ?_⟩
  have htaken := hbefore (n - a) (by omega)
  rwa [succ_iterate, Nat.add_sub_cancel' hle] at htaken

end FirstOutside
