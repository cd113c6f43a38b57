/-
Lists whose items carry consecutive numbers.

A numbered list has no gap and no repeat and is in the order of its numbers, so what the
numbers say about it (the largest one, the items above a bound, the order) is said by
positions. A page is what a cursor finds: the first items above a number.
-/
import Mathlib.Algebra.Order.Ring.Int
import Mathlib.Data.List.Sort

set_option autoImplicit false

namespace Numbered

variable {α : Type*} (number : α → ℤ)

/-- The items are numbered `k`, `k + 1`, and so on. -/
def From : ℤ → List α → Prop
  | _, [] => True
  | k, a :: l => number a = k ∧ From (k + 1) l

/-- The items above a number, the first `size` of them. -/
def page (l : List α) (cursor : ℤ) (size : ℕ) : List α := (l.filter fun a => cursor < number a).take size

variable {number} {k : ℤ} {l : List α}

variable {a : α}

theorem From.append (h : From number k l) (ha : number a = k + l.length) :
    From number k (l ++ [a]) := by
  induction l generalizing k with
  | nil =>
    rw [List.length_nil] at ha
    exact ⟨by omega, trivial⟩
  | cons b l ih =>
    rw [List.length_cons] at ha
    refine ⟨h.1, ih h.2 ?_⟩
    push_cast at ha
    omega

theorem From.bounds (h : From number k l) (ha : a ∈ l) : k ≤ number a ∧ number a < k + l.length := by
  induction l generalizing k with
  | nil => exact absurd ha List.not_mem_nil
  | cons b l ih =>
    rw [List.length_cons]
    push_cast
    rcases List.mem_cons.mp ha with rfl | hl
    · have hk := h.1
      omega
    · have hrest := ih h.2 hl
      omega

theorem From.pairwise (h : From number k l) : l.Pairwise fun a b => number a ≤ number b := by
  induction l generalizing k with
  | nil => exact List.Pairwise.nil
  | cons a l ih =>
    refine List.Pairwise.cons (fun b hb => ?_) (ih h.2)
    have hk := h.1
    have hrest := (From.bounds h.2 hb).1
    omega

theorem From.mono {m : ℤ} (h : From number k l) (hm : k = m) : From number m l := hm ▸ h

theorem From.take (h : From number k l) (n : ℕ) : From number k (l.take n) := by
  induction n generalizing k l with
  | zero => exact trivial
  | succ n ih =>
    cases l with
    | nil => exact trivial
    | cons a l => exact ⟨h.1, ih h.2⟩

theorem From.drop (h : From number k l) (n : ℕ) : From number (k + n) (l.drop n) := by
  induction n generalizing k l with
  | zero => exact h.mono (by omega)
  | succ n ih =>
    cases l with
    | nil => exact trivial
    | cons a l => exact (ih h.2).mono (by push_cast; omega)

theorem From.last (h : From number k l) (ha : l.getLast? = some a) : number a = k + l.length - 1 := by
  induction l generalizing k with
  | nil =>
    rw [List.getLast?_nil] at ha
    cases ha
  | cons b l ih =>
    rw [List.length_cons]
    push_cast
    by_cases hnil : l = []
    · rw [hnil, List.getLast?_singleton] at ha
      rw [← Option.some.inj ha, hnil, List.length_nil, h.1]
      push_cast
      omega
    · rw [List.getLast?_cons_of_ne_nil hnil] at ha
      have hrest := ih h.2 ha
      omega

/-- Items with the same numbers are numbered alike. -/
theorem From.of_map {β : Type*} {number' : β → ℤ} {l' : List β} (h : From number k l)
    (hmap : l'.map number' = l.map number) : From number' k l' := by
  induction l generalizing k l' with
  | nil =>
    rw [List.map_nil, List.map_eq_nil_iff] at hmap
    rw [hmap]
    exact trivial
  | cons a l ih =>
    obtain ⟨b, rest, rfl, hb, hrest⟩ := List.map_eq_cons_iff.mp hmap
    exact ⟨hb.trans h.1, ih h.2 hrest⟩

/-- The numbers, as they stand in the list. -/
theorem From.numbers (h : From number k l) : l.map number = (List.range l.length).map fun i : ℕ => k + i := by
  induction l generalizing k with
  | nil => rfl
  | cons a l ih =>
    rw [List.map_cons, List.length_cons, List.range_succ_eq_map, List.map_cons, List.map_map, ih h.2, h.1]
    congr 1
    · omega
    · refine List.map_congr_left fun i _ => ?_
      simp only [Function.comp_apply]
      push_cast
      omega

/-- The items above a number are those behind a position. -/
theorem From.above (h : From number k l) (n : ℕ) : (l.filter fun a => k + n ≤ number a) = l.drop n := by
  induction l generalizing k n with
  | nil => rw [List.filter_nil, List.drop_nil]
  | cons a l ih =>
    have hk := h.1
    cases n with
    | zero =>
      rw [List.drop_zero]
      refine List.filter_eq_self.mpr fun b hb => decide_eq_true ?_
      have hb' := (h.bounds hb).1
      push_cast
      omega
    | succ n =>
      have ha : ¬ k + ((n + 1 : ℕ) : ℤ) ≤ number a := by
        push_cast
        omega
      rw [List.filter_cons_of_neg (by rw [decide_eq_true_eq]; exact ha), List.drop_succ_cons, ← ih h.2 n]
      refine List.filter_congr fun b _ => decide_eq_decide.mpr ?_
      push_cast
      omega

/-- A page is what stands behind the cursor. -/
theorem From.page_eq (h : From number 1 l) (n size : ℕ) : page number l n size = (l.drop n).take size := by
  unfold page
  rw [← h.above n]
  congr 1
  refine List.filter_congr fun a _ => decide_eq_decide.mpr ?_
  omega

/-- The largest number. -/
theorem From.maximum (h : From number 1 l) : (l.map number).max?.getD 0 = l.length := by
  by_cases hnil : l = []
  · rw [hnil]
    rfl
  have hlast : (l.map number).max? = some (l.length : ℤ) := by
    refine List.max?_eq_some_iff.mpr ⟨?_, fun b hb => ?_⟩
    · rw [h.numbers, List.mem_map]
      have hpos := List.length_pos_iff.mpr hnil
      refine ⟨l.length - 1, List.mem_range.mpr (by omega), ?_⟩
      omega
    · obtain ⟨a, ha, rfl⟩ := List.mem_map.mp hb
      have hbound := (h.bounds ha).2
      omega
  rw [hlast]
  rfl

end Numbered
