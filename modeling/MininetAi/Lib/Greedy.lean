/-
Greedy selection: go through a list and keep what conflicts with nothing kept so
far.

The kept elements are pairwise compatible and every dropped one conflicts with a
kept one before it. They are an initial part of the list exactly when the list
splits into a compatible part and elements that each conflict with that part;
otherwise something is kept behind something dropped.
-/
import Mathlib.Data.List.Nodup

set_option autoImplicit false

universe u

variable {α : Type u} (r : α → α → Bool)

namespace List

/-- Keep `x` unless something kept conflicts with it. -/
def greedy_step (kept : List α) (x : α) : List α :=
  if kept.any fun a => r a x then kept else kept ++ [x]

/-- What is kept of `l`. -/
def greedy (l : List α) : List α :=
  l.foldl (greedy_step r) []

variable {r}

theorem prefix_greedy_step (kept : List α) (x : α) : kept <+: greedy_step r kept x := by
  rw [greedy_step]
  split
  · exact prefix_refl _
  · exact prefix_append _ _

theorem prefix_foldl_greedy_step (kept l : List α) : kept <+: l.foldl (greedy_step r) kept := by
  induction l generalizing kept with
  | nil => exact prefix_refl _
  | cons x l ih => exact (prefix_greedy_step kept x).trans (ih _)

theorem greedy_append (l m : List α) : greedy r (l ++ m) = m.foldl (greedy_step r) (greedy r l) := by
  rw [greedy, greedy, foldl_append]

theorem foldl_greedy_step_sublist (kept l : List α) :
    l.foldl (greedy_step r) kept <+ kept ++ l := by
  induction l generalizing kept with
  | nil => simp
  | cons x l ih =>
    refine (ih _).trans ?_
    rw [greedy_step]
    split
    · exact (append_sublist_append_left kept).mpr (sublist_cons_self x l)
    · rw [append_assoc, singleton_append]

/-- What is kept stands in the list, in its order. -/
theorem greedy_sublist (l : List α) : greedy r l <+ l := by
  simpa [greedy] using foldl_greedy_step_sublist (r := r) [] l

variable {kept l : List α} {x : α}

theorem foldl_greedy_step_pairwise (l : List α) (h : kept.Pairwise fun a b => r a b = false) :
    (l.foldl (greedy_step r) kept).Pairwise fun a b => r a b = false := by
  induction l generalizing kept with
  | nil => exact h
  | cons x l ih =>
    refine ih ?_
    rw [greedy_step]
    split
    · exact h
    · rename_i hfree
      refine pairwise_append.mpr ⟨h, pairwise_singleton _ _, ?_⟩
      intro a ha b hb
      rw [mem_singleton.mp hb, Bool.eq_false_iff]
      exact fun hax => hfree (any_eq_true.mpr ⟨a, ha, hax⟩)

theorem greedy_pairwise (l : List α) : (greedy r l).Pairwise fun a b => r a b = false :=
  foldl_greedy_step_pairwise l Pairwise.nil

theorem kept_or_blocked_of_foldl (hx : x ∈ l) :
    x ∈ l.foldl (greedy_step r) kept ∨ ∃ a ∈ l.foldl (greedy_step r) kept, r a x = true := by
  induction l generalizing kept with
  | nil => cases hx
  | cons y l ih =>
    rcases mem_cons.mp hx with rfl | hx
    · have hlater := prefix_foldl_greedy_step (r := r) (greedy_step r kept x) l
      by_cases hblocked : kept.any fun a => r a x
      · obtain ⟨a, ha, hax⟩ := any_eq_true.mp hblocked
        exact Or.inr ⟨a, hlater.subset ((prefix_greedy_step kept x).subset ha), hax⟩
      · refine Or.inl (hlater.subset ?_)
        rw [greedy_step, if_neg hblocked]
        simp
    · exact ih hx

/-- What is dropped conflicts with something kept. -/
theorem kept_or_blocked (hx : x ∈ l) : x ∈ greedy r l ∨ ∃ a ∈ greedy r l, r a x = true :=
  kept_or_blocked_of_foldl hx

theorem foldl_greedy_step_free (h : (kept ++ l).Pairwise fun a b => r a b = false) :
    l.foldl (greedy_step r) kept = kept ++ l := by
  induction l generalizing kept with
  | nil => simp
  | cons x l ih =>
    have hfree : ¬ (kept.any fun a => r a x) = true := by
      intro hany
      obtain ⟨a, ha, hax⟩ := any_eq_true.mp hany
      rw [(pairwise_append.mp h).2.2 a ha x mem_cons_self] at hax
      cases hax
    rw [foldl_cons, greedy_step, if_neg hfree, ih (by rw [append_assoc]; exact h)]
    simp

/-- A list without conflicts is kept as it is. -/
theorem greedy_free (h : l.Pairwise fun a b => r a b = false) : greedy r l = l := by
  have hall : l.foldl (greedy_step r) [] = [] ++ l := foldl_greedy_step_free h
  exact hall

theorem foldl_greedy_step_blocked (h : ∀ x ∈ l, ∃ a ∈ kept, r a x = true) :
    l.foldl (greedy_step r) kept = kept := by
  induction l with
  | nil => rfl
  | cons x l ih =>
    have hblocked : (kept.any fun a => r a x) = true := any_eq_true.mpr (h x mem_cons_self)
    rw [foldl_cons, greedy_step, if_pos hblocked]
    exact ih fun y hy => h y (mem_cons_of_mem x hy)

/-- The list splits into a part without conflicts and elements that each conflict
with that part. -/
def ConflictsAreFinal (r : α → α → Bool) (l : List α) : Prop :=
  ∃ first rest, l = first ++ rest ∧ (first.Pairwise fun a b => r a b = false) ∧
    ∀ x ∈ rest, ∃ a ∈ first, r a x = true

theorem greedy_of_split {first rest : List α} (hfirst : first.Pairwise fun a b => r a b = false)
    (hrest : ∀ x ∈ rest, ∃ a ∈ first, r a x = true) : greedy r (first ++ rest) = first := by
  rw [greedy_append, greedy_free hfirst, foldl_greedy_step_blocked hrest]

/-- Nothing is kept behind something dropped exactly for such a list. -/
theorem greedy_prefix_iff (hnodup : l.Nodup) : greedy r l <+: l ↔ ConflictsAreFinal r l := by
  constructor
  · rintro ⟨rest, hrest⟩
    refine ⟨greedy r l, rest, hrest.symm, greedy_pairwise l, ?_⟩
    intro x hx
    have hxl : x ∈ l := by rw [← hrest]; exact mem_append.mpr (Or.inr hx)
    rcases kept_or_blocked (r := r) hxl with hkept | hblocked
    · -- `x` stands once in the list, behind the kept part
      rw [← hrest] at hnodup
      exact absurd rfl ((nodup_append.mp hnodup).2.2 x hkept x hx)
    · exact hblocked
  · rintro ⟨first, rest, rfl, hfirst, hblocked⟩
    rw [greedy_of_split hfirst hblocked]
    exact prefix_append _ _

end List
