/-
Logs: lists that only grow at their end.

Two kinds of facts about the order of a log survive an append: nothing of one kind
stands behind something of another kind, and everything of one kind has its cause
somewhere before it.
-/
import Mathlib.Data.List.Nodup

set_option autoImplicit false

universe u

variable {α : Type u}

namespace List

/-- Everything that needs a cause has one before it. -/
def Preceded (need : α → Prop) (cause : α → α → Prop) (l : List α) : Prop :=
  ∀ before x after, l = before ++ x :: after → need x → ∃ y ∈ before, cause y x

theorem preceded_nil (need : α → Prop) (cause : α → α → Prop) : Preceded need cause [] := by
  intro before x after h
  simp at h

variable {l : List α} {x : α}

theorem Preceded.append {need : α → Prop} {cause : α → α → Prop} (h : Preceded need cause l)
    (hx : need x → ∃ y ∈ l, cause y x) : Preceded need cause (l ++ [x]) := by
  intro before y after heq hneed
  rcases eq_nil_or_concat after with rfl | ⟨after', last, rfl⟩
  · obtain ⟨rfl, hlast⟩ := append_inj' heq rfl
    obtain rfl : x = y := by simpa using hlast
    exact hx hneed
  · rw [concat_eq_append, ← cons_append, ← append_assoc] at heq
    obtain ⟨rfl, -⟩ := append_inj' heq rfl
    exact h before y after' rfl hneed

/-- The order relation of a log after an append. -/
theorem pairwise_append_singleton {R : α → α → Prop} (h : l.Pairwise R) (hx : ∀ y ∈ l, R y x) :
    (l ++ [x]).Pairwise R := by
  refine pairwise_append.mpr ⟨h, pairwise_singleton R x, ?_⟩
  intro y hy z hz
  rw [mem_singleton.mp hz]
  exact hx y hy

end List
