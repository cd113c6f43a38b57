/-
Relations without cycles.

A relation that some numbering goes up along has no cycle; one without a cycle has in
every nonempty list an element that nothing of the list comes before. A map that keeps
the relation carries cycles along, so it brings their absence back.
-/
import Mathlib.Data.List.Basic
import Mathlib.Logic.Relation

set_option autoImplicit false

universe u v

variable {α : Type u} {β : Type v}

/-- No chain of related elements comes back to where it started. -/
def Acyclic (r : α → α → Prop) : Prop :=
  ∀ a, ¬ Relation.TransGen r a a

namespace Acyclic

variable {r : α → α → Prop}

theorem of_numbering (number : α → ℕ) (h : ∀ a b, r a b → number a < number b) : Acyclic r := by
  have hup : ∀ a b, Relation.TransGen r a b → number a < number b := by
    intro a b hab
    induction hab with
    | single hr => exact h _ _ hr
    | tail _ hr ih => exact Nat.lt_trans ih (h _ _ hr)
  exact fun a ha => Nat.lt_irrefl _ (hup a a ha)

/-- What has no cycle downstream has none upstream. -/
theorem of_map {s : β → β → Prop} (f : α → β) (h : ∀ a b, r a b → s (f a) (f b)) (hs : Acyclic s) :
    Acyclic r :=
  fun a ha => hs (f a) (ha.lift f h)

/-- The first element of a nonempty list may be chosen so that nothing of the list comes
before it. The induction is on the list: either its head comes before the element found
in the tail, or that element stays. -/
theorem exists_first (h : Acyclic r) {l : List α} (hl : l ≠ []) :
    ∃ a ∈ l, ∀ b ∈ l, ¬ Relation.TransGen r b a := by
  induction l with
  | nil => exact absurd rfl hl
  | cons a l ih =>
    by_cases htail : l = []
    · subst htail
      refine ⟨a, List.mem_cons_self, fun b hb => ?_⟩
      rw [List.mem_singleton.mp hb]
      exact h a
    · obtain ⟨m, hm, hfirst⟩ := ih htail
      by_cases ham : Relation.TransGen r a m
      · refine ⟨a, List.mem_cons_self, fun b hb hba => ?_⟩
        rcases List.mem_cons.mp hb with rfl | hb
        · exact h _ hba
        · exact hfirst b hb (hba.trans ham)
      · refine ⟨m, List.mem_cons_of_mem _ hm, fun b hb hbm => ?_⟩
        rcases List.mem_cons.mp hb with rfl | hb
        · exact ham hbm
        · exact hfirst b hb hbm

end Acyclic
