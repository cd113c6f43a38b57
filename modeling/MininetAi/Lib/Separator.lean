/-
Names joined by a separator.

A name that does not contain the last character of the separator can be read back from
the end of a joined text: the separator before it is the last one. Nothing can be said
of the part before it, which may contain the separator itself.
-/
import Mathlib.Data.List.Infix

set_option autoImplicit false

universe u

namespace List

variable {α : Type u}

/-- The part after the last separator, and with it the part before, can be read back. -/
theorem append_separator_inj {c : α} {s l l' m m' : List α} (hm : c ∉ m) (hm' : c ∉ m') :
    l ++ (s ++ c :: m) = l' ++ (s ++ c :: m') ↔ l = l' ∧ m = m' := by
  constructor
  · intro h
    have hreverse : m.reverse ++ c :: (l ++ s).reverse = m'.reverse ++ c :: (l' ++ s).reverse := by
      have hboth := congrArg List.reverse h
      simpa only [reverse_append, reverse_cons, append_assoc, cons_append, nil_append] using hboth
    -- the last separator is the first one of the reversed text
    have hsplit : m.reverse = m'.reverse ∧ (l ++ s).reverse = (l' ++ s).reverse := by
      rcases append_eq_append_iff.mp hreverse with ⟨x, hx, hrest⟩ | ⟨x, hx, hrest⟩
      · cases x with
        | nil =>
          rw [append_nil] at hx
          exact ⟨hx.symm, (cons.inj hrest).2⟩
        | cons y x =>
          obtain ⟨rfl, -⟩ := cons.inj hrest
          have hmem : c ∈ m'.reverse := by
            rw [hx]
            simp
          exact absurd (mem_reverse.mp hmem) hm'
      · cases x with
        | nil =>
          rw [append_nil] at hx
          exact ⟨hx, (cons.inj hrest).2.symm⟩
        | cons y x =>
          obtain ⟨rfl, -⟩ := cons.inj hrest
          have hmem : c ∈ m.reverse := by
            rw [hx]
            simp
          exact absurd (mem_reverse.mp hmem) hm
    exact ⟨append_cancel_right (reverse_injective hsplit.2), reverse_injective hsplit.1⟩
  · rintro ⟨rfl, rfl⟩
    rfl

/-- With a separator that starts and ends with the same character: a joined text starts
with a name and the separator after it only if the name is its own first part, or if that
part goes on at least to the last character of the separator. -/
theorem separator_prefix_iff {c : α} {sep l l' m : List α} (hsep : c ∉ sep) (hm : c ∉ m) :
    l ++ (c :: (sep ++ [c])) <+: l' ++ (c :: (sep ++ c :: m)) ↔
      l = l' ∨ l ++ (c :: (sep ++ [c])) <+: l' ++ [c] := by
  have hwhole : l' ++ (c :: (sep ++ c :: m)) = l' ++ [c] ++ (sep ++ c :: m) := by
    rw [append_assoc, singleton_append]
  constructor
  · intro h
    have hfirst : l' ++ [c] <+: l' ++ (c :: (sep ++ c :: m)) := ⟨_, hwhole.symm⟩
    rcases prefix_or_prefix_of_prefix h hfirst with hshort | ⟨x, hx⟩
    · exact Or.inr hshort
    · rcases eq_nil_or_concat x with rfl | ⟨x, d, rfl⟩
      · rw [append_nil] at hx
        exact Or.inr ⟨[], by rw [append_nil, hx]⟩
      · -- the prefix ends inside the name or with the separator in front of it
        rw [concat_eq_append] at hx
        have hends : l' ++ [c] ++ x ++ [d] = l ++ (c :: sep) ++ [c] := by
          rw [append_assoc, hx, append_assoc, cons_append]
        obtain ⟨hbefore, hlast⟩ := append_inj' hends rfl
        obtain rfl : d = c := (cons.inj hlast).1
        obtain ⟨t, ht⟩ := h
        rw [← hx, hwhole, append_assoc, append_cancel_left_eq, append_assoc, singleton_append] at ht
        obtain ⟨rfl, -, -⟩ := (append_cons_inj_of_notMem hsep hm).mp ht.symm
        rw [append_assoc, singleton_append] at hbefore
        exact Or.inl (append_cancel_right hbefore).symm
  · rintro (rfl | hshort)
    · exact ⟨m, by simp⟩
    · exact hshort.trans ⟨_, hwhole.symm⟩

end List
