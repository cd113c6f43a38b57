/-
Sliding windows over a stream.

A window is a suffix of what has come so far, the longest one that is admissible.
Dropping entries from the front until the rest is admissible finds it, whatever the
condition is. A new entry can be pushed to the old window alone when what is
admissible with it was admissible without it: what was dropped before would not be
kept now.
-/
import Mathlib.Data.List.Infix

set_option autoImplicit false

universe u

variable {α : Type u}

/-- The longest suffix of `full` with the property `P`. -/
structure LongestSuffix (P : List α → Prop) (full window : List α) : Prop where
  suffix : window <:+ full
  admissible : P window
  longest : ∀ other, other <:+ full → P other → other.length ≤ window.length

namespace LongestSuffix

variable {P Q : List α → Prop} {full window window' : List α}

section

variable (h : LongestSuffix P full window)
include h

/-- Every admissible suffix is a suffix of the longest one. -/
theorem suffix_of {other : List α} (hother : other <:+ full)
    (hadmissible : P other) : other <:+ window :=
  List.suffix_of_suffix_length_le hother h.suffix (h.longest other hother hadmissible)

/-- Only the suffixes matter. -/
theorem congr (hiff : ∀ l, l <:+ full → (P l ↔ Q l)) :
    LongestSuffix Q full window where
  suffix := h.suffix
  admissible := (hiff window h.suffix).mp h.admissible
  longest other hother hadmissible := h.longest other hother ((hiff other hother).mpr hadmissible)

/-- The longest suffix with two properties is found in two steps, if the first one
passes to shorter suffixes. -/
theorem inner (hinner : LongestSuffix Q window window')
    (hclosed : ∀ l, l <:+ window → P l) : LongestSuffix (fun l => P l ∧ Q l) full window' where
  suffix := hinner.suffix.trans h.suffix
  admissible := ⟨hclosed window' hinner.suffix, hinner.admissible⟩
  longest other hother hboth := hinner.longest other (h.suffix_of hother hboth.1) hboth.2

/-- A new entry is pushed to the window alone. -/
theorem push {a : α} (hpush : LongestSuffix Q (window ++ [a]) window')
    (hbefore : ∀ l, l <:+ full → Q (l ++ [a]) → P l) : LongestSuffix Q (full ++ [a]) window' where
  suffix := by
    refine hpush.suffix.trans (List.suffix_concat_iff.mpr (.inr ⟨window, rfl, h.suffix⟩))
  admissible := hpush.admissible
  longest other hother hadmissible := by
    rcases List.suffix_concat_iff.mp hother with rfl | ⟨earlier, rfl, hearlier⟩
    · exact Nat.zero_le _
    · have hkept := h.suffix_of hearlier (hbefore earlier hearlier hadmissible)
      exact hpush.longest _ (List.suffix_concat_iff.mpr (.inr ⟨earlier, rfl, hkept⟩)) hadmissible

end

end LongestSuffix

/-! ## Dropping from the front -/

/-- Entries leave at the front while `old` holds of what is there. -/
def pop_while (old : List α → Bool) : List α → List α
  | [] => []
  | a :: l => if old (a :: l) then pop_while old l else a :: l

/-- What is left is the longest suffix of which `old` does not hold. -/
theorem pop_while_longest {old : List α → Bool} (hempty : old [] = false) :
    ∀ l : List α, LongestSuffix (fun l => old l = false) l (pop_while old l) := by
  intro l
  induction l with
  | nil =>
    refine ⟨List.suffix_rfl, hempty, fun other hother _ => ?_⟩
    exact hother.length_le
  | cons a l ih =>
    rw [pop_while]
    by_cases hold : old (a :: l) = true
    · rw [if_pos hold]
      refine ⟨ih.suffix.trans (List.suffix_cons a l), ih.admissible, fun other hother hnew => ?_⟩
      rcases List.suffix_cons_iff.mp hother with rfl | hlater
      · rw [hold] at hnew
        cases hnew
      · exact ih.longest other hlater hnew
    · rw [if_neg hold]
      exact ⟨List.suffix_rfl, Bool.not_eq_true _ ▸ hold, fun other hother _ => hother.length_le⟩
