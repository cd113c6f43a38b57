/-
An outbox of several senders: entries are put at its end and each sender takes out its own,
the oldest first.

Another sender may be behind, so what is taken out need not come in the order in which it
was put in. It does, for the entries about one subject, as long as nobody overtakes: the
entries about it that were taken out, followed by those that are left, stay as they were.
-/
import Mathlib.Data.List.TakeWhile

set_option autoImplicit false

universe u v w

namespace Outbox

variable {κ : Type u} {α : Type v} [DecidableEq κ] {l rest : List (κ × α)} {a : α} {i : κ}

/-- The oldest entry of a sender, and what is left without it. -/
def first_of (i : κ) : List (κ × α) → Option (α × List (κ × α))
  | [] => none
  | entry :: l => if entry.1 = i then some (entry.2, l)
    else (first_of i l).map fun found => (found.1, entry :: found.2)

/-- The entries before the oldest one of a sender. -/
def ahead_of (i : κ) (l : List (κ × α)) : List (κ × α) := l.takeWhile fun entry => entry.1 ≠ i

theorem first_of_split (h : first_of i l = some (a, rest)) :
    ∃ after, l = ahead_of i l ++ (i, a) :: after ∧ rest = ahead_of i l ++ after := by
  induction l generalizing rest with
  | nil => cases h
  | cons entry l ih =>
    rw [first_of] at h
    by_cases hmine : entry.1 = i
    · rw [if_pos hmine] at h
      obtain ⟨rfl, rfl⟩ := Prod.mk.inj (Option.some.inj h)
      have hnone : ahead_of i (entry :: l) = [] :=
        List.takeWhile_cons_of_neg fun hother => (of_decide_eq_true hother) hmine
      rw [hnone, ← hmine]
      exact ⟨l, rfl, rfl⟩
    · rw [if_neg hmine] at h
      obtain ⟨⟨b, later⟩, hfound, heq⟩ := Option.map_eq_some_iff.mp h
      obtain ⟨rfl, rfl⟩ := Prod.mk.inj heq
      obtain ⟨after, hl, hlater⟩ := ih hfound
      have hahead : ahead_of i (entry :: l) = entry :: ahead_of i l :=
        List.takeWhile_cons_of_pos (decide_eq_true hmine)
      have hcons : entry :: later = entry :: ahead_of i l ++ after := congrArg (entry :: ·) hlater
      refine ⟨after, ?_, ?_⟩
      · rw [hahead, List.cons_append, ← hl]
      · rw [hahead]
        exact hcons

theorem first_of_none {l : List (κ × α)} (h : first_of i l = none) : ∀ entry ∈ l, entry.1 ≠ i := by
  induction l with
  | nil => exact fun entry hentry => absurd hentry List.not_mem_nil
  | cons entry l ih =>
    rw [first_of] at h
    by_cases hmine : entry.1 = i
    · rw [if_pos hmine] at h
      cases h
    · rw [if_neg hmine, Option.map_eq_none_iff] at h
      intro other hother
      rcases List.mem_cons.mp hother with rfl | hother
      · exact hmine
      · exact ih h other hother

/-- What is left are other entries. -/
theorem first_of_subset (h : first_of i l = some (a, rest)) : rest ⊆ l := by
  obtain ⟨after, hl, hrest⟩ := first_of_split h
  intro entry hentry
  rw [hrest] at hentry
  rw [hl]
  rcases List.mem_append.mp hentry with hahead | hafter
  · exact List.mem_append_left _ hahead
  · exact List.mem_append_right _ (List.mem_cons_of_mem _ hafter)

/-- The entries about one subject, in order. -/
def about {ι : Type w} [DecidableEq ι] (subject : α → ι) (x : ι) (l : List α) : List α :=
  l.filter fun a => subject a = x

variable {ι : Type w} [DecidableEq ι] {subject : α → ι}

theorem about_append (x : ι) (l l' : List α) : about subject x (l ++ l') = about subject x l ++ about subject x l' :=
  List.filter_append ..

theorem about_singleton_self {x : ι} (h : subject a = x) : about subject x [a] = [a] :=
  List.filter_cons_of_pos (decide_eq_true h)

theorem about_singleton_of_ne {x : ι} (h : subject a ≠ x) : about subject x [a] = [] :=
  List.filter_cons_of_neg fun hsame => h (of_decide_eq_true hsame)

/-- Nobody overtakes: taking an entry out keeps the order of the entries about each subject. -/
theorem about_first_of (h : first_of i l = some (a, rest))
    (holdest : ∀ older ∈ ahead_of i l, subject older.2 ≠ subject a) (x : ι) :
    about subject x (a :: rest.map Prod.snd) = about subject x (l.map Prod.snd) := by
  obtain ⟨after, hl, hrest⟩ := first_of_split h
  rw [hrest, hl, List.map_append, List.map_append, List.map_cons, ← List.singleton_append, about_append, about_append,
    about_append]
  have hsplit : about subject x (a :: after.map Prod.snd) = about subject x [a] ++ about subject x (after.map Prod.snd) :=
    about_append x [a] (after.map Prod.snd)
  rw [← hl, hsplit]
  by_cases hx : subject a = x
  · -- nothing older is about this subject
    have hnone : about subject x ((ahead_of i l).map Prod.snd) = [] := by
      refine List.filter_eq_nil_iff.mpr fun other hother hsame => ?_
      obtain ⟨entry, hentry, rfl⟩ := List.mem_map.mp hother
      exact holdest entry hentry ((of_decide_eq_true hsame).trans hx.symm)
    rw [hnone, List.nil_append, List.nil_append]
  · rw [about_singleton_of_ne hx, List.nil_append, List.nil_append]

end Outbox
