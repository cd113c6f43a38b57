/-
Tickets: numbers that are drawn from counters and handed in later.

A counter of key `k` gives consecutive numbers. Who draws some holds them, in
their order, until each is handed in or given up. `Tickets` says how the counters,
what is held and what was handed in fit together; the rules below are what a step
can do. The one that needs a reason is `hand_in`: the numbers of one key arrive in
increasing order when each is handed in while nobody else holds a smaller one.
-/
import Mathlib.Data.List.Range
import MininetAi.Lib.Log

set_option autoImplicit false

universe u v

variable {ι : Type u} {κ : Type v}

/-- A number of a counter. -/
structure Ticket (κ : Type v) where
  key : κ
  number : ℕ

namespace Ticket

/-- The order of the tickets of one counter. -/
def Before (a b : Ticket κ) : Prop := a.key = b.key → a.number < b.number

/-- The next `n` tickets of a counter. -/
def batch (key : κ) (first n : ℕ) : List (Ticket κ) :=
  (List.range' first n).map fun number => { key := key, number := number }

theorem mem_batch {key : κ} {first n : ℕ} {a : Ticket κ} :
    a ∈ batch key first n ↔ a.key = key ∧ first ≤ a.number ∧ a.number < first + n := by
  simp only [batch, List.mem_map, List.mem_range'_1]
  constructor
  · rintro ⟨number, hnumber, rfl⟩
    exact ⟨rfl, hnumber⟩
  · rintro ⟨hkey, hnumber⟩
    exact ⟨a.number, hnumber, by rw [← hkey]⟩

theorem batch_pairwise (key : κ) (first n : ℕ) : (batch key first n).Pairwise Before := by
  have hlt : (List.range' first n).Pairwise (· < ·) := List.pairwise_lt_range'
  refine List.pairwise_map.mpr (hlt.imp ?_)
  intro a b hab _
  exact hab

end Ticket

/-- Counters at `next`, tickets `held` by their drawers, tickets handed `done`. -/
structure Tickets (next : κ → ℕ) (held : ι → List (Ticket κ)) (done : List (Ticket κ)) :
    Prop where
  held_drawn : ∀ i, ∀ a ∈ held i, a.number < next a.key
  done_drawn : ∀ a ∈ done, a.number < next a.key
  held_sorted : ∀ i, (held i).Pairwise Ticket.Before
  apart : ∀ i j, i ≠ j → ∀ a ∈ held i, ∀ b ∈ held j, a.key = b.key → a.number ≠ b.number
  ahead : ∀ a ∈ done, ∀ i, ∀ b ∈ held i, Ticket.Before a b
  done_sorted : done.Pairwise Ticket.Before

namespace Tickets

variable {next : κ → ℕ} {held : ι → List (Ticket κ)} {done : List (Ticket κ)}

theorem empty (next : κ → ℕ) : Tickets next (fun _ : ι => []) [] where
  held_drawn i a ha := by cases ha
  done_drawn a ha := by cases ha
  held_sorted i := List.Pairwise.nil
  apart i j _ a ha := by cases ha
  ahead a ha := by cases ha
  done_sorted := List.Pairwise.nil

variable [DecidableEq ι]

/-- A drawer keeps some of its tickets, in their order. -/
theorem keep (h : Tickets next held done) (i : ι) {kept : List (Ticket κ)}
    (hkept : kept.Sublist (held i)) : Tickets next (Function.update held i kept) done := by
  have hsub : ∀ j, (Function.update held i kept j).Sublist (held j) := by
    intro j
    by_cases hj : j = i
    · subst hj
      rw [Function.update_self]
      exact hkept
    · rw [Function.update_of_ne hj]
  refine ⟨?_, h.done_drawn, ?_, ?_, ?_, h.done_sorted⟩
  · exact fun j a ha => h.held_drawn j a ((hsub j).subset ha)
  · exact fun j => (h.held_sorted j).sublist (hsub j)
  · exact fun j k hjk a ha b hb => h.apart j k hjk a ((hsub j).subset ha) b ((hsub k).subset hb)
  · exact fun a ha j b hb => h.ahead a ha j b ((hsub j).subset hb)

variable {i : ι}

/-- Somebody who holds nothing draws the next `n` tickets of a counter. -/
theorem draw [DecidableEq κ] (h : Tickets next held done) (hi : held i = []) (key : κ) (n : ℕ) :
    Tickets (Function.update next key (next key + n))
      (Function.update held i (Ticket.batch key (next key) n)) done := by
  have hgrow : ∀ k, next k ≤ Function.update next key (next key + n) k := by
    intro k
    by_cases hk : k = key
    · subst hk
      rw [Function.update_self]
      omega
    · rw [Function.update_of_ne hk]
  -- what is held is either old or drawn now
  have hheld : ∀ j, ∀ a ∈ Function.update held i (Ticket.batch key (next key) n) j,
      (j ≠ i ∧ a ∈ held j) ∨ (j = i ∧ a ∈ Ticket.batch key (next key) n) := by
    intro j a ha
    by_cases hj : j = i
    · subst hj
      rw [Function.update_self] at ha
      exact Or.inr ⟨rfl, ha⟩
    · rw [Function.update_of_ne hj] at ha
      exact Or.inl ⟨hj, ha⟩
  refine ⟨?_, ?_, ?_, ?_, ?_, h.done_sorted⟩
  · intro j a ha
    rcases hheld j a ha with ⟨-, hold⟩ | ⟨-, hnew⟩
    · exact lt_of_lt_of_le (h.held_drawn j a hold) (hgrow a.key)
    · obtain ⟨hkey, -, hlt⟩ := Ticket.mem_batch.mp hnew
      rw [hkey, Function.update_self]
      exact hlt
  · exact fun a ha => lt_of_lt_of_le (h.done_drawn a ha) (hgrow a.key)
  · intro j
    by_cases hj : j = i
    · subst hj
      rw [Function.update_self]
      exact Ticket.batch_pairwise key (next key) n
    · rw [Function.update_of_ne hj]
      exact h.held_sorted j
  · intro j k hjk a ha b hb hkey
    rcases hheld j a ha with ⟨-, ha'⟩ | ⟨hj, ha'⟩ <;> rcases hheld k b hb with ⟨-, hb'⟩ | ⟨hk, hb'⟩
    · exact h.apart j k hjk a ha' b hb' hkey
    · obtain ⟨hb_key, hb_le, -⟩ := Ticket.mem_batch.mp hb'
      have hlt := h.held_drawn j a ha'
      rw [hkey, hb_key] at hlt
      omega
    · obtain ⟨ha_key, ha_le, -⟩ := Ticket.mem_batch.mp ha'
      have hlt := h.held_drawn k b hb'
      rw [← hkey, ha_key] at hlt
      omega
    · exact absurd (hj.trans hk.symm) hjk
  · intro a ha j b hb hkey
    rcases hheld j b hb with ⟨-, hold⟩ | ⟨-, hnew⟩
    · exact h.ahead a ha j b hold hkey
    · obtain ⟨hb_key, hb_le, -⟩ := Ticket.mem_batch.mp hnew
      have hlt := h.done_drawn a ha
      rw [hkey, hb_key] at hlt
      omega

/-- The first ticket of a drawer is handed in while nobody else holds a smaller
one of its counter. -/
theorem hand_in (h : Tickets next held done) {a : Ticket κ} {rest : List (Ticket κ)}
    (hi : held i = a :: rest)
    (hturn : ∀ j, j ≠ i → ∀ b ∈ held j, b.key = a.key → a.number ≤ b.number) :
    Tickets next (Function.update held i rest) (done ++ [a]) := by
  have hmem : a ∈ held i := by
    rw [hi]
    exact List.mem_cons_self
  have hsub : rest.Sublist (held i) := by
    rw [hi]
    exact List.sublist_cons_self a rest
  have hkept := h.keep i hsub
  refine ⟨hkept.held_drawn, ?_, hkept.held_sorted, hkept.apart, ?_, ?_⟩
  · intro b hb
    rcases List.mem_append.mp hb with hold | hnew
    · exact h.done_drawn b hold
    · rw [List.mem_singleton.mp hnew]
      exact h.held_drawn i a hmem
  · intro b hb j c hc
    rcases List.mem_append.mp hb with hold | hnew
    · exact hkept.ahead b hold j c hc
    rw [List.mem_singleton.mp hnew]
    intro hkey
    by_cases hj : j = i
    · -- the rest of the own tickets is larger
      subst hj
      rw [Function.update_self] at hc
      have hsorted := h.held_sorted j
      rw [hi] at hsorted
      exact (List.pairwise_cons.mp hsorted).1 c hc hkey
    · rw [Function.update_of_ne hj] at hc
      have hle := hturn j hj c hc hkey.symm
      have hne := h.apart i j (Ne.symm hj) a hmem c hc hkey
      omega
  · refine List.pairwise_append_singleton h.done_sorted ?_
    exact fun b hb => h.ahead b hb i a hmem

end Tickets
