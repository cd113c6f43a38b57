/-
Computations that return a result or an error.

A sequence of computations returns when each of them does; which error it stops with
is that of the first one that stops. These rules take such a sequence apart without
unfolding it.
-/
import Mathlib.Data.List.Basic

set_option autoImplicit false

universe u v

namespace Except

variable {ε : Type u} {α β : Type v} {x : Except ε α} {f : α → Except ε β} {failure : β → ε}
  {seen l : List β} {e : ε} {u : Unit}

/-- A sequence returns when its first part returns and so does the rest with it. -/
theorem bind_ok_iff {b : β} : x >>= f = .ok b ↔ ∃ a, x = .ok a ∧ f a = .ok b := by
  cases x with
  | error e =>
    constructor
    · intro h
      cases h
    · rintro ⟨a, h, -⟩
      cases h
  | ok a =>
    constructor
    · exact fun h => ⟨a, rfl, h⟩
    · rintro ⟨_, h, hf⟩
      cases h
      exact hf

/-- A sequence stops with what its first part stops with, or the rest after it. -/
theorem bind_error_iff : x >>= f = .error e ↔ x = .error e ∨ ∃ a, x = .ok a ∧ f a = .error e := by
  cases x with
  | error e' =>
    constructor
    · intro h
      cases h
      exact Or.inl rfl
    · rintro (h | ⟨a, h, -⟩)
      · cases h
        rfl
      · cases h
  | ok a =>
    constructor
    · exact fun h => Or.inr ⟨a, rfl, h⟩
    · rintro (h | ⟨_, h, hf⟩)
      · cases h
      · cases h
        exact hf

/-- Another error is an error still. -/
theorem mapError_ok_iff {ε' : Type u} {f : ε → ε'} {a : α} : x.mapError f = .ok a ↔ x = .ok a := by
  cases x with
  | error e =>
    constructor
    · intro h
      cases h
    · intro h
      cases h
  | ok b =>
    constructor
    · exact fun h => congrArg Except.ok (Except.ok.inj h)
    · exact fun h => congrArg Except.ok (Except.ok.inj h)

/-- What is made of a result needs a result. -/
theorem map_ok_iff {f : α → β} {b : β} : x.map f = .ok b ↔ ∃ a, x = .ok a ∧ f a = b := by
  cases x with
  | error e =>
    constructor
    · intro h
      cases h
    · rintro ⟨a, h, -⟩
      cases h
  | ok a =>
    constructor
    · exact fun h => ⟨a, rfl, Except.ok.inj h⟩
    · rintro ⟨_, h, rfl⟩
      cases h
      rfl

theorem map_error_iff {f : α → β} : x.map f = .error e ↔ x = .error e := by
  cases x with
  | error e' =>
    constructor
    · exact fun h => congrArg Except.error (Except.error.inj h)
    · exact fun h => congrArg Except.error (Except.error.inj h)
  | ok a =>
    constructor
    · intro h
      cases h
    · intro h
      cases h

theorem toOption_some_iff {a : α} : x.toOption = some a ↔ x = .ok a := by
  cases x with
  | error e =>
    constructor
    · intro h
      cases h
    · intro h
      cases h
  | ok b =>
    constructor
    · intro h
      cases h
      rfl
    · intro h
      cases h
      rfl

/-- Stops when the condition holds. -/
def refuse_if (p : Prop) [Decidable p] (e : ε) : Except ε Unit :=
  if p then .error e else .ok ()

theorem refuse_if_ok_iff {p : Prop} [Decidable p] : refuse_if p e = .ok u ↔ ¬ p := by
  rw [refuse_if]
  by_cases hp : p
  · rw [if_pos hp]
    exact iff_of_false nofun fun h => h hp
  · rw [if_neg hp]
    exact iff_of_true rfl hp

theorem refuse_if_error {p : Prop} [Decidable p] {e e' : ε} (h : refuse_if p e = .error e') :
    e' = e := by
  rw [refuse_if] at h
  by_cases hp : p
  · rw [if_pos hp] at h
    cases h
    rfl
  · rw [if_neg hp] at h
    cases h

/-- Stops at the first element that has occurred before. -/
def refuse_repeats [DecidableEq β] (failure : β → ε) : List β → List β → Except ε Unit
  | _, [] => .ok ()
  | seen, a :: l =>
    if a ∈ seen then .error (failure a) else refuse_repeats failure (a :: seen) l

theorem refuse_repeats_ok [DecidableEq β]
    (h : refuse_repeats failure seen l = .ok ()) : l.Nodup ∧ ∀ a ∈ l, a ∉ seen := by
  induction l generalizing seen with
  | nil => exact ⟨List.nodup_nil, fun _ hmem => absurd hmem List.not_mem_nil⟩
  | cons a l ih =>
    rw [refuse_repeats] at h
    by_cases hseen : a ∈ seen
    · rw [if_pos hseen] at h
      cases h
    · rw [if_neg hseen] at h
      obtain ⟨hnodup, hunseen⟩ := ih h
      refine ⟨List.nodup_cons.mpr ⟨fun hmem => ?_, hnodup⟩, fun b hb => ?_⟩
      · exact hunseen a hmem List.mem_cons_self
      · rcases List.mem_cons.mp hb with rfl | hb
        · exact hseen
        · exact fun hin => hunseen b hb (List.mem_cons_of_mem _ hin)

/-- What is nowhere repeated passes. -/
theorem refuse_repeats_of_nodup [DecidableEq β]
    (h : l.Nodup) (hseen : ∀ a ∈ l, a ∉ seen) : refuse_repeats failure seen l = .ok () := by
  induction l generalizing seen with
  | nil => rfl
  | cons a l ih =>
    obtain ⟨hnot, hnodup⟩ := List.nodup_cons.mp h
    rw [refuse_repeats, if_neg (hseen a List.mem_cons_self)]
    refine ih hnodup fun b hb hmem => ?_
    rcases List.mem_cons.mp hmem with rfl | hmem
    · exact hnot hb
    · exact hseen b (List.mem_cons_of_mem _ hb) hmem

/-- What is checked of every element, in order. -/
def check_all {α : Type*} (check : α → Except ε Unit) : List α → Except ε Unit
  | [] => .ok ()
  | a :: l => do
      check a
      check_all check l

theorem check_all_ok_iff {α : Type*} {check : α → Except ε Unit} {l : List α} :
    check_all check l = .ok u ↔ ∀ a ∈ l, check a = .ok () := by
  induction l with
  | nil => exact iff_of_true rfl fun a ha => absurd ha List.not_mem_nil
  | cons a l ih =>
    rw [check_all, List.forall_mem_cons, ← ih, bind_ok_iff]
    constructor
    · rintro ⟨_, ha, hl⟩
      exact ⟨ha, hl⟩
    · exact fun h => ⟨(), h.1, h.2⟩

theorem refuse_repeats_iff [DecidableEq β] :
    refuse_repeats failure seen l = .ok u ↔ l.Nodup ∧ ∀ a ∈ l, a ∉ seen :=
  ⟨refuse_repeats_ok, fun h => refuse_repeats_of_nodup h.1 h.2⟩

/-! ## Two computations -/

section Follows

variable {α' β' : Type v} {R : α → α' → Prop} {S : β → β' → Prop} {y : Except ε α'}

/-- Whatever the first computation returns, the second returns something that it is related to. -/
def Follows (R : α → α' → Prop) (x : Except ε α) (y : Except ε α') : Prop :=
  ∀ a, x = .ok a → ∃ b, y = .ok b ∧ R a b

theorem Follows.ok {a : α} {b : α'} (h : R a b) : Follows R (.ok a : Except ε α) (.ok b) := by
  intro c hc
  rw [← Except.ok.inj hc]
  exact ⟨b, rfl, h⟩

theorem Follows.error : Follows R (.error e : Except ε α) y := by
  intro a ha
  cases ha

/-- Sequences follow one another when their parts do. -/
theorem Follows.bind {g : α' → Except ε β'}
    (h : Follows R x y) (hrest : ∀ a b, R a b → Follows S (f a) (g b)) : Follows S (x >>= f) (y >>= g) := by
  intro c hc
  obtain ⟨a, ha, hfa⟩ := bind_ok_iff.mp hc
  obtain ⟨b, hb, hab⟩ := h a ha
  obtain ⟨d, hd, hcd⟩ := hrest a b hab c hfa
  exact ⟨d, bind_ok_iff.mpr ⟨b, hb, hd⟩, hcd⟩

end Follows

end Except
