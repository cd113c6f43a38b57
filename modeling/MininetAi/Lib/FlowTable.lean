/-
Flow tables of a switch.

A rule has a key, its table, priority and match; adding a rule replaces the one with its key.
A removal deletes what it selects: the rules whose match is at least as specific as its own and
whose table and cookie agree with it. What an addition did is undone by a removal when the key
was free and nothing else is selected.
-/
import Mathlib.Data.Nat.Bitwise

set_option autoImplicit false

/-! ## Tables -/

section Table

variable {κ ν : Type*}

/-- The rules of a switch by their keys. -/
abbrev FlowTable (κ ν : Type*) := κ → Option ν

namespace FlowTable

/-- A rule takes the place of the one with its key. -/
def add [DecidableEq κ] (table : FlowTable κ ν) (key : κ) (rule : ν) : FlowTable κ ν := Function.update table key (some rule)

/-- What is selected goes. -/
def delete (table : FlowTable κ ν) (selected : κ → ν → Prop) [∀ key rule, Decidable (selected key rule)] :
    FlowTable κ ν :=
  fun key => (table key).filter fun rule => ¬ selected key rule

variable {table : FlowTable κ ν} {selected : κ → ν → Prop} {key : κ}

theorem delete_eq_self_iff [∀ key rule, Decidable (selected key rule)] :
    table.delete selected key = table key ↔ ∀ rule, table key = some rule → ¬ selected key rule := by
  unfold delete
  cases htable : table key with
  | none => exact iff_of_true rfl fun rule hrule => by cases hrule
  | some rule =>
    by_cases hselected : selected key rule
    · refine iff_of_false ?_ fun h => h rule rfl hselected
      rw [Option.filter_some, if_neg (by simpa using hselected)]
      exact nofun
    · refine iff_of_true ?_ fun other hother => Option.some.inj hother ▸ hselected
      rw [Option.filter_some, if_pos (by simpa using hselected)]

/-- A removal that selects an added rule undoes the addition exactly when the key was free and
nothing that was there is selected. -/
theorem delete_add_eq_iff [DecidableEq κ] [∀ key rule, Decidable (selected key rule)] {rule : ν}
    (h : selected key rule) : (table.add key rule).delete selected = table ↔
      table key = none ∧ ∀ other old, table other = some old → ¬ selected other old := by
  have hkey : (table.add key rule).delete selected key = none := by
    unfold add delete
    rw [Function.update_self, Option.filter_some, if_neg (by simpa using h)]
  have hother : ∀ other, other ≠ key → (table.add key rule).delete selected other = table.delete selected other := by
    intro other hne
    unfold add delete
    rw [Function.update_of_ne hne]
  constructor
  · intro hsame
    have hfree : table key = none := by rw [← hsame, hkey]
    refine ⟨hfree, fun other old hold => ?_⟩
    have hne : other ≠ key := by
      rintro rfl
      rw [hfree] at hold
      cases hold
    have hself := congrFun hsame other
    rw [hother other hne] at hself
    exact delete_eq_self_iff.mp hself old hold
  · rintro ⟨hfree, hnone⟩
    funext other
    by_cases hne : other = key
    · rw [hne, hkey, hfree]
    · rw [hother other hne]
      exact delete_eq_self_iff.mpr (hnone other)

end FlowTable

end Table

/-! ## Rules and selectors -/

section Selector

variable {M A : Type*} [Preorder M]

/-- What identifies a rule. -/
@[ext]
structure FlowKey (M : Type*) where
  table : ℕ
  priority : ℕ
  selection : M
  deriving DecidableEq

/-- What a rule is besides its key. -/
structure FlowRule (A : Type*) where
  cookie : ℕ
  actions : A
  deriving DecidableEq

/-- What a removal is given: no table is every table, and a cookie comes with its mask. -/
structure FlowSelector (M : Type*) where
  table : Option ℕ := none
  priority : ℕ := 32768
  cookie : Option (ℕ × ℕ) := none
  selection : M

/-- The table and the cookie agree with those that are given. -/
def FlowSelector.Agrees (selector : FlowSelector M) (key : FlowKey M) (rule : FlowRule A) : Prop :=
  (∀ table ∈ selector.table, key.table = table) ∧
    ∀ cookie ∈ selector.cookie, Nat.land rule.cookie cookie.2 = Nat.land cookie.1 cookie.2

/-- A removal deletes the rule: those that are at least as specific, or when it is strict the one
with its match and priority. -/
def FlowSelector.Selects (selector : FlowSelector M) (strict : Bool) (key : FlowKey M) (rule : FlowRule A) : Prop :=
  selector.Agrees key rule ∧ key.selection ≤ selector.selection ∧
    (strict = true → selector.selection ≤ key.selection ∧ key.priority = selector.priority)

instance [DecidableLE M] (selector : FlowSelector M) (strict : Bool) (key : FlowKey M) (rule : FlowRule A) :
    Decidable (selector.Selects strict key rule) := by
  unfold FlowSelector.Selects FlowSelector.Agrees
  infer_instance

end Selector
