/-
What a family of queues holds, and what the participants of a list hold.

A component with one queue a consumer keeps a single counter of everything that
waits, and its consumers take from the queues what they then hold themselves.
`contents ids q` is everything in the queues, as a multiset, so that moving an
element from one place to another is an equation without subtraction. The rules
say how it moves when one queue is replaced by another, which is all that pushing,
popping, overwriting and clearing do, and the same for a list of participants of
which one changes.
-/
import Mathlib.Algebra.BigOperators.Group.Finset.Piecewise
import Mathlib.Algebra.Order.BigOperators.Group.Finset
import Mathlib.Tactic.Abel

set_option autoImplicit false

universe u v w

variable {ι : Type u} {α : Type v} {β : Type w}

/-! ## Queues -/

/-- How many elements the queues of `ids` hold together. -/
def occupancy (ids : Finset ι) (q : ι → List α) : ℕ := ∑ i ∈ ids, (q i).length

/-- The elements the queues of `ids` hold. -/
def contents (ids : Finset ι) (q : ι → List α) : Multiset α := ∑ i ∈ ids, (q i : Multiset α)

theorem card_contents (ids : Finset ι) (q : ι → List α) :
    (contents ids q).card = occupancy ids q := by
  unfold contents occupancy
  rw [Multiset.card_sum]
  exact Finset.sum_congr rfl fun i _ => Multiset.coe_card (q i)

variable {ids : Finset ι} {q : ι → List α} {a : α} {l : List α} {i : ι}

/-- Nothing is held exactly when every queue is empty. -/
theorem occupancy_eq_zero_iff : occupancy ids q = 0 ↔ ∀ i ∈ ids, q i = [] := by
  unfold occupancy
  rw [Finset.sum_eq_zero_iff]
  simp only [List.length_eq_zero_iff]

theorem contents_eq_zero (h : ∀ i ∈ ids, q i = []) : contents ids q = 0 := by
  rw [← Multiset.card_eq_zero, card_contents, occupancy_eq_zero_iff]
  exact h

/-- What a queue holds is held. -/
theorem mem_contents (hi : i ∈ ids) (ha : a ∈ q i) : a ∈ contents ids q :=
  Multiset.mem_sum.mpr ⟨i, hi, ha⟩

variable [DecidableEq ι]

/-- Replacing one queue exchanges its elements. -/
theorem contents_update (hi : i ∈ ids) (q : ι → List α) (l : List α) :
    contents ids (Function.update q i l) + (q i : Multiset α) = contents ids q + (l : Multiset α) := by
  have hsum : ∀ p : ι → List α,
      contents ids p = (p i : Multiset α) + ∑ j ∈ ids.erase i, (p j : Multiset α) := fun p =>
    (Finset.add_sum_erase ids (fun j => (p j : Multiset α)) hi).symm
  have hrest : ∑ j ∈ ids.erase i, (Function.update q i l j : Multiset α) =
      ∑ j ∈ ids.erase i, (q j : Multiset α) :=
    Finset.sum_congr rfl fun j hj => by
      rw [Function.update_of_ne (Finset.ne_of_mem_erase hj)]
  rw [hsum (Function.update q i l), hsum q, hrest, Function.update_self]
  abel

theorem contents_push (hi : i ∈ ids) (q : ι → List α) (a : α) :
    contents ids (Function.update q i (q i ++ [a])) = contents ids q + {a} := by
  have h := contents_update hi q (q i ++ [a])
  rw [← Multiset.coe_add, Multiset.coe_singleton, ← add_assoc, add_right_comm] at h
  exact add_right_cancel h

theorem contents_pop (hi : i ∈ ids) (hq : q i = a :: l) :
    contents ids q = contents ids (Function.update q i l) + {a} := by
  have h := contents_update hi q l
  rw [hq, ← Multiset.cons_coe, ← Multiset.singleton_add, ← add_assoc] at h
  exact (add_right_cancel h).symm

/-- Overwriting an entry in place exchanges it. -/
theorem contents_set (hi : i ∈ ids) {k : ℕ} {old : α} (hk : (q i)[k]? = some old) (a : α) :
    contents ids (Function.update q i ((q i).set k a)) + {old} = contents ids q + {a} := by
  obtain ⟨hlt, hold⟩ := List.getElem?_eq_some_iff.mp hk
  have h := contents_update hi q ((q i).set k a)
  have hq : (q i : Multiset α) = ↑((q i).eraseIdx k) + {old} := by
    rw [add_comm, Multiset.singleton_add, Multiset.cons_coe, ← hold]
    exact Multiset.coe_eq_coe.mpr (List.getElem_cons_eraseIdx_perm hlt).symm
  have hset : ((q i).set k a : Multiset α) = ↑((q i).eraseIdx k) + {a} := by
    rw [add_comm, Multiset.singleton_add, Multiset.cons_coe]
    exact Multiset.coe_eq_coe.mpr (List.set_perm_cons_eraseIdx hlt a)
  rw [hset, hq] at h
  rw [← add_assoc, add_right_comm, ← add_assoc, add_right_comm (contents ids q)] at h
  exact add_right_cancel h

/-! ## Participants -/

/-- What is at an index when one entry has been replaced. -/
theorem List.getElem?_set_cases {l : List α} {i j : ℕ} {a b : α} (h : (l.set i a)[j]? = some b) :
    j = i ∧ b = a ∨ j ≠ i ∧ l[j]? = some b := by
  by_cases hj : j = i
  · subst hj
    have hlt := (List.getElem?_eq_some_iff.mp h).1
    rw [List.length_set] at hlt
    rw [List.getElem?_set_self hlt] at h
    exact Or.inl ⟨rfl, (Option.some.inj h).symm⟩
  · rw [List.getElem?_set_ne (Ne.symm hj)] at h
    exact Or.inr ⟨hj, h⟩

/-- What is at an index when an entry has been added. -/
theorem List.getElem?_concat_cases {l : List α} {j : ℕ} {a b : α} (h : (l ++ [a])[j]? = some b) :
    l[j]? = some b ∨ j = l.length ∧ b = a := by
  by_cases hlt : j < l.length
  · rw [List.getElem?_append_left hlt] at h
    exact Or.inl h
  · obtain ⟨hj, hb⟩ := List.getElem?_eq_some_iff.mp h
    rw [List.length_append, List.length_singleton] at hj
    obtain rfl : j = l.length := by omega
    exact Or.inr ⟨rfl, by rw [← hb, List.getElem_concat_length rfl]⟩

/-- Replacing one entry keeps what the two entries agree on. -/
theorem List.map_set_of_eq (g : α → β) {i : ℕ} {b : α} (h : l[i]? = some a) (hg : g b = g a) :
    (l.set i b).map g = l.map g := by
  obtain ⟨hi, rfl⟩ := List.getElem?_eq_some_iff.mp h
  have hi' : i < (l.map g).length := by
    rw [List.length_map]
    exact hi
  have hval : g l[i] = (l.map g)[i] := (List.getElem_map g).symm
  rw [List.map_set, hg, hval, List.set_getElem_self]

/-- When one participant changes, what it held is exchanged for what it holds. -/
theorem List.filterMap_set_add (f : α → Option β) {i : ℕ} (b : α) (h : l[i]? = some a) :
    ((l.set i b).filterMap f : Multiset β) + ((f a).toList : Multiset β) =
      (l.filterMap f : Multiset β) + ((f b).toList : Multiset β) := by
  obtain ⟨hlt, hla⟩ := List.getElem?_eq_some_iff.mp h
  have hsplit : ∀ c : α, (List.filterMap f (c :: l.eraseIdx i) : Multiset β) =
      ((l.eraseIdx i).filterMap f : Multiset β) + ((f c).toList : Multiset β) := fun c => by
    rw [List.filterMap_cons]
    cases f c with
    | none => rw [Option.toList_none, Multiset.coe_nil, add_zero]
    | some x =>
      rw [Option.toList_some, Multiset.coe_singleton, add_comm, Multiset.singleton_add,
        Multiset.cons_coe]
  have hold : (l.filterMap f : Multiset β) = ↑(List.filterMap f (a :: l.eraseIdx i)) := by
    rw [← hla]
    exact Multiset.coe_eq_coe.mpr ((List.getElem_cons_eraseIdx_perm hlt).symm.filterMap f)
  have hnew : ((l.set i b).filterMap f : Multiset β) = ↑(List.filterMap f (b :: l.eraseIdx i)) :=
    Multiset.coe_eq_coe.mpr ((List.set_perm_cons_eraseIdx hlt b).filterMap f)
  rw [hold, hnew, hsplit a, hsplit b]
  abel

/-- Replacing one entry moves the count by what the two entries count. -/
theorem List.countP_set_add (p : α → Bool) {i : ℕ} (b : α) (h : l[i]? = some a) :
    (l.set i b).countP p + (p a).toNat = l.countP p + (p b).toNat := by
  obtain ⟨hi, hia⟩ := List.getElem?_eq_some_iff.mp h
  have hpos : (if p a then 1 else 0) ≤ l.countP p := by
    split
    · rename_i ha
      exact List.countP_pos_iff.mpr ⟨a, List.mem_of_getElem? h, ha⟩
    · exact Nat.zero_le _
  rw [List.countP_set hi, hia, Bool.toNat, Bool.toNat, Bool.cond_eq_ite, Bool.cond_eq_ite]
  omega

/-- The same for a counter that may be negative. -/
theorem List.countP_set_int (p : α → Bool) {i : ℕ} (b : α) (h : l[i]? = some a) :
    ((l.set i b).countP p : ℤ)
      = l.countP p - (if p a then 1 else 0) + (if p b then 1 else 0) := by
  have hmove := List.countP_set_add p b h
  cases hp : p a <;> cases hq : p b <;> simp only [hp, hq, Bool.toNat_true, Bool.toNat_false,
    if_true, if_false, Bool.false_eq_true] at hmove ⊢ <;> omega
