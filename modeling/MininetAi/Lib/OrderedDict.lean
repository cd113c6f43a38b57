/-
Dictionaries as lists of entries, in the order in which their keys were first set.

A key that is set again keeps its place. What a key has is `List.lookup`; the lemmas here
say what setting, deleting and updating do to it.
-/
import Mathlib.Data.List.Nodup

set_option autoImplicit false

universe u v

variable {κ : Type u} {ν : Type v} [DecidableEq κ]

/-- `result[key] = value`. -/
def dict_set (key : κ) (value : ν) : List (κ × ν) → List (κ × ν)
  | [] => [(key, value)]
  | entry :: entries =>
    if entry.1 = key then (key, value) :: entries else entry :: dict_set key value entries

/-- `result.update(other)`. -/
def dict_update (result other : List (κ × ν)) : List (κ × ν) :=
  other.foldl (fun result entry => dict_set entry.1 entry.2 result) result

/-- `del result[key]`. -/
def dict_del (key : κ) (result : List (κ × ν)) : List (κ × ν) :=
  result.filter fun entry => entry.1 ≠ key

/-! ## Setting a key -/

section Lookup

variable [BEq κ] [LawfulBEq κ]

@[simp] theorem lookup_dict_set_self (key : κ) (value : ν) (entries : List (κ × ν)) :
    (dict_set key value entries).lookup key = some value := by
  induction entries with
  | nil => rw [dict_set, List.lookup_cons_self]
  | cons entry entries ih =>
    rw [dict_set]
    by_cases h : entry.1 = key
    · rw [if_pos h, List.lookup_cons_self]
    · rw [if_neg h, List.lookup_cons, beq_false_of_ne (Ne.symm h)]
      exact ih

theorem lookup_dict_set_of_ne {key other : κ} (h : other ≠ key) (value : ν) (entries : List (κ × ν)) :
    (dict_set key value entries).lookup other = entries.lookup other := by
  induction entries with
  | nil => rw [dict_set, List.lookup_cons, beq_false_of_ne h]
  | cons entry entries ih =>
    rw [dict_set]
    by_cases hkey : entry.1 = key
    · have hne : other ≠ entry.1 := fun heq => h (heq.trans hkey)
      rw [if_pos hkey, List.lookup_cons, List.lookup_cons, beq_false_of_ne h, beq_false_of_ne hne]
    · rw [if_neg hkey, List.lookup_cons, List.lookup_cons, ih]

/-- What a dictionary has after one entry was set. -/
theorem lookup_dict_set (key other : κ) (value : ν) (entries : List (κ × ν)) :
    (dict_set key value entries).lookup other =
      if other = key then some value else entries.lookup other := by
  by_cases h : other = key
  · rw [if_pos h, h, lookup_dict_set_self]
  · rw [if_neg h, lookup_dict_set_of_ne h]

/-- What a dictionary has after an update by another one. -/
theorem lookup_dict_update (key : κ) (other : List (κ × ν)) (h : (other.map Prod.fst).Nodup) :
    ∀ result : List (κ × ν),
      (dict_update result other).lookup key = (other.lookup key).or (result.lookup key) := by
  induction other with
  | nil => exact fun _ => rfl
  | cons entry other ih =>
    intro result
    rw [List.map_cons, List.nodup_cons] at h
    rw [dict_update, List.foldl_cons]
    refine (ih h.2 _).trans ?_
    rw [lookup_dict_set, List.lookup_cons]
    by_cases hkey : key = entry.1
    · have hnone : other.lookup key = none := by
        rw [List.lookup_eq_none_iff]
        intro found hfound
        refine bne_iff_ne.mpr fun heq => h.1 ?_
        rw [← hkey, heq]
        exact List.mem_map_of_mem hfound
      rw [if_pos hkey, hnone, hkey, beq_self_eq_true]
      rfl
    · rw [if_neg hkey, beq_false_of_ne hkey]

end Lookup

/-! ## Keys -/

/-- The keys keep their places, a new one comes last. -/
theorem keys_dict_set (key : κ) (value : ν) (entries : List (κ × ν)) :
    (dict_set key value entries).map Prod.fst =
      if key ∈ entries.map Prod.fst then entries.map Prod.fst
      else entries.map Prod.fst ++ [key] := by
  induction entries with
  | nil => rfl
  | cons entry entries ih =>
    rw [dict_set, List.map_cons]
    by_cases h : entry.1 = key
    · rw [if_pos h, if_pos (h ▸ List.mem_cons_self), List.map_cons, h]
    · rw [if_neg h, List.map_cons, ih]
      by_cases hmem : key ∈ entries.map Prod.fst
      · rw [if_pos hmem, if_pos (List.mem_cons_of_mem _ hmem)]
      · have hnot : key ∉ entry.1 :: entries.map Prod.fst :=
          List.not_mem_cons_of_ne_of_not_mem (Ne.symm h) hmem
        rw [if_neg hmem, if_neg hnot, List.cons_append]

variable {entries : List (κ × ν)}

theorem nodup_dict_set (h : (entries.map Prod.fst).Nodup) (key : κ) (value : ν) :
    ((dict_set key value entries).map Prod.fst).Nodup := by
  rw [keys_dict_set]
  by_cases hmem : key ∈ entries.map Prod.fst
  · rw [if_pos hmem]
    exact h
  · rw [if_neg hmem]
    refine List.nodup_append.mpr ⟨h, List.nodup_singleton key, fun other hother _ hkey heq => ?_⟩
    rw [heq, List.mem_singleton.mp hkey] at hother
    exact hmem hother

theorem nodup_dict_update (other : List (κ × ν)) :
    ∀ result : List (κ × ν), (result.map Prod.fst).Nodup → ((dict_update result other).map Prod.fst).Nodup := by
  induction other with
  | nil => exact fun _ h => h
  | cons entry other ih => exact fun result h => ih _ (nodup_dict_set h entry.1 entry.2)

/-! ## Entries -/

section Entries

variable [BEq κ] [LawfulBEq κ]

variable {entries : List (κ × ν)} {key : κ}

/-- An entry of a dictionary is what its key has. -/
theorem lookup_eq_some_iff (h : (entries.map Prod.fst).Nodup) {value : ν} :
    entries.lookup key = some value ↔ (key, value) ∈ entries := by
  induction entries with
  | nil => exact ⟨fun h => (by cases h), fun h => (by cases h)⟩
  | cons entry entries ih =>
    rw [List.map_cons] at h
    obtain ⟨hfresh, hrest⟩ := List.nodup_cons.mp h
    rw [List.lookup_cons]
    by_cases hkey : key = entry.1
    · rw [hkey, beq_self_eq_true]
      constructor
      · intro hvalue
        rw [← Option.some.inj hvalue]
        exact List.mem_cons_self
      · intro hmem
        rcases List.mem_cons.mp hmem with heq | hlater
        · rw [← heq]
        · exact absurd (List.mem_map_of_mem hlater) hfresh
    · rw [beq_false_of_ne hkey]
      refine (ih hrest).trans ⟨List.mem_cons_of_mem _, fun hmem => ?_⟩
      rcases List.mem_cons.mp hmem with heq | hlater
      · exact absurd (congrArg Prod.fst heq) hkey
      · exact hlater

@[simp] theorem lookup_dict_del_self (key : κ) (entries : List (κ × ν)) :
    (dict_del key entries).lookup key = none := by
  rw [List.lookup_eq_none_iff]
  intro entry hmem
  obtain ⟨_, hne⟩ := List.mem_filter.mp hmem
  rw [bne, beq_false_of_ne (Ne.symm (of_decide_eq_true hne))]
  rfl

theorem lookup_dict_del_of_ne {other : κ} (h : other ≠ key) (entries : List (κ × ν)) :
    (dict_del key entries).lookup other = entries.lookup other := by
  induction entries with
  | nil => rfl
  | cons entry entries ih =>
    rw [dict_del, List.filter_cons]
    by_cases hkey : entry.1 = key
    · have hne : other ≠ entry.1 := fun heq => h (heq.trans hkey)
      rw [if_neg (by simp [hkey]), List.lookup_cons, beq_false_of_ne hne]
      exact ih
    · rw [if_pos (by simp [hkey]), List.lookup_cons, List.lookup_cons]
      rw [dict_del] at ih
      rw [ih]

end Entries
