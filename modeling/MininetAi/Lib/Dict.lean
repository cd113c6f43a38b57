/-
Slices of a dictionary with composite keys.

A store keeps the entries of several namespaces in one dictionary whose keys are
pairs. A reader of one namespace gets the dictionary of its second components,
in key order, with the entries it may see.
-/
import Mathlib.Data.List.AList
import Mathlib.Data.List.Sort

set_option autoImplicit false

universe u v w x

variable {α : Type u} {β : Type v} {ν : Type w} {μ : Type x} [DecidableEq α] [DecidableEq β]

namespace AList

/-- One visible entry of the slice at `a` joins the dictionary built so far. -/
def slice_entry (a : α) (f : ν → Option μ) (e : Sigma fun _ : α × β => ν)
    (d : AList fun _ : β => μ) : AList fun _ : β => μ :=
  if e.1.1 = a then (f e.2).elim d fun y => d.insert e.1.2 y else d

/-- The entries under `a` that `f` makes visible, in the order `r` of their keys. -/
def slice (r : β → β → Prop) [DecidableRel r] (a : α) (f : ν → Option μ)
    (d : AList fun _ : α × β => ν) : AList fun _ : β => μ :=
  (d.entries.insertionSort fun e e' => r e.1.2 e'.1.2).foldr (slice_entry a f) ∅

theorem lookup_foldr_slice_entry (a : α) (f : ν → Option μ) (b : β)
    (l : List (Sigma fun _ : α × β => ν)) (h : l.NodupKeys) :
    (l.foldr (slice_entry a f) ∅).lookup b = (l.dlookup (a, b)).bind f := by
  induction l with
  | nil => rfl
  | cons e l ih =>
    obtain ⟨⟨a', b'⟩, y⟩ := e
    obtain ⟨hnot, hl⟩ := List.nodupKeys_cons.mp h
    rw [List.foldr_cons]
    by_cases hab : (a', b') = (a, b)
    · obtain ⟨rfl, rfl⟩ := Prod.ext_iff.mp hab
      rw [List.dlookup_cons_eq]
      cases hf : f y with
      | some z => simp [slice_entry, hf]
      | none =>
        -- nothing else in the list has this key
        have hgone : l.dlookup (a', b') = none := List.dlookup_eq_none.mpr hnot
        simp [slice_entry, hf, ih hl, hgone]
    · rw [List.dlookup_cons_ne l ⟨(a', b'), y⟩ (Ne.symm hab), ← ih hl]
      unfold slice_entry
      by_cases ha : a' = a
      · have hb : b ≠ b' := fun hb => hab (by rw [ha, hb])
        rw [if_pos ha]
        cases f y with
        | none => rfl
        | some z => exact AList.lookup_insert_ne hb
      · rw [if_neg ha]

/-- What a reader finds in a slice is what the dictionary holds, if visible. -/
theorem lookup_slice (r : β → β → Prop) [DecidableRel r] (a : α) (f : ν → Option μ)
    (d : AList fun _ : α × β => ν) (b : β) :
    (d.slice r a f).lookup b = (d.lookup (a, b)).bind f := by
  have hperm := List.perm_insertionSort (fun e e' : Sigma fun _ : α × β => ν => r e.1.2 e'.1.2)
    d.entries
  have hkeys : (d.entries.insertionSort fun e e' => r e.1.2 e'.1.2).NodupKeys :=
    (List.perm_nodupKeys hperm).mpr d.nodupKeys
  unfold slice
  rw [lookup_foldr_slice_entry a f b _ hkeys, List.perm_dlookup (a, b) hkeys hperm]
  rfl

/-! ## Slices are ordered -/

section Ordered

variable (r : β → β → Prop) [DecidableRel r]

omit [DecidableRel r] in
/-- The entries of a slice come in the order of the list it is taken from. The
induction is on the list; its first entry, when it is shown, stays in front. -/
theorem pairwise_foldr_slice_entry (a : α) (f : ν → Option μ)
    (l : List (Sigma fun _ : α × β => ν)) (hkeys : l.NodupKeys)
    (h : l.Pairwise fun e e' => r e.1.2 e'.1.2) :
    (l.foldr (slice_entry a f) ∅).entries.Pairwise fun e e' => r e.1 e'.1 := by
  induction l with
  | nil => exact List.Pairwise.nil
  | cons e l ih =>
    obtain ⟨hfirst, htail⟩ := List.pairwise_cons.mp h
    obtain ⟨hnot, hrest⟩ := List.nodupKeys_cons.mp hkeys
    have hshown : ∀ e' ∈ (l.foldr (slice_entry a f) ∅).entries, ∃ y,
        l.dlookup (a, e'.1) = some y := by
      intro e' hmem
      have hfound : (l.foldr (slice_entry a f) ∅).lookup e'.1 = some e'.2 :=
        AList.mem_lookup_iff.mpr hmem
      rw [lookup_foldr_slice_entry a f _ l hrest, Option.bind_eq_some_iff] at hfound
      exact hfound.imp fun y hy => hy.1
    rw [List.foldr_cons, slice_entry]
    by_cases ha : e.1.1 = a
    · rw [if_pos ha]
      cases f e.2 with
      | none => exact ih hrest htail
      | some y =>
        have hfresh : e.1.2 ∉ (l.foldr (slice_entry a f) ∅).entries.keys := by
          intro hmem
          obtain ⟨z, hz⟩ := List.exists_of_mem_keys hmem
          obtain ⟨w, hw⟩ := hshown _ hz
          have hsame : e.1 = (a, e.1.2) := Prod.ext ha rfl
          rw [hsame] at hnot
          rw [List.dlookup_eq_none.mpr hnot] at hw
          cases hw
        rw [Option.elim_some, AList.entries_insert, List.kerase_of_notMem_keys hfresh,
          List.pairwise_cons]
        refine ⟨fun e' hmem => ?_, ih hrest htail⟩
        obtain ⟨w, hw⟩ := hshown e' hmem
        exact hfirst ⟨(a, e'.1), w⟩ (List.of_mem_dlookup hw)
    · rw [if_neg ha]
      exact ih hrest htail

variable [Std.Total r] [IsTrans β r] [Std.Antisymm r]

/-- A slice is determined by what a reader finds in it. -/
theorem slice_congr {a a' : α} {f : ν → Option μ} {d d' : AList fun _ : α × β => ν}
    (h : ∀ b, (d.lookup (a, b)).bind f = (d'.lookup (a', b)).bind f) :
    d.slice r a f = d'.slice r a' f := by
  have hordered : ∀ (a : α) (d : AList fun _ : α × β => ν),
      (d.slice r a f).entries.Pairwise fun e e' => r e.1 e'.1 := by
    intro a d
    have hperm := List.perm_insertionSort
      (fun e e' : Sigma fun _ : α × β => ν => r e.1.2 e'.1.2) d.entries
    refine pairwise_foldr_slice_entry r a f _ ((List.perm_nodupKeys hperm).mpr d.nodupKeys) ?_
    have htotal : Std.Total fun e e' : Sigma fun _ : α × β => ν => r e.1.2 e'.1.2 :=
      ⟨fun e e' => Std.Total.total (r := r) e.1.2 e'.1.2⟩
    have htrans : IsTrans _ fun e e' : Sigma fun _ : α × β => ν => r e.1.2 e'.1.2 :=
      ⟨fun _ _ _ hab hbc => IsTrans.trans (r := r) _ _ _ hab hbc⟩
    exact List.pairwise_insertionSort _ _
  have hlookup : ∀ b y, y ∈ (d.slice r a f).entries.dlookup b ↔
      y ∈ (d'.slice r a' f).entries.dlookup b := by
    intro b y
    have hd := lookup_slice r a f d b
    have hd' := lookup_slice r a' f d' b
    rw [h b, ← hd'] at hd
    exact iff_of_eq (congrArg (y ∈ ·) hd)
  have hperm := List.lookup_ext (d.slice r a f).nodupKeys (d'.slice r a' f).nodupKeys hlookup
  refine AList.ext (hperm.eq_of_pairwise ?_ (hordered a d) (hordered a' d'))
  rintro ⟨b, y⟩ ⟨b', y'⟩ hmem hmem' hle hle'
  obtain rfl : b = b' := Std.Antisymm.antisymm (r := r) b b' hle hle'
  have hy : y ∈ (d'.slice r a' f).entries.dlookup b := (hlookup b y).mp
    (AList.mem_lookup_iff.mpr hmem)
  have hy' : y' ∈ (d'.slice r a' f).entries.dlookup b := AList.mem_lookup_iff.mpr hmem'
  rw [Option.mem_unique hy hy']

end Ordered

/-! ## Counting -/

/-- Writing an entry exchanges the one it replaces, if there is one. -/
theorem countP_insert (p : (Sigma fun _ : α => ν) → Bool) (d : AList fun _ : α => ν) (a : α)
    (y : ν) : (d.insert a y).entries.countP p + (d.lookup a).elim 0 (fun z => (p ⟨a, z⟩).toNat) =
      d.entries.countP p + (p ⟨a, y⟩).toNat := by
  have hcons : ∀ (e : Sigma fun _ : α => ν) l, (e :: l).countP p = l.countP p + (p e).toNat := by
    intro e l
    rw [List.countP_cons, Bool.toNat, Bool.cond_eq_ite]
  rw [AList.entries_insert, hcons]
  cases h : d.lookup a with
  | none =>
    have hnot : a ∉ d.entries.keys := by
      rw [AList.lookup_eq_none] at h
      exact h
    rw [List.kerase_of_notMem_keys hnot]
    rfl
  | some z =>
    have hkeys : a ∈ d.entries.keys := AList.lookup_isSome.mp (by rw [h]; rfl)
    obtain ⟨b, l₁, l₂, hnot, heq, herase⟩ := List.exists_of_kerase hkeys
    have hb : b = z := by
      have hlookup : d.entries.dlookup a = some b := by
        rw [heq, List.dlookup_append, List.dlookup_eq_none.mpr hnot, List.dlookup_cons_eq]
        rfl
      exact Option.some.inj (hlookup.symm.trans h)
    rw [herase, heq, List.countP_append, List.countP_append, hcons, hb, Option.elim_some]
    omega

/-! ## Values -/

/-- An entry with its value mapped. -/
def map_entry (f : ν → μ) (e : Sigma fun _ : α => ν) : Sigma fun _ : α => μ := ⟨e.1, f e.2⟩

/-- The dictionary with every value mapped. -/
def map_values (f : ν → μ) (d : AList fun _ : α => ν) : AList fun _ : α => μ where
  entries := d.entries.map (map_entry f)
  nodupKeys := by
    have hkeys : (d.entries.map (map_entry f)).keys = d.entries.keys := by
      rw [List.keys, List.map_map]
      rfl
    rw [List.NodupKeys, hkeys]
    exact d.nodupKeys

variable (f : ν → μ)

theorem dlookup_map_entry (a : α) (l : List (Sigma fun _ : α => ν)) :
    (l.map (map_entry f)).dlookup a = (l.dlookup a).map f := by
  induction l with
  | nil => rfl
  | cons e l ih =>
    obtain ⟨b, y⟩ := e
    rw [List.map_cons, map_entry]
    by_cases hb : b = a
    · subst hb
      rw [List.dlookup_cons_eq, List.dlookup_cons_eq]
      rfl
    · have hmapped : (⟨b, f y⟩ : Sigma fun _ : α => μ).1 ≠ a := hb
      rw [List.dlookup_cons_ne _ _ hmapped.symm, List.dlookup_cons_ne _ _ (Ne.symm hb), ih]

@[simp] theorem lookup_map_values (d : AList fun _ : α => ν) (a : α) :
    (d.map_values f).lookup a = (d.lookup a).map f :=
  dlookup_map_entry f a d.entries

theorem kerase_map_entry (a : α) (l : List (Sigma fun _ : α => ν)) :
    (l.map (map_entry f)).kerase a = (l.kerase a).map (map_entry f) := by
  induction l with
  | nil => rfl
  | cons e l ih =>
    rw [List.map_cons]
    by_cases ha : a = e.1
    · have hmapped : a = (map_entry f e).1 := ha
      rw [List.kerase_cons_eq ha, List.kerase_cons_eq hmapped]
    · have hmapped : a ≠ (map_entry f e).1 := ha
      rw [List.kerase_cons_ne ha, List.kerase_cons_ne hmapped, ih, List.map_cons]

theorem map_values_insert (d : AList fun _ : α => ν) (a : α) (y : ν) :
    (d.insert a y).map_values f = (d.map_values f).insert a (f y) := by
  refine AList.ext ?_
  rw [AList.entries_insert]
  exact (congrArg (map_entry f ⟨a, y⟩ :: ·) (kerase_map_entry f a d.entries)).symm

omit [DecidableEq α] in
theorem countP_map_values (f : ν → μ) (p : (Sigma fun _ : α => μ) → Bool)
    (d : AList fun _ : α => ν) :
    (d.map_values f).entries.countP p = d.entries.countP (p ∘ map_entry f) :=
  List.countP_map

/-! ## Slices of mapped dictionaries -/

variable {ξ : Type*}

theorem foldr_slice_entry_map (g : μ → Option ξ) (a : α) (l : List (Sigma fun _ : α × β => ν)) :
    (l.map (map_entry f)).foldr (slice_entry a g) ∅ = l.foldr (slice_entry a (g ∘ f)) ∅ := by
  rw [List.foldr_map]
  rfl

/-- A slice of a mapped dictionary sees the mapped values. -/
theorem slice_map_values (r : β → β → Prop) [DecidableRel r] (a : α) (f : ν → μ)
    (g : μ → Option ξ) (d : AList fun _ : α × β => ν) :
    (d.map_values f).slice r a g = d.slice r a (g ∘ f) := by
  unfold slice
  rw [← foldr_slice_entry_map]
  refine congrArg (List.foldr (slice_entry a g) ∅) ?_
  exact (List.map_insertionSort _ _ (map_entry f) _ fun _ _ _ _ => Iff.rfl).symm

/-- What a slice shows can be mapped after it. -/
theorem slice_map (r : β → β → Prop) [DecidableRel r] (a : α) (f : ν → Option μ)
    (g : μ → ξ) (d : AList fun _ : α × β => ν) :
    d.slice r a (fun y => (f y).map g) = (d.slice r a f).map_values g := by
  unfold slice
  induction d.entries.insertionSort fun e e' => r e.1.2 e'.1.2 with
  | nil => rfl
  | cons e l ih =>
    rw [List.foldr_cons, List.foldr_cons, ih]
    generalize l.foldr (slice_entry a f) ∅ = shown
    rw [slice_entry, slice_entry]
    by_cases ha : e.1.1 = a
    · rw [if_pos ha, if_pos ha]
      cases f e.2 with
      | none => rfl
      | some y => exact (map_values_insert g shown e.1.2 y).symm
    · rw [if_neg ha, if_neg ha]

/-! ## Reading every value -/

/-- Reads the values in their order and stops at the first that cannot be read. -/
def read_entries {ε : Type*} (f : ν → Except ε μ) :
    List (Sigma fun _ : α => ν) → Except ε (AList fun _ : α => μ)
  | [] => .ok ∅
  | e :: l => match f e.2 with
    | .error err => .error err
    | .ok y => match read_entries f l with
      | .error err => .error err
      | .ok d => .ok (d.insert e.1 y)

/-- The dictionary of what is read. -/
def read_values {ε : Type*} (f : ν → Except ε μ) (d : AList fun _ : α => ν) :
    Except ε (AList fun _ : α => μ) :=
  read_entries f d.entries

theorem read_entries_map {ε : Type*} (f : ν → Except ε μ) (g : ξ → Except ε μ)
    (h : ν → ξ) (l : List (Sigma fun _ : α => ν)) (hread : ∀ e ∈ l, g (h e.2) = f e.2) :
    read_entries g (l.map (map_entry h)) = read_entries f l := by
  induction l with
  | nil => rfl
  | cons e l ih =>
    have htail : read_entries g (l.map (map_entry h)) = read_entries f l :=
      ih fun e' hmem => hread e' (List.mem_cons_of_mem _ hmem)
    have hhead : g (map_entry h e).2 = f e.2 := hread e List.mem_cons_self
    rw [List.map_cons, read_entries, read_entries, htail, hhead]
    rfl

/-- A mapped dictionary is read as the dictionary is when its values are read alike. -/
theorem read_values_map {ε : Type*} (f : ν → Except ε μ) (g : ξ → Except ε μ)
    (h : ν → ξ) (d : AList fun _ : α => ν) (hread : ∀ e ∈ d.entries, g (h e.2) = f e.2) :
    (d.map_values h).read_values g = d.read_values f :=
  read_entries_map f g h d.entries hread

end AList
