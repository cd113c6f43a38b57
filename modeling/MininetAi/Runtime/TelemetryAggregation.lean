/-
What the aggregation of a window has at a path.

The leaves of the samples are filed under their targets and dotted paths, folded, and
written back in the order of the texts, where a path comes before its continuations. So a
leaf of the newest sample is missing from the aggregated value as soon as any sample of
the window has a leaf below it: an object takes its place. A path that begins with an
empty key is written without it.

Otherwise the fold is there, over the leaves that were filed under the text: of each sample
the last one whose path has this text. The aggregation raises when a leaf is a number that
no finite double is near to.
-/
import MininetAi.Runtime.TelemetryPaths

set_option autoImplicit false

namespace MininetAi

open Binary64 List Option JsonValue

/-! ## Filing the leaves -/

/-- The leaves under the targets and their dotted paths. -/
abbrev PathFile := List ((String × PathText) × List JsonValue)

/-- What is filed under a key. -/
def filed (paths : PathFile) (key : String × PathText) : List JsonValue := (paths.lookup key).getD []

/-- Every key is there once, and has something. -/
structure PathFile.Kept (paths : PathFile) : Prop where
  unique : (paths.map Prod.fst).Nodup
  nonempty : ∀ key, paths.lookup key ≠ some []

/-- The leaf that a sample files under a text. -/
def Sample.leaf_at (sample : Sample) (target : String) (text : PathText) : Option JsonValue :=
  (sample.values.lookup target).bind fun value => (flatten [] value).lookup text

section Filing

variable {paths : PathFile} {key : String × PathText}

theorem filed_file_leaf (paths : PathFile) (key other : String × PathText) (leaf : JsonValue) :
    filed (file_leaf paths other leaf) key = filed paths key ++ if key = other then [leaf] else [] := by
  rw [filed, file_leaf, lookup_dict_set]
  by_cases h : key = other
  · rw [if_pos h, if_pos h, ← h]
    rfl
  · rw [if_neg h, if_neg h, append_nil]
    rfl

theorem PathFile.Kept.file_leaf (h : PathFile.Kept paths) (other : String × PathText) (leaf : JsonValue) :
    PathFile.Kept (MininetAi.file_leaf paths other leaf) := by
  refine ⟨nodup_dict_set h.unique _ _, fun key => ?_⟩
  rw [MininetAi.file_leaf, lookup_dict_set]
  by_cases hkey : key = other
  · rw [if_pos hkey]
    intro heq
    exact append_ne_nil_of_right_ne_nil _ (cons_ne_nil leaf []) (Option.some.inj heq)
  · rw [if_neg hkey]
    exact h.nonempty key

/-- The leaves of one target. -/
theorem filed_leaves (target : String) (leaves : List (PathText × JsonValue))
    (h : (leaves.map Prod.fst).Nodup) : ∀ paths : PathFile, PathFile.Kept paths →
      PathFile.Kept (leaves.foldl (fun paths leaf => file_leaf paths (target, leaf.1) leaf.2) paths) ∧
      ∀ key, filed (leaves.foldl (fun paths leaf => file_leaf paths (target, leaf.1) leaf.2) paths) key =
        filed paths key ++ if key.1 = target then (leaves.lookup key.2).toList else [] := by
  induction leaves with
  | nil =>
    intro paths hkept
    refine ⟨hkept, fun key => ?_⟩
    rw [lookup_nil, toList_none, ite_self, append_nil, foldl_nil]
  | cons leaf leaves ih =>
    intro paths hkept
    rw [map_cons] at h
    obtain ⟨hfresh, hrest⟩ := List.nodup_cons.mp h
    obtain ⟨hend, hfiled⟩ := ih hrest _ (hkept.file_leaf (target, leaf.1) leaf.2)
    refine ⟨hend, fun key => ?_⟩
    rw [foldl_cons, hfiled key, filed_file_leaf, append_assoc, lookup_cons]
    obtain ⟨other, text⟩ := key
    by_cases hother : other = target
    · by_cases htext : text = leaf.1
      · have hnone : leaves.lookup text = none := by
          by_contra hsome
          obtain ⟨value, hvalue⟩ := ne_none_iff_exists'.mp hsome
          have hmem := (lookup_eq_some_iff hrest).mp hvalue
          exact hfresh (htext ▸ mem_map_of_mem hmem)
        have hkey : (other, text) = (target, leaf.1) := by rw [hother, htext]
        rw [if_pos hkey, if_pos hother, if_pos hother, hnone, htext, beq_self_eq_true]
        rfl
      · have hkey : (other, text) ≠ (target, leaf.1) := fun heq => htext (congrArg Prod.snd heq)
        rw [if_neg hkey, beq_false_of_ne htext, nil_append]
    · have hkey : (other, text) ≠ (target, leaf.1) := fun heq => hother (congrArg Prod.fst heq)
      rw [if_neg hkey, if_neg hother, if_neg hother, nil_append]

/-- The leaves of a sample. -/
theorem filed_sample (sample : Sample) : ∀ paths : PathFile, PathFile.Kept paths →
    PathFile.Kept (file_sample paths sample) ∧ ∀ key, filed (file_sample paths sample) key =
      filed paths key ++ (sample.leaf_at key.1 key.2).toList := by
  have hkeys : (sample.values.map Prod.fst).Nodup := sample.keyed.1
  unfold file_sample Sample.leaf_at
  generalize sample.values = values at hkeys
  induction values with
  | nil =>
    intro paths hkept
    refine ⟨hkept, fun key => ?_⟩
    rw [lookup_nil, bind_none, toList_none, append_nil, foldl_nil]
  | cons entry values ih =>
    intro paths hkept
    rw [map_cons] at hkeys
    obtain ⟨hfresh, hrest⟩ := List.nodup_cons.mp hkeys
    obtain ⟨hkept, hleaves⟩ := filed_leaves entry.1 (flatten [] entry.2) (nodup_flatten entry.2 []) paths hkept
    obtain ⟨hend, hfiled⟩ := ih hrest _ hkept
    refine ⟨hend, fun key => ?_⟩
    rw [foldl_cons, hfiled key, hleaves key, append_assoc, lookup_cons]
    by_cases htarget : key.1 = entry.1
    · have hnone : values.lookup key.1 = none := by
        by_contra hsome
        obtain ⟨value, hvalue⟩ := ne_none_iff_exists'.mp hsome
        have hmem := (lookup_eq_some_iff hrest).mp hvalue
        exact hfresh (htarget ▸ mem_map_of_mem hmem)
      rw [if_pos htarget, hnone, htarget, beq_self_eq_true, bind_none, toList_none,
        append_nil]
      rfl
    · rw [if_neg htarget, beq_false_of_ne htarget, nil_append]

/-- Each sample that has a leaf under a key files it, the newest one last. -/
theorem filed_samples (samples : List Sample) : ∀ paths : PathFile, PathFile.Kept paths →
    PathFile.Kept (samples.foldl file_sample paths) ∧ ∀ key, filed (samples.foldl file_sample paths) key =
      filed paths key ++ samples.filterMap fun sample => sample.leaf_at key.1 key.2 := by
  induction samples with
  | nil =>
    intro paths hkept
    exact ⟨hkept, fun key => (append_nil _).symm⟩
  | cons sample samples ih =>
    intro paths hkept
    obtain ⟨hkept, hsample⟩ := filed_sample sample paths hkept
    obtain ⟨hend, hfiled⟩ := ih _ hkept
    refine ⟨hend, fun key => ?_⟩
    rw [foldl_cons, hfiled key, hsample key, append_assoc, filterMap_cons]
    cases sample.leaf_at key.1 key.2 with
    | none => rfl
    | some leaf => rfl

end Filing

/-! ## Folds -/

/-- Every number of the values has a finite double near to it, and so has every sum of a
first part when their mean is asked for. -/
def FoldsInRange (aggregation : Aggregation) (values : List JsonValue) : Prop :=
  (∀ q ∈ values.filterMap JsonValue.number, InRange q) ∧
    (aggregation = .mean → (values.filterMap JsonValue.number).length = values.length →
      ∀ n ≤ values.length, InRange (((values.filterMap JsonValue.number).map nearest).take n).sum)

theorem foldsInRange_nil (aggregation : Aggregation) : FoldsInRange aggregation [] := by
  refine ⟨fun _ hq => absurd hq not_mem_nil, fun _ _ n _ => ?_⟩
  rw [filterMap_nil, map_nil, take_nil, sum_nil]
  decide +kernel

/-- The values are folded without an `OverflowError` when they are in range. -/
theorem aggregate_values_isSome_iff (aggregation : Aggregation) (values : List JsonValue) :
    (aggregate_values aggregation values).isSome = true ↔ FoldsInRange aggregation values := by
  unfold aggregate_values FoldsInRange
  dsimp only
  by_cases hnumbers : ∀ q ∈ values.filterMap JsonValue.number, InRange q
  · rw [if_pos hnumbers, and_iff_right hnumbers, length_map]
    by_cases hall : (values.filterMap JsonValue.number).length = values.length
    · cases aggregation with
      | mean =>
        rw [if_neg (by simp [hall]), isSome_map, fmean, length_map, hall]
        by_cases hsums : ∀ n ≤ values.length,
            InRange (((values.filterMap JsonValue.number).map nearest).take n).sum
        · rw [if_pos hsums]
          exact iff_of_true rfl fun _ _ => hsums
        · rw [if_neg hsums]
          exact iff_of_false Bool.false_ne_true fun h => hsums (h rfl rfl)
      | _ =>
        refine iff_of_true ?_ fun hmean => by cases hmean
        split <;> rfl
    · rw [if_pos (.inr hall)]
      exact iff_of_true rfl fun _ h => absurd h hall
  · rw [if_neg hnumbers]
    exact iff_of_false Bool.false_ne_true fun h => hnumbers h.1

/-- The fold of numbers, without rounding. -/
def exact_fold (aggregation : Aggregation) (numbers : List ℚ) : ℚ :=
  match aggregation with
  | .latest => numbers.getLast?.getD 0
  | .minimum => numbers.min?.getD 0
  | .maximum => numbers.max?.getD 0
  | .mean => numbers.sum / numbers.length
  | .sum => numbers.sum

/-- The numbers are finite doubles, and so is what is computed from them. -/
structure ExactNumbers (aggregation : Aggregation) (numbers : List ℚ) : Prop where
  number : ∀ q ∈ numbers, IsDouble q ∧ |q| < 2 ^ 1024
  sums : aggregation = .sum ∨ aggregation = .mean →
    ∀ n, IsDouble (numbers.take n).sum ∧ |(numbers.take n).sum| < 2 ^ 1024
  mean : aggregation = .mean → IsDouble (numbers.sum / numbers.length)

theorem inRange_of_isDouble {q : ℚ} (h : IsDouble q ∧ |q| < 2 ^ 1024) : InRange q := by
  rw [InRange, nearest_of_isDouble h.1]
  exact h.2

/-- Nothing is lost of a sum that is a double. -/
theorem add_compensated_exact {total x : ℚ} (htotal : IsDouble total ∧ |total| < 2 ^ 1024)
    (hx : IsDouble x) (hsum : IsDouble (total + x) ∧ |total + x| < 2 ^ 1024) :
    add_compensated (total, 0) x = (total + x, 0) := by
  have hclamped : clamped (total + x) = total + x := by
    rw [clamped_of_inRange (inRange_of_isDouble hsum), nearest_of_isDouble hsum.1]
  rw [add_compensated, if_neg htotal.2.ne]
  dsimp only
  rw [hclamped, sub_add_cancel_left, sub_add_cancel_right, nearest_neg, nearest_neg, nearest_of_isDouble hx,
    nearest_of_isDouble htotal.1, neg_add_cancel, neg_add_cancel, ite_self, nearest_zero, add_zero, nearest_zero]

variable {numbers : List ℚ}

theorem float_sum_exact (hnumbers : ∀ q ∈ numbers, IsDouble q)
    (hsums : ∀ n, IsDouble (numbers.take n).sum ∧ |(numbers.take n).sum| < 2 ^ 1024) :
    float_sum numbers = numbers.sum := by
  have hrest : ∀ (rest : List ℚ) (total : ℚ), IsDouble total ∧ |total| < 2 ^ 1024 →
      (∀ q ∈ rest, IsDouble q) →
      (∀ n, IsDouble (total + (rest.take n).sum) ∧ |total + (rest.take n).sum| < 2 ^ 1024) →
      rest.foldl add_compensated (total, 0) = (total + rest.sum, 0) := by
    intro rest
    induction rest with
    | nil => exact fun total _ _ _ => by rw [foldl_nil, sum_nil, add_zero]
    | cons x rest ih =>
      intro total htotal hdoubles htotals
      obtain ⟨hx, hdoubles⟩ := forall_mem_cons.mp hdoubles
      have hnext := htotals 1
      rw [take_succ_cons, take_zero, sum_singleton] at hnext
      rw [foldl_cons, add_compensated_exact htotal hx hnext, ih _ hnext hdoubles fun n => ?_,
        sum_cons, add_assoc]
      have hlater := htotals (n + 1)
      rwa [take_succ_cons, sum_cons, ← add_assoc] at hlater
  cases numbers with
  | nil => rfl
  | cons x rest =>
    obtain ⟨hx, hdoubles⟩ := forall_mem_cons.mp hnumbers
    have hfirst := hsums 1
    rw [take_succ_cons, take_zero, sum_singleton] at hfirst
    have hall := hsums (rest.length + 1)
    rw [take_succ_cons, take_length, sum_cons] at hall
    rw [float_sum, hrest rest x hfirst hdoubles fun n => ?_]
    · dsimp only
      rw [if_neg hall.2.ne, add_zero, clamped_of_inRange (inRange_of_isDouble hall),
        nearest_of_isDouble hall.1, sum_cons]
    · have hlater := hsums (n + 1)
      rwa [take_succ_cons, sum_cons] at hlater

variable {aggregation : Aggregation} {values : List JsonValue}
  {aggregated : List (String × JsonValue)}

/-- Over exact numbers the fold is exact. -/
theorem aggregate_values_exact (h : ExactNumbers aggregation numbers) (hne : numbers ≠ []) :
    aggregate_values aggregation (numbers.map .num) = some (.num (exact_fold aggregation numbers)) := by
  have hfilter : (numbers.map num).filterMap JsonValue.number = numbers := by
    rw [filterMap_map]
    exact filterMap_some
  have hnearest : numbers.map nearest = numbers :=
    (map_congr_left fun q hq => nearest_of_isDouble (h.number q hq).1).trans (map_id _)
  have hrange : ∀ q ∈ numbers, InRange q := fun q hq => inRange_of_isDouble (h.number q hq)
  unfold aggregate_values
  dsimp only
  rw [hfilter, if_pos hrange, hnearest, length_map]
  have hnewest := getLast?_eq_some_getLast hne
  cases aggregation with
  | latest =>
    rw [if_pos (.inl rfl), getLast?_map, hnewest, exact_fold, hnewest]
    rfl
  | minimum | maximum => rw [if_neg (by simp)]; rfl
  | mean =>
    have hsums := h.sums (.inr rfl)
    have hsum := hsums numbers.length
    rw [take_length] at hsum
    rw [if_neg (by simp)]
    dsimp only
    rw [fmean, if_pos fun n _ => inRange_of_isDouble (hsums n), nearest_of_isDouble hsum.1,
      nearest_of_isDouble (h.mean rfl)]
    rfl
  | sum =>
    rw [if_neg (by simp)]
    dsimp only
    rw [float_sum_exact (fun q hq => (h.number q hq).1) (h.sums (.inl rfl))]
    rfl

/-- The fold of values whose newest one is a leaf is a leaf. -/
theorem aggregate_values_leaf {leaf fold : JsonValue}
    (hnewest : values.getLast? = some leaf) (hleaf : leaf.is_object = false)
    (hfold : aggregate_values aggregation values = some fold) : fold.is_object = false := by
  unfold aggregate_values at hfold
  dsimp only at hfold
  rw [hnewest, getD_some] at hfold
  split at hfold
  · split at hfold
    · exact Option.some.inj hfold ▸ hleaf
    · cases aggregation with
      | latest => exact Option.some.inj hfold ▸ hleaf
      | mean =>
        obtain ⟨_, _, rfl⟩ := map_eq_some_iff.mp hfold
        rfl
      | _ =>
        cases hfold
        rfl
  · cases hfold

/-! ## The leaves that are written -/

/-- The leaf of a sample that counts at a path: the last one whose path is this one when
the empty keys at its beginning are left out. -/
def Sample.counted (sample : Sample) (target : String) (path : List String) : Option JsonValue :=
  (sample.values.lookup target).bind fun value => last_leaf (fun keys => trimmed keys = path) value.leaves

/-- The leaves of the samples that count at a path. -/
def counted_at (samples : List Sample) (target : String) (path : List String) : List JsonValue :=
  samples.filterMap fun sample => sample.counted target path

/-- What the samples have at a path of a target. -/
def values_at (samples : List Sample) (target : String) (path : List String) : List JsonValue :=
  samples.filterMap fun sample => (JsonValue.obj sample.values).at_path (target :: path)

/-- What `_aggregate_samples` writes when it does not raise, in its order. -/
def aggregated_leaves (samples : List Sample) (aggregation : Aggregation) : List (List String × JsonValue) :=
  (Keyed.sort path_key (samples.foldl file_sample [])).map fun entry =>
    (entry.1.1 :: split_path entry.1.2, (aggregate_values aggregation entry.2).getD .null)

theorem split_path_ne_nil (text : PathText) : split_path text ≠ [] :=
  fun hnil => splitOn_ne_nil '.' text (map_eq_nil_iff.mp hnil)

/-- The object of a target is one more step of the path. -/
theorem assign_aggregated_eq (aggregation : Aggregation) (result : List (String × JsonValue))
    (entry : (String × PathText) × List JsonValue) : assign_aggregated aggregation result entry =
      (aggregate_values aggregation entry.2).map fun aggregated =>
        assign_path aggregated (entry.1.1 :: split_path entry.1.2) result := by
  rw [assign_aggregated]
  congr 1
  funext aggregated
  exact (assign_path_cons (split_path_ne_nil entry.1.2) _).symm

theorem foldlM_assign_aggregated (aggregation : Aggregation) (entries : PathFile) :
    ∀ result aggregated : List (String × JsonValue),
      entries.foldlM (assign_aggregated aggregation) result = some aggregated ↔
        (∀ entry ∈ entries, (aggregate_values aggregation entry.2).isSome = true) ∧
          aggregated = assign_all (entries.map fun entry => (entry.1.1 :: split_path entry.1.2,
            (aggregate_values aggregation entry.2).getD .null)) result := by
  induction entries with
  | nil =>
    intro result aggregated
    rw [foldlM_nil, map_nil, assign_all, foldl_nil]
    constructor
    · exact fun h => ⟨fun _ hmem => absurd hmem not_mem_nil, (Option.some.inj h).symm⟩
    · exact fun h => congrArg some h.2.symm
  | cons entry entries ih =>
    intro result aggregated
    rw [foldlM_cons, assign_aggregated_eq, forall_mem_cons, map_cons, assign_all, foldl_cons]
    cases aggregate_values aggregation entry.2 with
    | none => exact iff_of_false (fun h => by cases h) fun h => by cases h.1.1
    | some value => exact (ih _ aggregated).trans (and_congr_left' (and_iff_right rfl).symm)

/-- The aggregation raises unless everything that is filed can be folded. -/
theorem aggregate_samples_eq_some_iff {samples : List Sample} :
    aggregate_samples samples aggregation = some aggregated ↔
      (∀ entry ∈ samples.foldl file_sample [], (aggregate_values aggregation entry.2).isSome = true) ∧
        aggregated = assign_all (aggregated_leaves samples aggregation) [] := by
  rw [aggregate_samples, foldlM_assign_aggregated, aggregated_leaves]
  refine and_congr_left' (forall_congr' fun entry => imp_congr_left ?_)
  exact (Keyed.perm_sort _).mem_iff

theorem kept_nil : PathFile.Kept [] := ⟨nodup_nil, fun _ hnone => by cases hnone⟩

theorem filed_all (samples : List Sample) (key : String × PathText) :
    filed (samples.foldl file_sample []) key = samples.filterMap fun sample => sample.leaf_at key.1 key.2 :=
  (filed_samples samples [] kept_nil).2 key

variable {samples : List Sample} {sample : Sample} {target : String} {path : List String}
  {key : String × PathText}

theorem mem_file_iff : (key, values) ∈ samples.foldl file_sample [] ↔
      values ≠ [] ∧ values = samples.filterMap fun sample => sample.leaf_at key.1 key.2 := by
  obtain ⟨hkept, _⟩ := filed_samples samples [] kept_nil
  have hfiled := filed_all samples key
  rw [← lookup_eq_some_iff hkept.unique]
  rw [filed] at hfiled
  constructor
  · intro hlookup
    rw [hlookup, getD_some] at hfiled
    refine ⟨fun hnil => ?_, hfiled⟩
    rw [hnil] at hlookup
    exact hkept.nonempty key hlookup
  · rintro ⟨hne, hvalues⟩
    rw [← hfiled] at hvalues
    cases hlookup : (samples.foldl file_sample []).lookup key with
    | none =>
      rw [hlookup] at hvalues
      exact absurd hvalues hne
    | some found =>
      rw [hlookup] at hvalues
      rw [hvalues, getD_some]

/-- No path is written after one of its continuations. -/
theorem aggregated_leaves_ordered (samples : List Sample) (aggregation : Aggregation) :
    (aggregated_leaves samples aggregation).Pairwise fun a b => ¬ b.1 <+: a.1 := by
  obtain ⟨hkept, _⟩ := filed_samples samples [] kept_nil
  have hsorted := @Keyed.pairwise_sort _ _ path_key _ (samples.foldl file_sample [])
  have hperm := @Keyed.perm_sort _ _ path_key _ (samples.foldl file_sample [])
  have hdistinct : (Keyed.sort path_key (samples.foldl file_sample [])).Pairwise
      fun a b => a.1 ≠ b.1 :=
    pairwise_map.mp ((hperm.map Prod.fst).nodup_iff.mpr hkept.unique)
  rw [aggregated_leaves, pairwise_map]
  refine (hsorted.and hdistinct).imp ?_
  rintro ⟨⟨target, text⟩, values⟩ ⟨⟨target', text'⟩, values'⟩ ⟨hle, hne⟩ hprefix
  obtain ⟨htarget, hsplit⟩ := cons_prefix_cons.mp hprefix
  have htarget : target' = target := htarget
  have htext := text_prefix_of_split hsplit
  rw [htarget] at hle hne
  have hle : text ≤ text' := by
    rcases Prod.Lex.le_iff.mp hle with hlt | ⟨_, hle⟩
    · exact absurd hlt (lt_irrefl _)
    · exact hle
  have hge : text' ≤ text := not_lt.mp fun hlt => htext.le hlt
  exact hne (congrArg (Prod.mk target) (le_antisymm hle hge))

/-- The samples have no dots in their keys. -/
def DotFree (samples : List Sample) : Prop :=
  ∀ sample ∈ samples, ∀ entry ∈ sample.values, entry.2.dot_free = true

/-- A sample has a leaf whose path goes on from another, when the empty keys at its
beginning are left out. -/
def Overgrown (samples : List Sample) (target : String) (path : List String) : Prop :=
  ∃ sample ∈ samples, ∃ longer leaf,
    (JsonValue.obj sample.values).at_path (target :: longer) = some leaf ∧ leaf.is_object = false ∧
      path <+: trimmed longer ∧ trimmed longer ≠ path

/-- Every sample that has something at the path has a leaf there, and no other leaf whose
path is this one when the empty keys at its beginning are left out. -/
def Unaliased (samples : List Sample) (target : String) (path : List String) : Prop :=
  ∀ sample ∈ samples,
    (∀ other leaf, (JsonValue.obj sample.values).at_path (target :: other) = some leaf →
      leaf.is_object = false → trimmed other = path → other = path) ∧
    ∀ fields, (JsonValue.obj sample.values).at_path (target :: path) ≠ some (.obj fields)

section Written

variable {samples : List Sample} {sample : Sample} {target : String} {path : List String}
  {leaf found : JsonValue} {asked : List String → Bool} {keys : List String} {value : JsonValue}

theorem trimmed_trimmed (path : List String) : trimmed (trimmed path) = trimmed path := by
  cases hpath : trimmed path with
  | nil => rfl
  | cons key keys =>
    refine trimmed_of_ne (fun hkey => @trimmed_head path ?_) keys
    rw [hpath, hkey]
    rfl

/-- The keys on the way to a leaf have no dots. -/
theorem dot_free_leaf (hdots : DotFree samples) (hsample : sample ∈ samples)
    (hat : (JsonValue.obj sample.values).at_path (target :: path) = some leaf) :
    ∀ key ∈ trimmed path, '.' ∉ key.toList := by
  rw [at_path_cons] at hat
  obtain ⟨value, hvalue, hat⟩ := bind_eq_some_iff.mp hat
  have hmem := (lookup_eq_some_iff sample.keyed.1).mp hvalue
  have hkeys := dot_free_path path (hdots sample hsample _ hmem) hat
  exact fun key hkey => hkeys key ((dropWhile_suffix _).subset hkey)

/-- The text of a path to a leaf gives back what is left of the path. -/
theorem split_leaf_text (hdots : ∀ key ∈ trimmed path, '.' ∉ key.toList) (hpath : trimmed path ≠ []) :
    split_path (path_text path) = trimmed path := by
  have hsplit := split_path_text hdots (by rw [trimmed_trimmed]; exact hpath)
  rw [trimmed_trimmed, path_text_eq, trimmed_trimmed, ← path_text_eq] at hsplit
  exact hsplit

/-- What a sample files is a leaf of its, and one that has this text. -/
theorem last_leaf_some (hkeyed : value.Keyed) (h : last_leaf asked value.leaves = some found) :
    ∃ keys, value.at_path keys = some found ∧ found.is_object = false ∧ asked keys = true := by
  obtain ⟨⟨keys, leaf⟩, hlast, rfl⟩ := map_eq_some_iff.mp h
  obtain ⟨hmem, hasked⟩ := mem_filter.mp (mem_of_getLast? hlast)
  obtain ⟨hat, hleaf⟩ := (mem_leaves value hkeyed).mp hmem
  exact ⟨keys, hat, hleaf, hasked⟩

theorem last_leaf_ne_none
    (hkeyed : value.Keyed) (hat : value.at_path keys = some leaf) (hleaf : leaf.is_object = false)
    (hasked : asked keys = true) : last_leaf asked value.leaves ≠ none := by
  have hmem : (keys, leaf) ∈ value.leaves.filter fun leaf => asked leaf.1 :=
    mem_filter.mpr ⟨(mem_leaves value hkeyed).mpr ⟨hat, hleaf⟩, hasked⟩
  rw [last_leaf, Ne, map_eq_none_iff, getLast?_eq_none_iff]
  exact ne_nil_of_mem hmem

theorem Sample.counted_some (h : sample.counted target path = some found) : ∃ keys,
    (JsonValue.obj sample.values).at_path (target :: keys) = some found ∧ found.is_object = false ∧
      trimmed keys = path := by
  obtain ⟨value, hvalue, hlast⟩ := bind_eq_some_iff.mp h
  have hkeyed := keyed_fields sample.keyed.2 ((lookup_eq_some_iff sample.keyed.1).mp hvalue)
  obtain ⟨keys, hat, hleaf, hasked⟩ := last_leaf_some hkeyed hlast
  refine ⟨keys, ?_, hleaf, of_decide_eq_true hasked⟩
  rw [at_path_cons, hvalue]
  exact hat

theorem Sample.counted_ne_none
    (hat : (JsonValue.obj sample.values).at_path (target :: keys) = some leaf)
    (hleaf : leaf.is_object = false) : sample.counted target (trimmed keys) ≠ none := by
  rw [at_path_cons] at hat
  obtain ⟨value, hvalue, hat⟩ := bind_eq_some_iff.mp hat
  have hkeyed := keyed_fields sample.keyed.2 ((lookup_eq_some_iff sample.keyed.1).mp hvalue)
  rw [Sample.counted, hvalue, bind_some]
  exact last_leaf_ne_none hkeyed hat hleaf (decide_eq_true rfl)

/-- What is filed under the text of a path is the leaf that counts at the path. -/
theorem leaf_at_text (hdots : DotFree samples) (hsample : sample ∈ samples)
    (hpath : ∀ key ∈ trimmed path, '.' ∉ key.toList) (hne : trimmed path ≠ []) :
    sample.leaf_at target (path_text path) = sample.counted target (trimmed path) := by
  unfold Sample.leaf_at Sample.counted
  cases hvalue : sample.values.lookup target with
  | none => rfl
  | some value =>
    have hmem := (lookup_eq_some_iff sample.keyed.1).mp hvalue
    have hkeyed := keyed_fields sample.keyed.2 hmem
    rw [bind_some, bind_some, lookup_flatten, last_leaf, last_leaf]
    congr 2
    refine filter_congr fun other hother => decide_eq_decide.mpr ?_
    obtain ⟨hat, _⟩ := (mem_leaves value hkeyed).mp hother
    have hother_dots : ∀ key ∈ trimmed other.1, '.' ∉ key.toList :=
      fun key hkey => dot_free_path other.1 (hdots sample hsample _ hmem) hat key
        ((dropWhile_suffix _).subset hkey)
    constructor
    · rintro ⟨htext, heq⟩
      have heq : path_text other.1 = path_text path := heq
      have hother_ne : trimmed other.1 ≠ [] := fun hnil => htext (heq ▸ path_text_eq_nil_iff.mpr hnil)
      rw [← split_leaf_text hother_dots hother_ne, heq, split_leaf_text hpath hne]
    · intro heq
      refine ⟨fun hnil => hne (path_text_eq_nil_iff.mp hnil), ?_⟩
      have htexts : path_text other.1 = path_text path := by rw [path_text_eq, heq, ← path_text_eq]
      exact htexts

/-- The entries of the file: each has what counts at the path of one leaf. -/
theorem file_entry (hdots : DotFree samples)
    (h : (key, values) ∈ samples.foldl file_sample []) : ∃ path, path ≠ [] ∧ trimmed path = path ∧
      split_path key.2 = path ∧ values = counted_at samples key.1 path ∧ values ≠ [] := by
  obtain ⟨hne, hvalues⟩ := mem_file_iff.mp h
  obtain ⟨found, hfound⟩ := exists_mem_of_ne_nil _ (hvalues ▸ hne)
  obtain ⟨sample, hsample, hfiled⟩ := mem_filterMap.mp hfound
  obtain ⟨value, hvalue, hlookup⟩ := bind_eq_some_iff.mp hfiled
  have hkeyed := keyed_fields sample.keyed.2 ((lookup_eq_some_iff sample.keyed.1).mp hvalue)
  rw [lookup_flatten] at hlookup
  obtain ⟨keys, hat, _, hasked⟩ := last_leaf_some hkeyed hlookup
  obtain ⟨htext, heq⟩ := of_decide_eq_true hasked
  have heq : path_text keys = key.2 := heq
  have hkeys : trimmed keys ≠ [] := fun hnil => htext (heq ▸ path_text_eq_nil_iff.mpr hnil)
  have hat : (JsonValue.obj sample.values).at_path (key.1 :: keys) = some found := by
    rw [at_path_cons, hvalue]
    exact hat
  have hclean := dot_free_leaf hdots hsample hat
  refine ⟨trimmed keys, hkeys, trimmed_trimmed keys, heq ▸ split_leaf_text hclean hkeys, ?_, hne⟩
  rw [hvalues, ← heq]
  exact filterMap_congr fun other hother => leaf_at_text hdots hother hclean hkeys

/-- What counts at the path of a leaf is in the file. -/
theorem mem_file (hdots : DotFree samples) (hsample : sample ∈ samples)
    (hat : (JsonValue.obj sample.values).at_path (target :: path) = some leaf)
    (hleaf : leaf.is_object = false) (hpath : trimmed path ≠ []) :
    ((target, path_text path), counted_at samples target (trimmed path)) ∈ samples.foldl file_sample [] := by
  have hclean := dot_free_leaf hdots hsample hat
  refine mem_file_iff.mpr ⟨?_, filterMap_congr fun other hother => (leaf_at_text hdots hother hclean hpath).symm⟩
  obtain ⟨found, hfound⟩ := ne_none_iff_exists'.mp (Sample.counted_ne_none hat hleaf)
  exact ne_nil_of_mem (mem_filterMap.mpr ⟨sample, hsample, hfound⟩)

/-- Every path has leaves that can be folded. -/
def AllInRange (samples : List Sample) (aggregation : Aggregation) : Prop :=
  ∀ target path, path ≠ [] → FoldsInRange aggregation (counted_at samples target path)

/-- The aggregation raises unless the leaves at every path can be folded. -/
theorem aggregate_samples_isSome_iff (hdots : DotFree samples) (aggregation : Aggregation) :
    aggregate_samples samples aggregation = some aggregated ↔
      AllInRange samples aggregation ∧ aggregated = assign_all (aggregated_leaves samples aggregation) [] := by
  rw [aggregate_samples_eq_some_iff]
  refine and_congr_left' ⟨fun hall target path hpath => ?_, ?_⟩
  · by_cases hnil : counted_at samples target path = []
    · rw [hnil]
      exact foldsInRange_nil aggregation
    · obtain ⟨found, hfound⟩ := exists_mem_of_ne_nil _ hnil
      obtain ⟨sample, hsample, hcounted⟩ := mem_filterMap.mp hfound
      obtain ⟨keys, hat, hleaf, rfl⟩ := Sample.counted_some hcounted
      exact (aggregate_values_isSome_iff aggregation _).mp (hall _ (mem_file hdots hsample hat hleaf hpath))
  · rintro hall ⟨key, values⟩ hentry
    obtain ⟨path, hpath, _, _, hvalues, _⟩ := file_entry hdots hentry
    rw [aggregate_values_isSome_iff, hvalues]
    exact hall key.1 path hpath

/-- The paths that are written are those of the leaves, without the empty keys at their
beginning. -/
theorem written_iff (hdots : DotFree samples) (aggregation : Aggregation) {written : List String} :
    (∃ value, (written, value) ∈ aggregated_leaves samples aggregation) ↔
      ∃ sample ∈ samples, ∃ target path leaf,
        (JsonValue.obj sample.values).at_path (target :: path) = some leaf ∧ leaf.is_object = false ∧
          trimmed path ≠ [] ∧ written = target :: trimmed path := by
  constructor
  · rintro ⟨value, hmem⟩
    obtain ⟨⟨key, values⟩, hentry, heq⟩ := mem_map.mp hmem
    obtain ⟨path, hpath, _, hsplit, hvalues, hne⟩ := file_entry hdots ((Keyed.perm_sort _).mem_iff.mp hentry)
    obtain ⟨found, hfound⟩ := exists_mem_of_ne_nil _ (hvalues ▸ hne)
    obtain ⟨sample, hsample, hcounted⟩ := mem_filterMap.mp hfound
    obtain ⟨keys, hat, hleaf, rfl⟩ := Sample.counted_some hcounted
    refine ⟨sample, hsample, key.1, keys, found, hat, hleaf, hpath, ?_⟩
    rw [← hsplit]
    exact (congrArg Prod.fst heq).symm
  · rintro ⟨sample, hsample, target, path, leaf, hat, hleaf, hpath, rfl⟩
    have hentry := mem_file hdots hsample hat hleaf hpath
    rw [← split_leaf_text (dot_free_leaf hdots hsample hat) hpath]
    exact ⟨_, mem_map.mpr ⟨_, (Keyed.perm_sort _).mem_iff.mpr hentry, rfl⟩⟩

/-- Nothing is written below an empty key of a target. -/
theorem assigned_empty_key (hdots : DotFree samples) (aggregation : Aggregation) (target : String)
    (path : List String) : (JsonValue.obj (assign_all (aggregated_leaves samples aggregation) [])).at_path
      (target :: "" :: path) = none := by
  have hnone : (JsonValue.obj (assign_all (aggregated_leaves samples aggregation) [])).at_path [target, ""] =
      none := by
    rw [at_path_assign_all_beside]
    · rfl
    · intro entry hentry
      obtain ⟨_, _, other, longer, _, _, _, hlonger, hwritten⟩ := (written_iff hdots aggregation).mp ⟨entry.2, hentry⟩
      have hhead := @trimmed_head longer
      obtain ⟨key, rest, hcons⟩ := exists_cons_of_ne_nil hlonger
      rw [hcons] at hwritten hhead
      have hkey : key ≠ "" := fun heq => hhead (congrArg some heq)
      rw [hwritten, cons_prefix_cons, cons_prefix_cons, cons_prefix_cons, cons_prefix_cons]
      exact ⟨fun h => hkey h.2.1, fun h => hkey h.2.1.symm⟩
  have happend := at_path_append [target, ""] path
    (.obj (assign_all (aggregated_leaves samples aggregation) []))
  rw [hnone] at happend
  exact happend

theorem getLast?_values_at {newest : Sample} (hnewest : samples.getLast? = some newest)
    (hat : (JsonValue.obj newest.values).at_path (target :: path) = some leaf) :
    (values_at samples target path).getLast? = some leaf := by
  obtain ⟨earlier, rfl⟩ := getLast?_eq_some_iff.mp hnewest
  rw [values_at, filterMap_append, filterMap_cons, hat]
  exact getLast?_concat

/-- Without another leaf of this name, the leaves that count are the values at the path. -/
theorem Unaliased.counted_eq (h : Unaliased samples target path) (hpath : trimmed path = path) :
    counted_at samples target path = values_at samples target path := by
  refine filterMap_congr fun sample hsample => ?_
  obtain ⟨honly, hobject⟩ := h sample hsample
  cases hcounted : sample.counted target path with
  | some found =>
    obtain ⟨keys, hat, hleaf, hkeys⟩ := Sample.counted_some hcounted
    rw [honly keys found hat hleaf hkeys] at hat
    exact hat.symm
  | none =>
    by_contra hsome
    obtain ⟨found, hfound⟩ := ne_none_iff_exists'.mp (Ne.symm hsome)
    have hleaf : found.is_object = false := by
      cases found with
      | obj fields => exact absurd hfound (hobject fields)
      | _ => rfl
    have hne := Sample.counted_ne_none hfound hleaf
    rw [hpath] at hne
    exact hne hcounted

end Written

/-! ## What is aggregated at a path -/

section Aggregated

variable {samples : List Sample} {target : String} {path : List String} {sample newest : Sample}
  {leaf found : JsonValue}

/-- At the path of a leaf there is the fold of what counts there, unless the path begins
with an empty key or a sample has a leaf below it. -/
theorem assigned_at_iff {fold : JsonValue} (aggregation : Aggregation) (hsample : sample ∈ samples)
    (hdots : DotFree samples) (hpath : path ≠ [])
    (hat : (JsonValue.obj sample.values).at_path (target :: path) = some leaf)
    (hleaf : leaf.is_object = false) (hfold : fold.is_object = false) :
    (JsonValue.obj (assign_all (aggregated_leaves samples aggregation) [])).at_path (target :: path) =
        some fold ↔
      path.head? ≠ some "" ∧ ¬ Overgrown samples target path ∧
        (aggregate_values aggregation (counted_at samples target path)).getD .null = fold := by
  obtain ⟨key, keys, rfl⟩ := exists_cons_of_ne_nil hpath
  by_cases hkey : key = ""
  · rw [hkey, assigned_empty_key hdots aggregation target keys]
    exact iff_of_false (fun h => by cases h) fun h => h.1 rfl
  have hkept : trimmed (key :: keys) = key :: keys := trimmed_of_ne hkey keys
  have htrimmed : trimmed (key :: keys) ≠ [] := hkept.symm ▸ hpath
  have hentry := mem_file hdots hsample hat hleaf htrimmed
  have hwritten : (target :: split_path (path_text (key :: keys)), (aggregate_values aggregation
      (counted_at samples target (trimmed (key :: keys)))).getD .null) ∈ aggregated_leaves samples aggregation :=
    mem_map.mpr ⟨_, (Keyed.perm_sort _).mem_iff.mpr hentry, rfl⟩
  rw [split_leaf_text (dot_free_leaf hdots hsample hat) htrimmed, hkept] at hwritten
  rw [at_path_assign_all (aggregated_leaves_ordered samples aggregation) hwritten (cons_ne_nil _ _) hfold]
  have hhead : (key :: keys).head? ≠ some "" := fun heq => hkey (Option.some.inj heq)
  rw [and_iff_right hhead]
  refine and_congr_left fun _ => ?_
  constructor
  · rintro hall ⟨grown, hgrown, longer, below, hbelow, hobject, hprefix, hne⟩
    have hlonger : trimmed longer ≠ [] := by
      intro hnil
      rw [hnil] at hprefix
      exact hpath (prefix_nil.mp hprefix)
    obtain ⟨value, hvalue⟩ := (written_iff hdots aggregation).mpr
      ⟨grown, hgrown, target, longer, below, hbelow, hobject, hlonger, rfl⟩
    have heq := hall _ hvalue (cons_prefix_cons.mpr ⟨rfl, hprefix⟩)
    exact hne (cons.inj heq).2
  · intro hnone entry hentry hprefix
    obtain ⟨grown, hgrown, found, longer, below, hbelow, hobject, _, heq⟩ :=
      (written_iff hdots aggregation).mp ⟨entry.2, hentry⟩
    rw [heq] at hprefix ⊢
    obtain ⟨htarget, hprefix⟩ := cons_prefix_cons.mp hprefix
    rw [← htarget] at hbelow ⊢
    by_contra hne
    exact hnone ⟨grown, hgrown, longer, below, hbelow, hobject, hprefix,
      fun heq => hne (congrArg (target :: ·) heq)⟩

/-- The aggregated observation has at the path the fold of what the samples have there. -/
def AggregatedLeaf (samples : List Sample) (aggregation : Aggregation) (target : String)
    (path : List String) : Prop :=
  ∃ aggregated fold, aggregate_samples samples aggregation = some aggregated ∧
    aggregate_values aggregation (values_at samples target path) = some fold ∧
      (JsonValue.obj aggregated).at_path (target :: path) = some fold

/-- A sample without an empty key for the target: its paths are what is left of them. -/
theorem trimmed_of_no_empty_key (hempty : (JsonValue.obj sample.values).at_path [target, ""] = none)
    (hat : (JsonValue.obj sample.values).at_path (target :: path) = some found) : trimmed path = path := by
  cases path with
  | nil => rfl
  | cons key keys =>
    refine trimmed_of_ne (fun hkey => ?_) keys
    have happend := at_path_append [target, ""] keys (.obj sample.values)
    rw [hempty] at happend
    rw [hkey] at hat
    cases hat.symm.trans happend

end Aggregated

/-! ## Samples of one target -/

theorem one_load_keyed (load : JsonValue) (h : load.Keyed) :
    (JsonValue.obj [("s1", .obj [("load", load)])]).Keyed := by
  simp [Keyed, KeyedFields, h]

theorem peak_keyed : (JsonValue.obj [("peak", .num 9)]).Keyed := by
  simp [Keyed, KeyedFields]

/-- A sample with one value, at one path. -/
def one_value (observed_at : ℤ) (value : ℚ) : Sample where
  observed_at := observed_at
  values := [("s1", .obj [("load", .num value)])]
  keyed := one_load_keyed (.num value) trivial

/-- A sample with an object at this path. -/
def load_object : Sample where
  observed_at := 0
  values := [("s1", .obj [("load", .obj [("peak", .num 9)])])]
  keyed := one_load_keyed _ peak_keyed

theorem two_values_free : DotFree [one_value 0 1, one_value 1 3] := by
  unfold DotFree
  decide +kernel

theorem two_values_in_range : AllInRange [one_value 0 1, one_value 1 3] .mean := by
  have hsome : (aggregate_samples [one_value 0 1, one_value 1 3] .mean).isSome = true := by decide +kernel
  obtain ⟨aggregated, haggregated⟩ := isSome_iff_exists.mp hsome
  exact ((aggregate_samples_isSome_iff two_values_free .mean).mp haggregated).1

end MininetAi
