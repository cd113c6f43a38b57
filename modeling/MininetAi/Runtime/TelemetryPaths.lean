/-
Paths of nested objects, as the telemetry pipeline reads and writes them.

`_assign` writes along a path and replaces what is not an object on its way. So it changes
what a value has at this path, below it, and above it, and nothing beside it. A sequence
of assignments in which no path comes after one of its continuations keeps every value
that no later path continues.

`_flatten` names the leaves of a value by their dotted paths, from which leading empty
keys are missing. Without dots in the keys `split` gives the path back.
-/
import MininetAi.Runtime.Telemetry

set_option autoImplicit false

namespace MininetAi

open List

/-! ## Reading along a path -/

/-- What a value has at a path. -/
def JsonValue.at_path : List String → JsonValue → Option JsonValue
  | [], value => some value
  | key :: keys, value => (value.get key).bind (JsonValue.at_path keys)

/-- A value is an object. -/
def JsonValue.is_object : JsonValue → Bool
  | .obj _ => true
  | _ => false

namespace JsonValue

variable {value : JsonValue} {fields : List (String × JsonValue)} {key : String} {path keys : List String}

theorem at_path_cons : (JsonValue.obj fields).at_path (key :: keys) = (fields.lookup key).bind (at_path keys) :=
  rfl

theorem at_path_append (path keys : List String) :
    ∀ value : JsonValue, value.at_path (path ++ keys) = (value.at_path path).bind (at_path keys) := by
  induction path with
  | nil => exact fun _ => rfl
  | cons key path ih =>
    intro value
    rw [cons_append, at_path, at_path]
    cases value.get key with
    | none => rfl
    | some child => exact ih child

/-- Only an object has something below it. -/
theorem at_path_cons_of_leaf (h : value.is_object = false) : value.at_path (key :: keys) = none := by
  cases value with
  | obj fields => cases h
  | _ => rfl

/-- The fields of a value, which a leaf does not have. -/
theorem of_fields {P : JsonValue → Prop} (leaf : ∀ value, value.is_object = false → P value)
    (obj : ∀ fields, (∀ entry ∈ fields, P entry.2) → P (.obj fields)) : ∀ value, P value
  | .null => leaf _ rfl
  | .bool _ => leaf _ rfl
  | .num _ => leaf _ rfl
  | .str _ => leaf _ rfl
  | .arr _ => leaf _ rfl
  | .obj fields => obj fields fun entry _ => of_fields leaf obj entry.2
termination_by value => sizeOf value
decreasing_by
  have hentry := sizeOf_lt_of_mem ‹entry ∈ fields›
  have hvalue : sizeOf entry = 1 + sizeOf entry.1 + sizeOf entry.2 := rfl
  rw [JsonValue.obj.sizeOf_spec]
  omega

end JsonValue

/-! ## Writing along a path -/

section Assign

variable {value : JsonValue} {parts path : List String}

/-- The object that `_assign` goes on with. -/
def child_fields (part : String) (current : List (String × JsonValue)) : List (String × JsonValue) :=
  match current.lookup part with
  | some (.obj fields) => fields
  | _ => []

/-- Of an object it keeps what is there; a leaf has nothing below it. -/
theorem at_path_child_fields (part : String) (current : List (String × JsonValue)) {key : String}
    {keys : List String} : (JsonValue.obj (child_fields part current)).at_path (key :: keys) =
      (JsonValue.obj current).at_path (part :: key :: keys) := by
  rw [child_fields, @JsonValue.at_path_cons current]
  cases current.lookup part with
  | none => rfl
  | some child =>
    cases child with
    | obj fields => rfl
    | _ => rfl

theorem assign_path_cons {part : String} (h : parts ≠ []) (current : List (String × JsonValue)) :
    assign_path value (part :: parts) current =
      dict_set part (.obj (assign_path value parts (child_fields part current))) current := by
  cases parts with
  | nil => exact absurd rfl h
  | cons next parts => rfl

/-- What is written is there. -/
theorem at_path_assign_self (h : parts ≠ []) : ∀ current : List (String × JsonValue),
    (JsonValue.obj (assign_path value parts current)).at_path parts = some value := by
  induction parts with
  | nil => exact absurd rfl h
  | cons part parts ih =>
    intro current
    by_cases hrest : parts = []
    · rw [hrest, assign_path, JsonValue.at_path_cons, lookup_dict_set_self]
      rfl
    · rw [assign_path_cons hrest, JsonValue.at_path_cons, lookup_dict_set_self]
      exact ih hrest _

/-- Above it there is an object. -/
theorem at_path_assign_above (hpath : path ≠ []) (h : path <+: parts) (hne : path ≠ parts) :
    ∀ current : List (String × JsonValue), ∃ fields,
      (JsonValue.obj (assign_path value parts current)).at_path path = some (.obj fields) := by
  induction path generalizing parts with
  | nil => exact absurd rfl hpath
  | cons key path ih =>
    intro current
    obtain ⟨rest, rfl⟩ := h
    rw [cons_append] at hne ⊢
    have hrest : path ++ rest ≠ [] := by
      intro hnil
      rw [append_eq_nil_iff] at hnil
      rw [hnil.1, hnil.2] at hne
      exact hne rfl
    rw [assign_path_cons hrest, JsonValue.at_path_cons, lookup_dict_set_self]
    by_cases hnil : path = []
    · rw [hnil]
      exact ⟨_, rfl⟩
    · exact ih hnil (prefix_append path rest) (fun heq => hne (congrArg (key :: ·) heq)) _

/-- Beside it nothing changes. -/
theorem at_path_assign_beside (h : ¬ parts <+: path) (h' : ¬ path <+: parts) :
    ∀ current : List (String × JsonValue),
      (JsonValue.obj (assign_path value parts current)).at_path path =
        (JsonValue.obj current).at_path path := by
  induction path generalizing parts with
  | nil => exact absurd (List.nil_prefix) h'
  | cons key path ih =>
    intro current
    cases parts with
    | nil => exact absurd (List.nil_prefix) h
    | cons part parts =>
      rw [cons_prefix_cons] at h h'
      by_cases hrest : parts = []
      · have hkey : key ≠ part := fun heq => h ⟨heq.symm, hrest ▸ List.nil_prefix⟩
        rw [hrest, assign_path, JsonValue.at_path_cons, JsonValue.at_path_cons,
          lookup_dict_set_of_ne hkey]
      · rw [assign_path_cons hrest, JsonValue.at_path_cons, lookup_dict_set]
        by_cases hkey : key = part
        · rw [if_pos hkey, hkey]
          have hbelow : ¬ parts <+: path := fun hprefix => h ⟨hkey.symm, hprefix⟩
          have habove : ¬ path <+: parts := fun hprefix => h' ⟨hkey, hprefix⟩
          cases path with
          | nil => exact absurd List.nil_prefix habove
          | cons next path => exact (ih hbelow habove _).trans (at_path_child_fields part current)
        · rw [if_neg hkey, JsonValue.at_path_cons]

end Assign

/-! ## A sequence of assignments -/

section AssignAll

variable {assigns : List (List String × JsonValue)} {path : List String} {value : JsonValue}

/-- One assignment after another. -/
def assign_all (assigns : List (List String × JsonValue)) (current : List (String × JsonValue)) :
    List (String × JsonValue) :=
  assigns.foldl (fun current entry => assign_path entry.2 entry.1 current) current

/-- A path that none of them touches. -/
theorem at_path_assign_all_beside (h : ∀ entry ∈ assigns, ¬ entry.1 <+: path ∧ ¬ path <+: entry.1) :
    ∀ current : List (String × JsonValue),
      (JsonValue.obj (assign_all assigns current)).at_path path = (JsonValue.obj current).at_path path := by
  induction assigns with
  | nil => exact fun _ => rfl
  | cons entry assigns ih =>
    intro current
    obtain ⟨⟨hbelow, habove⟩, hrest⟩ := forall_mem_cons.mp h
    rw [assign_all, foldl_cons]
    exact (ih hrest _).trans (at_path_assign_beside hbelow habove current)

/-- Assignments of which none is at the path or above it: they keep what is there, or make
it an object. -/
theorem at_path_assign_all_after (hpath : path ≠ []) (h : ∀ entry ∈ assigns, ¬ entry.1 <+: path) :
    ∀ current : List (String × JsonValue), ((∀ entry ∈ assigns, ¬ path <+: entry.1) ∧
        (JsonValue.obj (assign_all assigns current)).at_path path = (JsonValue.obj current).at_path path) ∨
      ((∃ entry ∈ assigns, path <+: entry.1) ∧
        ∃ fields, (JsonValue.obj (assign_all assigns current)).at_path path = some (.obj fields)) := by
  induction assigns with
  | nil => exact fun _ => .inl ⟨fun _ hmem => (by cases hmem), rfl⟩
  | cons entry assigns ih =>
    intro current
    obtain ⟨hfirst, hrest⟩ := forall_mem_cons.mp h
    rw [assign_all, foldl_cons]
    have hlater := ih hrest (assign_path entry.2 entry.1 current)
    rw [assign_all] at hlater
    by_cases hbelow : path <+: entry.1
    · have hne : path ≠ entry.1 := fun heq => hfirst (heq ▸ prefix_refl _)
      refine .inr ⟨⟨entry, mem_cons_self, hbelow⟩, ?_⟩
      rcases hlater with ⟨_, hsame⟩ | ⟨_, hobject⟩
      · rw [hsame]
        exact at_path_assign_above hpath hbelow hne current
      · exact hobject
    · rcases hlater with ⟨hnone, hsame⟩ | ⟨⟨other, hmem, hother⟩, hobject⟩
      · exact .inl ⟨forall_mem_cons.mpr ⟨hbelow, hnone⟩,
          hsame.trans (at_path_assign_beside hfirst hbelow current)⟩
      · exact .inr ⟨⟨other, mem_cons_of_mem _ hmem, hother⟩, hobject⟩

/-- Where no path comes after one of its continuations, a leaf that was assigned is there in
the end exactly when nothing was assigned below it. -/
theorem at_path_assign_all (hordered : assigns.Pairwise fun a b => ¬ b.1 <+: a.1)
    (hmem : (path, value) ∈ assigns) (hpath : path ≠ []) {leaf : JsonValue} (hleaf : leaf.is_object = false)
    (current : List (String × JsonValue)) :
    (JsonValue.obj (assign_all assigns current)).at_path path = some leaf ↔
      (∀ entry ∈ assigns, path <+: entry.1 → entry.1 = path) ∧ value = leaf := by
  obtain ⟨before, later, rfl⟩ := append_of_mem hmem
  rw [pairwise_append, pairwise_cons] at hordered
  obtain ⟨_, ⟨hlater, _⟩, hbefore⟩ := hordered
  have hearly : ∀ entry ∈ before, ¬ path <+: entry.1 :=
    fun entry hentry => hbefore entry hentry _ mem_cons_self
  rw [assign_all, foldl_append, foldl_cons]
  have hassigned := @at_path_assign_self value path hpath
    (before.foldl (fun current entry => assign_path entry.2 entry.1 current) current)
  rcases at_path_assign_all_after hpath hlater _ with ⟨hnone, hsame⟩ | ⟨⟨entry, hentry, hbelow⟩, fields, hobject⟩
  · rw [assign_all] at hsame
    rw [hsame, hassigned, Option.some_inj]
    refine (and_iff_right fun entry hentry hprefix => ?_).symm
    rcases mem_append.mp hentry with hentry | hentry
    · exact absurd hprefix (hearly entry hentry)
    rcases mem_cons.mp hentry with heq | hentry
    · rw [heq]
    · exact absurd hprefix (hnone entry hentry)
  · rw [assign_all] at hobject
    rw [hobject]
    refine iff_of_false (fun heq => ?_) fun hall => ?_
    · rw [← Option.some.inj heq] at hleaf
      cases hleaf
    · have heq := hall.1 entry (mem_append_right _ (mem_cons_of_mem _ hentry)) hbelow
      exact hlater entry hentry (heq ▸ prefix_refl _)

end AssignAll

/-! ## Texts of paths -/

/-- The text under which a path is filed. -/
def path_text (path : List String) : PathText := path.foldl dotted []

/-- What is left of a path in its text. -/
def trimmed (path : List String) : List String := path.dropWhile fun key => key = ""

variable {text : PathText} {fields : List (String × JsonValue)} {entry : String × JsonValue}
  {found : PathText × JsonValue} {path : List String}

theorem dotted_ne_nil (h : text ≠ []) (key : String) : dotted text key ≠ [] := by
  rw [dotted, if_neg h]
  exact fun hnil => h (append_eq_nil_iff.mp hnil).1

theorem foldl_dotted (path : List String) : ∀ text : PathText, text ≠ [] →
    path.foldl dotted text = ['.'].intercalate (text :: path.map String.toList) := by
  induction path with
  | nil => exact fun text _ => intercalate_singleton.symm
  | cons key path ih =>
    intro text htext
    rw [foldl_cons, ih _ (dotted_ne_nil htext key), map_cons, intercalate_cons_cons]
    rw [dotted, if_neg htext]
    cases path with
    | nil => rw [map_nil, intercalate_singleton, intercalate_singleton, append_assoc]; rfl
    | cons next path =>
      rw [map_cons, intercalate_cons_cons, intercalate_cons_cons]
      simp only [append_assoc, cons_append, nil_append]

theorem trimmed_of_ne {key : String} (h : key ≠ "") (path : List String) :
    trimmed (key :: path) = key :: path :=
  dropWhile_cons_of_neg (by simpa using h)

/-- The text has the keys that are left, with dots between them. -/
theorem path_text_eq (path : List String) :
    path_text path = ['.'].intercalate ((trimmed path).map String.toList) := by
  induction path with
  | nil => rfl
  | cons key path ih =>
    by_cases h : key = ""
    · rw [h]
      exact ih
    · have htext : key.toList ≠ [] := by simpa using h
      rw [trimmed_of_ne h, map_cons, ← foldl_dotted path _ htext]
      rfl

theorem trimmed_head {path : List String} : (trimmed path).head? ≠ some "" := by
  intro h
  have hkept := head?_dropWhile_not (fun key : String => decide (key = "")) path
  rw [trimmed] at h
  rw [h] at hkept
  cases hkept

theorem path_text_eq_nil_iff : path_text path = [] ↔ trimmed path = [] := by
  rw [path_text_eq]
  constructor
  · intro htext
    have hhead := @trimmed_head path
    generalize trimmed path = keys at htext hhead
    cases keys with
    | nil => rfl
    | cons key keys =>
      have hkey : key.toList ≠ [] := by simpa using hhead
      rw [map_cons, ← foldl_dotted keys _ hkey] at htext
      have hne : ∀ (keys : List String) (text : PathText), text ≠ [] → keys.foldl dotted text ≠ [] := by
        intro keys
        induction keys with
        | nil => exact fun _ h => h
        | cons key keys ih => exact fun text h => ih _ (dotted_ne_nil h key)
      exact absurd htext (hne keys _ hkey)
  · intro hnil
    rw [hnil]
    rfl

/-- Without dots in its keys the text gives back what is left of the path. -/
theorem split_path_text (hdots : ∀ key ∈ path, '.' ∉ key.toList)
    (hpath : trimmed path ≠ []) : split_path (path_text path) = trimmed path := by
  have hkeys : ∀ key ∈ trimmed path, '.' ∉ key.toList :=
    fun key hkey => hdots key ((dropWhile_suffix _).subset hkey)
  have hnone : ∀ text ∈ (trimmed path).map String.toList, '.' ∉ text := by
    intro text htext
    obtain ⟨key, hkey, rfl⟩ := mem_map.mp htext
    exact hkeys key hkey
  have hne : (trimmed path).map String.toList ≠ [] := fun hnil => hpath (map_eq_nil_iff.mp hnil)
  rw [split_path, path_text_eq, splitOn_intercalate '.' hnone hne, map_map]
  have hround : String.ofList ∘ String.toList = id := funext fun _ => String.ofList_toList
  rw [hround, map_id]

theorem intercalate_prefix {α : Type} (sep : List α) {l l' : List (List α)} (h : l <+: l') (hl : l ≠ []) :
    sep.intercalate l <+: sep.intercalate l' := by
  induction l generalizing l' with
  | nil => exact absurd rfl hl
  | cons a l ih =>
    obtain ⟨rest, rfl⟩ := h
    cases l with
    | nil =>
      rw [intercalate_singleton]
      cases rest with
      | nil => exact (@intercalate_singleton _ sep _) ▸ prefix_refl _
      | cons b rest =>
        rw [cons_append, nil_append, intercalate_cons_cons, append_assoc]
        exact prefix_append a _
    | cons b l =>
      rw [cons_append, cons_append, intercalate_cons_cons, intercalate_cons_cons]
      have hrest := ih (prefix_append (b :: l) rest) (cons_ne_nil b l)
      rw [cons_append] at hrest
      exact (prefix_append_right_inj _).mpr hrest

/-- A path that comes first is a text that comes first. -/
theorem text_prefix_of_split {text' : PathText} (h : split_path text <+: split_path text') :
    text <+: text' := by
  have hsplit : text.splitOn '.' <+: text'.splitOn '.' := by
    have hmap := h.map String.toList
    rw [split_path, split_path, map_map, map_map] at hmap
    have hround : String.toList ∘ String.ofList = id := funext fun _ => String.toList_ofList
    rw [hround, map_id, map_id] at hmap
    exact hmap
  have hprefix := intercalate_prefix ['.'] hsplit (splitOn_ne_nil '.' text)
  rw [intercalate_splitOn, intercalate_splitOn] at hprefix
  exact hprefix

/-! ## Flattened values -/

mutual

/-- No key of an object contains a dot. -/
def JsonValue.dot_free : JsonValue → Bool
  | .obj fields => JsonValue.dot_free_fields fields
  | _ => true

def JsonValue.dot_free_fields : List (String × JsonValue) → Bool
  | [] => true
  | (key, value) :: fields =>
    !key.toList.contains '.' && (value.dot_free && JsonValue.dot_free_fields fields)

end

theorem JsonValue.dot_free_of_mem (h : JsonValue.dot_free_fields fields = true)
    (hmem : entry ∈ fields) : '.' ∉ entry.1.toList ∧ entry.2.dot_free = true := by
  induction fields with
  | nil => cases hmem
  | cons first fields ih =>
    obtain ⟨key, value⟩ := first
    rw [JsonValue.dot_free_fields, Bool.and_eq_true, Bool.and_eq_true] at h
    obtain ⟨hkey, hvalue, hrest⟩ := h
    rcases mem_cons.mp hmem with rfl | hmem
    · have hkey : key.toList.contains '.' = false := by simpa using hkey
      exact ⟨fun hdot => Bool.false_ne_true (hkey.symm.trans (contains_iff_mem.mpr hdot)), hvalue⟩
    · exact ih hrest hmem

/-- Nor does any key on a path. -/
theorem JsonValue.dot_free_path (path : List String) : ∀ {value child : JsonValue}, value.dot_free = true →
    value.at_path path = some child → ∀ key ∈ path, '.' ∉ key.toList := by
  induction path with
  | nil => exact fun _ _ _ hmem => by cases hmem
  | cons key path ih =>
    intro value child hfree hat
    cases value with
    | obj fields =>
      rw [JsonValue.dot_free] at hfree
      rw [JsonValue.at_path_cons] at hat
      obtain ⟨next, hnext, hat⟩ := Option.bind_eq_some_iff.mp hat
      obtain ⟨_, _, heq, _⟩ := List.lookup_eq_some_iff.mp hnext
      have hmem : (key, next) ∈ fields := by
        rw [heq]
        exact mem_append_right _ mem_cons_self
      obtain ⟨hkey, hvalue⟩ := JsonValue.dot_free_of_mem hfree hmem
      exact forall_mem_cons.mpr ⟨hkey, ih hvalue hat⟩
    | _ => cases hat

theorem JsonValue.keyed_fields (h : JsonValue.KeyedFields fields) (hmem : entry ∈ fields) :
    entry.2.Keyed := by
  induction fields with
  | nil => cases hmem
  | cons first fields ih =>
    rcases mem_cons.mp hmem with rfl | hmem
    · exact h.1
    · exact ih h.2 hmem

theorem flatten_fields_eq (path : PathText) (fields : List (String × JsonValue)) :
    ∀ result, flatten_fields path result fields =
      fields.foldl (fun result entry => dict_update result (flatten (dotted path entry.1) entry.2)) result := by
  induction fields with
  | nil => exact fun _ => rfl
  | cons entry fields ih => exact fun result => ih _

theorem nodup_flatten (value : JsonValue) (path : PathText) : ((flatten path value).map Prod.fst).Nodup := by
  cases value with
  | obj fields =>
    have hfold : ∀ result : List (PathText × JsonValue), (result.map Prod.fst).Nodup →
        ((fields.foldl (fun result entry => dict_update result (flatten (dotted path entry.1) entry.2))
          result).map Prod.fst).Nodup := by
      induction fields with
      | nil => exact fun _ h => h
      | cons entry fields ih => exact fun result h => ih _ (nodup_dict_update _ result h)
    rw [flatten, flatten_fields_eq]
    exact hfold [] nodup_nil
  | _ =>
    rw [flatten]
    split
    · exact nodup_nil
    · exact nodup_singleton _

mutual

/-- The leaves of a value with their paths, in the order in which it is written. -/
def JsonValue.leaves : JsonValue → List (List String × JsonValue)
  | .obj fields => JsonValue.leaves_fields fields
  | .null => [([], .null)]
  | .bool b => [([], .bool b)]
  | .num q => [([], .num q)]
  | .str s => [([], .str s)]
  | .arr values => [([], .arr values)]

def JsonValue.leaves_fields : List (String × JsonValue) → List (List String × JsonValue)
  | [] => []
  | (key, value) :: fields =>
    value.leaves.map (fun leaf => (key :: leaf.1, leaf.2)) ++ JsonValue.leaves_fields fields

end

theorem JsonValue.leaves_of_leaf {value : JsonValue} (h : value.is_object = false) :
    value.leaves = [([], value)] := by
  cases value with
  | obj fields => cases h
  | _ => rfl

theorem JsonValue.leaves_fields_eq (fields : List (String × JsonValue)) :
    JsonValue.leaves_fields fields =
      fields.flatMap fun entry => entry.2.leaves.map fun leaf => (entry.1 :: leaf.1, leaf.2) := by
  induction fields with
  | nil => rfl
  | cons entry fields ih => rw [flatMap_cons, ← ih]; rfl

/-- The leaves are what a value has at its paths and is no object. -/
theorem JsonValue.mem_leaves (value : JsonValue) : ∀ {path : List String} {leaf : JsonValue}, value.Keyed →
    ((path, leaf) ∈ value.leaves ↔ value.at_path path = some leaf ∧ leaf.is_object = false) := by
  induction value using JsonValue.of_fields with
  | leaf value hleaf =>
    intro path leaf _
    rw [JsonValue.leaves_of_leaf hleaf, mem_singleton, Prod.mk.injEq]
    cases path with
    | nil =>
      constructor
      · rintro ⟨_, rfl⟩
        exact ⟨rfl, hleaf⟩
      · rintro ⟨hat, _⟩
        exact ⟨rfl, (Option.some.inj hat).symm⟩
    | cons key path =>
      rw [JsonValue.at_path_cons_of_leaf hleaf]
      exact iff_of_false (fun h => cons_ne_nil key path h.1) fun h => by cases h.1
  | obj fields ih =>
    intro path leaf hkeyed
    rw [JsonValue.leaves, JsonValue.leaves_fields_eq, mem_flatMap]
    constructor
    · rintro ⟨entry, hentry, hmem⟩
      obtain ⟨⟨keys, found⟩, hfound, heq⟩ := mem_map.mp hmem
      cases heq
      obtain ⟨hat, hleaf⟩ := (ih entry hentry (JsonValue.keyed_fields hkeyed.2 hentry)).mp hfound
      refine ⟨?_, hleaf⟩
      rw [JsonValue.at_path_cons, (lookup_eq_some_iff hkeyed.1).mpr hentry]
      exact hat
    · rintro ⟨hat, hleaf⟩
      cases path with
      | nil =>
        rw [← Option.some.inj hat] at hleaf
        cases hleaf
      | cons key keys =>
        rw [JsonValue.at_path_cons] at hat
        obtain ⟨child, hchild, hat⟩ := Option.bind_eq_some_iff.mp hat
        have hentry := (lookup_eq_some_iff hkeyed.1).mp hchild
        exact ⟨(key, child), hentry, mem_map.mpr ⟨(keys, leaf),
          (ih _ hentry (JsonValue.keyed_fields hkeyed.2 hentry)).mpr ⟨hat, hleaf⟩, rfl⟩⟩

/-- The last one of the leaves whose paths are as asked for. -/
def last_leaf (asked : List String → Bool) (leaves : List (List String × JsonValue)) : Option JsonValue :=
  ((leaves.filter fun leaf => asked leaf.1).getLast?).map Prod.snd

theorem last_leaf_append (asked : List String → Bool) (first second : List (List String × JsonValue)) :
    last_leaf asked (first ++ second) = (last_leaf asked second).or (last_leaf asked first) := by
  unfold last_leaf
  rw [filter_append, getLast?_append]
  cases (second.filter fun leaf => asked leaf.1).getLast? with
  | none => rfl
  | some leaf => rfl

/-- What a flattened value has under a text is its last leaf with this text. -/
theorem lookup_flatten (value : JsonValue) : ∀ path : PathText, (flatten path value).lookup text =
    last_leaf (fun keys => text ≠ [] ∧ keys.foldl dotted path = text) value.leaves := by
  induction value using JsonValue.of_fields with
  | leaf value hleaf =>
    intro path
    have hflatten : flatten path value = if path = [] then [] else [(path, value)] := by
      cases value with
      | obj fields => cases hleaf
      | _ => rfl
    rw [hflatten, JsonValue.leaves_of_leaf hleaf, last_leaf, filter_singleton]
    by_cases hpath : path = []
    · rw [if_pos hpath, hpath]
      by_cases htext : text = []
      · simp [htext]
      · simp [htext, Ne.symm htext]
    · rw [if_neg hpath]
      by_cases heq : path = text
      · simp [← heq, hpath]
      · simp [heq, lookup_cons, beq_false_of_ne (Ne.symm heq)]
  | obj fields ih =>
    intro path
    rw [flatten, flatten_fields_eq, JsonValue.leaves]
    have hfold : ∀ result : List (PathText × JsonValue),
        (fields.foldl (fun result entry => dict_update result (flatten (dotted path entry.1) entry.2))
          result).lookup text = (last_leaf (fun keys => text ≠ [] ∧ keys.foldl dotted path = text)
            (JsonValue.leaves_fields fields)).or (result.lookup text) := by
      induction fields with
      | nil => exact fun _ => rfl
      | cons entry fields ihf =>
        intro result
        obtain ⟨hfirst, hrest⟩ := forall_mem_cons.mp ih
        rw [foldl_cons, ihf hrest, lookup_dict_update _ _ (nodup_flatten _ _), hfirst,
          JsonValue.leaves_fields, last_leaf_append, Option.or_assoc]
        congr 2
        rw [last_leaf, last_leaf, filter_map, getLast?_map, Option.map_map]
        rfl
    rw [hfold, lookup_nil, Option.or_none]

end MininetAi
