/-
What is written determines the value: a text that begins with a value, in a place where a value
may end, has one value there (`dumps_split`), and so has a sequence of bytes (`encode_dumps_inj`).

The code of a string is that of its code points, none of which begins another one; a number ends
where no character of a number follows; and the first character tells the kind of a value.
-/
import MininetAi.Lib.IntegerText
import MininetAi.Lib.Json

set_option autoImplicit false

namespace Json

/-! ## Strings -/

theorem escape_char_head : ∀ c ∈ escaped_chars, (escape_char c).head? = some '\\' :=
  Text.forall_of_all (by decide)

variable {c d : Char} {p q : CodePoint} {s t : Text} {l l' : List Char} {v w : Value}
  {fields : List (Text × Value)}

/-- No escape begins another one. -/
theorem escape_char_code (hc : c ∈ escaped_chars) (hd : d ∈ escaped_chars)
    (h : escape_char c <+: escape_char d) : c = d := by
  have hall : (escaped_chars.all fun c => escaped_chars.all fun d =>
      decide (escape_char c <+: escape_char d → c = d)) = true := by
    decide
  exact of_decide_eq_true (List.all_eq_true.mp (List.all_eq_true.mp hall c hc) d hd) h

theorem escape_char_inj_of_start (h : escape_char c <+: escape_char d) : c = d := by
  obtain ⟨u, hu⟩ := h
  by_cases hc : c ∈ escaped_chars
  · by_cases hd : d ∈ escaped_chars
    · exact escape_char_code hc hd ⟨u, hu⟩
    · -- a backslash is itself escaped
      have hbackslash := congrArg List.head? hu
      rw [List.head?_append, escape_char_head c hc, escape_char_of_not_mem hd] at hbackslash
      have heq : d = '\\' := by simpa using hbackslash.symm
      rw [heq] at hd
      exact absurd (by decide) hd
  · rw [escape_char_of_not_mem hc] at hu
    by_cases hd : d ∈ escaped_chars
    · have hbackslash := congrArg List.head? hu
      rw [escape_char_head d hd] at hbackslash
      have heq : c = '\\' := by simpa using hbackslash
      rw [heq] at hc
      exact absurd (by decide) hc
    · rw [escape_char_of_not_mem hd] at hu
      have heq := congrArg List.head? hu
      simpa using heq

theorem escape_char_ne_nil (c : Char) : escape_char c ≠ [] := by
  unfold escape_char
  split_ifs <;> simp

theorem escape_ne_nil (p : CodePoint) : p.escape ≠ [] := by
  cases p with
  | surrogate n => exact List.cons_ne_nil _ _
  | scalar c =>
    rw [CodePoint.escape, ne_eq, List.map_eq_nil_iff]
    exact escape_char_ne_nil c

theorem escape_inj_of_start (h : p.escape <+: q.escape) : p = q := by
  obtain ⟨u, hu⟩ := h
  cases p with
  | surrogate m =>
    cases q with
    | surrogate n => exact (List.cons.inj hu).1
    | scalar d =>
      obtain ⟨a, b, -, ha, -⟩ := List.map_eq_append_iff.mp hu.symm
      cases a with
      | nil => cases ha
      | cons x a => cases (List.cons.inj ha).1
  | scalar c =>
    cases q with
    | surrogate n =>
      have hhead := congrArg List.head? hu
      rw [List.head?_append_of_ne_nil _ (escape_ne_nil _), CodePoint.escape, List.head?_map] at hhead
      rcases hc : (escape_char c).head? with _ | x
      · rw [hc] at hhead
        cases hhead
      · rw [hc] at hhead
        cases hhead
    | scalar d =>
      obtain ⟨a, b, hab, ha, -⟩ := List.map_eq_append_iff.mp hu.symm
      have hca : a = escape_char c := (List.map_inj_right fun x y hxy => CodePoint.scalar.inj hxy).mp ha
      rw [hca] at hab
      rw [escape_char_inj_of_start ⟨b, hab.symm⟩]

/-- What begins with the escape of a code point begins with no other one. -/
theorem escape_split (h : p.escape ++ s = q.escape ++ t) : p = q ∧ s = t := by
  have heq : p = q := by
    rcases List.append_eq_append_iff.mp h with ⟨u, hu, -⟩ | ⟨u, hu, -⟩
    · exact escape_inj_of_start ⟨u, hu.symm⟩
    · exact (escape_inj_of_start ⟨u, hu.symm⟩).symm
  rw [heq] at h
  exact ⟨heq, List.append_cancel_left h⟩

/-- The quote ends a string: no code point is written with it at its start. -/
theorem escape_head (p : CodePoint) : p.escape.head? ≠ some (.scalar '"') := by
  cases p with
  | surrogate n => simp [CodePoint.escape]
  | scalar c =>
    rw [CodePoint.escape, List.head?_map]
    by_cases hc : c ∈ escaped_chars
    · rw [escape_char_head c hc]
      simp
    · rw [escape_char_of_not_mem hc]
      have hne : c ≠ '"' := fun heq => hc (heq ▸ by decide)
      simpa using hne

/-- A string is read to its end. -/
theorem dumps_str_split {s' t' : Text} (h : dumps_str s ++ t = dumps_str s' ++ t') :
    s = s' ∧ t = t' := by
  have hbody : s.flatMap CodePoint.escape ++ .scalar '"' :: t = s'.flatMap CodePoint.escape ++ .scalar '"' :: t' := by
    simpa [dumps_str] using h
  clear h
  induction s generalizing s' with
  | nil =>
    cases s' with
    | nil => exact ⟨rfl, (List.cons.inj hbody).2⟩
    | cons p s' =>
      have hhead := congrArg List.head? hbody
      rw [List.flatMap_cons, List.append_assoc, List.head?_append_of_ne_nil _ (escape_ne_nil p)] at hhead
      exact absurd hhead.symm (escape_head p)
  | cons p s ih =>
    cases s' with
    | nil =>
      have hhead := congrArg List.head? hbody
      rw [List.flatMap_cons, List.append_assoc, List.head?_append_of_ne_nil _ (escape_ne_nil p)] at hhead
      exact absurd hhead (escape_head p)
    | cons q s' =>
      rw [List.flatMap_cons, List.flatMap_cons, List.append_assoc, List.append_assoc] at hbody
      obtain ⟨rfl, hrest⟩ := escape_split hbody
      obtain ⟨rfl, rfl⟩ := ih hrest
      exact ⟨rfl, rfl⟩

/-! ## Numbers -/

/-- A place where a value may end: nothing follows, or what stands between and after values. -/
def Follow (s : Text) : Prop := ∀ p, s.head? = some p → p ∈ text ",]\x7d"

theorem follow_nil : Follow [] := fun p h => by cases h

theorem follow_cons {p : CodePoint} (h : p ∈ text ",]\x7d") (s : Text) : Follow (p :: s) := by
  intro q hq
  rw [← Option.some.inj hq]
  exact h

/-- The characters of a number are followed by none. -/
theorem not_follow_number (h : is_number_char c = true) (s : Text) : ¬ Follow (.scalar c :: s) := by
  intro hfollow
  obtain ⟨d, hd, hdc⟩ := List.mem_map.mp (hfollow _ rfl)
  have hall : ∀ d ∈ ",]\x7d".toList, is_number_char d = false := Text.forall_of_all (by decide)
  rw [← CodePoint.scalar.inj hdc, hall d hd] at h
  cases h

theorem number_prefix (h' : ∀ c ∈ l', is_number_char c = true) {u : Text} (hu : Follow u)
    (heq : l'.map CodePoint.scalar = l.map CodePoint.scalar ++ u) : l = l' ∧ u = [] := by
  obtain ⟨a, b, rfl, ha, hb⟩ := List.map_eq_append_iff.mp heq
  have hal : a = l := (List.map_inj_right fun x y hxy => CodePoint.scalar.inj hxy).mp ha
  cases b with
  | nil => exact ⟨by rw [hal, List.append_nil], hb.symm⟩
  | cons c b =>
    rw [← hb] at hu
    exact absurd hu (not_follow_number (h' c (List.mem_append_right _ List.mem_cons_self)) _)

/-- A number is read to its end. -/
theorem number_split (h : ∀ c ∈ l, is_number_char c = true)
    (h' : ∀ c ∈ l', is_number_char c = true) (hs : Follow s) (ht : Follow t)
    (heq : l.map CodePoint.scalar ++ s = l'.map CodePoint.scalar ++ t) : l = l' ∧ s = t := by
  rcases List.append_eq_append_iff.mp heq with ⟨u, hu, hrest⟩ | ⟨u, hu, hrest⟩
  · have hfollow : Follow u := by
      intro p hp
      refine hs p ?_
      rw [hrest, List.head?_append, hp, Option.some_or]
    obtain ⟨hl, rfl⟩ := number_prefix h' hfollow hu
    exact ⟨hl, hrest⟩
  · have hfollow : Follow u := by
      intro p hp
      refine ht p ?_
      rw [hrest, List.head?_append, hp, Option.some_or]
    obtain ⟨hl, rfl⟩ := number_prefix h hfollow hu
    exact ⟨hl.symm, hrest.symm⟩

theorem digits_inj {m n : ℕ} (h : Nat.toDigits 10 m = Nat.toDigits 10 n) : m = n := by
  have hm := @Text.foldl_toDigits 10 m (by decide) (by decide)
  rw [h, @Text.foldl_toDigits 10 n (by decide) (by decide)] at hm
  exact hm.symm

/-- A number has no sign among its digits. -/
theorem minus_not_mem_digits (n : ℕ) : '-' ∉ Nat.toDigits 10 n := by
  intro h
  have hdigit := Nat.isDigit_of_mem_toDigits (by decide) (by decide) h
  revert hdigit
  decide

theorem int_chars_inj {m n : ℤ} (h : int_chars m = int_chars n) : m = n := by
  cases m with
  | ofNat m =>
    cases n with
    | ofNat n => rw [digits_inj h]
    | negSucc n =>
      have hminus : '-' ∈ Nat.toDigits 10 m := by
        rw [int_chars, int_chars] at h
        rw [h]
        exact List.mem_cons_self
      exact absurd hminus (minus_not_mem_digits m)
  | negSucc m =>
    cases n with
    | ofNat n =>
      have hminus : '-' ∈ Nat.toDigits 10 n := by
        rw [int_chars, int_chars] at h
        rw [← h]
        exact List.mem_cons_self
      exact absurd hminus (minus_not_mem_digits n)
    | negSucc n => rw [Nat.succ.inj (digits_inj (List.cons.inj h).2)]

/-- What marks a number as no integer stands in no integer. -/
theorem int_chars_ne_float (n : ℤ) (repr : FloatText) : int_chars n ≠ repr.chars := by
  intro h
  obtain ⟨c, hc, hmark⟩ := List.any_eq_true.mp repr.mark
  rw [← h] at hc
  have hall : ∀ c ∈ ['.', 'e', 'N', 'I'], c.isDigit = false ∧ c ≠ '-' := Text.forall_of_all (by decide)
  obtain ⟨hdigit, hminus⟩ := hall c (of_decide_eq_true hmark)
  rcases mem_int_chars hc with hin | hin
  · rw [hin] at hdigit
    cases hdigit
  · exact hminus hin

/-! ## Values -/

/-- The kinds of values that differ in their first character. -/
def kind : Value → ℕ
  | .null => 0
  | .bool true => 1
  | .bool false => 2
  | .int _ | .float _ => 3
  | .str _ => 4
  | .arr _ => 5
  | .obj _ => 6

def char_kind (c : Char) : ℕ :=
  if c = 'n' then 0 else if c = 't' then 1 else if c = 'f' then 2 else if c = '"' then 4
  else if c = '[' then 5 else if c = '\x7b' then 6 else if c.isDigit || c ∈ ['-', 'N', 'I'] then 3 else 7

theorem char_kind_number (h : c.isDigit = true ∨ c ∈ ['-', 'N', 'I']) : char_kind c = 3 := by
  have hother : ∀ d ∈ "ntf\"[\x7b".toList, ¬ (d.isDigit = true ∨ d ∈ ['-', 'N', 'I']) :=
    Text.forall_of_all (by decide)
  have hne : ∀ d ∈ "ntf\"[\x7b".toList, c ≠ d := fun d hd heq => hother d hd (heq ▸ h)
  have hnumber : (c.isDigit || decide (c ∈ ['-', 'N', 'I'])) = true := by
    rw [Bool.or_eq_true, decide_eq_true_eq]
    exact h
  unfold char_kind
  simp only [hne 'n' (by decide), hne 't' (by decide), hne 'f' (by decide), hne '"' (by decide),
    hne '[' (by decide), hne '\x7b' (by decide), hnumber, if_false, if_true]

theorem int_chars_ne_nil (n : ℤ) : int_chars n ≠ [] := by
  cases n with
  | ofNat n => exact Nat.toDigits_ne_nil
  | negSucc n => exact List.cons_ne_nil _ _

/-- The first character tells the kind. -/
theorem dumps_head (v : Value) : ∃ c s, dumps v = .scalar c :: s ∧ char_kind c = kind v := by
  cases v with
  | null => exact ⟨'n', _, rfl, rfl⟩
  | bool b => cases b with
    | true => exact ⟨'t', _, rfl, rfl⟩
    | false => exact ⟨'f', _, rfl, rfl⟩
  | str s => exact ⟨'"', _, rfl, rfl⟩
  | arr items => exact ⟨'[', _, rfl, rfl⟩
  | obj fields => exact ⟨'\x7b', _, rfl, rfl⟩
  | int n =>
    obtain ⟨c, chars, hchars⟩ := List.exists_cons_of_ne_nil (int_chars_ne_nil n)
    have hc : c ∈ int_chars n := by
      rw [hchars]
      exact List.mem_cons_self
    refine ⟨c, chars.map .scalar, ?_, char_kind_number ((mem_int_chars hc).imp_right fun heq => ?_)⟩
    · rw [dumps, hchars, List.map_cons]
    · rw [heq]
      exact List.mem_cons_self
  | float repr =>
    have hstart := repr.start
    rcases hchars : repr.chars with _ | ⟨c, chars⟩
    · rw [hchars] at hstart
      cases hstart
    · rw [hchars] at hstart
      refine ⟨c, chars.map .scalar, ?_, char_kind_number ?_⟩
      · rw [dumps, hchars, List.map_cons]
      · simpa using hstart

theorem kind_eq (h : dumps v ++ s = dumps w ++ t) : kind v = kind w := by
  obtain ⟨c, r, hv, hc⟩ := dumps_head v
  obtain ⟨d, r', hw, hd⟩ := dumps_head w
  rw [hv, hw, List.cons_append, List.cons_append] at h
  rw [← hc, ← hd, CodePoint.scalar.inj (List.cons.inj h).1]

/-- The items after the first one, with the comma before each of them. -/
def more_items : List Value → Text
  | [] => []
  | v :: items => .scalar ',' :: dumps_items (v :: items)

theorem dumps_items_cons (v : Value) (items : List Value) :
    dumps_items (v :: items) = dumps v ++ more_items items := by
  cases items with
  | nil => rw [dumps_items, more_items, List.append_nil]
  | cons w items => rw [dumps_items, more_items]

def more_fields : List (Text × Value) → Text
  | [] => []
  | f :: fields => .scalar ',' :: dumps_fields (f :: fields)

theorem dumps_fields_cons (k : Text) (v : Value) (fields : List (Text × Value)) :
    dumps_fields ((k, v) :: fields) = dumps_str k ++ .scalar ':' :: (dumps v ++ more_fields fields) := by
  cases fields with
  | nil => rw [dumps_fields, more_fields, List.append_nil]
  | cons f fields =>
    rw [dumps_fields, more_fields, List.append_assoc, List.cons_append]

theorem follow_more_items (items : List Value) (s : Text) : Follow (more_items items ++ .scalar ']' :: s) := by
  cases items with
  | nil => exact follow_cons (by decide) _
  | cons v items => exact follow_cons (by decide) _

theorem follow_more_fields (fields : List (Text × Value)) (s : Text) :
    Follow (more_fields fields ++ .scalar '\x7d' :: s) := by
  cases fields with
  | nil => exact follow_cons (by decide) _
  | cons f fields => exact follow_cons (by decide) _

/-- No value begins with what closes an array. -/
theorem dumps_head_ne (v : Value) (s t : Text) : dumps v ++ s ≠ .scalar ']' :: t := by
  intro h
  obtain ⟨c, r, hv, hc⟩ := dumps_head v
  rw [hv, List.cons_append] at h
  rw [CodePoint.scalar.inj (List.cons.inj h).1] at hc
  have hclose : char_kind ']' = 7 := by decide
  rw [hclose] at hc
  rcases v with _ | _ | _ | _ | _ | _ | _ <;> first | cases hc | (rename_i b; cases b <;> cases hc)

theorem kind_null (h : kind .null = kind w) : w = .null := by
  rcases w with _ | b | _ | _ | _ | _ | _ <;> first | rfl | cases h | (cases b <;> cases h)

theorem kind_bool {b : Bool} (h : kind (.bool b) = kind w) : w = .bool b := by
  rcases w with _ | b' | _ | _ | _ | _ | _ <;> cases b <;> first | cases h | (cases b' <;> first | rfl | cases h)

theorem kind_number (h : 3 = kind w) : (∃ n, w = .int n) ∨ ∃ repr, w = .float repr := by
  rcases w with _ | b | n | repr | _ | _ | _
  · cases h
  · cases b <;> cases h
  · exact Or.inl ⟨n, rfl⟩
  · exact Or.inr ⟨repr, rfl⟩
  · cases h
  · cases h
  · cases h

theorem kind_str {x : Text} (h : kind (.str x) = kind w) : ∃ y, w = .str y := by
  rcases w with _ | b | _ | _ | y | _ | _ <;> first | exact ⟨y, rfl⟩ | cases h | (cases b <;> cases h)

theorem kind_arr {items : List Value} (h : kind (.arr items) = kind w) : ∃ items', w = .arr items' := by
  rcases w with _ | b | _ | _ | _ | items' | _ <;> first | exact ⟨items', rfl⟩ | cases h | (cases b <;> cases h)

theorem kind_obj (h : kind (.obj fields) = kind w) : ∃ fields', w = .obj fields' := by
  rcases w with _ | b | _ | _ | _ | _ | fields' <;> first | exact ⟨fields', rfl⟩ | cases h | (cases b <;> cases h)

/-- Arrays that are written alike are empty together, and then so are they with commas before their items. -/
theorem more_items_of {items items' : List Value} {s t : Text}
    (h : dumps_items items ++ .scalar ']' :: s = dumps_items items' ++ .scalar ']' :: t) :
    more_items items ++ .scalar ']' :: s = more_items items' ++ .scalar ']' :: t := by
  cases items with
  | nil =>
    cases items' with
    | nil => exact h
    | cons w items' =>
      rw [dumps_items_cons, List.append_assoc] at h
      exact absurd h.symm (dumps_head_ne _ _ _)
  | cons v items =>
    cases items' with
    | nil =>
      rw [dumps_items_cons, List.append_assoc] at h
      exact absurd h (dumps_head_ne _ _ _)
    | cons w items' => rw [more_items, more_items, List.cons_append, List.cons_append, h]

theorem more_fields_of {fields' : List (Text × Value)}
    (h : dumps_fields fields ++ .scalar '\x7d' :: s = dumps_fields fields' ++ .scalar '\x7d' :: t) :
    more_fields fields ++ .scalar '\x7d' :: s = more_fields fields' ++ .scalar '\x7d' :: t := by
  cases fields with
  | nil =>
    cases fields' with
    | nil => exact h
    | cons f fields' =>
      rw [dumps_fields_cons, List.append_assoc] at h
      exact absurd (CodePoint.scalar.inj (List.cons.inj h).1) (by decide)
  | cons f fields =>
    cases fields' with
    | nil =>
      rw [dumps_fields_cons, List.append_assoc] at h
      exact absurd (CodePoint.scalar.inj (List.cons.inj h).1) (by decide)
    | cons g fields' => rw [more_fields, more_fields, List.cons_append, List.cons_append, h]

mutual

/-- A text that begins with a value, where a value may end, has one value there. -/
theorem dumps_split : ∀ (v w : Value) (s t : Text), Follow s → Follow t → dumps v ++ s = dumps w ++ t → v = w ∧ s = t
  | .null, w, s, t, _, _, h => by
      obtain rfl := kind_null (kind_eq h)
      exact ⟨rfl, List.append_cancel_left h⟩
  | .bool b, w, s, t, _, _, h => by
      obtain rfl := kind_bool (kind_eq h)
      exact ⟨rfl, List.append_cancel_left h⟩
  | .int n, w, s, t, hs, ht, h => by
      rcases kind_number (kind_eq h) with ⟨m, rfl⟩ | ⟨repr, rfl⟩
      · obtain ⟨hchars, hrest⟩ := number_split (number_int_chars n) (number_int_chars m) hs ht h
        rw [int_chars_inj hchars]
        exact ⟨rfl, hrest⟩
      · obtain ⟨hchars, -⟩ := number_split (number_int_chars n) (List.all_eq_true.mp repr.number) hs ht h
        exact absurd hchars (int_chars_ne_float n repr)
  | .float repr, w, s, t, hs, ht, h => by
      rcases kind_number (kind_eq h) with ⟨n, rfl⟩ | ⟨repr', rfl⟩
      · obtain ⟨hchars, -⟩ := number_split (List.all_eq_true.mp repr.number) (number_int_chars n) hs ht h
        exact absurd hchars.symm (int_chars_ne_float n repr)
      · obtain ⟨hchars, hrest⟩ :=
          number_split (List.all_eq_true.mp repr.number) (List.all_eq_true.mp repr'.number) hs ht h
        have hrepr : repr = repr' := by
          cases repr
          cases repr'
          cases hchars
          rfl
        rw [hrepr]
        exact ⟨rfl, hrest⟩
  | .str x, w, s, t, _, _, h => by
      obtain ⟨y, rfl⟩ := kind_str (kind_eq h)
      obtain ⟨rfl, hrest⟩ := dumps_str_split h
      exact ⟨rfl, hrest⟩
  | .arr items, w, s, t, _, _, h => by
      obtain ⟨items', rfl⟩ := kind_arr (kind_eq h)
      have hrest : dumps_items items ++ .scalar ']' :: s = dumps_items items' ++ .scalar ']' :: t := by
        simpa [dumps] using h
      obtain ⟨rfl, rfl⟩ := items_split items items' s t (more_items_of hrest)
      exact ⟨rfl, rfl⟩
  | .obj fields, w, s, t, _, _, h => by
      obtain ⟨fields', rfl⟩ := kind_obj (kind_eq h)
      have hrest : dumps_fields fields ++ .scalar '\x7d' :: s = dumps_fields fields' ++ .scalar '\x7d' :: t := by
        simpa [dumps] using h
      obtain ⟨rfl, rfl⟩ := fields_split fields fields' s t (more_fields_of hrest)
      exact ⟨rfl, rfl⟩

theorem items_split : ∀ (items items' : List Value) (s t : Text),
    more_items items ++ .scalar ']' :: s = more_items items' ++ .scalar ']' :: t → items = items' ∧ s = t
  | [], items', s, t, h => by
      cases items' with
      | nil => exact ⟨rfl, (List.cons.inj h).2⟩
      | cons w items' => exact absurd (CodePoint.scalar.inj (List.cons.inj h).1) (by decide)
  | v :: items, items', s, t, h => by
      cases items' with
      | nil => exact absurd (CodePoint.scalar.inj (List.cons.inj h).1) (by decide)
      | cons w items' =>
        have htail : dumps_items (v :: items) ++ .scalar ']' :: s = dumps_items (w :: items') ++ .scalar ']' :: t :=
          (List.cons.inj h).2
        rw [dumps_items_cons, dumps_items_cons, List.append_assoc, List.append_assoc] at htail
        obtain ⟨rfl, hmore⟩ := dumps_split v w _ _ (follow_more_items items s) (follow_more_items items' t) htail
        obtain ⟨rfl, rfl⟩ := items_split items items' s t hmore
        exact ⟨rfl, rfl⟩

theorem fields_split : ∀ (fields fields' : List (Text × Value)) (s t : Text),
    more_fields fields ++ .scalar '\x7d' :: s = more_fields fields' ++ .scalar '\x7d' :: t → fields = fields' ∧ s = t
  | [], fields', s, t, h => by
      cases fields' with
      | nil => exact ⟨rfl, (List.cons.inj h).2⟩
      | cons f fields' => exact absurd (CodePoint.scalar.inj (List.cons.inj h).1) (by decide)
  | (k, v) :: fields, fields', s, t, h => by
      cases fields' with
      | nil => exact absurd (CodePoint.scalar.inj (List.cons.inj h).1) (by decide)
      | cons f fields' =>
        obtain ⟨l, w⟩ := f
        have htail : dumps_fields ((k, v) :: fields) ++ .scalar '\x7d' :: s =
            dumps_fields ((l, w) :: fields') ++ .scalar '\x7d' :: t := (List.cons.inj h).2
        rw [dumps_fields_cons, dumps_fields_cons, List.append_assoc, List.append_assoc] at htail
        obtain ⟨rfl, hvalue⟩ := dumps_str_split htail
        have hrest : dumps v ++ (more_fields fields ++ .scalar '\x7d' :: s) =
            dumps w ++ (more_fields fields' ++ .scalar '\x7d' :: t) := by
          rw [← List.append_assoc, ← List.append_assoc]
          exact (List.cons.inj hvalue).2
        obtain ⟨rfl, hmore⟩ := dumps_split v w _ _ (follow_more_fields fields s) (follow_more_fields fields' t) hrest
        obtain ⟨rfl, rfl⟩ := fields_split fields fields' s t hmore
        exact ⟨rfl, rfl⟩

end

/-- The text determines the value. -/
theorem dumps_inj (h : dumps v = dumps w) : v = w :=
  (dumps_split v w [] [] follow_nil follow_nil (by rw [List.append_nil, List.append_nil, h])).1

/-! ## Bytes -/

/-- Bytes that begin with a character begin with no other one. -/
theorem utf8EncodeChar_split {b b' : List UInt8}
    (h : String.utf8EncodeChar c ++ b = String.utf8EncodeChar d ++ b') : c = d ∧ b = b' := by
  have hbytes := congrArg List.toByteArray h
  rw [List.toByteArray_append, List.toByteArray_append] at hbytes
  have hc := @ByteArray.utf8DecodeChar?_utf8EncodeChar_append b.toByteArray c
  rw [hbytes, ByteArray.utf8DecodeChar?_utf8EncodeChar_append] at hc
  have heq : c = d := (Option.some.inj hc).symm
  rw [heq] at h
  exact ⟨heq, List.append_cancel_left h⟩

theorem bytes_inj (hs : s.any CodePoint.is_surrogate = false)
    (ht : t.any CodePoint.is_surrogate = false) (h : bytes s = bytes t) : s = t := by
  induction s generalizing t with
  | nil =>
    cases t with
    | nil => rfl
    | cons q t =>
      rw [List.any_cons, Bool.or_eq_false_iff] at ht
      cases q with
      | surrogate n => cases ht.1
      | scalar d =>
        have hnil := congrArg List.length h
        have hpos := d.utf8Size_pos
        simp only [bytes_cons, CodePoint.bytes, List.length_append, String.length_utf8EncodeChar] at hnil
        have hzero : (bytes []).length = 0 := rfl
        omega
  | cons p s ih =>
    rw [List.any_cons, Bool.or_eq_false_iff] at hs
    cases p with
    | surrogate n => cases hs.1
    | scalar c =>
      cases t with
      | nil =>
        have hnil := congrArg List.length h
        have hpos := c.utf8Size_pos
        simp only [bytes_cons, CodePoint.bytes, List.length_append, String.length_utf8EncodeChar] at hnil
        have hzero : (bytes []).length = 0 := rfl
        omega
      | cons q t =>
        rw [List.any_cons, Bool.or_eq_false_iff] at ht
        cases q with
        | surrogate n => cases ht.1
        | scalar d =>
          obtain ⟨rfl, hrest⟩ := utf8EncodeChar_split h
          rw [ih hs.2 ht.2 hrest]

/-- The bytes determine the text, if it has bytes. -/
theorem encode_inj {b : List UInt8} (hs : encode s = some b) (ht : encode t = some b) : s = t := by
  obtain ⟨hs, hbytes⟩ := encode_eq_some_iff.mp hs
  obtain ⟨ht, hbytes'⟩ := encode_eq_some_iff.mp ht
  exact bytes_inj hs ht (hbytes.trans hbytes'.symm)

/-- The bytes determine the value. -/
theorem encode_dumps_inj {b : List UInt8} (hv : encode (dumps v) = some b)
    (hw : encode (dumps w) = some b) : v = w := dumps_inj (encode_inj hv hw)

end Json
