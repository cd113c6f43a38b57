/-
Integers as texts: `int(text, 0)`.

A literal has an optional sign, a base prefix or none, and digits that may have single
underscores between them; blanks around it do not matter, and digits of other scripts count
as those of ASCII. A decimal literal has no leading zero unless it is zero, and not too many
digits. What a number is written as, in decimal or as `0x...`, is read back.
-/
import Mathlib.Algebra.Group.Nat.Defs
import MininetAi.Lib.Text

set_option autoImplicit false

namespace Text

/-! ## Digits of other scripts -/

/-- The zeros of the scripts; the nine digits after each follow it. -/
def decimal_zeros : List ℕ :=
  [0x0660, 0x06f0, 0x07c0, 0x0966, 0x09e6, 0x0a66, 0x0ae6, 0x0b66, 0x0be6, 0x0c66, 0x0ce6, 0x0d66, 0x0de6, 0x0e50,
    0x0ed0, 0x0f20, 0x1040, 0x1090, 0x17e0, 0x1810, 0x1946, 0x19d0, 0x1a80, 0x1a90, 0x1b50, 0x1bb0, 0x1c40, 0x1c50,
    0xa620, 0xa8d0, 0xa900, 0xa9d0, 0xa9f0, 0xaa50, 0xabf0, 0xff10, 0x104a0, 0x10d30, 0x11066, 0x110f0, 0x11136,
    0x111d0, 0x112f0, 0x11450, 0x114d0, 0x11650, 0x116c0, 0x11730, 0x118e0, 0x11950, 0x11c50, 0x11d50, 0x11da0,
    0x11f50, 0x16a60, 0x16ac0, 0x16b50, 0x1d7ce, 0x1d7d8, 0x1d7e2, 0x1d7ec, 0x1d7f6, 0x1e140, 0x1e2f0, 0x1e4f0,
    0x1e950, 0x1fbf0]

/-- A character as a number is read: blanks and digits of other scripts become those of ASCII. -/
def to_ascii (c : Char) : Char :=
  if c.toNat < 127 then c
  else if is_space c = true then ' '
  else match decimal_zeros.find? fun first => decide (first ≤ c.toNat ∧ c.toNat < first + 10) with
    | some first => Nat.digitChar (c.toNat - first)
    | none => '?'

/-! ## Digits -/

/-- The value of a digit, in any base. -/
def digit_of (c : Char) : Option ℕ :=
  if 48 ≤ c.toNat ∧ c.toNat ≤ 57 then some (c.toNat - 48)
  else if 97 ≤ c.toNat ∧ c.toNat ≤ 122 then some (c.toNat - 87)
  else if 65 ≤ c.toNat ∧ c.toNat ≤ 90 then some (c.toNat - 55)
  else none

/-- The value of digits, after those of `value`; an underscore stands between two digits. -/
def digits_value (base : ℕ) : ℕ → Bool → List Char → Option ℕ
  | value, after_digit, [] => if after_digit = true then some value else none
  | value, after_digit, c :: s =>
    if c = '_' then (if after_digit = true then digits_value base value false s else none)
    else match digit_of c with
      | none => none
      | some d => if d < base then digits_value base (value * base + d) true s else none

/-- Digits with the underscore that may follow a base prefix. -/
def prefixed_value (base : ℕ) : List Char → Option ℕ
  | '_' :: s => digits_value base 0 false s
  | s => digits_value base 0 false s

/-- A decimal literal. -/
def decimal_value (s : List Char) : Option ℕ :=
  if 4300 < (s.filter fun c => c ≠ '_').length then none
  else (digits_value 10 0 false s).filter fun value => s.head? ≠ some '0' ∨ value = 0

/-- A literal without its sign. -/
def magnitude : List Char → Option ℕ
  | '0' :: x :: s =>
    if x = 'x' ∨ x = 'X' then prefixed_value 16 s
    else if x = 'o' ∨ x = 'O' then prefixed_value 8 s
    else if x = 'b' ∨ x = 'B' then prefixed_value 2 s
    else decimal_value ('0' :: x :: s)
  | s => decimal_value s

/-- A literal with its sign. -/
def signed : List Char → Option ℤ
  | '-' :: s => (magnitude s).map fun n => -(n : ℤ)
  | '+' :: s => (magnitude s).map fun n => (n : ℤ)
  | s => (magnitude s).map fun n => (n : ℤ)

/-- The blanks that may stand around a literal. -/
def is_ascii_space (c : Char) : Bool := decide ((9 ≤ c.toNat ∧ c.toNat ≤ 13) ∨ c.toNat = 32)

/-- `int(text, 0)`. -/
def int_literal (s : List Char) : Option ℤ :=
  signed (((s.map to_ascii).dropWhile is_ascii_space).rdropWhile is_ascii_space)

/-! ## Written numbers -/

/-- `hex(n)`, and `f"{n:#x}"`. -/
def hex_literal (n : ℕ) : List Char := '0' :: 'x' :: Nat.toDigits 16 n

/-- The digits of a base up to sixteen. -/
theorem digit_of_digitChar : ∀ d < 16, digit_of (Nat.digitChar d) = some d ∧ Nat.digitChar d ≠ '_' ∧
    (Nat.digitChar d).toNat < 127 ∧ is_ascii_space (Nat.digitChar d) = false := by
  decide

theorem digit_of_mem_toDigits {base n : ℕ} (hbase : 1 < base) (h16 : base ≤ 16) :
    ∀ c ∈ Nat.toDigits base n, ∃ d < base, c = Nat.digitChar d := by
  induction n using Nat.strong_induction_on with
  | _ n ih =>
    intro c hc
    rw [Nat.toDigits_eq_if hbase] at hc
    by_cases hn : n < base
    · rw [if_pos hn] at hc
      exact ⟨n, hn, List.mem_singleton.mp hc⟩
    · rw [if_neg hn] at hc
      rcases List.mem_append.mp hc with hfirst | hlast
      · exact ih (n / base) (Nat.div_lt_self (by omega) hbase) c hfirst
      · exact ⟨n % base, Nat.mod_lt n (by omega), List.mem_singleton.mp hlast⟩

/-- Digits are read one after the other. -/
theorem digits_value_append {base value : ℕ} {after_digit : Bool} {s t : List Char} (hbase : base ≤ 16)
    (hs : ∀ c ∈ s, ∃ d < base, c = Nat.digitChar d) (hne : s ≠ []) :
    digits_value base value after_digit (s ++ t) =
      digits_value base (s.foldl (fun v c => v * base + (digit_of c).getD 0) value) true t := by
  induction s generalizing value after_digit with
  | nil => exact absurd rfl hne
  | cons c s ih =>
    obtain ⟨⟨d, hd, rfl⟩, hrest⟩ := List.forall_mem_cons.mp hs
    obtain ⟨hdigit, hunderscore, -, -⟩ := digit_of_digitChar d (by omega)
    rw [List.cons_append, digits_value, if_neg hunderscore, hdigit]
    simp only [if_pos hd, List.foldl_cons, hdigit, Option.getD_some]
    cases s with
    | nil => rfl
    | cons c' s => exact ih hrest (List.cons_ne_nil _ _)

theorem foldl_toDigits {base n : ℕ} (hbase : 1 < base) (h16 : base ≤ 16) :
    (Nat.toDigits base n).foldl (fun v c => v * base + (digit_of c).getD 0) 0 = n := by
  induction n using Nat.strong_induction_on with
  | _ n ih =>
    rw [Nat.toDigits_eq_if hbase]
    by_cases hn : n < base
    · rw [if_pos hn, List.foldl_cons, List.foldl_nil, (digit_of_digitChar n (by omega)).1]
      simp
    · have hmod := Nat.mod_lt n (show base > 0 by omega)
      rw [if_neg hn, List.foldl_append, ih (n / base) (Nat.div_lt_self (by omega) hbase), List.foldl_cons,
        List.foldl_nil, (digit_of_digitChar (n % base) (by omega)).1, Option.getD_some, Nat.div_add_mod']

variable {n base : ℕ} {s : List Char} {c : Char}

/-- The decimal text of a number determines it. -/
theorem toString_inj {m : ℕ} (h : toString m = toString n) : m = n := by
  have hdigits : Nat.toDigits 10 m = Nat.toDigits 10 n := by
    rw [← Nat.toList_repr, ← Nat.toString_eq_repr, h, Nat.toString_eq_repr, Nat.toList_repr]
  have hm := @foldl_toDigits 10 m (by decide) (by decide)
  rw [hdigits, @foldl_toDigits 10 n (by decide) (by decide)] at hm
  exact hm.symm

theorem digits_value_toDigits {base : ℕ} (n : ℕ) (hbase : 1 < base) (h16 : base ≤ 16) :
    digits_value base 0 false (Nat.toDigits base n) = some n := by
  have happend := @digits_value_append base 0 false (Nat.toDigits base n) [] h16
    (digit_of_mem_toDigits hbase h16) Nat.toDigits_ne_nil
  rw [List.append_nil, foldl_toDigits hbase h16] at happend
  rw [happend, digits_value, if_pos rfl]

/-- Only zero is written with a leading zero. -/
theorem toDigits_head (hbase : 1 < base) (h16 : base ≤ 16) (hn : 0 < n) :
    (Nat.toDigits base n).head? ≠ some '0' := by
  induction n using Nat.strong_induction_on with
  | _ n ih =>
    rw [Nat.toDigits_eq_if hbase]
    by_cases hlt : n < base
    · rw [if_pos hlt, List.head?_cons]
      intro h
      have hdigit := (digit_of_digitChar n (by omega)).1
      rw [Option.some.inj h] at hdigit
      have hzero : (0 : ℕ) = n := Option.some.inj hdigit
      omega
    · have hpos : 0 < n / base := Nat.div_pos (by omega) (by omega)
      rw [if_neg hlt, List.head?_append_of_ne_nil _ Nat.toDigits_ne_nil]
      exact ih (n / base) (Nat.div_lt_self (by omega) hbase) hpos

/-- The characters of a written number stay as they are. -/
theorem int_literal_eq (h : ∀ c ∈ s, c.toNat < 127 ∧ is_ascii_space c = false) :
    int_literal s = signed s := by
  have hmap : s.map to_ascii = s := by
    refine (List.map_congr_left fun c hc => ?_).trans (List.map_id s)
    rw [to_ascii, if_pos (h c hc).1, id]
  have hdrop : s.dropWhile is_ascii_space = s := by
    refine List.dropWhile_eq_self_iff.mpr fun hl => ?_
    rw [(h _ (List.getElem_mem hl)).2]
    exact Bool.false_ne_true
  have hrdrop : s.rdropWhile is_ascii_space = s := by
    refine List.rdropWhile_eq_self_iff.mpr fun hl => ?_
    rw [(h _ (List.getLast_mem hl)).2]
    exact Bool.false_ne_true
  rw [int_literal, hmap, hdrop, hrdrop]

theorem signed_cons (s : List Char) (hminus : c ≠ '-') (hplus : c ≠ '+') :
    signed (c :: s) = (magnitude (c :: s)).map fun n => (n : ℤ) := by
  unfold signed
  split
  · rename_i heq
    exact absurd (List.cons.inj heq).1 hminus
  · rename_i heq
    exact absurd (List.cons.inj heq).1 hplus
  · rfl

theorem prefixed_value_cons (s : List Char) (h : c ≠ '_') :
    prefixed_value base (c :: s) = digits_value base 0 false (c :: s) := by
  unfold prefixed_value
  split
  · rename_i heq
    exact absurd (List.cons.inj heq).1 h
  · rfl

/-- What starts with no zero is a decimal literal, and so is a single digit. -/
theorem magnitude_decimal (h : s.head? ≠ some '0' ∨ s.length = 1) : magnitude s = decimal_value s := by
  unfold magnitude
  split
  · rcases h with hhead | hlength
    · exact absurd rfl hhead
    · simp at hlength
  · rfl

theorem digitChar_ne_sign : ∀ d < 16, Nat.digitChar d ≠ '-' ∧ Nat.digitChar d ≠ '+' := by decide

theorem int_literal_hex (n : ℕ) : int_literal (hex_literal n) = some (n : ℤ) := by
  have hdigits := @digit_of_mem_toDigits 16 n (by omega) le_rfl
  have hascii : ∀ c ∈ hex_literal n, c.toNat < 127 ∧ is_ascii_space c = false := by
    refine List.forall_mem_cons.mpr ⟨by decide, List.forall_mem_cons.mpr ⟨by decide, fun c hc => ?_⟩⟩
    obtain ⟨d, hd16, rfl⟩ := hdigits c hc
    exact (digit_of_digitChar d hd16).2.2
  have hvalue : prefixed_value 16 (Nat.toDigits 16 n) = some n := by
    rw [← @digits_value_toDigits 16 n (by omega) le_rfl]
    cases hd : Nat.toDigits 16 n with
    | nil => exact absurd hd Nat.toDigits_ne_nil
    | cons c s =>
      rw [hd] at hdigits
      obtain ⟨d, hd16, rfl⟩ := hdigits c List.mem_cons_self
      exact prefixed_value_cons s (digit_of_digitChar d hd16).2.1
  rw [int_literal_eq hascii, hex_literal, signed_cons _ (by decide) (by decide), magnitude, if_pos (Or.inl rfl), hvalue]
  rfl

/-- A decimal number of few digits. -/
theorem int_literal_decimal (hn : n < 10 ^ 20) : int_literal (Nat.toDigits 10 n) = some (n : ℤ) := by
  have hdigits := @digit_of_mem_toDigits 10 n (by omega) (by omega)
  have hascii : ∀ c ∈ Nat.toDigits 10 n, c.toNat < 127 ∧ is_ascii_space c = false := by
    intro c hc
    obtain ⟨d, hd10, rfl⟩ := hdigits c hc
    exact (digit_of_digitChar d (by omega)).2.2
  have hhead : (Nat.toDigits 10 n).head? ≠ some '0' ∨ n = 0 := by
    by_cases hzero : n = 0
    · exact Or.inr hzero
    · exact Or.inl (toDigits_head (by omega) (by omega) (by omega))
  have hdecimal : decimal_value (Nat.toDigits 10 n) = some n := by
    have hlength : (Nat.toDigits 10 n).length ≤ 20 := (Nat.length_toDigits_le_iff (by omega) (by omega)).mpr hn
    have hfilter := List.length_filter_le (fun c => decide (c ≠ '_')) (Nat.toDigits 10 n)
    rw [decimal_value, if_neg (by omega), digits_value_toDigits n (by omega) (by omega), Option.filter_some,
      if_pos (decide_eq_true hhead)]
  have hmagnitude : magnitude (Nat.toDigits 10 n) = some n := by
    rw [← hdecimal]
    refine magnitude_decimal (hhead.imp_right fun hzero => ?_)
    rw [hzero, Nat.toDigits_zero]
    rfl
  rw [int_literal_eq hascii]
  cases hd : Nat.toDigits 10 n with
  | nil => exact absurd hd Nat.toDigits_ne_nil
  | cons c s =>
    rw [hd] at hdigits hmagnitude
    obtain ⟨d, hd10, rfl⟩ := hdigits c List.mem_cons_self
    obtain ⟨hminus, hplus⟩ := digitChar_ne_sign d (by omega)
    rw [signed_cons s hminus hplus, hmagnitude]
    rfl

end Text
