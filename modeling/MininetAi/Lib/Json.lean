/-
JSON as it is written to a byte stream: compact texts, with every character that need not be
escaped as it is, in UTF-8.

A text is a list of code points and may hold lone surrogates, which stand for no character;
a text with one has no bytes (`encode_eq_none_iff`). What is written has one exactly where
the value has one (`any_dumps`), never has a line break (`newline_not_mem_bytes_dumps`), so a
line can carry it, and takes at most six bytes for each code point of a text
(`size_dumps_str_le`).
-/
import MininetAi.Lib.Text
import Mathlib.Data.List.Flatten

set_option autoImplicit false

namespace Json

/-! ## Texts -/

/-- A code point: a character or a lone surrogate. -/
inductive CodePoint where
  | scalar (c : Char)
  | surrogate (n : Fin 2048)
  deriving DecidableEq

/-- A text of any code points. -/
abbrev Text := List CodePoint

/-- A text of characters. -/
def text (s : String) : Text := s.toList.map .scalar

@[simp] theorem length_text (s : String) : (text s).length = s.length := by
  rw [text, List.length_map, String.length_toList]

def CodePoint.is_surrogate : CodePoint → Bool
  | .scalar _ => false
  | .surrogate _ => true

/-- The bytes of a character in UTF-8; a lone surrogate has none. -/
def CodePoint.bytes : CodePoint → List UInt8
  | .scalar c => String.utf8EncodeChar c
  | .surrogate _ => []

/-- The bytes of the characters of a text. -/
def bytes (s : Text) : List UInt8 := s.flatMap CodePoint.bytes

/-- `text.encode()`: nothing when there is a lone surrogate in the text. -/
def encode (s : Text) : Option (List UInt8) :=
  if s.any CodePoint.is_surrogate then none else some (bytes s)

theorem encode_eq_none_iff {s : Text} : encode s = none ↔ s.any CodePoint.is_surrogate = true := by
  unfold encode
  by_cases h : s.any CodePoint.is_surrogate = true
  · rw [if_pos h, h]
    simp
  · rw [if_neg h, Bool.eq_false_iff.mpr h]
    simp

theorem encode_eq_some_iff {s : Text} {b : List UInt8} :
    encode s = some b ↔ s.any CodePoint.is_surrogate = false ∧ bytes s = b := by
  unfold encode
  by_cases h : s.any CodePoint.is_surrogate = true
  · rw [if_pos h, h]
    simp
  · rw [if_neg h, Bool.eq_false_iff.mpr h]
    simp

/-- A text of characters has bytes. -/
@[simp] theorem any_text (s : String) : (text s).any CodePoint.is_surrogate = false := by
  simp [text, CodePoint.is_surrogate, Function.comp_def]

@[simp] theorem bytes_append (s t : Text) : bytes (s ++ t) = bytes s ++ bytes t := List.flatMap_append

@[simp] theorem bytes_cons (p : CodePoint) (s : Text) : bytes (p :: s) = p.bytes ++ bytes s := rfl

/-! ## Values -/

/-- The characters of ASCII that are seen. -/
def is_printable (c : Char) : Bool := decide (32 ≤ c.toNat ∧ c.toNat < 127)

/-- The characters that numbers are written with, `NaN` and `Infinity` among them. -/
def is_number_char (c : Char) : Bool := c.isDigit || c ∈ "-+.eNaIfinty".toList

/-- The text of a number that is no integer: `repr` of a `float`. -/
structure FloatText where
  chars : List Char
  number : chars.all is_number_char = true
  start : chars.head?.any (fun c => c.isDigit || c ∈ ['-', 'N', 'I']) = true
  mark : chars.any (· ∈ ['.', 'e', 'N', 'I']) = true

/-- A JSON value. -/
inductive Value where
  | null
  | bool (b : Bool)
  | int (n : ℤ)
  | float (repr : FloatText)
  | str (s : Text)
  | arr (items : List Value)
  | obj (fields : List (Text × Value))

/-- `str(n)`. -/
def int_chars : ℤ → List Char
  | .ofNat n => Nat.toDigits 10 n
  | .negSucc n => '-' :: Nat.toDigits 10 (n + 1)

/-- How a character stands in a string. -/
def escape_char (c : Char) : List Char :=
  if c = '"' then ['\\', '"']
  else if c = '\\' then ['\\', '\\']
  else if c = '\n' then ['\\', 'n']
  else if c = '\r' then ['\\', 'r']
  else if c = '\t' then ['\\', 't']
  else if c.toNat = 12 then ['\\', 'f']
  else if c.toNat = 8 then ['\\', 'b']
  else if c.toNat < 32 then ['\\', 'u', '0', '0', Nat.digitChar (c.toNat / 16), Nat.digitChar (c.toNat % 16)]
  else [c]

def CodePoint.escape : CodePoint → Text
  | .scalar c => (escape_char c).map .scalar
  | .surrogate n => [.surrogate n]

/-- A string as it is written. -/
def dumps_str (s : Text) : Text :=
  .scalar '"' :: s.flatMap CodePoint.escape ++ [.scalar '"']

mutual

/-- `json.dumps(value, separators=(",", ":"), ensure_ascii=False)`. -/
def dumps : Value → Text
  | .null => text "null"
  | .bool true => text "true"
  | .bool false => text "false"
  | .int n => (int_chars n).map .scalar
  | .float repr => repr.chars.map .scalar
  | .str s => dumps_str s
  | .arr items => .scalar '[' :: dumps_items items ++ [.scalar ']']
  | .obj fields => .scalar '\x7b' :: dumps_fields fields ++ [.scalar '\x7d']

/-- The items of an array. -/
def dumps_items : List Value → Text
  | [] => []
  | [v] => dumps v
  | v :: w :: items => dumps v ++ .scalar ',' :: dumps_items (w :: items)

/-- The fields of an object. -/
def dumps_fields : List (Text × Value) → Text
  | [] => []
  | [(k, v)] => dumps_str k ++ .scalar ':' :: dumps v
  | (k, v) :: f :: fields => dumps_str k ++ .scalar ':' :: dumps v ++ .scalar ',' :: dumps_fields (f :: fields)

end

mutual

/-- The code points of all the strings of a value, keys included. -/
def points : Value → Text
  | .null | .bool _ | .int _ | .float _ => []
  | .str s => s
  | .arr items => points_items items
  | .obj fields => points_fields fields

def points_items : List Value → Text
  | [] => []
  | v :: items => points v ++ points_items items

def points_fields : List (Text × Value) → Text
  | [] => []
  | (k, v) :: fields => k ++ points v ++ points_fields fields

end

/-! ## What is written -/

variable {c : Char} {s : List Char}

theorem printable_of_isDigit (h : c.isDigit = true) : is_printable c = true := by
  simp only [Char.isDigit, Bool.and_eq_true, decide_eq_true_eq] at h
  have hlo : 48 ≤ c.toNat := h.1
  have hhi : c.toNat ≤ 57 := h.2
  simp only [is_printable, decide_eq_true_eq]
  omega

theorem printable_of_number (h : is_number_char c = true) : is_printable c = true := by
  rcases Bool.or_eq_true_iff.mp h with hdigit | hother
  · exact printable_of_isDigit hdigit
  · have hall : ∀ c ∈ "-+.eNaIfinty".toList, is_printable c = true := Text.forall_of_all (by decide)
    exact hall c (of_decide_eq_true hother)

theorem mem_int_chars {n : ℤ} (h : c ∈ int_chars n) : c.isDigit = true ∨ c = '-' := by
  cases n with
  | ofNat n => exact Or.inl (Nat.isDigit_of_mem_toDigits (by decide) (by decide) h)
  | negSucc n =>
    rcases List.mem_cons.mp h with hminus | hdigits
    · exact Or.inr hminus
    · exact Or.inl (Nat.isDigit_of_mem_toDigits (by decide) (by decide) hdigits)

theorem number_int_chars (n : ℤ) : ∀ c ∈ int_chars n, is_number_char c = true := by
  intro c hc
  rcases mem_int_chars hc with hdigit | rfl
  · rw [is_number_char, hdigit, Bool.true_or]
  · decide

section Syntax

variable {P : CodePoint → Bool} (hP : ∀ c, is_printable c = true → P (.scalar c) = false)

include hP

theorem any_printable (h : ∀ c ∈ s, is_printable c = true) :
    (s.map CodePoint.scalar).any P = false := by
  rw [List.any_map, List.any_eq_false]
  exact fun c hc => Bool.eq_false_iff.mp (hP c (h c hc))

theorem any_dumps_str (s : Text) : (dumps_str s).any P = (s.flatMap CodePoint.escape).any P := by
  have hquote := hP '"' (by decide)
  simp only [dumps_str, List.cons_append, List.any_cons, List.any_append, List.any_nil, hquote, Bool.false_or,
    Bool.or_false]

mutual

/-- What is written has a code point of a kind that the syntax is free of exactly where a string of the
value has it, as it is written there. -/
theorem any_dumps : ∀ v : Value, (dumps v).any P = ((points v).flatMap CodePoint.escape).any P
  | .null | .bool true | .bool false => any_printable hP (Text.forall_of_all (by decide))
  | .int n => any_printable hP fun c hc => printable_of_number (number_int_chars n c hc)
  | .float repr => any_printable hP fun c hc => printable_of_number (List.all_eq_true.mp repr.number c hc)
  | .str s => any_dumps_str hP s
  | .arr items => by
      have hopen := hP '[' (by decide)
      have hclose := hP ']' (by decide)
      simp only [dumps, points, List.cons_append, List.any_cons, List.any_append, List.any_nil, hopen, hclose,
        Bool.false_or, Bool.or_false]
      exact any_dumps_items items
  | .obj fields => by
      have hopen := hP '\x7b' (by decide)
      have hclose := hP '\x7d' (by decide)
      simp only [dumps, points, List.cons_append, List.any_cons, List.any_append, List.any_nil, hopen, hclose,
        Bool.false_or, Bool.or_false]
      exact any_dumps_fields fields

theorem any_dumps_items : ∀ items : List Value,
    (dumps_items items).any P = ((points_items items).flatMap CodePoint.escape).any P
  | [] => rfl
  | [v] => by
      rw [dumps_items, points_items, points_items, List.append_nil]
      exact any_dumps v
  | v :: w :: items => by
      have hcomma := hP ',' (by decide)
      rw [dumps_items, points_items, List.any_append, List.any_cons, hcomma, Bool.false_or, any_dumps v,
        any_dumps_items (w :: items), List.flatMap_append, List.any_append]

theorem any_dumps_fields : ∀ fields : List (Text × Value),
    (dumps_fields fields).any P = ((points_fields fields).flatMap CodePoint.escape).any P
  | [] => rfl
  | [(k, v)] => by
      have hcolon := hP ':' (by decide)
      rw [dumps_fields, points_fields, points_fields, List.append_nil, List.any_append, List.any_cons, hcolon,
        Bool.false_or, any_dumps_str hP, any_dumps v, List.flatMap_append, List.any_append]
  | (k, v) :: f :: fields => by
      have hcolon := hP ':' (by decide)
      have hcomma := hP ',' (by decide)
      rw [dumps_fields, points_fields, List.any_append, List.any_append, List.any_cons, List.any_cons, hcolon, hcomma,
        Bool.false_or, Bool.false_or, any_dumps_str hP, any_dumps v, any_dumps_fields (f :: fields),
        List.flatMap_append, List.flatMap_append, List.any_append, List.any_append]

end

end Syntax

/-- The characters that are written with a backslash. -/
def escaped_chars : List Char := '"' :: '\\' :: (List.range 32).map Char.ofNat

theorem escape_char_of_not_mem (h : c ∉ escaped_chars) : escape_char c = [c] := by
  have hne : ∀ d ∈ escaped_chars, c ≠ d := fun d hd heq => h (heq ▸ hd)
  have hlow : 32 ≤ c.toNat := by
    by_contra hlt
    refine h (List.mem_cons_of_mem _ (List.mem_cons_of_mem _ (List.mem_map.mpr ⟨c.toNat, ?_, Char.ofNat_toNat c⟩)))
    exact List.mem_range.mpr (by omega)
  unfold escape_char
  rw [if_neg (hne '"' (by decide)), if_neg (hne '\\' (by decide)), if_neg (hne '\n' (by decide)),
    if_neg (hne '\r' (by decide)), if_neg (hne '\t' (by decide)), if_neg (by omega), if_neg (by omega),
    if_neg (by omega)]

/-! ### Lone surrogates -/

theorem any_is_surrogate_escape (s : Text) :
    (s.flatMap CodePoint.escape).any CodePoint.is_surrogate = s.any CodePoint.is_surrogate := by
  induction s with
  | nil => rfl
  | cons p s ih =>
    rw [List.flatMap_cons, List.any_append, ih, List.any_cons]
    cases p with
    | scalar c => simp [CodePoint.escape, CodePoint.is_surrogate]
    | surrogate n => rfl

/-- What is written has a lone surrogate exactly where a string of the value has one. -/
theorem any_is_surrogate_dumps (v : Value) :
    (dumps v).any CodePoint.is_surrogate = (points v).any CodePoint.is_surrogate := by
  rw [any_dumps (fun _ _ => rfl), any_is_surrogate_escape]

/-- A value can be sent unless a string of it has a lone surrogate. -/
theorem encode_dumps_eq_none_iff {v : Value} :
    encode (dumps v) = none ↔ (points v).any CodePoint.is_surrogate = true := by
  rw [encode_eq_none_iff, any_is_surrogate_dumps]

/-! ### Line breaks -/

/-- The characters that stand in no text that is written. -/
def CodePoint.is_control : CodePoint → Bool
  | .scalar c => decide (c.toNat < 32)
  | .surrogate _ => false

theorem printable_digitChar : ∀ d < 16, is_printable (Nat.digitChar d) = true := by decide

theorem escape_char_ge (c : Char) : ∀ x ∈ escape_char c, 32 ≤ x.toNat := by
  unfold escape_char
  split_ifs with h₁ h₂ h₃ h₄ h₅ h₆ h₇ h₈
  all_goals try exact Text.forall_of_all (by decide)
  · have hhi := printable_digitChar (c.toNat / 16) (by omega)
    have hlo := printable_digitChar (c.toNat % 16) (by omega)
    simp only [is_printable, decide_eq_true_eq] at hhi hlo
    have hbackslash : 32 ≤ '\\'.toNat := by decide
    have hu : 32 ≤ 'u'.toNat := by decide
    have hzero : 32 ≤ '0'.toNat := by decide
    simp only [List.forall_mem_cons]
    exact ⟨hbackslash, hu, hzero, hzero, hhi.1, hlo.1, fun x hx => absurd hx List.not_mem_nil⟩
  · intro x hx
    rw [List.mem_singleton.mp hx]
    omega

/-- A string is written without control characters. -/
theorem any_is_control_escape (s : Text) : (s.flatMap CodePoint.escape).any CodePoint.is_control = false := by
  rw [List.any_flatMap, List.any_eq_false]
  intro p hp
  cases p with
  | surrogate n => simp [CodePoint.escape, CodePoint.is_control]
  | scalar c =>
    simp only [CodePoint.escape, List.any_map, List.any_eq_true, Function.comp_apply, CodePoint.is_control,
      decide_eq_true_eq, not_exists, not_and, Nat.not_lt]
    exact escape_char_ge c

theorem is_control_dumps (v : Value) : (dumps v).any CodePoint.is_control = false := by
  have hsyntax : ∀ c, is_printable c = true → CodePoint.is_control (.scalar c) = false := by
    intro c hc
    simp only [is_printable, decide_eq_true_eq] at hc
    simp only [CodePoint.is_control, decide_eq_false_iff_not]
    omega
  rw [any_dumps hsyntax, any_is_control_escape]

/-- A byte that is computed. -/
theorem eq_ofNat_iff {b : UInt8} {n : ℕ} : b = UInt8.ofNat n ↔ b.toNat = n % 256 := by
  rw [← UInt8.toNat_inj, UInt8.toNat_ofNat']

/-- The line break is a byte of itself only: the bytes of other characters beyond ASCII are larger. -/
theorem newline_mem_utf8EncodeChar (h : 10 ∈ String.utf8EncodeChar c) : c.toNat = 10 := by
  have hten : (10 : UInt8).toNat = 10 := rfl
  have hc : c.toNat = c.val.toNat := rfl
  simp only [String.utf8EncodeChar] at h
  split_ifs at h <;> simp only [List.mem_cons, List.not_mem_nil, or_false, eq_ofNat_iff, hten] at h <;> omega

/-- What is written stands on one line. -/
theorem newline_not_mem_bytes_dumps (v : Value) : 10 ∉ bytes (dumps v) := by
  intro h
  obtain ⟨p, hp, hmem⟩ := List.mem_flatMap.mp h
  have hcontrol := List.any_eq_false.mp (is_control_dumps v) p hp
  cases p with
  | surrogate n => cases hmem
  | scalar c =>
    have hc := newline_mem_utf8EncodeChar hmem
    simp only [CodePoint.is_control, decide_eq_true_eq] at hcontrol
    omega

/-! ### Sizes -/

/-- The bytes a text takes within a string. -/
def body_size (s : Text) : ℕ := (bytes (s.flatMap CodePoint.escape)).length

@[simp] theorem body_size_append (s t : Text) : body_size (s ++ t) = body_size s + body_size t := by
  simp only [body_size, List.flatMap_append, bytes_append, List.length_append]

theorem length_bytes_dumps_str (s : Text) : (bytes (dumps_str s)).length = body_size s + 2 := by
  have hquote : (CodePoint.scalar '"').bytes.length = 1 := by decide
  simp only [dumps_str, bytes_append, bytes_cons, List.length_append, hquote, body_size, List.cons_append]
  simp only [bytes, List.flatMap_nil, List.length_nil]
  omega

/-- A code point takes at most six bytes: an escape has as many characters of ASCII, and UTF-8 has four for a
character. -/
theorem body_size_singleton_le (p : CodePoint) : body_size [p] ≤ 6 := by
  cases p with
  | surrogate n => exact Nat.zero_le 6
  | scalar c =>
    have hescaped : ∀ c ∈ escaped_chars, body_size [.scalar c] ≤ 6 := Text.forall_of_all (by decide)
    by_cases hc : c ∈ escaped_chars
    · exact hescaped c hc
    · have hsize := c.utf8Size_le_four
      have hlength : body_size [.scalar c] = c.utf8Size := by
        simp [body_size, CodePoint.escape, escape_char_of_not_mem hc, bytes, CodePoint.bytes]
      omega

theorem body_size_le (s : Text) : body_size s ≤ 6 * s.length := by
  induction s with
  | nil => exact Nat.le_refl 0
  | cons p s ih =>
    have hp := body_size_singleton_le p
    have hsplit := body_size_append [p] s
    rw [List.singleton_append] at hsplit
    rw [hsplit, List.length_cons]
    omega

theorem length_bytes_printable (h : is_printable c = true) : (CodePoint.scalar c).bytes.length = 1 := by
  simp only [is_printable, decide_eq_true_eq] at h
  have hseven : (127 : UInt32).toNat = 127 := rfl
  have hval : c.val ≤ 0x7f := by
    rw [UInt32.le_iff_toNat_le, hseven]
    exact Nat.le_of_lt h.2
  rw [CodePoint.bytes, String.length_utf8EncodeChar]
  simp [Char.utf8Size, hval]

/-- The characters that a string holds as they are, in one byte each. -/
def is_plain (c : Char) : Bool := is_printable c && c ≠ '"' && c ≠ '\\'

theorem body_size_plain (h : ∀ c ∈ s, is_plain c = true) :
    body_size (s.map CodePoint.scalar) = s.length := by
  induction s with
  | nil => rfl
  | cons c s ih =>
    obtain ⟨hc, hs⟩ := List.forall_mem_cons.mp h
    have hescaped : ∀ d ∈ escaped_chars, is_plain d = false := Text.forall_of_all (by decide +kernel)
    have hnot : c ∉ escaped_chars := by
      intro hmem
      rw [hescaped c hmem] at hc
      cases hc
    have hone : (CodePoint.scalar c).bytes.length = 1 := by
      simp only [is_plain, Bool.and_eq_true] at hc
      exact length_bytes_printable hc.1.1
    have hsplit := body_size_append [.scalar c] (s.map CodePoint.scalar)
    have hfirst : body_size [.scalar c] = 1 := by
      rw [body_size, List.flatMap_singleton, CodePoint.escape, escape_char_of_not_mem hnot, List.map_singleton,
        bytes_cons, List.length_append, hone]
      rfl
    rw [List.singleton_append, hfirst, ih hs] at hsplit
    rw [List.map_cons, hsplit, List.length_cons, Nat.add_comm]

mutual

/-- The bytes a value is written in. -/
def size : Value → ℕ
  | .null => 4
  | .bool true => 4
  | .bool false => 5
  | .int n => (int_chars n).length
  | .float repr => repr.chars.length
  | .str s => body_size s + 2
  | .arr items => items_size items + 2
  | .obj fields => fields_size fields + 2

def items_size : List Value → ℕ
  | [] => 0
  | [v] => size v
  | v :: w :: items => size v + 1 + items_size (w :: items)

def fields_size : List (Text × Value) → ℕ
  | [] => 0
  | [(k, v)] => body_size k + 3 + size v
  | (k, v) :: f :: fields => body_size k + 3 + size v + 1 + fields_size (f :: fields)

end

theorem length_bytes_numbers (h : ∀ c ∈ s, is_number_char c = true) :
    (bytes (s.map CodePoint.scalar)).length = s.length := by
  induction s with
  | nil => rfl
  | cons c s ih =>
    obtain ⟨hc, hs⟩ := List.forall_mem_cons.mp h
    rw [List.map_cons, bytes_cons, List.length_append, length_bytes_printable (printable_of_number hc), ih hs,
      List.length_cons, Nat.add_comm]

mutual

/-- What is written has the size of the value. -/
theorem length_bytes_dumps : ∀ v : Value, (bytes (dumps v)).length = size v
  | .null | .bool true | .bool false => by decide
  | .int n => length_bytes_numbers (number_int_chars n)
  | .float repr => length_bytes_numbers (List.all_eq_true.mp repr.number)
  | .str s => length_bytes_dumps_str s
  | .arr items => by
      have hopen : (CodePoint.scalar '[').bytes.length = 1 := by decide
      have hclose : (bytes [CodePoint.scalar ']']).length = 1 := by decide
      rw [dumps, size, bytes_append, bytes_cons, List.length_append, List.length_append, hopen, hclose,
        length_bytes_items items]
      omega
  | .obj fields => by
      have hopen : (CodePoint.scalar '\x7b').bytes.length = 1 := by decide
      have hclose : (bytes [CodePoint.scalar '\x7d']).length = 1 := by decide
      rw [dumps, size, bytes_append, bytes_cons, List.length_append, List.length_append, hopen, hclose,
        length_bytes_fields fields]
      omega

theorem length_bytes_items : ∀ items : List Value, (bytes (dumps_items items)).length = items_size items
  | [] => rfl
  | [v] => by rw [dumps_items, items_size, length_bytes_dumps v]
  | v :: w :: items => by
      have hcomma : (CodePoint.scalar ',').bytes.length = 1 := by decide
      rw [dumps_items, items_size, bytes_append, bytes_cons, List.length_append, List.length_append, hcomma,
        length_bytes_dumps v, length_bytes_items (w :: items), Nat.add_assoc]

theorem length_bytes_fields : ∀ fields : List (Text × Value), (bytes (dumps_fields fields)).length = fields_size fields
  | [] => rfl
  | [(k, v)] => by
      have hcolon : (CodePoint.scalar ':').bytes.length = 1 := by decide
      rw [dumps_fields, fields_size, bytes_append, bytes_cons, List.length_append, List.length_append, hcolon,
        length_bytes_dumps_str k, length_bytes_dumps v]
      omega
  | (k, v) :: f :: fields => by
      have hcolon : (CodePoint.scalar ':').bytes.length = 1 := by decide
      have hcomma : (CodePoint.scalar ',').bytes.length = 1 := by decide
      rw [dumps_fields, fields_size, bytes_append, bytes_append, bytes_cons, bytes_cons, List.length_append,
        List.length_append, List.length_append, List.length_append, hcolon, hcomma, length_bytes_dumps_str k,
        length_bytes_dumps v, length_bytes_fields (f :: fields)]
      omega

end

end Json
