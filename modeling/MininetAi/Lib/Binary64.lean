/-
Floating point numbers of double precision, as rationals.

A double has 53 significant bits, and its last bit is worth at least `2 ^ (-1074)`. A
rational is rounded to the nearest one, and of two that are as near to the one whose last
bit is zero. `nearest` knows no largest double, `InRange` says which rationals round to a
finite one, and `clamped` rounds the others to `2 ^ 1024` and its negative, which stand
for the infinite doubles. Zero has no sign.
-/
import Mathlib.Algebra.Order.Field.Power
import Mathlib.Data.Int.Log
import Mathlib.Data.Rat.Floor

set_option autoImplicit false

namespace Binary64

/-! ## Rounding to integers -/

/-- The nearest integer, and of two the even one. -/
def rint (q : ℚ) : ℤ :=
  if q - ⌊q⌋ < 1 / 2 then ⌊q⌋
  else if 1 / 2 < q - ⌊q⌋ then ⌊q⌋ + 1
  else if ⌊q⌋ % 2 = 0 then ⌊q⌋ else ⌊q⌋ + 1

variable {a b q : ℚ}

theorem rint_cases (q : ℚ) :
    (rint q = ⌊q⌋ ∧ q - ⌊q⌋ ≤ 1 / 2) ∨ (rint q = ⌊q⌋ + 1 ∧ 1 / 2 ≤ q - ⌊q⌋) := by
  unfold rint
  split_ifs with hlow hhigh heven
  · exact .inl ⟨rfl, hlow.le⟩
  · exact .inr ⟨rfl, hhigh.le⟩
  · exact .inl ⟨rfl, not_lt.mp hhigh⟩
  · exact .inr ⟨rfl, not_lt.mp hlow⟩

theorem floor_le_rint (q : ℚ) : ⌊q⌋ ≤ rint q := by
  rcases rint_cases q with ⟨h, _⟩ | ⟨h, _⟩
  · exact h.ge
  · omega

theorem rint_le_floor_add_one (q : ℚ) : rint q ≤ ⌊q⌋ + 1 := by
  rcases rint_cases q with ⟨h, _⟩ | ⟨h, _⟩
  · omega
  · exact h.le

/-- Rounding moves a number by half a unit at most. -/
theorem abs_rint_sub_le (q : ℚ) : |(rint q : ℚ) - q| ≤ 1 / 2 := by
  have hfloor := Int.floor_le q
  have hnext := Int.lt_floor_add_one q
  rw [abs_le]
  rcases rint_cases q with ⟨h, hpart⟩ | ⟨h, hpart⟩
  · rw [h]
    constructor <;> linarith
  · rw [h]
    push_cast
    constructor <;> linarith

@[simp] theorem rint_intCast (n : ℤ) : rint n = n := by
  rw [rint, Int.floor_intCast, sub_self, if_pos (by norm_num)]

theorem rint_mono {a b : ℚ} (hab : a ≤ b) : rint a ≤ rint b := by
  rcases (Int.floor_le_floor hab).lt_or_eq with hlt | heq
  · calc rint a ≤ ⌊a⌋ + 1 := rint_le_floor_add_one a
      _ ≤ ⌊b⌋ := hlt
      _ ≤ rint b := floor_le_rint b
  · unfold rint
    rw [← heq]
    split_ifs <;> first | rfl | omega | (exfalso; linarith)

/-! ## Rounding to doubles -/

/-- The exponent of the last bit of a positive number. -/
def last_bit (q : ℚ) : ℤ := max (Int.log 2 q - 52) (-1074)

/-- The double nearest to a number that is not negative. -/
def magnitude (q : ℚ) : ℚ := rint (q / 2 ^ last_bit q) * 2 ^ last_bit q

/-- The double nearest to a number. -/
def nearest (q : ℚ) : ℚ := if q < 0 then -magnitude (-q) else magnitude q

/-- The nearest double is finite. -/
def InRange (q : ℚ) : Prop := |nearest q| < 2 ^ 1024

instance (q : ℚ) : Decidable (InRange q) := inferInstanceAs (Decidable (_ < _))

/-- The double nearest to a number, finite or infinite. -/
def clamped (q : ℚ) : ℚ := max (-2 ^ 1024) (min (2 ^ 1024) (nearest q))

/-- The doubles, without a largest one. -/
def IsDouble (q : ℚ) : Prop := ∃ m e : ℤ, |m| ≤ 2 ^ 53 ∧ -1074 ≤ e ∧ q = m * 2 ^ e

theorem two_zpow_pos (e : ℤ) : (0 : ℚ) < 2 ^ e := zpow_pos two_pos e

theorem two_zpow_le {e f : ℤ} (h : e ≤ f) : (2 : ℚ) ^ e ≤ 2 ^ f := zpow_le_zpow_right₀ one_le_two h

theorem two_zpow_add_nat (e : ℤ) (k : ℕ) : (2 : ℚ) ^ (e + k) = (2 ^ k : ℤ) * 2 ^ e := by
  rw [zpow_add₀ two_ne_zero, zpow_natCast, mul_comm, Int.cast_pow, Int.cast_ofNat]

theorem magnitude_zero : magnitude 0 = 0 := by
  have h : rint 0 = 0 := by exact_mod_cast rint_intCast 0
  rw [magnitude, zero_div, h, Int.cast_zero, zero_mul]

theorem nearest_of_nonneg (h : 0 ≤ q) : nearest q = magnitude q := if_neg (not_lt.mpr h)

theorem nearest_neg (q : ℚ) : nearest (-q) = -nearest q := by
  unfold nearest
  rcases lt_trichotomy q 0 with h | rfl | h
  · rw [if_neg (by linarith), if_pos h, neg_neg]
  · simp [magnitude_zero]
  · rw [if_pos (by linarith), if_neg (by linarith), neg_neg]

@[simp] theorem nearest_zero : nearest 0 = 0 := (nearest_of_nonneg le_rfl).trans magnitude_zero

theorem rint_nonneg (h : 0 ≤ q) : 0 ≤ rint q := (Int.floor_nonneg.mpr h).trans (floor_le_rint q)

theorem magnitude_nonneg (h : 0 ≤ q) : 0 ≤ magnitude q := by
  have hround : 0 ≤ rint (q / 2 ^ last_bit q) := rint_nonneg (div_nonneg h (two_zpow_pos _).le)
  exact mul_nonneg (Int.cast_nonneg hround) (two_zpow_pos _).le

/-- A positive number has 53 bits before its last bit, or fewer. -/
theorem lt_last_bit (q : ℚ) : q < 2 ^ (last_bit q + 53) := by
  calc q < 2 ^ (Int.log 2 q + 1) := Int.lt_zpow_succ_log_self one_lt_two q
    _ ≤ 2 ^ (last_bit q + 53) := two_zpow_le (by unfold last_bit; omega)

/-- It has 53 bits unless it is small. -/
theorem last_bit_le (hq : 0 < q) (h : -1074 < last_bit q) : 2 ^ (last_bit q + 52) ≤ q := by
  have hlog : last_bit q + 52 = Int.log 2 q := by
    unfold last_bit at h ⊢
    omega
  rw [hlog]
  exact Int.zpow_log_le_self one_lt_two hq

theorem magnitude_mono (ha : 0 ≤ a) (hab : a ≤ b) : magnitude a ≤ magnitude b := by
  rcases ha.eq_or_lt with rfl | hpos
  · rw [magnitude_zero]
    exact magnitude_nonneg hab
  have hbits : last_bit a ≤ last_bit b := max_le_max (by have := Int.log_mono_right (b := 2) hpos hab; omega) le_rfl
  have hunit := two_zpow_pos (last_bit a)
  rcases hbits.eq_or_lt with heq | hlt
  · unfold magnitude
    rw [← heq]
    gcongr
    exact rint_mono (by gcongr)
  · -- there is a power of two between them
    have htop : magnitude a ≤ 2 ^ (last_bit a + 53) := by
      have hround : rint (a / 2 ^ last_bit a) ≤ (2 ^ 53 : ℤ) := by
        rw [← rint_intCast (2 ^ 53)]
        refine rint_mono ((div_le_iff₀ hunit).mpr ?_)
        rw [← two_zpow_add_nat]
        exact (lt_last_bit a).le
      calc magnitude a ≤ (2 ^ 53 : ℤ) * 2 ^ last_bit a :=
            mul_le_mul_of_nonneg_right (Int.cast_le.mpr hround) hunit.le
        _ = 2 ^ (last_bit a + 53) := (two_zpow_add_nat _ 53).symm
    have hbottom : 2 ^ (last_bit b + 52) ≤ magnitude b := by
      have hsmall : -1074 < last_bit b := (le_max_right _ _).trans_lt hlt
      have hround : (2 ^ 52 : ℤ) ≤ rint (b / 2 ^ last_bit b) := by
        rw [← rint_intCast (2 ^ 52)]
        refine rint_mono ((le_div_iff₀ (two_zpow_pos _)).mpr ?_)
        rw [← two_zpow_add_nat]
        exact last_bit_le (hpos.trans_le hab) hsmall
      calc (2 : ℚ) ^ (last_bit b + 52) = (2 ^ 52 : ℤ) * 2 ^ last_bit b := two_zpow_add_nat _ 52
        _ ≤ magnitude b := mul_le_mul_of_nonneg_right (Int.cast_le.mpr hround) (two_zpow_pos _).le
    exact htop.trans ((two_zpow_le (by omega)).trans hbottom)

theorem nearest_mono : Monotone nearest := by
  intro a b hab
  rcases le_or_gt 0 a with ha | ha
  · rw [nearest_of_nonneg ha, nearest_of_nonneg (ha.trans hab)]
    exact magnitude_mono ha hab
  · rcases le_or_gt 0 b with hb | hb
    · rw [nearest, if_pos ha, nearest_of_nonneg hb]
      have hneg := magnitude_nonneg (neg_nonneg.mpr ha.le)
      have hpos := magnitude_nonneg hb
      linarith
    · rw [nearest, if_pos ha, nearest, if_pos hb]
      exact neg_le_neg (magnitude_mono (neg_nonneg.mpr hb.le) (neg_le_neg hab))

theorem nearest_nonneg (h : 0 ≤ q) : 0 ≤ nearest q := nearest_zero ▸ nearest_mono h

/-! ## Doubles -/

theorem magnitude_of_isDouble (h : IsDouble q) (hq : 0 ≤ q) : magnitude q = q := by
  rcases hq.eq_or_lt with rfl | hpos
  · exact magnitude_zero
  obtain ⟨m, e, hm, he, rfl⟩ := h
  have hunit := two_zpow_pos e
  have hm_pos : 0 < (m : ℚ) := pos_of_mul_pos_left hpos hunit.le
  have hbits : last_bit (m * 2 ^ e) ≤ e ∨ m = 2 ^ 53 := by
    rcases eq_or_ne m (2 ^ 53) with heq | hne
    · exact .inr heq
    · left
      have hlt : (m : ℚ) * 2 ^ e < 2 ^ (e + 53) := by
        have hm_lt : m < 2 ^ 53 := lt_of_le_of_ne ((le_abs_self m).trans hm) hne
        calc (m : ℚ) * 2 ^ e < (2 ^ 53 : ℤ) * 2 ^ e := mul_lt_mul_of_pos_right (Int.cast_lt.mpr hm_lt) hunit
          _ = 2 ^ (e + 53) := (two_zpow_add_nat e 53).symm
      have hlog := (Int.lt_zpow_iff_log_lt one_lt_two hpos).mp hlt
      exact max_le (by omega) he
  -- the number is a whole multiple of its last bit
  have hwhole : ∃ n : ℤ, (m : ℚ) * 2 ^ e = n * 2 ^ last_bit (m * 2 ^ e) := by
    rcases hbits with hle | rfl
    · obtain ⟨k, hk⟩ := Int.le.dest hle
      have hpower : (2 : ℚ) ^ e = (2 ^ k : ℤ) * 2 ^ last_bit (m * 2 ^ e) := by rw [← two_zpow_add_nat, hk]
      refine ⟨m * 2 ^ k, ?_⟩
      calc (m : ℚ) * 2 ^ e = m * ((2 ^ k : ℤ) * 2 ^ last_bit (m * 2 ^ e)) := by rw [← hpower]
        _ = ((m * 2 ^ k : ℤ) : ℚ) * 2 ^ last_bit (m * 2 ^ e) := by rw [Int.cast_mul, mul_assoc]
    · have hlog : Int.log 2 (((2 ^ 53 : ℤ) : ℚ) * 2 ^ e) = e + 53 := by
        rw [← two_zpow_add_nat]
        exact Int.log_zpow one_lt_two _
      have hlast : last_bit (((2 ^ 53 : ℤ) : ℚ) * 2 ^ e) = e + 1 := by
        rw [last_bit, hlog]
        omega
      refine ⟨2 ^ 52, ?_⟩
      rw [hlast, ← two_zpow_add_nat, ← two_zpow_add_nat]
      congr 1
      omega
  obtain ⟨n, hn⟩ := hwhole
  have hquotient : (m : ℚ) * 2 ^ e / 2 ^ last_bit (m * 2 ^ e) = n :=
    (div_eq_iff (two_zpow_pos _).ne').mpr hn
  rw [magnitude, hquotient, rint_intCast]
  exact hn.symm

/-- A double is not rounded. -/
theorem nearest_of_isDouble (h : IsDouble q) : nearest q = q := by
  rcases le_or_gt 0 q with hq | hq
  · rw [nearest_of_nonneg hq, magnitude_of_isDouble h hq]
  · obtain ⟨m, e, hm, he, heq⟩ := h
    have hneg : IsDouble (-q) := ⟨-m, e, (abs_neg m).trans_le hm, he, by rw [heq]; push_cast; ring⟩
    rw [nearest, if_pos hq, magnitude_of_isDouble hneg (neg_nonneg.mpr hq.le), neg_neg]

/-- A number that is not too small is moved by less than the fraction `2 ^ (-53)` of it. -/
theorem abs_nearest_sub_le (h : 2 ^ (-1022 : ℤ) ≤ q) : |nearest q - q| ≤ q * 2 ^ (-53 : ℤ) := by
  have hpos : 0 < q := (two_zpow_pos _).trans_le h
  have hunit := two_zpow_pos (last_bit q)
  have hlog : last_bit q + 52 = Int.log 2 q := by
    have hle := (Int.zpow_le_iff_le_log one_lt_two hpos).mp h
    unfold last_bit
    omega
  have hbits : (2 : ℚ) ^ last_bit q ≤ q * 2 ^ (-52 : ℤ) := by
    have hle := Int.zpow_log_le_self one_lt_two hpos
    rw [← hlog, Nat.cast_ofNat] at hle
    calc (2 : ℚ) ^ last_bit q = 2 ^ (last_bit q + 52) * 2 ^ (-52 : ℤ) := by
          rw [← zpow_add₀ two_ne_zero, add_neg_cancel_right]
      _ ≤ q * 2 ^ (-52 : ℤ) := mul_le_mul_of_nonneg_right hle (two_zpow_pos _).le
  have hscale : nearest q - q = (rint (q / 2 ^ last_bit q) - q / 2 ^ last_bit q) * 2 ^ last_bit q := by
    rw [nearest_of_nonneg hpos.le, magnitude, sub_mul, div_mul_cancel₀ _ hunit.ne']
  have hhalf : (2 : ℚ) ^ (-52 : ℤ) = 2 * 2 ^ (-53 : ℤ) := by norm_num
  rw [hscale, abs_mul, abs_of_pos hunit]
  calc |(rint (q / 2 ^ last_bit q) : ℚ) - q / 2 ^ last_bit q| * 2 ^ last_bit q
      ≤ 1 / 2 * (q * 2 ^ (-52 : ℤ)) := mul_le_mul (abs_rint_sub_le _) hbits hunit.le (by norm_num)
    _ = q * 2 ^ (-53 : ℤ) := by rw [hhalf]; ring

theorem clamped_of_inRange (h : InRange q) : clamped q = nearest q := by
  obtain ⟨hlow, hhigh⟩ := abs_lt.mp h
  rw [clamped, min_eq_right hhigh.le, max_eq_right hlow.le]

end Binary64
