/-
Durations (`mininet_ai/durations.py`).

A duration is a decimal number with a unit. The seconds it is converted to are a double:
the number is rounded, and so is its product with the factor of the unit, which is rounded
itself. Times are whole microseconds, and `timedelta` and `total_seconds` of the standard
library go from the one to the other.
-/
import MininetAi.Lib.Binary64

set_option autoImplicit false

namespace MininetAi

open Binary64

inductive DurationUnit where
  | us
  | ms
  | s
  deriving DecidableEq

/-- `_DURATION_FACTORS`. -/
def DurationUnit.factor : DurationUnit → ℚ
  | .us => nearest (1 / 1000000)
  | .ms => nearest (1 / 1000)
  | .s => 1

/-- A text that `_DURATION_PATTERN` matches: the number in front and the unit. -/
structure Duration where
  number : ℚ
  unit : DurationUnit
  number_nonneg : 0 ≤ number
  deriving DecidableEq

/-- `duration_seconds`, of a text that matches. -/
def duration_seconds (value : Duration) : ℚ := nearest (nearest value.number * value.unit.factor)

/-- The seconds of a unit. -/
def DurationUnit.scale : DurationUnit → ℚ
  | .us => 1 / 1000000
  | .ms => 1 / 1000
  | .s => 1

/-- The seconds that the text denotes. -/
def Duration.seconds (value : Duration) : ℚ := value.number * value.unit.scale

/-- The default of a cooldown. -/
def zero_seconds : Duration := ⟨0, .s, le_rfl⟩

/-- `timedelta(seconds=…)`: the fraction of the seconds is converted by itself. -/
def timedelta (seconds : ℚ) : ℤ :=
  rint (⌊seconds⌋ * 1000000 + nearest (1000000 * (seconds - ⌊seconds⌋)))

def total_seconds (time : ℤ) : ℚ := nearest (time / 1000000)

/-! ## Bounds -/

theorem DurationUnit.factor_nonneg (unit : DurationUnit) : 0 ≤ unit.factor := by
  cases unit with
  | us => exact nearest_nonneg (by norm_num)
  | ms => exact nearest_nonneg (by norm_num)
  | s => exact zero_le_one

theorem duration_seconds_nonneg (value : Duration) : 0 ≤ duration_seconds value :=
  nearest_nonneg (mul_nonneg (nearest_nonneg value.number_nonneg) value.unit.factor_nonneg)

theorem timedelta_nonneg {seconds : ℚ} (h : 0 ≤ seconds) : 0 ≤ timedelta seconds := by
  have hwhole : (0 : ℚ) ≤ ⌊seconds⌋ := Int.cast_nonneg (Int.floor_nonneg.mpr h)
  have hfraction : 0 ≤ nearest (1000000 * (seconds - ⌊seconds⌋)) :=
    nearest_nonneg (mul_nonneg (by norm_num) (sub_nonneg.mpr (Int.floor_le seconds)))
  exact rint_nonneg (add_nonneg (mul_nonneg hwhole (by norm_num)) hfraction)

theorem total_seconds_mono {a b : ℤ} (hab : a ≤ b) : total_seconds a ≤ total_seconds b := by
  have hcast : (a : ℚ) ≤ b := Int.cast_le.mpr hab
  exact nearest_mono (div_le_div_of_nonneg_right hcast (by norm_num))

variable {time : ℤ}

/-- An age below zero has seconds below zero. -/
theorem total_seconds_neg (h : time < 0) : total_seconds time < 0 := by
  have hone : total_seconds (-1) < 0 := by decide +kernel
  exact (total_seconds_mono (by omega)).trans_lt hone

/-! ## Rounding -/

/-- A rounding, as bounds. -/
theorem nearest_bounds {q : ℚ} (h : 2 ^ (-1022 : ℤ) ≤ q) :
    q * (1 - 2 ^ (-53 : ℤ)) ≤ nearest q ∧ nearest q ≤ q * (1 + 2 ^ (-53 : ℤ)) := by
  have hnear := abs_le.mp (abs_nearest_sub_le h)
  rw [mul_sub, mul_add, mul_one]
  exact ⟨by linarith [hnear.1], by linarith [hnear.2]⟩

/-- The seconds of a unit are not too small. -/
theorem DurationUnit.scale_ge (unit : DurationUnit) : 2 ^ (-20 : ℤ) ≤ unit.scale := by
  cases unit <;> norm_num [DurationUnit.scale]

theorem DurationUnit.factor_bounds (unit : DurationUnit) :
    unit.scale * (1 - 2 ^ (-53 : ℤ)) ≤ unit.factor ∧ unit.factor ≤ unit.scale * (1 + 2 ^ (-53 : ℤ)) := by
  have hrange : (2 : ℚ) ^ (-1022 : ℤ) ≤ 2 ^ (-20 : ℤ) := two_zpow_le (by norm_num)
  have hscale := hrange.trans unit.scale_ge
  cases unit with
  | us => exact nearest_bounds hscale
  | ms => exact nearest_bounds hscale
  | s => norm_num [DurationUnit.factor, DurationUnit.scale]

/-- The double of a duration is near to it: there are three roundings. -/
theorem duration_seconds_bounds {value : Duration} (h : 2 ^ (-1000 : ℤ) ≤ value.number) :
    value.seconds * (1 - 2 ^ (-51 : ℤ)) ≤ duration_seconds value ∧
      duration_seconds value ≤ value.seconds * (1 + 2 ^ (-51 : ℤ)) := by
  have hpos : 0 < value.number := (two_zpow_pos _).trans_le h
  have hscale_pos : 0 < value.unit.scale := (two_zpow_pos _).trans_le value.unit.scale_ge
  have hseconds : 0 ≤ value.seconds := mul_nonneg hpos.le hscale_pos.le
  obtain ⟨hnumber, hnumber'⟩ := nearest_bounds ((two_zpow_le (by norm_num)).trans h)
  obtain ⟨hfactor, hfactor'⟩ := value.unit.factor_bounds
  have hlow : value.seconds * (1 - 2 ^ (-53 : ℤ)) ^ 2 ≤ nearest value.number * value.unit.factor := by
    calc value.seconds * (1 - 2 ^ (-53 : ℤ)) ^ 2
        = (value.number * (1 - 2 ^ (-53 : ℤ))) * (value.unit.scale * (1 - 2 ^ (-53 : ℤ))) := by
          rw [Duration.seconds]; ring
      _ ≤ nearest value.number * value.unit.factor :=
          mul_le_mul hnumber hfactor (mul_nonneg hscale_pos.le (by norm_num)) (nearest_nonneg hpos.le)
  have hhigh : nearest value.number * value.unit.factor ≤ value.seconds * (1 + 2 ^ (-53 : ℤ)) ^ 2 := by
    calc nearest value.number * value.unit.factor
        ≤ (value.number * (1 + 2 ^ (-53 : ℤ))) * (value.unit.scale * (1 + 2 ^ (-53 : ℤ))) :=
          mul_le_mul hnumber' hfactor' value.unit.factor_nonneg (mul_nonneg hpos.le (by norm_num))
      _ = value.seconds * (1 + 2 ^ (-53 : ℤ)) ^ 2 := by rw [Duration.seconds]; ring
  have hrange : 2 ^ (-1022 : ℤ) ≤ nearest value.number * value.unit.factor := by
    refine le_trans ?_ hlow
    calc (2 : ℚ) ^ (-1022 : ℤ) = 2 ^ (-1000 : ℤ) * 2 ^ (-20 : ℤ) * 2 ^ (-2 : ℤ) := by
          rw [← zpow_add₀ two_ne_zero, ← zpow_add₀ two_ne_zero]; rfl
      _ ≤ value.seconds * (1 - 2 ^ (-53 : ℤ)) ^ 2 :=
          mul_le_mul (mul_le_mul h value.unit.scale_ge (two_zpow_pos _).le hpos.le) (by norm_num)
            (two_zpow_pos _).le hseconds
  obtain ⟨hround, hround'⟩ := nearest_bounds hrange
  constructor
  · calc value.seconds * (1 - 2 ^ (-51 : ℤ))
        ≤ value.seconds * ((1 - 2 ^ (-53 : ℤ)) ^ 2 * (1 - 2 ^ (-53 : ℤ))) :=
          mul_le_mul_of_nonneg_left (by norm_num) hseconds
      _ ≤ nearest value.number * value.unit.factor * (1 - 2 ^ (-53 : ℤ)) := by
          rw [← mul_assoc]
          exact mul_le_mul_of_nonneg_right hlow (by norm_num)
      _ ≤ duration_seconds value := hround
  · calc duration_seconds value
        ≤ nearest value.number * value.unit.factor * (1 + 2 ^ (-53 : ℤ)) := hround'
      _ ≤ value.seconds * ((1 + 2 ^ (-53 : ℤ)) ^ 2 * (1 + 2 ^ (-53 : ℤ))) := by
          rw [← mul_assoc]
          exact mul_le_mul_of_nonneg_right hhigh (by norm_num)
      _ ≤ value.seconds * (1 + 2 ^ (-51 : ℤ)) := mul_le_mul_of_nonneg_left (by norm_num) hseconds

/-- The double of an age is near to it. -/
theorem total_seconds_bounds (h : 0 ≤ time) :
    (time / 1000000 : ℚ) * (1 - 2 ^ (-53 : ℤ)) ≤ total_seconds time ∧
      total_seconds time ≤ (time / 1000000 : ℚ) * (1 + 2 ^ (-53 : ℤ)) := by
  rcases h.eq_or_lt with rfl | hpos
  · norm_num [total_seconds]
  · refine nearest_bounds ?_
    have hone : (1 : ℚ) ≤ time := by exact_mod_cast hpos
    calc (2 : ℚ) ^ (-1022 : ℤ) ≤ 2 ^ (-20 : ℤ) := two_zpow_le (by norm_num)
      _ ≤ 1 / 1000000 := by norm_num
      _ ≤ time / 1000000 := div_le_div_of_nonneg_right hone (by norm_num)

/-- The doubles of an age and of a duration compare as the age and the duration do. -/
def ReadExactly (time : ℤ) (value : Duration) : Prop :=
  total_seconds time < duration_seconds value ↔ (time / 1000000 : ℚ) < value.seconds

instance (time : ℤ) (value : Duration) : Decidable (ReadExactly time value) :=
  inferInstanceAs (Decidable (_ ↔ _))

/-- They do when the age and the duration are apart by more than a fraction of `2 ^ (-50)`
of the duration. -/
theorem readExactly_of_apart {value : Duration} (h : 0 ≤ time)
    (hvalue : 2 ^ (-1000 : ℤ) ≤ value.number)
    (hapart : value.seconds * 2 ^ (-50 : ℤ) < |(time : ℚ) / 1000000 - value.seconds|) :
    ReadExactly time value := by
  have hpos : 0 < value.seconds :=
    mul_pos ((two_zpow_pos _).trans_le hvalue) ((two_zpow_pos _).trans_le value.unit.scale_ge)
  obtain ⟨hage, hage'⟩ := total_seconds_bounds h
  obtain ⟨hduration, hduration'⟩ := duration_seconds_bounds hvalue
  rcases lt_abs.mp hapart with hlater | hearlier
  · refine iff_of_false (not_lt.mpr ?_) (not_lt.mpr (by linarith [mul_pos hpos (two_zpow_pos (-50))]))
    calc duration_seconds value ≤ value.seconds * (1 + 2 ^ (-51 : ℤ)) := hduration'
      _ ≤ value.seconds * ((1 + 2 ^ (-50 : ℤ)) * (1 - 2 ^ (-53 : ℤ))) :=
          mul_le_mul_of_nonneg_left (by norm_num) hpos.le
      _ ≤ (time / 1000000 : ℚ) * (1 - 2 ^ (-53 : ℤ)) := by
          rw [← mul_assoc]
          exact mul_le_mul_of_nonneg_right (by linarith) (by norm_num)
      _ ≤ total_seconds time := hage
  · refine iff_of_true ?_ (by linarith [mul_pos hpos (two_zpow_pos (-50))])
    calc total_seconds time ≤ (time / 1000000 : ℚ) * (1 + 2 ^ (-53 : ℤ)) := hage'
      _ ≤ value.seconds * ((1 - 2 ^ (-50 : ℤ)) * (1 + 2 ^ (-53 : ℤ))) := by
          rw [← mul_assoc]
          exact mul_le_mul_of_nonneg_right (by linarith) (by norm_num)
      _ < value.seconds * (1 - 2 ^ (-51 : ℤ)) := mul_lt_mul_of_pos_left (by norm_num) hpos
      _ ≤ duration_seconds value := hduration

/-- Nine milliseconds have a larger double as a duration than as an age. -/
example : ¬ ReadExactly 9000 ⟨9, .ms, by norm_num⟩ := by decide +kernel

end MininetAi
