/-
Binary floating-point formats.

A format has numbers of so many binary digits, down to a least exponent and up
to a greatest number.  A number is rounded to the nearest one of the format,
ties to even; what is rounded beyond the greatest number overflows.

* `FloatFormat.ulp` — how far apart the numbers of the format are at a place;
* `FloatFormat.abs_nearest_sub_le` — no number moves by more than half of that;
* `FloatFormat.abs_nearest_sub_lt` — so numbers move little, for their size;
* `FloatFormat.half`, `FloatFormat.double` — two formats.
-/
import NeuralScalpel.Rounding
import Mathlib.Algebra.Order.Field.Power
import Mathlib.Data.Int.Log

structure FloatFormat where
  digits : ℕ
  leastExponent : ℤ
  greatest : ℚ

namespace FloatFormat

variable (f : FloatFormat) {x : ℚ}

/-- The distance between neighbours at `x`, if exponents had no upper bound. -/
def ulp (x : ℚ) : ℚ := 2 ^ max (Int.log 2 |x| + 1 - f.digits) f.leastExponent

/-- The nearest number of the format, if exponents had no upper bound. -/
def nearest (x : ℚ) : ℚ := roundHalfEven (x / f.ulp x) * f.ulp x

/-- Rounding `x` gives no number of the format. -/
def Overflows (x : ℚ) : Prop := f.greatest < |f.nearest x|

instance (x : ℚ) : Decidable (f.Overflows x) := inferInstanceAs (Decidable (_ < _))

/-- `x` is a number of the format. -/
def IsExact (x : ℚ) : Prop := f.nearest x = x ∧ ¬f.Overflows x

instance (x : ℚ) : Decidable (f.IsExact x) := inferInstanceAs (Decidable (_ ∧ _))

/-- Sixteen bits. -/
def half : FloatFormat := ⟨11, -24, 65504⟩

/-- Sixty-four bits. -/
def double : FloatFormat := ⟨53, -1074, (2 ^ 53 - 1) * 2 ^ 971⟩

example : [4097 / 2, 4099 / 2, 1 / 2 ^ 25, 3 / 2 ^ 25].map half.nearest =
    [2048, 2050, 0, 1 / 2 ^ 23] := by decide +kernel

theorem ulp_pos : 0 < f.ulp x := zpow_pos (by norm_num) _

theorem nearest_zero : f.nearest 0 = 0 := by
  have hzero : roundHalfEven (0 : ℚ) = 0 :=
    le_antisymm (roundHalfEven_le (by norm_num)) (roundHalfEven_nonneg le_rfl)
  rw [nearest, zero_div, hzero, Int.cast_zero, zero_mul]

/-- Rounding moves a number by at most half the distance of the neighbours. -/
theorem abs_nearest_sub_le : |f.nearest x - x| ≤ f.ulp x / 2 := by
  have hpos : 0 < f.ulp x := f.ulp_pos
  have hsplit : f.nearest x - x = (roundHalfEven (x / f.ulp x) - x / f.ulp x) * f.ulp x := by
    rw [nearest, sub_mul, div_mul_cancel₀ _ hpos.ne']
  rw [hsplit, abs_mul, abs_of_pos hpos]
  calc |(roundHalfEven (x / f.ulp x) : ℚ) - x / f.ulp x| * f.ulp x
      ≤ 1 / 2 * f.ulp x := mul_le_mul_of_nonneg_right (abs_roundHalfEven_sub_le _) hpos.le
    _ = f.ulp x / 2 := by rw [one_div_mul_eq_div]

/-- The distance of the neighbours, for the size of the number. -/
theorem ulp_le (hx : x ≠ 0) :
    f.ulp x = 2 ^ f.leastExponent ∨ f.ulp x * 2 ^ f.digits ≤ 2 * |x| := by
  rcases max_choice (Int.log 2 |x| + 1 - f.digits) f.leastExponent with hlog | hleast
  · right
    have hle : (2 : ℚ) ^ Int.log 2 |x| ≤ |x| :=
      Int.zpow_log_le_self (by norm_num) (abs_pos.mpr hx)
    rw [ulp, hlog, ← zpow_natCast (2 : ℚ) f.digits, ← zpow_add₀ (by norm_num), sub_add_cancel,
      zpow_add₀ (by norm_num), zpow_one, mul_comm]
    exact mul_le_mul_of_nonneg_left hle (by norm_num)
  · left
    rw [ulp, hleast]

/-- A number moves by less than `c`, if it is not too large for it and `c` is
not below the least number. -/
theorem abs_nearest_sub_lt {c : ℚ} (hc : 2 ^ f.leastExponent ≤ c)
    (hx : |x| < 2 ^ f.digits * c) : |f.nearest x - x| < c := by
  have hleast : (0 : ℚ) < 2 ^ f.leastExponent := zpow_pos (by norm_num) _
  rcases eq_or_ne x 0 with rfl | hne
  · rw [nearest_zero, sub_zero, abs_zero]
    exact hleast.trans_le hc
  · refine f.abs_nearest_sub_le.trans_lt ?_
    rcases f.ulp_le hne with hulp | hulp
    · rw [hulp]
      linarith
    · have hpos : (0 : ℚ) < 2 ^ f.digits := by positivity
      have hlt : f.ulp x / 2 * 2 ^ f.digits < c * 2 ^ f.digits := by linarith
      exact lt_of_mul_lt_mul_right hlt hpos.le

end FloatFormat
