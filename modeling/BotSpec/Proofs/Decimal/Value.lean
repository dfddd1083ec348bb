import Mathlib.Algebra.Order.Field.Rat
import Mathlib.Algebra.Order.Field.Basic
import Mathlib.Data.Rat.Cast.Order
import Mathlib.Tactic.FieldSimp
import Mathlib.Tactic.Linarith
import Mathlib.Tactic.NormNum
import Mathlib.Tactic.Positivity
import BotSpec.Decimal.Arithmetic

/-!
# What a decimal stands for

A decimal is a written form; `Decimal.value` is the rational number that it stands for. Comparisons
look at nothing else (`lt_iff_value_lt`), a change of sign is one of the value, and `clamp` is the
projection on an interval.

Places and magnitude bound each other: with so many places, values of a decimal are multiples of a
unit and stay below `2 ^ 96` of them.
-/

namespace BotSpec

theorem cast_tenPow_pos (n : Nat) : (0 : ℚ) < tenPow n := Nat.cast_pos.mpr (tenPow_pos n)

theorem cast_tenPow_ne_zero (n : Nat) : (tenPow n : ℚ) ≠ 0 := (cast_tenPow_pos n).ne'

theorem tenPow_le_tenPow {m n : Nat} (h : m ≤ n) : tenPow m ≤ tenPow n :=
  Nat.pow_le_pow_right (by decide) h

/-- A unit of fewer places is a power of ten of the unit of more places. -/
theorem tenPow_sub_mul {m n : Nat} (h : m ≤ n) : tenPow (n - m) * tenPow m = tenPow n := by
  rw [← tenPow_add, Nat.sub_add_cancel h]

namespace Decimal

variable {a b lo hi : Decimal}

/-- The number that a decimal stands for. -/
def value (a : Decimal) : ℚ := a.coefficient / tenPow a.scale

/-- The coefficient is the magnitude with its sign. -/
theorem natAbs_coefficient (a : Decimal) : a.coefficient.natAbs = a.magnitude := by
  unfold coefficient
  split
  · rw [Int.natAbs_neg, Int.natAbs_natCast]
  · rw [Int.natAbs_natCast]

/-- The size of a decimal is its magnitude over the unit of its places. -/
theorem abs_value (a : Decimal) : |a.value| = a.magnitude / tenPow a.scale := by
  have hcoefficient : |(a.coefficient : ℚ)| = a.magnitude := by
    rw [← Int.cast_abs, Int.abs_eq_natAbs, natAbs_coefficient, Int.cast_natCast]
  rw [value, abs_div, hcoefficient, abs_of_pos (cast_tenPow_pos _)]

/-- With the sign, a decimal stands for the opposite of its size. -/
theorem value_of_negative (h : a.negative = true) : a.value = -(a.magnitude / tenPow a.scale) := by
  rw [value, coefficient, if_pos h, Int.cast_neg, Int.cast_natCast, neg_div]

theorem value_of_not_negative (h : a.negative = false) : a.value = a.magnitude / tenPow a.scale := by
  rw [value, coefficient, if_neg (by rw [h]; decide), Int.cast_natCast]

/-- A value is its size with the sign put to it. -/
theorem value_eq_ite (a : Decimal) : a.value = if a.negative then -|a.value| else |a.value| := by
  rw [abs_value]
  split
  · next h => exact value_of_negative h
  · next h => exact value_of_not_negative (Bool.eq_false_of_not_eq_true h)

/-- A zero is a zero whatever its sign and its places are. -/
theorem value_eq_zero_iff : a.value = 0 ↔ a.magnitude = 0 := by
  rw [← abs_eq_zero, abs_value, div_eq_zero_iff, or_iff_left (cast_tenPow_ne_zero _), Nat.cast_eq_zero]

/-- A literal stands for its digits over the unit of its places. -/
theorem value_of_literal {n d : Nat} (hsign : a.negative = false) (hdigits : a.magnitude = n)
    (hunit : tenPow a.scale = d) : a.value = n / d := by
  rw [value_of_not_negative hsign, hdigits, hunit]

theorem value_zero : zero.value = 0 := value_eq_zero_iff.mpr rfl

theorem value_one : one.value = 1 := by
  norm_num [value_of_literal (a := one) (n := 1) (d := 1) rfl rfl rfl]

theorem value_two : two.value = 2 := by
  norm_num [value_of_literal (a := two) (n := 2) (d := 1) rfl rfl rfl]

theorem value_hundred : hundred.value = 100 := by
  norm_num [value_of_literal (a := hundred) (n := 100) (d := 1) rfl rfl rfl]

theorem value_half : (ofDigits 5 1).value = 1 / 2 := by
  norm_num [value_of_literal (a := .ofDigits 5 1) (n := 5) (d := 10) rfl rfl rfl]

/-- A change of sign is one of the value; a zero keeps its sign, which has no value. -/
theorem value_neg (a : Decimal) : a.neg.value = -a.value := by
  unfold neg
  split
  · next hzero => rw [value_eq_zero_iff.mpr hzero, neg_zero]
  · cases hsign : a.negative with
    | true =>
      rw [value_of_negative hsign, value_of_not_negative (by rw [Bool.not_true]), neg_neg]
    | false =>
      rw [value_of_not_negative hsign, value_of_negative (by rw [Bool.not_false])]

theorem scale_neg (a : Decimal) : a.neg.scale = a.scale := by
  unfold neg
  split <;> rfl

/-- No decimal is larger than the greatest. -/
theorem abs_value_le (a : Decimal) : |a.value| ≤ twoPow 96 - 1 := by
  have hmagnitude : (a.magnitude : ℚ) ≤ twoPow 96 - 1 := by
    have hle : a.magnitude + 1 ≤ twoPow 96 := a.magnitude_lt
    have hcast : (a.magnitude : ℚ) + 1 ≤ twoPow 96 := by exact_mod_cast hle
    linarith
  have hunit : (1 : ℚ) ≤ tenPow a.scale := by exact_mod_cast tenPow_pos a.scale
  rw [abs_value]
  exact (div_le_self (Nat.cast_nonneg _) hunit).trans hmagnitude

/-! ## Order -/

/-- Decimals are compared by their values, over the common denominator. -/
theorem lt_iff_value_lt : a < b ↔ a.value < b.value := by
  have hcross : a.value < b.value ↔
      (a.coefficient : ℚ) * tenPow b.scale < b.coefficient * tenPow a.scale :=
    div_lt_div_iff₀ (cast_tenPow_pos _) (cast_tenPow_pos _)
  rw [hcross]
  show a.coefficient * (tenPow b.scale : ℤ) < b.coefficient * (tenPow a.scale : ℤ) ↔ _
  norm_cast

theorem le_iff_value_le : a ≤ b ↔ a.value ≤ b.value := by
  have hcross : a.value ≤ b.value ↔
      (a.coefficient : ℚ) * tenPow b.scale ≤ b.coefficient * tenPow a.scale :=
    div_le_div_iff₀ (cast_tenPow_pos _) (cast_tenPow_pos _)
  rw [hcross]
  show a.coefficient * (tenPow b.scale : ℤ) ≤ b.coefficient * (tenPow a.scale : ℤ) ↔ _
  norm_cast

/-- Clamping is the projection of the value on the interval. -/
theorem value_clamp (x : Decimal) (h : lo.value ≤ hi.value) :
    (clamp x lo hi).value = max lo.value (min hi.value x.value) := by
  unfold clamp
  split
  · next hlow =>
    rw [lt_iff_value_lt] at hlow
    rw [min_eq_right (hlow.le.trans h), max_eq_left hlow.le]
  · next hlow =>
    rw [lt_iff_value_lt, not_lt] at hlow
    split
    · next hhigh =>
      rw [lt_iff_value_lt] at hhigh
      rw [min_eq_left hhigh.le, max_eq_right h]
    · next hhigh =>
      rw [lt_iff_value_lt, not_lt] at hhigh
      rw [min_eq_right hhigh, max_eq_right hlow]

/-- Numbers keep their order between the same limits. -/
theorem clamp_le_clamp (hlimits : lo.value ≤ hi.value) (h : a.value ≤ b.value) :
    (a.clamp lo hi).value ≤ (b.clamp lo hi).value := by
  rw [value_clamp a hlimits, value_clamp b hlimits]
  exact max_le_max le_rfl (min_le_min le_rfl h)

end Decimal

end BotSpec
