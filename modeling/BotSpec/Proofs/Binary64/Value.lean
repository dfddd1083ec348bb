import Mathlib.Algebra.Order.Field.Basic
import Mathlib.Data.Rat.Cast.Order
import Mathlib.Order.Monotone.Basic
import Mathlib.Tactic.NormNum
import Mathlib.Tactic.Ring
import BotSpec.Binary64.Shortest

/-!
# The value of a double

The bits of a double, read as a whole number, are ordered as the double is:

> `value_ofBits_lt_iff`: of two positive doubles the one with the larger bits is the larger number.

Every double is a whole number of the smallest subnormal one, and `units` counts them. The exponent
field of the bits says between which two powers of two that number lies (`units_lt`, `le_units`), so
a larger field always wins, and in one field the fraction decides.

The bits of infinity are read as `2 ^ 1024` here, which is larger than every double.
-/

namespace BotSpec

theorem twoPow_add (m n : Nat) : twoPow (m + n) = twoPow m * twoPow n := Nat.pow_add 2 m n

namespace Binary64.Double

/-- The number that a double stands for. -/
def value (x : Double) : ℚ := (x.significand * twoPow x.exponent.toNat : ℚ) / twoPow (-x.exponent).toNat

/-- How often the bits of a double contain the smallest one, `2 ^ (-1074)`. -/
def units (bits : Nat) : Nat :=
  let field : Nat := bits / twoPow 52
  let fraction : Nat := bits % twoPow 52
  if field = 0 then fraction else (twoPow 52 + fraction) * twoPow (field - 1)

/-- A double is below the power of two that its field names. -/
theorem units_lt (bits : Nat) : units bits < twoPow 52 * twoPow (bits / twoPow 52) := by
  have hfraction : bits % twoPow 52 < twoPow 52 := Nat.mod_lt _ (twoPow_pos 52)
  unfold units
  cases hfield : bits / twoPow 52 with
  | zero =>
    rw [twoPow_zero, Nat.mul_one]
    exact hfraction
  | succ k =>
    have hlt : (twoPow 52 + bits % twoPow 52) * twoPow k < (twoPow 52 + twoPow 52) * twoPow k :=
      Nat.mul_lt_mul_of_pos_right (Nat.add_lt_add_left hfraction _) (twoPow_pos k)
    calc (twoPow 52 + bits % twoPow 52) * twoPow k < (twoPow 52 + twoPow 52) * twoPow k := hlt
      _ = twoPow 52 * (twoPow k * 2) := by ring
      _ = twoPow 52 * twoPow (k + 1) := by rw [← twoPow_succ]

/-- A double is at least the power of two before. -/
theorem le_units {bits : Nat} (hfield : bits / twoPow 52 ≠ 0) :
    twoPow 52 * twoPow (bits / twoPow 52 - 1) ≤ units bits := by
  unfold units
  simp only [if_neg hfield]
  exact Nat.mul_le_mul_right _ (Nat.le_add_right _ _)

theorem units_strictMono : StrictMono units := by
  intro a b hlt
  have hle : a / twoPow 52 ≤ b / twoPow 52 := Nat.div_le_div_right hlt.le
  rcases hle.lt_or_eq with hfield | hfield
  · have hpower : twoPow (a / twoPow 52) ≤ twoPow (b / twoPow 52 - 1) :=
      Nat.pow_le_pow_right (by decide) (Nat.le_sub_one_of_lt hfield)
    calc units a < twoPow 52 * twoPow (a / twoPow 52) := units_lt a
      _ ≤ twoPow 52 * twoPow (b / twoPow 52 - 1) := Nat.mul_le_mul_left _ hpower
      _ ≤ units b := le_units (Nat.ne_zero_of_lt hfield)
  · have hfraction : a % twoPow 52 < b % twoPow 52 := by
      have ha := Nat.div_add_mod a (twoPow 52)
      have hb := Nat.div_add_mod b (twoPow 52)
      rw [hfield] at ha
      omega
    unfold units
    simp only [hfield]
    split
    · exact hfraction
    · exact Nat.mul_lt_mul_of_pos_right (Nat.add_lt_add_left hfraction _) (twoPow_pos _)

/-- A significand that stands `k` places above the smallest double. -/
theorem value_eq (significand k : Nat) :
    (Double.mk significand ((k : Int) - 1074)).value = (significand * twoPow k : Nat) / twoPow 1074 := by
  have hup : ((k : Int) - 1074).toNat = k - 1074 := by omega
  have hdown : (-((k : Int) - 1074)).toNat = 1074 - k := by omega
  have hsum : k - 1074 + 1074 = k + (1074 - k) := by omega
  -- one of the two differences is zero, so this holds on either side of the point
  have hpowers : (twoPow (k - 1074) : ℚ) * twoPow 1074 = twoPow k * twoPow (1074 - k) := by
    rw [← Nat.cast_mul, ← Nat.cast_mul, ← twoPow_add, ← twoPow_add, hsum]
  have hne (n : Nat) : (twoPow n : ℚ) ≠ 0 := Nat.cast_ne_zero.mpr (twoPow_pos n).ne'
  rw [value, hup, hdown, Nat.cast_mul, div_eq_div_iff (hne _) (hne _), mul_assoc, hpowers, mul_assoc]

/-- A double is as many times the smallest one as its bits say. -/
theorem value_ofBits {bits : Nat} (h : bits ≤ infinityBits) :
    (ofBits bits).value = (units bits : ℚ) / twoPow 1074 := by
  have hfield : bits / twoPow 52 % 2048 = bits / twoPow 52 := by
    refine Nat.mod_eq_of_lt (lt_of_le_of_lt (Nat.div_le_div_right h) ?_)
    decide
  unfold ofBits units
  rw [hfield]
  cases hcases : bits / twoPow 52 with
  | zero =>
    have hvalue := value_eq (bits % twoPow 52) 0
    rw [twoPow_zero, Nat.mul_one] at hvalue
    exact hvalue
  | succ k =>
    have hexponent : ((k + 1 : Nat) : Int) - 1075 = (k : Int) - 1074 := by omega
    simp only [Nat.succ_ne_zero, if_false, Nat.add_sub_cancel, hexponent]
    exact value_eq _ k

/-- **The bits of doubles are ordered as the doubles are.** -/
theorem value_ofBits_lt_iff {a b : Nat} (ha : a ≤ infinityBits) (hb : b ≤ infinityBits) :
    (ofBits a).value < (ofBits b).value ↔ a < b := by
  have hunit : (0 : ℚ) < twoPow 1074 := by exact_mod_cast twoPow_pos 1074
  rw [value_ofBits ha, value_ofBits hb, div_lt_div_iff_of_pos_right hunit, Nat.cast_lt, units_strictMono.lt_iff_lt]

end Binary64.Double

end BotSpec
