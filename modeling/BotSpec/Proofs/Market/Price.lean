import BotSpec.Market.Price
import BotSpec.Proofs.Decimal.Value

/-!
# Share prices as numbers

What the prices of a share stand for, and `clamp` as the projection on the range of estimated
prices.
-/

namespace BotSpec

namespace SharePrice

theorem value_even : even.value = 1 / 2 := by
  norm_num [Decimal.value_of_literal (a := even) (n := 50) (d := 100) rfl rfl rfl]

theorem value_lowest : lowest.value = 1 / 20 := by
  norm_num [Decimal.value_of_literal (a := lowest) (n := 5) (d := 100) rfl rfl rfl]

theorem value_highest : highest.value = 19 / 20 := by
  norm_num [Decimal.value_of_literal (a := highest) (n := 95) (d := 100) rfl rfl rfl]

/-- The limits of a share price are in order. -/
theorem lowest_le_highest : lowest.value ≤ highest.value := by
  rw [value_lowest, value_highest]
  norm_num

/-- A price is brought into the limits by projection. -/
theorem value_clamp (price : Decimal) : (clamp price).value = max (1 / 20) (min (19 / 20) price.value) := by
  rw [clamp, Decimal.value_clamp price lowest_le_highest, value_lowest, value_highest]

theorem clamp_mem (price : Decimal) : 1 / 20 ≤ (clamp price).value ∧ (clamp price).value ≤ 19 / 20 := by
  rw [value_clamp]
  exact ⟨le_max_left _ _, max_le (by norm_num) (min_le_left _ _)⟩

theorem value_clamp_of_le {price : Decimal} (h : price.value ≤ 1 / 20) : (clamp price).value = 1 / 20 := by
  rw [value_clamp, max_eq_left ((min_le_right _ _).trans h)]

theorem value_clamp_of_ge {price : Decimal} (h : 19 / 20 ≤ price.value) : (clamp price).value = 19 / 20 := by
  rw [value_clamp, min_eq_left h, max_eq_right (by norm_num)]

/-- The prices of the two sides of a market: together one, what the right side pays. -/
def Complementary (a b : Decimal) : Prop := a.value + b.value = 1

/-- Both ends are equally far from the middle, so the two sides of a market are moved alike. -/
theorem Complementary.clamp {a b : Decimal} (h : Complementary a b) : Complementary (clamp a) (clamp b) := by
  have hb : b.value = 1 - a.value := eq_sub_of_add_eq' h
  unfold Complementary
  rcases le_or_gt a.value (1 / 20) with hlow | hlow
  · rw [value_clamp_of_le hlow, value_clamp_of_ge (by linarith)]
    norm_num
  · rcases le_or_gt (19 / 20) a.value with hhigh | hhigh
    · rw [value_clamp_of_ge hhigh, value_clamp_of_le (by linarith)]
      norm_num
    · rw [value_clamp, value_clamp, min_eq_right hhigh.le, max_eq_right hlow.le, min_eq_right (by linarith),
        max_eq_right (by linarith)]
      exact h

end SharePrice

end BotSpec
