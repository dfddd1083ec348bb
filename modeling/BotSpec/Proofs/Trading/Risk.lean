import BotSpec.Trading.Risk
import BotSpec.Proofs.Decimal.Places

/-!
# Breakers never undercut history

The drawdown breaker is a product of what history has seen, rounded, and the greatest decimal where
the product is too large for one. Said once for any number, that is `Decimal.saturate`: the nearest
decimal if there is one, else the greatest. On numbers that are not negative it keeps order. The
point to see is the end of the range: a number without a nearest decimal is above the greatest one,
so no rounding of a larger number is below it (`saturate_le_saturate`).

The streak breaker is a sum of counts that stays at the largest count, and then the larger one of
two (`toNat_breakerStreak`), so that all about it is arithmetic of whole numbers.

> `derive_never_undercuts`: the breakers look at the size of the drawdown alone, grow with it and
> with the streak, and are no smaller than either.
-/

namespace BotSpec

namespace Decimal

variable {a : Decimal} {x y : ℚ}

/-- A number as a decimal; a number too large for one is made the greatest. -/
def saturate (x : ℚ) : Decimal := (nearestTo? x).getD greatest

theorem value_greatest : greatest.value = twoPow 96 - 1 := by
  rw [value_of_literal (a := greatest) (n := twoPow 96 - 1) (d := 1) rfl rfl rfl, Nat.cast_one, div_one,
    Nat.cast_sub (twoPow_pos 96), Nat.cast_one]

theorem value_le_greatest (a : Decimal) : a.value ≤ greatest.value := by
  rw [value_greatest]
  exact (le_abs_self a.value).trans a.abs_value_le

/-- A number without a nearest decimal is above the greatest one. -/
theorem greatest_lt_of_nearestTo? (hx : 0 ≤ x) (h : nearestTo? x = none) : greatest.value < x := by
  by_contra hle
  have hsize : |x| ≤ |greatest.value| := by
    rw [abs_of_nonneg hx]
    exact (not_lt.mp hle).trans (le_abs_self _)
  have hsome := isSome_nearestTo? hsize
  rw [h] at hsome
  cases hsome

/-- Saturation keeps order, also across its point. -/
theorem saturate_le_saturate (hx : 0 ≤ x) (h : x ≤ y) : (saturate x).value ≤ (saturate y).value := by
  unfold saturate
  cases hr' : nearestTo? y with
  | none => exact value_le_greatest _
  | some r' =>
    cases hr : nearestTo? x with
    | none =>
      -- the larger number is above the greatest decimal as well, and is rounded to nothing below it
      have hbelow : greatest.value ≤ y := (greatest_lt_of_nearestTo? hx hr).le.trans h
      exact (rounds_of_nearestTo? hr').ge_of_ge greatest greatest.scale_le hbelow
    | some r => exact value_le_of_nearestTo? hr hr' h

/-- What is no smaller than a decimal is not made smaller than it. -/
theorem le_saturate (h : a.value ≤ x) : a.value ≤ (saturate x).value := by
  unfold saturate
  cases hr : nearestTo? x with
  | none => exact value_le_greatest a
  | some r => exact (rounds_of_nearestTo? hr).ge_of_ge a a.scale_le h

/-- A product that does not fit is taken for the greatest decimal, which is saturation. -/
theorem value_getD_product? (a b : Decimal) :
    ((product? a b).getD greatest).value = (saturate (a.value * b.value)).value := by
  rw [saturate, ← Option.getD_map value, map_value_product?, Option.getD_map]

end Decimal

/-! ## Counts -/

/-- Counts are added with saturation at their end. -/
theorem toNat_addCounts (a b : UInt32) : (addCounts a b).toNat = min (a.toNat + b.toNat) (twoPow 32 - 1) := by
  have hlimit : twoPow 32 = 4294967296 := by decide
  unfold addCounts
  split
  · next hfit =>
    rw [UInt32.toNat_add, Nat.mod_eq_of_lt (by omega)]
    omega
  · next hlarge =>
    have hgreatest : (UInt32.ofNat (twoPow 32 - 1)).toNat = twoPow 32 - 1 := by decide
    rw [hgreatest]
    omega

namespace RiskPolicy

variable {policy : RiskPolicy} {drawdown drawdown' : Decimal} {streak streak' : UInt32}

/-- The streak that halts is the saturated sum, or the least one if that is more. -/
theorem toNat_breakerStreak (policy : RiskPolicy) (drawdown : Decimal) (streak : UInt32) :
    (policy.derive drawdown streak).breakerStreak.toNat =
      max (min (streak.toNat + policy.lossStreakMargin.toNat) (twoPow 32 - 1)) policy.minLossStreak.toNat := by
  rw [← toNat_addCounts]
  show (if addCounts streak policy.lossStreakMargin < policy.minLossStreak then policy.minLossStreak
    else addCounts streak policy.lossStreakMargin).toNat = _
  split
  · next hless =>
    rw [UInt32.lt_iff_toNat_lt] at hless
    omega
  · next hless =>
    rw [UInt32.lt_iff_toNat_lt] at hless
    omega

/-! ## Drawdowns -/

/-- The drawdown that halts is the product with the factor, in its shortest form. -/
theorem breakerDrawdown_eq (policy : RiskPolicy) (drawdown : Decimal) (streak : UInt32) :
    (policy.derive drawdown streak).breakerDrawdown =
      ((Decimal.product? drawdown.abs policy.drawdownFactor).getD Decimal.greatest).normalize := rfl

theorem value_breakerDrawdown (policy : RiskPolicy) (drawdown : Decimal) (streak : UInt32) :
    (policy.derive drawdown streak).breakerDrawdown.value =
      (Decimal.saturate (|drawdown.value| * policy.drawdownFactor.value)).value := by
  rw [breakerDrawdown_eq, Decimal.value_normalize, Decimal.value_getD_product?, Decimal.value_abs]

/-- Drawdowns of one size have one breaker, to the last place of its written form. -/
theorem breakerDrawdown_congr (h : |drawdown.value| = |drawdown'.value|) :
    (policy.derive drawdown streak).breakerDrawdown = (policy.derive drawdown' streak').breakerDrawdown := by
  rw [breakerDrawdown_eq, breakerDrawdown_eq]
  apply Decimal.normalize_eq_of_value_eq
  rw [Decimal.value_getD_product?, Decimal.value_getD_product?, Decimal.value_abs, Decimal.value_abs, h]

/-- A deeper drawdown has a later breaker. -/
theorem breakerDrawdown_le (hfactor : 0 ≤ policy.drawdownFactor.value)
    (h : |drawdown.value| ≤ |drawdown'.value|) :
    (policy.derive drawdown streak).breakerDrawdown.value ≤ (policy.derive drawdown' streak').breakerDrawdown.value := by
  rw [value_breakerDrawdown, value_breakerDrawdown]
  apply Decimal.saturate_le_saturate
  · exact mul_nonneg (abs_nonneg _) hfactor
  · exact mul_le_mul_of_nonneg_right h hfactor

/-- With a factor of at least one, the breaker does not halt before the drawdown that was there. -/
theorem historicalDrawdown_le (hfactor : 1 ≤ policy.drawdownFactor.value) :
    (policy.derive drawdown streak).historicalDrawdown.value ≤ (policy.derive drawdown streak).breakerDrawdown.value := by
  rw [value_breakerDrawdown]
  apply Decimal.le_saturate
  show drawdown.abs.value ≤ _
  rw [Decimal.value_abs]
  exact le_mul_of_one_le_right (abs_nonneg _) hfactor

/-- The drawdown breaker is the product without needless places, and the greatest decimal where
there is no product. -/
theorem breakerDrawdown_of_mul (policy : RiskPolicy) (drawdown : Decimal) (streak : UInt32) :
    (∀ r, drawdown.abs.mul policy.drawdownFactor = .ok r → (policy.derive drawdown streak).breakerDrawdown = r.normalize) ∧
    (∀ fault, drawdown.abs.mul policy.drawdownFactor = .error fault →
      (policy.derive drawdown streak).breakerDrawdown = Decimal.greatest) := by
  rw [breakerDrawdown_eq, Decimal.mul]
  cases Decimal.product? drawdown.abs policy.drawdownFactor with
  | none =>
    constructor
    · intro r hr
      cases hr
    · intro fault _
      decide
  | some r =>
    constructor
    · intro r' hr'
      cases hr'
      rfl
    · intro fault hfault
      cases hfault

/-! ## Both -/

/-- **Breakers never undercut history.** With a factor that is not negative, for any drawdowns and
streaks that statistics may have:

* there are breakers, also where the product of drawdown and factor is too large: then that of the
  drawdown is the greatest decimal;
* only the size of the drawdown matters: the same number without its sign gives the same thresholds,
  and drawdowns of one size the same breakers;
* the breaker of the drawdown does not fall where the drawdown grows, and with a factor of one or
  more it is no smaller than the drawdown;
* the breaker of the streak does not fall where the streak grows, it is no smaller than the smallest
  one that the policy allows, nor than the streak, and with a margin it is longer than the streak if
  there is a longer one. -/
theorem derive_never_undercuts (policy : RiskPolicy) (hfactor : Decimal.zero ≤ policy.drawdownFactor) :
    (∀ drawdown streak,
      (∀ r, drawdown.abs.mul policy.drawdownFactor = .ok r →
        (policy.derive drawdown streak).breakerDrawdown = r.normalize) ∧
      (∀ fault, drawdown.abs.mul policy.drawdownFactor = .error fault →
        (policy.derive drawdown streak).breakerDrawdown = Decimal.greatest)) ∧
    (∀ (drawdown drawdown' : Decimal) (streak : UInt32),
      (drawdown.abs = drawdown'.abs → policy.derive drawdown streak = policy.derive drawdown' streak) ∧
      (|drawdown.value| = |drawdown'.value| →
        (policy.derive drawdown streak).breakerDrawdown = (policy.derive drawdown' streak).breakerDrawdown ∧
        (policy.derive drawdown streak).breakerStreak = (policy.derive drawdown' streak).breakerStreak)) ∧
    (∀ drawdown drawdown' streak streak', |drawdown.value| ≤ |drawdown'.value| →
      (policy.derive drawdown streak).breakerDrawdown ≤ (policy.derive drawdown' streak').breakerDrawdown) ∧
    (Decimal.one ≤ policy.drawdownFactor → ∀ drawdown streak,
      (policy.derive drawdown streak).historicalDrawdown ≤ (policy.derive drawdown streak).breakerDrawdown ∧
      |drawdown.value| ≤ (policy.derive drawdown streak).breakerDrawdown.value) ∧
    (∀ drawdown drawdown' streak streak', streak ≤ streak' →
      (policy.derive drawdown streak).breakerStreak ≤ (policy.derive drawdown' streak').breakerStreak) ∧
    (∀ drawdown streak,
      policy.minLossStreak ≤ (policy.derive drawdown streak).breakerStreak ∧
      streak ≤ (policy.derive drawdown streak).breakerStreak ∧
      (0 < policy.lossStreakMargin → streak.toNat < twoPow 32 - 1 →
        streak < (policy.derive drawdown streak).breakerStreak)) := by
  have hpositive : 0 ≤ policy.drawdownFactor.value := by
    rw [← Decimal.value_zero]
    exact Decimal.le_iff_value_le.mp hfactor
  -- the drawdown breaker is a saturated product, the streak breaker a sum of counts
  refine ⟨policy.breakerDrawdown_of_mul, ?size, ?drawdown, ?factor, ?streak, ?bounds⟩
  case size =>
    intro drawdown drawdown' streak
    refine ⟨?_, fun h => ⟨breakerDrawdown_congr h, rfl⟩⟩
    intro h
    unfold derive
    rw [h]
  case drawdown =>
    intro drawdown drawdown' streak streak' h
    rw [Decimal.le_iff_value_le]
    exact breakerDrawdown_le hpositive h
  case factor =>
    intro hone drawdown streak
    rw [Decimal.le_iff_value_le, Decimal.value_one] at hone
    rw [Decimal.le_iff_value_le, ← Decimal.value_abs]
    exact ⟨historicalDrawdown_le hone, historicalDrawdown_le hone⟩
  case streak =>
    intro drawdown drawdown' streak streak' h
    rw [UInt32.le_iff_toNat_le] at h ⊢
    rw [toNat_breakerStreak, toNat_breakerStreak]
    omega
  case bounds =>
    intro drawdown streak
    have hlimit : twoPow 32 = 4294967296 := by decide
    have hstreak := streak.toNat_lt
    have hleast := policy.minLossStreak.toNat_lt
    simp only [UInt32.le_iff_toNat_le, UInt32.lt_iff_toNat_lt, toNat_breakerStreak]
    refine ⟨by omega, by omega, ?_⟩
    intro hmargin hshort
    have hsome : 0 < policy.lossStreakMargin.toNat := hmargin
    omega

/-- The standard policy with a factor of 1.5. A drawdown of -12.40 has the breaker of one of 12.4,
and one of 6 · 10^28 has no product and gets the greatest decimal. -/
theorem derive_never_undercuts_standard :
    let shallow : Decimal := .neg (.ofDigits 1240 2)
    let deep : Decimal := .ofDigits (6 * tenPow 28) 0
    Decimal.zero ≤ standard.drawdownFactor ∧ Decimal.one ≤ standard.drawdownFactor ∧
    |shallow.value| = |(Decimal.ofDigits 124 1).value| ∧ |shallow.value| ≤ |deep.value| ∧
    deep.abs.mul standard.drawdownFactor = .error .multiplication ∧
    (standard.derive deep 9).breakerDrawdown = Decimal.greatest ∧
    (standard.derive shallow 9).breakerDrawdown = (standard.derive (.ofDigits 124 1) 9).breakerDrawdown ∧
    (standard.derive shallow 9).breakerDrawdown ≤ (standard.derive deep 3).breakerDrawdown ∧
    |deep.value| ≤ (standard.derive deep 9).breakerDrawdown.value ∧
    (standard.derive shallow 3).breakerStreak ≤ (standard.derive deep 9).breakerStreak ∧
    9 < (standard.derive deep 9).breakerStreak := by
  intro shallow deep
  have hshallow : |shallow.value| = 1240 / 100 := by
    rw [Decimal.value_neg, Decimal.value_of_literal (a := .ofDigits 1240 2) (n := 1240) (d := 100) rfl rfl rfl]
    norm_num
  have hplain : |(Decimal.ofDigits 124 1).value| = 124 / 10 := by
    rw [Decimal.value_of_literal (a := .ofDigits 124 1) (n := 124) (d := 10) rfl rfl rfl]
    norm_num
  have hdeep : |deep.value| = 6 * tenPow 28 := by
    rw [Decimal.value_of_literal (a := deep) (n := 6 * tenPow 28) (d := 1) rfl rfl rfl]
    norm_num [tenPow]
  have hsame : |shallow.value| = |(Decimal.ofDigits 124 1).value| := by
    rw [hshallow, hplain]
    norm_num
  have hless : |shallow.value| ≤ |deep.value| := by
    rw [hshallow, hdeep]
    norm_num [tenPow]
  have hfactor : Decimal.zero ≤ standard.drawdownFactor := by decide
  have hone : Decimal.one ≤ standard.drawdownFactor := by decide
  have hlarge : deep.abs.mul standard.drawdownFactor = .error .multiplication := by decide +kernel
  obtain ⟨hproduct, hsize, hdrawdown, hhistory, hstreak, hbounds⟩ := derive_never_undercuts standard hfactor
  exact ⟨hfactor, hone, hsame, hless, hlarge, (hproduct deep 9).2 _ hlarge, ((hsize shallow _ 9).2 hsame).1,
    hdrawdown shallow deep 9 3 hless, (hhistory hone deep 9).2, hstreak shallow deep 3 9 (by decide),
    (hbounds deep 9).2.2 (by decide) (by decide)⟩

end RiskPolicy

end BotSpec
