import BotSpec.Market.Candle
import BotSpec.Proofs.Binary64.Magnitude
import BotSpec.Proofs.Indicator.Range

/-!
# Candles in doubles

The prices and the volume of a candle are decimals, and indicators read them as doubles. A decimal
is under `2 ^ 96`, so none of the steps of `Decimal.toFloat` comes near the largest double:

> `under_toFloat`: a decimal as a double is under `2 ^ 201`.

In particular it is a number. The bound is generous, but it is all that is needed to know that
prices are totally ordered and that sums of volumes are numbers.
-/

namespace BotSpec

open Float.Model UnpackedFloat

namespace Binary64

/-! ## Whole numbers -/

/-- The exponent in the bits of a double. -/
theorem toNat_unpackExponent (bits : ℕ) :
    @BitVec.toNat 11 (@unpackExponent Format.binary64 (UInt64.ofNat bits).toBitVec)
      = bits / 2 ^ 52 % 2 ^ 11 := by
  unfold unpackExponent
  rw [BitVec.toNat_cast, BitVec.extractLsb_toNat, Nat.shiftRight_eq_div_pow]
  show bits % 2 ^ 64 / 2 ^ 52 % 2 ^ 11 = _
  omega

/-- The exponent of a whole number is its logarithm. -/
theorem floorLog2_one {n : ℕ} (hn : n ≠ 0) : floorLog2 n 1 = n.log2 := by
  have hlow : twoPow n.log2 ≤ n := Nat.log2_self_le hn
  have hone : Nat.log2 1 = 0 := by decide
  simp only [floorLog2, hone, Int.natCast_zero, sub_zero, Int.natCast_nonneg, if_true,
    Int.toNat_natCast, one_mul]
  rw [if_neg (Nat.not_lt.mpr hlow)]

/-- A significand has at most 53 bits before it is carried. -/
theorem roundShifted_le {n : ℕ} {e : ℤ} (he : (n.log2 : ℤ) - 52 = e) :
    roundShifted n 1 e ≤ 2 ^ 53 := by
  have hn : n < 2 ^ (n.log2 + 1) := Nat.lt_log2_self
  unfold roundShifted
  -- a number of more than 53 bits is divided, and every other one multiplied
  by_cases hpos : 0 ≤ e
  · rw [if_pos hpos, one_mul]
    have hdiv : n / twoPow e.toNat < 2 ^ 53 := by
      rw [Nat.div_lt_iff_lt_mul (twoPow_pos _), twoPow, Nat.pow_eq, ← Nat.pow_add]
      exact lt_of_lt_of_le hn (Nat.pow_le_pow_right (by decide) (by omega))
    unfold roundRatio
    simp only
    split <;> omega
  · rw [if_neg hpos]
    refine le_trans (roundRatio_le _ _ Nat.one_pos) ?_
    calc n * twoPow (-e).toNat
        ≤ 2 ^ (n.log2 + 1) * 2 ^ (-e).toNat := Nat.mul_le_mul_right _ (Nat.le_of_lt hn)
      _ = 2 ^ (n.log2 + 1 + (-e).toNat) := (Nat.pow_add ..).symm
      _ ≤ 2 ^ 53 := Nat.pow_le_pow_right (by decide) (by omega)

/-- A whole number of at most 96 bits as a double. -/
theorem under_nearestFloat {n : ℕ} (h : n < twoPow 96) : Under 97 (nearestFloat n 1) := by
  unfold nearestFloat
  split
  next => exact trivial
  next hn =>
    have hlog : n.log2 < 96 := (Nat.log2_lt hn).mpr h
    have hbits : nearestBits n 1 ≤ (n.log2 + 1022) * 2 ^ 52 + 2 ^ 53 := by
      unfold nearestBits
      rw [floorLog2_one hn, max_eq_left (by omega)]
      have hround := roundShifted_le (n := n) rfl
      have hexponent : ((n.log2 : ℤ) - 52 + 1074).toNat = n.log2 + 1022 := by omega
      refine le_trans (min_le_left _ _) ?_
      rw [hexponent]
      exact Nat.add_le_add_left hround _
    -- the exponent field says how large the double is
    have hfield : nearestBits n 1 / 2 ^ 52 % 2 ^ 11 ≤ n.log2 + 1024 := by omega
    refine Below.pack (by decide) (by decide) (below_unpack ?_ ?_)
    · intro hones
      have hval := congrArg BitVec.toNat hones
      rw [toNat_unpackExponent] at hval
      have hlast : (-1#11).toNat = 2047 := rfl
      omega
    · rw [toNat_unpackExponent]
      omega

/-- A power of ten that scales a decimal is at least one. -/
theorem atLeast_nearestFloat_tenPow {places : ℕ} (h : places ≤ 28) :
    AtLeast 1 (nearestFloat (tenPow places) 1) := by
  -- 29 powers, each evaluated
  have hall : ∀ places : Fin 29,
      (match formOf (nearestFloat (tenPow places) 1) with
      | .finite _ m e _ => decide (1 ≤ totalExponent m e)
      | _ => false) = true := by decide +kernel
  have hplaces := hall ⟨places, Nat.lt_succ_of_le h⟩
  dsimp only at hplaces
  cases hform : formOf (nearestFloat (tenPow places) 1) with
  | finite s m e hm =>
    rw [hform] at hplaces
    exact ⟨s, m, e, hm, hform, of_decide_eq_true hplaces⟩
  | infinity s =>
    rw [hform] at hplaces
    cases hplaces
  | notANumber =>
    rw [hform] at hplaces
    cases hplaces
  | zero s =>
    rw [hform] at hplaces
    cases hplaces

/-- Rounding down keeps a bound that is far above the whole numbers in question. -/
theorem under_floor {k : ℤ} {x : Float} (hk : 65 ≤ k) (hx : Under k x) : Under k (Binary64.floor x) := by
  unfold Binary64.floor
  split
  next =>
    have hcount : Below (64 + 1) (UnpackedFloat.normalize Format.binary64 (x.toUInt64.toNat : ℤ) 0 .positive) :=
      below_normalize .positive x.toUInt64.toNat_lt (by decide) (by decide)
    exact Under.mono (Below.pack (by decide) (by decide) hcount) hk
  next => exact hx

theorem under_round {k : ℤ} {x : Float} (hk : 65 ≤ k) (hk' : k ≤ 969) (hx : Under k x) :
    Under (k + 2) (Binary64.round x) := by
  have hone : Under 1 (1 : Float) := by
    show totalExponent (2 ^ 52) (-52) ≤ 1
    decide
  unfold Binary64.round
  split
  next => exact (under_floor hk hx).mono (by omega)
  next => exact Under.add (by omega) hk' (under_floor hk hx) (hone.mono (by omega))

end Binary64

open Binary64

/-- A decimal as a double is far from infinity. -/
theorem Decimal.under_toFloat (a : Decimal) : Under 201 a.toFloat := by
  -- a bound for every operation on the way: whole part, fraction, sum, and the sum rounded
  have hunit : AtLeast 1 (nearestFloat (tenPow a.scale) 1) := atLeast_nearestFloat_tenPow a.scale_le
  have hscale : tenPow a.scale < twoPow 96 :=
    lt_of_le_of_lt (Nat.pow_le_pow_right (by decide) a.scale_le) (by decide)
  have hwhole : Under 97 (nearestFloat (a.magnitude / tenPow a.scale) 1) :=
    under_nearestFloat (lt_of_le_of_lt (Nat.div_le_self _ _) a.magnitude_lt)
  have hfraction : Under 98 (nearestFloat (a.magnitude % tenPow a.scale) 1 / nearestFloat (tenPow a.scale) 1) :=
    Under.div (by decide) (by decide)
      (under_nearestFloat (lt_of_le_of_lt (Nat.mod_le _ _) a.magnitude_lt)) hunit
  have hscaled : Under 198 ((nearestFloat (a.magnitude / tenPow a.scale) 1
      + nearestFloat (a.magnitude % tenPow a.scale) 1 / nearestFloat (tenPow a.scale) 1)
      * nearestFloat (tenPow a.scale) 1) :=
    Under.mul (by decide) (by decide)
      (Under.add (by decide) (by decide) (hwhole.mono (by decide)) hfraction)
      (under_nearestFloat hscale)
  have hmagnitude : Under 201 (if a.scale = 0 ∨
        (nearestFloat (a.magnitude % tenPow a.scale) 1 / nearestFloat (tenPow a.scale) 1 == 0) = true then
      nearestFloat (a.magnitude / tenPow a.scale) 1
    else
      Binary64.round ((nearestFloat (a.magnitude / tenPow a.scale) 1
        + nearestFloat (a.magnitude % tenPow a.scale) 1 / nearestFloat (tenPow a.scale) 1)
        * nearestFloat (tenPow a.scale) 1) / nearestFloat (tenPow a.scale) 1) := by
    split
    next => exact hwhole.mono (by decide)
    next => exact Under.div (by decide) (by decide) (under_round (by decide) (by decide) hscaled) hunit
  unfold toFloat
  simp only
  split
  next => exact Under.neg (by decide) (by decide) hmagnitude
  next => exact hmagnitude

namespace Candle

open Arith (IsNumber IsAddable)

/-- The prices of a candle are numbers. -/
theorem isNumber_high (c : Candle) : IsNumber c.bar.high := c.high.under_toFloat.isNumber

/-- The low of a candle is a number, since it is read from a decimal. -/
theorem isNumber_low (c : Candle) : IsNumber c.bar.low := c.low.under_toFloat.isNumber

/-- The volume of a candle leaves every sum a number. -/
theorem isAddable_volume (c : Candle) : IsAddable c.bar.volume :=
  fun _ h => isNumber_add h c.volume.under_toFloat

/-! ## Lists of candles -/

theorem isPriced_of_mem_bars {candles : List Candle} {bar : Bar Float}
    (h : bar ∈ candles.map Candle.bar) : Indicator.IsPriced bar := by
  obtain ⟨c, -, rfl⟩ := List.mem_map.mp h
  exact ⟨c.isNumber_high, c.isNumber_low⟩

theorem isAddable_of_mem_bars {candles : List Candle} {bar : Bar Float}
    (h : bar ∈ candles.map Candle.bar) : IsAddable bar.volume := by
  obtain ⟨c, -, rfl⟩ := List.mem_map.mp h
  exact c.isAddable_volume

end Candle

end BotSpec
