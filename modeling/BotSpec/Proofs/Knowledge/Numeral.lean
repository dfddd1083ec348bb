import Mathlib.Data.Int.ConditionallyCompleteOrder
import Mathlib.Order.Monotone.Basic
import Mathlib.Tactic.Linarith
import BotSpec.Knowledge.Ranking
import BotSpec.Proofs.Binary64.Value

/-!
# Statistics as doubles

A stored statistic is compared by the position of a double. Positions are whole numbers: the bits of
the double, with the sign of the numeral. They are ordered as the doubles are:

> `rankPosition_lt_iff`, `rankPosition_eq_iff`: texts are ranked by `rankReal`, the double that is
> read at their front.

The bits of a positive double grow with the double (`value_ofBits_lt_iff`); with the sign they grow
from the smallest negative double to the largest positive one, and both zeros have the position zero
(`realAt_strictMonoOn`).
-/

namespace BotSpec

open Binary64 (infinityBits)
open Binary64.Double (ofBits value_ofBits_lt_iff)

/-- The double at a position: zero in the middle, negative ones below. -/
def realAt (position : Int) : ℚ :=
  if position < 0 then -(ofBits position.natAbs).value else (ofBits position.natAbs).value

theorem value_ofBits_zero : (ofBits 0).value = 0 := by
  show ((0 : Nat) * _ : ℚ) / _ = 0
  rw [Nat.cast_zero, zero_mul, zero_div]

/-- Positions of doubles, with or without sign. -/
def positions : Set Int := { p | p.natAbs ≤ infinityBits }

/-- Larger positions are those of larger doubles. -/
theorem realAt_strictMonoOn : StrictMonoOn realAt positions := by
  intro p hp q hq h
  have hpos {n : Int} (hn : n.natAbs ≤ infinityBits) (hne : n ≠ 0) : 0 < (ofBits n.natAbs).value := by
    rw [← value_ofBits_zero, value_ofBits_lt_iff (Nat.zero_le _) hn]
    exact Int.natAbs_pos.mpr hne
  unfold realAt
  -- of two negative numbers the one with the larger bits is the smaller
  by_cases hpneg : p < 0 <;> by_cases hqneg : q < 0
  · rw [if_pos hpneg, if_pos hqneg, neg_lt_neg_iff, value_ofBits_lt_iff hq hp]
    omega
  · rw [if_pos hpneg, if_neg hqneg]
    have hsize := hpos hp hpneg.ne
    rcases eq_or_ne q 0 with rfl | hne
    · rw [Int.natAbs_zero, value_ofBits_zero]
      linarith
    · linarith [hpos hq hne]
  · omega
  · rw [if_neg hpneg, if_neg hqneg, value_ofBits_lt_iff hp hq]
    omega

namespace Numeral

/-- The double that a numeral is read as. -/
def real (n : Numeral) : ℚ := if n.negative then -(ofBits n.bits).value else (ofBits n.bits).value

/-- A nearest double is at most infinite, however large the number is. -/
theorem nearestBits_le (n d : Nat) : Binary64.nearestBits n d ≤ infinityBits := Nat.min_le_right _ _

theorem extendedBits_le (x : Binary64.Extended) : x.bits ≤ infinityBits := by
  simp only [Binary64.Extended.bits]
  split
  · exact le_rfl
  · exact nearestBits_le _ _

/-- No numeral is read as more than infinity, on whichever way to its double. -/
theorem bits_le (n : Numeral) : n.bits ≤ infinityBits := by
  simp only [bits]
  split
  · exact Nat.zero_le _
  split
  · exact nearestBits_le _ _
  · exact extendedBits_le _

/-- The position of a numeral is that of a double. -/
theorem position_mem (n : Numeral) : n.position ∈ positions := by
  have hbits := n.bits_le
  show n.position.natAbs ≤ infinityBits
  unfold position
  split <;> omega

/-- The number at the position of a numeral is the one that it is cast to. -/
theorem realAt_position (n : Numeral) : realAt n.position = n.real := by
  unfold realAt position real
  cases n.negative with
  | false => simp
  | true =>
    -- a negative zero has the position of zero, and its value
    rcases Nat.eq_zero_or_pos n.bits with hzero | hpos
    · simp [hzero, value_ofBits_zero]
    · simp [hpos]

end Numeral

/-- What a statistic is compared as: the double that the numeral at the front of its text is read
as, zero without one. -/
def rankReal (text : StoredText) : ℚ :=
  match Numeral.front? text.chars with
  | some (n, _) => n.real
  | none => 0

/-- A text has the position of its number. -/
theorem realAt_rankPosition (text : StoredText) : realAt (rankPosition text) = rankReal text := by
  unfold rankPosition rankReal
  cases Numeral.front? text.chars with
  | some parsed => exact Numeral.realAt_position _
  | none => exact value_ofBits_zero

/-- Positions of texts are those of doubles. -/
theorem rankPosition_mem (text : StoredText) : rankPosition text ∈ positions := by
  unfold rankPosition
  split
  · exact Numeral.position_mem _
  · exact Nat.zero_le _

/-- Texts are ranked by the doubles at their fronts. -/
theorem rankPosition_lt_iff (a b : StoredText) : rankPosition a < rankPosition b ↔ rankReal a < rankReal b := by
  rw [← realAt_rankPosition, ← realAt_rankPosition]
  exact (realAt_strictMonoOn.lt_iff_lt (rankPosition_mem a) (rankPosition_mem b)).symm

/-- Texts have one position exactly if they have one number. -/
theorem rankPosition_eq_iff (a b : StoredText) : rankPosition a = rankPosition b ↔ rankReal a = rankReal b := by
  rw [← realAt_rankPosition, ← realAt_rankPosition]
  exact (realAt_strictMonoOn.injOn.eq_iff (rankPosition_mem a) (rankPosition_mem b)).symm

-- these two have neighbours for nearest doubles, and are read as one number
example : rankPosition (.text "7.27298") = rankPosition (.text "7.2729800000000004") := by decide +kernel

end BotSpec
