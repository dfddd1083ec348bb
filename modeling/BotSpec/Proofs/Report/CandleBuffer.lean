import BotSpec.Proofs.Binary64.Arithmetic
import BotSpec.Proofs.Indicator.Extreme
import BotSpec.Report.Brief

/-!
# Candles to keep

How many candles a bot keeps is read off the raw parameters, whatever they mean: the longest value
that could be a period counts. It is the extreme of these values (`longestPeriodOf_spec`), so keys
and order have no part in it:

> `candleBuffer_congr`: two sets with the same values keep the same number of candles.
-/

namespace BotSpec

open Binary64
open Indicator (Side)

/-- A value that is taken for a period. -/
def IsPeriodLike (v : Float) : Prop := 0 < v ∧ v < periodBound

/-- The values that are looked at are those that could be periods. -/
theorem mem_filter_periodLike {values : List Float} {v : Float} :
    v ∈ values.filter (fun v => 0 < v && v < periodBound) ↔ v ∈ values ∧ IsPeriodLike v := by
  simp [IsPeriodLike]

/-- The longest period is the highest of them, or zero. -/
theorem extreme?_longestPeriodOf (values : List Float) :
    Side.highest.extreme? (0 :: values.filter fun v => 0 < v && v < periodBound) = some (longestPeriodOf values) := by
  have hbetter : (fun best x : Float => if Side.highest.beats x best = true then x else best)
      = fun a v => if a < v then v else a := by
    funext a v
    simp only [Side.beats, decide_eq_true_eq]
  rw [Side.extreme?, hbetter, longestPeriodOf]

/-- The longest period is one of the values, or zero, and no period is longer. -/
theorem longestPeriodOf_spec (values : List Float) :
    (longestPeriodOf values = 0 ∨ longestPeriodOf values ∈ values ∧ IsPeriodLike (longestPeriodOf values)) ∧
      ∀ v ∈ values, IsPeriodLike v → ¬ longestPeriodOf values < v := by
  obtain ⟨hmem, hbest⟩ := Side.extreme?_eq_some .highest (extreme?_longestPeriodOf values)
  rw [List.mem_cons, mem_filter_periodLike] at hmem
  refine ⟨hmem, fun v hv hperiod => ?_⟩
  exact of_decide_eq_false (hbest v (List.mem_cons_of_mem _ (mem_filter_periodLike.mpr ⟨hv, hperiod⟩)))

/-- Below the doubles that are all whole, rounding up sees the form of a double alone. -/
theorem Binary64.ceil_congr {x y : Float} (hform : formOf x = formOf y) (hx : x < wholeFrom) :
    ceil x = ceil y := by
  have hy : y < wholeFrom := by
    rw [lt_iff, ← hform]
    exact lt_iff.mp hx
  have hcount : x.toUInt64 = y.toUInt64 := congrArg Float.Model.UnpackedFloat.toUInt64 hform
  have hfloor : floor x = floor y := by
    rw [floor, floor, if_pos hx, if_pos hy, hcount]
  have hlt : floor x < x ↔ floor y < y := by
    rw [lt_iff, lt_iff, hform, hfloor]
  by_cases h : floor x < x
  · rw [ceil, ceil, if_pos h, if_pos (hlt.mp h), hfloor]
  · rw [ceil, ceil, if_neg h, if_neg (mt hlt.mpr h), hfloor]

/-- Two periods of which neither is longer are rounded up alike. -/
theorem ceil_eq_of_not_lt {x y : Float} (hx : IsPeriodLike x) (hy : IsPeriodLike y) (hxy : ¬ x < y)
    (hyx : ¬ y < x) :
    ceil x = ceil y := by
  have hxNumber : Arith.IsNumber x := beq_self_iff.mpr (lt_iff.mp hx.1).2.1
  have hyNumber : Arith.IsNumber y := beq_self_iff.mpr (lt_iff.mp hy.1).2.1
  have hwhole : periodBound < wholeFrom := by decide +kernel
  refine ceil_congr ?_ (LawfulArith.lt_trans hx.2 hwhole)
  rcases alike_of_beq (LawfulArith.beq_of_not_lt hxNumber hyNumber hxy hyx) with hform | ⟨s, t, hs, -⟩
  · exact hform
  · -- a zero is no period
    have hplace : place (formOf 0) < place (formOf x) := (lt_iff.mp hx.1).2.2
    rw [hs] at hplace
    exact absurd hplace (lt_irrefl _)

/-- **The same values, the same number of candles.** -/
theorem ParamSet.candleBuffer_congr {p q : ParamSet} (h : ∀ x, x ∈ p.values ↔ x ∈ q.values) :
    p.candleBuffer = q.candleBuffer := by
  have hceil : ceil (longestPeriodOf p.values) = ceil (longestPeriodOf q.values) := by
    obtain ⟨hp, hpBest⟩ := longestPeriodOf_spec p.values
    obtain ⟨hq, hqBest⟩ := longestPeriodOf_spec q.values
    rcases hp with hp | ⟨hpMem, hpPeriod⟩ <;> rcases hq with hq | ⟨hqMem, hqPeriod⟩
    · rw [hp, hq]
    · exact absurd hqPeriod.1 (hp ▸ hpBest _ ((h _).mpr hqMem) hqPeriod)
    · exact absurd hpPeriod.1 (hq ▸ hqBest _ ((h _).mp hpMem) hpPeriod)
    · exact ceil_eq_of_not_lt hpPeriod hqPeriod (hpBest _ ((h _).mpr hqMem) hqPeriod)
        (hqBest _ ((h _).mp hpMem) hpPeriod)
  rw [candleBuffer, candleBuffer, hceil]

end BotSpec
