import Mathlib.Tactic.Positivity
import Mathlib.Tactic.Ring
import BotSpec.Indicator.Trend
import BotSpec.Proofs.Indicator.Exact

/-!
# The average directional index in exact arithmetic

The moves of the price that count are not larger than the true range of the bar
(`directionalPart_add_le`), if the close before was between the high and the low of its bar.
Smoothing keeps this, as it takes all numbers with the same weights (`approach`), so the invariant
`Adx.Bounded` holds along every run:

> `Adx.Bounded.step`: the two smoothed moves are not negative and together at most the smoothed
> range, and the index is a percentage.

The index is smoothed from percentages (`apart_bounds`), and divides by what has been compared with
zero before (`Adx.step_eq`).
-/

namespace BotSpec.Indicator

open Arith

variable {byZero byZero' root : ℚ → ℚ}

/-! ## Smoothing -/

/-- A number moved towards another one. -/
def approach (weight current x : ℚ) : ℚ := current + weight * (x - current)

section Approach

variable {weight a b x y : ℚ}

/-- Smoothing is linear: sums are smoothed to sums. -/
theorem approach_add : approach weight a x + approach weight b y = approach weight (a + b) (x + y) := by
  unfold approach
  ring

/-- Numbers that are not larger are not moved beyond the others. -/
theorem approach_le (hlow : 0 ≤ weight) (hhigh : weight ≤ 1) (ha : a ≤ b) (hx : x ≤ y) :
    approach weight a x ≤ approach weight b y := by
  have hkept : (1 - weight) * a ≤ (1 - weight) * b := mul_le_mul_of_nonneg_left ha (by linarith)
  have hmoved : weight * x ≤ weight * y := mul_le_mul_of_nonneg_left hx hlow
  unfold approach
  linarith

theorem approach_self (weight a : ℚ) : approach weight a a = a := by
  unfold approach
  ring

end Approach

/-- The reading after a bar, from the index of the bar. -/
def smoothed (weight x : ℚ) : Option ℚ → ℚ
  | some a => approach weight a x
  | none => x

/-- Percentages are smoothed to a percentage, since the weight is between zero and one. -/
theorem smoothed_bounds {weight x : ℚ} (hlow : 0 ≤ weight) (hhigh : weight ≤ 1) (hx : 0 ≤ x ∧ x ≤ 100) {reading : Option ℚ}
    (hreading : ∀ a, reading = some a → 0 ≤ a ∧ a ≤ 100) :
    0 ≤ smoothed weight x reading ∧ smoothed weight x reading ≤ 100 := by
  cases reading with
  | none => exact hx
  | some a =>
    obtain ⟨hzero, hhundred⟩ := hreading a rfl
    constructor
    · rw [← approach_self weight 0]
      exact approach_le hlow hhigh hzero hx.1
    · rw [← approach_self weight 100]
      exact approach_le hlow hhigh hhundred hx.2

/-! ## Moves of the price -/

/-- The part of a move that counts. -/
def directionalPart (move other : ℚ) : ℚ := if other < move ∧ 0 < move then move else 0

/-- The true range of a bar after a close. -/
def rangeAfter (close : ℚ) (bar : Bar ℚ) : ℚ := max (max (bar.high - bar.low) |bar.high - close|) |bar.low - close|

theorem directionalPart_nonneg (move other : ℚ) : 0 ≤ directionalPart move other := by
  unfold directionalPart
  split
  next h => exact h.2.le
  next => exact le_refl _

/-- The true range contains the range of the bar itself. -/
theorem rangeAfter_nonneg (close : ℚ) (bar : Bar ℚ) : 0 ≤ rangeAfter close bar :=
  le_max_of_le_right (abs_nonneg _)

/-- Only one of two moves counts, and the true range covers it. -/
theorem directionalPart_add_le {previous : Bar ℚ} (hlow : previous.low ≤ previous.close)
    (hhigh : previous.close ≤ previous.high) (bar : Bar ℚ) :
    directionalPart (bar.high - previous.high) (previous.low - bar.low) +
        directionalPart (previous.low - bar.low) (bar.high - previous.high) ≤ rangeAfter previous.close bar := by
  have hup : bar.high - previous.high ≤ rangeAfter previous.close bar :=
    calc bar.high - previous.high ≤ bar.high - previous.close := by linarith
      _ ≤ |bar.high - previous.close| := le_abs_self _
      _ ≤ rangeAfter previous.close bar := le_max_of_le_left (le_max_right _ _)
  have hdown : previous.low - bar.low ≤ rangeAfter previous.close bar :=
    calc previous.low - bar.low ≤ -(bar.low - previous.close) := by linarith
      _ ≤ |bar.low - previous.close| := neg_le_abs _
      _ ≤ rangeAfter previous.close bar := le_max_right _ _
  have hnone := rangeAfter_nonneg previous.close bar
  unfold directionalPart
  split
  next h =>
    rw [if_neg fun h' => lt_asymm h.1 h'.1]
    linarith
  next =>
    split <;> linarith

/-- How far apart the two directions are, in percent of both. -/
def apart (plus minus : ℚ) : ℚ := if 0 < plus + minus then 100 * |plus - minus| / (plus + minus) else 0

/-- How far apart two numbers are, relative to their sum, is a percentage. -/
theorem apart_bounds {plus minus : ℚ} (hplus : 0 ≤ plus) (hminus : 0 ≤ minus) :
    0 ≤ apart plus minus ∧ apart plus minus ≤ 100 := by
  unfold apart
  split
  next hsum =>
    have hdistance : |plus - minus| ≤ plus + minus := abs_le.mpr ⟨by linarith, by linarith⟩
    refine ⟨by positivity, ?_⟩
    rw [div_le_iff₀ hsum]
    linarith
  next => exact ⟨le_refl _, by norm_num⟩

/-! ## One step -/

namespace Adx

section Step

variable {α : Type} [Arith α]

/-- The averages after a bar. -/
def moved (s : Adx α) (previous bar : Bar α) : Adx α :=
  { s with
    previous := some bar, bars := s.bars + 1
    range := s.smooth s.range (trueRange (some previous.close) bar)
    plus := s.smooth s.plus (directional (bar.high - previous.high) (previous.low - bar.low))
    minus := s.smooth s.minus (directional (previous.low - bar.low) (bar.high - previous.high)) }

def plusIndex (s : Adx α) : α := ofNat 100 * s.plus / s.range

def minusIndex (s : Adx α) : α := ofNat 100 * s.minus / s.range

/-- The reading from the averages and the reading before. -/
def nextReading (s : Adx α) : α :=
  match s.reading with
  | some a => a + s.weight * (separation s.plusIndex s.minusIndex - a)
  | none => separation s.plusIndex s.minusIndex

/-- The vote on a reading. -/
def trendVote (s : Adx α) : Signal :=
  if s.bars < s.period * 2 ∨ s.nextReading ≤ s.threshold then .hold
  else if s.minusIndex < s.plusIndex then .buy
  else if s.plusIndex < s.minusIndex then .sell
  else .hold

/-- A bar after another one: the averages move, and they are read if there is a range. -/
theorem step_of_previous {s : Adx α} {previous : Bar α} (h : s.previous = some previous) (bar : Bar α) :
    s.step bar =
      if (s.moved previous bar).range ≤ ofNat 0 then (.hold, s.moved previous bar)
      else ((s.moved previous bar).trendVote,
        { s.moved previous bar with reading := some (s.moved previous bar).nextReading }) := by
  unfold step
  rw [h]
  rfl

end Step

variable {s : Adx ℚ}

theorem weight_exact (byZero root : ℚ → ℚ) (h : 1 ≤ s.period) :
    @weight ℚ (exact byZero root) s = 1 / s.period := by
  have hpos : (0 : ℚ) < s.period := by exact_mod_cast h
  exact quotient_of_pos hpos

/-- In exact arithmetic a number is smoothed by moving to it, and on the second bar it is taken as
it is. -/
theorem smooth_exact (h : 1 ≤ s.period) (current x : ℚ) :
    @smooth ℚ (exact byZero root) s current x = if s.bars + 1 = 2 then x else approach (1 / s.period) current x := by
  rw [← weight_exact byZero root h]
  rfl

theorem separation_exact (plus minus : ℚ) :
    @separation ℚ (exact byZero root) plus minus = apart plus minus := by
  show (if 0 < plus + minus then quotient byZero (100 * _) (plus + minus) else 0) = _
  rw [abs_exact, apart]
  split
  next h => exact quotient_of_pos h
  next => rfl

/-- A positive range is a divisor that is not zero, so the index is the quotient. -/
theorem plusIndex_exact (h : 0 < s.range) :
    @plusIndex ℚ (exact byZero root) s = 100 * s.plus / s.range := quotient_of_pos h

theorem minusIndex_exact (h : 0 < s.range) :
    @minusIndex ℚ (exact byZero root) s = 100 * s.minus / s.range := quotient_of_pos h

/-- The next reading in exact arithmetic: the distance of the two indices, smoothed. -/
theorem nextReading_exact (hperiod : 1 ≤ s.period) (h : 0 < s.range) :
    @nextReading ℚ (exact byZero root) s =
      smoothed (1 / s.period) (apart (100 * s.plus / s.range) (100 * s.minus / s.range)) s.reading := by
  have hindex : @separation ℚ (exact byZero root) (@plusIndex ℚ (exact byZero root) s)
      (@minusIndex ℚ (exact byZero root) s) =
      apart (100 * s.plus / s.range) (100 * s.minus / s.range) := by
    rw [plusIndex_exact h, minusIndex_exact h, separation_exact]
  unfold nextReading
  rw [hindex, weight_exact byZero root hperiod]
  cases s.reading <;> rfl

/-- All that a bar changes, in exact arithmetic. -/
theorem moved_exact (h : 1 ≤ s.period) (previous bar : Bar ℚ) :
    @moved ℚ (exact byZero root) s previous bar =
      { s with
        previous := some bar, bars := s.bars + 1
        range := if s.bars + 1 = 2 then rangeAfter previous.close bar
          else approach (1 / s.period) s.range (rangeAfter previous.close bar)
        plus := if s.bars + 1 = 2 then directionalPart (bar.high - previous.high) (previous.low - bar.low)
          else approach (1 / s.period) s.plus (directionalPart (bar.high - previous.high) (previous.low - bar.low))
        minus := if s.bars + 1 = 2 then directionalPart (previous.low - bar.low) (bar.high - previous.high)
          else approach (1 / s.period) s.minus (directionalPart (previous.low - bar.low) (bar.high - previous.high)) } := by
  have hrange : @trueRange ℚ (exact byZero root) (some previous.close) bar = rangeAfter previous.close bar := by
    show @Arith.max ℚ (exact byZero root)
      (@Arith.max ℚ (exact byZero root) (bar.high - bar.low) (@Arith.abs ℚ (exact byZero root) (bar.high - previous.close)))
      (@Arith.abs ℚ (exact byZero root) (bar.low - previous.close)) = _
    rw [abs_exact, abs_exact, max_exact, max_exact, rangeAfter]
  unfold moved
  rw [hrange, smooth_exact h, smooth_exact h, smooth_exact h]
  rfl

/-- No division by zero takes part in a step. -/
theorem step_eq (h : 1 ≤ s.period) (bar : Bar ℚ) :
    @step ℚ (exact byZero root) s bar = @step ℚ (exact byZero' root) s bar := by
  cases hprevious : s.previous with
  | none => simp only [step, hprevious]
  | some previous =>
    rw [@step_of_previous _ (exact byZero root) _ _ hprevious, @step_of_previous _ (exact byZero' root) _ _ hprevious,
      moved_exact h, moved_exact h]
    generalize hs' : ({ s with previous := _, bars := _, range := _, plus := _, minus := _ } : Adx ℚ) = s'
    have hperiod : 1 ≤ s'.period := by rw [← hs']; exact h
    show (if s'.range ≤ 0 then _ else _) = (if s'.range ≤ 0 then _ else _)
    by_cases hflat : s'.range ≤ 0
    · rw [if_pos hflat, if_pos hflat]
    · have hrange : 0 < s'.range := not_le.mp hflat
      rw [if_neg hflat, if_neg hflat]
      unfold trendVote
      rw [nextReading_exact hperiod hrange, nextReading_exact hperiod hrange, plusIndex_exact hrange, plusIndex_exact hrange,
        minusIndex_exact hrange, minusIndex_exact hrange]

/-! ## Runs -/

/-- What holds of the averages and of the reading after any bars. -/
structure Bounded (s : Adx ℚ) : Prop where
  period : 1 ≤ s.period
  closed : ∀ bar, s.previous = some bar → bar.low ≤ bar.close ∧ bar.close ≤ bar.high
  plus : 0 ≤ s.plus
  minus : 0 ≤ s.minus
  together : s.plus + s.minus ≤ s.range
  reading : ∀ x, s.reading = some x → 0 ≤ x ∧ x ≤ 100

/-- Before the first bar there is nothing to bound. -/
theorem bounded_start {period : Nat} (h : 1 ≤ period) (threshold : ℚ) :
    (@start ℚ (exact byZero root) period threshold).Bounded where
  period := h
  closed := nofun
  plus := le_refl _
  minus := le_refl _
  together := (add_zero (0 : ℚ)).le
  reading := nofun

theorem Bounded.moved (byZero root : ℚ → ℚ) (h : s.Bounded) {previous : Bar ℚ} (hprevious : s.previous = some previous)
    {bar : Bar ℚ} (hlow : bar.low ≤ bar.close) (hhigh : bar.close ≤ bar.high) :
    (@Adx.moved ℚ (exact byZero root) s previous bar).Bounded := by
  obtain ⟨hbefore, hbefore'⟩ := h.closed previous hprevious
  have hcovered := directionalPart_add_le hbefore hbefore' bar
  have hup := directionalPart_nonneg (bar.high - previous.high) (previous.low - bar.low)
  have hdown := directionalPart_nonneg (previous.low - bar.low) (bar.high - previous.high)
  have hone : (1 : ℚ) ≤ s.period := by exact_mod_cast h.period
  have hweight : (0 : ℚ) ≤ 1 / s.period := by positivity
  have hweight' : (1 : ℚ) / s.period ≤ 1 := div_le_self (by norm_num) hone
  -- each smoothed number is a first one, or moves from one that is bounded to one that is
  rw [moved_exact h.period]
  refine ⟨h.period, ?_, ?_, ?_, ?_, h.reading⟩
  · intro b hb
    cases hb
    exact ⟨hlow, hhigh⟩
  · show 0 ≤ ite _ _ _
    split
    next => exact hup
    next =>
      rw [← approach_self (1 / (s.period : ℚ)) 0]
      exact approach_le hweight hweight' h.plus hup
  · show 0 ≤ ite _ _ _
    split
    next => exact hdown
    next =>
      rw [← approach_self (1 / (s.period : ℚ)) 0]
      exact approach_le hweight hweight' h.minus hdown
  · show ite _ _ _ + ite _ _ _ ≤ ite _ _ _
    split
    next => exact hcovered
    next =>
      rw [approach_add]
      exact approach_le hweight hweight' h.together hcovered

/-- **One bar more, and the index is still a percentage.** -/
theorem Bounded.step (h : s.Bounded) {bar : Bar ℚ} (hlow : bar.low ≤ bar.close)
    (hhigh : bar.close ≤ bar.high) :
    (@Adx.step ℚ (exact byZero root) s bar).2.Bounded := by
  cases hprevious : s.previous with
  | none =>
    simp only [Adx.step, hprevious]
    refine ⟨h.period, ?_, h.plus, h.minus, h.together, h.reading⟩
    intro b hb
    cases hb
    exact ⟨hlow, hhigh⟩
  | some previous =>
    have hmoved := h.moved byZero root hprevious hlow hhigh
    rw [@step_of_previous _ (exact byZero root) _ _ hprevious]
    generalize @Adx.moved ℚ (exact byZero root) s previous bar = s' at hmoved ⊢
    -- a range of nothing leaves the reading; otherwise both indices are percentages
    split
    next => exact hmoved
    next hflat =>
      have hrange : 0 < s'.range := not_le.mp hflat
      have hone : (1 : ℚ) ≤ s'.period := by exact_mod_cast hmoved.period
      have hweight : (0 : ℚ) ≤ 1 / s'.period := by positivity
      have hplus := hmoved.plus
      have hminus := hmoved.minus
      refine ⟨hmoved.period, hmoved.closed, hplus, hminus, hmoved.together, ?_⟩
      intro x hx
      obtain rfl := Option.some_inj.mp hx
      rw [nextReading_exact hmoved.period hrange]
      exact smoothed_bounds hweight (div_le_self (by norm_num) hone) (apart_bounds (by positivity) (by positivity))
        hmoved.reading

end Adx

end BotSpec.Indicator
