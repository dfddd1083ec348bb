import BotSpec.Proofs.Indicator.Range
import BotSpec.Proofs.Strategy.Run

/-!
# Williams %R as a formula

`percentR?` places the last close in the range of the last bars, and `percentRVote` votes on it. The
indicator computes both step by step:

> `WilliamsR.Follows.replay`: after any run the reading is the formula's value, and the vote is the
> formula's vote.

The invariant `WilliamsR.Follows` says that the rings track the range, and holds again after a
reset.
-/

namespace BotSpec.Indicator

open Arith

variable {α : Type} [Arith α]

/-- Numbers that compare alike have one vote. -/
theorem levelVote_congr [LawfulArith α] {overbought oversold x y : α} (h : Same x y) :
    levelVote overbought oversold x = levelVote overbought oversold y := by
  simp only [levelVote, h.lt_iff (.refl oversold), (Same.refl overbought).lt_iff h]

/-- The distance of the last close from the highest high, as a negative percentage of the range. -/
def percentR? (period : Nat) (bars : List (Bar α)) : Option α := do
  let (hh, ll) ← range? period bars
  let bar ← bars.getLast?
  return -(ofNat 100) * (hh - bar.close) / (hh - ll)

/-- The vote on a value of %R. -/
def percentRVote (overbought oversold : α) : Option α → Signal
  | none => .hold
  | some x => levelVote overbought oversold x

/-- A buy is a reading below the level of what is oversold. -/
theorem percentRVote_eq_buy_iff {overbought oversold : α} {x : Option α} :
    percentRVote overbought oversold x = .buy ↔ ∃ w, x = some w ∧ w < oversold := by
  cases x with
  | none => simp [percentRVote]
  | some w =>
    simp only [percentRVote, levelVote]
    by_cases hlow : w < oversold
    · simp [hlow]
    · by_cases hhigh : overbought < w <;> simp [hlow, hhigh]

/-- A sell is a reading above the other level, and not below the first one. -/
theorem percentRVote_eq_sell_iff {overbought oversold : α} {x : Option α} :
    percentRVote overbought oversold x = .sell ↔
      ∃ w, x = some w ∧ ¬ w < oversold ∧ overbought < w := by
  cases x with
  | none => simp [percentRVote]
  | some w =>
    simp only [percentRVote, levelVote]
    by_cases hlow : w < oversold
    · simp [hlow]
    · by_cases hhigh : overbought < w <;> simp [hlow, hhigh]

theorem percentR?_nil (period : Nat) : percentR? period ([] : List (Bar α)) = none := by
  rw [percentR?, range?_nil]
  rfl

/-- Bars before the last ones have no part in %R. -/
theorem percentR?_append {period : Nat} {bars : List (Bar α)} (hne : bars ≠ [])
    (h : period ≤ bars.length) (older : List (Bar α)) :
    percentR? period (older ++ bars) = percentR? period bars := by
  rw [percentR?, percentR?, range?_append h, List.getLast?_append_of_ne_nil _ hne]

namespace WilliamsR

/-- What is known of the indicator after some bars. -/
structure Follows (s : WilliamsR α) (period : Nat) (overbought oversold : α) (bars : List (Bar α)) :
    Prop where
  period_eq : s.period = period
  overbought_eq : s.overbought = overbought
  oversold_eq : s.oversold = oversold
  bars_eq : s.bars = bars.length
  tracks : Tracks s.highest s.lowest period bars
  reading : Option.Rel Same s.reading (percentR? period bars)

variable {period : Nat} {overbought oversold : α}

/-- An oscillator that is started follows the empty history. -/
theorem follows_start {s : WilliamsR α} (h : start? period overbought oversold = some s) :
    s.Follows period overbought oversold [] := by
  by_cases hzero : period = 0
  · simp [start?, Extremum.start?, hzero] at h
  · simp only [start?, Extremum.start?, if_neg hzero] at h
    cases h
    exact ⟨rfl, rfl, rfl, rfl, .start hzero, by rw [percentR?_nil]; exact .none⟩

/-- One that is reset follows the empty history again. -/
theorem Follows.reset {s : WilliamsR α} {bars : List (Bar α)}
    (h : s.Follows period overbought oversold bars) : s.reset.Follows period overbought oversold [] where
  period_eq := h.period_eq
  overbought_eq := h.overbought_eq
  oversold_eq := h.oversold_eq
  bars_eq := rfl
  tracks := h.tracks.reset
  reading := by
    rw [percentR?_nil]
    exact .none

variable [LawfulArith α]

theorem Follows.step {s : WilliamsR α} {bars : List (Bar α)}
    (h : s.Follows period overbought oversold bars) {bar : Bar α}
    (hbars : ∀ b ∈ bars ++ [bar], IsPriced b) :
    (s.step bar).1 = percentRVote overbought oversold (percentR? period (bars ++ [bar])) ∧
      (s.step bar).2.Follows period overbought oversold (bars ++ [bar]) := by
  obtain ⟨hperiod, hob, hos, hcount, htracks, -⟩ := h
  have hnext := htracks.next bar
  have hlen : s.bars + 1 = (bars ++ [bar]).length := by
    rw [List.length_append, List.length_singleton, hcount]
  have hlast : (bars ++ [bar]).getLast? = some bar := List.getLast?_concat
  rcases htracks.range?_eq hbars with ⟨hrange, hflat⟩ | ⟨hh, ll, hrange, hwide, hhigh, hlow⟩
  · have hnone : percentR? period (bars ++ [bar]) = none := by
      rw [percentR?, hrange]
      rfl
    rw [← hcount, ← hperiod] at hflat
    simp only [WilliamsR.step, if_pos hflat, hnone]
    refine ⟨rfl, hperiod, hob, hos, hlen, hnext, ?_⟩
    rw [hnone]
    exact .none
  · have hsome : percentR? period (bars ++ [bar])
        = some (-(ofNat 100) * (hh - bar.close) / (hh - ll)) := by
      rw [percentR?, hrange, hlast]
      rfl
    have hwidth : ((s.highest.next bar.high).1 == (s.lowest.next bar.low).1) = false :=
      Bool.eq_false_iff.mpr fun heq => hwide (Or.inr heq)
    -- the divisors are identical, and the dividends the same
    have hsame : Same (-(ofNat 100) * ((s.highest.next bar.high).1 - bar.close)
          / ((s.highest.next bar.high).1 - (s.lowest.next bar.low).1))
        (-(ofNat 100) * (hh - bar.close) / (hh - ll)) := by
      rw [LawfulArith.sub_eq_sub hwidth hhigh hlow]
      exact LawfulArith.div_same _ (LawfulArith.mul_same _ (LawfulArith.sub_same hhigh (.refl _)))
    rw [← hcount, ← hperiod] at hwide
    simp only [WilliamsR.step, if_neg hwide, hsome]
    refine ⟨?_, hperiod, hob, hos, hlen, hnext, ?_⟩
    · rw [hob, hos]
      exact levelVote_congr hsame
    · rw [hsome]
      exact .some hsame

/-- **Williams %R is its formula.** -/
theorem Follows.replay {s : WilliamsR α} (h : s.Follows period overbought oversold [])
    {bars : List (Bar α)} (hbars : ∀ b ∈ bars, IsPriced b) :
    (replay WilliamsR.step s bars).1 = percentRVote overbought oversold (percentR? period bars) ∧
      (replay WilliamsR.step s bars).2.Follows period overbought oversold bars := by
  refine replay_follows (F := fun t bars => Follows t period overbought oversold bars)
    (V := fun bars => percentRVote overbought oversold (percentR? period bars)) ?_ ?_ h hbars
  · rw [percentR?_nil]
    rfl
  · intro s bars bar hs hbars
    exact hs.step hbars

end WilliamsR

end BotSpec.Indicator
