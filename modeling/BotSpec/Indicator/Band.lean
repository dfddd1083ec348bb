import BotSpec.Indicator.Trend

/-!
# Bands around a mean

Bollinger bands are a multiple of the deviation around the mean of the closes, mean-reversion bands
a multiple of the average true range. A close below the lower band buys, a close above the upper
band sells.
-/

namespace BotSpec.Indicator

open Arith

variable {α : Type} [Arith α]

/-- The vote on a close between two bands. -/
def bandVote (lower upper close : α) : Signal :=
  if close < lower then .buy else if upper < close then .sell else .hold

/-! ## Bollinger bands -/

structure Bollinger (α : Type) where
  deviation : Deviation α
  period : Nat
  multiplier : α
  bars : Nat
  middle : Option α

namespace Bollinger

def start? (period : Nat) (multiplier : α) : Option (Bollinger α) :=
  (Deviation.start? period).map fun d => ⟨d, period, multiplier, 0, none⟩

def step (s : Bollinger α) (bar : Bar α) : Signal × Bollinger α :=
  let (sd, deviation) := s.deviation.next bar.close
  let s' := { s with deviation, bars := s.bars + 1 }
  if s.bars + 1 < s.period then (.hold, s')
  else
    let mean := deviation.mean
    (bandVote (mean - sd * s.multiplier) (mean + sd * s.multiplier) bar.close,
      { s' with middle := some mean })

def reset (s : Bollinger α) : Bollinger α :=
  { s with deviation := s.deviation.reset, bars := 0, middle := none }

end Bollinger

/-! ## Mean reversion by the average true range -/

structure AtrReversion (α : Type) where
  previous : Option α
  range : Sma α
  mean : Sma α
  warmup : Nat
  multiplier : α
  reading : Option α
  bars : Nat

namespace AtrReversion

def start? (rangePeriod meanPeriod : Nat) (multiplier : α) : Option (AtrReversion α) := do
  return ⟨none, ← Sma.start? rangePeriod, ← Sma.start? meanPeriod, Nat.max rangePeriod meanPeriod,
    multiplier, none, 0⟩

def step (s : AtrReversion α) (bar : Bar α) : Signal × AtrReversion α :=
  let (atr, range) := s.range.next (trueRange s.previous bar)
  let (m, mean) := s.mean.next bar.close
  let s' := { s with previous := some bar.close, range, mean, bars := s.bars + 1 }
  if s.bars + 1 < s.warmup then (.hold, s')
  else
    (bandVote (m - s.multiplier * atr) (m + s.multiplier * atr) bar.close,
      { s' with reading := some atr })

def reset (s : AtrReversion α) : AtrReversion α :=
  { s with previous := none, range := s.range.reset, mean := s.mean.reset, reading := none, bars := 0 }

end AtrReversion

end BotSpec.Indicator
