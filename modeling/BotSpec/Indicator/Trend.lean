import BotSpec.Indicator.Average
import BotSpec.Market.Candle
import BotSpec.Market.Signal

/-!
# Trend indicators

Two crossovers of exponential averages, which vote on the bar of the cross alone, and the average
directional index, which votes while a trend is strong.
-/

namespace BotSpec.Indicator

open Arith

variable {α : Type} [Arith α]

/-! ## Convergence and divergence of two averages -/

structure Macd (α : Type) where
  divergence : Divergence α
  slow : Nat
  previous : α
  reading : Option α
  bars : Nat

namespace Macd

def start? (fast slow line : Nat) : Option (Macd α) :=
  (Divergence.start? fast slow line).map fun d => ⟨d, slow, ofNat 0, none, 0⟩

/-- A histogram that turns positive buys, one that turns negative sells, after `slow` bars. -/
def step (s : Macd α) (bar : Bar α) : Signal × Macd α :=
  let (x, divergence) := s.divergence.next bar.close
  let warm : Bool := s.bars + 1 > s.slow
  let vote : Signal :=
    if warm ∧ s.previous ≤ ofNat 0 ∧ ofNat 0 < x then .buy
    else if warm ∧ ofNat 0 ≤ s.previous ∧ x < ofNat 0 then .sell
    else .hold
  (vote,
    { s with
      divergence, previous := x, bars := s.bars + 1, reading := if warm then some x else s.reading })

def reset (s : Macd α) : Macd α := ⟨s.divergence.reset, s.slow, ofNat 0, none, 0⟩

end Macd

/-! ## Crossover of two averages -/

structure EmaCrossover (α : Type) where
  fast : Ema α
  slow : Ema α
  slowPeriod : Nat
  previousFast : α
  previousSlow : α
  bars : Nat

namespace EmaCrossover

def start? (fast slow : Nat) : Option (EmaCrossover α) := do
  return ⟨← Ema.start? fast, ← Ema.start? slow, slow, ofNat 0, ofNat 0, 0⟩

/-- The fast average passing above the slow one buys, passing below it sells, after `slowPeriod`
bars. -/
def step (s : EmaCrossover α) (bar : Bar α) : Signal × EmaCrossover α :=
  let (f, fast) := s.fast.next bar.close
  let (l, slow) := s.slow.next bar.close
  let vote : Signal :=
    if s.bars + 1 ≤ s.slowPeriod then .hold
    else if s.previousFast ≤ s.previousSlow ∧ l < f then .buy
    else if s.previousSlow ≤ s.previousFast ∧ f < l then .sell
    else .hold
  (vote, { s with fast, slow, previousFast := f, previousSlow := l, bars := s.bars + 1 })

/-- The distance of the averages, once warm. -/
def reading (s : EmaCrossover α) : Option α :=
  if s.bars > s.slowPeriod then some (s.previousFast - s.previousSlow) else none

def reset (s : EmaCrossover α) : EmaCrossover α :=
  ⟨s.fast.reset, s.slow.reset, s.slowPeriod, ofNat 0, ofNat 0, 0⟩

end EmaCrossover

/-! ## Average directional index -/

/-- The largest distance that the price covered in a bar, the gap from the close before included. -/
def trueRange (previous : Option α) (bar : Bar α) : α :=
  match previous with
  | none => bar.high - bar.low
  | some close => max (max (bar.high - bar.low) (abs (bar.high - close))) (abs (bar.low - close))

structure Adx (α : Type) where
  period : Nat
  threshold : α
  previous : Option (Bar α)
  plus : α
  minus : α
  range : α
  reading : Option α
  bars : Nat

namespace Adx

def start (period : Nat) (threshold : α) : Adx α :=
  ⟨period, threshold, none, ofNat 0, ofNat 0, ofNat 0, none, 0⟩

/-- The weight of a new bar. -/
def weight (s : Adx α) : α := ofNat 1 / ofNat s.period

/-- A smoothed number after one more; the second bar gives the first one. -/
def smooth (s : Adx α) (current x : α) : α :=
  if s.bars + 1 = 2 then x else current + s.weight * (x - current)

/-- The move of a bar in one direction, if it is larger than the move in the other one. -/
def directional (move other : α) : α := if other < move ∧ ofNat 0 < move then move else ofNat 0

/-- How far apart the two directional indices are, in percent of their sum. -/
def separation (plus minus : α) : α :=
  if ofNat 0 < plus + minus then ofNat 100 * abs (plus - minus) / (plus + minus) else ofNat 0

def step (s : Adx α) (bar : Bar α) : Signal × Adx α :=
  match s.previous with
  | none => (.hold, { s with previous := some bar, bars := s.bars + 1 })
  | some previous =>
    let up := bar.high - previous.high
    let down := previous.low - bar.low
    let range := s.smooth s.range (trueRange (some previous.close) bar)
    let plus := s.smooth s.plus (directional up down)
    let minus := s.smooth s.minus (directional down up)
    let s' := { s with previous := some bar, bars := s.bars + 1, range, plus, minus }
    if range ≤ ofNat 0 then (.hold, s')
    else
      let plusIndex := ofNat 100 * plus / range
      let minusIndex := ofNat 100 * minus / range
      let dx := separation plusIndex minusIndex
      let x :=
        match s.reading with
        | some a => a + s.weight * (dx - a)
        | none => dx
      let vote : Signal :=
        if s.bars + 1 < s.period * 2 ∨ x ≤ s.threshold then .hold
        else if minusIndex < plusIndex then .buy
        else if plusIndex < minusIndex then .sell
        else .hold
      (vote, { s' with reading := some x })

def reset (s : Adx α) : Adx α := start s.period s.threshold

end Adx

end BotSpec.Indicator
