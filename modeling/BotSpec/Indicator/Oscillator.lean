import BotSpec.Indicator.Average
import BotSpec.Indicator.Extremum
import BotSpec.Market.Candle
import BotSpec.Market.Signal

/-!
# Oscillators

Three indicators with an overbought and an oversold level: the relative strength index, the
stochastic oscillator and Williams %R. Each is a state whose `step` takes one bar and gives the vote
on it.
-/

namespace BotSpec.Indicator

open Arith

variable {α : Type} [Arith α]

/-- Buy below the oversold level, else sell above the overbought one. -/
def levelVote (overbought oversold x : α) : Signal :=
  if x < oversold then .buy else if overbought < x then .sell else .hold

/-! ## Relative strength index -/

structure Rsi (α : Type) where
  period : Nat
  overbought : α
  oversold : α
  previous : Option α
  /-- How many changes from close to close have been seen. -/
  changes : Nat
  gain : α
  loss : α
  reading : Option α

namespace Rsi

def start (period : Nat) (overbought oversold : α) : Rsi α :=
  ⟨period, overbought, oversold, none, 0, ofNat 0, ofNat 0, none⟩

/-- 100 when there is no loss. -/
def index (gain loss : α) : α :=
  if loss == ofNat 0 then ofNat 100 else ofNat 100 - ofNat 100 / (ofNat 1 + gain / loss)

/-- The averaged gain or loss after one more: the plain mean over the first `period` changes,
smoothed afterwards. -/
def average (s : Rsi α) (current x : α) : α :=
  let n : α := ofNat s.period
  if s.changes + 1 ≤ s.period then current + x / n else (current * (n - ofNat 1) + x) / n

def step (s : Rsi α) (bar : Bar α) : Signal × Rsi α :=
  match s.previous with
  | none => (.hold, { s with previous := some bar.close })
  | some previous =>
    let change := bar.close - previous
    let gain := s.average s.gain (max change (ofNat 0))
    let loss := s.average s.loss (max (-change) (ofNat 0))
    let s' := { s with previous := some bar.close, changes := s.changes + 1, gain, loss }
    if s.changes + 1 < s.period then (.hold, s')
    else
      let x := index gain loss
      (levelVote s.overbought s.oversold x, { s' with reading := some x })

def reset (s : Rsi α) : Rsi α := start s.period s.overbought s.oversold

end Rsi

/-! ## Stochastic oscillator -/

structure Stochastic (α : Type) where
  period : Nat
  overbought : α
  oversold : α
  highest : Extremum α
  lowest : Extremum α
  /-- Up to three values of %K without a gap between them. -/
  recent : List α
  k : Option α
  /-- %K and %D of the bar before, if it had both. -/
  previous : Option (α × α)
  bars : Nat

namespace Stochastic

def start? (period : Nat) (overbought oversold : α) : Option (Stochastic α) := do
  return ⟨period, overbought, oversold, ← Extremum.start? .highest period,
    ← Extremum.start? .lowest period, [], none, none, 0⟩

/-- A cross of %K over %D that ends below the oversold level buys, the reverse above the overbought
level sells. -/
def crossVote (overbought oversold : α) : Option (α × α) → α → α → Signal
  | none, _, _ => .hold
  | some (pk, pd), k, d =>
    if pk < pd ∧ d < k ∧ k < oversold then .buy
    else if pd < pk ∧ k < d ∧ overbought < k then .sell
    else .hold

def step (s : Stochastic α) (bar : Bar α) : Signal × Stochastic α :=
  let (hh, highest) := s.highest.next bar.high
  let (ll, lowest) := s.lowest.next bar.low
  let s' := { s with highest, lowest, bars := s.bars + 1 }
  if s.bars + 1 < s.period ∨ hh == ll then
    -- %K is undefined, and %D starts again from the next %K
    (.hold, { s' with k := none, recent := [], previous := none })
  else
    let k := ofNat 100 * (bar.close - ll) / (hh - ll)
    let recent := pushWindow 3 s.recent k
    if recent.length < 3 then (.hold, { s' with k := some k, recent, previous := none })
    else
      let d := recent.foldl (fun a b => a + b) (ofNat 0) / ofNat 3
      (crossVote s.overbought s.oversold s.previous k d,
        { s' with k := some k, recent, previous := some (k, d) })

def reset (s : Stochastic α) : Stochastic α :=
  { s with
    highest := s.highest.reset, lowest := s.lowest.reset, recent := [], k := none, previous := none, bars := 0 }

end Stochastic

/-! ## Williams %R -/

structure WilliamsR (α : Type) where
  period : Nat
  overbought : α
  oversold : α
  highest : Extremum α
  lowest : Extremum α
  reading : Option α
  bars : Nat

namespace WilliamsR

def start? (period : Nat) (overbought oversold : α) : Option (WilliamsR α) := do
  return ⟨period, overbought, oversold, ← Extremum.start? .highest period,
    ← Extremum.start? .lowest period, none, 0⟩

def step (s : WilliamsR α) (bar : Bar α) : Signal × WilliamsR α :=
  let (hh, highest) := s.highest.next bar.high
  let (ll, lowest) := s.lowest.next bar.low
  let s' := { s with highest, lowest, bars := s.bars + 1 }
  if s.bars + 1 < s.period ∨ hh == ll then (.hold, { s' with reading := none })
  else
    let x := -(ofNat 100) * (hh - bar.close) / (hh - ll)
    (levelVote s.overbought s.oversold x, { s' with reading := some x })

def reset (s : WilliamsR α) : WilliamsR α :=
  { s with highest := s.highest.reset, lowest := s.lowest.reset, reading := none, bars := 0 }

end WilliamsR

end BotSpec.Indicator
