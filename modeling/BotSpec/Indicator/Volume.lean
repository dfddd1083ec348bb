import BotSpec.Indicator.Average
import BotSpec.Market.Candle
import BotSpec.Market.Signal

/-!
# Volume indicators

The volume-weighted average price over a window, and the on-balance volume against its own average.
-/

namespace BotSpec.Indicator

open Arith

variable {α : Type} [Arith α]

/-! ## Volume-weighted average price -/

structure Vwap (α : Type) where
  period : Nat
  /-- The typical price times the volume, and the volume, of the last bars. -/
  window : List (α × α)
  reading : Option α

namespace Vwap

def start (period : Nat) : Vwap α := ⟨period, [], none⟩

/-- The mean of high, low and close. -/
def typicalPrice (bar : Bar α) : α := (bar.high + bar.low + bar.close) / ofNat 3

/-- Both sums over a window. -/
def totals (window : List (α × α)) : α × α :=
  window.foldl (fun t x => (t.1 + x.1, t.2 + x.2)) (ofNat 0, ofNat 0)

/-- A close below the average buys, a close above it sells. A window without volume has no average. -/
def step (s : Vwap α) (bar : Bar α) : Signal × Vwap α :=
  let window := pushWindow s.period s.window (typicalPrice bar * bar.volume, bar.volume)
  if window.length < s.period then (.hold, { s with window })
  else
    let (traded, volume) := totals window
    if volume ≤ ofNat 0 then (.hold, { s with window, reading := none })
    else
      let x := traded / volume
      let vote : Signal := if bar.close < x then .buy else if x < bar.close then .sell else .hold
      (vote, { s with window, reading := some x })

def reset (s : Vwap α) : Vwap α := start s.period

end Vwap

/-! ## On-balance volume -/

structure Obv (α : Type) where
  average : Sma α
  period : Nat
  balance : α
  previous : Option α
  bars : Nat

namespace Obv

def start? (period : Nat) : Option (Obv α) :=
  (Sma.start? period).map fun a => ⟨a, period, ofNat 0, none, 0⟩

/-- The balance after a bar: its volume counts with the direction of the close. -/
def moved (s : Obv α) (bar : Bar α) : α :=
  match s.previous with
  | none => s.balance
  | some previous =>
    if previous < bar.close then s.balance + bar.volume
    else if bar.close < previous then s.balance - bar.volume
    else s.balance

/-- A balance above its average buys, below it sells. -/
def step (s : Obv α) (bar : Bar α) : Signal × Obv α :=
  let balance := s.moved bar
  let (mean, average) := s.average.next balance
  let s' := { s with average, balance, previous := some bar.close, bars := s.bars + 1 }
  if s.bars + 1 < s.period then (.hold, s')
  else (if mean < balance then .buy else if balance < mean then .sell else .hold, s')

/-- The balance, once a bar has been seen. -/
def reading (s : Obv α) : Option α := if s.bars > 0 then some s.balance else none

def reset (s : Obv α) : Obv α := ⟨s.average.reset, s.period, ofNat 0, none, 0⟩

end Obv

end BotSpec.Indicator
