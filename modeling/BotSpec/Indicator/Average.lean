import BotSpec.Indicator.Arith

/-!
# Running averages

The averages that several indicators share, each a state with a `next` that takes one number and
gives the average after it: the exponential one, the simple one over a window, and the deviation
over a window that Bollinger bands use. A period of zero is refused by `start?`.
-/

namespace BotSpec.Indicator

open Arith

variable {α : Type} [Arith α]

/-! ## Windows -/

/-- A window of at most `size` numbers with one number more; the oldest one leaves a full window. -/
def pushWindow {β : Type} (size : Nat) (window : List β) (x : β) : List β :=
  let longer := window ++ [x]
  if longer.length > size then longer.drop 1 else longer

/-- The number that the next push removes, zero while the window is not full. -/
def leaving (size : Nat) (window : List α) : α :=
  if window.length < size then ofNat 0 else window.headD (ofNat 0)

/-! ## Exponential average -/

/-- The first number is the first average. -/
structure Ema (α : Type) where
  period : Nat
  current : Option α

def Ema.start? (period : Nat) : Option (Ema α) := if period = 0 then none else some ⟨period, none⟩

/-- The weight of a new number. -/
def Ema.weight (e : Ema α) : α := ofNat 2 / ofNat (e.period + 1)

def Ema.next (e : Ema α) (x : α) : α × Ema α :=
  let y :=
    match e.current with
    | none => x
    | some c => e.weight * x + (ofNat 1 - e.weight) * c
  (y, { e with current := some y })

def Ema.reset (e : Ema α) : Ema α := { e with current := none }

/-! ## Convergence and divergence -/

/-- Two averages of different speed, and an average over their difference. -/
structure Divergence (α : Type) where
  fast : Ema α
  slow : Ema α
  line : Ema α

def Divergence.start? (fast slow line : Nat) : Option (Divergence α) := do
  return ⟨← Ema.start? fast, ← Ema.start? slow, ← Ema.start? line⟩

/-- The difference of the averages less its own average. -/
def Divergence.next (d : Divergence α) (x : α) : α × Divergence α :=
  let (f, fast) := d.fast.next x
  let (s, slow) := d.slow.next x
  let (l, line) := d.line.next (f - s)
  (f - s - l, ⟨fast, slow, line⟩)

def Divergence.reset (d : Divergence α) : Divergence α :=
  ⟨d.fast.reset, d.slow.reset, d.line.reset⟩

/-! ## Simple average -/

/-- The sum is carried along: the number that leaves is taken off before the new one is added. -/
structure Sma (α : Type) where
  period : Nat
  window : List α
  sum : α

def Sma.start (period : Nat) : Sma α := ⟨period, [], ofNat 0⟩

def Sma.start? (period : Nat) : Option (Sma α) := if period = 0 then none else some (Sma.start period)

def Sma.next (s : Sma α) (x : α) : α × Sma α :=
  let window := pushWindow s.period s.window x
  let sum := s.sum - leaving s.period s.window + x
  (sum / ofNat window.length, { s with window, sum })

def Sma.reset (s : Sma α) : Sma α := Sma.start s.period

/-! ## Deviation -/

/-- The mean of the window and the sum of the squared distances from it, both carried along. -/
structure Deviation (α : Type) where
  period : Nat
  window : List α
  mean : α
  squares : α

def Deviation.start (period : Nat) : Deviation α := ⟨period, [], ofNat 0, ofNat 0⟩

def Deviation.start? (period : Nat) : Option (Deviation α) :=
  if period = 0 then none else some (Deviation.start period)

/-- The population deviation of the window. While the window fills, the mean moves by the share of
the new number; later by the share of what the new number exceeds the leaving one. The sum of
squares never goes below zero. -/
def Deviation.next (s : Deviation α) (x : α) : α × Deviation α :=
  let window := pushWindow s.period s.window x
  let (mean, squares) :=
    if s.window.length < s.period then
      let delta := x - s.mean
      let mean := s.mean + delta / ofNat window.length
      (mean, s.squares + delta * (x - mean))
    else
      let old := leaving s.period s.window
      let delta := x - old
      let mean := s.mean + delta / ofNat s.period
      (mean, s.squares + delta * (x - mean + old - s.mean))
  let squares := if squares < ofNat 0 then ofNat 0 else squares
  (sqrt (squares / ofNat window.length), { s with window, mean, squares })

def Deviation.reset (s : Deviation α) : Deviation α := Deviation.start s.period

end BotSpec.Indicator
