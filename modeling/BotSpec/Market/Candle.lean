import BotSpec.Power
import BotSpec.Decimal.Basic
import BotSpec.Binary64.Nearest
import BotSpec.Binary64.Whole

/-!
# Candles

A candle holds five decimals. Indicators compute with a `Bar`, its prices and volume as numbers of
another kind: `Candle.bar` reads them as doubles. The times at which a candle opens and closes are
left out, since no formula reads them; candles are taken in the order of a list.
-/

namespace BotSpec

structure Candle where
  openPrice : Decimal
  high : Decimal
  low : Decimal
  close : Decimal
  volume : Decimal

/-- The part of a candle that indicators look at. -/
structure Bar (α : Type) where
  high : α
  low : α
  close : α
  volume : α

/-- A decimal as a double. The whole part and the fraction are converted apart and added; the sum is
rounded to the decimal's places again, so that the addition leaves no error of its own. -/
def Decimal.toFloat (a : Decimal) : Float :=
  let unit := tenPow a.scale
  let whole := nearestFloat (a.magnitude / unit) 1
  let fraction := nearestFloat (a.magnitude % unit) 1 / nearestFloat unit 1
  let magnitude :=
    if a.scale = 0 ∨ fraction == 0 then whole
    else Binary64.round ((whole + fraction) * nearestFloat unit 1) / nearestFloat unit 1
  if a.negative then -magnitude else magnitude

def Candle.bar (c : Candle) : Bar Float :=
  ⟨c.high.toFloat, c.low.toFloat, c.close.toFloat, c.volume.toFloat⟩

end BotSpec
