/-!
# Signals

What an indicator or a composition says about the latest closed candle.
-/

namespace BotSpec

inductive Signal where
  | buy
  | sell
  | hold
  deriving DecidableEq

namespace Signal

/-- The signal that vetoes this one; a hold vetoes nothing but itself. -/
def opposite : Signal → Signal
  | buy => sell
  | sell => buy
  | hold => hold

def text : Signal → String
  | buy => "BUY"
  | sell => "SELL"
  | hold => "HOLD"

/-- The signal with a given text. -/
def ofText? (s : String) : Option Signal := [buy, sell, hold].find? fun a => a.text = s

end Signal

end BotSpec
