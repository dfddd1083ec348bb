import BotSpec.Power
import BotSpec.Decimal.Arithmetic
import BotSpec.Decimal.Text
import BotSpec.Text.Number

/-!
# Circuit breakers

Limits at which a bot stops opening positions, derived from what the backtest has seen. A breaker
beyond the largest decimal or count stays there.
-/

namespace BotSpec

/-- How breakers follow from history. -/
structure RiskPolicy where
  /-- The drawdown breaker as a multiple of the historical drawdown. -/
  drawdownFactor : Decimal
  /-- How many losses more than the historical streak. -/
  lossStreakMargin : UInt32
  /-- The smallest loss-streak breaker. -/
  minLossStreak : UInt32
  deriving DecidableEq

def RiskPolicy.standard : RiskPolicy := ⟨.ofDigits 15 1, 3, 10⟩

structure RiskThresholds where
  historicalDrawdown : Decimal
  breakerDrawdown : Decimal
  historicalStreak : UInt32
  breakerStreak : UInt32
  deriving DecidableEq

/-- A sum of counts, at most the largest count. -/
def addCounts (a b : UInt32) : UInt32 :=
  if a.toNat + b.toNat < twoPow 32 then a + b else UInt32.ofNat (twoPow 32 - 1)

/-- The breakers for a drawdown, whose sign does not matter, and a streak of losses. -/
def RiskPolicy.derive (policy : RiskPolicy) (drawdown : Decimal) (streak : UInt32) : RiskThresholds :=
  let size := drawdown.abs
  let breaker := (Decimal.product? size policy.drawdownFactor).getD Decimal.greatest
  let longer := addCounts streak policy.lossStreakMargin
  { historicalDrawdown := size
    breakerDrawdown := breaker.normalize
    historicalStreak := streak
    breakerStreak := if longer < policy.minLossStreak then policy.minLossStreak else longer }

/-- The breakers in words. -/
def RiskThresholds.describe (t : RiskThresholds) : List String :=
  [s!"Drawdown circuit breaker: halt trading when equity drawdown from peak exceeds {t.breakerDrawdown.toText}% (historical max drawdown {t.historicalDrawdown.toText}%).",
    s!"Loss-streak circuit breaker: halt trading after {Text.natText t.breakerStreak.toNat} consecutive losing trades (historical worst streak {Text.natText t.historicalStreak.toNat}).",
    "When a breaker trips, stop opening new positions until an operator resets the bot."]

end BotSpec
