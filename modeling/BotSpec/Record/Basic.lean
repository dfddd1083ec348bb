import BotSpec.Decimal.Basic
import BotSpec.ParamSet.Basic
import BotSpec.Trading.Sizing

/-!
# Strategy records

A record is a strategy that a backtest has found good: its type and parameters, the market, and the
statistics of the backtest. It is what a specification is written from.
-/

namespace BotSpec

/-- What the backtest measured. -/
structure BacktestStats where
  netPnl : Decimal
  grossPnl : Decimal
  totalFees : Decimal
  winRate : Decimal
  totalTrades : UInt32
  sharpeRatio : Decimal
  sortinoRatio : Decimal
  maxDrawdownPct : Decimal
  profitFactor : Decimal
  avgTradePnl : Decimal
  annualizedReturnPct : Decimal
  annualizedSharpe : Decimal
  strategyConfidence : Decimal
  maxConsecutiveLosses : UInt32
  avgWinPnl : Decimal
  avgLossPnl : Decimal
  totalVolume : Decimal
  compositeScore : Decimal
  /-- The share of traded windows; an arbitrage alone has it. -/
  hitRate : Option Decimal
  /-- What a pair earns on average; an arbitrage alone has it. -/
  avgLockedProfit : Option Decimal
  deriving BEq

structure StrategyRecord where
  id : Option Int
  name : String
  type : String
  params : ParamSet
  /-- Parameters were given and could not be read. -/
  malformedParams : Bool
  symbol : String
  days : UInt32
  sizing : SizingMode
  stats : BacktestStats

/-- Two records are the same when their parameters and statistics are equal as numbers and
everything else is the same. -/
instance : BEq StrategyRecord where
  beq a b :=
    a.id == b.id && a.name == b.name && a.type == b.type && a.params.entries == b.params.entries &&
      a.malformedParams == b.malformedParams && a.symbol == b.symbol && a.days == b.days &&
      a.sizing = b.sizing && a.stats == b.stats

end BotSpec
