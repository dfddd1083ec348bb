import BotSpec.Decimal.Text
import BotSpec.Json.Basic
import BotSpec.Record.Basic

/-!
# Records as JSON

`StrategyRecord.toJson` writes a record with its statistics beside the other fields. Decimals are
strings with all their places, counts are numbers, an absent value is null.
-/

namespace BotSpec

def Decimal.toJson (d : Decimal) : Json := .string d.toText

/-- A value or null. -/
def Json.ofOption {α : Type} (encode : α → Json) : Option α → Json
  | some x => encode x
  | none => .null

def Json.ofCount (n : UInt32) : Json := .whole n.toNat

/-- The parameters as numbers. -/
def ParamSet.toJson (p : ParamSet) : Json := .object (p.entries.map fun e => (e.1, .real e.2))

/-- The statistics, one member each. -/
def BacktestStats.members (s : BacktestStats) : List (String × Json) :=
  [("net_pnl", s.netPnl.toJson), ("gross_pnl", s.grossPnl.toJson), ("total_fees", s.totalFees.toJson),
    ("win_rate", s.winRate.toJson), ("total_trades", .ofCount s.totalTrades),
    ("sharpe_ratio", s.sharpeRatio.toJson), ("sortino_ratio", s.sortinoRatio.toJson),
    ("max_drawdown_pct", s.maxDrawdownPct.toJson), ("profit_factor", s.profitFactor.toJson),
    ("avg_trade_pnl", s.avgTradePnl.toJson),
    ("annualized_return_pct", s.annualizedReturnPct.toJson),
    ("annualized_sharpe", s.annualizedSharpe.toJson),
    ("strategy_confidence", s.strategyConfidence.toJson),
    ("max_consecutive_losses", .ofCount s.maxConsecutiveLosses), ("avg_win_pnl", s.avgWinPnl.toJson),
    ("avg_loss_pnl", s.avgLossPnl.toJson), ("total_volume", s.totalVolume.toJson),
    ("composite_score", s.compositeScore.toJson), ("hit_rate", .ofOption Decimal.toJson s.hitRate),
    ("avg_locked_profit", .ofOption Decimal.toJson s.avgLockedProfit)]

def StrategyRecord.toJson (r : StrategyRecord) : Json :=
  .object
    ([("id", .ofOption .whole r.id), ("strategy_name", .string r.name),
      ("strategy_type", .string r.type), ("strategy_params", r.params.toJson),
      ("malformed_params", .bool r.malformedParams), ("symbol", .string r.symbol),
      ("days", .ofCount r.days), ("sizing_mode", .string r.sizing.key)] ++ r.stats.members)

end BotSpec
