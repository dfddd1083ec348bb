import BotSpec.Power
import BotSpec.Json.Reader
import BotSpec.Knowledge.Cell
import BotSpec.Record.Encoding

/-!
# Rows of the knowledge base

A row is one backtest: statistics are texts, counts are whole numbers, and the columns that older
rows lack are optional. What a table holds for a text or a count may be something else, so
`BacktestColumns` leaves the types of both open; `StoredCells` is a row as the table has it and
`BacktestCells` one that is read (`BacktestColumns.read`).
-/

namespace BotSpec

open Json (Refusal)

/-- Every column but the id, with texts of the type `τ` and counts of the type `κ`. -/
structure BacktestColumns (τ κ : Type) where
  paramsHash : τ
  strategyType : τ
  strategyName : τ
  strategyParams : τ
  symbol : τ
  days : κ
  sizingMode : τ
  compositeScore : τ
  netPnl : τ
  grossPnl : τ
  totalFees : τ
  winRate : τ
  totalTrades : κ
  sharpeRatio : τ
  maxDrawdownPct : τ
  profitFactor : τ
  avgTradePnl : τ
  hitRate : Option τ
  avgLockedProfit : Option τ
  discoveryRunId : Option τ
  phase : Option τ
  sortinoRatio : Option τ
  maxConsecutiveLosses : Option κ
  avgWinPnl : Option τ
  avgLossPnl : Option τ
  totalVolume : Option τ
  annualizedReturnPct : Option τ
  annualizedSharpe : Option τ
  strategyConfidence : Option τ
  deriving DecidableEq

/-- The columns as they are read. -/
abbrev BacktestCells := BacktestColumns String Int

/-- The columns as the table holds them. -/
abbrev StoredCells := BacktestColumns StoredText StoredCount

/-- Reads the columns in their order. The first one that holds something else ends the reading. -/
def BacktestColumns.read (c : StoredCells) : Except Misfit BacktestCells := do
  return {
    paramsHash := ← c.paramsHash.read "params_hash" false
    strategyType := ← c.strategyType.read "strategy_type" false
    strategyName := ← c.strategyName.read "strategy_name" false
    strategyParams := ← c.strategyParams.read "strategy_params" false
    symbol := ← c.symbol.read "symbol" false
    days := ← c.days.read "days" false
    sizingMode := ← c.sizingMode.read "sizing_mode" false
    compositeScore := ← c.compositeScore.read "composite_score" false
    netPnl := ← c.netPnl.read "net_pnl" false
    grossPnl := ← c.grossPnl.read "gross_pnl" false
    totalFees := ← c.totalFees.read "total_fees" false
    winRate := ← c.winRate.read "win_rate" false
    totalTrades := ← c.totalTrades.read "total_trades" false
    sharpeRatio := ← c.sharpeRatio.read "sharpe_ratio" false
    maxDrawdownPct := ← c.maxDrawdownPct.read "max_drawdown_pct" false
    profitFactor := ← c.profitFactor.read "profit_factor" false
    avgTradePnl := ← c.avgTradePnl.read "avg_trade_pnl" false
    hitRate := ← c.hitRate.mapM (StoredText.read "hit_rate" true)
    avgLockedProfit := ← c.avgLockedProfit.mapM (StoredText.read "avg_locked_profit" true)
    discoveryRunId := ← c.discoveryRunId.mapM (StoredText.read "discovery_run_id" true)
    phase := ← c.phase.mapM (StoredText.read "phase" true)
    sortinoRatio := ← c.sortinoRatio.mapM (StoredText.read "sortino_ratio" true)
    maxConsecutiveLosses := ← c.maxConsecutiveLosses.mapM (StoredCount.read "max_consecutive_losses" true)
    avgWinPnl := ← c.avgWinPnl.mapM (StoredText.read "avg_win_pnl" true)
    avgLossPnl := ← c.avgLossPnl.mapM (StoredText.read "avg_loss_pnl" true)
    totalVolume := ← c.totalVolume.mapM (StoredText.read "total_volume" true)
    annualizedReturnPct := ← c.annualizedReturnPct.mapM (StoredText.read "annualized_return_pct" true)
    annualizedSharpe := ← c.annualizedSharpe.mapM (StoredText.read "annualized_sharpe" true)
    strategyConfidence := ← c.strategyConfidence.mapM (StoredText.read "strategy_confidence" true) }

/-- A row, whose id may be unknown. -/
structure BacktestRow where
  id : Option Int
  cells : BacktestCells
  deriving DecidableEq

/-- Where the columns of a row come from: by name, a text, an optional text, a count or an optional
one. -/
structure CellSource (ε τ κ : Type) where
  text : String → Except ε τ
  optionalText : String → Except ε (Option τ)
  count : String → Except ε κ
  optionalCount : String → Except ε (Option κ)

/-- The columns of a source, read by their names. -/
def CellSource.cells {ε τ κ : Type} (s : CellSource ε τ κ) : Except ε (BacktestColumns τ κ) := do
  return {
    paramsHash := ← s.text "params_hash"
    strategyType := ← s.text "strategy_type"
    strategyName := ← s.text "strategy_name"
    strategyParams := ← s.text "strategy_params"
    symbol := ← s.text "symbol"
    days := ← s.count "days"
    sizingMode := ← s.text "sizing_mode"
    compositeScore := ← s.text "composite_score"
    netPnl := ← s.text "net_pnl"
    grossPnl := ← s.text "gross_pnl"
    totalFees := ← s.text "total_fees"
    winRate := ← s.text "win_rate"
    totalTrades := ← s.count "total_trades"
    sharpeRatio := ← s.text "sharpe_ratio"
    maxDrawdownPct := ← s.text "max_drawdown_pct"
    profitFactor := ← s.text "profit_factor"
    avgTradePnl := ← s.text "avg_trade_pnl"
    hitRate := ← s.optionalText "hit_rate"
    avgLockedProfit := ← s.optionalText "avg_locked_profit"
    discoveryRunId := ← s.optionalText "discovery_run_id"
    phase := ← s.optionalText "phase"
    sortinoRatio := ← s.optionalText "sortino_ratio"
    maxConsecutiveLosses := ← s.optionalCount "max_consecutive_losses"
    avgWinPnl := ← s.optionalText "avg_win_pnl"
    avgLossPnl := ← s.optionalText "avg_loss_pnl"
    totalVolume := ← s.optionalText "total_volume"
    annualizedReturnPct := ← s.optionalText "annualized_return_pct"
    annualizedSharpe := ← s.optionalText "annualized_sharpe"
    strategyConfidence := ← s.optionalText "strategy_confidence" }

namespace BacktestRow

/-! ## JSON -/

def toJson (r : BacktestRow) : Json :=
  let c := r.cells
  let optional := Json.ofOption Json.string
  .object
    [("id", .ofOption .whole r.id), ("params_hash", .string c.paramsHash),
      ("strategy_type", .string c.strategyType), ("strategy_name", .string c.strategyName),
      ("strategy_params", .string c.strategyParams), ("symbol", .string c.symbol),
      ("days", .whole c.days), ("sizing_mode", .string c.sizingMode),
      ("composite_score", .string c.compositeScore), ("net_pnl", .string c.netPnl),
      ("gross_pnl", .string c.grossPnl), ("total_fees", .string c.totalFees),
      ("win_rate", .string c.winRate), ("total_trades", .whole c.totalTrades),
      ("sharpe_ratio", .string c.sharpeRatio), ("max_drawdown_pct", .string c.maxDrawdownPct),
      ("profit_factor", .string c.profitFactor), ("avg_trade_pnl", .string c.avgTradePnl),
      ("hit_rate", optional c.hitRate), ("avg_locked_profit", optional c.avgLockedProfit),
      ("discovery_run_id", optional c.discoveryRunId), ("phase", optional c.phase),
      ("sortino_ratio", optional c.sortinoRatio),
      ("max_consecutive_losses", .ofOption .whole c.maxConsecutiveLosses),
      ("avg_win_pnl", optional c.avgWinPnl), ("avg_loss_pnl", optional c.avgLossPnl),
      ("total_volume", optional c.totalVolume),
      ("annualized_return_pct", optional c.annualizedReturnPct),
      ("annualized_sharpe", optional c.annualizedSharpe),
      ("strategy_confidence", optional c.strategyConfidence)]

/-- The members of an object as columns: required ones must be there, optional ones may be absent or
null. -/
def memberSource (members : List (String × Json)) : CellSource Refusal String Int where
  text key :=
    match Json.lookup key members with
    | some (.string s) => .ok s
    | _ => .error .wrongShape
  optionalText key :=
    match Json.lookup key members with
    | none => .ok none
    | some .null => .ok none
    | some (.string s) => .ok (some s)
    | some _ => .error .wrongShape
  count key :=
    match Json.lookup key members with
    | some (.whole n) => if n < twoPow 63 then .ok n else .error .wrongShape
    | _ => .error .wrongShape
  optionalCount key :=
    match Json.lookup key members with
    | none => .ok none
    | some .null => .ok none
    | some (.whole n) => if n < twoPow 63 then .ok (some n) else .error .wrongShape
    | some _ => .error .wrongShape

/-- The columns in the order in which a list gives them. -/
def columns : List String :=
  ["id", "params_hash", "strategy_type", "strategy_name", "strategy_params", "symbol", "days", "sizing_mode",
    "composite_score", "net_pnl", "gross_pnl", "total_fees", "win_rate", "total_trades", "sharpe_ratio",
    "max_drawdown_pct", "profit_factor", "avg_trade_pnl", "hit_rate", "avg_locked_profit", "discovery_run_id", "phase",
    "sortino_ratio", "max_consecutive_losses", "avg_win_pnl", "avg_loss_pnl", "total_volume", "annualized_return_pct",
    "annualized_sharpe", "strategy_confidence"]

/-- The row among the members of an object. -/
def ofMembers (members : List (String × Json)) : Except Refusal BacktestRow := do
  let id ← (memberSource members).optionalCount "id"
  return ⟨id, ← (memberSource members).cells⟩

/-- The row in a JSON object, or in a list that gives every column. -/
def ofJson (j : Json) : Except Refusal BacktestRow :=
  match j with
  | .object members => ofMembers members
  | .array cells =>
    if cells.length = columns.length then ofMembers (columns.zip cells) else .error .wrongShape
  | _ => .error .wrongShape

end BacktestRow

end BotSpec
