import BotSpec.Knowledge.Row
import BotSpec.Record.Reader

/-!
# Records from rows

A row of the knowledge base as a strategy record. Statistics that cannot be read are zero, and
counts out of range too.
-/

namespace BotSpec

/-- A stored statistic. -/
def storedDecimal (text : String) : Decimal := (Decimal.ofText? text).getD Decimal.zero

/-- A stored statistic that may be absent. -/
def storedOptional (text : Option String) : Option Decimal := text.bind Decimal.ofText?

/-- A stored statistic that may be absent and then is zero. -/
def storedOrZero (text : Option String) : Decimal := (storedOptional text).getD Decimal.zero

/-- A stored count. -/
def storedCount (n : Int) : UInt32 := (countOf? n).getD 0

def BacktestCells.stats (c : BacktestCells) : BacktestStats where
  netPnl := storedDecimal c.netPnl
  grossPnl := storedDecimal c.grossPnl
  totalFees := storedDecimal c.totalFees
  winRate := storedDecimal c.winRate
  totalTrades := storedCount c.totalTrades
  sharpeRatio := storedDecimal c.sharpeRatio
  sortinoRatio := storedOrZero c.sortinoRatio
  maxDrawdownPct := storedDecimal c.maxDrawdownPct
  profitFactor := storedDecimal c.profitFactor
  avgTradePnl := storedDecimal c.avgTradePnl
  annualizedReturnPct := storedOrZero c.annualizedReturnPct
  annualizedSharpe := storedOrZero c.annualizedSharpe
  strategyConfidence := storedOrZero c.strategyConfidence
  maxConsecutiveLosses := (c.maxConsecutiveLosses.bind countOf?).getD 0
  avgWinPnl := storedOrZero c.avgWinPnl
  avgLossPnl := storedOrZero c.avgLossPnl
  totalVolume := storedOrZero c.totalVolume
  compositeScore := storedDecimal c.compositeScore
  hitRate := storedOptional c.hitRate
  avgLockedProfit := storedOptional c.avgLockedProfit

/-- Parameters that are blank are none, and not malformed. -/
def BacktestCells.readParams (c : BacktestCells) : ParamSet × Bool :=
  if Text.isAllBlank c.strategyParams then (ParamSet.empty, false)
  else StrategyRecord.readParams (.string c.strategyParams)

def StrategyRecord.ofRow (r : BacktestRow) : StrategyRecord :=
  let c := r.cells
  let (params, malformedParams) := c.readParams
  { id := r.id
    name := c.strategyName
    type := c.strategyType
    params
    malformedParams
    symbol := c.symbol
    days := storedCount c.days
    sizing := .parse c.sizingMode
    stats := c.stats }

end BotSpec
