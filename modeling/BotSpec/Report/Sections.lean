import BotSpec.Report.Brief
import BotSpec.Report.Document

/-!
# The specification document

The long form of a specification, in nine sections: what the strategy is, where its candles come
from, how its indicators are computed, when it buys and sells, how orders are placed, what fees are
paid, when to stop, the loop that ties it together, and the statistics of the backtest.

Only the worked examples compute with the settings, so only they can be too large for a decimal.
-/

namespace BotSpec

/-- A component as the given part of section three. -/
def IndicatorDescription.blocks (d : IndicatorDescription) (index : Nat) : List Block :=
  [.subheading s!"3.{index} {d.title}", .gap, .line d.setup, .gap,
    .bullets (d.parameters.map fun p => s!"`{p.name}` = {p.value}: {p.description}"), .gap,
    .steps d.computation]

/-- Components one after another, with an empty line between them. -/
def descriptionBlocks (descriptions : List IndicatorDescription) : List Block :=
  [Block.gap].intercalate (descriptions.mapIdx fun i d => d.blocks (i + 1))

/-- The vote of a component, and its confidence where sizes depend on it. -/
def IndicatorDescription.signalBlocks (d : IndicatorDescription) (sizing : SizingMode) :
    List Block :=
  let name := d.indicator.shortName
  let confidence :=
    if sizing = .confidenceWeighted then
      [.line s!"{name} confidence:", .bullets d.confidence]
    else []
  [.line s!"{name}:", .bullets d.signalRule] ++ confidence

/-- A candle that does not move. -/
def flatCandle : Candle :=
  let price := Decimal.hundred
  ⟨price, price, price, price, .one⟩

/-- What a quote offers, as an example. -/
def PairQuote.exampleLine (q : PairQuote) : String :=
  s!"Example: on a flat candle YES fills at {shownDecimal q.yesFill}, NO at {shownDecimal q.noFill}, pair cost {shownDecimal q.pairCost} -> {q.decision.text}, locked profit {shownDecimal q.lockedProfit} per pair."

namespace Brief

variable (b : Brief)

/-! ## Identity and data -/

/-- What the variant is made of. -/
def makeupLine (v : Variant) : String :=
  match v.mode with
  | some mode =>
    let parts := ", ".intercalate (v.components.map fun c => c.indicator.displayName)
    s!"Composite ({mode.displayName}) of {parts}"
  | none =>
    if v.isArbitrage then "Atomic, non-directional: buys both outcomes of a binary market"
    else "Atomic, directional"

/-- What is known of the type. -/
def typeLines : List String :=
  match b.subject with
  | .ok s => [s!"Variant: {s.variant.name}", makeupLine s.variant]
  | .error unknown =>
    [s!"Unknown strategy type `{unknown.tag}`: no registered formula, the sections below list what is known"]

def identity : Section :=
  let r := b.record
  ⟨"Strategy identity",
    [.bullets
      ([s!"Name: {r.name}", s!"Type tag: {r.type}"] ++ b.typeLines ++
        [s!"Market: {b.market}", s!"Underlying: {r.symbol}",
          s!"Position sizing: {b.sizing.summary}"])]⟩

def dataSource : Section :=
  ⟨"Data source",
    [.bullets
      [s!"Fetch {b.record.symbol} {b.settings.interval} klines from {b.settings.dataSource}: open time, open, high, low, close, volume, close time.",
        "Use closed candles only; drop the candle that is still forming.",
        s!"Keep a rolling buffer of at least {b.candleBuffer} closed candles, oldest first.",
        "Warm up by replaying the buffer through the indicators before the first decision."]]⟩

/-! ## Indicators and signals -/

/-- The stored parameters of an unknown type. -/
def storedParameters : List Block :=
  if b.record.params.isEmpty then [.line "No parameters were stored with the record."]
  else
    [.line "Stored parameters, as recorded:",
      .bullets (b.record.params.entries.map fun e => s!"`{e.1}` = {valueText e.2}")]

def computation : Section :=
  ⟨"Indicator computation",
    match b.subject with
    | .ok s => descriptionBlocks s.descriptions
    | .error _ =>
      .line "Unknown strategy type: no indicator formula is available." :: b.storedParameters⟩

/-- How the votes of a composite become one action. -/
def compositionBlocks (v : Variant) : List Block :=
  match v.mode with
  | none => []
  | some mode =>
    [.gap, .line "Combined action:",
      .bullets (mode.describe (v.components.map fun c => c.indicator))]

def signalLogic : Section :=
  ⟨"Signal logic",
    match b.subject with
    | .ok s =>
      (s.descriptions.flatMap fun d => d.signalBlocks b.record.sizing) ++
        compositionBlocks s.variant
    | .error _ =>
      [.line "Unknown strategy type: no vote rule is available. The bot must not trade it."]⟩

/-! ## Orders and fees -/

/-- An entry after a rise of one percent, with its size and its fee. -/
def entryExample : Except Decimal.Fault String := do
  let s := b.settings
  let position ← (← s.capital.mul s.basePercent).div .hundred
  let odds ← settlementOdds .hundred (.ofDigits 101 0)
  let shares := (← position.div odds).roundTo 2
  let fee ← b.terms.fees.fee shares odds
  return s!"Example: with {shownDecimal s.capital} USDC capital and {shownDecimal s.basePercent}% base size, a +1% move gives p = {shownDecimal odds}, so {shownDecimal position} USDC buys {shownDecimal shares} shares and pays a taker fee of {shownDecimal fee} USDC."

def directionalExecution : Except Decimal.Fault (List Block) := do
  let example_ ← b.entryExample
  return [.line s!"Trade the UP share of {b.market}. Long only.",
    .bullets
      ["BUY while flat: buy UP shares with a taker order.",
        "SELL while holding: sell the whole UP position with a taker order.",
        "BUY while holding, SELL while flat, HOLD: no order.",
        "UP share price p = 0.5 + underlying change% since entry x 0.05, clamped to [0.05, 0.95]."],
    .line example_]

/-- The quote of a candle that does not move, if the settings of the pair are known. -/
def pairExample (s : Subject) : Except Decimal.Fault (List Block) :=
  match s.params.components.head? with
  | none => .ok []
  | some c =>
    match PairParams.ofComponent c with
    | .error _ => .ok []
    | .ok p => do
      let quote ← PairQuote.quote flatCandle p
      return [.line quote.exampleLine]

def arbitrageExecution (s : Subject) : Except Decimal.Fault (List Block) := do
  let side ← b.pairSide
  let quoted ← pairExample s
  return [.line s!"Each {b.settings.interval} window, buy both YES and NO shares of {b.market} with maker bids.",
    .bullets
      [s!"{PairDecision.trade.text}: pair cost below the ceiling, place both bids at {shownDecimal side} USDC per side.",
        s!"{PairDecision.skip.text}: pair cost at or above the ceiling, place nothing.",
        "If only one leg fills, cancel the other and close the filled leg at market.",
        s!"{PairQuote.lockedProfitRule}."]] ++ quoted

def execution : Except Decimal.Fault Section := do
  let blocks ←
    match b.subject with
    | .ok s => if s.variant.isArbitrage then b.arbitrageExecution s else b.directionalExecution
    | .error _ => pure [.line "Unknown strategy type: no action mapping is defined."]
  return ⟨"Market execution", blocks⟩

def feeSection : Except Decimal.Fault Section := do
  return ⟨"Fees", [.bullets (← b.terms.fees.describe)]⟩

/-! ## Risk and the loop -/

def risk : Section :=
  ⟨"Risk management",
    [.bullets b.thresholds.describe, .gap,
      .line s!"Position sizing ({b.sizing.mode.key}):", .bullets b.sizing.rules]⟩

/-- How a new candle is turned into a decision. -/
def decisionStep : String :=
  match b.subject with
  | .ok s =>
    if s.variant.isArbitrage then "Quote the new candle and decide TRADE or SKIP (section 5)."
    else "Feed the new candle to every indicator and compute the action (section 4)."
  | .error _ => "No evaluation is possible for an unknown strategy type; stay flat."

def controlLoop : Section :=
  ⟨"Control loop",
    [.steps
      [s!"Wait for the current {b.settings.interval} candle to close, then fetch it.",
        s!"Append it to the buffer and drop the oldest so at least {b.candleBuffer} closed candles remain.",
        b.decisionStep,
        "Check both circuit breakers (section 7); if either tripped, do not place orders.",
        "Size and place orders (sections 5 and 7), then record fills, fees and PnL.",
        "Update equity peak, drawdown and the losing streak, then wait for the next candle."]]⟩

/-! ## Statistics -/

/-- The statistics that only an arbitrage has. -/
def pairStatistics : List String :=
  let s := b.record.stats
  let hitRate :=
    match s.hitRate with
    | some x => [s!"Hit rate: {shownPercent x}"]
    | none => []
  let locked :=
    match s.avgLockedProfit with
    | some x => [s!"Average locked profit: {shownDecimal x} per pair"]
    | none => []
  hitRate ++ locked

def statistics : Section :=
  let r := b.record
  let s := r.stats
  ⟨"Backtest statistics",
    [.line s!"Backtest over {r.days} days, sizing {r.sizing.key}.",
      .bullets
        ([s!"Net PnL: {shownDecimal s.netPnl} USDC",
          s!"Gross PnL: {shownDecimal s.grossPnl} USDC",
          s!"Fees paid: {shownDecimal s.totalFees} USDC",
          s!"Trades: {s.totalTrades}",
          s!"Win rate: {shownPercent s.winRate}",
          s!"Sharpe: {shownDecimal s.sharpeRatio}",
          s!"Sortino: {shownDecimal s.sortinoRatio}",
          s!"Max drawdown: {shownPercent s.maxDrawdownPct}",
          s!"Profit factor: {shownDecimal s.profitFactor}",
          s!"Average trade: {shownDecimal s.avgTradePnl} USDC",
          s!"Average win / loss: {shownDecimal s.avgWinPnl} / {shownDecimal s.avgLossPnl} USDC",
          s!"Max consecutive losses: {s.maxConsecutiveLosses}",
          s!"Annualized return: {shownPercent s.annualizedReturnPct}",
          s!"Annualized Sharpe: {shownDecimal s.annualizedSharpe}",
          s!"Volume: {shownDecimal s.totalVolume} USDC",
          s!"Confidence: {shownDecimal s.strategyConfidence}",
          s!"Composite score: {shownDecimal s.compositeScore}"] ++ b.pairStatistics)]⟩

/-! ## The document -/

/-- All nine sections. -/
def document : Except Decimal.Fault Document := do
  let execution ← b.execution
  let fees ← b.feeSection
  return {
    heading := s!"Bot specification: {b.record.name}"
    warnings := b.record.diagnostics.map Diagnostic.message
    sections :=
      [b.identity, b.dataSource, b.computation, b.signalLogic, execution, fees, b.risk,
        b.controlLoop, b.statistics] }

end Brief

end BotSpec
