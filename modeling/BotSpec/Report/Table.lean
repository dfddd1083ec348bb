import BotSpec.Report.Brief
import BotSpec.Text.Padding

/-!
# Specification tables

The short form of a specification: a row for each fact, with its value and a description. First come
the strategy and its market, then the parameters, the actions, the fees and the circuit breakers.
-/

namespace BotSpec

structure SpecRow where
  parameter : String
  value : String
  description : String
  deriving DecidableEq

structure SpecTable where
  strategyName : String
  rows : List SpecRow
  diagnostics : List Diagnostic
  deriving DecidableEq

/-- What a row says about a parameter, with or without a value. -/
def BoundParam.row (p : BoundParam) : SpecRow :=
  ⟨p.spec.name, optionalText p.value, p.spec.description⟩

namespace Brief

variable (b : Brief)

/-- The strategy type in words. -/
def typeDescription : String :=
  match b.subject with
  | .error _ => "Unknown strategy type: no formula available"
  | .ok s =>
    if s.variant.mode.isSome then s!"Composite: {s.variant.name}"
    else if s.variant.isArbitrage then "Atomic, non-directional arbitrage"
    else s!"Atomic: {s.variant.name}"

/-- Rows of the strategy, its market and its candles. -/
def strategyRows : List SpecRow :=
  let r := b.record
  [⟨"Strategy", r.name, "Name in the discovery knowledge base"⟩,
    ⟨"Strategy type", r.type, b.typeDescription⟩,
    ⟨"Market", b.market, "Binary prediction market the bot trades"⟩,
    ⟨"Symbol", r.symbol, "Underlying whose candles drive the signal"⟩,
    ⟨"Timeframe", b.settings.interval, "Candle interval and decision cadence"⟩,
    ⟨"Data source", s!"{b.settings.dataSource} {r.symbol} klines",
      "OHLCV candles, closed candles only"⟩,
    ⟨"Candle buffer", Text.natText b.candleBuffer,
      "Closed candles to keep in memory before evaluating"⟩,
    ⟨"Sizing", b.sizing.mode.key, b.sizing.summary⟩]

/-- The row of the composition, for a composite. -/
def compositionRows : List SpecRow :=
  match b.subject with
  | .error _ => []
  | .ok s =>
    match s.variant.mode with
    | none => []
    | some mode =>
      let parts := s.variant.components.map fun c => c.indicator.shortName
      [⟨"Composition", mode.displayName, " + ".intercalate parts⟩]

/-- A row for each parameter of the type; the stored ones as they are for an unknown type. -/
def parameterRows : List SpecRow :=
  match b.subject with
  | .ok s => s.params.all.map BoundParam.row
  | .error _ =>
    b.record.params.entries.map fun e =>
      ⟨e.1, valueText e.2, "Not in the registry; shown as stored"⟩

/-- What the bot does on each decision. -/
def actionRows : Except Decimal.Fault (List SpecRow) :=
  match b.subject with
  | .error _ =>
    .ok [⟨"Actions", undefinedText, "Unknown strategy type: no action mapping"⟩]
  | .ok s =>
    if s.variant.isArbitrage then do
      let side ← b.pairSide
      return [⟨PairDecision.trade.text, "Buy YES and NO",
          s!"Maker bids on both legs, {shownDecimal side} USDC per side"⟩,
        ⟨PairDecision.skip.text, "No order", "Pair cost at or above the ceiling"⟩,
        ⟨"Settlement", "1.00 per pair", PairQuote.lockedProfitRule⟩]
    else
      .ok [⟨Signal.buy.text, "Buy UP shares", "Open a long position when flat"⟩,
        ⟨Signal.sell.text, "Sell UP shares", "Close the open position"⟩,
        ⟨Signal.hold.text, "No order", "Keep the current state"⟩]

/-- Rows of the fees. -/
def feeRows : Except Decimal.Fault (List SpecRow) := do
  let fees := b.terms.fees
  let greatest ← fees.greatestFee .hundred
  return [⟨"Fee rate", shownDecimal fees.rate,
      s!"Taker fee = shares x rate x (p x (1 - p))^{fees.exponent}"⟩,
    ⟨"Max fee / 100 shares", shownDecimal greatest, "Reached at p = 0.50"⟩]

/-- Rows of the circuit breakers. -/
def breakerRows : List SpecRow :=
  [⟨"Breaker drawdown", shownPercent b.thresholds.breakerDrawdown,
      "Halt when drawdown from peak exceeds this"⟩,
    ⟨"Breaker loss streak", Text.natText b.thresholds.breakerStreak.toNat,
      "Halt after this many consecutive losing trades"⟩]

def table : Except Decimal.Fault SpecTable := do
  let actions ← b.actionRows
  let fees ← b.feeRows
  return {
    strategyName := b.record.name
    rows :=
      b.strategyRows ++ b.compositionRows ++ b.parameterRows ++ actions ++ fees ++ b.breakerRows
    diagnostics := b.record.diagnostics }

end Brief

/-! ## Plain text -/

namespace SpecTable

/-- The width of a column: that of its longest cell or of its title. -/
def columnWidth (rows : List SpecRow) (title : String) (cell : SpecRow → String) : Nat :=
  rows.foldl (fun w r => max w (cell r).length) title.length

/-- The table in aligned columns, with its diagnostics below. -/
def text (t : SpecTable) : String :=
  let first := columnWidth t.rows "Parameter" SpecRow.parameter
  let second := columnWidth t.rows "Value" SpecRow.value
  let line := fun a b c : String => s!"{Text.padRight first a}  {Text.padRight second b}  {c}\n"
  let rows := t.rows.map fun r => line r.parameter r.value r.description
  let warnings := t.diagnostics.map fun d => s!"warning: {d.message}\n"
  line "Parameter" "Value" "Description" ++ line (Text.dashes first) (Text.dashes second) (Text.dashes 11) ++
    String.join rows ++ String.join warnings

end SpecTable

end BotSpec
