import BotSpec.Binary64.Whole
import BotSpec.Report.Diagnostic
import BotSpec.Report.Formula
import BotSpec.Trading.Fee
import BotSpec.Trading.Risk

/-!
# Briefs

A `Brief` is a record together with the terms that a bot would trade it on. Everything that a table
and a document have in common is said here once: the market, the candles to keep, the circuit
breakers, the sizes.
-/

namespace BotSpec

/-- Where and with how much a bot trades. -/
structure BotSettings where
  /-- The length of a candle. -/
  interval : String
  /-- Where candles come from. -/
  dataSource : String
  capital : Decimal
  /-- The base size of a position, in percent of the capital. -/
  basePercent : Decimal
  deriving DecidableEq

def BotSettings.standard : BotSettings := ⟨"15m", "Binance", .ofDigits 10000 0, .ofDigits 10 0⟩

/-- Everything that a specification takes from outside the record. -/
structure SpecTerms where
  settings : BotSettings
  fees : FeeModel
  policy : RiskPolicy
  deriving DecidableEq

def SpecTerms.standard : SpecTerms := ⟨.standard, .standard, .standard⟩

/-- A decimal for display: at most four places and no trailing zeros. -/
def shownDecimal (d : Decimal) : String := (d.roundTo 4).normalize.toText

/-- A decimal for display, in percent. -/
def shownPercent (d : Decimal) : String := shownDecimal d ++ "%"

/-! ## Symbols -/

/-- The currencies that a symbol may end with, longest first. -/
def quoteCurrencies : List String := ["USDT", "USDC", "BUSD", "USD"]

/-- A text without an ending that it has. -/
def dropEnding? (ending text : String) : Option String :=
  let cs := text.toList
  if ending.toList.isSuffixOf cs then some (String.ofList (cs.take (cs.length - ending.length)))
  else none

/-- The asset of a symbol: what stands before the currency, or the whole symbol if that is nothing. -/
def assetOf (symbol : String) : String :=
  match quoteCurrencies.findSome? fun currency => dropEnding? currency symbol with
  | some base => if base = "" then symbol else base
  | none => symbol

/-! ## Candles to keep -/

/-- Values from this one on are no periods. -/
def periodBound : Float := 1000

/-- The fewest candles that are kept, and how many are kept beyond those needed. -/
def leastBuffer : Nat := 50
def bufferMargin : Nat := 10

/-- The longest period among some values, zero if there is none. -/
def longestPeriodOf (values : List Float) : Float :=
  (values.filter fun v => 0 < v && v < periodBound).foldl (fun a v => if a < v then v else a) 0

/-- How many candles a bot keeps: enough for the longest period, and a margin. -/
def ParamSet.candleBuffer (p : ParamSet) : Nat :=
  max (Binary64.ceil (longestPeriodOf p.values)).toUInt64.toNat leastBuffer + bufferMargin

/-! ## Briefs -/

structure Brief where
  record : StrategyRecord
  terms : SpecTerms

namespace Brief

variable (b : Brief)

def settings : BotSettings := b.terms.settings

def subject : Except UnknownType Subject := b.record.subject

/-- The market that the bot trades. -/
def market : String :=
  s!"Polymarket {assetOf b.record.symbol} Up or Down, {b.settings.interval} window"

def candleBuffer : Nat := b.record.params.candleBuffer

def thresholds : RiskThresholds :=
  b.terms.policy.derive b.record.stats.maxDrawdownPct b.record.stats.maxConsecutiveLosses

def sizing : PositionSizing := .ofMode b.record.sizing b.settings.basePercent

/-- The size of one side of a pair. -/
def pairSide : Except Decimal.Fault Decimal := pairSideSize b.settings.capital b.settings.basePercent

end Brief

/-- The components of a subject in words, in the order of evaluation. -/
def Subject.descriptions (s : Subject) : List IndicatorDescription :=
  s.params.components.map fun c => c.describe c.indicator

end BotSpec
