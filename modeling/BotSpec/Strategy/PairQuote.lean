import BotSpec.Catalogue.Canonical
import BotSpec.Decimal.Text
import BotSpec.Market.Candle
import BotSpec.Market.Price
import BotSpec.Strategy.Error

/-!
# Pair quotes

The arbitrage variant turns each candle into a market on "up or down" and asks what buying both
sides would cost. The middle prices follow the candle's move, a spread that grows with its range is
taken off both, and the pair is bought only below a ceiling: a pair pays exactly one at settlement,
whichever side wins.

All arithmetic is decimal, and `quote` fails only when an intermediate result is too large.
-/

namespace BotSpec

/-- The three settings of the arbitrage. -/
structure PairParams where
  /-- Buy strictly below this cost. -/
  maxPairCost : Decimal
  /-- How far the bids sit below the middle less half the spread. -/
  bidOffset : Decimal
  /-- Spread per unit of relative range. -/
  spreadMultiplier : Decimal
  deriving DecidableEq

inductive PairDecision where
  | trade
  | skip
  deriving DecidableEq

def PairDecision.text : PairDecision → String
  | .trade => "TRADE"
  | .skip => "SKIP"

/-- What one candle offers. -/
structure PairQuote where
  yesMid : Decimal
  noMid : Decimal
  spread : Decimal
  yesFill : Decimal
  noFill : Decimal
  pairCost : Decimal
  decision : PairDecision
  /-- What a bought pair earns, zero for a pair that is not bought. -/
  lockedProfit : Decimal
  deriving DecidableEq

namespace PairQuote

def moveScale : Decimal := .ofDigits 5 0
def moveLimit : Decimal := .ofDigits 40 2
def spreadFloor : Decimal := .ofDigits 2 2
def spreadCeiling : Decimal := .ofDigits 10 2

/-- What a bought pair earns, in words. -/
def lockedProfitRule : String := "Locked profit per share pair = 1.00 - pair_cost, whatever the outcome"

/-- A pair that costs as much as the ceiling is not bought. -/
def decide (pairCost maxPairCost : Decimal) : PairDecision :=
  if pairCost < maxPairCost then .trade else .skip

/-- The price of a bid below the middle of one side. -/
def fill (mid halfSpread bidOffset : Decimal) : Except Decimal.Fault Decimal := do
  let bid ← (← mid.sub halfSpread).sub bidOffset
  return SharePrice.clamp bid

/-- The candle's move and its range, both relative to the open. Without a positive open there is
neither. -/
def relative (c : Candle) : Except Decimal.Fault (Decimal × Decimal) :=
  if Decimal.zero < c.openPrice then do
    let move ← (← c.close.sub c.openPrice).div c.openPrice
    let range ← (← c.high.sub c.low).div c.openPrice
    return (move, range)
  else .ok (Decimal.zero, Decimal.zero)

/-- The quote of one candle. -/
def quote (c : Candle) (p : PairParams) : Except Decimal.Fault PairQuote := do
  let (move, range) ← relative c
  let deviation := (← move.mul moveScale).clamp moveLimit.neg moveLimit
  let yesMid ← SharePrice.even.add deviation
  let noMid ← Decimal.one.sub yesMid
  let spread := (← range.mul p.spreadMultiplier).clamp spreadFloor spreadCeiling
  let halfSpread ← spread.div .two
  let yesFill ← fill yesMid halfSpread p.bidOffset
  let noFill ← fill noMid halfSpread p.bidOffset
  let pairCost ← yesFill.add noFill
  let decision := decide pairCost p.maxPairCost
  let lockedProfit ←
    match decision with
    | .trade => Decimal.one.sub pairCost
    | .skip => pure Decimal.zero
  return { yesMid, noMid, spread, yesFill, noFill, pairCost, decision, lockedProfit }

end PairQuote

/-- The decimal of a role, through the shortest digits of its value. -/
def ComponentParams.decimal (c : ComponentParams) (role : ParamRole) : Except FormulaError Decimal :=
  match c.get? role with
  | none => .error (.missingParameter (c.name role))
  | some value =>
    match Decimal.readPlain? (Binary64.plainText value).toList with
    | some d => .ok d
    | none => .error (.invalidParameter (c.name role) value .notDecimal)

/-- The settings that a component holds. -/
def PairParams.ofComponent (c : ComponentParams) : Except FormulaError PairParams := do
  return {
    maxPairCost := ← c.decimal .maxPairCost
    bidOffset := ← c.decimal .bidOffset
    spreadMultiplier := ← c.decimal .spreadMultiplier }

end BotSpec
