import BotSpec.Strategy.Factory
import BotSpec.Strategy.PairQuote

/-!
# Evaluation on the latest candle

`evaluateLatest` runs every component of a variant over a list of candles and reports the votes on
the last one, with their composition for a composite. The arbitrage variant answers with the quote
of the last candle.
-/

namespace BotSpec

/-- What one component says on the last candle. -/
structure ComponentVote where
  indicator : IndicatorKind
  vote : Signal
  value : Option Float

inductive Evaluation where
  /-- The composition is absent for a variant with one component. -/
  | directional (votes : List ComponentVote) (composition : Option Composition) (action : Signal)
  /-- A quote whose arithmetic may be too large. -/
  | arbitrage (quote : Except Decimal.Fault PairQuote)

/-- A generator with its vote on the latest bar; before the first bar it holds. -/
abbrev Standing := Signal × Generator Float

/-- Every generator after one more candle. -/
def stepAll (standings : List Standing) (candle : Candle) : List Standing :=
  standings.map fun s => s.2.step candle.bar

/-- The quote of the last candle. -/
def evaluateArbitrage (params : CanonicalParams) (candles : List Candle) :
    Except FormulaError Evaluation :=
  match params.components.head? with
  | none => .error (.notDirectional "Gabagool")
  | some c => do
    let pair ← PairParams.ofComponent c
    match candles.getLast? with
    | none => .error .noCandles
    | some candle => return .arbitrage (PairQuote.quote candle pair)

/-- The votes of all components on the last candle. -/
def evaluateLatest (v : Variant) (params : CanonicalParams) (candles : List Candle) :
    Except FormulaError Evaluation :=
  if v.isArbitrage then evaluateArbitrage params candles
  else do
    let generators ← v.generators params
    let standings := candles.foldl stepAll (generators.map fun g => (Signal.hold, g))
    let votes := standings.map fun s => s.1
    let reports :=
      (v.components.zip standings).map fun x =>
        (⟨x.1.indicator, x.2.1, x.2.2.reading⟩ : ComponentVote)
    match v.mode with
    | none => return .directional reports none (votes.headD .hold)
    | some mode =>
      match Composition.compose mode votes with
      | .ok composition => return .directional reports (some composition) composition.action
      | .error e => .error (.composition e)

end BotSpec
