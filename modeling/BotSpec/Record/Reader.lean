import BotSpec.Power
import BotSpec.Json.Reader
import BotSpec.ParamSet.Normalize
import BotSpec.Record.Basic
import BotSpec.Record.Scalar

/-!
# Reading records

Every field of a record is optional. Six of them have a fixed shape (`fixedKeys`); everything else
is taken as it comes, and a statistic that cannot be read is zero.

* `StrategyRecord.ofJson` reads a value, where the last member of a key counts.
* `StrategyRecord.ofText` reads a text from front to back and stops at the first fault: text that is
  not JSON, a fixed field of the wrong shape, or a fixed field given twice.
-/

namespace BotSpec

open Json (Refusal Parsed)

/-- The fields whose shape is fixed. -/
def fixedKeys : List String :=
  ["id", "strategy_name", "strategy_type", "strategy_params", "symbol", "sizing_mode"]

/-- An optional whole number of 64 bits. -/
def readId (j : Option Json) : Except Refusal (Option Int) :=
  match j with
  | none => .ok none
  | some .null => .ok none
  | some (.whole n) => if n < twoPow 63 then .ok (some n) else .error .wrongShape
  | some _ => .error .wrongShape

/-- An optional text. -/
def readText (j : Option Json) : Except Refusal (Option String) :=
  match j with
  | none => .ok none
  | some .null => .ok none
  | some (.string s) => .ok (some s)
  | some _ => .error .wrongShape

/-- The type that a parameter payload names: the text at `type`, to any depth of quoting. -/
def embeddedType? (payload : Json) : Option String :=
  match payload with
  | .object members => typeOf members
  | .string text => ofText text
  | _ => none
where
  /-- The text at `type`. -/
  typeOf (members : List (String × Json)) : Option String :=
    match Json.lookup "type" members with
    | some (.string s) => some s
    | _ => none
  /-- The type that a JSON text names. -/
  ofText (text : String) : Option String :=
    match h : Json.parse text with
    | .ok (.object members) => typeOf members
    | .ok (.string inner) =>
      have := Json.parse_string_length h
      ofText inner
    | _ => none
  termination_by text.length

namespace BacktestStats

/-- The statistics among the members of an object. -/
def ofMembers (members : List (String × Json)) : BacktestStats :=
  let decimal? := fun key : String => (Json.lookup key members).bind Decimal.ofJson?
  let decimal := fun key : String => (decimal? key).getD Decimal.zero
  let count := fun key : String => ((Json.lookup key members).bind countOfJson?).getD 0
  { netPnl := decimal "net_pnl"
    grossPnl := decimal "gross_pnl"
    totalFees := decimal "total_fees"
    winRate := decimal "win_rate"
    totalTrades := count "total_trades"
    sharpeRatio := decimal "sharpe_ratio"
    sortinoRatio := decimal "sortino_ratio"
    maxDrawdownPct := decimal "max_drawdown_pct"
    profitFactor := decimal "profit_factor"
    avgTradePnl := decimal "avg_trade_pnl"
    annualizedReturnPct := decimal "annualized_return_pct"
    annualizedSharpe := decimal "annualized_sharpe"
    strategyConfidence := decimal "strategy_confidence"
    maxConsecutiveLosses := count "max_consecutive_losses"
    avgWinPnl := decimal "avg_win_pnl"
    avgLossPnl := decimal "avg_loss_pnl"
    totalVolume := decimal "total_volume"
    compositeScore := decimal "composite_score"
    hitRate := decimal? "hit_rate"
    avgLockedProfit := decimal? "avg_locked_profit" }

end BacktestStats

namespace StrategyRecord

/-- The parameters of a payload, and whether it was malformed. -/
def readParams (payload : Json) : ParamSet × Bool :=
  match ParamSet.normalize? payload with
  | .ok p => (p, false)
  | .error _ => (ParamSet.empty, true)

/-- The record of an object's members. A type that is blank gives way to the one in the parameters,
and a name that is absent is the type. -/
def ofMembers (members : List (String × Json)) : Except Refusal StrategyRecord := do
  let id ← readId (Json.lookup "id" members)
  let name ← readText (Json.lookup "strategy_name" members)
  let given ← readText (Json.lookup "strategy_type" members)
  let symbol ← readText (Json.lookup "symbol" members)
  let sizing ← readText (Json.lookup "sizing_mode" members)
  let payload := (Json.lookup "strategy_params" members).getD .null
  let (params, malformedParams) := readParams payload
  let type :=
    ((given.filter fun t => !Text.isAllBlank t).or (embeddedType? payload)).getD ""
  return {
    id
    name := name.getD type
    type
    params
    malformedParams
    symbol := symbol.getD ""
    days := ((Json.lookup "days" members).bind countOfJson?).getD 0
    sizing := (sizing.map SizingMode.parse).getD .fixed
    stats := .ofMembers members }

/-- The record in a JSON value. -/
def ofJson (j : Json) : Except Refusal StrategyRecord :=
  match j with
  | .object members => ofMembers members
  | _ => .error .wrongShape

/-- Whether a fixed field may hold a value. -/
def admits (key : String) (v : Json) : Bool :=
  if key = "id" then (readId (some v)).isOk else (readText (some v)).isOk

/-- Reads the value of a fixed field that is a scalar. -/
def fixedScalar (key : String) (cs : List Char) : Except Refusal (Parsed cs Json) :=
  match Json.scalar .wrongShape cs with
  | .error e => .error e
  | .ok p => if admits key p.value then .ok p else .error .wrongShape

/-- Reads one member of the text of a record. -/
def member : Json.MemberReader := fun seen key =>
  if key ∈ fixedKeys then
    if (Json.lookup key seen).isSome then fun _ => .error .wrongShape
    else if key = "strategy_params" then Json.afterColon (Json.value (Json.depthLimit - 1))
    else Json.afterColon (Json.afterSpaces (fixedScalar key))
  else Json.afterColon (Json.value (Json.depthLimit - 1))

/-- The record in a JSON text. -/
def ofText (text : String) : Except Refusal StrategyRecord :=
  match Json.skipSpaces text.toList with
  | '\x7b' :: body =>
    match Json.objectBody member body with
    | .error e => .error e
    | .ok p =>
      if Json.skipSpaces p.rest = [] then ofMembers (Json.ofMembers p.value) else .error .notJson
  | cs =>
    match Json.scalar .wrongShape cs with
    | .error e => .error e
    | .ok _ => .error .wrongShape

end StrategyRecord

end BotSpec
