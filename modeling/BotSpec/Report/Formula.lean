import BotSpec.Binary64.Text
import BotSpec.Catalogue.Canonical
import BotSpec.Json.Basic
import BotSpec.Strategy.PairQuote

/-!
# Indicators in words

What a bot has to compute for one component: a sentence with the parameters, the steps, the rule of
the vote and the confidence of a vote. Every line names parameters by the canonical names of the
component; a parameter without a value reads `undefined`.
-/

namespace BotSpec

/-- What stands for the value of a missing parameter. -/
def undefinedText : String := "undefined"

/-- A number as a parameter value: whole numbers have no point and no sign on zero. -/
def valueText (x : Float) : String := if x == 0 then "0" else Binary64.plainText x

/-- The value of a parameter, or the text for a missing one. -/
def optionalText (x : Option Float) : String :=
  match x with
  | some x => valueText x
  | none => undefinedText

/-- A line of a parameter table. -/
structure ParamLine where
  name : String
  value : String
  description : String
  deriving DecidableEq

/-- The line of a bound parameter. -/
def BoundParam.line (b : BoundParam) : ParamLine :=
  ⟨b.spec.name, optionalText b.value, b.spec.description⟩

structure IndicatorDescription where
  indicator : IndicatorKind
  title : String
  setup : String
  parameters : List ParamLine
  computation : List String
  signalRule : List String
  confidence : List String
  deriving DecidableEq

namespace ComponentParams

variable (c : ComponentParams) (kind : IndicatorKind)

/-- The value of a role in words. -/
def valueOf (role : ParamRole) : String := optionalText (c.get? role)

/-- The name of a role and its value. -/
def setting (role : ParamRole) : String := s!"{c.name role} = {c.valueOf role}"

/-- The name of a role, with its value in brackets. -/
def limit (role : ParamRole) : String := s!"{c.name role} ({c.valueOf role})"

/-- What is computed, in one sentence. -/
def setup : String :=
  match kind with
  | .rsi =>
    s!"Compute RSI over {c.setting .period} closes and compare it to the {c.setting .overbought} / {c.setting .oversold} levels."
  | .bollingerBands =>
    s!"Compute Bollinger Bands with {c.setting .period} and {c.setting .multiplier}."
  | .macd =>
    s!"Compute MACD with {c.setting .fast}, {c.setting .slow} and {c.setting .signalPeriod}."
  | .emaCrossover => s!"Track two EMAs of close: {c.setting .fast} and {c.setting .slow}."
  | .stochastic =>
    s!"Compute the stochastic oscillator over {c.setting .period} with {c.setting .overbought} / {c.setting .oversold} zones."
  | .atrMeanReversion =>
    s!"Build ATR bands around a moving average with {c.setting .atrPeriod}, {c.setting .smaPeriod} and {c.setting .multiplier}."
  | .vwap => s!"Compute a rolling VWAP over {c.setting .period} candles."
  | .obv => s!"Accumulate on-balance volume and smooth it with {c.setting .smaPeriod}."
  | .williamsR =>
    s!"Compute Williams %R over {c.setting .period} with {c.setting .overbought} / {c.setting .oversold} levels."
  | .adx =>
    s!"Measure trend strength with ADX over {c.setting .period}, traded only above {c.setting .adxThreshold}."
  | .gabagool =>
    s!"Synthesize a YES/NO binary market from each candle and buy both sides when {c.setting .maxPairCost}, using {c.setting .bidOffset} and {c.setting .spreadMultiplier}."

/-- The steps of the computation. -/
def computation : List String :=
  match kind with
  | .rsi =>
    let n := c.name .period
    ["For each closed candle compute change = close - previous close.",
      "gain = max(change, 0); loss = max(-change, 0).",
      s!"Seed avg_gain and avg_loss with the simple mean of the first {n} gains and losses.",
      s!"Then smooth (Wilder): avg = (avg_prev x ({n} - 1) + current) / {n}.",
      "RSI = 100 - 100 / (1 + avg_gain / avg_loss); when avg_loss = 0, RSI = 100."]
  | .bollingerBands =>
    let n := c.name .period
    let m := c.name .multiplier
    [s!"middle = SMA(close, {n}).",
      s!"sigma = population standard deviation of the last {n} closes (divide by N, not N - 1).",
      s!"upper = middle + {m} x sigma; lower = middle - {m} x sigma."]
  | .macd =>
    [s!"macd_line = EMA(close, {c.name .fast}) - EMA(close, {c.name .slow}).",
      s!"signal_line = EMA(macd_line, {c.name .signalPeriod}).",
      "histogram = macd_line - signal_line.",
      s!"Ignore crossovers until more than {c.name .slow} candles have been processed."]
  | .emaCrossover =>
    [s!"fast = EMA(close, {c.name .fast}); slow = EMA(close, {c.name .slow}).",
      "EMA uses alpha = 2 / (period + 1), seeded with the first close.",
      s!"Ignore crosses until more than {c.name .slow} candles have been processed."]
  | .stochastic =>
    [s!"HH = highest high, LL = lowest low over the last {c.name .period} candles.",
      "%K = 100 x (close - LL) / (HH - LL).",
      "%D = SMA(%K, 3) over the last 3 consecutive defined %K values; HOLD until 3 exist.",
      "If HH = LL, %K is undefined, the vote is HOLD and %D restarts from the next defined %K."]
  | .atrMeanReversion =>
    let m := c.name .multiplier
    ["TR = max(high - low, |high - previous close|, |low - previous close|).",
      s!"ATR = SMA(TR, {c.name .atrPeriod}).",
      s!"mean = SMA(close, {c.name .smaPeriod}).",
      s!"upper = mean + {m} x ATR; lower = mean - {m} x ATR."]
  | .vwap =>
    ["typical price tp = (high + low + close) / 3.",
      s!"VWAP = sum(tp x volume) / sum(volume) over the last {c.name .period} candles.",
      "If the summed volume is zero, the vote is HOLD."]
  | .obv =>
    ["OBV starts at 0.",
      "close > previous close: OBV += volume; close < previous close: OBV -= volume; otherwise unchanged.",
      s!"obv_sma = SMA(OBV, {c.name .smaPeriod})."]
  | .williamsR =>
    [s!"HH = highest high, LL = lowest low over the last {c.name .period} candles.",
      "%R = -100 x (HH - close) / (HH - LL), in [-100, 0].",
      "If HH = LL, %R is undefined and the vote is HOLD."]
  | .adx =>
    let n := c.name .period
    ["+DM = high - previous high if it exceeds previous low - low and is positive, else 0.",
      "-DM = previous low - low if it exceeds high - previous high and is positive, else 0.",
      "TR as for ATR.",
      s!"Smooth +DM, -DM and TR with alpha = 1 / {n}: s = s_prev + alpha x (x - s_prev).",
      "+DI = 100 x smoothed +DM / smoothed TR; -DI = 100 x smoothed -DM / smoothed TR.",
      "DX = 100 x |+DI - -DI| / (+DI + -DI).",
      s!"ADX = DX smoothed the same way with alpha = 1 / {n}."]
  | .gabagool =>
    let b := c.name .bidOffset
    ["price_change = (close - open) / open.",
      "yes_mid = 0.5 + clamp(price_change x 5, -0.40, 0.40); no_mid = 1 - yes_mid.",
      "volatility = (high - low) / open.",
      s!"spread = clamp(volatility x {c.name .spreadMultiplier}, 0.02, 0.10).",
      s!"yes_fill = clamp(yes_mid - spread / 2 - {b}, 0.05, 0.95); no_fill = clamp(no_mid - spread / 2 - {b}, 0.05, 0.95).",
      "pair_cost = yes_fill + no_fill."]

/-- When the component buys, sells and holds. -/
def signalRule : List String :=
  match kind with
  | .rsi =>
    [s!"BUY when RSI < {c.limit .oversold}.",
      s!"SELL when RSI > {c.limit .overbought}.",
      "HOLD otherwise, and until the first RSI value exists."]
  | .bollingerBands =>
    ["BUY when close < lower.", "SELL when close > upper.", "HOLD when lower <= close <= upper."]
  | .macd =>
    ["BUY when the histogram crosses up through zero (previous <= 0, current > 0).",
      "SELL when the histogram crosses down through zero (previous >= 0, current < 0).",
      "HOLD otherwise."]
  | .emaCrossover =>
    ["BUY on a golden cross: previous fast <= previous slow and fast > slow.",
      "SELL on a death cross: previous fast >= previous slow and fast < slow.",
      "HOLD otherwise."]
  | .stochastic =>
    [s!"BUY when %K crosses above %D while %K < {c.limit .oversold}.",
      s!"SELL when %K crosses below %D while %K > {c.limit .overbought}.",
      "HOLD otherwise."]
  | .atrMeanReversion =>
    ["BUY when close < lower (stretched below the mean).",
      "SELL when close > upper (stretched above the mean).",
      "HOLD inside the bands."]
  | .vwap => ["BUY when close < VWAP.", "SELL when close > VWAP.", "HOLD when close = VWAP."]
  | .obv =>
    ["BUY when OBV > obv_sma.", "SELL when OBV < obv_sma.", "HOLD when they are equal."]
  | .williamsR =>
    [s!"BUY when %R < {c.limit .oversold}.",
      s!"SELL when %R > {c.limit .overbought}.",
      "HOLD otherwise."]
  | .adx =>
    [s!"Vote only when ADX > {c.limit .adxThreshold}; otherwise HOLD.",
      "BUY when +DI > -DI.",
      "SELL when -DI > +DI."]
  | .gabagool =>
    [s!"TRADE (buy YES and NO) when pair_cost < {c.limit .maxPairCost}, strictly.",
      "SKIP otherwise.",
      s!"{PairQuote.lockedProfitRule}."]

/-- How strong a vote is, before it is brought into the range of confidences. -/
def strength : List String :=
  match kind with
  | .rsi =>
    let os := c.name .oversold
    let ob := c.name .overbought
    [s!"BUY: ({os} - RSI) / {os}.", s!"SELL: (RSI - {ob}) / (100 - {ob})."]
  | .bollingerBands =>
    ["BUY: (lower - close) / (upper - lower).", "SELL: (close - upper) / (upper - lower)."]
  | .macd => ["|histogram| / close x 1000."]
  | .emaCrossover => ["|fast - slow| / slow x 100."]
  | .stochastic =>
    let os := c.name .oversold
    let ob := c.name .overbought
    [s!"BUY: ({os} - %K) / {os}.", s!"SELL: (%K - {ob}) / (100 - {ob})."]
  | .atrMeanReversion => [s!"|close - mean| / ({c.name .multiplier} x ATR)."]
  | .vwap => ["|close - VWAP| / VWAP x 10."]
  | .obv =>
    ["slope = (OBV - OBV two candles earlier) / 2.",
      "|slope| / max(volume of the current candle, 1), capped at 1."]
  | .williamsR =>
    let os := c.name .oversold
    let ob := c.name .overbought
    [s!"BUY: ({os} - %R) / (100 + {os}).", s!"SELL: (%R - {ob}) / -{ob}."]
  | .adx => ["min(ADX / 100, 1)."]
  | .gabagool => []

end ComponentParams

/-- The least and the greatest confidence of a vote. -/
def confidenceRange : Float × Float := (0.3, 1)

/-- The confidence of a vote in words; an arbitrage has none. -/
def ComponentParams.confidence (c : ComponentParams) (kind : IndicatorKind) : List String :=
  if kind.isArbitrage then ["Not used: both legs are sized from the base position."]
  else
    let (low, high) := confidenceRange
    c.strength kind ++
      [s!"Clamp to [{valueText low}, {valueText high}]; a HOLD vote has confidence 0."]

/-- A component described as an indicator of a kind. -/
def ComponentParams.describe (c : ComponentParams) (kind : IndicatorKind) : IndicatorDescription where
  indicator := kind
  title := kind.displayName
  setup := c.setup kind
  parameters := c.values.map BoundParam.line
  computation := c.computation kind
  signalRule := c.signalRule kind
  confidence := c.confidence kind

end BotSpec
