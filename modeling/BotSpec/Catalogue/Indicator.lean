/-!
# Indicators and the roles of their parameters

The eleven sources of a signal: ten directional indicators and one pair arbitrage.
`IndicatorKind.roles` says which parameters the formula of an indicator takes, in the order of the
formula.
-/

namespace BotSpec

inductive IndicatorKind where
  | rsi
  | bollingerBands
  | macd
  | emaCrossover
  | stochastic
  | atrMeanReversion
  | vwap
  | obv
  | williamsR
  | adx
  | gabagool
  deriving DecidableEq

/-- What a parameter means to the formula that takes it. -/
inductive ParamRole where
  | period
  | overbought
  | oversold
  | multiplier
  | fast
  | slow
  | signalPeriod
  | atrPeriod
  | smaPeriod
  | adxThreshold
  | maxPairCost
  | bidOffset
  | spreadMultiplier
  deriving DecidableEq

namespace ParamRole

/-- All roles, in a fixed order. -/
def all : List ParamRole :=
  [period, overbought, oversold, multiplier, fast, slow, signalPeriod, atrPeriod, smaPeriod,
    adxThreshold, maxPairCost, bidOffset, spreadMultiplier]

/-- The key of a role in JSON. -/
def key : ParamRole → String
  | period => "period"
  | overbought => "overbought"
  | oversold => "oversold"
  | multiplier => "multiplier"
  | fast => "fast"
  | slow => "slow"
  | signalPeriod => "signal_period"
  | atrPeriod => "atr_period"
  | smaPeriod => "sma_period"
  | adxThreshold => "adx_threshold"
  | maxPairCost => "max_pair_cost"
  | bidOffset => "bid_offset"
  | spreadMultiplier => "spread_multiplier"

end ParamRole

namespace IndicatorKind

/-- All kinds, the arbitrage last. -/
def all : List IndicatorKind :=
  [rsi, bollingerBands, macd, emaCrossover, stochastic, atrMeanReversion, vwap, obv, williamsR, adx,
    gabagool]

/-- The key of a kind in JSON. -/
def key : IndicatorKind → String
  | rsi => "rsi"
  | bollingerBands => "bollinger_bands"
  | macd => "macd"
  | emaCrossover => "ema_crossover"
  | stochastic => "stochastic"
  | atrMeanReversion => "atr_mean_reversion"
  | vwap => "vwap"
  | obv => "obv"
  | williamsR => "williams_r"
  | adx => "adx"
  | gabagool => "gabagool"

/-- The abbreviation used in lists. -/
def shortName : IndicatorKind → String
  | rsi => "RSI"
  | bollingerBands => "BB"
  | macd => "MACD"
  | emaCrossover => "EMA"
  | stochastic => "Stoch"
  | atrMeanReversion => "ATR"
  | vwap => "VWAP"
  | obv => "OBV"
  | williamsR => "WR"
  | adx => "ADX"
  | gabagool => "Gabagool"

/-- The full name used in headings. -/
def displayName : IndicatorKind → String
  | rsi => "Relative Strength Index"
  | bollingerBands => "Bollinger Bands"
  | macd => "MACD"
  | emaCrossover => "EMA Crossover"
  | stochastic => "Stochastic Oscillator"
  | atrMeanReversion => "ATR Mean Reversion"
  | vwap => "VWAP"
  | obv => "On-Balance Volume"
  | williamsR => "Williams %R"
  | adx => "Average Directional Index"
  | gabagool => "Gabagool pair arbitrage"

/-- The parameters that the formula takes, in its order. -/
def roles : IndicatorKind → List ParamRole
  | rsi | stochastic | williamsR => [.period, .overbought, .oversold]
  | bollingerBands => [.period, .multiplier]
  | macd => [.fast, .slow, .signalPeriod]
  | emaCrossover => [.fast, .slow]
  | atrMeanReversion => [.atrPeriod, .smaPeriod, .multiplier]
  | vwap => [.period]
  | obv => [.smaPeriod]
  | adx => [.period, .adxThreshold]
  | gabagool => [.maxPairCost, .bidOffset, .spreadMultiplier]

/-- Whether the kind buys both sides of a market instead of voting on a direction. -/
def isArbitrage : IndicatorKind → Bool
  | gabagool => true
  | _ => false

/-- The kind with a given key. -/
def ofKey? (text : String) : Option IndicatorKind := all.find? fun k => k.key = text

end IndicatorKind

end BotSpec
