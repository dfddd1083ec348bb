import BotSpec.Catalogue.Indicator

/-!
# Parameter schemas

A schema lists the parameters of one indicator: the canonical name, the role, and the other
spellings that stored records use. An indicator that stands alone takes bare names (`period`);
inside a composite every name carries the indicator (`rsi_period`), so that names of different
components cannot meet.
-/

namespace BotSpec

/-- One parameter of a schema. -/
structure ParamSpec where
  /-- The canonical name; nothing behind the schema reads another spelling. -/
  name : String
  role : ParamRole
  /-- Other spellings, tried in this order when the canonical name is absent. -/
  aliases : List String
  description : String
  deriving DecidableEq

/-- Every accepted spelling, the canonical one first. -/
def ParamSpec.keys (spec : ParamSpec) : List String := spec.name :: spec.aliases

namespace Schema

def rsiPeriodText := "Number of close-to-close changes in the Wilder-smoothed gain/loss averages"
def rsiOverboughtText := "RSI level above which the market is overbought (SELL)"
def rsiOversoldText := "RSI level below which the market is oversold (BUY)"
def bandsPeriodText := "Window for the middle SMA and the population standard deviation"
def bandsMultiplierText := "Band width in standard deviations"
def fastText := "Fast EMA period"
def slowText := "Slow EMA period"
def macdSignalText := "EMA period of the signal line over the MACD line"
def stochPeriodText := "High/low lookback window for %K"
def stochOverboughtText := "%K level above which a bearish cross sells"
def stochOversoldText := "%K level below which a bullish cross buys"
def vwapPeriodText := "Rolling window of candles in the volume-weighted average"
def obvSmaText := "SMA period used to smooth the OBV line"
def williamsPeriodText := "High/low lookback window"
def williamsOverboughtText := "%R level (negative) above which the market is overbought"
def williamsOversoldText := "%R level (negative) below which the market is oversold"
def adxPeriodText := "Smoothing period for directional movement, true range and ADX"
def adxThresholdText := "Minimum ADX for a trend to be traded"

/-- The schema of an indicator that is a strategy of its own. -/
def alone : IndicatorKind → List ParamSpec
  | .rsi =>
    [⟨"period", .period, ["rsi_period"], rsiPeriodText⟩,
      ⟨"overbought", .overbought, ["rsi_overbought", "rsi_ob"], rsiOverboughtText⟩,
      ⟨"oversold", .oversold, ["rsi_oversold", "rsi_os"], rsiOversoldText⟩]
  | .bollingerBands =>
    [⟨"period", .period, ["bb_period"], bandsPeriodText⟩,
      ⟨"multiplier", .multiplier, ["bb_multiplier", "bb_mult", "std_dev"], bandsMultiplierText⟩]
  | .macd =>
    [⟨"fast", .fast, ["macd_fast", "fast_period"], fastText⟩,
      ⟨"slow", .slow, ["macd_slow", "slow_period"], slowText⟩,
      ⟨"signal", .signalPeriod, ["macd_signal", "signal_period"], macdSignalText⟩]
  | .emaCrossover =>
    [⟨"fast_period", .fast, ["ema_fast", "fast"], fastText⟩,
      ⟨"slow_period", .slow, ["ema_slow", "slow"], slowText⟩]
  | .stochastic =>
    [⟨"period", .period, ["stoch_period", "k_period"], stochPeriodText⟩,
      ⟨"overbought", .overbought, ["stoch_overbought", "stoch_ob"], stochOverboughtText⟩,
      ⟨"oversold", .oversold, ["stoch_oversold", "stoch_os"], stochOversoldText⟩]
  | .atrMeanReversion =>
    [⟨"atr_period", .atrPeriod, ["period"], "Window of the true-range SMA (ATR)"⟩,
      ⟨"sma_period", .smaPeriod, ["mean_period"], "Window of the close SMA the bands are centred on"⟩,
      ⟨"multiplier", .multiplier, ["atr_multiplier", "atr_mult"], "Band half-width in ATRs"⟩]
  | .vwap => [⟨"period", .period, ["vwap_period"], vwapPeriodText⟩]
  | .obv => [⟨"sma_period", .smaPeriod, ["obv_sma_period", "period"], obvSmaText⟩]
  | .williamsR =>
    [⟨"period", .period, ["wr_period"], williamsPeriodText⟩,
      ⟨"overbought", .overbought, ["wr_overbought", "wr_ob"], williamsOverboughtText⟩,
      ⟨"oversold", .oversold, ["wr_oversold", "wr_os"], williamsOversoldText⟩]
  | .adx =>
    [⟨"period", .period, ["adx_period"], adxPeriodText⟩,
      ⟨"adx_threshold", .adxThreshold, ["threshold"], adxThresholdText⟩]
  | .gabagool =>
    [⟨"max_pair_cost", .maxPairCost, ["pair_cost_max"],
        "Trade only when YES fill + NO fill is strictly below this"⟩,
      ⟨"bid_offset", .bidOffset, ["offset"], "How far below (mid - spread/2) the maker bids sit"⟩,
      ⟨"spread_multiplier", .spreadMultiplier, ["spread_mult"],
        "Synthetic spread = candle volatility x this, clamped to [0.02, 0.10]"⟩]

/-- The schema of an indicator inside a composite. The two kinds that no composite has keep their
own schema. -/
def combined : IndicatorKind → List ParamSpec
  | .rsi =>
    [⟨"rsi_period", .period, [], rsiPeriodText⟩,
      ⟨"rsi_overbought", .overbought, ["rsi_ob"], rsiOverboughtText⟩,
      ⟨"rsi_oversold", .oversold, ["rsi_os"], rsiOversoldText⟩]
  | .bollingerBands =>
    [⟨"bb_period", .period, [], bandsPeriodText⟩,
      ⟨"bb_multiplier", .multiplier, ["bb_mult"], bandsMultiplierText⟩]
  | .macd =>
    [⟨"macd_fast", .fast, [], fastText⟩,
      ⟨"macd_slow", .slow, [], slowText⟩,
      ⟨"macd_signal", .signalPeriod, [], macdSignalText⟩]
  | .emaCrossover =>
    [⟨"ema_fast", .fast, ["ema_fast_period"], fastText⟩,
      ⟨"ema_slow", .slow, ["ema_slow_period"], slowText⟩]
  | .stochastic =>
    [⟨"stoch_period", .period, [], stochPeriodText⟩,
      ⟨"stoch_overbought", .overbought, ["stoch_ob"], stochOverboughtText⟩,
      ⟨"stoch_oversold", .oversold, ["stoch_os"], stochOversoldText⟩]
  | .vwap => [⟨"vwap_period", .period, [], vwapPeriodText⟩]
  | .obv => [⟨"obv_sma_period", .smaPeriod, ["obv_period"], obvSmaText⟩]
  | .williamsR =>
    [⟨"wr_period", .period, [], williamsPeriodText⟩,
      ⟨"wr_overbought", .overbought, ["wr_ob"], williamsOverboughtText⟩,
      ⟨"wr_oversold", .oversold, ["wr_os"], williamsOversoldText⟩]
  | .adx =>
    [⟨"adx_period", .period, [], adxPeriodText⟩,
      ⟨"adx_threshold", .adxThreshold, [], adxThresholdText⟩]
  | .atrMeanReversion => alone .atrMeanReversion
  | .gabagool => alone .gabagool

end Schema

end BotSpec
