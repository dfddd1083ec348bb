import BotSpec.Proofs.Outcome
import BotSpec.Strategy.Factory

/-!
# What a generator is built from

A generator that was built had all its parameters. `Generator.BuiltFrom` lists them, indicator by
indicator: the periods, read from their roles, and the state before the first bar that these give.

> `builtFrom_of_ofComponent`: nothing else is ever built.
-/

namespace BotSpec

open Indicator

/-- A generator is made of an indicator that could be started. -/
theorem orZeroPeriod_eq_ok {β : Type} {make : β → Generator Float} {o : Option β}
    {g : Generator Float} (h : orZeroPeriod make o = .ok g) : ∃ s, o = some s ∧ g = make s := by
  cases o with
  | none => cases h
  | some s =>
    cases h
    exact ⟨s, rfl, rfl⟩

namespace Generator

/-- A generator of a kind before its first bar, with periods of a component's parameters. -/
inductive BuiltFrom (c : ComponentParams) : IndicatorKind → Generator Float → Prop where
  | rsi {period : Nat} {overbought oversold : Float} (hperiod : c.period .period = .ok period) :
      BuiltFrom c .rsi (.rsi (.start period overbought oversold))
  | bollinger {period : Nat} {multiplier : Float} {s : Bollinger Float} (hperiod : c.period .period = .ok period)
      (hs : Bollinger.start? period multiplier = some s) : BuiltFrom c .bollingerBands (.bollinger s)
  | macd {fast slow line : Nat} {s : Macd Float} (hfast : c.period .fast = .ok fast)
      (hslow : c.period .slow = .ok slow) (hline : c.period .signalPeriod = .ok line)
      (hs : Macd.start? fast slow line = some s) : BuiltFrom c .macd (.macd s)
  | emaCrossover {fast slow : Nat} {s : EmaCrossover Float} (hfast : c.period .fast = .ok fast)
      (hslow : c.period .slow = .ok slow) (hs : EmaCrossover.start? fast slow = some s) :
      BuiltFrom c .emaCrossover (.emaCrossover s)
  | stochastic {period : Nat} {overbought oversold : Float} {s : Stochastic Float}
      (hperiod : c.period .period = .ok period) (hs : Stochastic.start? period overbought oversold = some s) :
      BuiltFrom c .stochastic (.stochastic s)
  | atrReversion {rangePeriod meanPeriod : Nat} {multiplier : Float} {s : AtrReversion Float}
      (hrange : c.period .atrPeriod = .ok rangePeriod) (hmean : c.period .smaPeriod = .ok meanPeriod)
      (hs : AtrReversion.start? rangePeriod meanPeriod multiplier = some s) :
      BuiltFrom c .atrMeanReversion (.atrReversion s)
  | vwap {period : Nat} (hperiod : c.period .period = .ok period) : BuiltFrom c .vwap (.vwap (.start period))
  | obv {period : Nat} {s : Obv Float} (hperiod : c.period .smaPeriod = .ok period) (hs : Obv.start? period = some s) :
      BuiltFrom c .obv (.obv s)
  | williamsR {period : Nat} {overbought oversold : Float} {s : WilliamsR Float}
      (hperiod : c.period .period = .ok period) (hs : WilliamsR.start? period overbought oversold = some s) :
      BuiltFrom c .williamsR (.williamsR s)
  | adx {period : Nat} {threshold : Float} (hperiod : c.period .period = .ok period) :
      BuiltFrom c .adx (.adx (.start period threshold))

/-- **What is built had all its parameters.** -/
theorem builtFrom_of_ofComponent {kind : IndicatorKind} {c : ComponentParams} {g : Generator Float}
    (h : ofComponent kind c = .ok g) : BuiltFrom c kind g := by
  -- each `obtain` is one parameter of the formula, in its order; the last one is the window, if there is one
  cases kind with
  | rsi =>
    obtain ⟨period, hperiod, h⟩ := exists_of_bind_eq_ok h
    obtain ⟨overbought, -, h⟩ := exists_of_bind_eq_ok h
    obtain ⟨oversold, -, h⟩ := exists_of_bind_eq_ok h
    cases h
    exact .rsi hperiod
  | bollingerBands =>
    obtain ⟨period, hperiod, h⟩ := exists_of_bind_eq_ok h
    obtain ⟨multiplier, -, h⟩ := exists_of_bind_eq_ok h
    obtain ⟨s, hs, rfl⟩ := orZeroPeriod_eq_ok h
    exact .bollinger hperiod hs
  | macd =>
    obtain ⟨fast, hfast, h⟩ := exists_of_bind_eq_ok h
    obtain ⟨slow, hslow, h⟩ := exists_of_bind_eq_ok h
    obtain ⟨line, hline, h⟩ := exists_of_bind_eq_ok h
    obtain ⟨s, hs, rfl⟩ := orZeroPeriod_eq_ok h
    exact .macd hfast hslow hline hs
  | emaCrossover =>
    obtain ⟨fast, hfast, h⟩ := exists_of_bind_eq_ok h
    obtain ⟨slow, hslow, h⟩ := exists_of_bind_eq_ok h
    obtain ⟨s, hs, rfl⟩ := orZeroPeriod_eq_ok h
    exact .emaCrossover hfast hslow hs
  | stochastic =>
    obtain ⟨period, hperiod, h⟩ := exists_of_bind_eq_ok h
    obtain ⟨overbought, -, h⟩ := exists_of_bind_eq_ok h
    obtain ⟨oversold, -, h⟩ := exists_of_bind_eq_ok h
    obtain ⟨s, hs, rfl⟩ := orZeroPeriod_eq_ok h
    exact .stochastic hperiod hs
  | atrMeanReversion =>
    obtain ⟨rangePeriod, hrange, h⟩ := exists_of_bind_eq_ok h
    obtain ⟨meanPeriod, hmean, h⟩ := exists_of_bind_eq_ok h
    obtain ⟨multiplier, -, h⟩ := exists_of_bind_eq_ok h
    obtain ⟨s, hs, rfl⟩ := orZeroPeriod_eq_ok h
    exact .atrReversion hrange hmean hs
  | vwap =>
    obtain ⟨period, hperiod, h⟩ := exists_of_bind_eq_ok h
    cases h
    exact .vwap hperiod
  | obv =>
    obtain ⟨period, hperiod, h⟩ := exists_of_bind_eq_ok h
    obtain ⟨s, hs, rfl⟩ := orZeroPeriod_eq_ok h
    exact .obv hperiod hs
  | williamsR =>
    obtain ⟨period, hperiod, h⟩ := exists_of_bind_eq_ok h
    obtain ⟨overbought, -, h⟩ := exists_of_bind_eq_ok h
    obtain ⟨oversold, -, h⟩ := exists_of_bind_eq_ok h
    obtain ⟨s, hs, rfl⟩ := orZeroPeriod_eq_ok h
    exact .williamsR hperiod hs
  | adx =>
    obtain ⟨period, hperiod, h⟩ := exists_of_bind_eq_ok h
    obtain ⟨threshold, -, h⟩ := exists_of_bind_eq_ok h
    cases h
    exact .adx hperiod
  | gabagool => cases h

end Generator

end BotSpec
