import BotSpec.Binary64.Whole
import BotSpec.Catalogue.Canonical
import BotSpec.Strategy.Error
import BotSpec.Strategy.Generator

/-!
# Generators from parameters

`Generator.ofComponent` builds the generator of one component, `VariantGenerator.ofVariant` that of
a whole variant. Parameters are read in the order of the formula, so the first one that is absent or
bad is the one reported.
-/

namespace BotSpec

open Indicator

/-- The longest period that is accepted. -/
def longestPeriod : Float := 10000

/-- The whole number from one to the longest period that a value is, or what is wrong with it. -/
def periodOf (value : Float) : Except ParamFault Nat :=
  if value < 1 then .error .periodTooSmall
  else if value - Binary64.floor value != 0 then .error .periodFractional
  else if value > longestPeriod then .error .periodTooLarge
  else .ok value.toUInt64.toNat

namespace ComponentParams

/-- The value of a role, which must be present. -/
def level (c : ComponentParams) (role : ParamRole) : Except FormulaError Float :=
  match c.get? role with
  | some value => .ok value
  | none => .error (.missingParameter (c.name role))

/-- The period of a role. -/
def period (c : ComponentParams) (role : ParamRole) : Except FormulaError Nat := do
  let value ← c.level role
  match periodOf value with
  | .ok n => .ok n
  | .error fault => .error (.invalidParameter (c.name role) value fault)

/-- The value of a role, which must be above zero. -/
def positive (c : ComponentParams) (role : ParamRole) : Except FormulaError Float := do
  let value ← c.level role
  if value > 0 then .ok value else .error (.invalidParameter (c.name role) value .notPositive)

end ComponentParams

/-- A generator that needs at least one bar per window. -/
def orZeroPeriod {β : Type} (make : β → Generator Float) :
    Option β → Except FormulaError (Generator Float)
  | some b => .ok (make b)
  | none => .error .zeroPeriod

namespace Generator

/-- The generator of a kind with the parameters of a component. -/
def ofComponent (kind : IndicatorKind) (c : ComponentParams) :
    Except FormulaError (Generator Float) :=
  match kind with
  | .rsi => do
    return rsi (.start (← c.period .period) (← c.level .overbought) (← c.level .oversold))
  | .bollingerBands => do
    orZeroPeriod bollinger (Bollinger.start? (← c.period .period) (← c.positive .multiplier))
  | .macd => do
    orZeroPeriod macd
      (Macd.start? (← c.period .fast) (← c.period .slow) (← c.period .signalPeriod))
  | .emaCrossover => do
    orZeroPeriod emaCrossover (EmaCrossover.start? (← c.period .fast) (← c.period .slow))
  | .stochastic => do
    orZeroPeriod stochastic
      (Stochastic.start? (← c.period .period) (← c.level .overbought) (← c.level .oversold))
  | .atrMeanReversion => do
    orZeroPeriod atrReversion
      (AtrReversion.start? (← c.period .atrPeriod) (← c.period .smaPeriod)
        (← c.positive .multiplier))
  | .vwap => do return vwap (.start (← c.period .period))
  | .obv => do orZeroPeriod obv (Obv.start? (← c.period .smaPeriod))
  | .williamsR => do
    orZeroPeriod williamsR
      (WilliamsR.start? (← c.period .period) (← c.level .overbought) (← c.level .oversold))
  | .adx => do return adx (.start (← c.period .period) (← c.level .adxThreshold))
  | .gabagool => .error (.notDirectional "Gabagool")

/-- A generator from its periods and levels in the order of the formula, with no check but that of
empty windows. A period that is not given is zero, and so is a level. -/
def ofArguments (kind : IndicatorKind) (periods : List Nat) (levels : List Float) :
    Except FormulaError (Generator Float) :=
  let p := fun i : Nat => periods.getD i 0
  let l := fun i : Nat => levels.getD i 0
  match kind with
  | .rsi => .ok (rsi (.start (p 0) (l 0) (l 1)))
  | .bollingerBands => orZeroPeriod bollinger (Bollinger.start? (p 0) (l 0))
  | .macd => orZeroPeriod macd (Macd.start? (p 0) (p 1) (p 2))
  | .emaCrossover => orZeroPeriod emaCrossover (EmaCrossover.start? (p 0) (p 1))
  | .stochastic => orZeroPeriod stochastic (Stochastic.start? (p 0) (l 0) (l 1))
  | .atrMeanReversion => orZeroPeriod atrReversion (AtrReversion.start? (p 0) (p 1) (l 0))
  | .vwap => .ok (vwap (.start (p 0)))
  | .obv => orZeroPeriod obv (Obv.start? (p 0))
  | .williamsR => orZeroPeriod williamsR (WilliamsR.start? (p 0) (l 0) (l 1))
  | .adx => .ok (adx (.start (p 0) (l 0)))
  | .gabagool => .error (.notDirectional "Gabagool")

end Generator

/-- The generators of a variant's components, or the error of the first that cannot be built. -/
def Variant.generators (v : Variant) (params : CanonicalParams) :
    Except FormulaError (List (Generator Float)) :=
  (v.components.zip params.components).mapM fun x => Generator.ofComponent x.1.indicator x.2

/-- A combo, or the reason why its parts do not suit its mode. -/
def Combo.ofParts (name : String) (parts : List (Generator Float)) (mode : CompositionMode) :
    Except FormulaError (Combo Float) :=
  match Combo.start name parts mode with
  | .ok c => .ok c
  | .error e => .error (.composition e)

/-- The generator of a variant: that of its one component, or the combo of all. -/
def VariantGenerator.ofVariant (v : Variant) (params : CanonicalParams) :
    Except FormulaError (VariantGenerator Float) := do
  let parts ← v.generators params
  match v.mode with
  | some mode => return .composite (← Combo.ofParts v.name parts mode)
  | none =>
    match parts.getLast? with
    | some g => return .atomic g
    | none => .error (.notDirectional "empty variant")

end BotSpec
