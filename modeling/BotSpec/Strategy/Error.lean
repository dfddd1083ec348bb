import BotSpec.Strategy.Composition
import BotSpec.Binary64.Text

/-!
# Errors of the numeric evaluation

Why a generator cannot be built from its parameters, or a variant cannot be evaluated. None of these
stops a specification from being written: there a missing parameter is a diagnostic.
-/

namespace BotSpec

/-- What is wrong with the value of a parameter. -/
inductive ParamFault where
  | periodTooSmall
  | periodFractional
  | periodTooLarge
  | notPositive
  | notDecimal
  deriving DecidableEq

def ParamFault.message : ParamFault → String
  | .periodTooSmall => "period must be at least 1"
  | .periodFractional => "period must be a whole number"
  | .periodTooLarge => "period is unreasonably large"
  | .notPositive => "must be positive"
  | .notDecimal => "not representable as a decimal"

inductive FormulaError where
  | missingParameter (name : String)
  | invalidParameter (name : String) (value : Float) (fault : ParamFault)
  | notDirectional (name : String)
  /-- A window or an average over no bars at all. -/
  | zeroPeriod
  | noCandles
  | composition (error : CompositionError)

def FormulaError.message : FormulaError → String
  | .missingParameter name => s!"missing parameter `{name}`"
  | .invalidParameter name value fault =>
    s!"invalid value {Binary64.plainText value} for parameter `{name}`: {fault.message}"
  | .notDirectional name => s!"{name} is not a directional indicator"
  | .zeroPeriod => "indicator library rejected parameters: InvalidParameter"
  | .noCandles => "indicator library rejected parameters: no candles"
  | .composition e => e.message

end BotSpec
