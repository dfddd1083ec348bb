import BotSpec.Catalogue.Schema
import BotSpec.Text.Fold

/-!
# Strategy variants

The closed list of strategy types: eleven with one indicator and eleven composites. A record names
its type in any spelling; `resolve` compares the folded spelling with the stored tag and with the
display name of each variant.
-/

namespace BotSpec

/-- How the votes of the components become one action. -/
inductive CompositionMode where
  /-- Every component must agree. -/
  | unanimous
  /-- The first component proposes, the others can only veto. -/
  | primaryConfirmer
  /-- Two of three. -/
  | majority
  deriving DecidableEq

namespace CompositionMode

def all : List CompositionMode := [unanimous, primaryConfirmer, majority]

/-- The key of a mode in JSON. -/
def key : CompositionMode → String
  | unanimous => "unanimous"
  | primaryConfirmer => "primary_confirmer"
  | majority => "majority"

def displayName : CompositionMode → String
  | unanimous => "Unanimous"
  | primaryConfirmer => "Primary + confirmer"
  | majority => "Majority (2 of 3)"

/-- The mode with a given key. -/
def ofKey? (text : String) : Option CompositionMode := all.find? fun m => m.key = text

end CompositionMode

/-- The type of a strategy. -/
inductive VariantTag where
  | rsi
  | bollingerBands
  | macd
  | emaCrossover
  | stochastic
  | atrMeanReversion
  | vwap
  | obv
  | williamsR
  | adx
  | gabagool
  | rsiBollinger
  | macdRsi
  | emaRsi
  | stochRsi
  | macdBollinger
  | tripleRsiMacdBb
  | tripleEmaRsiStoch
  | vwapRsi
  | obvMacd
  | adxEma
  | williamsRStoch
  deriving DecidableEq

/-- An indicator inside a variant, with the parameters it reads. -/
structure Component where
  indicator : IndicatorKind
  params : List ParamSpec
  deriving DecidableEq

/-- What a variant is made of. -/
inductive Makeup where
  | atomic (component : Component)
  | composite (components : List Component) (mode : CompositionMode)
  deriving DecidableEq

/-- A strategy type with its name and its components. -/
structure Variant where
  tag : VariantTag
  name : String
  makeup : Makeup
  deriving DecidableEq

namespace VariantTag

/-- All tags, those with one indicator first. -/
def all : List VariantTag :=
  [rsi, bollingerBands, macd, emaCrossover, stochastic, atrMeanReversion, vwap, obv, williamsR, adx,
    gabagool, rsiBollinger, macdRsi, emaRsi, stochRsi, macdBollinger, tripleRsiMacdBb,
    tripleEmaRsiStoch, vwapRsi, obvMacd, adxEma, williamsRStoch]

/-- The spelling that the knowledge base stores. -/
def key : VariantTag → String
  | rsi => "rsi"
  | bollingerBands => "bollinger_bands"
  | macd => "macd"
  | emaCrossover => "ema_crossover"
  | stochastic => "stochastic"
  | atrMeanReversion => "atr_mean_reversion"
  | vwap => "vwap"
  | obv => "obv"
  | williamsR => "williams_r"
  | adx => "adx"
  | gabagool => "gabagool"
  | rsiBollinger => "rsi_bollinger"
  | macdRsi => "macd_rsi"
  | emaRsi => "ema_rsi"
  | stochRsi => "stoch_rsi"
  | macdBollinger => "macd_bollinger"
  | tripleRsiMacdBb => "triple_rsi_macd_bb"
  | tripleEmaRsiStoch => "triple_ema_rsi_stoch"
  | vwapRsi => "vwap_rsi"
  | obvMacd => "obv_macd"
  | adxEma => "adx_ema"
  | williamsRStoch => "williams_r_stoch"

def displayName : VariantTag → String
  | rsi => "RSI"
  | bollingerBands => "Bollinger Bands"
  | macd => "MACD"
  | emaCrossover => "EMA Crossover"
  | stochastic => "Stochastic"
  | atrMeanReversion => "ATR Mean Reversion"
  | vwap => "VWAP"
  | obv => "OBV"
  | williamsR => "Williams %R"
  | adx => "ADX"
  | gabagool => "Gabagool"
  | rsiBollinger => "RSI+Bollinger"
  | macdRsi => "MACD+RSI"
  | emaRsi => "EMA+RSI"
  | stochRsi => "Stoch+RSI"
  | macdBollinger => "MACD+Bollinger"
  | tripleRsiMacdBb => "Triple:RSI+MACD+BB"
  | tripleEmaRsiStoch => "Triple:EMA+RSI+Stoch"
  | vwapRsi => "VWAP+RSI"
  | obvMacd => "OBV+MACD"
  | adxEma => "ADX+EMA"
  | williamsRStoch => "Williams%R+Stoch"

/-- One indicator with its own schema. -/
def single (kind : IndicatorKind) : Makeup := .atomic ⟨kind, Schema.alone kind⟩

/-- Several indicators, the primary first, each with its schema for composites. -/
def several (kinds : List IndicatorKind) (mode : CompositionMode) : Makeup :=
  .composite (kinds.map fun k => ⟨k, Schema.combined k⟩) mode

def makeup : VariantTag → Makeup
  | rsi => single .rsi
  | bollingerBands => single .bollingerBands
  | macd => single .macd
  | emaCrossover => single .emaCrossover
  | stochastic => single .stochastic
  | atrMeanReversion => single .atrMeanReversion
  | vwap => single .vwap
  | obv => single .obv
  | williamsR => single .williamsR
  | adx => single .adx
  | gabagool => single .gabagool
  | rsiBollinger => several [.rsi, .bollingerBands] .unanimous
  | macdRsi => several [.macd, .rsi] .primaryConfirmer
  | emaRsi => several [.emaCrossover, .rsi] .primaryConfirmer
  | stochRsi => several [.stochastic, .rsi] .unanimous
  | macdBollinger => several [.macd, .bollingerBands] .primaryConfirmer
  | tripleRsiMacdBb => several [.rsi, .macd, .bollingerBands] .majority
  | tripleEmaRsiStoch => several [.emaCrossover, .rsi, .stochastic] .majority
  | vwapRsi => several [.vwap, .rsi] .primaryConfirmer
  | obvMacd => several [.macd, .obv] .primaryConfirmer
  | adxEma => several [.emaCrossover, .adx] .primaryConfirmer
  | williamsRStoch => several [.williamsR, .stochastic] .unanimous

def variant (tag : VariantTag) : Variant := ⟨tag, tag.displayName, tag.makeup⟩

/-- Whether a folded spelling is that of the tag or of the display name. -/
def spelledBy (tag : VariantTag) (folded : List Char) : Bool :=
  Text.fold tag.key = folded || Text.fold tag.displayName = folded

/-- The tag that a text spells; a text without letters and digits spells none. -/
def parse? (text : String) : Option VariantTag :=
  let folded := Text.fold text
  if folded = [] then none else all.find? fun tag => tag.spelledBy folded

end VariantTag

/-- A type that no variant has, as it was written. -/
structure UnknownType where
  tag : String
  deriving DecidableEq

def UnknownType.message (u : UnknownType) : String := "unknown strategy type: " ++ u.tag

namespace Variant

/-- Every variant, those with one indicator first. -/
def all : List Variant := VariantTag.all.map VariantTag.variant

/-- The variant that a type names. -/
def resolve (type : String) : Except UnknownType Variant :=
  match VariantTag.parse? type with
  | some tag => .ok tag.variant
  | none => .error ⟨type⟩

/-- The components in the order of evaluation, the primary first. -/
def components (v : Variant) : List Component :=
  match v.makeup with
  | .atomic c => [c]
  | .composite cs _ => cs

/-- The composition mode of a composite. -/
def mode (v : Variant) : Option CompositionMode :=
  match v.makeup with
  | .atomic _ => none
  | .composite _ m => some m

def isArbitrage (v : Variant) : Bool := v.components.any fun c => c.indicator.isArbitrage

/-- All parameters, component by component. -/
def schema (v : Variant) : List ParamSpec := v.components.flatMap fun c => c.params

end Variant

end BotSpec
