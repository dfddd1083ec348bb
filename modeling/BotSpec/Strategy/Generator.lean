import BotSpec.Catalogue.Indicator
import BotSpec.Indicator.Band
import BotSpec.Indicator.Oscillator
import BotSpec.Indicator.Volume
import BotSpec.Strategy.Composition

/-!
# Signal generators

A `Generator` is one of the ten directional indicators in the middle of a run: `step` takes a bar
and gives the vote on it, `reading` is the latest value of the indicator, `reset` starts over. A
`Combo` runs several generators on the same bars and composes their votes.
-/

namespace BotSpec

open Indicator

variable {α : Type} [Arith α]

inductive Generator (α : Type) where
  | rsi (state : Rsi α)
  | bollinger (state : Bollinger α)
  | macd (state : Macd α)
  | emaCrossover (state : EmaCrossover α)
  | stochastic (state : Stochastic α)
  | atrReversion (state : AtrReversion α)
  | vwap (state : Vwap α)
  | obv (state : Obv α)
  | williamsR (state : WilliamsR α)
  | adx (state : Adx α)

namespace Generator

def name : Generator α → String
  | rsi _ => "RSI"
  | bollinger _ => "BollingerBands"
  | macd _ => "MACD"
  | emaCrossover _ => "EMACrossover"
  | stochastic _ => "Stochastic"
  | atrReversion _ => "ATRMeanReversion"
  | vwap _ => "VWAP"
  | obv _ => "OBV"
  | williamsR _ => "WilliamsR"
  | adx _ => "ADX"

/-- A step's vote, with its state made a generator again. -/
def wrap {β : Type} (make : β → Generator α) (r : Signal × β) : Signal × Generator α :=
  (r.1, make r.2)

/-- The vote on a bar. -/
def step (g : Generator α) (bar : Bar α) : Signal × Generator α :=
  match g with
  | rsi s => wrap rsi (s.step bar)
  | bollinger s => wrap bollinger (s.step bar)
  | macd s => wrap macd (s.step bar)
  | emaCrossover s => wrap emaCrossover (s.step bar)
  | stochastic s => wrap stochastic (s.step bar)
  | atrReversion s => wrap atrReversion (s.step bar)
  | vwap s => wrap vwap (s.step bar)
  | obv s => wrap obv (s.step bar)
  | williamsR s => wrap williamsR (s.step bar)
  | adx s => wrap adx (s.step bar)

/-- The latest value, if the indicator has one. -/
def reading : Generator α → Option α
  | rsi s => s.reading
  | bollinger s => s.middle
  | macd s => s.reading
  | emaCrossover s => s.reading
  | stochastic s => s.k
  | atrReversion s => s.reading
  | vwap s => s.reading
  | obv s => s.reading
  | williamsR s => s.reading
  | adx s => s.reading

/-- The generator before its first bar, with the same settings. -/
def reset : Generator α → Generator α
  | rsi s => rsi s.reset
  | bollinger s => bollinger s.reset
  | macd s => macd s.reset
  | emaCrossover s => emaCrossover s.reset
  | stochastic s => stochastic s.reset
  | atrReversion s => atrReversion s.reset
  | vwap s => vwap s.reset
  | obv s => obv s.reset
  | williamsR s => williamsR s.reset
  | adx s => adx s.reset

end Generator

/-- Several generators on the same bars, the primary first. -/
structure Combo (α : Type) where
  name : String
  parts : List (Generator α)
  mode : CompositionMode
  /-- The composition of the latest bar. -/
  last : Option Composition

namespace Combo

/-- Refuses a number of parts that the mode cannot compose. -/
def start (name : String) (parts : List (Generator α)) (mode : CompositionMode) :
    Except CompositionError (Combo α) :=
  match Composition.compose mode (parts.map fun _ => .hold) with
  | .ok _ => .ok ⟨name, parts, mode, none⟩
  | .error e => .error e

/-- The composed vote on a bar. Every part sees every bar. -/
def step (c : Combo α) (bar : Bar α) : Signal × Combo α :=
  let results := c.parts.map fun g => g.step bar
  let parts := results.map fun r => r.2
  match Composition.compose c.mode (results.map fun r => r.1) with
  | .ok composition => (composition.action, { c with parts, last := some composition })
  | .error _ => (.hold, { c with parts })

/-- The reading of the primary. -/
def reading (c : Combo α) : Option α := c.parts.head?.bind Generator.reading

def reset (c : Combo α) : Combo α := { c with parts := c.parts.map Generator.reset, last := none }

end Combo

/-- A whole variant as one generator. -/
inductive VariantGenerator (α : Type) where
  | atomic (generator : Generator α)
  | composite (combo : Combo α)

namespace VariantGenerator

def name : VariantGenerator α → String
  | atomic g => g.name
  | composite c => c.name

def step (v : VariantGenerator α) (bar : Bar α) : Signal × VariantGenerator α :=
  match v with
  | atomic g =>
    let (vote, g) := g.step bar
    (vote, atomic g)
  | composite c =>
    let (vote, c) := c.step bar
    (vote, composite c)

def reading : VariantGenerator α → Option α
  | atomic g => g.reading
  | composite c => c.reading

/-- The composition of the latest bar, for a composite. -/
def last : VariantGenerator α → Option Composition
  | atomic _ => none
  | composite c => c.last

def reset : VariantGenerator α → VariantGenerator α
  | atomic g => atomic g.reset
  | composite c => composite c.reset

end VariantGenerator

end BotSpec
