import BotSpec.Decimal.Arithmetic
import BotSpec.Decimal.Text
import BotSpec.Text.Fold

/-!
# Position sizes

How large a position is: a fixed share of the capital, the Kelly share, or a share scaled by
confidence. The arbitrage splits its budget between both sides of a pair.
-/

namespace BotSpec

inductive SizingMode where
  | fixed
  | kelly
  | confidenceWeighted
  deriving DecidableEq

namespace SizingMode

/-- The key of a mode in JSON and in the knowledge base. -/
def key : SizingMode → String
  | fixed => "fixed"
  | kelly => "kelly"
  | confidenceWeighted => "confidence_weighted"

/-- The mode that a text spells in any case and punctuation; any other text means `fixed`. -/
def parse (text : String) : SizingMode :=
  let folded := Text.fold text
  if folded = "kelly".toList then kelly
  else if folded = "confidence".toList ∨ folded = "confidenceweighted".toList then confidenceWeighted
  else fixed

end SizingMode

/-- So many closed trades are needed before the Kelly share is used. -/
def kellyWarmupTrades : Nat := 10

/-- The largest Kelly share, in percent. -/
def kellyCap : Decimal := .ofDigits 25 0

/-- What a mode means for a bot. -/
structure PositionSizing where
  mode : SizingMode
  basePercent : Decimal
  summary : String
  rules : List String
  deriving DecidableEq

namespace PositionSizing

def ofMode (mode : SizingMode) (basePercent : Decimal) : PositionSizing :=
  let base := basePercent.toText
  let cap := kellyCap.toText
  match mode with
  | .fixed =>
    ⟨mode, basePercent, s!"Fixed {base}% of current capital per trade",
      [s!"Position size = capital x {base}% on every entry."]⟩
  | .kelly =>
    ⟨mode, basePercent, s!"Kelly criterion, capped at {cap}%",
      [s!"Until {kellyWarmupTrades} trades have closed, size at the base {base}% of capital.",
        "Then p = recent win rate, b = average win / average loss, q = 1 - p.",
        s!"Position % = clamp((p x b - q) / b x 100, 0, {cap}); if b <= 0 use 0."]⟩
  | .confidenceWeighted =>
    ⟨mode, basePercent, s!"{base}% of capital scaled by signal confidence",
      [s!"Position size = capital x {base}% x confidence.",
        "Confidence is the vote's strength in [0.3, 1.0], computed per indicator as listed under Signal logic; HOLD has confidence 0."]⟩

end PositionSizing

/-- The Kelly share in percent for so many wins among all trades. Without enough trades, or without
a loss, it is the base share. -/
def kellyPercent (wins total : UInt32) (averageWin averageLoss basePercent : Decimal) :
    Except Decimal.Fault Decimal :=
  if total.toNat < kellyWarmupTrades ∨ averageLoss ≤ Decimal.zero then .ok basePercent
  else do
    let p ← (Decimal.ofCount wins).div (.ofCount total)
    let q ← Decimal.one.sub p
    let b ← averageWin.div averageLoss
    if b ≤ Decimal.zero then .ok Decimal.zero
    else do
      let share ← (← (← (← p.mul b).sub q).div b).mul .hundred
      return share.clamp Decimal.zero kellyCap

/-- The size of one side of a pair: half of the position, to two places. -/
def pairSideSize (capital basePercent : Decimal) : Except Decimal.Fault Decimal := do
  let position ← (← capital.mul basePercent).div .hundred
  return (← position.div .two).roundTo 2

end BotSpec
