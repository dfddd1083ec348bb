import BotSpec.Decimal.Arithmetic
import BotSpec.Decimal.Text
import BotSpec.Market.Price

/-!
# Taker fees and settlement odds

A taker pays `shares × rate × (p × (1 - p)) ^ exponent` at the price `p`, rounded down to four
places. The odds of a settlement follow the move of the underlying price.
-/

namespace BotSpec

/-- The two settings of the fee. -/
structure FeeModel where
  rate : Decimal
  exponent : Nat
  deriving DecidableEq

namespace FeeModel

/-- A quarter, squared. -/
def standard : FeeModel := ⟨.ofDigits 25 2, 2⟩

/-- Places of a fee. -/
def places : Nat := 4

/-- The smallest fee that is charged. -/
def smallest : Decimal := .ofDigits 1 4

/-- `acc` multiplied by `base` as often as the exponent says. Once it is zero it stays zero. -/
def power (acc base : Decimal) : Nat → Except Decimal.Fault Decimal
  | 0 => .ok acc
  | n + 1 =>
    if acc.magnitude = 0 then .ok Decimal.zero
    else do power (← acc.mul base) base n

/-- The fee for a number of shares at a price; outside the open interval from zero to one there is
none. -/
def fee (m : FeeModel) (shares price : Decimal) : Except Decimal.Fault Decimal :=
  if shares ≤ Decimal.zero ∨ price ≤ Decimal.zero ∨ Decimal.one ≤ price then .ok Decimal.zero
  else do
    let base ← price.mul (← Decimal.one.sub price)
    let factor ← power Decimal.one base m.exponent
    let raw ← (← shares.mul m.rate).mul factor
    let rounded := raw.truncateTo places
    return if rounded < smallest then Decimal.zero else rounded

/-- The fee at one half, where the price factor is largest. -/
def greatestFee (m : FeeModel) (shares : Decimal) : Except Decimal.Fault Decimal :=
  m.fee shares (.ofDigits 5 1)

/-- A worked example at a price. -/
def exampleLine (m : FeeModel) (price : Decimal) : Except Decimal.Fault String := do
  let shares := Decimal.hundred
  let fee ← m.fee shares price
  return s!"Example: {shares.toText} shares at p = {price.toText} -> fee {fee.toText}"

/-- The fee in words, with examples. -/
def describe (m : FeeModel) : Except Decimal.Fault (List String) := do
  let examples ← [SharePrice.even, Decimal.ofDigits 70 2, Decimal.ofDigits 90 2].mapM m.exampleLine
  return [s!"Taker fee per order: fee = shares x {m.rate.toText} x (p x (1 - p))^{m.exponent}, p = execution price of the outcome share.",
    "Round the fee down to 4 decimals; fees below 0.0001 USDC are 0.",
    "No fee when p <= 0, p >= 1 or shares <= 0.",
    "Maker orders (resting bids) pay no taker fee."] ++ examples

end FeeModel

/-- The odds that a market on a rise settles with yes: one half, and five points for each percent
that the price has moved from the entry, between 5 and 95 percent. -/
def settlementOdds (entry current : Decimal) : Except Decimal.Fault Decimal :=
  if entry ≤ Decimal.zero then .ok SharePrice.even
  else do
    let percent ← (← (← current.sub entry).div entry).mul .hundred
    let odds ← (Decimal.ofDigits 5 1).add (← percent.mul SharePrice.perPercent)
    return (SharePrice.clamp odds).roundTo FeeModel.places

end BotSpec
