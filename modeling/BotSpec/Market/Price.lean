import BotSpec.Decimal.Basic

/-!
# Share prices

A share of a binary market pays one or nothing, so its price is a probability. Prices that are
estimated stay away from both ends.
-/

namespace BotSpec.SharePrice

/-- The price of a share whose outcome is open. -/
def even : Decimal := .ofDigits 50 2

/-- The lowest price that is estimated. -/
def lowest : Decimal := .ofDigits 5 2

/-- The highest price that is estimated. -/
def highest : Decimal := .ofDigits 95 2

/-- How much a move of one percent adds to the price of a share in that direction. -/
def perPercent : Decimal := .ofDigits 5 2

/-- A price moved between the lowest and the highest one. -/
def clamp (price : Decimal) : Decimal := price.clamp lowest highest

end BotSpec.SharePrice
