import BotSpec.Power
import BotSpec.Binary64.Text
import BotSpec.Decimal.Text
import BotSpec.Json.Basic
import BotSpec.Text.Blank

/-!
# Lenient statistics

A statistic is a number or a text that holds one, blanks around it allowed. What cannot be read is
absent.
-/

namespace BotSpec

/-- The decimal in a text. -/
def Decimal.ofText? (text : String) : Option Decimal := read? (Text.trim text)

/-- The decimal that a value holds. A JSON number is read through its text. -/
def Decimal.ofJson? (j : Json) : Option Decimal :=
  match j with
  | .whole n => ofText? (Text.intText n)
  | .real x => ofText? (Binary64.exponentText x)
  | .string s => ofText? s
  | _ => none

/-- A whole number as a count, if it fits 32 bits. -/
def countOf? (n : Int) : Option UInt32 :=
  if 0 ≤ n ∧ n < twoPow 32 then some (UInt32.ofNat n.toNat) else none

/-- The count that a value holds. A fraction is cut off. -/
def countOfJson? (j : Json) : Option UInt32 :=
  match j with
  | .whole n => countOf? n
  | .real x => if 0 ≤ x then countOf? x.toUInt64.toNat else none
  | .string s => Text.readCount? (Text.trimChars s.toList)
  | _ => none

end BotSpec
