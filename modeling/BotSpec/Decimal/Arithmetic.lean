import BotSpec.Power
import BotSpec.Rounding
import BotSpec.Decimal.Basic

/-!
# Arithmetic that keeps as many places as fit

Every operation is the exact result rounded once, half to even: to the most places at which the
rounded magnitude still fits 96 bits. A sum starts at the larger number of places of its operands, a
product at their total (at most 28), a quotient at 28. A result that does not fit even without
places is a `Fault`.

A quotient keeps these places also where it needs fewer of them. So two quotients are compared by
what they are worth, and not by how they are written.

* `nearest?` is the shared rounding search.
* `add`, `sub`, `mul` and `div` are the operations.
-/

namespace BotSpec.Decimal

/-- The operation whose result is too large, or a division by zero. -/
inductive Fault where
  | addition
  | subtraction
  | multiplication
  | division
  | zeroDivisor
  deriving DecidableEq

/-- What a failed operation says. -/
def Fault.message : Fault → String
  | .addition => "Addition overflowed"
  | .subtraction => "Subtraction overflowed"
  | .multiplication => "Multiplication overflowed"
  | .division => "Division overflowed"
  | .zeroDivisor => "Division by zero"

/-- The ratio `± n / d` with the most places, up to the given number, whose rounded magnitude fits. -/
def nearest? (negative : Bool) (n d : Nat) : Nat → Option Decimal
  | 0 => make? negative (roundRatio .toEven n d) 0
  | s + 1 =>
    (make? negative (roundRatio .toEven (n * tenPow (s + 1)) d) (s + 1)).or (nearest? negative n d s)

/-- The sum, to the larger number of places; a zero operand leaves the other one as it is. -/
def sum? (a b : Decimal) : Option Decimal :=
  if a.magnitude = 0 then some b
  else if b.magnitude = 0 then some a
  else
    let s := max a.scale b.scale
    let n := a.coefficient * tenPow (s - a.scale) + b.coefficient * tenPow (s - b.scale)
    nearest? (n < 0) n.natAbs (tenPow s) s

/-- The product, to the total number of places; a zero factor gives zero without places. -/
def product? (a b : Decimal) : Option Decimal :=
  if a.magnitude = 0 ∨ b.magnitude = 0 then some zero
  else
    nearest? (a.negative != b.negative) (a.magnitude * b.magnitude) (tenPow (a.scale + b.scale))
      (min (a.scale + b.scale) 28)

/-- The quotient by a number other than zero; zero divided is zero without places.

It has as many places as fit, a quotient that needs fewer as well: `100 / 4` is 25 with zeros behind
the point. Only the value of a quotient has a meaning, not its places, and whoever shows or compares
one does so by its value. -/
def quotient? (a b : Decimal) : Option Decimal :=
  if a.magnitude = 0 then some zero
  else
    nearest? (a.negative != b.negative) (a.magnitude * tenPow b.scale) (b.magnitude * tenPow a.scale) 28

/-- The value, or the fault of an operation without one. -/
def orFault (fault : Fault) : Option Decimal → Except Fault Decimal
  | some d => .ok d
  | none => .error fault

def add (a b : Decimal) : Except Fault Decimal := orFault .addition (sum? a b)

def sub (a b : Decimal) : Except Fault Decimal := orFault .subtraction (sum? a b.neg)

def mul (a b : Decimal) : Except Fault Decimal := orFault .multiplication (product? a b)

def div (a b : Decimal) : Except Fault Decimal :=
  if b.magnitude = 0 then .error .zeroDivisor else orFault .division (quotient? a b)

end BotSpec.Decimal
