/-!
# Numbers that indicators compute with

The indicator formulas use a handful of operations and no law about them. `Arith` lists the
operations; doubles are the numbers that the program runs with, and any other instance gives the
same formulas over other numbers.
-/

namespace BotSpec

/-- The operations of the indicator formulas. -/
class Arith (α : Type) extends Add α, Sub α, Mul α, Div α, Neg α, LT α, LE α, BEq α where
  ofNat : Nat → α
  sqrt : α → α
  decidableLT : (a b : α) → Decidable (a < b)
  decidableLE : (a b : α) → Decidable (a ≤ b)

namespace Arith

variable {α : Type} [Arith α]

instance (a b : α) : Decidable (a < b) := Arith.decidableLT a b

instance (a b : α) : Decidable (a ≤ b) := Arith.decidableLE a b

/-- The larger of two numbers. -/
def max (a b : α) : α := if a < b then b else a

/-- The size of a number. -/
def abs (a : α) : α := if a < ofNat 0 then -a else a

end Arith

instance : Arith Float where
  ofNat := Float.ofNat
  sqrt := Float.sqrt
  decidableLT := inferInstance
  decidableLE := inferInstance

end BotSpec
