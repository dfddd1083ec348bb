/-!
# Powers of two and ten

Limits of a number of bits are powers of two, places of a decimal are powers of ten.
-/

namespace BotSpec

/-- The number of values that so many bits have. -/
def twoPow (n : Nat) : Nat := Nat.pow 2 n

/-- One with so many zeros behind it. -/
def tenPow (n : Nat) : Nat := Nat.pow 10 n

theorem twoPow_zero : twoPow 0 = 1 := rfl

theorem twoPow_succ (n : Nat) : twoPow (n + 1) = twoPow n * 2 := rfl

theorem tenPow_zero : tenPow 0 = 1 := rfl

theorem tenPow_succ (n : Nat) : tenPow (n + 1) = tenPow n * 10 := rfl

theorem twoPow_pos (n : Nat) : 0 < twoPow n := Nat.pow_pos (by decide)

theorem tenPow_pos (n : Nat) : 0 < tenPow n := Nat.pow_pos (by decide)

theorem tenPow_add (m n : Nat) : tenPow (m + n) = tenPow m * tenPow n := Nat.pow_add 10 m n

end BotSpec
