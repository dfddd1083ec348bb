import BotSpec.Power
import BotSpec.Rounding

/-!
# Decimal numbers of up to 28 places

A `Decimal` is a sign and a magnitude over a power of ten: at most 96 bits of magnitude and at most
28 places. The places are part of the number (`12.50` and `12.5` are different decimals of the same
size), and so is the sign of a zero. Equality compares the written form, while `==`, `<` and `≤`
compare the size.

* `Decimal.make?` builds a decimal when both limits hold.
* `roundTo`, `truncateTo` and `normalize` shorten a decimal; none of them can leave the limits.
-/

namespace BotSpec

/-- The number `± magnitude / 10 ^ scale`, written with `scale` places. -/
structure Decimal where
  negative : Bool
  magnitude : Nat
  scale : Nat
  magnitude_lt : magnitude < twoPow 96
  scale_le : scale ≤ 28
  deriving DecidableEq

namespace Decimal

/-- The magnitude with its sign. -/
def coefficient (a : Decimal) : Int := if a.negative then -(a.magnitude : Int) else a.magnitude

/-- `± magnitude / 10 ^ scale`, if it is within the limits. A zero gets no minus sign. -/
def make? (negative : Bool) (magnitude scale : Nat) : Option Decimal :=
  if h : magnitude < twoPow 96 ∧ scale ≤ 28 then
    some ⟨negative && magnitude != 0, magnitude, scale, h.1, h.2⟩
  else none

/-- A whole number as a decimal without places. -/
def ofInt? (n : Int) : Option Decimal := make? (n < 0) n.natAbs 0

/-- Whether a magnitude and a number of places are within the limits. -/
def fits (magnitude scale : Nat) : Bool := Nat.blt magnitude (twoPow 96) && Nat.ble scale 28

/-- The literal with the given digits, of which `scale` are places. -/
def ofDigits (digits scale : Nat) (h : fits digits scale = true := by rfl) : Decimal :=
  have h : Nat.blt digits (twoPow 96) = true ∧ Nat.ble scale 28 = true := Bool.and_eq_true_iff.1 h
  ⟨false, digits, scale, Nat.le_of_ble_eq_true h.1, Nat.le_of_ble_eq_true h.2⟩

def zero : Decimal := ofDigits 0 0

def one : Decimal := ofDigits 1 0

def two : Decimal := ofDigits 2 0

def hundred : Decimal := ofDigits 100 0

/-- The largest decimal, `2 ^ 96 - 1`. -/
def greatest : Decimal := ofDigits (twoPow 96 - 1) 0

/-- A 32-bit count as a decimal without places. -/
def ofCount (n : UInt32) : Decimal :=
  ⟨false, n.toNat, 0, Nat.lt_trans n.toNat_lt (by decide), by decide⟩

instance : Inhabited Decimal := ⟨zero⟩

/-! ## Order by size -/

/-- Sizes are compared exactly, over the common denominator. -/
instance : BEq Decimal where
  beq a b := a.coefficient * tenPow b.scale == b.coefficient * tenPow a.scale

instance : LT Decimal where
  lt a b := a.coefficient * tenPow b.scale < b.coefficient * tenPow a.scale

instance : LE Decimal where
  le a b := a.coefficient * tenPow b.scale ≤ b.coefficient * tenPow a.scale

instance (a b : Decimal) : Decidable (a < b) :=
  inferInstanceAs (Decidable (a.coefficient * tenPow b.scale < b.coefficient * tenPow a.scale))

instance (a b : Decimal) : Decidable (a ≤ b) :=
  inferInstanceAs (Decidable (a.coefficient * tenPow b.scale ≤ b.coefficient * tenPow a.scale))

/-- `x` moved to the nearer end of `[lo, hi]` when it lies outside. -/
def clamp (x lo hi : Decimal) : Decimal :=
  if x < lo then lo else if hi < x then hi else x

/-! ## Sign -/

/-- The opposite number; a zero stays as it is. -/
def neg (a : Decimal) : Decimal := if a.magnitude = 0 then a else { a with negative := !a.negative }

/-- The size without the sign. -/
def abs (a : Decimal) : Decimal := { a with negative := false }

/-! ## Fewer places -/

/-- Rounded half to even to `places` places; a number with no more places stays as it is. -/
def roundTo (places : Nat) (a : Decimal) : Decimal :=
  if h : a.scale ≤ places then a
  else
    ⟨a.negative, roundRatio .toEven a.magnitude (tenPow (a.scale - places)), places,
      Nat.lt_of_le_of_lt (roundRatio_le _ _ (tenPow_pos _)) a.magnitude_lt,
      by have := a.scale_le; omega⟩

/-- Cut toward zero to `places` places; a number with no more places stays as it is. -/
def truncateTo (places : Nat) (a : Decimal) : Decimal :=
  if h : a.scale ≤ places then a
  else
    ⟨a.negative, a.magnitude / tenPow (a.scale - places), places,
      Nat.lt_of_le_of_lt (Nat.div_le_self _ _) a.magnitude_lt, by have := a.scale_le; omega⟩

/-- A magnitude and a number of places with the final zeros among the places dropped. -/
def dropZeros : Nat → Nat → Nat × Nat
  | 0, m => (m, 0)
  | s + 1, m => if m % 10 = 0 then dropZeros s (m / 10) else (m, s + 1)

theorem dropZeros_bounds (s m : Nat) : (dropZeros s m).1 ≤ m ∧ (dropZeros s m).2 ≤ s := by
  induction s generalizing m with
  | zero => exact ⟨Nat.le_refl _, Nat.le_refl _⟩
  | succ s ih =>
    unfold dropZeros
    split
    · have := ih (m / 10)
      omega
    · exact ⟨Nat.le_refl _, Nat.le_refl _⟩

/-- The same number with the fewest places, a zero without its sign. -/
def normalize (a : Decimal) : Decimal :=
  ⟨a.negative && a.magnitude != 0, (dropZeros a.scale a.magnitude).1, (dropZeros a.scale a.magnitude).2,
    Nat.lt_of_le_of_lt (dropZeros_bounds _ _).1 a.magnitude_lt,
    Nat.le_trans (dropZeros_bounds _ _).2 a.scale_le⟩

end Decimal

end BotSpec
