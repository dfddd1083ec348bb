import BotSpec.Binary64.Nearest

/-!
# Numbers of 64 significant bits

Wider than doubles, and used on the way to one: a number is multiplied by powers of ten in several
steps, each of which rounds to 64 significant bits, and only the last result is rounded to a double.
The steps are rounded half to even, but not together: what comes out is near the exact product, and
not always the double nearest to it.

* `Extended.timesTenPow` multiplies by hundreds, then tens, then single powers of ten.
* `Extended.bits` is the double that remains.

This is how SQLite casts a text to a number: in long doubles, which have 64 significant bits. One
thing is different here. Exponents have no limits; those of doubles come in at the end, where a
number beyond the largest double is infinite.
-/

namespace BotSpec.Binary64

/-- The number `significand * 2 ^ exponent`. -/
structure Extended where
  significand : Nat
  exponent : Int
  deriving DecidableEq

namespace Extended

/-- The number nearest to a ratio times a power of two, with 64 significant bits. -/
def nearest (n d : Nat) (exponent : Int) : Extended :=
  let e := floorLog2 n d - 63
  ⟨roundShifted n d e, e + exponent⟩

/-- A whole number of at most 64 bits. -/
def ofNat (n : Nat) : Extended := ⟨n, 0⟩

/-- The rounded product. -/
def mul (x y : Extended) : Extended := nearest (x.significand * y.significand) 1 (x.exponent + y.exponent)

/-- A number multiplied by another one so many times, rounded each time. -/
def mulTimes (y : Extended) : Nat → Extended → Extended
  | 0, x => x
  | k + 1, x => mulTimes y k (x.mul y)

/-- The number nearest to a power of ten, or to one over it. -/
def tenPower (inverse : Bool) (k : Nat) : Extended :=
  if inverse then nearest 1 (tenPow k) 0 else nearest (tenPow k) 1 0

/-- A number times a power of ten: first by the hundreds of its exponent, then by the tens, then by
the rest. -/
def timesTenPow (x : Extended) (exponent : Int) : Extended :=
  let factor := tenPower (exponent < 0)
  let k := exponent.natAbs
  mulTimes (factor 1) (k % 10) (mulTimes (factor 10) (k / 10 % 10) (mulTimes (factor 100) (k / 100) x))

/-- The largest double. -/
def greatestDouble : Nat := (twoPow 53 - 1) * twoPow 971

/-- The bits of the double nearest to a number. A number beyond the largest double is infinite. -/
def bits (x : Extended) : Nat :=
  let n := x.significand * twoPow x.exponent.toNat
  let d := twoPow (-x.exponent).toNat
  if greatestDouble * d < n then infinityBits else nearestBits n d

end Extended

end BotSpec.Binary64
