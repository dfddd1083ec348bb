import BotSpec.Power
import BotSpec.Rounding

/-!
# The nearest 64-bit floating-point number

`nearestFloat n d` is the double nearest to the ratio `n / d`, a tie going to the even significand;
a ratio beyond the largest double gives infinity. `scientificFloat` applies it to digits times a
power of ten.
-/

namespace BotSpec

namespace Binary64

/-- `n / (d * 2 ^ e)` rounded to the nearest whole number, a tie to the even one. -/
def roundShifted (n d : Nat) (e : Int) : Nat :=
  if 0 ≤ e then roundRatio .toEven n (d * twoPow e.toNat)
  else roundRatio .toEven (n * twoPow (-e).toNat) d

/-- The whole `k` with `2 ^ k ≤ n / d < 2 ^ (k + 1)`, for positive `n` and `d`. -/
def floorLog2 (n d : Nat) : Int :=
  let k : Int := (n.log2 : Int) - d.log2
  let below := if 0 ≤ k then n < d * twoPow k.toNat else n * twoPow (-k).toNat < d
  if below then k - 1 else k

/-- The bits of positive infinity; the bits of every positive double are below. -/
def infinityBits : Nat := 0x7FF0000000000000

/-- The bits of the double nearest to a positive ratio.

A significand of 53 bits at the exponent `e` (never below that of the subnormal numbers) is stored
as `(e + 1074) * 2 ^ 52` plus itself, which also holds of a subnormal number and of a carry into 54
bits. -/
def nearestBits (n d : Nat) : Nat :=
  let e := max (floorLog2 n d - 52) (-1074)
  min ((e + 1074).toNat * twoPow 52 + roundShifted n d e) infinityBits

/-- The bits of the double nearest to the size of `digits * 10 ^ exponent`. Beyond some hundred
places either way the answer no longer depends on the digits, so such exponents are answered at
once. -/
def scientificBits (digits : Nat) (exponent : Int) : Nat :=
  if digits = 0 then 0
  else
    let magnitude := (digits.log2 : Int) * 3 / 10 + exponent
    if magnitude > 400 then infinityBits
    else if magnitude < -800 then 0
    else if 0 ≤ exponent then nearestBits (digits * tenPow exponent.toNat) 1
    else nearestBits digits (tenPow (-exponent).toNat)

end Binary64

/-- The double nearest to `n / d` for a positive `d`. -/
def nearestFloat (n d : Nat) : Float :=
  if n = 0 then 0 else Float.ofBits (UInt64.ofNat (Binary64.nearestBits n d))

/-- The double nearest to `digits * 10 ^ exponent`. -/
def scientificFloat (digits : Nat) (exponent : Int) : Float :=
  Float.ofBits (UInt64.ofNat (Binary64.scientificBits digits exponent))

end BotSpec
