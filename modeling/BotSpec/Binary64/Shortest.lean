import BotSpec.Power
import BotSpec.Rounding
import BotSpec.Binary64.Nearest

/-!
# The fewest digits that read back

A finite double stands for the interval of reals that round to it. Its shortest decimal has the
fewest digits among the decimals in that interval, and of those it is the one nearest to the double.
Two of them can be as near (`2 ^ 47 + 1 / 8` lies between `….12` and `….13`); then a `Tie` chooses.

* `Double` is a positive double as a significand and a power of two.
* `shortest` gives the digits and the power of ten.
-/

namespace BotSpec.Binary64

/-- The positive double `significand * 2 ^ exponent`. -/
structure Double where
  significand : Nat
  exponent : Int

/-- The significand and exponent that the bits of a positive finite double hold. -/
def Double.ofBits (bits : Nat) : Double :=
  let field : Nat := bits / twoPow 52 % 2048
  let fraction : Nat := bits % twoPow 52
  if field = 0 then ⟨fraction, -1074⟩ else ⟨twoPow 52 + fraction, (field : Int) - 1075⟩

/-- The double as a whole number, if it is one. -/
def Double.whole? (x : Double) : Option Nat :=
  if 0 ≤ x.exponent then some (x.significand * twoPow x.exponent.toNat)
  else
    let unit := twoPow (-x.exponent).toNat
    if x.significand % unit = 0 then some (x.significand / unit) else none

/-- A whole number `a * 2 ^ e * 10 ^ k` written as a ratio. -/
def ratio (a : Nat) (e k : Int) : Nat × Nat :=
  (a * twoPow e.toNat * tenPow k.toNat, twoPow (-e).toNat * tenPow (-k).toNat)

/-- Whether `c * 10 ^ p` rounds to the double: it lies between the midpoints to the two neighbours,
the midpoints included for an even significand. Everything is over quarter units of the last place. -/
def Double.covers (x : Double) (c : Nat) (p : Int) : Bool :=
  -- c * 10 ^ p = (num / den) * 2 ^ (exponent - 2)
  let (num, den) := ratio c (2 - x.exponent) p
  let low := 4 * x.significand - (if x.significand = twoPow 52 ∧ x.exponent > -1074 then 1 else 2)
  let high := 4 * x.significand + 2
  if x.significand % 2 = 0 then low * den ≤ num ∧ num ≤ high * den
  else low * den < num ∧ num < high * den

/-- The decimal `c * 10 ^ p` that reads back as the double, `c` being the multiple of `10 ^ p` just
below the double or just above it; of two such multiples the nearer, and the one that the tie says
when both are as near. -/
def Double.onGrid (tie : Tie) (x : Double) (p : Int) : Option Nat :=
  let (num, den) := ratio x.significand x.exponent (-p)
  let below := num / den
  match 0 < below && x.covers below p, x.covers (below + 1) p with
  | false, false => none
  | true, false => some below
  | false, true => some (below + 1)
  | true, true => some (roundRatio tie num den)

/-- The first grid, from coarse to fine, that holds a decimal of the double. -/
def Double.firstGrid (tie : Tie) (x : Double) (p : Int) : Nat → Nat × Int
  | 0 => (0, p)
  | more + 1 =>
    match x.onGrid tie p with
    | some c => (c, p)
    | none => x.firstGrid tie (p - 1) more

/-- The largest power of ten that is worth trying for a double: one above its own size. -/
def Double.coarsest (x : Double) : Int :=
  (((x.significand.log2 : Int) + x.exponent) * 30103) / 100000 + 1

/-- Removes final zeros from digits, counting them into the power of ten. -/
def trimZeros (c : Nat) (p : Int) : Nat × Int :=
  if h : c ≠ 0 ∧ c % 10 = 0 then trimZeros (c / 10) (p + 1) else (c, p)
termination_by c
decreasing_by omega

/-- The fewest digits `c` and the power `p` with `c * 10 ^ p` reading back as the double. -/
def Double.shortest (tie : Tie) (x : Double) : Nat × Int :=
  let (c, p) := x.firstGrid tie x.coarsest 20
  trimZeros c p

end BotSpec.Binary64
