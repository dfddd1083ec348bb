import BotSpec.Power
import BotSpec.Binary64.Extended
import BotSpec.Binary64.Shortest
import BotSpec.Decimal.Basic
import BotSpec.Text.Number

/-!
# Numerals in a table

A table meets numbers as text: digits with an optional sign, point and exponent, blanks in front of
them.

* `Numeral.front?` reads the numeral that a text starts with, `Numeral.ofText?` a text that is
  nothing but a numeral.
* `Numeral.bits` is the double that a table reads a numeral as, and `Numeral.position` orders
  numerals by it.
* `Numeral.whole?` is the whole number of 64 bits that a numeral stands for. Written with neither
  point nor exponent it is exact; otherwise it is the double that it is read as, if that is whole.

A table reads a numeral in steps, those of SQLite's cast of a text. At most 64 bits of digits are
kept, and they are multiplied by a power of ten with `Extended` numbers. So the double is not always
the nearest one: `7.27298` and `7.2729800000000004` are read as one number. These doubles are only
compared, so they are kept as their bits.
-/

namespace BotSpec

/-- The number `± digits * 10 ^ exponent`. -/
structure Numeral where
  negative : Bool
  digits : Nat
  exponent : Int
  /-- Whether it is written with neither point nor exponent. -/
  plain : Bool
  deriving DecidableEq

namespace Numeral

/-- A blank of a table: the space and the five control characters from tab to carriage return. -/
def isBlank (c : Char) : Bool := c = ' ' || ('\t' ≤ c && c ≤ '\r')

/-- A number with a digit put behind it. -/
def addDigit (n d : Nat) : Nat := n * 10 + d

/-- An exponent of this size takes no more digits: with another one it falls back to this size. -/
def exponentLimit : Nat := 10000

/-- An exponent with a digit put behind it. -/
def addExponentDigit (n d : Nat) : Nat := if n < exponentLimit then addDigit n d else exponentLimit

/-- Digits at the front, each put behind a number that is `n` at first, how many they are, and the
rest. -/
def leadingDigits (add : Nat → Nat → Nat) (n count : Nat) : List Char → Nat × Nat × List Char
  | [] => (n, count, [])
  | c :: cs =>
    match Text.digit? c with
    | some d => leadingDigits add (add n d) (count + 1) cs
    | none => (n, count, c :: cs)

/-- The size of an exponent at the front, one or more digits, and the rest. -/
def exponentSize? (cs : List Char) : Option (Nat × List Char) :=
  let (n, count, rest) := leadingDigits addExponentDigit 0 0 cs
  if count = 0 then none else some (n, rest)

/-- A mark, an optional sign and digits at the front, and the rest. -/
def leadingExponent? : List Char → Option (Int × List Char)
  | [] => none
  | c :: cs =>
    if c = 'e' ∨ c = 'E' then
      match cs with
      | '-' :: ds => (exponentSize? ds).map fun e => (-(e.1 : Int), e.2)
      | '+' :: ds => (exponentSize? ds).map fun e => ((e.1 : Int), e.2)
      | ds => (exponentSize? ds).map fun e => ((e.1 : Int), e.2)
    else none

/-- The numeral at the front of a text behind its sign, and the rest. A mark without digits behind
it is part of the rest. -/
def unsigned? (negative : Bool) (cs : List Char) : Option (Numeral × List Char) :=
  let (whole, wholeCount, rest) := leadingDigits addDigit 0 0 cs
  let (digits, places, plain, tail) :=
    match rest with
    | '.' :: more =>
      let (digits, places, tail) := leadingDigits addDigit whole 0 more
      (digits, places, false, tail)
    | _ => (whole, 0, true, rest)
  if wholeCount + places = 0 then none
  else
    match leadingExponent? tail with
    | some (e, tail) => some (⟨negative, digits, e - places, false⟩, tail)
    | none => some (⟨negative, digits, -places, plain⟩, tail)

/-- The numeral at the front of a text, behind blanks, and the rest. -/
def front? (cs : List Char) : Option (Numeral × List Char) :=
  match cs.dropWhile isBlank with
  | '-' :: cs => unsigned? true cs
  | '+' :: cs => unsigned? false cs
  | cs => unsigned? false cs

/-- The numeral that a text is, blanks around it allowed. -/
def ofText? (text : String) : Option Numeral :=
  (front? text.toList).bind fun (n, rest) => if rest.all isBlank then some n else none

/-! ## The double of a numeral -/

/-- Once the digits make this number, those behind them do not count. -/
def digitLimit : Nat := (twoPow 64 - 10) / 10

/-- The digits that count, as a number, and how many are left out behind them. -/
def countedDigits (digits : Nat) : Nat × Nat :=
  if digits / 10 < digitLimit then (digits, 0)
  else
    let (counted, leftOut) := countedDigits (digits / 10)
    (counted, leftOut + 1)
termination_by digits
decreasing_by
  rename_i h
  exact Nat.div_lt_self (Nat.pos_of_ne_zero fun hzero => h (hzero ▸ by decide)) (by decide)

/-- As many of some zeros put behind a number as 64 bits have room for, and how many are left. -/
def appendZeros : Nat → Nat → Nat × Nat
  | 0, n => (n, 0)
  | k + 1, n => if n < (twoPow 64 - 1) / 10 then appendZeros k (n * 10) else (n, k + 1)

/-- The same number with its exponent nearer to zero, by zeros put behind the digits or taken from
there. -/
def balance (digits : Nat) (exponent : Int) : Nat × Int :=
  if 0 ≤ exponent then
    let (digits, left) := appendZeros exponent.toNat digits
    (digits, left)
  else
    let (digits, left) := Decimal.dropZeros exponent.natAbs digits
    (digits, -(left : Int))

/-- The bits of the double that the size of a numeral is read as. -/
def bits (n : Numeral) : Nat :=
  if n.digits = 0 then 0
  else
    let (counted, leftOut) := countedDigits n.digits
    let (digits, exponent) := balance counted (n.exponent + leftOut)
    if exponent = 0 then Binary64.nearestBits digits 1
    else ((Binary64.Extended.ofNat digits).timesTenPow exponent).bits

/-- The position of a numeral among the doubles: larger for larger numbers, zero for zero. -/
def position (n : Numeral) : Int := if n.negative then -(n.bits : Int) else n.bits

/-! ## Whole numbers -/

/-- A size with the sign of a numeral. -/
def withSign (n : Numeral) (size : Nat) : Int := if n.negative then -(size : Int) else size

/-- The whole number of 64 bits that a numeral stands for. Of those that are read as doubles the
smallest of 64 bits is none. -/
def whole? (n : Numeral) : Option Int :=
  if n.plain then (some (n.withSign n.digits)).filter Text.fitsWord
  else ((Binary64.Double.ofBits n.bits).whole?.filter fun size => size < twoPow 63).map n.withSign

end Numeral

end BotSpec
