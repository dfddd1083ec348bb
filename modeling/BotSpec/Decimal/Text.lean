import BotSpec.Power
import BotSpec.Rounding
import BotSpec.Decimal.Basic
import BotSpec.Decimal.Arithmetic
import BotSpec.Text.Number

/-!
# Decimals in text

`toText` writes every place of a decimal. Reading has two notations: `readPlain?` (sign, digits, one
point, underscores after a digit) and `readScientific?` (a plain number, `e`, a whole exponent of at
most 28 in size); `read?` tries them in this order.

A plain number may carry more digits than a decimal holds: the digit after the last one that fits
rounds it half up, and of what follows only the form counts. Likewise a negative exponent may ask
for more than 28 places, and the places beyond are rounded away half up. That is the only way to a
negative zero: `-0` is read without its sign, `-0.4e-28` keeps it.
-/

namespace BotSpec.Decimal

open BotSpec.Text (digit? natDigits)

/-! ## Writing -/

/-- Digits with a point before the last `places` of them, and at least one digit in front. -/
def withPoint (places : Nat) (digits : List Char) : List Char :=
  let padded := List.replicate (places + 1 - digits.length) '0' ++ digits
  if places = 0 then padded
  else padded.take (padded.length - places) ++ '.' :: padded.drop (padded.length - places)

/-- The written form, with all places. -/
def toText (a : Decimal) : String :=
  let body := withPoint a.scale (natDigits a.magnitude)
  String.ofList (if a.negative then '-' :: body else body)

/-! ## Reading -/

/-- What a plain number has read so far: its digits, how many of them are places, whether the point
and any digit have been seen. -/
structure Reading where
  mantissa : Nat
  places : Nat
  point : Bool
  any : Bool

/-- The mantissa from which on a number is wide: shortly before another digit may exceed 64 bits. -/
def wideFrom : Nat := (twoPow 64 - 1) / 10 - 255

/-- Whether the mantissa was wide before its last digit. -/
def Reading.wide (r : Reading) : Bool := wideFrom ≤ r.mantissa / 10

/-- Rounds half up by the first digit that does not fit, and gives up a place when the mantissa
grows too large by it. -/
def Reading.roundBy (r : Reading) (d : Nat) : Option (Nat × Nat) :=
  if d < 5 then some (r.mantissa, r.places)
  else if r.mantissa + 1 < twoPow 96 then some (r.mantissa + 1, r.places)
  else if r.places = 0 then none
  else some ((r.mantissa + 5) / 10, r.places - 1)

/-- Ends a number whose next digit does not fit. That digit rounds; an underscore in its place
counts as a zero. Behind it only digits and underscores may follow. -/
def Reading.finish (r : Reading) : List Char → Option (Nat × Nat)
  | [] => some (r.mantissa, r.places)
  | c :: cs =>
    if cs.all fun c => c = '_' || (digit? c).isSome then
      (if c = '_' then some 0 else digit? c).bind r.roundBy
    else none

/-- Reads the digits, point and underscores of a plain number to its mantissa and places. Once the
places are used up, a wide number looks past underscores for the digit that rounds it. -/
def readUnsigned : Reading → List Char → Option (Nat × Nat)
  | r, [] => if r.any then some (r.mantissa, r.places) else none
  | r, c :: cs =>
    if r.point ∧ r.places = 28 then
      r.finish (if r.wide then (c :: cs).dropWhile (· = '_') else c :: cs)
    else
      match digit? c with
      | some d =>
        let next := r.mantissa * 10 + d
        if next < twoPow 96 then
          readUnsigned ⟨next, if r.point then r.places + 1 else 0, r.point, true⟩ cs
        else if r.point then r.finish (c :: cs)
        else none
      | none =>
        if c = '.' ∧ ¬ r.point then readUnsigned { r with point := true } cs
        else if c = '_' ∧ r.any then readUnsigned r cs
        else none

/-- An unsigned number with a sign put to it. -/
def readSigned? (negative : Bool) (cs : List Char) : Option Decimal :=
  (readUnsigned ⟨0, 0, false, false⟩ cs).bind fun (m, s) => make? negative m s

/-- A sign or none, then the unsigned number. -/
def readPlain? : List Char → Option Decimal
  | '-' :: cs => readSigned? true cs
  | '+' :: cs => readSigned? false cs
  | cs => readSigned? false cs

/-- The decimal times a power of ten: first the places are used up, then zeros are appended. -/
def scaleUp? (a : Decimal) (exponent : Nat) : Option Decimal :=
  if exponent ≤ a.scale then make? a.negative a.magnitude (a.scale - exponent)
  else if exponent ≤ 28 then make? a.negative (a.magnitude * tenPow (exponent - a.scale)) 0
  else none

/-- The decimal over a power of ten: with so many more places, or with 28 of them after rounding
half up. The sign stays, also on a number that is rounded to zero. -/
def scaleDown? (a : Decimal) (exponent : Nat) : Option Decimal :=
  if 28 < exponent then none
  else if h : a.scale + exponent ≤ 28 then some { a with scale := a.scale + exponent, scale_le := h }
  else
    some ⟨a.negative, roundRatio .upward a.magnitude (tenPow (a.scale + exponent - 28)), 28,
      Nat.lt_of_le_of_lt (roundRatio_le _ _ (tenPow_pos _)) a.magnitude_lt, by decide⟩

/-- A plain number, the letter `e` in either case, and an exponent. -/
def readScientific? (cs : List Char) : Option Decimal :=
  let isMark := fun c : Char => c = 'e' ∨ c = 'E'
  match cs.dropWhile fun c => !decide (isMark c) with
  | [] => none
  | _ :: exponent =>
    (readPlain? (cs.takeWhile fun c => !decide (isMark c))).bind fun base =>
      match exponent with
      | '-' :: digits => (Text.readCount? digits).bind fun e => scaleDown? base e.toNat
      | digits => (Text.readCount? digits).bind fun e => scaleUp? base e.toNat

/-- Reads either notation, the plain one first. -/
def read? (text : String) : Option Decimal :=
  (readPlain? text.toList).or (readScientific? text.toList)

end BotSpec.Decimal
