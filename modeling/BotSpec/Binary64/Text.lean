import BotSpec.Power
import BotSpec.Rounding
import BotSpec.Binary64.Shortest
import BotSpec.Text.Number

/-!
# Doubles in text

Two printers share the shortest digits. `plainText` never uses an exponent and writes no `.0`, and
of two shortest decimals that are as near it takes the larger; `exponentText` always marks a double
as such (`14.0`), changes to an exponent outside `1e-5` to `1e16`, and takes the even one.
`readFloat?` reads a decimal numeral, `inf`, `infinity` or `nan`.
-/

namespace BotSpec.Binary64

open BotSpec.Text (digit? natDigits intText)

/-- The places of a double before printing. -/
inductive Form where
  | nan
  | infinite (negative : Bool)
  | zero (negative : Bool)
  | finite (negative : Bool) (digits : List Char) (power : Int)

/-- Which kind of number a double is, with its shortest digits. -/
def form (tie : Tie) (x : Float) : Form :=
  let bits := x.toBits.toNat
  let negative := bits / twoPow 63 = 1
  let magnitude := bits % twoPow 63
  if magnitude > infinityBits then .nan
  else if magnitude = infinityBits then .infinite negative
  else if magnitude = 0 then .zero negative
  else
    let (c, p) := (Double.ofBits magnitude).shortest tie
    .finite negative (natDigits c) p

/-- A minus sign for negative numbers. -/
def signed (negative : Bool) (body : List Char) : String :=
  String.ofList (if negative then '-' :: body else body)

/-- Digits times a power of ten without an exponent. -/
def positional (digits : List Char) (power : Int) : List Char :=
  if 0 ≤ power then digits ++ List.replicate power.toNat '0'
  else
    let places := (-power).toNat
    if places < digits.length then
      digits.take (digits.length - places) ++ '.' :: digits.drop (digits.length - places)
    else '0' :: '.' :: List.replicate (places - digits.length) '0' ++ digits

/-- The shortest digits without exponent; whole numbers have no point. -/
def plainText (x : Float) : String :=
  match form .upward x with
  | .nan => "NaN"
  | .infinite negative => signed negative ['i', 'n', 'f']
  | .zero negative => signed negative ['0']
  | .finite negative digits power => signed negative (positional digits power)

/-- Digits with a point after the first one, if there are more. -/
def leading : List Char → List Char
  | [] => []
  | [d] => [d]
  | d :: more => d :: '.' :: more

/-- The shortest digits as JSON numbers carry them: whole numbers below `1e16` end in `.0`, and
outside `1e-5` to `1e16` the number has an exponent. -/
def exponentText (x : Float) : String :=
  match form .toEven x with
  | .nan => "null"
  | .infinite _ => "null"
  | .zero negative => signed negative ['0', '.', '0']
  | .finite negative digits power =>
    let point := (digits.length : Int) + power
    if 0 ≤ power ∧ point ≤ 16 then signed negative (positional digits power ++ ['.', '0'])
    else if -5 < point ∧ point ≤ 16 then signed negative (positional digits power)
    else signed negative (leading digits ++ 'e' :: (intText (point - 1)).toList)

/-! ## Reading -/

/-- The digits at the front, as a number and a count, and what follows. -/
def takeDigits : Nat → Nat → List Char → Nat × Nat × List Char
  | n, k, c :: cs =>
    match digit? c with
    | some d => takeDigits (n * 10 + d) (k + 1) cs
    | none => (n, k, c :: cs)
  | n, k, [] => (n, k, [])

/-- The exponent that ends a numeral: none, or a mark, an optional sign and digits. -/
def readExponent? : List Char → Option Int
  | [] => some 0
  | c :: cs =>
    if c = 'e' ∨ c = 'E' then
      match cs with
      | '-' :: ds => (Text.readDigits? ds).map fun n => -(n : Int)
      | '+' :: ds => (Text.readDigits? ds).map fun n => (n : Int)
      | ds => (Text.readDigits? ds).map fun n => (n : Int)
    else none

/-- An unsigned numeral: digits with an optional point (at least one digit) and an exponent. -/
def readNumeral? (cs : List Char) : Option Float :=
  let (whole, wholeCount, rest) := takeDigits 0 0 cs
  let (digits, places, tail) :=
    match rest with
    | '.' :: more =>
      let (digits, places, tail) := takeDigits whole 0 more
      (digits, places, tail)
    | _ => (whole, 0, rest)
  if wholeCount + places = 0 then none
  else (readExponent? tail).map fun e => scientificFloat digits (e - places)

/-- A numeral or one of the names, without sign. -/
def readUnsigned? (cs : List Char) : Option Float :=
  let name := String.ofList (cs.map Char.toLower)
  if name = "inf" ∨ name = "infinity" then some (Float.ofBits (UInt64.ofNat infinityBits))
  else if name = "nan" then some (Float.ofBits (UInt64.ofNat (infinityBits + twoPow 51)))
  else readNumeral? cs

/-- A double in text: the nearest one to the numeral. -/
def readFloat? (cs : List Char) : Option Float :=
  match cs with
  | '-' :: rest => (readUnsigned? rest).map fun x => -x
  | '+' :: rest => readUnsigned? rest
  | rest => readUnsigned? rest

end BotSpec.Binary64
