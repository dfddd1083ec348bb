import BotSpec.Power

/-!
# Whole numbers in text

Digits are the ten ASCII digits. `readNat?` reads an unsigned whole number that may carry a plus
sign, `readCount?` one that also fits 32 bits, and `natText` and `intText` write them.
-/

namespace BotSpec.Text

/-- The value of a decimal digit. -/
def digit? (c : Char) : Option Nat :=
  if '0' ≤ c ∧ c ≤ '9' then some (c.toNat - '0'.toNat) else none

/-- The digit character of a number below ten. -/
def digitChar (d : Nat) : Char := Char.ofNat ('0'.toNat + d)

/-- The number that a run of digits continues, `none` if another character stands in it. -/
def appendDigits? : Nat → List Char → Option Nat
  | n, [] => some n
  | n, c :: cs => (digit? c).bind fun d => appendDigits? (n * 10 + d) cs

/-- One or more digits. -/
def readDigits? : List Char → Option Nat
  | [] => none
  | cs => appendDigits? 0 cs

/-- One or more digits after an optional plus sign. -/
def readNat? : List Char → Option Nat
  | '+' :: cs => readDigits? cs
  | cs => readDigits? cs

/-- One or more digits after an optional sign. -/
def readInt? : List Char → Option Int
  | '-' :: cs => (readDigits? cs).map fun n => -(n : Int)
  | cs => (readNat? cs).map fun n => (n : Int)

/-- Whether a whole number fits 64 bits. -/
def fitsWord (n : Int) : Bool := -(twoPow 63) ≤ n && n < twoPow 63

/-- A whole number of at most 64 bits. -/
def readWord? (cs : List Char) : Option Int := (readInt? cs).filter fitsWord

/-- A whole number of at most 32 bits after an optional plus sign. -/
def readCount? (cs : List Char) : Option UInt32 :=
  (readNat? cs).bind fun n => if n < twoPow 32 then some (UInt32.ofNat n) else none

/-- The decimal digits of a number, without leading zeros. -/
def natDigits (n : Nat) : List Char :=
  if n < 10 then [digitChar n] else natDigits (n / 10) ++ [digitChar (n % 10)]
termination_by n
decreasing_by omega

def natText (n : Nat) : String := String.ofList (natDigits n)

def intText (n : Int) : String := if n < 0 then "-" ++ natText n.natAbs else natText n.natAbs

end BotSpec.Text
