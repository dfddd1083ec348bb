import BotSpec.Power

/-!
# Numbers in bytes

Numbers of a fixed width stand with their highest byte first. A number of variable width has seven
bits in each byte but the ninth, and the highest bit of a byte says that another one follows.
-/

namespace BotSpec.Storage

/-- The byte at a place, zero behind the end. -/
def byteAt (bytes : ByteArray) (at_ : Nat) : Nat :=
  match bytes[at_]? with
  | some b => b.toNat
  | none => 0

/-- The number in so many bytes. -/
def natAt (bytes : ByteArray) (at_ : Nat) : Nat → Nat
  | 0 => 0
  | width + 1 => natAt bytes at_ width * 256 + byteAt bytes (at_ + width)

/-- A number of so many bits as one with a sign. -/
def signed (bits n : Nat) : Int := if 2 * n < twoPow bits then n else (n : Int) - twoPow bits

/-- The number in so many bytes, with a sign. -/
def intAt (bytes : ByteArray) (at_ width : Nat) : Int := signed (8 * width) (natAt bytes at_ width)

/-- A number of variable width that continues `n`, and the place behind it. At most `left` bytes and
one are read. -/
def varNatFrom (bytes : ByteArray) (n at_ : Nat) : Nat → Nat × Nat
  | 0 => (n * 256 + byteAt bytes at_, at_ + 1)
  | left + 1 =>
    let b := byteAt bytes at_
    if b < 128 then (n * 128 + b, at_ + 1)
    else varNatFrom bytes (n * 128 + (b - 128)) (at_ + 1) left

/-- The number of variable width at a place, and the place behind it. -/
def varNatAt (bytes : ByteArray) (at_ : Nat) : Nat × Nat := varNatFrom bytes 0 at_ 8

end BotSpec.Storage
