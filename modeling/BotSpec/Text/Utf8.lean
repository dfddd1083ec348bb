/-!
# Bytes that are not UTF-8

Where bytes stop to be the UTF-8 form of a text, a `Utf8Fault` says at which byte and why: a byte
that cannot stand in its place, or bytes that end within a character.
-/

namespace BotSpec.Text

/-- What is wrong with bytes that are not UTF-8. -/
structure Utf8Fault where
  /-- How many bytes in front are UTF-8. -/
  index : Nat
  /-- How many bytes from there on start no character, unless the bytes end within one. -/
  length : Option Nat
  deriving DecidableEq

def Utf8Fault.message (f : Utf8Fault) : String :=
  match f.length with
  | some length => s!"invalid utf-8 sequence of {length} bytes from index {f.index}"
  | none => s!"incomplete utf-8 byte sequence from index {f.index}"

/-- The bytes behind the first one of a character: how many, and the least and the greatest that the
first of them can be. -/
structure Continuation where
  count : Nat
  least : UInt8
  greatest : UInt8

/-- What follows the first byte of a character. No character starts with another byte. -/
def continuation? (first : UInt8) : Option Continuation :=
  if first < 0x80 then some ⟨0, 0x80, 0xBF⟩
  else if first < 0xC2 then none
  else if first < 0xE0 then some ⟨1, 0x80, 0xBF⟩
  else if first = 0xE0 then some ⟨2, 0xA0, 0xBF⟩
  else if first = 0xED then some ⟨2, 0x80, 0x9F⟩
  else if first < 0xF0 then some ⟨2, 0x80, 0xBF⟩
  else if first = 0xF0 then some ⟨3, 0x90, 0xBF⟩
  else if first < 0xF4 then some ⟨3, 0x80, 0xBF⟩
  else if first = 0xF4 then some ⟨3, 0x80, 0x8F⟩
  else none

/-- Whether so many bytes can continue a character. Otherwise the length of a fault whose first
`seen` bytes are in place. -/
def checkContinuation (least greatest : UInt8) (seen : Nat) : Nat → List UInt8 → Except (Option Nat) Unit
  | 0, _ => .ok ()
  | _ + 1, [] => .error none
  | count + 1, b :: rest =>
    if least ≤ b ∧ b ≤ greatest then checkContinuation 0x80 0xBF (seen + 1) count rest else .error (some seen)

/-- The first fault of bytes that stand behind `index` others. Bytes without one are taken to end
within a character. -/
def utf8FaultFrom (index : Nat) : List UInt8 → Utf8Fault
  | [] => ⟨index, none⟩
  | first :: rest =>
    match continuation? first with
    | none => ⟨index, some 1⟩
    | some c =>
      match checkContinuation c.least c.greatest 1 c.count rest with
      | .error length => ⟨index, length⟩
      | .ok () => utf8FaultFrom (index + 1 + c.count) (rest.drop c.count)
termination_by bytes => bytes.length
decreasing_by
  rw [List.length_drop, List.length_cons]
  omega

/-- The first fault of bytes that are not UTF-8. -/
def utf8Fault (bytes : List UInt8) : Utf8Fault := utf8FaultFrom 0 bytes

end BotSpec.Text
