import BotSpec.Storage.Bytes

/-!
# Stored records

A stored record starts with its length of head and a type number for each value; the values follow
in the same order. The type number says what a value is and how many bytes it has.
-/

namespace BotSpec.Storage

/-- A stored value. Fractions have no use here and are not looked into. -/
inductive Value where
  | null
  | whole (value : Int)
  | fraction
  | text (value : String)
  /-- A text whose bytes are not UTF-8. -/
  | illFormed (bytes : List UInt8)
  /-- Bytes that are no text. -/
  | blob (bytes : List UInt8)

/-- How many bytes a value of a type has. -/
def valueSize (type : Nat) : Nat :=
  if type < 5 then type
  else if type = 5 then 6
  else if type < 8 then 8
  else if type < 12 then 0
  else (type - 12) / 2

/-- The value of a type at a place. -/
def valueAt (bytes : ByteArray) (at_ type : Nat) : Value :=
  if type = 0 then .null
  else if type < 7 then .whole (intAt bytes at_ (valueSize type))
  else if type = 7 then .fraction
  else if type = 8 then .whole 0
  else if type = 9 then .whole 1
  -- the two types before the texts and the bytes are not in use
  else if type < 12 then .null
  else
    let content := bytes.extract at_ (at_ + valueSize type)
    if type % 2 = 0 then .blob content.toList
    else
      match String.fromUTF8? content with
      | some s => .text s
      | none => .illFormed content.toList

/-- The type numbers between two places of a head. -/
def typesFrom (bytes : ByteArray) (stop : Nat) : Nat → Nat → List Nat
  | 0, _ => []
  | left + 1, at_ =>
    if stop ≤ at_ then []
    else
      let (type, next) := varNatAt bytes at_
      type :: typesFrom bytes stop left next

/-- Values of some types, one behind the other. -/
def valuesFrom (bytes : ByteArray) : Nat → List Nat → List Value
  | _, [] => []
  | at_, type :: rest => valueAt bytes at_ type :: valuesFrom bytes (at_ + valueSize type) rest

/-- The values of a record. -/
def recordValues (bytes : ByteArray) : List Value :=
  let (stop, start) := varNatAt bytes 0
  valuesFrom bytes stop (typesFrom bytes stop stop start)

end BotSpec.Storage
