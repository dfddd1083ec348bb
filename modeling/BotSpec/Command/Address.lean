import BotSpec.Power
import BotSpec.Text.Number
import BotSpec.Text.Split

/-!
# Network addresses

A service listens on a numeric address: four decimal numbers with points between them, or, in square
brackets, eight hexadecimal groups with colons between them. Two colons in a row stand for the
groups that are left out, and the last two groups may be written as four decimal numbers. A number
behind a percent sign may follow the groups.
-/

namespace BotSpec.Command

/-- Whether a text is a decimal number below 256 without leading zeros. -/
def isOctet (cs : List Char) : Bool :=
  match Text.readDigits? cs with
  | some n => n < 256 && (cs.length = 1 || cs.head? ≠ some '0')
  | none => false

/-- Whether a text is four decimal numbers. -/
def isFourPart (cs : List Char) : Bool :=
  let parts := Text.pieces '.' cs
  parts.length = 4 && parts.all isOctet

def isHexDigit (c : Char) : Bool :=
  ('0' ≤ c && c ≤ '9') || ('a' ≤ c && c ≤ 'f') || ('A' ≤ c && c ≤ 'F')

/-- Whether a text is one to four hexadecimal digits. -/
def isGroup (cs : List Char) : Bool := 0 < cs.length && cs.length ≤ 4 && cs.all isHexDigit

/-- How many groups a list of parts stands for, none if a part is no group. -/
def groupCount? : List (List Char) → Option Nat
  | [] => some 0
  | [last] => if isFourPart last then some 2 else if isGroup last then some 1 else none
  | part :: rest => if isGroup part then (groupCount? rest).map (· + 1) else none

/-- The number of groups in a text, where an empty text has none. -/
def groupsIn? (cs : List Char) : Option Nat :=
  if cs = [] then some 0 else groupCount? (Text.pieces ':' cs)

/-- What stands before and behind the first two colons in a row. -/
def cutGap? : List Char → Option (List Char × List Char)
  | ':' :: ':' :: rest => some ([], rest)
  | c :: cs => (cutGap? cs).map fun p => (c :: p.1, p.2)
  | [] => none

/-- Whether a text is eight groups, some of them possibly left out. -/
def isEightPart (cs : List Char) : Bool :=
  match cutGap? cs with
  | none => groupsIn? cs = some 8
  | some (front, back) =>
    match groupsIn? front, groupsIn? back with
    | some m, some n => !front.contains '.' && m + n < 8
    | _, _ => false

/-- Whether a text is eight groups with an optional number behind a percent sign. -/
def isScoped (cs : List Char) : Bool :=
  match Text.cut? '%' cs with
  | none => isEightPart cs
  | some (groups, scope) =>
    isEightPart groups &&
      match Text.readDigits? scope with
      | some n => n < twoPow 32
      | none => false

/-- Whether a service can listen on a host. -/
def isAddress (host : String) : Bool :=
  match host.toList with
  | '[' :: rest =>
    match rest.reverse with
    | ']' :: inner => isScoped inner.reverse
    | _ => false
  | cs => isFourPart cs

end BotSpec.Command
