import BotSpec.Json.Basic
import BotSpec.Binary64.Text

/-!
# Writing JSON

`compact` writes a value on one line, `pretty` with two spaces of indentation per level. Strings
escape the quote, the backslash and the control characters; everything else stands for itself.
-/

namespace BotSpec.Json

open BotSpec.Text (intText)

/-- A digit of a hexadecimal number, in lower case. -/
def hexChar (n : Nat) : Char := if n < 10 then Char.ofNat (48 + n) else Char.ofNat (87 + n)

/-- How a character stands in a string. -/
def escapeChar (c : Char) : List Char :=
  match c with
  | '"' => ['\\', '"']
  | '\\' => ['\\', '\\']
  | '\x08' => ['\\', 'b']
  | '\x0c' => ['\\', 'f']
  | '\n' => ['\\', 'n']
  | '\r' => ['\\', 'r']
  | '\t' => ['\\', 't']
  | c =>
    if c.toNat < 32 then ['\\', 'u', '0', '0', hexChar (c.toNat / 16), hexChar (c.toNat % 16)] else [c]

/-- A string between quotes. -/
def quote (s : String) : String := String.ofList ('"' :: s.toList.flatMap escapeChar ++ ['"'])

/-- The text of a value that is no array or object. -/
def scalarText : Json → String
  | .bool true => "true"
  | .bool false => "false"
  | .whole n => intText n
  | .real x => Binary64.exponentText x
  | .string s => quote s
  | _ => "null"

mutual

/-- The value on one line, without spaces. -/
def compact : Json → String
  | .array items => "[" ++ ",".intercalate (compactItems items) ++ "]"
  | .object members => "\x7b" ++ ",".intercalate (compactMembers members) ++ "\x7d"
  | j => scalarText j

def compactItems : List Json → List String
  | [] => []
  | j :: rest => compact j :: compactItems rest

def compactMembers : List (String × Json) → List String
  | [] => []
  | (k, j) :: rest => (quote k ++ ":" ++ compact j) :: compactMembers rest

end

/-- A line break and the indentation of a level. -/
def breakLine (level : Nat) : String := "\n" ++ String.ofList (List.replicate (2 * level) ' ')

mutual

/-- The value with one item or member a line, where `level` is the depth of its own line. -/
def prettyAt (level : Nat) : Json → String
  | .array [] => "[]"
  | .array items =>
    "[" ++ ",".intercalate (prettyItems (level + 1) items) ++ breakLine level ++ "]"
  | .object [] => "\x7b\x7d"
  | .object members =>
    "\x7b" ++ ",".intercalate (prettyMembers (level + 1) members) ++ breakLine level ++ "\x7d"
  | j => scalarText j

def prettyItems (level : Nat) : List Json → List String
  | [] => []
  | j :: rest => (breakLine level ++ prettyAt level j) :: prettyItems level rest

def prettyMembers (level : Nat) : List (String × Json) → List String
  | [] => []
  | (k, j) :: rest =>
    (breakLine level ++ quote k ++ ": " ++ prettyAt level j) :: prettyMembers level rest

end

/-- The value over several lines. -/
def pretty (j : Json) : String := prettyAt 0 j

end BotSpec.Json
