/-!
# Blank characters

`isBlank` is the white-space property of the Unicode character database. `trim` takes blank
characters off both ends of a text, and `dropBlanks` off the front of a list.
-/

namespace BotSpec.Text

/-- The characters with the property `White_Space`. -/
def isBlank (c : Char) : Bool :=
  let n := c.toNat
  (9 ≤ n && n ≤ 13) || n == 0x20 || n == 0x85 || n == 0xA0 || n == 0x1680 ||
    (0x2000 ≤ n && n ≤ 0x200A) || n == 0x2028 || n == 0x2029 || n == 0x202F || n == 0x205F ||
    n == 0x3000

def dropBlanks (cs : List Char) : List Char := cs.dropWhile isBlank

/-- A list without the blank characters at either end. -/
def trimChars (cs : List Char) : List Char :=
  (dropBlanks (dropBlanks cs).reverse).reverse

/-- A text without the blank characters at either end. -/
def trim (s : String) : String := String.ofList (trimChars s.toList)

/-- Whether nothing but blank characters stands in a text. -/
def isAllBlank (s : String) : Bool := s.toList.all isBlank

end BotSpec.Text
