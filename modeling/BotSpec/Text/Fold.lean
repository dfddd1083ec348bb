/-!
# Folded spellings

A tag or a mode may be spelled with any case, spaces and punctuation. `fold` keeps the ASCII letters
and digits alone, in lower case, and names are compared in this form.
-/

namespace BotSpec.Text

/-- The lower-case form of an ASCII letter; every other character as it is. -/
def lowerAscii (c : Char) : Char :=
  if 'A' ≤ c ∧ c ≤ 'Z' then Char.ofNat (c.toNat + 32) else c

def lowerText (s : String) : String := String.ofList (s.toList.map lowerAscii)

/-- Whether a character is an ASCII letter or digit. -/
def isAsciiAlphanumeric (c : Char) : Bool :=
  ('a' ≤ c && c ≤ 'z') || ('A' ≤ c && c ≤ 'Z') || ('0' ≤ c && c ≤ '9')

/-- The ASCII letters and digits of a text in lower case. -/
def fold (s : String) : List Char := (s.toList.filter isAsciiAlphanumeric).map lowerAscii

end BotSpec.Text
