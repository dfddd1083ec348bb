/-!
# Columns of text

A cell is filled up with spaces to the width of its column, counted in characters. A longer cell is
left as it is.
-/

namespace BotSpec.Text

/-- A text with spaces behind it up to a width. -/
def padRight (width : Nat) (text : String) : String :=
  text ++ String.ofList (List.replicate (width - text.length) ' ')

/-- A text with spaces before it up to a width. -/
def padLeft (width : Nat) (text : String) : String :=
  String.ofList (List.replicate (width - text.length) ' ') ++ text

/-- A line of dashes. -/
def dashes (width : Nat) : String := String.ofList (List.replicate width '-')

end BotSpec.Text
