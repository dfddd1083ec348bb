import BotSpec.Text.Blank

/-!
# Lines of an environment file

A line of an environment file ends at a line break outside quotes, so a quoted value may go over
several lines. A number sign behind a blank, outside quotes, starts a comment. What stands behind
the last complete line, such as an open quote, is no line.
-/

namespace BotSpec.Environment

/-- Where in a line a character stands. -/
inductive Place where
  | plain
  /-- Right behind a blank. -/
  | afterBlank
  | escaped
  | strong
  | strongEscaped
  | weak
  | weakEscaped
  deriving DecidableEq

/-- The place behind a character outside quotes. -/
def Place.afterPlain (c : Char) : Place :=
  if c = '\\' then escaped
  else if c = '"' then weak
  else if c = '\'' then strong
  else plain

/-- The place behind a character that starts no comment. -/
def Place.next : Place → Char → Place
  | .plain, c =>
    if Text.isBlank c ∧ c ≠ '\n' ∧ c ≠ '\r' then .afterBlank else .afterPlain c
  | .afterBlank, c => .afterPlain c
  | .escaped, _ => .plain
  | .weak, c => if c = '\\' then .weakEscaped else if c = '"' then .plain else .weak
  | .weakEscaped, _ => .weak
  | .strong, c => if c = '\\' then .strongEscaped else if c = '\'' then .plain else .strong
  | .strongEscaped, _ => .strong

/-- A text cut behind each line break. -/
def physicalLines : List Char → List (List Char)
  | [] => []
  | c :: cs =>
    if c = '\n' then [c] :: physicalLines cs
    else
      match physicalLines cs with
      | [] => [[c]]
      | l :: ls => (c :: l) :: ls

/-- How a physical line ends. -/
inductive Ending where
  /-- At a place. -/
  | at (place : Place)
  /-- In a comment behind some characters. -/
  | comment (before : List Char)

/-- The ending of a line that starts at a place. -/
def endingFrom (place : Place) : List Char → Ending
  | [] => .at place
  | c :: cs =>
    if place = .afterBlank ∧ c = '#' then .comment []
    else
      match endingFrom (place.next c) cs with
      | .at p => .at p
      | .comment before => .comment (c :: before)

/-- Whether a line holds a comment only. -/
def isComment (cs : List Char) : Bool := (Text.dropBlanks cs).head? = some '#'

/-- A line without its line break. -/
def dropBreak (cs : List Char) : List Char :=
  match cs.reverse with
  | '\n' :: '\r' :: rest => rest.reverse
  | '\n' :: rest => rest.reverse
  | _ => cs

/-- The complete lines, where `open_` is the part of the current one that has been read and `place`
its end. -/
def joinLines (open_ : List Char) (place : Place) : List (List Char) → List (List Char)
  | [] => []
  | l :: ls =>
    let line := open_ ++ l
    if isComment line then joinLines [] .plain ls
    else
      match endingFrom place l with
      | .comment before => (open_ ++ before) :: joinLines [] .plain ls
      | .at .plain => dropBreak line :: joinLines [] .plain ls
      | .at p => joinLines line p ls

/-- The lines of a file. -/
def lines (text : List Char) : List (List Char) := joinLines [] .plain (physicalLines text)

end BotSpec.Environment
