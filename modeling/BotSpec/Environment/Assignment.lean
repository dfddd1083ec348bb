import BotSpec.Environment.Lines
import BotSpec.Environment.Variables
import BotSpec.Text.Fold

/-!
# Assignments of an environment file

A line of an environment file gives a variable a value, optionally behind the word `export`. Values
may be quoted in two ways: between single quotes every character stands for itself, between double
quotes and outside quotes a backslash escapes a few characters and a dollar sign stands before the
name of a variable.

`Variables.load` takes the assignments of a file until the first line that is none. Variables that
have a value keep it.
-/

namespace BotSpec.Environment

/-! ## Values -/

/-- The name of a variable that is being read. -/
inductive Reference where
  | none
  /-- Letters and digits behind a dollar sign. -/
  | bare (name : List Char)
  /-- Characters up to a closing brace. -/
  | braced (name : List Char)
  deriving DecidableEq

inductive Quotes where
  | none
  | strong
  | weak
  deriving DecidableEq

/-- A value that is being read. -/
structure ValueState where
  output : List Char
  quotes : Quotes
  reference : Reference
  escaped : Bool
  /-- Only blanks and a comment may follow. -/
  ended : Bool
  deriving DecidableEq

namespace ValueState

def start : ValueState := ⟨[], .none, .none, false, false⟩

def push (s : ValueState) (cs : List Char) : ValueState := { s with output := s.output ++ cs }

/-- The character that an escape stands for. -/
def escape? (c : Char) : Option Char :=
  if c = 'n' then some '\n' else if c ∈ ['\\', '"', '\'', '$', ' '] then some c else none

/-- The value of a variable in a value, empty for a variable without one. -/
def expand (vs : Variables) (name : List Char) : List Char :=
  ((vs.get? (String.ofList name)).getD "").toList

/-- A character behind a dollar sign. -/
def stepReference (vs : Variables) (s : ValueState) (c : Char) : ValueState :=
  match s.reference with
  | .none => s
  | .bare name =>
    if Text.isAsciiAlphanumeric c then { s with reference := .bare (name ++ [c]) }
    else if c = '\x7b' ∧ name = [] then { s with reference := .braced [] }
    else
      let s := s.push (expand vs name)
      if c = '$' then { s with reference := .bare [] }
      else { s.push [c] with reference := .none }
  | .braced name =>
    if c = '\x7d' then { s.push (expand vs name) with reference := .none }
    else { s with reference := .braced (name ++ [c]) }

/-- A character outside quotes and references. -/
def stepPlain (s : ValueState) (c : Char) : ValueState :=
  if c = '\'' then { s with quotes := .strong }
  else if c = '"' then { s with quotes := .weak }
  else if c = '\\' then { s with escaped := true }
  else if c = ' ' ∨ c = '\t' then { s with ended := true }
  else s.push [c]

/-- A character between double quotes. -/
def stepWeak (s : ValueState) (c : Char) : ValueState :=
  if c = '"' then { s with quotes := .none }
  else if c = '\\' then { s with escaped := true }
  else s.push [c]

/-- The state behind a character of the value; none if the character may not stand there. -/
def step? (vs : Variables) (s : ValueState) (c : Char) : Option ValueState :=
  if s.ended then if c = ' ' ∨ c = '\t' then some s else none
  else if s.escaped then (escape? c).map fun e => { s.push [e] with escaped := false }
  else if s.quotes = .strong then
    some (if c = '\'' then { s with quotes := .none } else s.push [c])
  else if s.reference ≠ .none then some (s.stepReference vs c)
  else if c = '$' then some { s with reference := .bare [] }
  else if s.quotes = .weak then some (s.stepWeak c)
  else some (s.stepPlain c)

/-- The value at its end; none inside quotes and braces. -/
def finish (vs : Variables) (s : ValueState) : Option (List Char) :=
  if s.quotes ≠ .none then none
  else
    match s.reference with
    | .none => some s.output
    | .bare name => some (s.output ++ expand vs name)
    | .braced _ => none

/-- The value in the characters that remain. A number sign behind the end starts a comment. -/
def run (vs : Variables) (s : ValueState) : List Char → Option (List Char)
  | [] => s.finish vs
  | c :: cs =>
    if s.ended ∧ c = '#' then s.finish vs
    else
      match s.step? vs c with
      | some next => next.run vs cs
      | none => none

end ValueState

/-! ## Lines -/

inductive Line where
  | blank
  | assignment (name : String) (value : String)
  | malformed
  deriving DecidableEq

/-- Whether a character may stand first in a name. -/
def isNameStart (c : Char) : Bool := c.isAlpha || c = '_'

/-- Whether a character may stand in a name. -/
def isNameRest (c : Char) : Bool := Text.isAsciiAlphanumeric c || c = '_' || c = '.'

/-- A name and what stands behind it and behind blanks. -/
def readName? (cs : List Char) : Option (List Char × List Char) :=
  match cs with
  | [] => none
  | c :: _ =>
    if isNameStart c then
      some (cs.takeWhile isNameRest, Text.dropBlanks (cs.dropWhile isNameRest))
    else none

/-- What stands behind an equals sign. -/
def afterEquals? : List Char → Option (List Char)
  | '=' :: cs => some cs
  | _ => none

/-- The name of an assignment and the text of its value. The word `export` may stand before the
name. -/
def readHead? (cs : List Char) : Option (List Char × List Char) := do
  let (name, rest) ← readName? cs
  match afterEquals? rest with
  | some value => return (name, value)
  | none =>
    if name = "export".toList then
      let (name, rest) ← readName? rest
      return (name, ← afterEquals? rest)
    else none

/-- The value in a text. -/
def readValue? (vs : Variables) (cs : List Char) : Option (List Char) :=
  match cs with
  | [] => some []
  | c :: _ => if c = '#' then some [] else ValueState.start.run vs cs

/-- What a line says, where names in values stand for given variables. -/
def readLine (vs : Variables) (cs : List Char) : Line :=
  match Text.trimChars cs with
  | [] => .blank
  | '#' :: _ => .blank
  | cs =>
    match readHead? cs with
    | none => .malformed
    | some (name, rest) =>
      match readValue? vs (Text.dropBlanks rest) with
      | none => .malformed
      | some value => .assignment (String.ofList name) (String.ofList value)

/-- The variables after some lines. -/
def loadLines (vs : Variables) : List (List Char) → Variables
  | [] => vs
  | l :: ls =>
    match readLine vs l with
    | .blank => loadLines vs ls
    | .assignment name value => loadLines (vs.define name value) ls
    | .malformed => vs

end BotSpec.Environment

namespace BotSpec

/-- The variables with those of an environment file, which may start with a byte order mark. -/
def Variables.load (vs : Variables) (text : String) : Variables :=
  match text.toList with
  | '\uFEFF' :: cs => Environment.loadLines vs (Environment.lines cs)
  | cs => Environment.loadLines vs (Environment.lines cs)

end BotSpec
