import BotSpec.Text.Split

/-!
# Switches among words

The words of a command line are switches, the values of switches, and words that stand for
themselves. `readWords` takes the switches at the front, each at most once, and stops at the first
word of the last kind.

A switch is written `--name value`, `--name=value`, `-n value`, `-nvalue` or `-n=value`; short
switches without values may share one dash. A value in a word of its own does not start with a dash,
unless it is the dash alone.
-/

namespace BotSpec.Command

structure Switch where
  name : String
  short : Option Char
  /-- Which values it takes; a switch without values has none. -/
  accepts : Option (String → Bool)

/-- A switch without values. -/
def Switch.bare (name : String) (short : Option Char) : Switch := ⟨name, short, none⟩

/-- The switch that asks for help. -/
def Switch.help : Switch := .bare "help" (some 'h')

/-- Why words are not read to the end. -/
inductive Stop where
  | misuse
  | help
  deriving DecidableEq

/-- Switches with their values, in the order of the words; a switch without values has an empty one.
-/
abbrev Given := List (String × String)

/-- The value given for a switch. -/
def given? (given : Given) (name : String) : Option String :=
  (given.find? fun g => g.1 = name).map fun g => g.2

/-- Whether a switch is given. -/
def isGiven (given : Given) (name : String) : Bool := (given? given name).isSome

/-- Adds a switch, with a value if it takes one. -/
def give (given : Given) (s : Switch) (value : Option String) : Except Stop Given :=
  let add := fun v : String =>
    if isGiven given s.name then Except.error Stop.misuse else .ok (given ++ [(s.name, v)])
  match s.accepts, value with
  | none, none => if s.name = Switch.help.name then .error .help else add ""
  | some accepts, some v => if accepts v then add v else .error .misuse
  | _, _ => .error .misuse

/-- What is given after a word, and the switch that still needs a value. -/
abbrev Progress := Given × Option Switch

/-- Short switches behind one dash. -/
def readShort (switches : List Switch) (given : Given) : List Char → Except Stop Progress
  | [] => .ok (given, none)
  | c :: cs =>
    match switches.find? fun s => s.short = some c with
    | none => .error .misuse
    | some s =>
      if s.accepts.isNone then do readShort switches (← give given s none) cs
      else
        match cs with
        | [] => .ok (given, some s)
        | '=' :: value => do return (← give given s (some (String.ofList value)), none)
        | value => do return (← give given s (some (String.ofList value)), none)

/-- A long switch behind two dashes. -/
def readLong (switches : List Switch) (given : Given) (cs : List Char) : Except Stop Progress :=
  let (name, value) :=
    match Text.cut? '=' cs with
    | some (name, value) => (name, some (String.ofList value))
    | none => (cs, none)
  match switches.find? fun s => s.name.toList = name with
  | none => .error .misuse
  | some s =>
    if s.accepts.isSome ∧ value.isNone then .ok (given, some s)
    else do return (← give given s value, none)

/-- Whether a word cannot be a value. -/
def isDashed (word : String) : Bool :=
  match word.toList with
  | '-' :: _ :: _ => true
  | _ => false

/-- The switch in a word, or none in a word that stands for itself. -/
def readSwitch (switches : List Switch) (given : Given) (word : String) :
    Option (Except Stop Progress) :=
  match word.toList with
  | '-' :: '-' :: cs => some (readLong switches given cs)
  | '-' :: c :: cs => some (readShort switches given (c :: cs))
  | _ => none

/-- The switches at the front of some words, and the words behind them. Two dashes end the switches,
and nothing may follow them. -/
def readWords (switches : List Switch) (given : Given) :
    List String → Except Stop (Given × List String)
  | [] => .ok (given, [])
  | word :: rest =>
    if word = "--" then if rest = [] then .ok (given, []) else .error .misuse
    else
      match readSwitch switches given word with
      | none => .ok (given, word :: rest)
      | some (.error stop) => .error stop
      | some (.ok (given, none)) => readWords switches given rest
      | some (.ok (given, some s)) =>
        match rest with
        | [] => .error .misuse
        | value :: rest =>
          if isDashed value then .error .misuse
          else
            match give given s (some value) with
            | .error stop => .error stop
            | .ok given => readWords switches given rest

end BotSpec.Command
