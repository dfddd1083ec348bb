import BotSpec.Power
import BotSpec.Command.Words
import BotSpec.Report.Rendered
import BotSpec.Text.Number

/-!
# Commands

`Command.parse` reads the words of a command line. There are four commands: `render` writes a
specification, `top` lists the best strategies, `variants` lists the strategy types, and `serve`
starts the service.
-/

namespace BotSpec

/-- Where a record comes from. -/
inductive RecordSource where
  /-- A file, or the standard input if it is a dash. -/
  | file (path : String)
  | row (id : Int)
  deriving DecidableEq

inductive Command where
  | render (source : RecordSource) (mode : RenderMode) (interval : String) (json : Bool)
  | top (limit : Int) (sortBy : Option String)
  | variants
  | serve (host : String) (port : Nat)
  deriving DecidableEq

namespace Command

/-! ## Values -/

/-- A port in a text. -/
def readPort? (text : String) : Option Nat :=
  ((Text.readWord? text.toList).filter fun n : Int => 0 ≤ n && n < twoPow 16).map Int.toNat

def readId? (text : String) : Option Int := Text.readWord? text.toList

def isMode (text : String) : Bool := (RenderMode.parse text).isOk

/-- A switch that takes any text. -/
def anyText (name : String) : Switch := ⟨name, none, some fun _ => true⟩

/-- A switch that takes a whole number. -/
def wholeNumber (name : String) : Switch := ⟨name, none, some fun v => (readId? v).isSome⟩

/-! ## Switches of the commands -/

/-- Switches that may stand before and behind the name of a command. -/
def commonSwitches : List Switch := [.bare "verbose" (some 'v'), .help]

def renderSwitches : List Switch :=
  [anyText "input", wholeNumber "id", ⟨"mode", none, some isMode⟩, anyText "interval",
    .bare "json" none]

def topSwitches : List Switch := [wholeNumber "limit", anyText "sort-by"]

def serveSwitches : List Switch :=
  [anyText "host", ⟨"port", some 'p', some fun v => (readPort? v).isSome⟩]

/-- The names of the commands. -/
def names : List String := ["render", "top", "variants", "serve"]

/-- The switches of a command. -/
def switchesOf (name : String) : List Switch :=
  commonSwitches ++
    (if name = "render" then renderSwitches
    else if name = "top" then topSwitches
    else if name = "serve" then serveSwitches
    else [])

/-! ## Commands -/

/-- The record to render: exactly one of the two sources must be given. -/
def sourceOf (given : Given) : Except Stop RecordSource :=
  match given? given "input", (given? given "id").bind readId? with
  | some path, none => .ok (.file path)
  | none, some id => .ok (.row id)
  | _, _ => .error .misuse

/-- The mode to render in; a table if none is given. -/
def modeOf (given : Given) : Except Stop RenderMode :=
  match RenderMode.ofRequest (given? given "mode") with
  | .ok mode => .ok mode
  | .error _ => .error .misuse

/-- The command of a name with the switches given for it. -/
def ofGiven (name : String) (given : Given) : Except Stop Command :=
  match name with
  | "render" => do
    let source ← sourceOf given
    return .render source (← modeOf given)
      ((given? given "interval").getD BotSettings.standard.interval) (isGiven given "json")
  | "top" =>
    .ok (.top (((given? given "limit").bind readId?).getD 10) (given? given "sort-by"))
  | "variants" => .ok .variants
  | "serve" =>
    .ok (.serve ((given? given "host").getD "0.0.0.0")
      (((given? given "port").bind readPort?).getD 3002))
  | _ => .error .misuse

/-- Whether words behind `help` name what help is asked for. -/
def helpStop (words : List String) : Stop :=
  match words with
  | [] => .help
  | [name] => if name ∈ names ∨ name = Switch.help.name then .help else .misuse
  | _ => .misuse

/-- The command in the words of a command line, the program's name left out. -/
def parse (words : List String) : Except Stop Command := do
  let (_, rest) ← readWords commonSwitches [] words
  match rest with
  | [] => .error .misuse
  | name :: arguments =>
    if name = Switch.help.name then .error (helpStop arguments)
    else if name ∈ names then
      let (given, extra) ← readWords (switchesOf name) [] arguments
      if extra = [] then ofGiven name given else .error .misuse
    else .error .misuse

end Command

end BotSpec
