import BotSpec.Command.Address
import BotSpec.Command.Arguments
import BotSpec.Environment.Assignment
import BotSpec.Json.Printer
import BotSpec.Knowledge.Stored
import BotSpec.Service.Answer
import BotSpec.Text.Padding

/-!
# Running a command

`Command.run` says what a command prints, as a function of the `World` it finds: the standard input,
files, environment variables and the knowledge bases at paths. `World.run` starts from the words of
a command line. Of what is said about a failure only the first line is kept, and of a command line
that makes no command only that it does not.
-/

namespace BotSpec

/-- What a command finds. -/
structure World where
  input : String
  /-- The text of a readable file. -/
  file? : String → Option String
  environment : Variables
  base : String → StoredBase

inductive Outcome where
  | printed (text : String)
  /-- The first line of what is said on failure. -/
  | failed (message : String)
  /-- The words of the command line make no command. -/
  | misused
  | helped
  /-- The service runs until it is stopped. -/
  | serving (host : String) (port : Nat)
  /-- A number in a specification is too large. -/
  | crashed (fault : Decimal.Fault)

/-- The exit code. -/
def Outcome.code : Outcome → Nat
  | printed _ => 0
  | failed _ => 1
  | misused => 2
  | helped => 0
  | serving _ _ => 0
  | crashed _ => 101

/-- What is printed to the standard output. -/
def Outcome.output : Outcome → String
  | printed text => text
  | _ => ""

/-- The line on the standard error of a failed command. -/
def Outcome.errorLine : Outcome → Option String
  | failed message => some s!"Error: {message}"
  | _ => none

namespace World

/-- The variable that holds the path of the knowledge base. -/
def basePathVariable : String := "POLY_SPEC_DB_PATH"

def defaultBasePath : String := "data/discovery.db"

/-- The file whose variables are added to those of the environment. -/
def environmentFile : String := ".env"

/-- All variables. -/
def allVariables (w : World) : Variables :=
  match w.file? environmentFile with
  | some text => w.environment.load text
  | none => w.environment

/-- The path of the knowledge base. -/
def basePath (w : World) : String := (w.allVariables.get? basePathVariable).getD defaultBasePath

/-- The knowledge base. -/
def readBase (w : World) : Except String KnowledgeBase := (w.base w.basePath).read w.basePath

end World

namespace Command

/-- The record of a source, or what is said if it cannot be had. -/
def readRecord (w : World) : RecordSource → Except String StrategyRecord
  | .file path =>
    match (if path = "-" then some w.input else w.file? path) with
    | none => .error s!"reading {path}"
    | some text =>
      match StrategyRecord.ofText text with
      | .ok r => .ok r
      | .error _ => .error s!"parsing {path}"
  | .row id => do
    let kb ← w.readBase
    match kb.get? id with
    | .error misfit => .error misfit.message
    | .ok (some row) => return .ofRow row
    | .ok none => .error s!"{Service.noRowMessage id} in {w.basePath}"

/-- The terms of a specification for a candle interval. -/
def termsFor (interval : String) : SpecTerms :=
  { SpecTerms.standard with settings := { BotSettings.standard with interval } }

/-- A specification as it is printed. -/
def printRendered (rendered : Rendered) (json : Bool) : String :=
  if json then rendered.toJson.pretty ++ "\n" else rendered.plain

def runRender (w : World) (source : RecordSource) (mode : RenderMode) (interval : String)
    (json : Bool) : Outcome :=
  match readRecord w source with
  | .error message => .failed message
  | .ok r =>
    match Brief.render ⟨r, termsFor interval⟩ mode with
    | .ok rendered => .printed (printRendered rendered json)
    | .error fault => .crashed fault

/-! ## Lists -/

/-- A line of the list of strategies. -/
def strategyLine (id name type symbol score pnl : String) : String :=
  s!"{Text.padLeft 6 id}  {Text.padRight 28 name} {Text.padRight 22 type} {Text.padRight 10 symbol} {Text.padLeft 8 score} {Text.padLeft 10 pnl}\n"

def rowLine (row : BacktestRow) : String :=
  let c := row.cells
  strategyLine ((row.id.map Text.intText).getD "") c.strategyName c.strategyType c.symbol
    c.compositeScore c.netPnl

def runTop (w : World) (limit : Int) (sortBy : Option String) : Outcome :=
  match w.readBase with
  | .error message => .failed message
  | .ok kb =>
    match kb.top limit sortBy with
    | .error misfit => .failed misfit.message
    | .ok rows =>
      .printed
        (strategyLine "Id" "Strategy" "Type" "Symbol" "Score" "Net PnL" ++ Text.dashes 90 ++ "\n" ++
          String.join (rows.map rowLine))

/-- A line of the list of strategy types. -/
def variantLine (v : Variant) : String :=
  let kind := (v.mode.map CompositionMode.displayName).getD "atomic"
  let params := ", ".intercalate (v.schema.map ParamSpec.name)
  s!"{Text.padRight 24 v.tag.key} {Text.padRight 36 v.name} {Text.padRight 18 kind} {params}\n"

/-! ## Commands -/

/-- What a command prints. -/
def run (w : World) : Command → Outcome
  | .render source mode interval json => runRender w source mode interval json
  | .top limit sortBy => runTop w limit sortBy
  | .variants => .printed (String.join (Variant.all.map variantLine))
  | .serve host port =>
    if isAddress host then .serving host port else .failed "invalid socket address syntax"

end Command

/-- What comes of the words of a command line. -/
def World.run (w : World) (words : List String) : Outcome :=
  match Command.parse words with
  | .ok command => command.run w
  | .error .misuse => .misused
  | .error .help => .helped

end BotSpec
