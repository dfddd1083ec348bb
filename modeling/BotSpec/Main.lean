import BotSpec.Command.Run

/-!
# The program

The outer layer: it looks up what a command needs, and prints what comes of it.
-/

namespace BotSpec

/-- The text of a file, if it can be read. -/
def readText? (path : String) : IO (Option String) := do
  try return some (← IO.FS.readFile path) catch _ => return none

/-- The nearest environment file, in the working directory or above it. -/
def readEnvironment : IO (Option String) := do
  let mut folder := some (← IO.currentDir)
  for _ in [0:64] do
    match folder with
    | none => return none
    | some path =>
      if let some text ← readText? (path / World.environmentFile).toString then return some text
      folder := path.parent
  return none

/-- What stands at the path of a knowledge base. -/
def readBase (path : String) : IO StoredBase := do
  if path = "" then return .absent
  if ← ((← IO.currentDir) / path).isDir then return .directory
  try return .ofBytes (← IO.FS.readBinFile path) catch _ => return .absent

/-- The variables of the environment that matter. -/
def readVariables : IO Variables := do
  match ← IO.getEnv World.basePathVariable with
  | some path => return ⟨[(World.basePathVariable, path)]⟩
  | none => return ⟨[]⟩

/-- What a command finds: only the files that it names are read. -/
def lookAround (command : Command) : IO World := do
  let shared ← readEnvironment
  let own ← readVariables
  let world : World :=
    { input := ""
      file? := fun path => if path = World.environmentFile then shared else none
      environment := own
      base := fun _ => .absent }
  match command with
  | .render (.file "-") _ _ _ => return { world with input := ← (← IO.getStdin).readToEnd }
  | .render (.file path) _ _ _ =>
    let text ← readText? path
    return { world with file? := fun p => if p = path then text else world.file? p }
  | .render (.row _) _ _ _ | .top _ _ =>
    let base ← readBase world.basePath
    return { world with base := fun _ => base }
  | _ => return world

/-- What is said on help. -/
def usage : String :=
  "Usage: poly-spec [--verbose] render (--input FILE | --id ID) [--mode MODE] [--interval INTERVAL] [--json]\n" ++
    "       poly-spec [--verbose] top [--limit N] [--sort-by COLUMN]\n" ++
    "       poly-spec [--verbose] variants\n" ++
    "       poly-spec [--verbose] serve [--host HOST] [--port PORT]\n"

/-- Prints an outcome and gives its exit code. -/
def report (outcome : Outcome) : IO UInt32 := do
  IO.print outcome.output
  match outcome with
  | .failed _ => IO.eprintln (outcome.errorLine.getD "")
  | .misused => IO.eprint usage
  | .helped => IO.print usage
  | .serving host port => IO.eprintln s!"no listener for {host}:{port} is built in"
  | .crashed fault => IO.eprintln fault.message
  | .printed _ => pure ()
  return UInt32.ofNat outcome.code

end BotSpec

open BotSpec in
def main (words : List String) : IO UInt32 := do
  match Command.parse words with
  | .ok command => report (command.run (← lookAround command))
  | .error .misuse => report .misused
  | .error .help => report .helped
