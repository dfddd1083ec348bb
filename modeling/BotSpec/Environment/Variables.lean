/-!
# Environment variables

Variables by name. A variable that has a value keeps it: `define` adds only new names.
-/

namespace BotSpec

structure Variables where
  entries : List (String × String)
  deriving DecidableEq

namespace Variables

/-- The value of a variable. -/
def get? (vs : Variables) (name : String) : Option String :=
  (vs.entries.find? fun e => e.1 = name).map fun e => e.2

/-- The variables with one more, unless it has a value already. -/
def define (vs : Variables) (name value : String) : Variables :=
  if (vs.get? name).isSome then vs else ⟨vs.entries ++ [(name, value)]⟩

end Variables

end BotSpec
