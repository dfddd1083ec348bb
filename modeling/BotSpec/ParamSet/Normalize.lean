import BotSpec.ParamSet.Basic
import BotSpec.Json.Reader
import BotSpec.Binary64.Text
import BotSpec.Text.Blank

/-!
# Parameter payloads

Stored parameters come in several shapes: an object, a JSON text of an object (to any depth of
quoting), an object wrapped under a single key, or an object with other entries beside the
parameters. `normalize` brings all of them to a set of finite numbers; numbers may stand as strings.
-/

namespace BotSpec.ParamSet

/-- Why a payload holds no parameters. -/
inductive Malformed where
  /-- A text in the payload is not JSON. -/
  | notJson
  /-- The payload is a value of another kind, named with its article. -/
  | notAnObject (kind : String)
  deriving DecidableEq

/-- The message of a payload of the wrong kind; the wording for a text that is not JSON is open. -/
def Malformed.message : Malformed → String
  | .notJson => "not valid JSON"
  | .notAnObject kind => "expected a JSON object, got " ++ kind

/-- A whole number as a double. -/
def wholeFloat (n : Int) : Float :=
  if n < 0 then -(nearestFloat n.natAbs 1) else nearestFloat n.natAbs 1

/-- The finite number that a value holds as a number or as a numeral in a string. -/
def numeric? (j : Json) : Option Float :=
  let x :=
    match j with
    | .whole n => some (wholeFloat n)
    | .real x => some x
    | .string s => Binary64.readFloat? (Text.trimChars s.toList)
    | _ => none
  x.filter Float.isFinite

/-- The numeric entries of an object. A single entry whose value is an object is a wrapper around
it. -/
def flatten : List (String × Json) → ParamSet
  | [(_, .object inner)] => flatten inner
  | members => ofList (members.filterMap fun m => (numeric? m.2).map fun x => (m.1, x))

/-- The parameters of a payload, or why there are none. An absent payload is an empty set. -/
def normalize? (payload : Json) : Except Malformed ParamSet :=
  match payload with
  | .null => .ok empty
  | .object members => .ok (flatten members)
  | .string text => ofText text
  | other => .error (.notAnObject other.kindName)
where
  /-- The parameters of a JSON text. -/
  ofText (text : String) : Except Malformed ParamSet :=
    match h : Json.parse text with
    | .error _ => .error .notJson
    | .ok (.object members) => .ok (flatten members)
    | .ok (.string inner) =>
      have := Json.parse_string_length h
      ofText inner
    | .ok other => .error (.notAnObject other.kindName)
  termination_by text.length

/-- The parameters of a payload; a malformed payload has none. -/
def normalize (payload : Json) : ParamSet :=
  match normalize? payload with
  | .ok p => p
  | .error _ => empty

end BotSpec.ParamSet
