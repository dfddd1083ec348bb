/-!
# JSON values

The value type of everything that comes in or goes out as JSON. A number without point and exponent
that fits 64 bits is `whole`, any other one `real`. An object lists its members; `ofMembers` keeps
one member per key, the last one given.
-/

namespace BotSpec

inductive Json where
  | null
  | bool (value : Bool)
  | whole (value : Int)
  | real (value : Float)
  | string (value : String)
  | array (items : List Json)
  | object (members : List (String × Json))
  deriving Inhabited

namespace Json

/-- The value at a key of a member list. -/
def lookup (key : String) : List (String × Json) → Option Json
  | [] => none
  | (k, v) :: rest => if k = key then some v else lookup key rest

/-- A member list with one member added; a member of the same key is replaced. -/
def putMember (members : List (String × Json)) (key : String) (value : Json) :
    List (String × Json) :=
  match members with
  | [] => [(key, value)]
  | (k, v) :: rest => if k = key then (key, value) :: rest else (k, v) :: putMember rest key value

/-- Members in the order of their first appearance, each with the last value given for its key. -/
def ofMembers (members : List (String × Json)) : List (String × Json) :=
  members.foldl (fun acc m => putMember acc m.1 m.2) []

/-- The value at a key of an object. -/
def get? (j : Json) (key : String) : Option Json :=
  match j with
  | .object members => lookup key members
  | _ => none

/-- What kind of value it is, with its article. -/
def kindName : Json → String
  | .null => "null"
  | .bool _ => "a boolean"
  | .whole _ => "a number"
  | .real _ => "a number"
  | .string _ => "a string"
  | .array _ => "an array"
  | .object _ => "an object"

end Json

end BotSpec
