import BotSpec.Catalogue.Variant
import BotSpec.Json.Basic

/-!
# Variants as JSON

A variant is an object with its tag, its name and its kind: an atomic variant has one `component`, a
composite has `components` and a `mode`.
-/

namespace BotSpec

def ParamSpec.toJson (spec : ParamSpec) : Json :=
  .object
    [("name", .string spec.name), ("role", .string spec.role.key),
      ("aliases", .array (spec.aliases.map .string)), ("description", .string spec.description)]

def Component.toJson (c : Component) : Json :=
  .object
    [("indicator", .string c.indicator.key), ("params", .array (c.params.map ParamSpec.toJson))]

def Variant.toJson (v : Variant) : Json :=
  let kind :=
    match v.makeup with
    | .atomic c => [("kind", .string "atomic"), ("component", c.toJson)]
    | .composite cs m =>
      [("kind", .string "composite"), ("components", .array (cs.map Component.toJson)),
        ("mode", .string m.key)]
  .object ([("tag", .string v.tag.key), ("name", .string v.name)] ++ kind)

end BotSpec
