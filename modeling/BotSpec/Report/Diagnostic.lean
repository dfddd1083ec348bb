import BotSpec.Catalogue.Canonical
import BotSpec.Record.Encoding

/-!
# Diagnostics

What is wrong with a record without keeping its specification from being written: parameters that
could not be read, a type that is not known, and parameters of a known type that have no value. A
specification shows them in this order.
-/

namespace BotSpec

inductive Diagnostic where
  /-- The parameters could not be read and count as empty. -/
  | malformedInput
  | unknownVariant (tag : String)
  | missingParameter (name : String)
  deriving DecidableEq

namespace Diagnostic

def message : Diagnostic → String
  | malformedInput => "strategy_params could not be parsed, treated as empty"
  | unknownVariant tag => s!"unknown strategy type `{tag}`"
  | missingParameter name => s!"parameter `{name}` is missing"

def toJson : Diagnostic → Json
  | malformedInput => .object [("kind", .string "malformed_input")]
  | unknownVariant tag => .object [("kind", .string "unknown_variant"), ("tag", .string tag)]
  | missingParameter name =>
    .object [("kind", .string "missing_parameter"), ("name", .string name)]

end Diagnostic

/-- A known strategy type with the parameters that a record gives it. -/
structure Subject where
  variant : Variant
  params : CanonicalParams

namespace StrategyRecord

/-- The type of a record, if it is known. -/
def subject (r : StrategyRecord) : Except UnknownType Subject :=
  match Variant.resolve r.type with
  | .ok v => .ok ⟨v, v.canonicalize r.params⟩
  | .error unknown => .error unknown

/-- The diagnostics of the type and its parameters. -/
def subjectDiagnostics (r : StrategyRecord) : List Diagnostic :=
  match r.subject with
  | .ok s => s.params.missing.map .missingParameter
  | .error unknown => [.unknownVariant unknown.tag]

/-- All diagnostics of a record. -/
def diagnostics (r : StrategyRecord) : List Diagnostic :=
  (if r.malformedParams then [.malformedInput] else []) ++ r.subjectDiagnostics

end StrategyRecord

end BotSpec
