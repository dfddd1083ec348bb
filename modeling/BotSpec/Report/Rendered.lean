import BotSpec.Report.Sections
import BotSpec.Report.Table
import BotSpec.Text.Blank
import BotSpec.Text.Fold

/-!
# Rendered specifications

A specification is rendered as a table or as a document. `Brief.render` writes either one, and fails
only when a worked example is too large for a decimal.
-/

namespace BotSpec

inductive RenderMode where
  | table
  | document
  deriving DecidableEq

/-- A mode that is not known, in its folded spelling. -/
structure UnknownMode where
  spelling : String
  deriving DecidableEq

def UnknownMode.message (u : UnknownMode) : String :=
  s!"unknown render mode `{u.spelling}` (expected table or document)"

namespace RenderMode

def text : RenderMode → String
  | table => "table"
  | document => "document"

/-- The mode that a word names, with blanks around it and in any case. -/
def parse (word : String) : Except UnknownMode RenderMode :=
  let spelling := Text.lowerText (Text.trim word)
  if spelling ∈ ["table", "rows"] then .ok table
  else if spelling ∈ ["document", "doc", "text"] then .ok document
  else .error ⟨spelling⟩

/-- The mode of a request that may leave it open: a table. -/
def ofRequest : Option String → Except UnknownMode RenderMode
  | none => .ok table
  | some word => parse word

end RenderMode

inductive Rendered where
  | table (table : SpecTable)
  | document (text : String)
  deriving DecidableEq

def Brief.render (b : Brief) (mode : RenderMode) : Except Decimal.Fault Rendered :=
  match mode with
  | .table => do return .table (← b.table)
  | .document => do return .document (← b.document).text

namespace Rendered

/-- The specification as it is printed on a terminal. -/
def plain : Rendered → String
  | table t => t.text
  | document text => text

def rowJson (r : SpecRow) : Json :=
  .object
    [("parameter", .string r.parameter), ("value", .string r.value),
      ("description", .string r.description)]

def toJson : Rendered → Json
  | table t =>
    .object
      [("mode", .string RenderMode.table.text), ("strategy_name", .string t.strategyName),
        ("rows", .array (t.rows.map rowJson)),
        ("diagnostics", .array (t.diagnostics.map Diagnostic.toJson))]
  | document text => .object [("mode", .string RenderMode.document.text), ("text", .string text)]

end Rendered

end BotSpec
