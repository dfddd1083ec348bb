import BotSpec.Catalogue.Encoding
import BotSpec.Digest.Sha256
import BotSpec.Knowledge.Ranking
import BotSpec.Knowledge.Record
import BotSpec.Report.Rendered
import BotSpec.Service.Request
import BotSpec.Text.Split

/-!
# Answers

`Service.answer` is the answer of the service to a request. A document carries a tag, the quoted
digest of its text; a client that lists this tag, or a star, is told to use what it has. Of several
faults in a request the first counts: the mode, then the knowledge base, then the row or record.
-/

namespace BotSpec

/-- The service, with or without a knowledge base. -/
structure Service where
  base : Option KnowledgeBase

namespace Service

open Response (failure)

def serviceName : String := "poly-spec"

def version : String := "1.0.0"

def noBaseMessage : String := "knowledge base unavailable"

/-- What is said of a record that cannot be read; the reader's own words are left open. -/
def badRecordMessage : String := "strategy record is not valid JSON:"

/-- What is said of an id without a row. -/
def noRowMessage (id : Int) : String := s!"no strategy with id {Text.intText id}"

/-! ## Tags -/

/-- The tag of a document. -/
def etag (text : String) : String := "\"" ++ Digest.sha256Hex text ++ "\""

/-- Whether the characters of a header can be read: visible ASCII, spaces and tabs. -/
def isReadable (header : String) : Bool :=
  header.toList.all fun c => c = '\t' || (' ' ≤ c && c ≤ '~')

/-- The elements of a list in a header, without the blanks around them. -/
def headerElements (header : String) : List String :=
  (Text.pieces ',' header.toList).map fun cs => String.ofList (Text.trimChars cs)

/-- Whether a client that sends a header has the document with a tag. -/
def hasTag (ifNoneMatch : Option String) (tag : String) : Bool :=
  match ifNoneMatch with
  | none => false
  | some header =>
    isReadable header && (headerElements header).any fun e => e = tag || e = "*"

/-! ## Specifications -/

/-- The full answer with a specification. -/
def specification (r : StrategyRecord) (rendered : Rendered) (tag : Option String) : Response :=
  .ok
    [("success", .bool true), ("strategy_name", .string r.name), ("data", rendered.toJson),
      ("diagnostics", .array (r.diagnostics.map Diagnostic.toJson))] tag

/-- The answer for a record in a mode. -/
def answerRecord (r : StrategyRecord) (mode : RenderMode) (ifNoneMatch : Option String) :
    Except Decimal.Fault Response := do
  let rendered ← Brief.render ⟨r, .standard⟩ mode
  match rendered with
  | .table _ => return specification r rendered none
  | .document text =>
    let tag := etag text
    return if hasTag ifNoneMatch tag then .notModified else specification r rendered (some tag)

/-! ## Requests -/

def answerHealth (s : Service) : Response :=
  ⟨200, none, some (.object
    [("status", .string "ok"), ("service", .string serviceName), ("version", .string version),
      ("knowledge_base", .bool s.base.isSome)])⟩

/-- A list with its length. -/
def listing (items : List Json) : Response :=
  .ok [("success", .bool true), ("total", .whole items.length), ("data", .array items)] none

/-- How many strategies a request gets: twenty if it does not say, at least one, at most five
hundred. -/
def topLimit (limit : Option Int) : Int := max 1 (min 500 (limit.getD 20))

def answerTop (s : Service) (limit : Option Int) (sortBy : Option String) : Response :=
  match s.base with
  | none => failure 503 noBaseMessage
  | some kb =>
    match kb.top (topLimit limit) sortBy with
    | .ok rows => listing (rows.map BacktestRow.toJson)
    | .error misfit => failure 500 s!"Failed to query top strategies: {misfit.message}"

def answerRender (body : Json) (q : RenderQuery) : Except Decimal.Fault Response :=
  match RenderMode.ofRequest q.mode with
  | .error unknown => .ok (failure 400 unknown.message)
  | .ok mode =>
    match StrategyRecord.ofJson body with
    | .error _ => .ok (failure 400 badRecordMessage)
    | .ok r => answerRecord r mode q.ifNoneMatch

def answerById (s : Service) (id : Int) (q : RenderQuery) : Except Decimal.Fault Response :=
  match RenderMode.ofRequest q.mode with
  | .error unknown => .ok (failure 400 unknown.message)
  | .ok mode =>
    match s.base with
    | none => .ok (failure 503 noBaseMessage)
    | some kb =>
      match kb.get? id with
      | .error misfit => .ok (failure 500 s!"Failed to load strategy: {misfit.message}")
      | .ok none => .ok (failure 404 (noRowMessage id))
      | .ok (some row) => answerRecord (.ofRow row) mode q.ifNoneMatch

/-- The answer to a request. It is missing only when a number in a specification is too large. -/
def answer (s : Service) : Request → Except Decimal.Fault Response
  | .health => .ok s.answerHealth
  | .variants => .ok (listing (Variant.all.map Variant.toJson))
  | .top limit sortBy => .ok (s.answerTop limit sortBy)
  | .render body query => answerRender body query
  | .byId id query => s.answerById id query

end Service

end BotSpec
