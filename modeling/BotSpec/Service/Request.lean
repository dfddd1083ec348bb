import BotSpec.Json.Basic

/-!
# Requests and responses

The five requests that the service answers, and what an answer consists of. A request is what is
left of it once its path is known: how it is sent, static files and logging are no part of this, and
of its headers one alone has a say.
-/

namespace BotSpec.Service

/-- How a specification is asked for. -/
structure RenderQuery where
  /-- The word for the mode; a table if it is left out. -/
  mode : Option String
  /-- The tags of the documents that the client already has. -/
  ifNoneMatch : Option String
  deriving DecidableEq

inductive Request where
  | health
  | variants
  | top (limit : Option Int) (sortBy : Option String)
  /-- The specification of a record that comes with the request. -/
  | render (body : Json) (query : RenderQuery)
  /-- The specification of a row of the knowledge base. -/
  | byId (id : Int) (query : RenderQuery)

structure Response where
  status : Nat
  etag : Option String
  /-- Absent in an answer that tells the client to use what it has. -/
  body : Option Json

namespace Response

/-- A full answer. -/
def ok (members : List (String × Json)) (etag : Option String) : Response :=
  ⟨200, etag, some (.object members)⟩

/-- An answer that says what went wrong. -/
def failure (status : Nat) (message : String) : Response :=
  ⟨status, none, some (.object [("success", .bool false), ("error", .string message)])⟩

/-- The client already has the current document. -/
def notModified : Response := ⟨304, none, none⟩

end Response

end BotSpec.Service
