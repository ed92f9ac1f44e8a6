import FlagServer.Build.Basic
import FlagServer.Protocol.Catalogue

/-!
# Engines

An engine analyses documents. The server tells it what happens to them and what their settings
are, and passes questions on to it. An engine has a state `ε` of its own.
-/

namespace FlagServer

/-! ## Questions for the engine

The server does not analyse anything itself. A request that asks about a document is a question
for the engine, and all that the server has to know of it is which document that is.
-/

/-- A request that the engine answers. -/
structure SemanticRequest where
  /-- The method. -/
  method : String
  /-- The document that it asks about. -/
  document : Url
  /-- The parameters. -/
  params : Datum

namespace SemanticRequest

/-- The methods that the engine answers. -/
def methods : List Method :=
  [Catalogue.completion, Catalogue.hover, Catalogue.definition, Catalogue.references,
    Catalogue.documentHighlight, Catalogue.formatting, Catalogue.rangeFormatting,
    Catalogue.onTypeFormatting, Catalogue.symbolInfo]

/-- The document that parameters name. -/
def documentOf? (params : Datum) : Option Url :=
  ((params.get? "textDocument").bind (Datum.get? "uri")).bind Datum.uri?

/-- The question that a request is; any other request is handed back. -/
def ofIncoming (r : IncomingRequest) : Except IncomingRequest (RequestId × SemanticRequest) :=
  if methods.any r.is then
    match documentOf? r.params with
    | some document => .ok (r.id, { method := r.method, document, params := r.params })
    | none => .error r
  else .error r

end SemanticRequest

/-! ## The engine and its documents -/

/-- A document that was opened. -/
structure TextDocument where
  /-- Where it is. -/
  uri : Url
  /-- The id of its language. -/
  languageId : String
  /-- Its version. -/
  version : Int
  /-- Its text. -/
  text : String

namespace TextDocument

/-- The document that a datum describes. -/
def ofDatum? (d : Datum) : Option TextDocument := do
  let uri ← (d.get? "uri").bind Datum.uri?
  let languageId ← (d.get? "languageId").bind Datum.text?
  let version ← (d.get? "version").bind Datum.int?
  let text ← (d.get? "text").bind Datum.text?
  return { uri, languageId, version, text }

end TextDocument

/-- What an engine can do. -/
structure Engine (ε : Type) where
  /-- A document was opened. -/
  opened : TextDocument → Option Settings → ε → ε
  /-- A document was edited. -/
  changed : Datum → ε → ε
  /-- A document was closed. -/
  closed : Url → ε → ε
  /-- The settings of an open document may have changed. -/
  settingsChanged : Url → Option Settings → ε → ε
  /-- Answers a question, given whether it has been cancelled; nothing while that takes
  time. -/
  answer : Bool → SemanticRequest → Option Settings → ε →
    Option (Except ResponseError Json × ε)

/-- The engine that answers every question with null and keeps nothing. -/
def Engine.silent : Engine Unit where
  opened _ _ e := e
  changed _ e := e
  closed _ e := e
  settingsChanged _ _ e := e
  answer _ _ _ e := some (.ok .null, e)

end FlagServer
