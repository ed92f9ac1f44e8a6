import FlagServer.Schema.Basic

/-!
# The shapes of the language server protocol

The records that parameters are made of. Fields stand in the order in which an array would
list them. A record that the protocol composes of others is listed with all of its fields and
comes as an object only.
-/

namespace FlagServer.Shapes

open Schema (int32 nat32 numberOrText fields members)

/-! ## Places in documents -/

/-- A place between two characters. -/
def position : Schema :=
  fields [("line", .required, nat32), ("character", .required, nat32)]

/-- The text between two places. -/
def range : Schema :=
  fields [("start", .required, position), ("end", .required, position)]

/-- A range of a document. -/
def location : Schema :=
  fields [("uri", .required, .uri), ("range", .required, range)]

/-! ## Documents -/

/-- A document by its URL. -/
def documentId : Schema :=
  fields [("uri", .required, .uri)]

/-- A version of a document. -/
def versionedDocumentId : Schema :=
  fields [("uri", .required, .uri), ("version", .required, int32)]

/-- A document with its text. -/
def documentItem : Schema :=
  fields [("uri", .required, .uri), ("languageId", .required, .text),
    ("version", .required, int32), ("text", .required, .text)]

/-- A folder of the workspace. -/
def workspaceFolder : Schema :=
  fields [("uri", .required, .uri), ("name", .required, .text)]

/-! ## Fields that several records share -/

/-- A place in a document. -/
def documentPosition : List (String × Presence × Schema) :=
  [("textDocument", .required, documentId), ("position", .required, position)]

/-- The token for progress reports. -/
def workDone : List (String × Presence × Schema) :=
  [("workDoneToken", .optional, numberOrText)]

/-- The token for partial results. -/
def partialResult : List (String × Presence × Schema) :=
  [("partialResultToken", .optional, numberOrText)]

/-! ## The session -/

/-- A part of the client's capabilities, of which nothing is read. -/
def capabilityGroup : Schema :=
  members []

/-- What the client can do. -/
def clientCapabilities : Schema :=
  fields [("workspace", .optional, capabilityGroup),
    ("textDocument", .optional, capabilityGroup), ("window", .optional, capabilityGroup),
    ("general", .optional, capabilityGroup), ("experimental", .optional, .any)]

/-- Name and version of the client. -/
def clientInfo : Schema :=
  fields [("name", .required, .text), ("version", .optional, .text)]

/-- Parameters of the request that opens a session. -/
def sessionOpening : Schema :=
  members ([("processId", .nullable, nat32), ("rootPath", .optional, .text),
    ("rootUri", .nullable, .uri), ("initializationOptions", .optional, .any),
    ("capabilities", .required, clientCapabilities),
    ("trace", .optional, .word ["off", "messages", "verbose"]),
    ("workspaceFolders", .optional, .list workspaceFolder),
    ("clientInfo", .optional, clientInfo), ("locale", .optional, .text)] ++ workDone)

/-- A record without fields. -/
def empty : Schema :=
  fields []

/-- The request that is to be cancelled. -/
def cancel : Schema :=
  fields [("id", .required, numberOrText)]

/-- A line for the client's log. -/
def logMessage : Schema :=
  fields [("type", .required, int32), ("message", .required, .text)]

/-! ## Questions about a document -/

/-- What made the client ask for completions. -/
def completionContext : Schema :=
  fields [("triggerKind", .required, int32), ("triggerCharacter", .optional, .text)]

/-- Parameters of a completion. -/
def completion : Schema :=
  members (documentPosition ++ workDone ++ partialResult
    ++ [("context", .optional, completionContext)])

/-- Parameters of a hover. -/
def hover : Schema :=
  members (documentPosition ++ workDone)

/-- Parameters of a definition or a highlight. -/
def navigation : Schema :=
  members (documentPosition ++ workDone ++ partialResult)

/-- Whether the declaration counts as a reference. -/
def referenceContext : Schema :=
  fields [("includeDeclaration", .required, .bool)]

/-- Parameters of a search for references. -/
def references : Schema :=
  members (documentPosition ++ workDone ++ partialResult
    ++ [("context", .required, referenceContext)])

/-- How to format; any other key is a property of the client's own. -/
def formattingOptions : Schema :=
  .record false
    [("tabSize", .required, nat32), ("insertSpaces", .required, .bool),
      ("trimTrailingWhitespace", .optional, .bool), ("insertFinalNewline", .optional, .bool),
      ("trimFinalNewlines", .optional, .bool)]
    (some (.union [.bool, int32, .text]))

/-- Parameters of formatting a document. -/
def formatting : Schema :=
  members ([("textDocument", .required, documentId), ("options", .required, formattingOptions)]
    ++ workDone)

/-- Parameters of formatting a range. -/
def rangeFormatting : Schema :=
  members ([("textDocument", .required, documentId), ("range", .required, range),
    ("options", .required, formattingOptions)] ++ workDone)

/-- Parameters of formatting while typing. -/
def onTypeFormatting : Schema :=
  members (documentPosition
    ++ [("ch", .required, .text), ("options", .required, formattingOptions)])

/-- Parameters of a question about a symbol. -/
def symbolInfo : Schema :=
  fields documentPosition

/-- What is known of a symbol. -/
def symbolDetails : Schema :=
  fields [("name", .trailing, .text), ("containerName", .trailing, .text),
    ("usr", .trailing, .text), ("bestLocalDeclaration", .trailing, location),
    ("kind", .trailing, int32)]

/-! ## News about documents -/

/-- New settings of the client. -/
def didChangeConfiguration : Schema :=
  fields [("settings", .required, .any)]

/-- Folders that came and went. -/
def foldersEvent : Schema :=
  fields [("added", .required, .list workspaceFolder),
    ("removed", .required, .list workspaceFolder)]

/-- Parameters of a change of folders. -/
def didChangeWorkspaceFolders : Schema :=
  fields [("event", .required, foldersEvent)]

/-- Parameters of an opened document. -/
def didOpen : Schema :=
  fields [("textDocument", .required, documentItem)]

/-- Parameters of a closed document. -/
def didClose : Schema :=
  fields [("textDocument", .required, documentId)]

/-- One edit: a range replaced by a text, or the whole document. -/
def contentChange : Schema :=
  fields [("range", .optional, range), ("rangeLength", .optional, nat32),
    ("text", .required, .text)]

/-- Parameters of a changed document. -/
def didChange : Schema :=
  fields [("textDocument", .required, versionedDocumentId),
    ("contentChanges", .required, .list contentChange)]

/-- Parameters of a saved document. -/
def didSave : Schema :=
  fields [("textDocument", .required, documentId), ("text", .optional, .text)]

/-- Parameters of a document about to be saved. -/
def willSave : Schema :=
  fields [("textDocument", .required, documentId), ("reason", .required, int32)]

/-- A place that explains a diagnostic. -/
def relatedInformation : Schema :=
  fields [("location", .required, location), ("message", .required, .text)]

/-- Where a diagnostic's code is explained. -/
def codeDescription : Schema :=
  fields [("href", .required, .uri)]

/-- A remark on a range. -/
def diagnostic : Schema :=
  fields [("range", .required, range), ("severity", .optional, int32),
    ("code", .optional, numberOrText), ("codeDescription", .optional, codeDescription),
    ("source", .optional, .text), ("message", .required, .text),
    ("relatedInformation", .optional, .list relatedInformation),
    ("tags", .optional, .list int32), ("data", .optional, .any)]

/-- Parameters of the remarks on a document. -/
def publishDiagnostics : Schema :=
  fields [("uri", .required, .uri), ("diagnostics", .required, .list diagnostic),
    ("version", .optional, int32)]

/-- A file that changed on disk. -/
def fileEvent : Schema :=
  fields [("uri", .required, .uri), ("type", .required, int32)]

/-- Parameters of changes on disk. -/
def didChangeWatchedFiles : Schema :=
  fields [("changes", .required, .list fileEvent)]

end FlagServer.Shapes
