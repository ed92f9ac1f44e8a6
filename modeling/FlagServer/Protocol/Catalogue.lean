import FlagServer.Protocol.Registry
import FlagServer.Protocol.Shapes

/-!
# The methods of the server

Every request and notification that the server knows. The result of a request that this side
only answers is opaque: the client reads it.
-/

namespace FlagServer.Catalogue

/-- A request. -/
def request (name : String) (params : PayloadType) (result : PayloadType) : Method :=
  ⟨name, .request, params, some result⟩

/-- A notification. -/
def notification (name : String) (params : PayloadType) : Method :=
  ⟨name, .notification, params, none⟩

/-- The type of nothing. -/
def unit : PayloadType := ⟨"unit", .unit⟩

/-- A result that the other side reads. -/
def opaqueResult (name : String) : PayloadType := ⟨name, .any⟩

/-! ## Requests -/

/-- Opens the session. -/
def initializeSession : Method :=
  request "initialize" ⟨"InitializeParams", Shapes.sessionOpening⟩ (opaqueResult "InitializeResult")

/-- Ends the session. -/
def shutdown : Method :=
  request "shutdown" unit unit

/-- Asks for the folders of the workspace. -/
def workspaceFolders : Method :=
  request "workspace/workspaceFolders" unit
    ⟨"WorkspaceFolder list or null", .option (.list Shapes.workspaceFolder)⟩

/-- Completions at a place. -/
def completion : Method :=
  request "textDocument/completion" ⟨"CompletionParams", Shapes.completion⟩
    (opaqueResult "CompletionResponse")

/-- What to show at a place. -/
def hover : Method :=
  request "textDocument/hover" ⟨"HoverParams", Shapes.hover⟩ (opaqueResult "Hover")

/-- Where something is defined. -/
def definition : Method :=
  request "textDocument/definition" ⟨"DefinitionParams", Shapes.navigation⟩
    (opaqueResult "DefinitionResponse")

/-- Where something is used. -/
def references : Method :=
  request "textDocument/references" ⟨"ReferenceParams", Shapes.references⟩
    (opaqueResult "Location list")

/-- Where something occurs in the document. -/
def documentHighlight : Method :=
  request "textDocument/documentHighlight" ⟨"DocumentHighlightParams", Shapes.navigation⟩
    (opaqueResult "DocumentHighlight list")

/-- Formats a document. -/
def formatting : Method :=
  request "textDocument/formatting" ⟨"DocumentFormattingParams", Shapes.formatting⟩
    (opaqueResult "TextEdit list")

/-- Formats a range. -/
def rangeFormatting : Method :=
  request "textDocument/rangeFormatting" ⟨"DocumentRangeFormattingParams", Shapes.rangeFormatting⟩
    (opaqueResult "TextEdit list")

/-- Formats while typing. -/
def onTypeFormatting : Method :=
  request "textDocument/onTypeFormatting"
    ⟨"DocumentOnTypeFormattingParams", Shapes.onTypeFormatting⟩ (opaqueResult "TextEdit list")

/-- Describes the symbol at a place. -/
def symbolInfo : Method :=
  request "textDocument/symbolInfo" ⟨"TextDocumentPositionParams", Shapes.symbolInfo⟩
    ⟨"SymbolDetails list", .list Shapes.symbolDetails⟩

/-- The requests, in order. -/
def requests : List Method :=
  [initializeSession, shutdown, workspaceFolders, completion, hover, definition, references,
    documentHighlight, formatting, rangeFormatting, onTypeFormatting, symbolInfo]

/-! ## Notifications -/

/-- The client has seen the answer that opens the session. -/
def initialized : Method :=
  notification "initialized" ⟨"InitializedParams", Shapes.empty⟩

/-- The server is to stop. -/
def exit : Method :=
  notification "exit" unit

/-- A request is no longer wanted. -/
def cancel : Method :=
  notification "$/cancelRequest" ⟨"CancelParams", Shapes.cancel⟩

/-- A line for the client's log. -/
def logMessage : Method :=
  notification "window/logMessage" ⟨"LogMessageParams", Shapes.logMessage⟩

/-- The client's settings changed. -/
def didChangeConfiguration : Method :=
  notification "workspace/didChangeConfiguration"
    ⟨"DidChangeConfigurationParams", Shapes.didChangeConfiguration⟩

/-- The folders of the workspace changed. -/
def didChangeWorkspaceFolders : Method :=
  notification "workspace/didChangeWorkspaceFolders"
    ⟨"DidChangeWorkspaceFoldersParams", Shapes.didChangeWorkspaceFolders⟩

/-- A document was opened. -/
def didOpen : Method :=
  notification "textDocument/didOpen" ⟨"DidOpenTextDocumentParams", Shapes.didOpen⟩

/-- A document was closed. -/
def didClose : Method :=
  notification "textDocument/didClose" ⟨"DidCloseTextDocumentParams", Shapes.didClose⟩

/-- A document was edited. -/
def didChange : Method :=
  notification "textDocument/didChange" ⟨"DidChangeTextDocumentParams", Shapes.didChange⟩

/-- A document was saved. -/
def didSave : Method :=
  notification "textDocument/didSave" ⟨"DidSaveTextDocumentParams", Shapes.didSave⟩

/-- A document is about to be saved. -/
def willSave : Method :=
  notification "textDocument/willSave" ⟨"WillSaveTextDocumentParams", Shapes.willSave⟩

/-- Remarks on a document. -/
def publishDiagnostics : Method :=
  notification "textDocument/publishDiagnostics"
    ⟨"PublishDiagnosticsParams", Shapes.publishDiagnostics⟩

/-- Files changed on disk. -/
def didChangeWatchedFiles : Method :=
  notification "workspace/didChangeWatchedFiles"
    ⟨"DidChangeWatchedFilesParams", Shapes.didChangeWatchedFiles⟩

/-- The notifications, in order. -/
def notifications : List Method :=
  [initialized, exit, cancel, logMessage, didChangeConfiguration, didChangeWorkspaceFolders,
    didOpen, didClose, didChange, didSave, willSave, publishDiagnostics, didChangeWatchedFiles]

/-- The registry of everything that the server knows. -/
def registry : Registry :=
  (({} : Registry).registerAll requests).registerAll notifications

end FlagServer.Catalogue
