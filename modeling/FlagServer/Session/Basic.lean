import FlagServer.Build.System
import FlagServer.Message.Envelope
import FlagServer.Session.Engine
import FlagServer.Session.Line

/-!
# Sessions

A session is what the server knows of its one client: how far the two have come, which build
system serves the workspace, and which documents are open. It begins with the client's first
request and ends with its last, and the exit code says whether the client took leave. Messages
that are handled side by side share it, so there is a line before each of its parts.
-/

namespace FlagServer

/-- How far a session has come. It only ever moves forward. -/
inductive Lifecycle where
  | uninitialized
  | initializing
  | initialized
  | shutDown
  deriving DecidableEq

/-- What a session keeps, with the states of an engine `ε` and a manifest `μ`. -/
structure Session (ε μ : Type) where
  /-- How far it has come. -/
  lifecycle : Lifecycle := .uninitialized
  /-- The build system, once it is chosen. -/
  buildSystem : Option BuildSystem := none
  /-- The open documents. -/
  documents : Languages := []
  /-- The client took leave. -/
  shutdownReceived : Bool := false
  /-- The state of the engine. -/
  engine : ε
  /-- The state of the manifest. -/
  manifest : μ
  /-- The disk. -/
  disk : FileSystem
  /-- Who uses what of this, and who waits. -/
  lines : Lines := {}

/-- What a session is given: an engine, perhaps a manifest, and options. -/
structure Host (ε μ : Type) where
  /-- The engine. -/
  engine : Engine ε
  /-- The manifest. -/
  manifest : Option (Manifest μ)
  /-- The options of the command line. -/
  defaults : Options

namespace Session

variable {ε μ : Type}

/-- The exit code: 0 if the client took leave. -/
def exitCode (s : Session ε μ) : UInt32 :=
  if s.shutdownReceived then 0 else 1

/-- The listener that a session gives to its build system. -/
def listener : Listener := ⟨"session"⟩

/-- The language of a document: the one it was opened with, else the one that its name
suggests. -/
def languageOf (s : Session ε μ) (uri : Url) : Language :=
  match s.documents.get? uri with
  | some language => language
  | none => (uri.filePath?.bind Language.ofPath?).getD (.other "unknown")

/-- The open ones among some files, with their languages. -/
def openAmong (s : Session ε μ) (files : List Url) : Languages :=
  files.filterMap fun uri => (s.documents.get? uri).map fun language => (uri, language)

/-! ## Lines -/

/-- The session with another line before a resource. -/
def withLine (s : Session ε μ) (r : Resource) (line : Line) : Session ε μ :=
  { s with lines := s.lines.set r line }

/-- A resource is taken in hand. -/
def hold (s : Session ε μ) (r : Resource) (use : Use) : Session ε μ :=
  s.withLine r ((s.lines.get r).take use)

/-- A resource is let go. -/
def release (s : Session ε μ) (r : Resource) (use : Use) : Session ε μ :=
  s.withLine r ((s.lines.get r).release use)

/-! ## Opening -/

/-- The root of the workspace: the root's URL, else its path, else the first folder. A URL that
is no local file gives none. -/
def workspaceRoot? (params : Datum) : Option Path :=
  match (params.get? "rootUri").bind Datum.uri? with
  | some uri => uri.filePath?
  | none =>
    match (params.get? "rootPath").bind Datum.text? with
    | some path => some (.ofString path)
    | none =>
      match ((params.get? "workspaceFolders").map Datum.items).getD [] with
      | folder :: _ => ((folder.get? "uri").bind Datum.uri?).bind Url.filePath?
      | [] => none

/-- The options of a session: the client's on top of the command line's. -/
def optionsFor (defaults : Options) (params : Datum) : Options :=
  defaults.override ((params.get? "initializationOptions").bind Datum.json?)

/-- The root of the project: the directory of the database, else the root of the workspace. -/
def projectRoot? (options : Options) (params : Datum) : Option Path :=
  options.databasePath.or (workspaceRoot? params)

/-- What the server can do. -/
def capabilities : Json :=
  Json.ofMembers [
    ("textDocumentSync",
      Json.ofMembers [("openClose", .bool true), ("change", .int 2)]),
    ("completionProvider", .obj []),
    ("hoverProvider", .bool true),
    ("definitionProvider", .bool true),
    ("referencesProvider", .bool true),
    ("documentHighlightProvider", .bool true),
    ("documentFormattingProvider", .bool true),
    ("documentRangeFormattingProvider", .bool true)]

/-- The answer to the request that opens the session. -/
def greeting : Json :=
  Json.ofMembers [
    ("capabilities", capabilities),
    ("serverInfo",
      Json.ofMembers [("name", .str programName), ("version", .str programVersion)])]

/-- A line for the client's log. -/
def logLine (text : String) : Message :=
  .notification Catalogue.logMessage.name
    (Json.ofMembers [("type", .int 3), ("message", .str text)])

/-- The error of a request while or after the session ends. -/
def shuttingDown : ResponseError :=
  .invalidRequest "server is shutting down"

/-- The error of opening the session again. -/
def alreadyInitialized : ResponseError :=
  .invalidRequest "server is already initialized"

end Session

end FlagServer
