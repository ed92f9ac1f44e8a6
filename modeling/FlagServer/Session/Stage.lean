import FlagServer.Server.Handler
import FlagServer.Session.Basic

/-!
# The stages of a session's messages

Each message of the client goes through stages, and each stage uses at most one thing that
messages share: how far the session has come, its build system, its documents, what the build
system keeps, or the engine. The stages in between matter, because requests are handled side by
side.

* **Opening:** `received`, `announcing`, `choosing`, perhaps `loading`, `attaching`,
  `publishing`, `concluding`.
* **Taking leave:** `received`, `announcingEnd`, `ending`, `recording`, `finding`, `detaching`.
* **A question:** `received`, `forwarding`, `finding`, `consulting`, then its settings are
  resolved, then `resolved` and `answering`.
* **An opened document:** `notified`, `opening`, `finding`, `registering`, then its settings are
  resolved, then `resolved`.
* **A closed document:** `notified`, `closing`, `finding`, `unregistering`, `dismissing`.
* **Changed files:** `notified`, `finding`, `reviewing`, perhaps `reloading`, `refreshing`, and
  then `pushing` the settings of one open document after the other.

Settings are resolved in `resolving`, which may have to search the disk in `discovering`.

What a stage uses it first has to have in hand, and it may have to stand in line for that. To come
to a thing does not count for the length of a turn, and to use it does: one whose turn is over
rests with the thing in hand, or goes on standing in line.
-/

namespace FlagServer

/-- What settings are resolved for. -/
inductive Purpose where
  /-- To answer a question. -/
  | answer (request : SemanticRequest)
  /-- To open a document. -/
  | opening (document : TextDocument)
  /-- To tell the engine of new settings, with the documents that come after. -/
  | push (rest : Languages)

/-- Where the handling of a message stands. -/
inductive Stage where
  /-- A request has just come. -/
  | received (r : IncomingRequest)
  /-- The client is told that the session opens. -/
  | announcing (params : Datum)
  /-- The build system is chosen. -/
  | choosing (params : Datum)
  /-- The disk is read for the build system. -/
  | loading (preference : Preference) (root : Option Path)
  /-- The build system gets its listener. -/
  | attaching (system : BuildSystem)
  /-- The build system is shown to everybody. -/
  | publishing (system : BuildSystem)
  /-- The session is open. -/
  | concluding
  /-- The client is told that the session ends. -/
  | announcingEnd
  /-- The session ends. -/
  | ending
  /-- The end is recorded for the exit code. -/
  | recording
  /-- The build system is asked for, for the sake of the next stage. -/
  | finding (next : Stage)
  /-- The build system loses its listener. -/
  | detaching
  /-- A question is about to be looked at. -/
  | forwarding (request : SemanticRequest)
  /-- The language of the document of a question is looked up. -/
  | consulting (request : SemanticRequest)
  /-- Settings are asked for. -/
  | resolving (uri : Url) (language : Language) (purpose : Purpose)
  /-- The disk is searched for a database. -/
  | discovering (uri : Url) (purpose : Purpose)
  /-- Settings are there. -/
  | resolved (uri : Url) (settings : Option Settings) (purpose : Purpose)
  /-- The engine works on a question. -/
  | answering (request : SemanticRequest) (settings : Option Settings)
  /-- A notification has just come. -/
  | notified (n : IncomingNotification)
  /-- A document joins the open ones. -/
  | opening (document : TextDocument)
  /-- The build system is to watch a document. -/
  | registering (document : TextDocument)
  /-- A document leaves the open ones. -/
  | closing (uri : Url)
  /-- The build system is to watch a document no longer. -/
  | unregistering (uri : Url)
  /-- The engine is told that a document was closed. -/
  | dismissing (uri : Url)
  /-- The build system is told of changed files. -/
  | reviewing (events : List FileEvent)
  /-- The disk is read for a new database. -/
  | reloading
  /-- The files with new settings are known. -/
  | refreshing (files : List Url)
  /-- New settings are resolved for these documents. -/
  | pushing (documents : Languages)

namespace Stage

/-- The stage waits for the disk. -/
def isSlow : Stage → Bool
  | loading _ _ => true
  | discovering _ _ => true
  | reloading => true
  | _ => false

end Stage

/-! ## Coming to a stage -/

/-- What a stage uses. -/
inductive Touch where
  /-- A resource of the session. -/
  | resource (r : Resource) (use : Use)
  /-- The gate before the settings of a manifest. -/
  | gate

/-- How far the handling of a message has come to what a stage uses. -/
inductive Approach where
  /-- It has not asked for it. -/
  | before
  /-- It stands in line for a resource. -/
  | inLine (r : Resource) (use : Use) (place : Nat)
  /-- It has it in hand. -/
  | inHand (touch : Touch)

/-- Where the handling of a message stands: at a stage, and how near to what the stage uses. -/
structure Standing where
  /-- The stage. -/
  stage : Stage
  /-- How far it has come to what the stage uses. -/
  approach : Approach := .before

namespace Standing

/-- The standing waits for the disk. -/
def isSlow (standing : Standing) : Bool :=
  standing.stage.isSlow

/-- What happens next counts for the length of a turn: something is used that was in hand or
stood in line for, or what has been read from the disk. -/
def counts (standing : Standing) : Bool :=
  match standing.approach with
  | .before => standing.isSlow
  | _ => true

end Standing

/-- Ready for a stage. -/
def Stage.standing (stage : Stage) : Standing :=
  { stage }

end FlagServer
