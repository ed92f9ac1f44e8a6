import FlagServer.Session.Stage

/-!
# Handling the client's messages

What each stage of a message does to the session. The rules of the session are here:

* the session is opened once, and only what opens it is answered before that;
* after the client took leave no request is answered any more;
* the build system is chosen when the session opens and stays;
* a document is watched from when it is opened until it is closed;
* a notification outside an open session does nothing, except for the one that ends the
  program.
-/

namespace FlagServer.Session

variable {ε μ : Type}

/-- A stage of a session. -/
abbrev SessionTurn (ε μ : Type) := Turn (Session ε μ) Standing

/-- Goes on with another stage. -/
def goOn (s : Session ε μ) (stage : Stage) : SessionTurn ε μ :=
  { state := s, progress := .more stage.standing }

/-- Ends with a result. -/
def finish (s : Session ε μ) (result : Json) : SessionTurn ε μ :=
  { state := s, progress := .done (.ok result) }

/-- Ends with an error. -/
def refuse (s : Session ε μ) (error : ResponseError) : SessionTurn ε μ :=
  { state := s, progress := .done (.error error) }

/-- Ends the handling of a notification. -/
def rest (s : Session ε μ) : SessionTurn ε μ :=
  s.finish .null

/-! ## Requests -/

/-- Claims the one opening of the session. -/
def claim (s : Session ε μ) (params : Datum) : SessionTurn ε μ :=
  match s.lifecycle with
  | .uninitialized => goOn { s with lifecycle := .initializing } (.announcing params)
  | .shutDown => s.refuse shuttingDown
  | _ => s.refuse alreadyInitialized

/-- Looks at a request in an open session. -/
def route (s : Session ε μ) (r : IncomingRequest) : SessionTurn ε μ :=
  if r.is Catalogue.shutdown then s.goOn .announcingEnd
  else
    match SemanticRequest.ofIncoming r with
    | .ok (_, request) => s.goOn (.forwarding request)
    | .error r => s.refuse (.methodNotFound r.method)

/-- Looks at a request that has just come. -/
def receive (s : Session ε μ) (r : IncomingRequest) : SessionTurn ε μ :=
  match r.extract Catalogue.initializeSession with
  | .ok (_, params) => s.claim params
  | .error r =>
    match s.lifecycle with
    | .initialized => s.route r
    | .shutDown => s.refuse shuttingDown
    | _ => s.refuse .serverNotInitialized

/-! ## The build system -/

/-- Chooses the build system. -/
def choose (h : Host ε μ) (s : Session ε μ) (params : Datum) : SessionTurn ε μ :=
  let options := optionsFor h.defaults params
  let root := projectRoot? options params
  if BuildSystem.readsDisk options.buildSystem root h.manifest.isSome then
    s.goOn (.loading options.buildSystem root)
  else
    s.goOn (.attaching
      (.forWorkspace s.disk options.buildSystem root h.manifest.isSome))

/-- Sets or removes the listener of a build system; nothing while that has to wait. -/
def setListener (h : Host ε μ) (s : Session ε μ) (system : BuildSystem)
    (listener : Option Listener) : Option (Session ε μ × BuildSystem) :=
  match system, h.manifest with
  | .database d, _ => some (s, .database (d.setListener listener))
  | .manifest, some m =>
    (m.setListener listener s.manifest).map fun manifest => ({ s with manifest }, system)
  | _, _ => some (s, system)

/-- Takes the listener from the build system. -/
def detach? (h : Host ε μ) (s : Session ε μ) : Option (SessionTurn ε μ) :=
  match s.buildSystem with
  | none => some (s.finish .null)
  | some system =>
    (setListener h s system none).map fun (s, system) =>
      finish { s with buildSystem := some system } .null

/-- Asks for the settings of a file. A database is kept in hand while the disk is searched. -/
def resolve (h : Host ε μ) (s : Session ε μ) (uri : Url) (language : Language)
    (purpose : Purpose) : SessionTurn ε μ :=
  match s.buildSystem, h.manifest with
  | some (.database d), _ =>
    match d.ask uri with
    | .answer settings => s.goOn (.resolved uri settings purpose)
    | .search _ => goOn (s.hold .database .alone) (.discovering uri purpose)
  | some .manifest, some m =>
    let (settings, manifest) := m.settings uri language s.manifest
    goOn { s with manifest } (.resolved uri settings purpose)
  | _, _ => s.goOn (.resolved uri none purpose)

/-- The disk has been searched for the database of a file. -/
def discover (s : Session ε μ) (uri : Url) (purpose : Purpose) : SessionTurn ε μ :=
  match s.buildSystem with
  | some (.database d) =>
    let (settings, d) := d.settings s.disk uri
    goOn { s.release .database .alone with buildSystem := some (.database d) }
      (.resolved uri settings purpose)
  | _ => s.goOn (.resolved uri none purpose)

/-- Settings are there for what they were asked for. -/
def use (h : Host ε μ) (cancelled : Bool) (s : Session ε μ) (uri : Url)
    (settings : Option Settings) : Purpose → SessionTurn ε μ
  | .answer request =>
    if cancelled then s.refuse .requestCancelled else s.goOn (.answering request settings)
  | .opening document =>
    rest { s with engine := h.engine.opened document settings s.engine }
  | .push documents =>
    goOn { s with engine := h.engine.settingsChanged uri settings s.engine } (.pushing documents)

/-! ## Documents -/

/-- Watches an opened document. -/
def register (h : Host ε μ) (s : Session ε μ) (document : TextDocument) : SessionTurn ε μ :=
  let language := Language.ofId document.languageId
  let next := Stage.resolving document.uri language (.opening document)
  match s.buildSystem, h.manifest with
  | none, _ => s.goOn (.resolved document.uri none (.opening document))
  | some (.database d), _ =>
    goOn { s with buildSystem := some (.database (d.register document.uri language)) } next
  | some .manifest, some m =>
    goOn { s with manifest := m.register document.uri language s.manifest } next
  | _, _ => s.goOn next

/-- Watches a closed document no longer. -/
def unregister (h : Host ε μ) (s : Session ε μ) (uri : Url) : SessionTurn ε μ :=
  match s.buildSystem, h.manifest with
  | some (.database d), _ =>
    goOn { s with buildSystem := some (.database (d.unregister uri)) } (.dismissing uri)
  | some .manifest, some m =>
    goOn { s with manifest := m.unregister uri s.manifest } (.dismissing uri)
  | _, _ => s.goOn (.dismissing uri)

/-! ## Changed files -/

/-- The changed files that parameters list. -/
def eventsOf (params : Datum) : List FileEvent :=
  ((params.get? "changes").map Datum.items).getD [] |>.filterMap fun d => do
    let uri ← (d.get? "uri").bind Datum.uri?
    let change ← (d.get? "type").bind Datum.int?
    return { uri, change }

/-- Goes on with a notice, if there is one. -/
def spread (s : Session ε μ) : Option Notice → SessionTurn ε μ
  | some notice => s.goOn (.refreshing notice.files)
  | none => s.rest

/-- Tells the build system of changed files. A database is kept in hand while the disk is
read. -/
def review (h : Host ε μ) (s : Session ε μ) (events : List FileEvent) : SessionTurn ε μ :=
  match s.buildSystem, h.manifest with
  | some (.database d), _ =>
    if !DatabaseSystem.concerns events then s.rest
    else if d.root.isSome then goOn (s.hold .database .alone) .reloading
    else
      let d := d.reload s.disk
      spread { s with buildSystem := some (.database d) } d.notice
  | some .manifest, some m =>
    let (manifest, notice) := m.filesChanged events s.manifest
    spread { s with manifest } notice
  | _, _ => s.rest

/-- The disk has been read for a new database. -/
def reload (s : Session ε μ) : SessionTurn ε μ :=
  match s.buildSystem with
  | some (.database d) =>
    let d := d.reload s.disk
    spread { s.release .database .alone with buildSystem := some (.database d) } d.notice
  | _ => s.rest

/-! ## Notifications -/

/-- Looks at a notification in an open session. -/
def attend (h : Host ε μ) (s : Session ε μ) (n : IncomingNotification) : SessionTurn ε μ :=
  if n.is Catalogue.initialized then
    { s.rest with send := some (logLine "LSP server initialized") }
  else if n.is Catalogue.didOpen then
    match (n.params.get? "textDocument").bind TextDocument.ofDatum? with
    | some document => s.goOn (.opening document)
    | none => s.rest
  else if n.is Catalogue.didClose then
    match SemanticRequest.documentOf? n.params with
    | some uri => s.goOn (.closing uri)
    | none => s.rest
  else if n.is Catalogue.didChange then
    rest { s with engine := h.engine.changed n.params s.engine }
  else if n.is Catalogue.didChangeWatchedFiles then
    s.goOn (.finding (.reviewing (eventsOf n.params)))
  else s.rest

/-- Looks at a notification that has just come. -/
def hear (h : Host ε μ) (s : Session ε μ) (n : IncomingNotification) : SessionTurn ε μ :=
  if n.is Catalogue.exit then { s.rest with close := true }
  else if s.lifecycle == .initialized then s.attend h n
  else s.rest

/-! ## All stages -/

/-- What a stage does; nothing while it has to wait. -/
def act (h : Host ε μ) (cancelled : Bool) (stage : Stage) (s : Session ε μ) :
    Option (SessionTurn ε μ) :=
  match stage with
  | .received r => some (s.receive r)
  | .announcing params =>
    some { s.goOn (.choosing params) with send := some (logLine "LSP server initializing") }
  | .choosing params => some (choose h s params)
  | .loading preference root =>
    some (s.goOn (.attaching (.forWorkspace s.disk preference root h.manifest.isSome)))
  | .attaching system =>
    (setListener h s system (some listener)).map fun (s, system) => s.goOn (.publishing system)
  | .publishing system => some (goOn { s with buildSystem := some system } .concluding)
  | .concluding => some (finish { s with lifecycle := .initialized } greeting)
  | .announcingEnd =>
    some { s.goOn .ending with send := some (logLine "LSP server shutting down") }
  | .ending => some (goOn { s with lifecycle := .shutDown } .recording)
  | .recording => some (goOn { s with shutdownReceived := true } (.finding .detaching))
  | .finding next => some (s.goOn next)
  | .detaching => detach? h s
  | .forwarding request =>
    some (if cancelled then s.refuse .requestCancelled
      else s.goOn (.finding (.consulting request)))
  | .consulting request =>
    match s.buildSystem with
    | some _ =>
      some (s.goOn (.resolving request.document (s.languageOf request.document)
        (.answer request)))
    | none => some (s.goOn (.resolved request.document none (.answer request)))
  | .resolving uri language purpose => some (resolve h s uri language purpose)
  | .discovering uri purpose => some (s.discover uri purpose)
  | .resolved uri settings purpose => some (use h cancelled s uri settings purpose)
  | .answering request settings =>
    (h.engine.answer cancelled request settings s.engine).map fun (outcome, engine) =>
      { state := { s with engine }, progress := .done outcome }
  | .notified n => some (s.hear h n)
  | .opening document =>
    some (goOn
      { s with documents := s.documents.insert document.uri (.ofId document.languageId) }
      (.finding (.registering document)))
  | .registering document => some (register h s document)
  | .closing uri =>
    some (goOn { s with documents := s.documents.erase uri } (.finding (.unregistering uri)))
  | .unregistering uri => some (unregister h s uri)
  | .dismissing uri => some (rest { s with engine := h.engine.closed uri s.engine })
  | .reviewing events => some (review h s events)
  | .reloading => some s.reload
  | .refreshing files => some (s.goOn (.pushing (s.openAmong files)))
  | .pushing [] => some s.rest
  | .pushing ((uri, language) :: documents) =>
    some (s.goOn (.resolving uri language (.push documents)))

/-! ## Coming to a stage -/

/-- What a build system over a database keeps, if there is one. -/
def insideDatabase (s : Session ε μ) : Option Touch :=
  match s.buildSystem with
  | some (.database _) => some (.resource .database .alone)
  | _ => none

/-- What a stage uses. -/
def touch (h : Host ε μ) (s : Session ε μ) : Stage → Option Touch
  | .received r =>
    some (.resource .lifecycle (if r.is Catalogue.initializeSession then .alone else .together))
  | .publishing _ => some (.resource .buildSystem .alone)
  | .concluding => some (.resource .lifecycle .alone)
  | .ending => some (.resource .lifecycle .alone)
  | .finding _ => some (.resource .buildSystem .together)
  | .detaching => s.insideDatabase
  | .consulting _ => s.buildSystem.map fun _ => .resource .documents .alone
  | .resolving uri _ _ =>
    match s.buildSystem, h.manifest with
    | some (.database _), _ => uri.filePath?.map fun _ => .resource .database .alone
    | some .manifest, some m => m.gate.map fun _ => .gate
    | _, _ => none
  | .notified n =>
    if n.is Catalogue.exit then none else some (.resource .lifecycle .together)
  | .opening _ => some (.resource .documents .alone)
  | .registering _ => s.insideDatabase
  | .closing _ => some (.resource .documents .alone)
  | .unregistering _ => s.insideDatabase
  | .reviewing events => if DatabaseSystem.concerns events then s.insideDatabase else none
  | .refreshing _ => some (.resource .documents .alone)
  | _ => none

/-- Comes to what a stage uses: takes it in hand, or stands in line for it. Nothing while a gate
is shut. -/
def come (h : Host ε μ) (s : Session ε μ) (stage : Stage) : Touch → Option (SessionTurn ε μ)
  | .resource r use =>
    if (s.lines.get r).isFree use then
      some { state := s.hold r use, progress := .more ⟨stage, .inHand (.resource r use)⟩ }
    else
      let (place, line) := (s.lines.get r).join use
      some { state := s.withLine r line, progress := .more ⟨stage, .inLine r use place⟩ }
  | .gate => do
    let enter ← h.manifest.bind Manifest.gate
    let manifest ← enter s.manifest
    return { state := { s with manifest }, progress := .more ⟨stage, .inHand .gate⟩ }

/-- What the handling of a message does next; nothing while it has to wait. A resource is let go
when it has been used. -/
def step (h : Host ε μ) (cancelled : Bool) (standing : Standing) (s : Session ε μ) :
    Option (SessionTurn ε μ) :=
  let stage := standing.stage
  match standing.approach with
  | .before =>
    match touch h s stage with
    | some touch => come h s stage touch
    | none => act h cancelled stage s
  | .inLine r use place =>
    let line := s.lines.get r
    if line.isTurn place use then act h cancelled stage (s.withLine r (line.leave place))
    else none
  | .inHand (.resource r use) => act h cancelled stage (s.release r use)
  | .inHand .gate => act h cancelled stage s

/-- The handler of a session. -/
def handler (h : Host ε μ) : Handler (Session ε μ) Standing where
  registry := Catalogue.registry
  request r := (Stage.received r).standing
  notification n := (Stage.notified n).standing
  step := step h
  isSlow := Standing.isSlow
  counts := Standing.counts

/-! ## What a stage reads -/

/-- The files that a slow stage reads. -/
def wants (s : Session ε μ) (standing : Standing) : List Path :=
  match standing.stage with
  | .loading _ root => (root.map Database.sources).getD []
  | .discovering uri _ =>
    match uri.filePath? with
    | some path => path.ancestors.flatMap Database.sources
    | none => []
  | .reloading =>
    match s.buildSystem with
    | some (.database d) => (d.root.map Database.sources).getD []
    | _ => []
  | _ => []

end FlagServer.Session
