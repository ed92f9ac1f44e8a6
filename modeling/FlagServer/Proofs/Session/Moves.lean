import FlagServer.Proofs.Session.Scene

/-!
# What the stages do to the life of a session

A message comes, and then the session is opened for it, the client takes leave by it, or it is
worked on: these are the `Part`s of a message's way. This file says for each part what a step can do
to the life of the session, that is to how far the session has come, to whether the client took
leave, and to which build system there is.

`Session.Move` is the whole list, and `Session.step_moves` says that it is complete. Nothing that
comes later looks into a stage again.
-/

namespace FlagServer

variable {ε μ : Type}

/-! ## Parts of a message's way -/

/-- What a stage belongs to. -/
inductive Part where
  /-- The message has just come. -/
  | arrival
  /-- The session is being opened. -/
  | opening
  /-- The client takes leave. -/
  | leaving
  /-- Anything else. -/
  | working
  deriving DecidableEq

/-- What a stage belongs to. The build system is asked for on behalf of the stage that is next. -/
def Stage.part : Stage → Part
  | .received _ => .arrival
  | .notified _ => .arrival
  | .announcing _ => .opening
  | .choosing _ => .opening
  | .loading _ _ => .opening
  | .attaching _ => .opening
  | .publishing _ => .opening
  | .concluding => .opening
  | .announcingEnd => .leaving
  | .ending => .leaving
  | .recording => .leaving
  | .detaching => .leaving
  | .finding next => next.part
  | _ => .working

/-- The build system has been published for the session that is being opened. -/
def Stage.isConcluding : Stage → Bool
  | .concluding => true
  | .finding next => next.isConcluding
  | _ => false

/-- The session has ended for the client who takes leave. -/
def Stage.hasEnded : Stage → Bool
  | .recording => true
  | .detaching => true
  | .finding next => next.hasEnded
  | _ => false

/-- The way that a build system changes once it is chosen: it stays of its kind, and a database is
looked for in the same place. -/
inductive BuildSystem.Continues : BuildSystem → BuildSystem → Prop where
  | database {d d' : DatabaseSystem} : d'.root = d.root → Continues (.database d) (.database d')
  | manifest : Continues .manifest .manifest
  | unhandled : Continues .unhandled .unhandled

theorem BuildSystem.Continues.refl (b : BuildSystem) : b.Continues b := by
  cases b with
  | database d => exact .database rfl
  | manifest => exact .manifest
  | unhandled => exact .unhandled

namespace Session

/-- What a stage leaves alone that is no part of opening the session or of taking leave. -/
structure Keeps (s s' : Session ε μ) : Prop where
  lifecycle : s'.lifecycle = s.lifecycle
  shutdownReceived : s'.shutdownReceived = s.shutdownReceived
  buildSystem : Option.Rel BuildSystem.Continues s.buildSystem s'.buildSystem

theorem rel_refl (b : Option BuildSystem) : Option.Rel BuildSystem.Continues b b := by
  cases b with
  | none => exact .none
  | some b => exact .some (.refl b)

theorem Keeps.of_eq {s s' : Session ε μ} (hlifecycle : s'.lifecycle = s.lifecycle)
    (hreceived : s'.shutdownReceived = s.shutdownReceived)
    (hsystem : s'.buildSystem = s.buildSystem) : Keeps s s' :=
  ⟨hlifecycle, hreceived, hsystem ▸ rel_refl _⟩

/-- The state of a database system changes in its place. -/
theorem Keeps.ofDatabase {s s' : Session ε μ} {d d' : DatabaseSystem}
    (hlifecycle : s'.lifecycle = s.lifecycle)
    (hreceived : s'.shutdownReceived = s.shutdownReceived)
    (hsystem : s.buildSystem = some (.database d))
    (hsystem' : s'.buildSystem = some (.database d')) (hroot : d'.root = d.root) : Keeps s s' := by
  refine ⟨hlifecycle, hreceived, ?_⟩
  rw [hsystem, hsystem']
  exact .some (.database hroot)

/-- The handling goes on with stages of one part, or is done. -/
def GoesOn (part : Part) (turn : SessionTurn ε μ) : Prop :=
  ∀ standing, turn.progress = .more standing → standing.stage.part = part

@[simp] theorem goesOn_goOn {part : Part} {s : Session ε μ} {stage : Stage} :
    GoesOn part (s.goOn stage) ↔ stage.part = part := by
  simp [GoesOn, goOn, Stage.standing]

@[simp] theorem goesOn_finish {part : Part} {s : Session ε μ} {result : Json} :
    GoesOn part (s.finish result) :=
  nofun

@[simp] theorem goesOn_refuse {part : Part} {s : Session ε μ} {error : ResponseError} :
    GoesOn part (s.refuse error) :=
  nofun

@[simp] theorem goesOn_rest {part : Part} {s : Session ε μ} : GoesOn part s.rest :=
  nofun

variable {h : Host ε μ} {s : Session ε μ} {cancelled : Bool} {turn : SessionTurn ε μ}

/-- To ask a database for settings may fill its cache; it is looked for in the same place after it.
-/
theorem root_settings (disk : FileSystem) (d : DatabaseSystem) (uri : Url) :
    (d.settings disk uri).2.root = d.root := by
  simp only [DatabaseSystem.settings, DatabaseSystem.databaseFor]
  repeat' split
  all_goals rfl

/-- What a stage of neither opening nor leave does: it keeps how far the session has come, and leads
only to its like. -/
def Works (s : Session ε μ) (turn : SessionTurn ε μ) : Prop :=
  Keeps s turn.state ∧ GoesOn .working turn

theorem works_goOn {s' : Session ε μ} {stage : Stage} (hkeeps : Keeps s s')
    (hpart : stage.part = .working) : Works s (s'.goOn stage) :=
  ⟨hkeeps, goesOn_goOn.mpr hpart⟩

theorem works_rest {s' : Session ε μ} (hkeeps : Keeps s s') : Works s s'.rest :=
  ⟨hkeeps, goesOn_rest⟩

theorem works_resolve (uri : Url) (language : Language) (purpose : Purpose) :
    Works s (resolve h s uri language purpose) := by
  unfold resolve
  split
  · split <;> exact works_goOn (.of_eq rfl rfl rfl) rfl
  · exact works_goOn (.of_eq rfl rfl rfl) rfl
  · exact works_goOn (.of_eq rfl rfl rfl) rfl

/-- To look settings up in a database fills its cache in its place. -/
theorem works_discover (uri : Url) (purpose : Purpose) : Works s (s.discover uri purpose) := by
  unfold discover
  split
  · case h_1 d hsystem =>
    -- The one branch that writes a build system: the same database, with its cache filled.
    exact works_goOn (.ofDatabase rfl rfl hsystem rfl (root_settings s.disk d uri)) rfl
  · exact works_goOn (.of_eq rfl rfl rfl) rfl

theorem works_use (uri : Url) (settings : Option Settings) (purpose : Purpose) :
    Works s (use h cancelled s uri settings purpose) := by
  cases purpose with
  | answer request =>
    simp only [use]
    split
    · exact ⟨.of_eq rfl rfl rfl, goesOn_refuse⟩
    · exact works_goOn (.of_eq rfl rfl rfl) rfl
  | opening document => exact works_rest (.of_eq rfl rfl rfl)
  | push documents => exact works_goOn (.of_eq rfl rfl rfl) rfl

/-- To register a document changes a database in its place, or leaves the build system alone. -/
theorem works_register (document : TextDocument) : Works s (register h s document) := by
  unfold register
  split
  · exact works_goOn (.of_eq rfl rfl rfl) rfl
  · case h_2 d hsystem => exact works_goOn (.ofDatabase rfl rfl hsystem rfl rfl) rfl
  · exact works_goOn (.of_eq rfl rfl rfl) rfl
  · exact works_goOn (.of_eq rfl rfl rfl) rfl

/-- To unregister a document changes a database in its place, or leaves the build system alone. -/
theorem works_unregister (uri : Url) : Works s (unregister h s uri) := by
  unfold unregister
  split
  · case h_1 d hsystem => exact works_goOn (.ofDatabase rfl rfl hsystem rfl rfl) rfl
  · exact works_goOn (.of_eq rfl rfl rfl) rfl
  · exact works_goOn (.of_eq rfl rfl rfl) rfl

theorem works_spread {s' : Session ε μ} (hkeeps : Keeps s s') (notice : Option Notice) :
    Works s (s'.spread notice) := by
  cases notice with
  | none => exact works_rest hkeeps
  | some notice => exact works_goOn hkeeps rfl

/-- To look at files that changed marks a database for reading it anew, or reads the manifest anew.
-/
theorem works_review (events : List FileEvent) : Works s (review h s events) := by
  unfold review
  split
  · case h_1 d hsystem =>
    split
    · exact works_rest (.of_eq rfl rfl rfl)
    split
    · exact works_goOn (.of_eq rfl rfl rfl) rfl
    · refine works_spread ?_ _
      exact .ofDatabase rfl rfl hsystem rfl rfl
  · refine works_spread ?_ _
    exact .of_eq rfl rfl rfl
  · exact works_rest (.of_eq rfl rfl rfl)

/-- To read a database anew changes it in its place. -/
theorem works_reload : Works s s.reload := by
  unfold reload
  split
  · case h_1 d hsystem =>
    refine works_spread ?_ _
    exact .ofDatabase rfl rfl hsystem rfl rfl
  · exact works_rest (.of_eq rfl rfl rfl)

/-- **A stage of neither opening nor leave** keeps how far the session has come and whether the
client took leave, changes the build system at most in its place, and leads only to its like. -/
theorem act_working {stage : Stage} (hpart : stage.part = .working)
    (hact : act h cancelled stage s = some turn) : Works s turn := by
  have hkeeps : Keeps s s := .of_eq rfl rfl rfl
  -- Most stages leave the life of the session as it is; what they do besides has its own lemma.
  cases stage
  case finding next =>
    cases hact
    exact works_goOn hkeeps hpart
  case forwarding =>
    simp only [act, Option.some.injEq] at hact
    subst hact
    split
    · exact ⟨hkeeps, goesOn_refuse⟩
    · exact works_goOn hkeeps rfl
  case consulting =>
    simp only [act] at hact
    split at hact <;> cases hact <;> exact works_goOn hkeeps rfl
  case resolving uri language purpose =>
    cases hact
    exact works_resolve uri language purpose
  case discovering uri purpose =>
    cases hact
    exact works_discover uri purpose
  case resolved uri settings purpose =>
    cases hact
    exact works_use uri settings purpose
  case answering =>
    obtain ⟨_, -, rfl⟩ := Option.map_eq_some_iff.mp hact
    exact ⟨.of_eq rfl rfl rfl, nofun⟩
  case registering document =>
    cases hact
    exact works_register document
  case unregistering uri =>
    cases hact
    exact works_unregister uri
  case reviewing events =>
    cases hact
    exact works_review events
  case reloading =>
    cases hact
    exact works_reload
  case pushing documents =>
    cases documents <;> cases hact
    · exact works_rest hkeeps
    · exact works_goOn hkeeps rfl
  case opening | closing | refreshing =>
    cases hact
    exact works_goOn (.of_eq rfl rfl rfl) rfl
  case dismissing =>
    cases hact
    exact works_rest (.of_eq rfl rfl rfl)
  all_goals cases hpart

/-- To set a listener changes the state of a manifest, or the build system in its place. -/
theorem setListener_cases {system system' : BuildSystem} {listener : Option Listener}
    {s' : Session ε μ} (hset : setListener h s system listener = some (s', system')) :
    (∃ manifest, s' = { s with manifest }) ∧ system.Continues system' := by
  unfold setListener at hset
  split at hset
  · cases hset
    exact ⟨⟨s.manifest, rfl⟩, .database rfl⟩
  · obtain ⟨manifest, -, heq⟩ := Option.map_eq_some_iff.mp hset
    cases heq
    exact ⟨⟨manifest, rfl⟩, .manifest⟩
  · cases hset
    exact ⟨⟨s.manifest, rfl⟩, .refl _⟩

/-! ### Opening -/

/-- **A stage of the opening** never says that the client took leave. It either ends the opening,
with the session open and the build system that is there; or goes on with it, and then only the
stage that publishes gives the session a build system. -/
theorem act_opening {stage : Stage} (hpart : stage.part = .opening)
    (hact : act h cancelled stage s = some turn) :
    turn.state.shutdownReceived = s.shutdownReceived
    ∧ ((stage = .concluding ∧ turn.state.lifecycle = .initialized
          ∧ turn.state.buildSystem = s.buildSystem ∧ turn.progress = .done (.ok greeting))
      ∨ ∃ next : Stage, turn.progress = .more next.standing ∧ next.part = .opening
          ∧ turn.state.lifecycle = s.lifecycle
          ∧ ((∃ system, stage = .publishing system ∧ next.isConcluding = true
                ∧ turn.state.buildSystem = some system)
            ∨ (∀ system, stage ≠ .publishing system) ∧ next.isConcluding = stage.isConcluding
                ∧ turn.state.buildSystem = s.buildSystem)) := by
  -- Two stages do what the life of a session notices, to publish and to conclude; the others only
  -- lead to the next stage of the opening.
  cases stage
  case concluding =>
    cases hact
    exact ⟨rfl, .inl ⟨rfl, rfl, rfl, rfl⟩⟩
  case publishing system =>
    cases hact
    exact ⟨rfl, .inr ⟨_, rfl, rfl, rfl, .inl ⟨system, rfl, rfl, rfl⟩⟩⟩
  case announcing =>
    cases hact
    exact ⟨rfl, .inr ⟨_, rfl, rfl, rfl, .inr ⟨nofun, rfl, rfl⟩⟩⟩
  case loading =>
    cases hact
    exact ⟨rfl, .inr ⟨_, rfl, rfl, rfl, .inr ⟨nofun, rfl, rfl⟩⟩⟩
  case finding next =>
    cases hact
    exact ⟨rfl, .inr ⟨_, rfl, hpart, rfl, .inr ⟨nofun, rfl, rfl⟩⟩⟩
  case choosing params =>
    simp only [act, choose, Option.some.injEq] at hact
    subst hact
    split <;> exact ⟨rfl, .inr ⟨_, rfl, rfl, rfl, .inr ⟨nofun, rfl, rfl⟩⟩⟩
  case attaching system =>
    obtain ⟨⟨s', system'⟩, hset, rfl⟩ := Option.map_eq_some_iff.mp hact
    -- The build system that gets its listener is the one on the way to being published; the session
    -- has none yet.
    obtain ⟨⟨manifest, rfl⟩, -⟩ := setListener_cases hset
    exact ⟨rfl, .inr ⟨_, rfl, rfl, rfl, .inr ⟨nofun, rfl, rfl⟩⟩⟩
  all_goals cases hpart

/-! ### Taking leave -/

/-- **A stage of the leave** leads to the leave only. The session ends at one stage, at another it
is recorded that the client took leave, and every other stage keeps the life of the session and goes
on as one that has ended only if it has ended itself. -/
theorem act_leaving {stage : Stage} (hpart : stage.part = .leaving)
    (hact : act h cancelled stage s = some turn) :
    GoesOn .leaving turn
    ∧ ((stage = .ending ∧ turn.state = { s with lifecycle := .shutDown }
          ∧ turn.progress = .more Stage.recording.standing)
      ∨ (stage = .recording ∧ turn.state = { s with shutdownReceived := true }
          ∧ turn.progress = .more (Stage.finding .detaching).standing)
      ∨ stage ≠ .recording ∧ Keeps s turn.state
          ∧ ∀ standing, turn.progress = .more standing → standing.stage.hasEnded = true →
            stage.hasEnded = true) := by
  have hkeeps : Keeps s s := .of_eq rfl rfl rfl
  -- The two stages that write come first; for the others there remains to be seen that none of them
  -- leads past the end of the session.
  cases stage
  case ending =>
    cases hact
    exact ⟨goesOn_goOn.mpr rfl, .inl ⟨rfl, rfl, rfl⟩⟩
  case recording =>
    cases hact
    exact ⟨goesOn_goOn.mpr rfl, .inr (.inl ⟨rfl, rfl, rfl⟩)⟩
  case announcingEnd =>
    cases hact
    refine ⟨?_, .inr (.inr ⟨nofun, hkeeps, ?_⟩)⟩
    -- To announce the end leads to the end itself, which has not come there yet.
    all_goals
      intro standing heq
      cases heq
    · rfl
    · exact nofun
  case finding next =>
    cases hact
    refine ⟨goesOn_goOn.mpr hpart, .inr (.inr ⟨nofun, hkeeps, ?_⟩)⟩
    -- What a stage that waits for the build system has ended is what the next stage has ended.
    rintro standing heq
    cases heq
    exact id
  case detaching =>
    -- The last stage takes the listener off the build system, which continues, and is done.
    simp only [act, detach?] at hact
    split at hact
    · cases hact
      exact ⟨goesOn_finish, .inr (.inr ⟨nofun, hkeeps, nofun⟩)⟩
    · case h_2 system hsystem =>
      obtain ⟨⟨s', system'⟩, hset, rfl⟩ := Option.map_eq_some_iff.mp hact
      obtain ⟨⟨manifest, rfl⟩, hcontinues⟩ := setListener_cases hset
      refine ⟨goesOn_finish, .inr (.inr ⟨nofun, ⟨rfl, rfl, ?_⟩, nofun⟩)⟩
      rw [hsystem]
      exact .some hcontinues
  all_goals cases hpart

/-! ### Arriving -/

end Session

namespace Incoming

/-- The message opens the session. -/
def isInitialize : Incoming → Bool
  | request r => r.is Catalogue.initializeSession
  | notification _ => false

/-- The message takes leave. -/
def isShutdown : Incoming → Bool
  | request r => r.is Catalogue.shutdown
  | notification _ => false

/-- The message ends the program. -/
def isExit : Incoming → Bool
  | request _ => false
  | notification n => n.is Catalogue.exit

/-- The message is for an open session only: that the session is open is checked before anything
else is done for it. -/
def isChecked (message : Incoming) : Bool :=
  !message.isInitialize && !message.isExit

/-- How a message is turned away that needs an open session. -/
def Refused (lifecycle : Lifecycle) (outcome : Except ResponseError Json) : Incoming → Prop
  | request _ =>
    outcome = .error
      (if lifecycle = .shutDown then Session.shuttingDown else .serverNotInitialized)
  | notification _ => True

end Incoming

namespace Session

variable {h : Host ε μ} {s : Session ε μ} {cancelled : Bool} {turn : SessionTurn ε μ}

/-- **What a request does at once:** it is turned away, or it claims the opening of the session, or
it goes on to take leave or to ask. -/
theorem receive_eq (r : IncomingRequest) :
    (∃ error, s.receive r = s.refuse error)
    ∨ (∃ params, s.lifecycle = .uninitialized
      ∧ s.receive r = goOn { s with lifecycle := .initializing } (.announcing params))
    ∨ s.receive r = s.goOn .announcingEnd
    ∨ ∃ request, s.receive r = s.goOn (.forwarding request) := by
  unfold receive
  split
  · unfold claim
    split
    · case h_1 hbefore => exact .inr (.inl ⟨_, hbefore, rfl⟩)
    · exact .inl ⟨_, rfl⟩
    · exact .inl ⟨_, rfl⟩
  · split
    · unfold route
      split
      · exact .inr (.inr (.inl rfl))
      · split
        · exact .inr (.inr (.inr ⟨_, rfl⟩))
        · exact .inl ⟨_, rfl⟩
    · exact .inl ⟨_, rfl⟩
    · exact .inl ⟨_, rfl⟩

/-- **What a notification in an open session does at once:** it is done, perhaps with an edit for
the engine, or it goes on with a document or with files that changed. -/
theorem attend_eq (n : IncomingNotification) :
    (∃ send, s.attend h n = { s.rest with send })
    ∨ s.attend h n = rest { s with engine := h.engine.changed n.params s.engine }
    ∨ (∃ document, s.attend h n = s.goOn (.opening document))
    ∨ (∃ uri, s.attend h n = s.goOn (.closing uri))
    ∨ ∃ events, s.attend h n = s.goOn (.finding (.reviewing events)) := by
  unfold attend
  split
  · exact .inl ⟨_, rfl⟩
  split
  · split
    · exact .inr (.inr (.inl ⟨_, rfl⟩))
    · exact .inl ⟨_, rfl⟩
  split
  · split
    · exact .inr (.inr (.inr (.inl ⟨_, rfl⟩)))
    · exact .inl ⟨_, rfl⟩
  split
  · exact .inr (.inl rfl)
  split
  · exact .inr (.inr (.inr (.inr ⟨_, rfl⟩)))
  · exact .inl ⟨_, rfl⟩

/-- The way into an open session: on to the work, or to taking leave, or at once to the end. -/
def Enters (message : Incoming) (turn : SessionTurn ε μ) : Prop :=
  ∀ standing, turn.progress = .more standing → standing.approach = .before
    ∧ (standing.stage.part = .working ∨ message.isShutdown = true
      ∧ standing.stage.part = .leaving ∧ standing.stage.hasEnded = false)

theorem enters_goOn {message : Incoming} {stage : Stage} (hpart : stage.part = .working) :
    Enters message (s.goOn stage) := by
  rintro standing heq
  cases heq
  exact ⟨rfl, .inl hpart⟩

/-- A request in an open session leaves it alone at first. -/
theorem route_cases (r : IncomingRequest) :
    (route s r).state = s ∧ Enters (.request r) (route s r) := by
  unfold route
  split
  · case isTrue hshutdown =>
    -- The leave begins at its first stage, at which the session has not ended.
    refine ⟨rfl, ?_⟩
    rintro standing heq
    cases heq
    exact ⟨rfl, .inr ⟨hshutdown, rfl, rfl⟩⟩
  · split
    · exact ⟨rfl, enters_goOn rfl⟩
    · exact ⟨rfl, nofun⟩

/-- A notification in an open session may change the engine at once, and nothing else. -/
theorem attend_cases (n : IncomingNotification) :
    Keeps s (attend h s n).state ∧ Enters (.notification n) (attend h s n) := by
  have hkeeps : Keeps s s := .of_eq rfl rfl rfl
  obtain ⟨send, heq⟩ | heq | ⟨document, heq⟩ | ⟨uri, heq⟩ | ⟨events, heq⟩ :=
    attend_eq (h := h) (s := s) n
  -- Of the five things a notification does at once, two are done with it and three go on to work.
  all_goals rw [heq]
  · exact ⟨hkeeps, nofun⟩
  · exact ⟨.of_eq rfl rfl rfl, nofun⟩
  · exact ⟨hkeeps, enters_goOn rfl⟩
  · exact ⟨hkeeps, enters_goOn rfl⟩
  · exact ⟨hkeeps, enters_goOn rfl⟩

/-! ## The moves -/

/-- **What a step of a message does to the life of the session,** by the message and the stage that
it stands at. -/
inductive Move (message : Incoming) (stage : Stage) (s : Session ε μ) (turn : SessionTurn ε μ) :
    Prop where
  /-- It comes nearer to what its stage uses. -/
  | nearer (approach : Approach) : turn.progress = .more ⟨stage, approach⟩ → approach ≠ .before →
      Keeps s turn.state → (stage.part = .arrival → SameButLines s turn.state) →
      Move message stage s turn
  /-- It claims the one opening of the session. -/
  | claimed (next : Stage) : stage.part = .arrival → message.isInitialize = true →
      s.lifecycle = .uninitialized → turn.progress = .more next.standing →
      next.part = .opening → next.isConcluding = false →
      SameButLines { s with lifecycle := .initializing } turn.state → Move message stage s turn
  /-- It comes too late to open the session. -/
  | late (error : ResponseError) : stage.part = .arrival → message.isInitialize = true →
      turn.progress = .done (.error error) → SameButLines s turn.state → Move message stage s turn
  /-- It ends the program. -/
  | exit (outcome : Except ResponseError Json) : stage.part = .arrival → message.isExit = true →
      turn.progress = .done outcome → SameButLines s turn.state → Move message stage s turn
  /-- It needs an open session and there is none. -/
  | refused (outcome : Except ResponseError Json) : stage.part = .arrival →
      message.isChecked = true → s.lifecycle ≠ .initialized → turn.progress = .done outcome →
      message.Refused s.lifecycle outcome → SameButLines s turn.state → Move message stage s turn
  /-- It needs an open session and there is one. -/
  | admitted : stage.part = .arrival → message.isChecked = true → s.lifecycle = .initialized →
      Enters message turn → Keeps s turn.state → Move message stage s turn
  /-- The session is being opened, and its build system is not there yet or is there already. -/
  | prepared (next : Stage) : stage.part = .opening → (∀ system, stage ≠ .publishing system) →
      turn.progress = .more next.standing → next.part = .opening →
      next.isConcluding = stage.isConcluding → turn.state.lifecycle = s.lifecycle →
      turn.state.shutdownReceived = s.shutdownReceived →
      turn.state.buildSystem = s.buildSystem → Move message stage s turn
  /-- The session that is being opened gets its build system. -/
  | published (system : BuildSystem) (next : Stage) : stage = .publishing system →
      turn.progress = .more next.standing → next.part = .opening → next.isConcluding = true →
      turn.state.lifecycle = s.lifecycle → turn.state.shutdownReceived = s.shutdownReceived →
      turn.state.buildSystem = some system → Move message stage s turn
  /-- The session is open. -/
  | concluded : stage = .concluding → turn.progress = .done (.ok greeting) →
      turn.state.lifecycle = .initialized → turn.state.shutdownReceived = s.shutdownReceived →
      turn.state.buildSystem = s.buildSystem → Move message stage s turn
  /-- The session ends. -/
  | ended (next : Stage) : stage = .ending → turn.progress = .more next.standing →
      next.part = .leaving → SameButLines { s with lifecycle := .shutDown } turn.state →
      Move message stage s turn
  /-- The end is recorded for the exit code. -/
  | recorded (next : Stage) : stage = .recording → turn.progress = .more next.standing →
      next.part = .leaving → SameButLines { s with shutdownReceived := true } turn.state →
      Move message stage s turn
  /-- The client takes leave, and the session has not ended yet or has ended already. -/
  | left : stage.part = .leaving → stage ≠ .recording → GoesOn .leaving turn →
      (∀ standing, turn.progress = .more standing → standing.stage.hasEnded = true →
        stage.hasEnded = true) → Keeps s turn.state → Move message stage s turn
  /-- It is worked on. -/
  | worked : stage.part = .working → Works s turn → Move message stage s turn

theorem SameButLines.keeps {s s' : Session ε μ} (hsame : SameButLines s s') : Keeps s s' := by
  rw [hsame]
  exact .of_eq rfl rfl rfl

theorem Keeps.trans_same {s s' s'' : Session ε μ} (hsame : SameButLines s s')
    (hkeeps : Keeps s' s'') : Keeps s s'' := by
  rw [hsame] at hkeeps
  exact ⟨hkeeps.lifecycle, hkeeps.shutdownReceived, hkeeps.buildSystem⟩

theorem SameButLines.withLifecycle {s s' : Session ε μ} (hsame : SameButLines s s')
    (lifecycle : Lifecycle) : SameButLines { s with lifecycle } { s' with lifecycle } := by
  rw [hsame]
  rfl

theorem SameButLines.withReceived {s s' : Session ε μ} (hsame : SameButLines s s')
    (shutdownReceived : Bool) :
    SameButLines { s with shutdownReceived } { s' with shutdownReceived } := by
  rw [hsame]
  rfl

/-- A request that opens the session claims the opening or comes too late; any other is checked. -/
theorem receive_moves {stage : Stage} {s' : Session ε μ} (r : IncomingRequest)
    (hpart : stage.part = .arrival) (hsame : SameButLines s s') :
    Move (.request r) stage s (s'.receive r) := by
  -- Two sessions are at hand: `s`, in which the step begins, and `s'`, which has other lines and in
  -- which the message is received. They have come equally far, so the guards read the same in both.
  have hlifecycle : s'.lifecycle = s.lifecycle := hsame.keeps.lifecycle
  unfold receive
  by_cases hinit : r.is Catalogue.initializeSession = true
  · rw [IncomingRequest.extract, if_pos hinit]
    simp only [claim]
    split
    · case h_1 huninit =>
      rw [hlifecycle] at huninit
      exact .claimed _ hpart hinit huninit rfl rfl rfl (hsame.withLifecycle _)
    · exact .late _ hpart hinit rfl hsame
    · exact .late _ hpart hinit rfl hsame
  · rw [IncomingRequest.extract, if_neg hinit]
    -- Any request but the one that opens the session is checked first.
    have hchecked : (Incoming.request r).isChecked = true := by
      simp [Incoming.isChecked, Incoming.isInitialize, Incoming.isExit, hinit]
    simp only
    split
    · case h_1 hopen =>
      obtain ⟨hstate, henters⟩ := route_cases (s := s') r
      refine .admitted hpart hchecked (hlifecycle ▸ hopen) henters ?_
      rw [hstate]
      exact hsame.keeps
    · case h_2 hdown =>
      rw [hlifecycle] at hdown
      refine .refused _ hpart hchecked ?_ rfl ?_ hsame
      · rw [hdown]
        exact nofun
      · simp [Incoming.Refused, hdown]
    · case h_3 hopen hdown =>
      rw [hlifecycle] at hopen hdown
      refine .refused _ hpart hchecked hopen rfl ?_ hsame
      simp [Incoming.Refused, show s.lifecycle ≠ .shutDown from hdown]

/-- A notification ends the program or is checked. -/
theorem hear_moves {stage : Stage} {s' : Session ε μ} (n : IncomingNotification)
    (hpart : stage.part = .arrival) (hsame : SameButLines s s') :
    Move (.notification n) stage s (s'.hear h n) := by
  have hlifecycle : s'.lifecycle = s.lifecycle := hsame.keeps.lifecycle
  unfold hear
  split
  · case isTrue hexit => exact .exit _ hpart hexit rfl hsame
  · case isFalse hexit =>
    have hchecked : (Incoming.notification n).isChecked = true := by
      simp [Incoming.isChecked, Incoming.isInitialize, Incoming.isExit, hexit]
    split
    · case isTrue hopen =>
      obtain ⟨hkeeps, henters⟩ := attend_cases (h := h) (s := s') n
      exact .admitted hpart hchecked (hlifecycle ▸ eq_of_beq hopen) henters
        (.trans_same hsame hkeeps)
    · case isFalse hopen =>
      rw [hlifecycle] at hopen
      exact .refused _ hpart hchecked (by simpa using hopen) rfl trivial hsame

/-- At a stage of arrival there is nothing to come to but a resource. -/
theorem touch_arrival {stage : Stage} {touched : Touch} (hpart : stage.part = .arrival)
    (htouch : touch h s stage = some touched) : ∃ r use, touched = .resource r use := by
  cases stage
  case received => exact ⟨_, _, (Option.some.inj htouch).symm⟩
  case notified n =>
    simp only [touch] at htouch
    split at htouch
    · cases htouch
    · exact ⟨_, _, (Option.some.inj htouch).symm⟩
  case finding => exact ⟨_, _, (Option.some.inj htouch).symm⟩
  all_goals cases hpart

/-- **Every step is a move.** Of a message that has just come it has to be known that it stands at
the beginning. -/
theorem step_moves {message : Incoming} {standing : Standing}
    (hstands : standing.stage.part = .arrival → standing.stage = message.stage)
    (hstep : step h cancelled standing s = some turn) : Move message standing.stage s turn := by
  obtain ⟨touched, htouch, -, hcome⟩ | ⟨s', hsame, hact⟩ := step_cases hstep
  · -- The message only comes nearer to what its stage touches.
    obtain ⟨hstate, approach, hprogress, happroach⟩ := come_cases hcome
    refine .nearer approach hprogress happroach ?_ ?_
    · rw [hstate]
      exact .of_eq rfl rfl rfl
    · intro hpart
      obtain ⟨r, use, rfl⟩ := touch_arrival hpart htouch
      exact come_resource hcome
  -- From here on the message goes through its stage, in a session that has other lines at most.
  have hkeeps : Keeps s s' := hsame.keeps
  have hsystem : s'.buildSystem = s.buildSystem := by rw [hsame]
  cases hpart : standing.stage.part with
  | arrival =>
    -- What arrives stands at the stage its message begins with, so the act is to receive or to
    -- hear.
    rw [hstands hpart] at hact
    cases message <;> cases hact
    · exact receive_moves _ hpart hsame
    · exact hear_moves _ hpart hsame
  | opening =>
    obtain ⟨hreceived, ⟨hstage, hlifecycle, hbuild, hprogress⟩
      | ⟨next, hprogress, hnext, hlifecycle, ⟨system, hstage, hconcluding, hbuild⟩
        | ⟨hstage, hconcluding, hbuild⟩⟩⟩ := act_opening hpart hact
    · exact .concluded hstage hprogress hlifecycle (hreceived.trans hkeeps.shutdownReceived)
        (hbuild.trans hsystem)
    · exact .published system next hstage hprogress hnext hconcluding
        (hlifecycle.trans hkeeps.lifecycle) (hreceived.trans hkeeps.shutdownReceived) hbuild
    · exact .prepared next hpart hstage hprogress hnext hconcluding
        (hlifecycle.trans hkeeps.lifecycle) (hreceived.trans hkeeps.shutdownReceived)
        (hbuild.trans hsystem)
  | leaving =>
    obtain ⟨hgoes, ⟨hstage, hstate, hprogress⟩ | ⟨hstage, hstate, hprogress⟩
      | ⟨hstage, hstate, hended⟩⟩ := act_leaving hpart hact
    · refine .ended _ hstage hprogress rfl ?_
      rw [hstate]
      exact hsame.withLifecycle _
    · refine .recorded _ hstage hprogress rfl ?_
      rw [hstate]
      exact hsame.withReceived _
    · exact .left hpart hstage hgoes hended (.trans_same hsame hstate)
  | working =>
    obtain ⟨hkeeps', hgoes⟩ := act_working hpart hact
    exact .worked hpart ⟨.trans_same hsame hkeeps', hgoes⟩

end Session

end FlagServer
