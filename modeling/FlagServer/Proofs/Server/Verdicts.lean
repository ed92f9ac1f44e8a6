import FlagServer.Proofs.Server.Documents
import FlagServer.Proofs.Server.Stream

/-!
# Verdicts and answers

When the handling of a request ends, it has come to a **verdict**, and the connection makes an
answer of it: a request that has been cancelled by then is answered as such, whatever the verdict
is.

For the requests that open the session or take leave, this file says what each of the two is worth.
The verdict says what has been done (`Session.Did`): after an error the whole handling, from the
first step to the last, has left the session alone, and after a result the session is open, or it
has ended and the exit code is that of success. The answer only says so if the request has not been
cancelled. This is shown of every such request in every run of a server. There is a run in which the
session is open, although the one who opened it has been told that the request was cancelled, and is
turned away when trying again.
-/

namespace FlagServer

variable {ε μ η τ : Type}

/-! ## Tasks -/

namespace Server

variable {h : Handler η τ} {s s' : Server η τ} {agent : Agent} {task : Task τ} {ticket : Nat}

/-- A task does not change by what other agents do. -/
theorem task?_of_step (hstep : s.step h agent = some s') (hother : agent ≠ .task ticket)
    (htask : s.task? ticket = some task) : s'.task? ticket = some task := by
  have hkept : s'.tasks = s.tasks → s'.task? ticket = some task := by
    intro htasks
    rw [task?, htasks]
    exact htask
  cases agent with
  | loop =>
    obtain ⟨bodies, hloop⟩ := exists_loopStep hstep
    cases hloop with
    | closes _ _ heq | leaves _ _ heq | takes _ _ heq | handles _ _ heq | ends _ heq =>
      subst heq
      exact hkept rfl
    | dispatches _ _ heq =>
      subst heq
      unfold receive
      split
      rename_i connection delivery _
      cases delivery with
      | nothing | notification n => exact htask
      | request other r =>
        -- A new task is put behind the others, so the old ones are still found first.
        rw [task?] at htask
        rw [task?, List.find?_append, htask, Option.some_or]
  | writer =>
    cases writerStep_of_stepWriter hstep with
    | writes _ _ heq | fails _ _ heq | stops _ _ heq => exact hkept (by rw [heq])
  | task other =>
    have hne : ticket ≠ other := fun heq => hother (heq ▸ rfl)
    obtain ⟨task', turn, -, -, hstepped⟩ := taskStep_of_stepTask hstep
    cases hstepped with
    | goesOn _ hs =>
      rw [task?_of_map (s := s) (by rw [hs]), htask]
      simp [hne]
    | ends _ hs =>
      rw [task?_of_filter (s := s) (by rw [hs]), if_neg hne]
      exact htask

/-- **A step of a task:** it goes on, or it has come to a verdict and its request is answered. -/
theorem stepTask_eq (htask : s.task? ticket = some task) (hstep : s.stepTask h ticket = some s') :
    ∃ turn, h.step (s.connection.inFlight.isCancelled ticket) task.stage s.state = some turn
      ∧ s'.state = turn.state
      ∧ ((∃ next, turn.progress = .more next ∧ s'.task? ticket = some { task with stage := next })
        ∨ ∃ verdict, turn.progress = .done verdict ∧ s'.task? ticket = none
          ∧ s'.connection = (s.apply turn).connection.complete task.id ticket verdict) := by
  obtain ⟨task', turn, htask', hturn, hstepped⟩ := taskStep_of_stepTask hstep
  obtain rfl : task = task' := Option.some.inj (htask.symm.trans htask')
  have hticket : task.ticket = ticket := by simpa using List.find?_some htask
  cases hstepped with
  | @goesOn next hprogress hs =>
    subst hs
    refine ⟨turn, hturn, rfl, .inl ⟨next, hprogress, ?_⟩⟩
    rw [task?_of_map (s := s) rfl, htask]
    simp
  | @ends verdict hprogress hs =>
    subst hs
    refine ⟨turn, hturn, rfl, .inr ⟨verdict, hprogress, ?_, rfl⟩⟩
    rw [task?_of_filter (s := s) rfl, if_pos rfl]

/-! ## Answers -/

/-- What a request is answered with when its handling ends: that it was cancelled, if it was, and
else the verdict. -/
def answerTo (s : Server η τ) (ticket : Nat) (verdict : Except ResponseError Json) :
    Except ResponseError Json :=
  if s.connection.inFlight.isCancelled ticket then .error .requestCancelled else verdict

/-- The connection takes messages, and has not been closed for requests. -/
def answers (s : Server η τ) : Bool :=
  s.connection.accepts && !s.connection.inFlight.closed

end Server

/-- The client has taken leave, and that is on record. -/
def Stage.hasRecorded : Stage → Bool
  | .detaching => true
  | .finding next => next.hasRecorded
  | _ => false

namespace Session

variable {h : Host ε μ} {s : Session ε μ} {cancelled : Bool} {turn : SessionTurn ε μ}
  {r : IncomingRequest} {log : List (Session ε μ × Session ε μ)} {standing : Standing}

/-- The request opens the session, or it takes leave. -/
def IsLifecycle (r : IncomingRequest) : Prop :=
  r.is Catalogue.initializeSession = true ∨ r.is Catalogue.shutdown = true

/-- Nothing of the session has changed in these steps but who stands in line for what. -/
def LeftAlone (log : List (Session ε μ × Session ε μ)) : Prop :=
  ∀ entry ∈ log, SameButLines entry.1 entry.2

/-- **What has been done for a request** that opens the session or takes leave, when its handling
has come to a verdict. The list has the sessions before and after each of its steps. -/
inductive Did (r : IncomingRequest) (log : List (Session ε μ × Session ε μ)) (s : Session ε μ) :
    Except ResponseError Json → Prop where
  /-- Nothing. -/
  | nothing {error : ResponseError} (halone : LeftAlone log) : Did r log s (.error error)
  /-- The session is open and has its build system. Whoever wants to open it now is turned away. -/
  | opened (hopening : r.is Catalogue.initializeSession = true)
    (hopen : s.lifecycle = .initialized) (hsystem : s.buildSystem.isSome = true)
    (hlate : ∀ r' : IncomingRequest, r'.is Catalogue.initializeSession = true →
      s.receive r' = s.refuse alreadyInitialized) : Did r log s (.ok greeting)
  /-- The session has ended, and the program ends with success. -/
  | ended {result : Json} (hshutdown : r.is Catalogue.shutdown = true)
    (hdown : s.lifecycle = .shutDown) (hcode : s.exitCode = 0) : Did r log s (.ok result)

/-! ## On the way -/

/-- Where such a request stands, and what holds of the session then. -/
inductive Stands (r : IncomingRequest) (log : List (Session ε μ × Session ε μ)) (s : Session ε μ) :
    Standing → Prop where
  /-- It has done nothing yet. -/
  | waits (approach : Approach) (halone : LeftAlone log) : Stands r log s ⟨.received r, approach⟩
  /-- It opens the session. -/
  | opens {standing : Standing} (hopening : r.is Catalogue.initializeSession = true)
    (hpart : standing.stage.part = .opening) : Stands r log s standing
  /-- The client takes leave. -/
  | leaves {standing : Standing} (hshutdown : r.is Catalogue.shutdown = true)
    (hpart : standing.stage.part = .leaving)
    (hrecorded : standing.stage.hasRecorded = true → s.shutdownReceived = true) :
    Stands r log s standing

/-- What a step leaves behind: the request stands at another stage, or it has come to a verdict
after which nothing is sent but its answer. -/
structure Leaves (r : IncomingRequest) (log : List (Session ε μ × Session ε μ))
    (turn : SessionTurn ε μ) : Prop where
  more : ∀ next, turn.progress = .more next → Stands r log turn.state next
  done : ∀ verdict, turn.progress = .done verdict → turn.send = none ∧ turn.close = false
    ∧ ((∃ error, verdict = .error error) ∧ LeftAlone log
      ∨ r.is Catalogue.initializeSession = true ∧ verdict = .ok greeting
        ∧ turn.state.lifecycle = .initialized
      ∨ r.is Catalogue.shutdown = true ∧ (∃ result, verdict = .ok result)
        ∧ turn.state.shutdownReceived = true)

/-- To go on leaves the request where it stands next. -/
theorem leaves_goOn {stage : Stage} (hstands : Stands r log s stage.standing) :
    Leaves r log (s.goOn stage) where
  more next hprogress := by
    cases hprogress
    exact hstands
  done verdict hprogress := by cases hprogress

/-- To be turned away is an error, and nothing has been done. -/
theorem leaves_refuse {error : ResponseError} (halone : LeftAlone log) :
    Leaves r log (s.refuse error) where
  more next hprogress := by cases hprogress
  done verdict hprogress := by
    cases hprogress
    exact ⟨rfl, rfl, .inl ⟨⟨error, rfl⟩, halone⟩⟩

/-- One more step that changes nothing leaves the session alone still. -/
theorem leftAlone_concat {entry : Session ε μ × Session ε μ} (halone : LeftAlone log)
    (hsame : SameButLines entry.1 entry.2) : LeftAlone (log ++ [entry]) := by
  intro other hother
  rcases List.mem_append.mp hother with hother | hother
  · exact halone other hother
  · obtain rfl := List.mem_singleton.mp hother
    exact hsame

/-- A request that has done nothing is turned away, or it begins to open the session or to take
leave. -/
theorem leaves_receive (hlifecycle : IsLifecycle r)
    (halone : (s.receive r).state = s → LeftAlone log) : Leaves r log (s.receive r) := by
  have hrefused : ∀ error, s.receive r = s.refuse error → Leaves r log (s.receive r) := by
    intro error heq
    rw [heq] at halone ⊢
    exact leaves_refuse (halone rfl)
  -- How far the session has come decides, in each of the two cases.
  by_cases hopening : r.is Catalogue.initializeSession = true
  · have hclaim : s.receive r = s.claim r.params := by
      rw [receive, IncomingRequest.extract, if_pos hopening]
    cases hnow : s.lifecycle with
    | uninitialized =>
      simp only [hclaim, claim, hnow]
      exact leaves_goOn (.opens hopening rfl)
    | initializing | initialized =>
      exact hrefused alreadyInitialized (by simp only [hclaim, claim, hnow])
    | shutDown => exact hrefused shuttingDown (by simp only [hclaim, claim, hnow])
  · have hshutdown : r.is Catalogue.shutdown = true := hlifecycle.resolve_left hopening
    have hextract : r.extract Catalogue.initializeSession = .error r := if_neg hopening
    cases hnow : s.lifecycle with
    | initialized =>
      have hroute : s.receive r = s.goOn .announcingEnd := by
        simp only [receive, hextract, hnow, route, if_pos hshutdown]
      rw [hroute]
      exact leaves_goOn (.leaves hshutdown rfl (fun hrecorded => absurd hrecorded (by decide)))
    | uninitialized | initializing =>
      exact hrefused .serverNotInitialized (by simp only [receive, hextract, hnow])
    | shutDown => exact hrefused shuttingDown (by simp only [receive, hextract, hnow])

/-- A stage of the opening leads on, or the session is open. -/
theorem leaves_act_opening {stage : Stage} (hopening : r.is Catalogue.initializeSession = true)
    (hpart : stage.part = .opening) (hact : act h cancelled stage s = some turn) :
    Leaves r log turn := by
  obtain ⟨-, ⟨rfl, -⟩ | ⟨next, hprogress, hnext, -⟩⟩ := act_opening hpart hact
  · cases hact
    refine ⟨(fun _ hprogress => by cases hprogress), fun verdict hprogress => ?_⟩
    cases hprogress
    exact ⟨rfl, rfl, .inr (.inl ⟨hopening, rfl, rfl⟩)⟩
  · refine ⟨fun standing hmore => ?_, fun verdict hdone => ?_⟩
    · cases hprogress.symm.trans hmore
      exact .opens hopening hnext
    · cases hprogress.symm.trans hdone

/-- A stage of the leave leads on, or the client has taken leave and that is on record. -/
theorem leaves_act_leaving {stage : Stage} (hshutdown : r.is Catalogue.shutdown = true)
    (hpart : stage.part = .leaving)
    (hrecorded : stage.hasRecorded = true → s.shutdownReceived = true)
    (hact : act h cancelled stage s = some turn) : Leaves r log turn := by
  -- The last stage is reached only when the leave is on record, and what it does to the build
  -- system does not change that.
  have hended : s.shutdownReceived = true → ∀ s' : Session ε μ,
      s'.shutdownReceived = s.shutdownReceived → Leaves r log (s'.finish .null) := by
    intro hreceived s' hsame
    refine ⟨(fun _ hprogress => by cases hprogress), fun verdict hprogress => ?_⟩
    cases hprogress
    exact ⟨rfl, rfl, .inr (.inr ⟨hshutdown, ⟨.null, rfl⟩, hsame.trans hreceived⟩)⟩
  cases stage
  case announcingEnd | ending | recording =>
    cases hact
    refine ⟨fun standing hmore => ?_, fun _ hdone => by cases hdone⟩
    cases hmore
    first
    | exact .leaves hshutdown rfl fun _ => rfl
    | exact .leaves hshutdown rfl nofun
  case finding next =>
    cases hact
    exact leaves_goOn (.leaves hshutdown hpart hrecorded)
  case detaching =>
    simp only [act, detach?] at hact
    split at hact
    · cases hact
      exact hended (hrecorded rfl) s rfl
    · obtain ⟨⟨s', system'⟩, hset, rfl⟩ := Option.map_eq_some_iff.mp hact
      obtain ⟨⟨manifest, rfl⟩, -⟩ := setListener_cases hset
      exact hended (hrecorded rfl) _ rfl
  all_goals cases hpart

/-- **One step of such a request.** -/
theorem Stands.step (hlifecycle : IsLifecycle r) (hstands : Stands r log s standing)
    (hstep : Session.step h cancelled standing s = some turn) :
    Leaves r (log ++ [(s, turn.state)]) turn := by
  obtain ⟨touched, htouch, -, hcome⟩ | ⟨s', hsame, hact⟩ := step_cases hstep
  · -- It comes nearer to what its stage uses, and stays at the stage.
    obtain ⟨hstate, approach, hprogress, -⟩ := come_cases hcome
    refine ⟨fun next hmore => ?_, fun verdict hdone => ?_⟩
    · cases hprogress.symm.trans hmore
      cases hstands with
      | waits _ halone =>
        obtain ⟨r', use, rfl⟩ := touch_arrival rfl htouch
        exact .waits approach (leftAlone_concat halone (come_resource hcome))
      | opens hopening hpart => exact .opens hopening hpart
      | leaves hshutdown hpart hrecorded =>
        refine .leaves hshutdown hpart fun hstage => ?_
        rw [hstate]
        exact hrecorded hstage
    · cases hprogress.symm.trans hdone
  · cases hstands with
    | waits _ halone =>
      cases hact
      refine leaves_receive hlifecycle fun hstate => leftAlone_concat halone ?_
      rw [hstate]
      exact hsame
    | opens hopening hpart => exact leaves_act_opening hopening hpart hact
    | leaves hshutdown hpart hrecorded =>
      refine leaves_act_leaving hshutdown hpart (fun hstage => ?_) hact
      exact hsame.keeps.shutdownReceived.trans (hrecorded hstage)

/-! ## In a server -/

variable {allowed : Session ε μ → Stage → Bool} {heard : List IncomingNotification}
  {server server' : Server (Session ε μ) Standing} {agent : Agent} {ticket : Nat}

/-- What is on record stays on record. -/
theorem Served.recorded_step (hserved : Served h allowed heard server)
    (hchange : Server.Change (handler h) agent server server')
    (hrecorded : server.state.shutdownReceived = true) :
    server'.state.shutdownReceived = true := by
  cases hchange with
  | nothing _ hstate | request _ _ _ _ hstate | notification _ _ _ hstate =>
    rw [hstate]
    exact hrecorded
  | goesOn hstage hturn hstate =>
    obtain ⟨engine, manifest, disk, events, scene, who, hrun, hs, -⟩ := hserved.shown
    -- The step is a move in the scene that shows the server, and no move takes anything off the
    -- record.
    have hsound := (Scene.Sound.start engine manifest disk).run? hrun
    obtain ⟨x, hx, rfl⟩ := hs.agents _ _ hstage
    obtain rfl := Option.some.inj ((hs.stages x hx).symm.trans hstage)
    rw [← hs.session] at hturn hrecorded
    rw [hstate]
    cases hsound.move hx hturn with
    | nearer _ _ _ hkeeps | admitted _ _ _ _ hkeeps | left _ _ _ _ hkeeps =>
      exact hkeeps.shutdownReceived.trans hrecorded
    | worked _ hworks => exact hworks.1.shutdownReceived.trans hrecorded
    | late _ _ _ _ hsame | exit _ _ _ _ hsame | refused _ _ _ _ _ _ hsame =>
      exact hsame.keeps.shutdownReceived.trans hrecorded
    | claimed _ _ _ _ _ _ _ hsame | ended _ _ _ _ hsame =>
      exact hsame.keeps.shutdownReceived.trans hrecorded
    | prepared _ _ _ _ _ _ _ hreceived | published _ _ _ _ _ _ _ hreceived
    | concluded _ _ _ hreceived => exact hreceived.trans hrecorded
    | recorded _ _ _ _ hsame => exact hsame.keeps.shutdownReceived

/-- **A request is being handled:** it has come, and from then on anything may happen to the server
as long as the handling goes on. The list has the sessions before and after each step of its
task. -/
inductive Attended (h : Host ε μ) (ticket : Nat) (r : IncomingRequest) :
    List (Session ε μ × Session ε μ) → Server (Session ε μ) Standing → Prop where
  /-- The request has come. -/
  | comes {heard : List IncomingNotification} {server : Server (Session ε μ) Standing}
    (hserved : Served h (fun _ _ => true) heard server)
    (htask : server.task? ticket = some ⟨ticket, r.id, (Stage.received r).standing⟩) :
    Attended h ticket r [] server
  | feed {log : List (Session ε μ × Session ε μ)} {server : Server (Session ε μ) Standing}
    (bytes : List UInt8) : Attended h ticket r log server →
    Attended h ticket r log (server.feed bytes)
  | endInput {log : List (Session ε μ × Session ε μ)} {server : Server (Session ε μ) Standing} :
    Attended h ticket r log server → Attended h ticket r log server.endInput
  | losePeer {log : List (Session ε μ × Session ε μ)} {server : Server (Session ε μ) Standing} :
    Attended h ticket r log server → Attended h ticket r log server.losePeer
  | flush {log : List (Session ε μ × Session ε μ)} {server : Server (Session ε μ) Standing} :
    Attended h ticket r log server → Attended h ticket r log { server with written := [] }
  | outside {log : List (Session ε μ × Session ε μ)} {server : Server (Session ε μ) Standing}
    (disk : FileSystem) (manifest : μ) : Attended h ticket r log server →
    Attended h ticket r log { server with state := { server.state with disk, manifest } }
  /-- Another agent takes a step. -/
  | other {log : List (Session ε μ × Session ε μ)} {server server' : Server (Session ε μ) Standing}
    {agent : Agent} : Attended h ticket r log server → agent ≠ .task ticket →
    server.step (handler h) agent = some server' → Attended h ticket r log server'
  /-- The task of the request takes a step, and goes on. -/
  | goesOn {log : List (Session ε μ × Session ε μ)}
    {server server' : Server (Session ε μ) Standing} : Attended h ticket r log server →
    server.step (handler h) (.task ticket) = some server' →
    (server'.task? ticket).isSome = true →
    Attended h ticket r (log ++ [(server.state, server'.state)]) server'

/-- **While the request is being handled,** it stands where it may stand. -/
structure Attended.Keeps (h : Host ε μ) (ticket : Nat) (r : IncomingRequest)
    (log : List (Session ε μ × Session ε μ)) (server : Server (Session ε μ) Standing) : Prop where
  served : ∃ heard, Served h (fun _ _ => true) heard server
  stands : ∃ standing, server.task? ticket = some ⟨ticket, r.id, standing⟩
    ∧ Stands r log server.state standing

/-- To stand where it stands depends on nothing of the session but the record. -/
theorem Stands.mono {s' : Session ε μ} (hstands : Stands r log s standing)
    (hrecorded : s.shutdownReceived = true → s'.shutdownReceived = true) :
    Stands r log s' standing := by
  cases hstands with
  | waits approach halone => exact .waits approach halone
  | opens hopening hpart => exact .opens hopening hpart
  | leaves hshutdown hpart hstage =>
    exact .leaves hshutdown hpart fun hended => hrecorded (hstage hended)

/-- As long as a request is being handled, it stands where it may stand. -/
theorem Attended.keeps (hlifecycle : IsLifecycle r) (hattended : Attended h ticket r log server) :
    Attended.Keeps h ticket r log server := by
  induction hattended with
  | comes hserved htask =>
    exact ⟨⟨_, hserved⟩, _, htask, .waits .before (fun _ hentry => absurd hentry List.not_mem_nil)⟩
  | feed bytes _ ih =>
    obtain ⟨heard, hserved⟩ := ih.served
    exact ⟨⟨heard, .feed bytes hserved⟩, ih.stands⟩
  | endInput _ ih =>
    obtain ⟨heard, hserved⟩ := ih.served
    exact ⟨⟨heard, .endInput hserved⟩, ih.stands⟩
  | losePeer _ ih =>
    obtain ⟨heard, hserved⟩ := ih.served
    exact ⟨⟨heard, .losePeer hserved⟩, ih.stands⟩
  | flush _ ih =>
    obtain ⟨heard, hserved⟩ := ih.served
    exact ⟨⟨heard, .flush hserved⟩, ih.stands⟩
  | outside disk manifest _ ih =>
    obtain ⟨heard, hserved⟩ := ih.served
    obtain ⟨standing, htask, hstands⟩ := ih.stands
    exact ⟨⟨heard, .outside disk manifest hserved⟩, standing, htask, hstands.mono id⟩
  | other _ hother hstep ih =>
    obtain ⟨heard, hserved⟩ := ih.served
    obtain ⟨standing, htask, hstands⟩ := ih.stands
    -- The other agent neither takes the task away nor anything off the record.
    have hserved' := hserved.step (fun _ _ => rfl) hstep
    refine ⟨⟨_, hserved'⟩, standing, Server.task?_of_step hstep hother htask, ?_⟩
    exact hstands.mono
      (hserved.recorded_step (Server.change_step hserved'.nodup_tickets hstep))
  | goesOn _ hstep hgoes ih =>
    obtain ⟨heard, hserved⟩ := ih.served
    obtain ⟨standing, htask, hstands⟩ := ih.stands
    refine ⟨⟨_, hserved.step (fun _ _ => rfl) hstep⟩, ?_⟩
    obtain ⟨turn, hturn, hstate, ⟨next, hprogress, htask'⟩ | ⟨verdict, -, htask', -⟩⟩ :=
      Server.stepTask_eq htask hstep
    · rw [hstate]
      exact ⟨next, htask', (hstands.step hlifecycle hturn).more next hprogress⟩
    · rw [htask'] at hgoes
      cases hgoes

/-! ## The answer -/

/-- A request under way is answered once, unless the connection has been closed. -/
theorem Served.queue_complete (hserved : Served h allowed heard server) {id : RequestId}
    {standing : Standing} (htask : server.task? ticket = some ⟨ticket, id, standing⟩)
    (verdict : Except ResponseError Json) :
    (server.connection.complete id ticket verdict).queue = server.connection.queue
      ++ if server.answers then [.send (.response ⟨some id, server.answerTo ticket verdict⟩)]
        else [] := by
  obtain ⟨acts, t, hrun, ht⟩ := hserved.mirrored
  have hrunning : (id, ticket) ∈ t.running := by
    rw [ht.running]
    exact List.mem_map.mpr ⟨_, List.mem_of_find?_eq_some htask, rfl⟩
  have hcomplete := (Traffic.tracked_run hrun).complete_eq hrunning verdict
  rw [ht.connection] at hcomplete
  rw [hcomplete, Server.answers]
  -- Once requests are closed nobody is answered; before that, the answer is put if the queue takes
  -- anything.
  by_cases hclosed : server.connection.inFlight.closed = true
  · simp [hclosed]
  · have haccepts : (t.without ticket).accepts = server.connection.accepts := by
      rw [← ht.connection]
      rfl
    have hqueue : (t.without ticket).queue = server.connection.queue := by
      rw [← ht.connection]
      rfl
    have hanswer : t.answer ticket verdict = server.answerTo ticket verdict := by
      rw [Traffic.answer, ht.connection]
      rfl
    rw [Bool.not_eq_true] at hclosed
    simp only [hclosed, Bool.false_eq_true, if_false, Bool.not_false, Bool.and_true,
      Connection.reply, Connection.post_eq, haccepts, hanswer]
    split <;> simp [hqueue]

/-- **What has been done for a request follows its verdict, whatever the answer is.** In every run
of a server, when the handling of a request that opens the session or takes leave ends, it has come
to a verdict. An error means that the handling has left the session alone from first to last, and a
result that the session is open, or that it has ended. The answer is the verdict, unless the request
has been cancelled by then. -/
theorem effect_follows_verdict (hlifecycle : IsLifecycle r)
    (hattended : Attended h ticket r log server)
    (hstep : server.step (handler h) (.task ticket) = some server')
    (hends : server'.task? ticket = none) :
    ∃ verdict, Did r (log ++ [(server.state, server'.state)]) server'.state verdict
      ∧ server'.connection.queue = server.connection.queue
        ++ if server.answers then [.send (.response ⟨some r.id, server.answerTo ticket verdict⟩)]
          else [] := by
  have hkeeps := hattended.keeps hlifecycle
  obtain ⟨heard, hserved⟩ := hkeeps.served
  obtain ⟨standing, htask, hstands⟩ := hkeeps.stands
  obtain ⟨turn, hturn, hstate, ⟨next, -, htask'⟩ | ⟨verdict, hprogress, -, hconnection⟩⟩ :=
    Server.stepTask_eq htask hstep
  · cases hends.symm.trans htask'
  obtain ⟨hsend, hclose, hdone⟩ := (hstands.step hlifecycle hturn).done verdict hprogress
  refine ⟨verdict, ?_, ?_⟩
  · -- What a scene knows of the session after the last step.
    obtain ⟨engine, manifest, disk, events, scene, who, hrun, hs, -⟩ :=
      (hserved.step (fun _ _ => rfl) hstep).shown
    have hliving := ((Scene.Sound.start engine manifest disk).run? hrun).living
    rw [← hstate] at hdone
    obtain ⟨⟨error, rfl⟩, halone⟩ | ⟨hopening, rfl, hopen⟩
      | ⟨hshutdown, ⟨result, rfl⟩, hrecorded⟩ := hdone
    · exact .nothing halone
    · refine .opened hopening hopen ?_ fun r' hr' => ?_
      · rw [← hs.session]
        refine hliving.system ?_
        rw [hs.session, hopen]
        rfl
      · simp only [receive, IncomingRequest.extract, if_pos hr', claim, hopen]
    · refine .ended hshutdown ?_ ?_
      · rw [← hs.session] at hrecorded ⊢
        exact hliving.received hrecorded
      · simp only [exitCode, hrecorded, if_true]
  · have hsame : (server.apply turn).connection = server.connection := by
      simp only [Server.apply, hsend, hclose, Bool.false_eq_true, if_false]
    rw [hconnection, hsame]
    exact hserved.queue_complete htask verdict

/-! ## A session that is open although nobody was told -/

/-- The request that has just come with a ticket. -/
def comer? (server : Server (Session ε μ) Standing) (ticket : Nat) : Option IncomingRequest :=
  match server.task? ticket with
  | some ⟨t, id, ⟨.received r, .before⟩⟩ => if t = ticket ∧ id = r.id then some r else none
  | _ => none

/-- A request that has just come stands at the beginning. -/
theorem task?_of_comer? (hcomer : comer? server ticket = some r) :
    server.task? ticket = some ⟨ticket, r.id, (Stage.received r).standing⟩ := by
  unfold comer? at hcomer
  split at hcomer
  · case h_1 t id r' htask =>
    split at hcomer
    · case isTrue hsame =>
      obtain ⟨rfl, rfl⟩ := hsame
      cases hcomer
      exact htask
    · cases hcomer
  · cases hcomer

/-- The steps of some agents, as long as the request with this ticket is being handled. -/
def attend? (h : Host ε μ) (ticket : Nat) :
    List Agent → Server (Session ε μ) Standing → Option (Server (Session ε μ) Standing)
  | [], server => some server
  | agent :: agents, server =>
    (server.step (handler h) agent).bind fun server' =>
      if (server'.task? ticket).isSome then attend? h ticket agents server' else none

/-- As long as the handling goes on, the steps of any agents keep it so. -/
theorem Attended.attend {agents : List Agent} (hattended : Attended h ticket r log server)
    (hattend : attend? h ticket agents server = some server') :
    ∃ log', Attended h ticket r log' server' := by
  induction agents generalizing server log with
  | nil =>
    cases hattend
    exact ⟨log, hattended⟩
  | cons agent agents ih =>
    obtain ⟨next, hstep, hrest⟩ := Option.bind_eq_some_iff.mp hattend
    split at hrest
    · case isTrue hgoes =>
      by_cases hown : agent = .task ticket
      · subst hown
        exact ih (hattended.goesOn hstep hgoes) hrest
      · exact ih (hattended.other hown hstep) hrest
    · cases hrest

/-- The bytes of a request to open the session. -/
def openingFrame (id : String) : List UInt8 :=
  Frame.write (Text.Utf8.encodeString
    ("\x7b\"id\":" ++ id ++
      ",\"method\":\"initialize\",\"params\":\x7b\"capabilities\":\x7b\x7d\x7d\x7d"))

/-- A session is to be opened, and at once not to be opened after all; then it is to be opened
again. -/
def secondThoughts : List UInt8 :=
  openingFrame "1"
    ++ Frame.write (Text.Utf8.encodeString
      "\x7b\"method\":\"$/cancelRequest\",\"params\":\x7b\"id\":1\x7d\x7d")
    ++ openingFrame "2"

/-- The session is open and the request for it has been cancelled, so that its answer is an error.
-/
theorem effect_follows_verdict_secondThoughts : ∃ log server server' r,
    IsLifecycle r
      ∧ Attended (⟨.silent, none, {}⟩ : Host Unit Unit) 0 r log server
      ∧ server.step (handler ⟨.silent, none, {}⟩) (.task 0) = some server'
      ∧ server'.task? 0 = none ∧ server.answers = true
      ∧ server.connection.inFlight.isCancelled 0 = true
      ∧ ∃ verdict, Did r (log ++ [(server.state, server'.state)]) server'.state verdict
        ∧ server'.connection.queue = server.connection.queue
          ++ if server.answers then [.send (.response ⟨some r.id, server.answerTo 0 verdict⟩)]
            else [] := by
  have hserve : ({ state := { engine := (), manifest := (), disk := {} } } :
      Server (Session Unit Unit) Standing).serve? = some reopener := rfl
  have hserved : Served (⟨.silent, none, {}⟩ : Host Unit Unit) (fun _ _ => true) []
      (reopener.feed secondThoughts) := .feed secondThoughts (.start hserve)
  -- The request comes; then it is cancelled while its task goes on; then the task ends.
  have hrun : (play? (⟨.silent, none, {}⟩ : Host Unit Unit) [.loop, .loop] []
      (reopener.feed secondThoughts)).any (fun first =>
        (comer? first.2 0).any (fun r => r.is Catalogue.initializeSession)
        && (attend? (⟨.silent, none, {}⟩ : Host Unit Unit) 0
          (.loop :: List.replicate 8 (.task 0)) first.2).any fun server =>
            server.answers && server.connection.inFlight.isCancelled 0
            && (server.step (handler (⟨.silent, none, {}⟩ : Host Unit Unit)) (.task 0)).any
              fun server' => (server'.task? 0).isNone) = true := by decide +kernel
  obtain ⟨⟨heard, first⟩, hplay, hrun⟩ := (Option.any_eq_true _ _).mp hrun
  obtain ⟨hcomer, hrun⟩ := Bool.and_eq_true_iff.mp hrun
  obtain ⟨r, hcomer, hopening⟩ := (Option.any_eq_true _ _).mp hcomer
  obtain ⟨server, hattend, hrun⟩ := (Option.any_eq_true _ _).mp hrun
  obtain ⟨hcancelled, hrun⟩ := Bool.and_eq_true_iff.mp hrun
  obtain ⟨server', hstep, hends⟩ := (Option.any_eq_true _ _).mp hrun
  obtain ⟨hanswers, hcancelled⟩ := Bool.and_eq_true_iff.mp hcancelled
  rw [Option.isNone_iff_eq_none] at hends
  have hcomes := Attended.comes (hserved.play hplay) (task?_of_comer? hcomer)
  obtain ⟨log, hattended⟩ := hcomes.attend hattend
  exact ⟨log, server, server', r, .inl hopening, hattended, hstep, hends, hanswers, hcancelled,
    effect_follows_verdict (.inl hopening) hattended hstep hends⟩

/-- The id of a response, with the text of its error if it has one. -/
def answered? : Message → Option (Option RequestId × Option String)
  | .response ⟨id, .ok _⟩ => some (id, none)
  | .response ⟨id, .error e⟩ => some (id, some e.message)
  | _ => none

/-- **A request that is answered as cancelled can have opened the session.** Who comes next is
turned away then, and would have opened the session if the first request had never come. -/
theorem cancelled_opening_opens :
    (∃ heard server,
      Served (⟨.silent, none, {}⟩ : Host Unit Unit) (fun _ _ => true) heard server
        ∧ server.connection.phase = .running ∧ server.tasks.length = 0
        ∧ server.state.lifecycle = .initialized
        ∧ server.written.filterMap answered?
          = [(some (.number 1), some ResponseError.requestCancelled.message),
            (some (.number 2), some alreadyInitialized.message)])
    ∧ ∃ heard server,
      Served (⟨.silent, none, {}⟩ : Host Unit Unit) (fun _ _ => true) heard server
        ∧ server.connection.phase = .running ∧ server.tasks.length = 0
        ∧ server.written.filterMap answered? = [(some (.number 2), none)] := by
  have hserve : ({ state := { engine := (), manifest := (), disk := {} } } :
      Server (Session Unit Unit) Standing).serve? = some reopener := rfl
  constructor
  · have hrun : (play? (⟨.silent, none, {}⟩ : Host Unit Unit)
        (List.replicate 3 .loop ++ List.replicate 9 (.task 0) ++ [.loop]
          ++ List.replicate 2 (.task 1) ++ List.replicate 3 .writer) []
        (reopener.feed secondThoughts)).any (fun last =>
          last.2.connection.phase == .running && last.2.tasks.length == 0
          && last.2.state.lifecycle == .initialized
          && last.2.written.filterMap answered?
            == [(some (.number 1), some ResponseError.requestCancelled.message),
              (some (.number 2), some alreadyInitialized.message)]) = true := by decide +kernel
    obtain ⟨⟨heard, server⟩, hplay, hlast⟩ := (Option.any_eq_true _ _).mp hrun
    simp only [Bool.and_eq_true, beq_iff_eq] at hlast
    obtain ⟨⟨⟨hphase, htasks⟩, hopen⟩, hwritten⟩ := hlast
    have hserved : Served (⟨.silent, none, {}⟩ : Host Unit Unit) (fun _ _ => true) []
        (reopener.feed secondThoughts) := .feed secondThoughts (.start hserve)
    exact ⟨heard, server, hserved.play hplay, hphase, htasks, hopen, hwritten⟩
  · have hrun : (play? (⟨.silent, none, {}⟩ : Host Unit Unit)
        (List.replicate 2 .loop ++ List.replicate 9 (.task 0) ++ List.replicate 2 .writer) []
        (reopener.feed (openingFrame "2"))).any (fun last =>
          last.2.connection.phase == .running && last.2.tasks.length == 0
          && last.2.written.filterMap answered? == [(some (.number 2), none)])
        = true := by decide +kernel
    obtain ⟨⟨heard, server⟩, hplay, hlast⟩ := (Option.any_eq_true _ _).mp hrun
    simp only [Bool.and_eq_true, beq_iff_eq] at hlast
    obtain ⟨⟨hphase, htasks⟩, hwritten⟩ := hlast
    have hserved : Served (⟨.silent, none, {}⟩ : Host Unit Unit) (fun _ _ => true) []
        (reopener.feed (openingFrame "2")) := .feed (openingFrame "2") (.start hserve)
    exact ⟨heard, server, hserved.play hplay, hphase, htasks, hwritten⟩

end Session

end FlagServer
