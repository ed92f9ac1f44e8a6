import FlagServer.Proofs.Connection.Cancellation
import FlagServer.Proofs.Server.Stream
import FlagServer.Session.Handle

/-!
# A server is traffic

What is proved of traffic is proved of every list of acts. This file shows that a server does
nothing to its connection but acts: whatever its agents do, and whatever comes from outside, there
is traffic that **mirrors** it, with the same connection and with the tasks of the server as the
handlers at work. So a server has every property of all runs, whoever takes turns with whom.

One thing is asked of the handler. It may answer a request only by ending, so that a message that
it sends in between is a notification. The handler of a session is such a one: it sends lines for
the client's log.
-/

namespace FlagServer

variable {η τ : Type}

/-- A handler sends nothing but notifications. -/
def Handler.OnlyNotifies (h : Handler η τ) : Prop :=
  ∀ cancelled stage state turn message, h.step cancelled stage state = some turn →
    turn.send = some message → ∃ method params, message = .notification method params

namespace Server

/-- The ids and tickets of the requests that are being handled. -/
def atWork (s : Server η τ) : List (RequestId × Nat) :=
  s.tasks.map fun task => (task.id, task.ticket)

/-- **Traffic mirrors a server:** they have one connection and the same handlers at work. -/
structure Mirrors (s : Server η τ) (t : Traffic) : Prop where
  connection : t.connection = s.connection
  running : t.running = s.atWork

namespace Mirrors

variable {registry : Registry} {s s' : Server η τ} {t : Traffic}

/-- An operation that touches no requests is one act. -/
theorem op (h : Mirrors s t) {o : Connection.Op} (hop : s.connection.op? o = some s'.connection)
    (htasks : s'.tasks = s.tasks) :
    ∃ t', t.step? registry (.other o) = some t' ∧ Mirrors s' t' := by
  refine ⟨{ t with
    connection := s'.connection
    posted := t.posted ++ Traffic.queuedSince t.connection.queue s'.connection.queue }, ?_, rfl, ?_⟩
  · simp only [Traffic.step?, Traffic.perform?, h.connection, hop, Option.map_some]
  · rw [atWork, htasks]
    exact h.running

/-- A frame that is dispatched is one act, and the handler that it starts is a task. -/
theorem receive (ht : Mirrors s t) (h : Handler η τ) (body : List UInt8) :
    ∃ t', t.step? h.registry (.receive body) = some t' ∧ Mirrors (s.receive h body) t' := by
  obtain ⟨t', hstep, hc, hr⟩ : ∃ t', t.step? h.registry (.receive body) = some t'
      ∧ t'.connection = (t.connection.dispatch h.registry body).1
      ∧ t'.running = t.running ++ (t.connection.dispatch h.registry body).2.started :=
    ⟨_, rfl, rfl, rfl⟩
  rw [ht.connection] at hc hr
  refine ⟨t', hstep, ?_⟩
  unfold Server.receive
  cases hdispatch : s.connection.dispatch h.registry body with
  | mk connection delivery =>
    rw [hdispatch] at hc hr
    cases delivery <;> exact ⟨hc, by simp [hr, ht.running, atWork, Delivery.started]⟩

/-- A task that is done is a handler that ends. -/
theorem finish (h : Mirrors s t) {ticket : Nat} {task : Task τ}
    (htask : s.task? ticket = some task) {outcome : Except ResponseError Json}
    (hconnection : s'.connection = s.connection.complete task.id ticket outcome)
    (htasks : s'.tasks = s.tasks.filter fun t => !(t.ticket == ticket)) :
    ∃ t', t.step? registry (.finish ticket outcome) = some t' ∧ Mirrors s' t' := by
  have hfind : (t.running.find? fun task => task.2 == ticket) = some (task.id, task.ticket) := by
    rw [h.running, atWork, List.find?_map]
    exact congrArg (Option.map _) htask
  refine ⟨{ t with
    connection := s'.connection
    running := t.running.filter fun task => !(task.2 == ticket)
    posted := t.posted ++ Traffic.queuedSince t.connection.queue s'.connection.queue },
    ?_, rfl, ?_⟩
  · simp only [Traffic.step?, Traffic.perform?, hfind, Option.map_some, h.connection, hconnection]
  · rw [atWork, htasks, h.running, atWork, List.filter_map]
    rfl

end Mirrors

/-- A server comes to another state by some acts on its connection. -/
def Acts (registry : Registry) (s s' : Server η τ) : Prop :=
  ∀ t, Mirrors s t → ∃ acts t', t.run? registry acts = some t' ∧ Mirrors s' t'

namespace Acts

variable {registry : Registry} {s s' s'' : Server η τ}

/-- What leaves the connection and the requests alone is no act. -/
theorem idle (hconnection : s'.connection = s.connection) (hatWork : s'.atWork = s.atWork) :
    Acts registry s s' := by
  intro t h
  refine ⟨[], t, rfl, ?_, ?_⟩
  · rw [h.connection, hconnection]
  · rw [h.running, hatWork]

/-- What comes to be by acts and then by acts comes to be by acts. -/
theorem trans (h : Acts registry s s') (h' : Acts registry s' s'') : Acts registry s s'' := by
  intro t ht
  obtain ⟨acts, t', hrun, ht'⟩ := h t ht
  obtain ⟨acts', t'', hrun', ht''⟩ := h' t' ht'
  refine ⟨acts ++ acts', t'', ?_, ht''⟩
  rw [Traffic.run?_append, hrun]
  exact hrun'

/-- What one act does. -/
theorem act {a : Act} (h : ∀ t, Mirrors s t → ∃ t', t.step? registry a = some t' ∧ Mirrors s' t') :
    Acts registry s s' := by
  intro t ht
  obtain ⟨t', hstep, ht'⟩ := h t ht
  exact ⟨[a], t', by simp [Traffic.run?, hstep], ht'⟩

theorem op {o : Connection.Op} (hop : s.connection.op? o = some s'.connection)
    (htasks : s'.tasks = s.tasks) : Acts registry s s' :=
  act fun _ ht => ht.op hop htasks

/-- To close the connection is four acts. -/
theorem shutDown (hconnection : s'.connection = s.connection.shutDown)
    (htasks : s'.tasks = s.tasks) : Acts registry s s' := by
  intro t h
  obtain ⟨t', hrun, hc, -, hr⟩ := Traffic.run?_shutDown registry t
  refine ⟨_, t', hrun, ?_, ?_⟩
  · rw [hc, h.connection, hconnection]
  · rw [hr, h.running, atWork, atWork, htasks]

theorem receive (h : Handler η τ) (s : Server η τ) (body : List UInt8) :
    Acts h.registry s (s.receive h body) :=
  act fun _ ht => ht.receive h body

/-- What a stage sends and asks for are acts. -/
theorem apply {h : Handler η τ} (hnotifies : h.OnlyNotifies) {cancelled : Bool} {stage : τ}
    {turn : Turn η τ} (hstep : h.step cancelled stage s.state = some turn) :
    Acts registry s (s.apply turn) := by
  -- First the message, then the wish to close.
  obtain ⟨c, hsend, hconnection⟩ : ∃ c, Acts registry s { s with connection := c }
      ∧ (s.apply turn).connection = if turn.close then c.close else c := by
    cases hmessage : turn.send with
    | none => exact ⟨s.connection, .idle rfl rfl, by simp only [Server.apply, hmessage]⟩
    | some message =>
      obtain ⟨method, params, rfl⟩ := hnotifies _ _ _ _ _ hstep hmessage
      refine ⟨s.connection.post (.notification method params),
        .op (o := .notify method (some params)) ?_ rfl, by simp only [Server.apply, hmessage]⟩
      simp only [Connection.op?, Connection.notify_snd]
  refine hsend.trans ?_
  by_cases hclose : turn.close
  · rw [if_pos hclose] at hconnection
    refine .op (o := .requestClose) ?_ rfl
    rw [hconnection]
    rfl
  · rw [if_neg hclose] at hconnection
    exact .idle hconnection rfl

/-- What the end of a task does. -/
theorem finish {ticket : Nat} {task : Task τ} (htask : s.task? ticket = some task)
    {outcome : Except ResponseError Json}
    (hconnection : s'.connection = s.connection.complete task.id ticket outcome)
    (htasks : s'.tasks = s.tasks.filter fun t => !(t.ticket == ticket)) :
    Acts registry s s' :=
  act fun _ ht => ht.finish htask hconnection htasks

end Acts

/-! ## What an agent does -/

variable {h : Handler η τ} {s s' : Server η τ}

/-- What the loop does is acts: it closes the connection, takes bytes, dispatches a frame or handles
a notification. -/
theorem acts_stepLoop (hnotifies : h.OnlyNotifies) (hstep : s.stepLoop h = some s') :
    Acts h.registry s s' := by
  obtain ⟨bodies, hloop⟩ := exists_loopStep hstep
  cases hloop with
  | closes _ _ hs | leaves _ _ hs =>
    subst hs
    exact .shutDown rfl rfl
  | takes _ _ hs =>
    subst hs
    exact .idle rfl rfl
  | @dispatches begun body rest _ _ hs =>
    subst hs
    -- To take the bytes of a frame is no act; what is dispatched then is one.
    have htaken : Acts h.registry s { s with input := rest, loop := .reading false } :=
      .idle rfl rfl
    exact htaken.trans (.receive h _ body)
  | handles _ hturn hs =>
    subst hs
    exact (Acts.apply hnotifies hturn).trans (.idle rfl rfl)
  | ends _ hs =>
    subst hs
    exact .op (o := .finishClosing) rfl rfl

/-- What the writer does is to take a command or, where it cannot write, to fail. -/
theorem acts_stepWriter {registry : Registry} (hstep : s.stepWriter = some s') :
    Acts registry s s' := by
  cases writerStep_of_stepWriter hstep with
  | writes _ hqueue hs | stops _ hqueue hs =>
    subst hs
    exact .op (o := .take) (by simp [Connection.op?, Connection.take?, hqueue]) rfl
  | fails _ _ hs =>
    subst hs
    exact .op (o := .failWriter) rfl rfl

/-- A task keeps its id and its ticket when it comes to another stage. -/
theorem atWork_of_map {ticket : Nat} {stage : τ} (htasks : s'.tasks
      = s.tasks.map fun task => if task.ticket == ticket then { task with stage } else task) :
    s'.atWork = s.atWork := by
  simp only [atWork, htasks, List.map_map]
  refine List.map_congr_left fun task _ => ?_
  simp only [Function.comp_apply]
  split <;> rfl

/-- What a task does is what its stage sends and, when it is done, its answer. -/
theorem acts_stepTask (hnotifies : h.OnlyNotifies) {ticket : Nat}
    (hstep : s.stepTask h ticket = some s') : Acts h.registry s s' := by
  obtain ⟨task, turn, htask, hturn, hstepped⟩ := taskStep_of_stepTask hstep
  have happly : Acts h.registry s (s.apply turn) := .apply hnotifies hturn
  refine happly.trans ?_
  cases hstepped with
  | goesOn _ hs =>
    subst hs
    exact .idle rfl (atWork_of_map rfl)
  | ends _ hs =>
    subst hs
    exact .finish (s := s.apply turn) htask rfl rfl

/-- **Whatever an agent does is traffic.** -/
theorem acts_step (hnotifies : h.OnlyNotifies) {agent : Agent}
    (hstep : s.step h agent = some s') : Acts h.registry s s' := by
  cases agent with
  | loop => exact acts_stepLoop hnotifies hstep
  | writer => exact acts_stepWriter hstep
  | task ticket => exact acts_stepTask hnotifies hstep

/-! ## Every state of a server -/

/-- The states that a server with a handler comes to, whoever takes turns with whom and whatever
comes from outside. -/
inductive Reached (h : Handler η τ) : Server η τ → Prop where
  | fresh (state : η) : Reached h { state }
  | serve {s s' : Server η τ} : Reached h s → s.serve? = some s' → Reached h s'
  | feed {s : Server η τ} (bytes : List UInt8) : Reached h s → Reached h (s.feed bytes)
  | endInput {s : Server η τ} : Reached h s → Reached h s.endInput
  | losePeer {s : Server η τ} : Reached h s → Reached h s.losePeer
  | step {s s' : Server η τ} {agent : Agent} : Reached h s → s.step h agent = some s' →
    Reached h s'

/-- Some acts more mirror what a server comes to by them. -/
theorem mirrored_more {registry : Registry}
    (hs : ∃ acts t, Traffic.run? registry {} acts = some t ∧ Mirrors s t)
    (hacts : Acts registry s s') :
    ∃ acts t, Traffic.run? registry {} acts = some t ∧ Mirrors s' t := by
  obtain ⟨acts, t, hrun, ht⟩ := hs
  obtain ⟨more, t', hrun', ht'⟩ := hacts t ht
  refine ⟨acts ++ more, t', ?_, ht'⟩
  rw [Traffic.run?_append, hrun]
  exact hrun'

/-- **Every state of a server is mirrored by a run.** -/
theorem Reached.mirrored (hnotifies : h.OnlyNotifies) (hreached : Reached h s) :
    ∃ acts t, Traffic.run? h.registry {} acts = some t ∧ Mirrors s t := by
  induction hreached with
  | fresh state => exact ⟨[], {}, rfl, rfl, rfl⟩
  | serve _ hserve ih =>
    obtain ⟨connection, hstart, rfl⟩ := Option.map_eq_some_iff.mp hserve
    exact mirrored_more ih (.op (o := .start) hstart rfl)
  | feed bytes _ ih => exact mirrored_more ih (.idle rfl rfl)
  | endInput _ ih => exact mirrored_more ih (.idle rfl rfl)
  | losePeer _ ih => exact mirrored_more ih (.idle rfl rfl)
  | step _ hstep ih => exact mirrored_more ih (acts_step hnotifies hstep)

/-- **The table of a server has its tasks,** until all requests are cancelled, and nothing from
then on. No two tasks have one id or one ticket. -/
theorem Reached.entries_eq (hnotifies : h.OnlyNotifies) (hreached : Reached h s) :
    s.connection.inFlight.entries = (if s.connection.inFlight.closed then [] else s.atWork)
      ∧ (s.atWork.map (·.1)).Nodup ∧ (s.atWork.map (·.2)).Nodup := by
  obtain ⟨acts, t, hrun, ht⟩ := hreached.mirrored hnotifies
  have h := Traffic.tracked_run hrun
  rw [← ht.connection, ← ht.running]
  exact ⟨h.table, h.distinct, h.nodup_tickets⟩

end Server

/-! ## The handler of a session -/

namespace Session

variable {ε μ : Type} {h : Host ε μ} {s : Session ε μ}

/-- A stage sends nothing but a line for the client's log. -/
def OnlyLogs (turn : SessionTurn ε μ) : Prop :=
  ∀ message, turn.send = some message → ∃ text, message = logLine text

/-- A stage that sends nothing sends nothing else. -/
theorem onlyLogs_of_none {turn : SessionTurn ε μ} (hsend : turn.send = none) :
    OnlyLogs turn := by
  intro message hmessage
  rw [hsend] at hmessage
  cases hmessage

/-- A stage may send a line for the log. -/
theorem onlyLogs_logLine {turn : SessionTurn ε μ} {text : String}
    (hsend : turn.send = some (logLine text)) : OnlyLogs turn := by
  intro message hmessage
  rw [hsend] at hmessage
  exact ⟨text, (Option.some.inj hmessage).symm⟩

@[simp] theorem onlyLogs_goOn (stage : Stage) : OnlyLogs (s.goOn stage) :=
  onlyLogs_of_none rfl

@[simp] theorem onlyLogs_finish (result : Json) : OnlyLogs (s.finish result) :=
  onlyLogs_of_none rfl

@[simp] theorem onlyLogs_refuse (error : ResponseError) : OnlyLogs (s.refuse error) :=
  onlyLogs_of_none rfl

@[simp] theorem onlyLogs_rest : OnlyLogs s.rest :=
  onlyLogs_of_none rfl

@[simp] theorem onlyLogs_spread (notice : Option Notice) : OnlyLogs (s.spread notice) := by
  cases notice <;> simp [spread]

@[simp] theorem onlyLogs_receive (r : IncomingRequest) : OnlyLogs (s.receive r) := by
  unfold receive claim route
  repeat' split
  all_goals simp

@[simp] theorem onlyLogs_choose (params : Datum) : OnlyLogs (choose h s params) := by
  simp only [choose]
  split <;> simp

@[simp] theorem onlyLogs_resolve (uri : Url) (language : Language) (purpose : Purpose) :
    OnlyLogs (resolve h s uri language purpose) := by
  unfold resolve
  repeat' split
  all_goals simp

@[simp] theorem onlyLogs_discover (uri : Url) (purpose : Purpose) :
    OnlyLogs (s.discover uri purpose) := by
  unfold discover
  split <;> simp

@[simp] theorem onlyLogs_use (cancelled : Bool) (uri : Url) (settings : Option Settings)
    (purpose : Purpose) : OnlyLogs (use h cancelled s uri settings purpose) := by
  unfold use
  repeat' split
  all_goals simp

@[simp] theorem onlyLogs_register (document : TextDocument) : OnlyLogs (register h s document) := by
  unfold register
  split <;> simp

@[simp] theorem onlyLogs_unregister (uri : Url) : OnlyLogs (unregister h s uri) := by
  unfold unregister
  split <;> simp

@[simp] theorem onlyLogs_review (events : List FileEvent) : OnlyLogs (review h s events) := by
  unfold review
  repeat' split
  all_goals simp

@[simp] theorem onlyLogs_reload : OnlyLogs s.reload := by
  unfold reload
  split <;> simp

@[simp] theorem onlyLogs_hear (n : IncomingNotification) : OnlyLogs (s.hear h n) := by
  unfold hear attend
  split
  · exact onlyLogs_of_none rfl
  split
  · split
    · exact onlyLogs_logLine rfl
    repeat' split
    all_goals simp
  · simp

/-- No stage sends anything but a line for the log. -/
theorem onlyLogs_act {cancelled : Bool} {stage : Stage} {turn : SessionTurn ε μ}
    (hact : act h cancelled stage s = some turn) : OnlyLogs turn := by
  cases stage
  -- The two stages that send something.
  case announcing | announcingEnd =>
    cases hact
    exact onlyLogs_logLine rfl
  -- The stages that may have to wait, for a manifest or for the engine.
  case attaching =>
    obtain ⟨_, -, rfl⟩ := Option.map_eq_some_iff.mp hact
    simp
  case answering =>
    obtain ⟨_, -, rfl⟩ := Option.map_eq_some_iff.mp hact
    exact onlyLogs_of_none rfl
  case detaching =>
    simp only [act, detach?] at hact
    split at hact
    · cases hact
      simp
    · obtain ⟨_, -, rfl⟩ := Option.map_eq_some_iff.mp hact
      simp
  case forwarding | consulting =>
    simp only [act] at hact
    split at hact <;> cases hact <;> simp
  case pushing documents =>
    cases documents <;> cases hact <;> simp
  all_goals
    cases hact
    simp

/-- To come to a thing is to send nothing. -/
theorem onlyLogs_come {stage : Stage} {touch : Touch} {turn : SessionTurn ε μ}
    (hcome : come h s stage touch = some turn) : OnlyLogs turn := by
  unfold come at hcome
  split at hcome
  · split at hcome <;> cases hcome <;> exact onlyLogs_of_none rfl
  · obtain ⟨enter, -, hcome⟩ := Option.bind_eq_some_iff.mp hcome
    obtain ⟨manifest, -, hcome⟩ := Option.bind_eq_some_iff.mp hcome
    cases hcome
    exact onlyLogs_of_none rfl

/-- **The handler of a session answers only by ending.** -/
theorem handler_onlyNotifies (h : Host ε μ) : (handler h).OnlyNotifies := by
  intro cancelled standing s turn message hstep hsend
  have hlogs : OnlyLogs turn := by
    -- A standing waits for a thing or acts, and only what acts can send.
    simp only [handler, step] at hstep
    split at hstep
    · split at hstep
      · exact onlyLogs_come hstep
      · exact onlyLogs_act hstep
    · split at hstep
      · exact onlyLogs_act hstep
      · cases hstep
    · exact onlyLogs_act hstep
    · exact onlyLogs_act hstep
  obtain ⟨text, rfl⟩ := hlogs message hsend
  exact ⟨_, _, rfl⟩

/-- **All that a server does for a session is traffic.** -/
theorem mirrored_of_reached {server : Server (Session ε μ) Standing}
    (hreached : server.Reached (handler h)) :
    ∃ acts t, Traffic.run? Catalogue.registry {} acts = some t ∧ server.Mirrors t :=
  hreached.mirrored (handler_onlyNotifies h)

end Session

end FlagServer
