import FlagServer.Proofs.Connection.Traffic
import FlagServer.Proofs.Truncation
import FlagServer.Server.Basic

/-!
# A server and its stream

A server takes its stream in portions, whatever has arrived, and reads on when it has all that the
next frame needs. Meanwhile its tasks and its writer work, and others use the same connection. This
file shows that none of this matters to **which bodies are dispatched:** they are the frames of the
stream, from the first on, as one would read them from the whole stream at once.

A `Service` is a server together with all that has arrived for it and all that it has dispatched.
`Service.next?` is one thing that happens: bytes arrive or the stream ends, the other side stops
reading, somebody else uses the connection or changes what the handler keeps, or an agent of the
server takes a step.

* `Server.LoopStep`, `Server.WriterStep` and `Server.TaskStep` say once what a step of an agent can
  be; `Server.Beside` says what everything else leaves alone.
* `Service.Follows` and `Service.Tracks` are the invariants about the stream, and `Server.Tended` is
  the one about the writer.
-/

namespace FlagServer

/-! ## What happens to a connection while it is open -/

namespace Connection

/-- **A connection goes on.** It takes messages or refuses them as before, what is in its queue
stays there, and it is asked to close if `asks` says so. -/
structure Onward (asks : Bool) (c c' : Connection) : Prop extends SamePhase c c' where
  queue : c.queue <+: c'.queue
  refused : c.accepts = false → c'.queue = c.queue
  wish : c'.closeRequested = (c.closeRequested || asks)

variable {c c' c'' : Connection}

theorem Onward.of_same (hphase : c'.phase = c.phase) (hfailed : c'.writerFailed = c.writerFailed)
    (hqueue : c'.queue = c.queue) (hwish : c'.closeRequested = c.closeRequested) :
    Onward false c c' :=
  ⟨⟨hphase, hfailed⟩, hqueue ▸ List.prefix_rfl, fun _ => hqueue, by simp [hwish]⟩

/-- A connection that nothing happens to goes on. -/
theorem Onward.refl (c : Connection) : Onward false c c :=
  .of_same rfl rfl rfl rfl

/-- One that goes on twice goes on, and is asked to close if it is asked to once. -/
theorem Onward.trans {asks asks' : Bool} (h : Onward asks c c') (h' : Onward asks' c' c'') :
    Onward (asks || asks') c c'' where
  phase := h'.phase.trans h.phase
  writerFailed := h'.writerFailed.trans h.writerFailed
  queue := h.queue.trans h'.queue
  refused hrefused :=
    (h'.refused (h.toSamePhase.accepts.trans hrefused)).trans (h.refused hrefused)
  wish := by rw [h'.wish, h.wish, Bool.or_assoc]

/-- A message that is put in the queue goes to its end, where the queue takes one. -/
theorem onward_post (c : Connection) (message : Message) : Onward false c (c.post message) := by
  rw [post_eq]
  split
  · case isTrue haccepts =>
    exact ⟨⟨rfl, rfl⟩, List.prefix_append _ _, fun h => by simp [h] at haccepts, by simp⟩
  · exact .refl c

theorem onward_close (c : Connection) : Onward true c c.close :=
  ⟨⟨rfl, rfl⟩, List.prefix_rfl, fun _ => rfl, by simp [close]⟩

/-- An answer is posted, and before that an entry of the table goes. -/
theorem onward_complete (c : Connection) (id : RequestId) (ticket : Nat)
    (outcome : Except ResponseError Json) : Onward false c (c.complete id ticket outcome) := by
  unfold complete
  cases c.inFlight.finish? id with
  | none => exact .refl c
  | some inFlight =>
    have hentry : Onward false c { c with inFlight } := .of_same rfl rfl rfl rfl
    exact hentry.trans (onward_post _ _)

/-- **Whatever is dispatched, the connection goes on.** The cases are those of the dispatch: at most
one message is posted, and apart from that only the tables change. -/
theorem onward_dispatch (registry : Registry) (c : Connection) (body : List UInt8) :
    Onward false c (c.dispatch registry body).1 := by
  rw [dispatch_eq]
  cases Message.ofBody body with
  | error malformed => exact onward_post c _
  | ok message =>
    cases message with
    | request id method params =>
      simp only [dispatchMessage, dispatchRequest]
      split
      · exact onward_post c _
      · split
        · exact onward_post c _
        · exact .of_same rfl rfl rfl rfl
    | notification method params =>
      simp only [dispatchMessage, dispatchNotification, dispatchCancel]
      split
      · exact .refl c
      · split
        · split <;> exact .of_same rfl rfl rfl rfl
        · exact .refl c
    | response r =>
      simp only [dispatchMessage, dispatchResponse]
      split
      · exact .refl c
      · split <;> exact .of_same rfl rfl rfl rfl

/-- To close a connection leaves alone whether the writer has failed and whether somebody asked for
it, and a writer that has not failed is told to stop. -/
theorem shutDown_spec (c : Connection) :
    c.shutDown.phase = .closing ∧ c.shutDown.writerFailed = c.writerFailed
      ∧ c.shutDown.closeRequested = c.closeRequested
      ∧ (c.writerFailed = false → .stop ∈ c.shutDown.queue) := by
  unfold shutDown stopWriter
  split
  · case isTrue hfailed =>
    refine ⟨rfl, rfl, rfl, fun hable => ?_⟩
    rw [show c.writerFailed = true from hfailed] at hable
    cases hable
  · exact ⟨rfl, rfl, rfl, fun _ => List.mem_append_right _ List.mem_cons_self⟩

/-- What somebody does at once who uses the connection of a server: the makers of calls, and those
who send notifications or want it closed. -/
inductive Outside where
  /-- A call is begun: it draws its id. -/
  | draw
  /-- The maker of a call does something. -/
  | act (m : Maker) (a : Maker.Act)
  /-- A notification is sent. -/
  | notify (method : String) (params : Option Json)
  /-- Somebody asks for the connection to be closed. -/
  | requestClose

/-- The use asks for the connection to be closed. -/
def Outside.asks : Outside → Bool
  | requestClose => true
  | _ => false

/-- The connection after somebody used it; nothing where they cannot. -/
def outside? (c : Connection) : Outside → Option Connection
  | .draw => some c.draw.2
  | .act m a => (m.act? c a).map (·.2)
  | .notify method params => some (c.notify method params).2
  | .requestClose => some c.close

/-- Whoever uses the connection from outside lets it go on, and only who asks for it to be closed
asks for that. -/
theorem onward_outside? {o : Outside} (h : c.outside? o = some c') : Onward o.asks c c' := by
  cases o with
  | draw =>
    cases h
    exact .of_same rfl rfl rfl rfl
  | act m a =>
    obtain ⟨⟨m', c''⟩, hact, rfl⟩ := Option.map_eq_some_iff.mp h
    -- A maker of a call changes its entry, and may post one message.
    obtain ⟨calls, rfl | ⟨message, -, rfl⟩⟩ := Maker.connection_act? hact
    · exact .of_same rfl rfl rfl rfl
    · have hcalls : Onward false c { c with calls } := .of_same rfl rfl rfl rfl
      exact hcalls.trans (onward_post _ message)
  | notify method params =>
    cases h
    rw [notify_snd]
    cases params with
    | none => exact .refl c
    | some params => exact onward_post c _
  | requestClose =>
    cases h
    exact onward_close c

end Connection

/-! ## What a step can be -/

variable {η τ : Type}

/-- How the loop has left its stream, once it has: by a fault or without one. -/
def Loop.left? : Loop τ → Option (Option FrameError)
  | draining fault => some fault
  | ended fault => some fault
  | _ => none

/-- What the loop does after a stage of a notification. -/
def Loop.after : Progress τ → Loop τ
  | .more stage => .handling stage
  | .done _ => .reading false

namespace Server

variable {h : Handler η τ} {s s' : Server η τ}

/-- A server has returned where its loop has ended, and with that fault. -/
theorem ended?_eq_some_iff {fault : Option FrameError} :
    s.ended? = some fault ↔ s.loop = .ended fault := by
  unfold ended?
  cases s.loop <;> simp

/-- What a stage of a handler says to the connection is one message at most, and a wish to close if
it has one. -/
theorem onward_apply (s : Server η τ) (turn : Turn η τ) :
    s.connection.Onward turn.close (s.apply turn).connection := by
  obtain ⟨c, hsend, heq⟩ : ∃ c, s.connection.Onward false c
      ∧ (s.apply turn).connection = if turn.close then c.close else c := by
    cases hmessage : turn.send with
    | none => exact ⟨s.connection, .refl _, by simp only [apply, hmessage]⟩
    | some message =>
      exact ⟨_, Connection.onward_post _ message, by simp only [apply, hmessage]⟩
  rw [heq]
  cases turn.close with
  | false => exact hsend
  | true => exact hsend.trans (Connection.onward_close c)

/-- The body that the loop is about to dispatch, if that is what it does next. -/
def body? (s : Server η τ) : Option (List UInt8) :=
  match s.loop, s.connection.closeRequested, s.reading with
  | .reading _, false, .frame body _ => some body
  | _, _, _ => none

/-- **What a step of the loop can be.** The list is what it dispatches. -/
inductive LoopStep (h : Handler η τ) (s s' : Server η τ) : List (List UInt8) → Prop where
  /-- It stops reading because it was asked to. -/
  | closes {begun : Bool} (hloop : s.loop = .reading begun)
    (hclose : s.connection.closeRequested = true) (hs : s' = s.leave none) : LoopStep h s s' []
  /-- It stops reading because the stream is over. -/
  | leaves {begun : Bool} {fault : Option FrameError} (hloop : s.loop = .reading begun)
    (hreading : s.reading = .atEnd fault) (hs : s' = s.leave fault)
    (hopen : s.connection.closeRequested = false) : LoopStep h s s' []
  /-- It takes bytes that have arrived. -/
  | takes {begun : Bool} {missing : Nat} (hloop : s.loop = .reading begun)
    (harrived : s.arrived ≠ []) (hs : s' = s.take missing)
    (hreading : s.reading = .more missing) (hopen : s.connection.closeRequested = false) :
    LoopStep h s s' []
  /-- It dispatches a frame. -/
  | dispatches {begun : Bool} {body rest : List UInt8} (hloop : s.loop = .reading begun)
    (hreading : s.reading = .frame body rest)
    (hs : s' = ({ s with input := rest, loop := .reading false }).receive h body)
    (hopen : s.connection.closeRequested = false) : LoopStep h s s' [body]
  /-- It goes on with a notification. -/
  | handles {stage : τ} {turn : Turn η τ} (hloop : s.loop = .handling stage)
    (hturn : h.step false stage s.state = some turn)
    (hs : s' = { s.apply turn with loop := .after turn.progress }) : LoopStep h s s' []
  /-- It ends, because the writer has. -/
  | ends {fault : Option FrameError} (hloop : s.loop = .draining fault)
    (hs : s' = { s with connection := s.connection.finishClosing, loop := .ended fault }) :
    LoopStep h s s' []

/-- A step of the loop is one of these, and dispatches the body that was to be dispatched. The cases
are those of the loop and, where it reads, of what it reads. -/
theorem loopStep_of_stepLoop (hstep : s.stepLoop h = some s') :
    LoopStep h s s' s.body?.toList := by
  unfold stepLoop at hstep
  split at hstep
  · cases hstep
  · case h_2 begun hloop =>
    split at hstep
    · case isTrue hclose =>
      cases hstep
      simpa [body?, hloop, hclose] using LoopStep.closes hloop hclose rfl
    · case isFalse hclose =>
      rw [Bool.not_eq_true] at hclose
      split at hstep
      · case h_1 missing hreading =>
        split at hstep
        · cases hstep
        · case isFalse harrived =>
          cases hstep
          simpa [body?, hloop, hclose, hreading] using
            LoopStep.takes hloop (by simpa using harrived) rfl hreading hclose
      · case h_2 hreading =>
        cases hstep
        -- A stream that is over has no fault, and one with a fault is over: both are left.
        have hover : s.reading = .atEnd none := hreading
        simpa [body?, hloop, hclose, hreading] using LoopStep.leaves hloop hover rfl hclose
      · case h_3 e hreading =>
        cases hstep
        have hover : s.reading = .atEnd (some e) := hreading
        simpa [body?, hloop, hclose, hreading] using LoopStep.leaves hloop hover rfl hclose
      · case h_4 body rest hreading =>
        cases hstep
        simpa [body?, hloop, hclose, hreading] using LoopStep.dispatches hloop hreading rfl hclose
  · case h_3 stage hloop =>
    obtain ⟨turn, hturn, rfl⟩ := Option.map_eq_some_iff.mp hstep
    have hbody : s.body? = none := by simp [body?, hloop]
    rw [hbody]
    refine .handles hloop hturn ?_
    cases turn.progress <;> rfl
  · case h_4 fault hloop =>
    split at hstep
    · cases hstep
      simpa [body?, hloop] using LoopStep.ends hloop rfl
    · cases hstep
  · cases hstep

theorem exists_loopStep (hstep : s.stepLoop h = some s') : ∃ bodies, LoopStep h s s' bodies :=
  ⟨_, loopStep_of_stepLoop hstep⟩

/-- The loop that drains goes on when the writer has ended. -/
theorem writer_ended_of_draining {fault : Option FrameError} (hloop : s.loop = .draining fault)
    (hstep : s.stepLoop h = some s') : s.writer = .ended := by
  simp only [stepLoop, hloop] at hstep
  split at hstep
  · case isTrue hended => exact beq_iff_eq.mp hended
  · cases hstep

/-- **What a step of the writer can be.** -/
inductive WriterStep (s s' : Server η τ) : Prop where
  /-- It writes a message. -/
  | writes {message : Message} {queue : List Command} (hactive : s.writer = .active)
    (hqueue : s.connection.queue = .send message :: queue)
    (hs : s' = { s with
      connection := { s.connection with queue }
      written := s.written ++ [message] })
  /-- It fails, because the other side does not read. -/
  | fails (hactive : s.writer = .active) (hpeer : s.peerReads = false)
    (hs : s' = { s with connection := s.connection.failWriter, writer := .ended })
  /-- It stops. -/
  | stops {queue : List Command} (hactive : s.writer = .active)
    (hqueue : s.connection.queue = .stop :: queue)
    (hs : s' = { s with connection := { s.connection with queue }, writer := .ended })

/-- A step of the writer is one of these. -/
theorem writerStep_of_stepWriter (hstep : s.stepWriter = some s') : WriterStep s s' := by
  -- Whatever the writer does, it takes the first command from the queue.
  have htake : ∀ {command connection}, s.connection.take? = some (command, connection) →
      ∃ queue, s.connection.queue = command :: queue
        ∧ connection = { s.connection with queue } := by
    intro command connection htake
    unfold Connection.take? at htake
    split at htake
    · cases htake
    · case h_2 command' queue hqueue =>
      cases htake
      exact ⟨queue, hqueue, rfl⟩
  unfold stepWriter at hstep
  split at hstep
  · case h_1 message connection hactive htaken =>
    obtain ⟨queue, hqueue, rfl⟩ := htake htaken
    split at hstep
    · cases hstep
      exact .writes hactive hqueue rfl
    · case isFalse hpeer =>
      cases hstep
      exact .fails hactive (by simpa using hpeer) rfl
  · case h_2 connection hactive htaken =>
    obtain ⟨queue, hqueue, rfl⟩ := htake htaken
    cases hstep
    exact .stops hactive hqueue rfl
  · cases hstep

/-- **What a step of a task can be,** after its turn. -/
inductive TaskStep (ticket : Nat) (s s' : Server η τ) (task : Task τ) (turn : Turn η τ) : Prop where
  /-- It comes to another stage. -/
  | goesOn {stage : τ} (hprogress : turn.progress = .more stage)
    (hs : s' = { s.apply turn with
      tasks := s.tasks.map fun t => if t.ticket == ticket then { t with stage } else t })
  /-- It has come to a verdict, which is posted, and is gone. -/
  | ends {verdict : Except ResponseError Json} (hprogress : turn.progress = .done verdict)
    (hs : s' = { s.apply turn with
      connection := (s.apply turn).connection.complete task.id ticket verdict
      tasks := s.tasks.filter fun t => !(t.ticket == ticket) })

/-- A step of a task is a turn of its stage, and one of these. -/
theorem taskStep_of_stepTask {ticket : Nat} (hstep : s.stepTask h ticket = some s') :
    ∃ task turn, s.task? ticket = some task
      ∧ h.step (s.connection.inFlight.isCancelled ticket) task.stage s.state = some turn
      ∧ TaskStep ticket s s' task turn := by
  unfold stepTask at hstep
  split at hstep
  · cases hstep
  · case h_2 task htask =>
    obtain ⟨turn, hturn, rfl⟩ := Option.map_eq_some_iff.mp hstep
    refine ⟨task, turn, htask, hturn, ?_⟩
    cases hprogress : turn.progress with
    | more stage => exact .goesOn hprogress rfl
    | done verdict => exact .ends hprogress rfl

/-- What a step of a task leaves of the connection and of the tasks. -/
theorem stepTask_cases {ticket : Nat} (hstep : s.stepTask h ticket = some s') :
    ∃ task cancelled turn connection tasks, task ∈ s.tasks
      ∧ h.step cancelled task.stage s.state = some turn
      ∧ s' = { s with state := turn.state, connection, tasks }
      ∧ s.connection.Onward turn.close connection
      ∧ ∀ task' ∈ tasks, task' ∈ s.tasks ∨ turn.progress = .more task'.stage := by
  obtain ⟨task, turn, htask, hturn, hstepped⟩ := taskStep_of_stepTask hstep
  have hmem : task ∈ s.tasks := List.mem_of_find?_eq_some htask
  cases hstepped with
  | goesOn hprogress hs =>
    refine ⟨task, _, turn, _, _, hmem, hturn, hs, onward_apply s turn, fun task' htask' => ?_⟩
    obtain ⟨t, ht, rfl⟩ := List.mem_map.mp htask'
    split
    · exact .inr hprogress
    · exact .inl ht
  | @ends verdict hprogress hs =>
    -- The turn may have sent something, and its verdict is posted behind that.
    refine ⟨task, _, turn, _, _, hmem, hturn, hs, ?_, fun task' htask' => ?_⟩
    · simpa using
        (onward_apply s turn).trans (Connection.onward_complete _ task.id ticket verdict)
    · exact .inl (List.mem_of_mem_filter htask')

/-- What dispatching a frame can be: the loop goes on as it did, or it has a notification to
handle. -/
theorem receive_cases (s : Server η τ) (body : List UInt8) :
    ∃ connection tasks loop, s.receive h body = { s with connection, tasks, loop }
      ∧ s.connection.Onward false connection
      ∧ (loop = s.loop ∨ ∃ n, (s.connection.dispatch h.registry body).2 = .notification n
        ∧ loop = .handling (h.notification n))
      ∧ ∀ task ∈ tasks, task ∈ s.tasks ∨ ∃ r, task.stage = h.request r := by
  have honward := Connection.onward_dispatch h.registry s.connection body
  unfold receive
  cases hdispatch : s.connection.dispatch h.registry body with
  | mk connection delivery =>
    rw [hdispatch] at honward
    cases delivery with
    | nothing => exact ⟨_, _, _, rfl, honward, .inl rfl, fun _ => .inl⟩
    | notification n => exact ⟨_, _, _, rfl, honward, .inr ⟨n, rfl, rfl⟩, fun _ => .inl⟩
    | request ticket r =>
      refine ⟨_, _, _, rfl, honward, .inl rfl, fun task htask => ?_⟩
      rw [List.mem_append, List.mem_singleton] at htask
      rcases htask with htask | rfl
      · exact .inl htask
      · exact .inr ⟨r, rfl⟩

/-- The loop does not end the stream. -/
theorem LoopStep.inputEnded {bodies : List (List UInt8)} (hstep : LoopStep h s s' bodies) :
    s'.inputEnded = s.inputEnded := by
  cases hstep with
  | closes _ _ heq | leaves _ _ heq | takes _ _ heq | handles _ _ heq | ends _ heq =>
    subst heq
    rfl
  | dispatches _ _ heq =>
    obtain ⟨connection, tasks, loop, hreceive, -⟩ :=
      receive_cases (h := h) { s with input := _, loop := .reading false } _
    rw [heq, hreceive]

/-- **What neither the loop nor the writer does** leaves both where they are, and the connection
goes on. -/
structure Beside (s s' : Server η τ) : Prop where
  loop : s'.loop = s.loop
  writer : s'.writer = s.writer
  connection : ∃ asks, s.connection.Onward asks s'.connection

/-- A server whose loop and writer have begun, and whose writer is told to stop when the loop waits
for that. -/
structure Tended (s : Server η τ) : Prop where
  begun : s.loop ≠ .idle
  writing : s.writer ≠ .idle
  able : s.writer = .active → s.connection.writerFailed = false
  stopping : ∀ fault, s.loop = .draining fault → s.connection.phase = .closing
    ∧ (s.writer = .active → .stop ∈ s.connection.queue)

/-- Nobody but the loop and the writer can bring a server out of this: the queue keeps what is in
it, and so the command to stop. -/
theorem Tended.beside (hs : s.Tended) (hbeside : s.Beside s') : s'.Tended := by
  obtain ⟨asks, honward⟩ := hbeside.connection
  refine ⟨hbeside.loop ▸ hs.begun, hbeside.writer ▸ hs.writing, fun hactive => ?_,
    fun fault hdraining => ?_⟩
  · rw [honward.writerFailed]
    exact hs.able (hbeside.writer ▸ hactive)
  · obtain ⟨hphase, hstop⟩ := hs.stopping fault (hbeside.loop ▸ hdraining)
    refine ⟨honward.phase.trans hphase, fun hactive => ?_⟩
    exact honward.queue.subset (hstop (hbeside.writer ▸ hactive))

/-- Nor does the writer, which ends when it takes the command to stop or fails. -/
theorem Tended.writerStep (hs : s.Tended) (hstep : WriterStep s s') : s'.Tended := by
  cases hstep with
  | writes hactive hqueue heq =>
    subst heq
    refine ⟨hs.begun, hs.writing, hs.able, fun fault hdraining => ?_⟩
    obtain ⟨hphase, hstop⟩ := hs.stopping fault hdraining
    refine ⟨hphase, fun _ => ?_⟩
    have hmem := hstop hactive
    rw [hqueue] at hmem
    simpa using hmem
  | fails hactive hpeer heq =>
    subst heq
    exact ⟨hs.begun, nofun, nofun, fun fault hdraining => ⟨(hs.stopping fault hdraining).1, nofun⟩⟩
  | stops hactive hqueue heq =>
    subst heq
    exact ⟨hs.begun, nofun, nofun, fun fault hdraining => ⟨(hs.stopping fault hdraining).1, nofun⟩⟩

/-- Nor does the loop, which tells the writer to stop when it leaves its stream. -/
theorem Tended.loopStep {bodies : List (List UInt8)} (hs : s.Tended)
    (hstep : LoopStep h s s' bodies) : s'.Tended := by
  have hleave : ∀ fault, (s.leave fault).Tended := by
    intro fault
    obtain ⟨hphase, hfailed, -, hstop⟩ := s.connection.shutDown_spec
    exact ⟨nofun, hs.writing, fun hactive => hfailed.trans (hs.able hactive),
      fun _ _ => ⟨hphase, fun hactive => hstop (hs.able hactive)⟩⟩
  cases hstep with
  | closes hloop hclose heq => exact heq ▸ hleave none
  | leaves hloop hreading heq => exact heq ▸ hleave _
  | takes hloop harrived heq =>
    subst heq
    exact ⟨nofun, hs.writing, hs.able, nofun⟩
  | dispatches hloop hreading heq =>
    obtain ⟨connection, tasks, loop, hreceive, honward, hnext, -⟩ :=
      receive_cases (h := h) { s with input := _, loop := .reading false } _
    rw [heq, hreceive]
    refine ⟨?_, hs.writing, fun hactive => ?_, fun fault hdraining => ?_⟩
    · obtain rfl | ⟨n, -, rfl⟩ := hnext <;> nofun
    · exact honward.writerFailed.trans (hs.able hactive)
    · obtain rfl | ⟨n, -, rfl⟩ := hnext <;> cases hdraining
  | @handles stage turn hloop hturn heq =>
    subst heq
    refine ⟨?_, hs.writing, fun hactive => ?_, fun fault hdraining => ?_⟩
    · cases turn.progress <;> nofun
    · exact (onward_apply s turn).writerFailed.trans (hs.able hactive)
    · cases hprogress : turn.progress <;> simp [Loop.after, hprogress] at hdraining
  | ends hloop heq =>
    subst heq
    exact ⟨nofun, hs.writing, hs.able, nofun⟩

end Server

/-! ## Services -/

/-- A server, all the bytes that have arrived for it, and all the bodies that it has dispatched. -/
structure Service (η τ : Type) where
  /-- The server. -/
  server : Server η τ
  /-- The bytes that have arrived, in order. -/
  fed : List UInt8 := []
  /-- The bodies that have been dispatched, in order. -/
  dispatched : List (List UInt8) := []

namespace Service

/-- One thing that happens. -/
inductive Event (η : Type) where
  /-- Bytes arrive. -/
  | feed (bytes : List UInt8)
  /-- The stream ends. -/
  | endInput
  /-- The other side reads no longer. -/
  | losePeer
  /-- What the handler keeps changes from outside. -/
  | change (state : η)
  /-- Somebody else uses the connection. -/
  | outside (o : Connection.Outside)
  /-- An agent of the server takes a step. -/
  | step (agent : Agent)

/-- The service after an event; nothing where it cannot happen. Nothing arrives once the stream has
ended. -/
def next? (h : Handler η τ) (s : Service η τ) : Event η → Option (Service η τ)
  | .feed bytes =>
    if s.server.inputEnded then none
    else some { s with server := s.server.feed bytes, fed := s.fed ++ bytes }
  | .endInput => some { s with server := s.server.endInput }
  | .losePeer => some { s with server := s.server.losePeer }
  | .change state => some { s with server := { s.server with state } }
  | .outside o =>
    (s.server.connection.outside? o).map fun connection =>
      { s with server := { s.server with connection } }
  | .step agent =>
    (s.server.step h agent).map fun server =>
      { s with
        server
        dispatched := match agent with
          | .loop => s.dispatched ++ s.server.body?.toList
          | _ => s.dispatched }

variable {h : Handler η τ} {s s' : Service η τ} {e : Event η}

/-- A step of the loop, in a service. -/
theorem loopStep_of_next? (hnext : s.next? h (.step .loop) = some s') :
    ∃ bodies, Server.LoopStep h s.server s'.server bodies
      ∧ s' = { s with server := s'.server, dispatched := s.dispatched ++ bodies } := by
  obtain ⟨server, hstep, rfl⟩ := Option.map_eq_some_iff.mp hnext
  exact ⟨_, Server.loopStep_of_stepLoop hstep, rfl⟩

theorem writerStep_of_next? (hnext : s.next? h (.step .writer) = some s') :
    Server.WriterStep s.server s'.server := by
  obtain ⟨server, hstep, rfl⟩ := Option.map_eq_some_iff.mp hnext
  exact Server.writerStep_of_stepWriter hstep

/-- All other events leave the loop and the writer where they are. -/
theorem beside_next? (hnext : s.next? h e = some s') (hloop : e ≠ .step .loop)
    (hwriter : e ≠ .step .writer) : s.server.Beside s'.server := by
  cases e with
  | feed bytes =>
    simp only [next?] at hnext
    split at hnext
    · cases hnext
    · cases hnext
      exact ⟨rfl, rfl, _, .refl _⟩
  | endInput | losePeer | change =>
    cases hnext
    exact ⟨rfl, rfl, _, .refl _⟩
  | outside o =>
    obtain ⟨connection, houtside, rfl⟩ := Option.map_eq_some_iff.mp hnext
    exact ⟨rfl, rfl, _, Connection.onward_outside? houtside⟩
  | step agent =>
    cases agent with
    | loop => exact absurd rfl hloop
    | writer => exact absurd rfl hwriter
    | task ticket =>
      obtain ⟨server, hstep, rfl⟩ := Option.map_eq_some_iff.mp hnext
      obtain ⟨task, cancelled, turn, connection, tasks, -, -, rfl, honward, -⟩ :=
        Server.stepTask_cases hstep
      exact ⟨rfl, rfl, _, honward⟩

/-- **Whatever happens, a server stays tended.** -/
theorem tended_next? (hs : s.server.Tended) (hnext : s.next? h e = some s') :
    s'.server.Tended := by
  by_cases hloop : e = .step .loop
  · subst hloop
    obtain ⟨bodies, hstep, -⟩ := loopStep_of_next? hnext
    exact hs.loopStep hstep
  · by_cases hwriter : e = .step .writer
    · subst hwriter
      exact hs.writerStep (writerStep_of_next? hnext)
    · exact hs.beside (beside_next? hnext hloop hwriter)

/-! ## What is dispatched -/

/-- These bytes may still arrive. -/
def MayCome (s : Service η τ) (more : List UInt8) : Prop :=
  s.server.inputEnded = true → more = []

/-- This is the stream of the service: what has arrived is its beginning, and all of it if no more
is to come. -/
def Awaits (s : Service η τ) (stream : List UInt8) : Prop :=
  ∃ more, s.MayCome more ∧ s.fed ++ more = stream

/-- The bytes that have not been read, with those that are still to come. -/
def unread (s : Service η τ) (more : List UInt8) : List UInt8 :=
  s.server.input ++ (s.server.arrived ++ more)

/-- **A service follows its stream.** Whatever is still to come, the bodies that have been
dispatched are the first frames of the stream and the bytes that have not been read are its rest. -/
def Follows (s : Service η τ) : Prop :=
  ∀ more, s.MayCome more → Frame.readFrames? true s.dispatched.length (s.fed ++ more)
    = some (s.dispatched, s.unread more)

/-- **A service keeps to its stream:** it follows it, and if the loop has left the stream, the rest
has no frame. -/
structure Tracks (s : Service η τ) : Prop where
  dispatched : s.Follows
  left : ∀ fault, s.server.loop.left? = some fault → ∀ more, s.MayCome more →
    Frame.read true (s.unread more) = .atEnd fault

/-- **What happens beside the loop** adds at most bytes to the stream. -/
structure Aside (s s' : Service η τ) : Prop where
  loop : s'.server.loop = s.server.loop
  input : s'.server.input = s.server.input
  dispatched : s'.dispatched = s.dispatched
  bytes : ∃ more, s.MayCome more ∧ s'.fed = s.fed ++ more
    ∧ s'.server.arrived = s.server.arrived ++ more
  inputEnded : s.server.inputEnded = true → s'.server.inputEnded = true

/-- Nothing happens to the stream. -/
theorem Aside.of_same (hloop : s'.server.loop = s.server.loop)
    (hinput : s'.server.input = s.server.input) (hdispatched : s'.dispatched = s.dispatched)
    (hfed : s'.fed = s.fed) (harrived : s'.server.arrived = s.server.arrived)
    (hended : s.server.inputEnded = true → s'.server.inputEnded = true) : s.Aside s' :=
  ⟨hloop, hinput, hdispatched, ⟨[], fun _ => rfl, by simp [hfed], by simp [harrived]⟩, hended⟩

/-- All events but the steps of the loop happen beside it. -/
theorem aside_next? (hnext : s.next? h e = some s') (hloop : e ≠ .step .loop) : s.Aside s' := by
  cases e with
  | feed bytes =>
    simp only [next?] at hnext
    split at hnext
    · cases hnext
    · case isFalse hended =>
      cases hnext
      exact ⟨rfl, rfl, rfl, ⟨bytes, fun h => absurd h hended, rfl, rfl⟩, id⟩
  | endInput =>
    cases hnext
    exact .of_same rfl rfl rfl rfl rfl fun _ => rfl
  | losePeer | change =>
    cases hnext
    exact .of_same rfl rfl rfl rfl rfl id
  | outside o =>
    obtain ⟨connection, -, rfl⟩ := Option.map_eq_some_iff.mp hnext
    exact .of_same rfl rfl rfl rfl rfl id
  | step agent =>
    obtain ⟨server, hstep, rfl⟩ := Option.map_eq_some_iff.mp hnext
    cases agent with
    | loop => exact absurd rfl hloop
    | writer =>
      cases Server.writerStep_of_stepWriter hstep with
      | writes _ _ heq | fails _ _ heq | stops _ _ heq =>
        subst heq
        exact .of_same rfl rfl rfl rfl rfl id
    | task ticket =>
      obtain ⟨task, cancelled, turn, connection, tasks, -, -, rfl, -, -⟩ :=
        Server.stepTask_cases hstep
      exact .of_same rfl rfl rfl rfl rfl id

/-- Bytes only come, and none once the stream has ended. -/
theorem fed_next? (hnext : s.next? h e = some s') :
    ∃ more, s.MayCome more ∧ s'.fed = s.fed ++ more
      ∧ (s.server.inputEnded = true → s'.server.inputEnded = true) := by
  by_cases hloop : e = .step .loop
  · subst hloop
    obtain ⟨bodies, hstep, heq⟩ := loopStep_of_next? hnext
    refine ⟨[], fun _ => rfl, ?_, fun hended => hstep.inputEnded.trans hended⟩
    rw [heq, List.append_nil]
  · have haside := aside_next? hnext hloop
    obtain ⟨more, hmore, hfed, -⟩ := haside.bytes
    exact ⟨more, hmore, hfed, haside.inputEnded⟩

/-- The stream of a service was its stream before. -/
theorem Awaits.of_next? {stream : List UInt8} (hs' : s'.Awaits stream)
    (hnext : s.next? h e = some s') : s.Awaits stream := by
  obtain ⟨more, hmore, rfl⟩ := hs'
  obtain ⟨extra, hextra, hfed, hended⟩ := fed_next? hnext
  refine ⟨extra ++ more, fun h => ?_, ?_⟩
  · rw [hextra h, hmore (hended h), List.append_nil]
  · rw [hfed, List.append_assoc]

/-- What came may also be counted among what was to come. -/
theorem Aside.unread (haside : s.Aside s') : ∃ extra, s'.fed = s.fed ++ extra
    ∧ (∀ more, s'.MayCome more → s.MayCome (extra ++ more))
    ∧ ∀ more, s'.unread more = s.unread (extra ++ more) := by
  obtain ⟨extra, hextra, hfed, harrived⟩ := haside.bytes
  refine ⟨extra, hfed, fun more hmore hended => ?_, fun more => ?_⟩
  · rw [hextra hended, hmore (haside.inputEnded hended), List.append_nil]
  · rw [Service.unread, Service.unread, haside.input, harrived, List.append_assoc]

/-- Bytes that come are among those that were to come, so that a service follows its stream as
before. -/
theorem Follows.aside (hs : s.Follows) (haside : s.Aside s') : s'.Follows := by
  obtain ⟨extra, hfed, hcome, hunread⟩ := haside.unread
  intro more hmore
  rw [haside.dispatched, hfed, List.append_assoc, hunread]
  exact hs _ (hcome more hmore)

/-- And a loop that has left its stream has left the same stream. -/
theorem Tracks.aside (hs : s.Tracks) (haside : s.Aside s') : s'.Tracks := by
  refine ⟨hs.dispatched.aside haside, ?_⟩
  obtain ⟨extra, -, hcome, hunread⟩ := haside.unread
  intro fault hleft more hmore
  rw [hunread]
  exact hs.left fault (haside.loop ▸ hleft) _ (hcome more hmore)

/-- **What the loop reads is what the stream says,** although the loop may know only the beginning
of what is still to be read. -/
theorem read_unread {more : List UInt8} (hmore : s.MayCome more)
    (hreading : ∀ n, s.server.reading ≠ .more n) :
    Frame.read true (s.unread more) = s.server.reading.before (s.server.arrived ++ more) := by
  unfold Server.reading at hreading ⊢
  -- Where the stream has ended and all has been taken, the loop knows all of it. Otherwise it reads
  -- what does not depend on more.
  by_cases hended : s.server.inputEnded = true ∧ s.server.arrived = []
  · simp [unread, hended, hmore hended.1]
  · have hfalse : (s.server.inputEnded && s.server.arrived.isEmpty) = false := by
      simpa using hended
    rw [hfalse] at hreading ⊢
    exact Frame.readHeaders_append hreading true _

/-- The loop reads nothing. -/
theorem unread_of_bytes {server : Server η τ} (hended : server.inputEnded = s.server.inputEnded)
    (hbytes : server.input ++ server.arrived = s.server.input ++ s.server.arrived) :
    (∀ more, ({ s with server } : Service η τ).MayCome more → s.MayCome more)
    ∧ ∀ more, ({ s with server } : Service η τ).unread more = s.unread more := by
  refine ⟨fun more hmore hended' => hmore (hended.trans hended'), fun more => ?_⟩
  simp only [unread, ← List.append_assoc, hbytes]

/-- A loop that moves bytes within the stream follows it as before. -/
theorem Follows.of_unread {server : Server η τ} (hs : s.Follows)
    (hended : server.inputEnded = s.server.inputEnded)
    (hbytes : server.input ++ server.arrived = s.server.input ++ s.server.arrived) :
    ({ s with server } : Service η τ).Follows := by
  obtain ⟨hcome, hunread⟩ := unread_of_bytes hended hbytes
  intro more hmore
  rw [hunread]
  exact hs more (hcome more hmore)

/-- **The loop follows the stream,** whatever it does. -/
theorem Follows.loopStep {server : Server η τ} {bodies : List (List UInt8)} (hs : s.Follows)
    (hstep : Server.LoopStep h s.server server bodies) :
    ({ s with server, dispatched := s.dispatched ++ bodies } : Service η τ).Follows := by
  cases hstep with
  | closes _ _ heq | leaves _ _ heq | handles _ _ heq | ends _ heq =>
    subst heq
    rw [List.append_nil]
    exact hs.of_unread rfl rfl
  | takes _ _ heq =>
    subst heq
    rw [List.append_nil]
    refine hs.of_unread rfl ?_
    simp only [Server.take, List.append_assoc, List.take_append_drop]
  | @dispatches begun body rest hloop hreading heq =>
    obtain ⟨connection, tasks, loop, hreceive, -, hnext, -⟩ :=
      Server.receive_cases (h := h) { s.server with input := rest, loop := .reading false } body
    rw [heq, hreceive]
    intro more hmore
    -- The frame that the loop reads is the next one of the stream.
    have hread := read_unread (s := s) hmore (by rw [hreading]; nofun)
    rw [hreading, Frame.Reading.before_frame] at hread
    rw [List.length_append]
    exact Frame.readFrames?_concat (hs more hmore) hread

/-- The loop goes on, or leaves the stream when the stream is over. -/
theorem Tracks.left_of_unread {server : Server η τ} (hs : s.Tracks)
    (hended : server.inputEnded = s.server.inputEnded)
    (hbytes : server.input ++ server.arrived = s.server.input ++ s.server.arrived)
    (hleft : ∀ fault, server.loop.left? = some fault →
      s.server.loop.left? = some fault ∨ s.server.reading = .atEnd fault) :
    ∀ fault, server.loop.left? = some fault → ∀ more,
      ({ s with server } : Service η τ).MayCome more →
      Frame.read true (({ s with server } : Service η τ).unread more) = .atEnd fault := by
  obtain ⟨hcome, hunread⟩ := unread_of_bytes hended hbytes
  intro fault hfault more hmore
  rw [hunread]
  obtain hbefore | hreading := hleft fault hfault
  · exact hs.left fault hbefore more (hcome more hmore)
  · have hread := read_unread (hcome more hmore) (by rw [hreading]; cases fault <;> nofun)
    rwa [hreading, Frame.Reading.before_atEnd] at hread

/-- **The loop keeps to the stream,** as long as it is not asked to close while it reads. -/
theorem Tracks.loopStep {server : Server η τ} {bodies : List (List UInt8)} (hs : s.Tracks)
    (hstep : Server.LoopStep h s.server server bodies)
    (hopen : ∀ begun, s.server.loop = .reading begun →
      s.server.connection.closeRequested = false) :
    ({ s with server, dispatched := s.dispatched ++ bodies } : Service η τ).Tracks := by
  refine ⟨hs.dispatched.loopStep hstep, ?_⟩
  -- The loop leaves the stream when it is over or when it was asked to, and what it left then
  -- stays.
  cases hstep with
  | closes hloop hclose =>
    rw [hopen _ hloop] at hclose
    cases hclose
  | leaves hloop hreading heq =>
    subst heq
    refine hs.left_of_unread rfl rfl fun fault hfault => .inr ?_
    cases hfault
    exact hreading
  | takes hloop harrived heq =>
    subst heq
    intro fault hleft
    cases hleft
  | @dispatches begun body rest hloop hreading heq =>
    obtain ⟨connection, tasks, loop, hreceive, -, hnext, -⟩ :=
      Server.receive_cases (h := h) { s.server with input := rest, loop := .reading false } body
    rw [heq, hreceive]
    intro fault hleft
    obtain rfl | ⟨n, -, rfl⟩ := hnext <;> cases hleft
  | @handles stage turn hloop hturn heq =>
    subst heq
    intro fault hleft
    cases hprogress : turn.progress <;> simp [Loop.after, hprogress, Loop.left?] at hleft
  | ends hloop heq =>
    subst heq
    refine hs.left_of_unread rfl rfl fun fault hleft => .inl ?_
    cases hleft
    rw [hloop]
    rfl

/-- **Whatever happens, a service keeps to its stream,** as long as it is not asked to close while
the loop reads. -/
theorem tracks_next? (hs : s.Tracks) (hnext : s.next? h e = some s')
    (hopen : ∀ begun, s.server.loop = .reading begun →
      s.server.connection.closeRequested = false) : s'.Tracks := by
  by_cases hloop : e = .step .loop
  · subst hloop
    obtain ⟨bodies, hstep, heq⟩ := loopStep_of_next? hnext
    rw [heq]
    exact hs.loopStep hstep hopen
  · exact hs.aside (aside_next? hnext hloop)

end Service

end FlagServer
