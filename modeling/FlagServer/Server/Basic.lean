import FlagServer.Connection.Dispatch
import FlagServer.Frame
import FlagServer.Server.Handler

/-!
# Serving a connection

A server is made of agents that work side by side:

* the **loop** takes bytes from the stream in portions, reads frames in their order and
  dispatches them. It waits for the handling of a notification, so notifications keep their
  order, and never for that of a request;
* the **writer** takes messages from the queue and writes them;
* each accepted request has a **task** of its own.

`Server.step` is what one agent does at once. Which agent is next is not decided here: what
holds after every sequence of steps holds for every order in which the agents take turns.
-/

namespace FlagServer

/-- One who works. -/
inductive Agent where
  | loop
  | writer
  /-- The task of the request with this ticket. -/
  | task (ticket : Nat)
  deriving DecidableEq

/-- What the loop is doing. -/
inductive Loop (τ : Type) where
  /-- It has not begun. -/
  | idle
  /-- It reads the next frame, for which it may have begun to take bytes. -/
  | reading (begun : Bool)
  /-- It waits for the handling of a notification. -/
  | handling (stage : τ)
  /-- It waits for the writer to come to its end. -/
  | draining (fault : Option FrameError)
  /-- It has ended, perhaps by a fault of the stream. -/
  | ended (fault : Option FrameError)

/-- What the writer is doing. -/
inductive Writer where
  /-- It has not begun. -/
  | idle
  /-- It writes whatever is in the queue. -/
  | active
  /-- It was told to stop, or it failed. -/
  | ended
  deriving DecidableEq

/-- An accepted request. -/
structure Task (τ : Type) where
  /-- Its ticket. -/
  ticket : Nat
  /-- Its id. -/
  id : RequestId
  /-- How far its handling has come. -/
  stage : τ

/-- A server with a handler's shared state `η` and stages `τ`. -/
structure Server (η τ : Type) where
  /-- The connection. -/
  connection : Connection := {}
  /-- What the handler keeps. -/
  state : η
  /-- The bytes that have arrived and that the loop has not taken. -/
  arrived : List UInt8 := []
  /-- The bytes that the loop has taken and not read. -/
  input : List UInt8 := []
  /-- No more bytes will arrive. -/
  inputEnded : Bool := false
  /-- The other side still reads what is written. -/
  peerReads : Bool := true
  /-- The loop. -/
  loop : Loop τ := .idle
  /-- The writer. -/
  writer : Writer := .idle
  /-- The requests that are being handled. -/
  tasks : List (Task τ) := []
  /-- The messages that have been written, in order. -/
  written : List Message := []

namespace Server

variable {η τ : Type}

/-! ## From outside -/

/-- Begins to serve; refused if it has begun before. -/
def serve? (s : Server η τ) : Option (Server η τ) :=
  s.connection.start?.map fun connection =>
    { s with connection, loop := .reading false, writer := .active }

/-- Bytes arrive. -/
def feed (s : Server η τ) (bytes : List UInt8) : Server η τ :=
  { s with arrived := s.arrived ++ bytes }

/-- The stream ends. -/
def endInput (s : Server η τ) : Server η τ :=
  { s with inputEnded := true }

/-- The other side reads no longer. -/
def losePeer (s : Server η τ) : Server η τ :=
  { s with peerReads := false }

/-- How serving ended, once it has. -/
def ended? (s : Server η τ) : Option (Option FrameError) :=
  match s.loop with
  | .ended fault => some fault
  | _ => none

/-! ## Steps -/

/-- What the bytes that the loop has taken amount to. -/
def reading (s : Server η τ) : Frame.Reading :=
  Frame.read (s.inputEnded && s.arrived.isEmpty) s.input

/-- The fewest bytes that the loop takes at once if so many have arrived. -/
def portion : Nat := 8192

/-- Takes the missing bytes, or a portion if that is more. -/
def take (s : Server η τ) (missing : Nat) : Server η τ :=
  let n := max missing portion
  { s with
    input := s.input ++ s.arrived.take n
    arrived := s.arrived.drop n
    loop := .reading true }

/-- Stops reading, and closes. -/
def leave (s : Server η τ) (fault : Option FrameError) : Server η τ :=
  { s with connection := s.connection.shutDown, loop := .draining fault }

/-- Dispatches the body of a frame. -/
def receive (h : Handler η τ) (s : Server η τ) (body : List UInt8) : Server η τ :=
  let (connection, delivery) := s.connection.dispatch h.registry body
  let s := { s with connection }
  match delivery with
  | .nothing => s
  | .request ticket r =>
    { s with tasks := s.tasks ++ [{ ticket, id := r.id, stage := h.request r }] }
  | .notification n => { s with loop := .handling (h.notification n) }

/-- The server after a stage, but for how the handling goes on. -/
def apply (s : Server η τ) (turn : Turn η τ) : Server η τ :=
  let connection := match turn.send with
    | some message => s.connection.post message
    | none => s.connection
  { s with
    state := turn.state
    connection := if turn.close then connection.close else connection }

/-- What the loop does. A wish to close goes before the next frame. -/
def stepLoop (h : Handler η τ) (s : Server η τ) : Option (Server η τ) :=
  match s.loop with
  | .idle => none
  | .reading _ =>
    if s.connection.closeRequested then some (s.leave none)
    else
      match s.reading with
      | .more missing => if s.arrived.isEmpty then none else some (s.take missing)
      | .finished => some (s.leave none)
      | .fault e => some (s.leave (some e))
      | .frame body rest =>
        some (({ s with input := rest, loop := .reading false }).receive h body)
  | .handling stage =>
    (h.step false stage s.state).map fun turn =>
      { s.apply turn with
        loop := match turn.progress with
          | .more stage => .handling stage
          | .done _ => .reading false }
  | .draining fault =>
    if s.writer == .ended then
      some { s with connection := s.connection.finishClosing, loop := .ended fault }
    else none
  | .ended _ => none

/-- What the writer does. -/
def stepWriter (s : Server η τ) : Option (Server η τ) :=
  match s.writer, s.connection.take? with
  | .active, some (.send message, connection) =>
    if s.peerReads then some { s with connection, written := s.written ++ [message] }
    else some { s with connection := connection.failWriter, writer := .ended }
  | .active, some (.stop, connection) => some { s with connection, writer := .ended }
  | _, _ => none

/-- The task with a ticket. -/
def task? (s : Server η τ) (ticket : Nat) : Option (Task τ) :=
  s.tasks.find? fun task => task.ticket == ticket

/-- What a task does. -/
def stepTask (h : Handler η τ) (s : Server η τ) (ticket : Nat) : Option (Server η τ) :=
  match s.task? ticket with
  | none => none
  | some task =>
    (h.step (s.connection.inFlight.isCancelled ticket) task.stage s.state).map fun turn =>
      let s := s.apply turn
      match turn.progress with
      | .more stage =>
        { s with
          tasks := s.tasks.map fun t => if t.ticket == ticket then { t with stage } else t }
      | .done outcome =>
        { s with
          connection := s.connection.complete task.id ticket outcome
          tasks := s.tasks.filter fun t => !(t.ticket == ticket) }

/-- What an agent does at once; nothing while it has to wait. -/
def step (h : Handler η τ) (s : Server η τ) : Agent → Option (Server η τ)
  | .loop => s.stepLoop h
  | .writer => s.stepWriter
  | .task ticket => s.stepTask h ticket

/-- The stage that an agent is in, if it is handling a message. -/
def stage? (s : Server η τ) : Agent → Option τ
  | .loop =>
    match s.loop with
    | .handling stage => some stage
    | _ => none
  | .writer => none
  | .task ticket => (s.task? ticket).map (·.stage)

/-- The agent waits for the disk. -/
def isSlow (h : Handler η τ) (s : Server η τ) (a : Agent) : Bool :=
  match s.stage? a with
  | some stage => h.isSlow stage
  | none => false

/-- The next step of an agent counts for the length of a turn. To take bytes from the stream
does. -/
def counts (h : Handler η τ) (s : Server η τ) (a : Agent) : Bool :=
  match s.stage? a, a, s.loop with
  | some stage, _, _ => h.counts stage
  | none, .loop, .reading _ => (s.reading matches .more _)
  | _, _, _ => false

/-- The agent is between two messages. -/
def isBetween (s : Server η τ) (a : Agent) : Bool :=
  match a, s.loop with
  | .loop, .reading begun => !begun
  | _, _ => false

/-- All agents. -/
def agents (s : Server η τ) : List Agent :=
  .loop :: .writer :: s.tasks.map fun task => .task task.ticket

end Server

end FlagServer
