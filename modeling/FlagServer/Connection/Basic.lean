import FlagServer.Connection.Calls
import FlagServer.Connection.InFlight
import FlagServer.Protocol.Catalogue

/-!
# Connections

A connection carries messages both ways. It is created, runs, closes and is closed, and never
goes back. Whatever is to be sent goes to the end of one queue, from which one writer takes it,
so messages leave in the order in which they were issued.

Every operation here is one step that nobody can get in between. Operations of several steps,
such as making a call, are written as a chain of them.
-/

namespace FlagServer

/-- How far a connection has come. -/
inductive Phase where
  | created
  | running
  | closing
  | closed
  deriving DecidableEq

/-- What the writer is to do. -/
inductive Command where
  | send (message : Message)
  /-- Stop writing. -/
  | stop

/-- One end of a connection. -/
structure Connection where
  /-- How far it has come. -/
  phase : Phase := .created
  /-- The id of the next call. -/
  nextId : Int32 := 1
  /-- The number of the next call. -/
  nextSerial : Nat := 0
  /-- The calls. -/
  calls : CallTable := {}
  /-- The requests of the other side. -/
  inFlight : InFlight := {}
  /-- What the writer has not yet taken. -/
  queue : List Command := []
  /-- The writer has failed. -/
  writerFailed : Bool := false
  /-- Somebody wants the connection closed. -/
  closeRequested : Bool := false

namespace Connection

/-! ## Sending -/

/-- Messages are still taken. -/
def accepts (c : Connection) : Bool :=
  (c.phase == .created || c.phase == .running) && !c.writerFailed

/-- Puts a message at the end of the queue; refused once the connection closes. -/
def enqueue? (c : Connection) (message : Message) : Option Connection :=
  if c.accepts then some { c with queue := c.queue ++ [.send message] } else none

/-- Puts a message at the end of the queue, or drops it. -/
def post (c : Connection) (message : Message) : Connection :=
  (c.enqueue? message).getD c

/-- Answers a request. -/
def reply (c : Connection) (id : Option RequestId) (outcome : Except ResponseError Json) :
    Connection :=
  c.post (.response { id, outcome })

/-- Sends a notification, given its parameters unless they cannot be written. -/
def notify (c : Connection) (method : String) (params : Option Json) :
    Except CallError Unit × Connection :=
  match params with
  | none => (.error .unwritable, c)
  | some params =>
    match c.enqueue? (.notification method params) with
    | some c => (.ok (), c)
    | none => (.error .connectionClosed, c)

/-- Asks for the connection to be closed. What has been queued is still sent. -/
def close (c : Connection) : Connection :=
  { c with closeRequested := true }

/-! ## Calls -/

/-- Draws the id and the number of a new call. Ids wrap around. -/
def draw (c : Connection) : Call × Connection :=
  ({ serial := c.nextSerial, id := .number c.nextId },
    { c with nextId := c.nextId + 1, nextSerial := c.nextSerial + 1 })

/-- Notes that a call has failed. -/
def fail (c : Connection) (call : Call) (error : CallError) : Connection :=
  { c with calls := c.calls.deliver call.serial (.error error) }

/-- Enters a call that is to wait; nothing if the table refuses it. -/
def await? (c : Connection) (call : Call) : Option Connection :=
  (c.calls.insert? call).map fun calls => { c with calls }

/-- Fails the call that waits under an id, if one does. -/
def failWaiting (c : Connection) (id : RequestId) (error : CallError) : Connection :=
  match c.calls.resolve? id (.error error) with
  | some calls => { c with calls }
  | none => c

/-- Sends the request of a call that has been entered; if it cannot be sent, the call fails. -/
def sendCall (c : Connection) (call : Call) (method : String) (params : Json) : Connection :=
  match c.enqueue? (.request call.id method params) with
  | some c => c
  | none => c.failWaiting call.id .connectionClosed

/-- Makes a call, given its parameters unless they cannot be written. -/
def call (c : Connection) (method : String) (params : Option Json) : Call × Connection :=
  let (call, c) := c.draw
  match params with
  | none => (call, c.fail call .unwritable)
  | some params =>
    match c.await? call with
    | none => (call, c.fail call .connectionClosed)
    | some c => (call, c.sendCall call method params)

/-- The message that tells the other side to stop working on a request. -/
def cancelMessage (id : RequestId) : Message :=
  .notification Catalogue.cancel.name (Json.ofMembers [("id", id.toJson)])

/-- Gives a call up by its id: if one waits under it, its entry goes and the other side is told.
The answer is whether one waited. -/
def giveUp (c : Connection) (id : RequestId) : Bool × Connection :=
  match c.calls.remove? id with
  | none => (false, c)
  | some calls => (true, ({ c with calls }).post (cancelMessage id))

/-- The outcome of a call, once it has one. -/
def outcome? (c : Connection) (call : Call) : Option (Except CallError Json) :=
  c.calls.outcome? call

/-- The outcome of a call that its maker may have cancelled: an outcome that is there counts
before the cancellation. -/
def outcomeOrCancel? (c : Connection) (call : Call) (cancelled : Bool) :
    Option (Except CallError Json × Connection) :=
  match c.outcome? call with
  | some outcome => some (outcome, c)
  | none => if cancelled then some (.error .cancelled, (c.giveUp call.id).2) else none

/-! ## Requests of the other side -/

/-- Ends a request with the outcome of its handler. A request that has been cancelled is
answered as such whatever the outcome, and one that is no longer under way is not answered. -/
def complete (c : Connection) (id : RequestId) (ticket : Nat)
    (outcome : Except ResponseError Json) : Connection :=
  let outcome := if c.inFlight.isCancelled ticket then .error .requestCancelled else outcome
  match c.inFlight.finish? id with
  | some inFlight => ({ c with inFlight }).reply (some id) outcome
  | none => c

/-! ## From beginning to end -/

/-- Begins to run; refused if the connection has done so before. -/
def start? (c : Connection) : Option Connection :=
  if c.phase == .created then some { c with phase := .running } else none

/-- Stops taking messages. -/
def beginClosing (c : Connection) : Connection :=
  { c with phase := .closing }

/-- Fails the calls that wait. -/
def closeCalls (c : Connection) : Connection :=
  { c with calls := c.calls.close }

/-- Cancels the requests under way. -/
def closeRequests (c : Connection) : Connection :=
  { c with inFlight := c.inFlight.close }

/-- Tells the writer to stop after what is queued. -/
def stopWriter (c : Connection) : Connection :=
  if c.writerFailed then c else { c with queue := c.queue ++ [.stop] }

/-- Closes, up to the point where the writer has to come to its end. -/
def shutDown (c : Connection) : Connection :=
  c.beginClosing.closeCalls.closeRequests.stopWriter

/-- The connection is closed. -/
def finishClosing (c : Connection) : Connection :=
  { c with phase := .closed }

/-! ## The writer -/

/-- Takes the next command from the queue. -/
def take? (c : Connection) : Option (Command × Connection) :=
  match c.queue with
  | [] => none
  | command :: queue => some (command, { c with queue })

/-- The writer could not write: nothing more is taken and the connection is to be closed. -/
def failWriter (c : Connection) : Connection :=
  { c with queue := [], writerFailed := true, closeRequested := true }

end Connection

end FlagServer
