import FlagServer.Connection.Basic
import FlagServer.Json.Reader

/-!
# What arrives

The body of each frame is a message, or an error on the part of its sender. Errors are answered
at once. A request that can be decoded and whose id is free is accepted; a notification that
can be decoded is handed on, except for cancellations, which concern the connection itself; a
response goes to the call that waits for it.
-/

namespace FlagServer

/-- What is left to do for a handler after a frame has been dispatched. -/
inductive Delivery where
  /-- Nothing. -/
  | nothing
  /-- An accepted request. -/
  | request (ticket : Nat) (r : IncomingRequest)
  /-- A notification. -/
  | notification (n : IncomingNotification)

namespace Connection

/-- Dispatches a request. -/
def dispatchRequest (registry : Registry) (c : Connection) (id : RequestId) (method : String)
    (params : Json) : Connection × Delivery :=
  match registry.decodeRequest id method params with
  | .error e => (c.reply (some id) (.error e), .nothing)
  | .ok r =>
    match c.inFlight.begin? id with
    | none =>
      (c.reply (some id)
        (.error (.invalidRequest ("request id " ++ id.display ++ " is already in flight"))),
        .nothing)
    | some (ticket, inFlight) => ({ c with inFlight }, .request ticket r)

/-- The id that the parameters of a cancellation name. -/
def cancelledId? (params : Datum) : Option RequestId :=
  match params.get? "id" with
  | some (.int n) => some (.number (Int32.ofInt n))
  | some (.text s) => some (.text s)
  | _ => none

/-- Cancels the request that the parameters of a cancellation name. -/
def dispatchCancel (c : Connection) (params : Datum) : Connection :=
  match cancelledId? params with
  | some id => { c with inFlight := c.inFlight.cancel id }
  | none => c

/-- Dispatches a notification; one that cannot be decoded is ignored. -/
def dispatchNotification (registry : Registry) (c : Connection) (method : String)
    (params : Json) : Connection × Delivery :=
  match registry.decodeNotification method params with
  | .error _ => (c, .nothing)
  | .ok n =>
    match n.extract Catalogue.cancel with
    | .ok params => (c.dispatchCancel params, .nothing)
    | .error n => (c, .notification n)

/-- Dispatches a response; one that no call waits for is ignored. -/
def dispatchResponse (c : Connection) (r : Response) : Connection :=
  match r.id with
  | none => c
  | some id =>
    match c.calls.resolve? id (r.outcome.mapError .remote) with
    | some calls => { c with calls }
    | none => c

/-- Dispatches a message. -/
def dispatchMessage (registry : Registry) (c : Connection) : Message → Connection × Delivery
  | .request id method params => c.dispatchRequest registry id method params
  | .notification method params => c.dispatchNotification registry method params
  | .response r => (c.dispatchResponse r, .nothing)

/-- Dispatches the body of a frame. -/
def dispatch (registry : Registry) (c : Connection) (body : List UInt8) :
    Connection × Delivery :=
  match Json.parseBytes? body with
  | none => (c.reply none (.error (.parseError "the body is not JSON")), .nothing)
  | some v =>
    match Message.ofJson? v with
    | .error malformed => (c.reply malformed.id (.error malformed.error), .nothing)
    | .ok message => c.dispatchMessage registry message

end Connection

end FlagServer
