import FlagServer.Message.Envelope
import FlagServer.Schema.Decode

/-!
# Calls that wait for an answer

A call is a request that this side sends. Calls are numbered in the order in which they are
made; the number is the call's own for good, whereas its id comes back after 2^32 calls. The
table binds the ids that wait to the calls that wait for them, and the log has the outcome of
every call that has one.

An entry leaves the table in one of four ways: by an answer, by the call being given up, by a
message that could not be sent, or with the whole table when the connection closes. Whichever
comes first takes the entry, and the others find nothing.
-/

namespace FlagServer

/-- Why a call has no result. -/
inductive CallError where
  /-- The other side answered with an error. -/
  | remote (error : ResponseError)
  /-- This side gave the call up. -/
  | cancelled
  /-- The connection closed first. -/
  | connectionClosed
  /-- The result does not have the shape of the method's results. -/
  | invalidResponse
  /-- The parameters cannot be written. -/
  | unwritable

/-- The text of a failure. -/
def CallError.message : CallError → String
  | .remote e => "remote returned an error: " ++ e.display
  | .cancelled => "request was cancelled"
  | .connectionClosed => "connection closed"
  | .invalidResponse => "response did not match the expected shape"
  | .unwritable => "failed to serialize message"

/-- A call, as its maker holds it. -/
structure Call where
  /-- Its number. -/
  serial : Nat
  /-- The id of its request. -/
  id : RequestId
  deriving DecidableEq

/-- The calls of a connection. -/
structure CallTable where
  /-- The ids that wait for an answer, each with the number of its call. -/
  entries : List (RequestId × Nat) := []
  /-- No more entries are taken. -/
  closed : Bool := false
  /-- The outcomes of calls, in the order in which they came. -/
  outcomes : List (Nat × Except CallError Json) := []

namespace CallTable

/-- The call that waits under an id. -/
def find? (t : CallTable) (id : RequestId) : Option Nat :=
  (t.entries.find? fun entry => entry.1 == id).map (·.2)

/-- How many calls wait. -/
def size (t : CallTable) : Nat :=
  t.entries.length

/-- The table without the entry of an id. -/
def erase (t : CallTable) (id : RequestId) : CallTable :=
  { t with entries := t.entries.filter fun entry => !(entry.1 == id) }

/-- Notes the outcome of a call. -/
def deliver (t : CallTable) (serial : Nat) (outcome : Except CallError Json) : CallTable :=
  { t with outcomes := t.outcomes ++ [(serial, outcome)] }

/-- Enters a call. Refused if the table is closed or another call waits under the same id. -/
def insert? (t : CallTable) (call : Call) : Option CallTable :=
  if t.closed || (t.find? call.id).isSome then none
  else some { t with entries := t.entries ++ [(call.id, call.serial)] }

/-- Gives an outcome to the call that waits under an id; nothing if none does. -/
def resolve? (t : CallTable) (id : RequestId) (outcome : Except CallError Json) :
    Option CallTable :=
  (t.find? id).map fun serial => (t.erase id).deliver serial outcome

/-- Takes the entry of an id out without an outcome; nothing if there is none. -/
def remove? (t : CallTable) (id : RequestId) : Option CallTable :=
  (t.find? id).map fun _ => t.erase id

/-- Closes the table: every call that waits fails. -/
def close (t : CallTable) : CallTable :=
  { entries := []
    closed := true
    outcomes := t.outcomes ++ t.entries.map fun entry => (entry.2, .error .connectionClosed) }

/-- The outcome of a call, once it has one. A call that has none and does not wait has lost its
entry to somebody else, and fails as if the connection were closed. -/
def outcome? (t : CallTable) (call : Call) : Option (Except CallError Json) :=
  match t.outcomes.find? fun entry => entry.1 == call.serial with
  | some (_, outcome) => some outcome
  | none =>
    if t.entries.any fun entry => entry.2 == call.serial then none
    else some (.error .connectionClosed)

end CallTable

/-- The outcome of a call as a datum of its method's results. -/
def readOutcome (result : Schema) : Except CallError Json → Except CallError Datum
  | .error e => .error e
  | .ok v =>
    match result.decode? v with
    | some d => .ok d
    | none => .error .invalidResponse

end FlagServer
