import FlagServer.Message.Basic

/-!
# Requests that are being handled

The other side names its requests by ids and may use an id again once it has been answered. On
this side each accepted request gets a ticket that is never used again. The table binds ids to
the tickets of the requests under way, so a cancellation always reaches the present owner of an
id and never an earlier one.
-/

namespace FlagServer

/-- The requests that are being handled. -/
structure InFlight where
  /-- The ids under way, each with the ticket of its request. -/
  entries : List (RequestId × Nat) := []
  /-- No more requests are accepted. -/
  closed : Bool := false
  /-- The next ticket. -/
  nextTicket : Nat := 0
  /-- The tickets of the requests that have been cancelled. -/
  cancelled : List Nat := []

namespace InFlight

/-- The ticket of the request under way with an id. -/
def find? (t : InFlight) (id : RequestId) : Option Nat :=
  (t.entries.find? fun entry => entry.1 == id).map (·.2)

/-- How many requests are under way. -/
def size (t : InFlight) : Nat :=
  t.entries.length

/-- Accepts a request. Refused if the table is closed or the id is under way. -/
def begin? (t : InFlight) (id : RequestId) : Option (Nat × InFlight) :=
  if t.closed || (t.find? id).isSome then none
  else
    some (t.nextTicket,
      { t with entries := t.entries ++ [(id, t.nextTicket)], nextTicket := t.nextTicket + 1 })

/-- Cancels the request under way with an id; an id that is not under way changes nothing. -/
def cancel (t : InFlight) (id : RequestId) : InFlight :=
  match t.find? id with
  | some ticket => { t with cancelled := t.cancelled ++ [ticket] }
  | none => t

/-- Whether a request has been cancelled. -/
def isCancelled (t : InFlight) (ticket : Nat) : Bool :=
  t.cancelled.contains ticket

/-- Takes out the request under way with an id; nothing if none is. -/
def finish? (t : InFlight) (id : RequestId) : Option InFlight :=
  (t.find? id).map fun _ =>
    { t with entries := t.entries.filter fun entry => !(entry.1 == id) }

/-- Cancels every request under way and forgets them. -/
def close (t : InFlight) : InFlight :=
  { t with entries := [], closed := true, cancelled := t.cancelled ++ t.entries.map (·.2) }

end InFlight

end FlagServer
