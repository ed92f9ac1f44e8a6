import FlagServer.Server.Basic

/-!
# Taking turns

One agent works at a time, until it has to wait; then it is the turn of the one who has been
able to go on for longest. The disk is slower than anything else: an agent that waits for it
goes on when nobody else can. Of several who become able to go on at once, the one who has
waited for longest is first.

A turn is not endless: who has taken as many steps that count as a turn allows gives way before
the next, and goes on in a new turn when nobody else can go on but by the disk. Whoever gives way
keeps what it has in hand.
-/

namespace FlagServer

/-- A server whose agents take turns. -/
structure Run (η τ : Type) where
  /-- The server. -/
  server : Server η τ
  /-- The agents, those first who have waited for longest. -/
  order : List Agent := []
  /-- The agents that have become able to go on, in the order in which they have. -/
  ready : List Agent := []
  /-- Whose turn it is. -/
  current : Option Agent := none
  /-- How many steps that count are left of this turn. -/
  left : Nat := 0
  /-- The agents that have given way, in the order in which they have. -/
  resting : List Agent := []

namespace Run

variable {η τ : Type}

/-- How many steps that count a turn allows. -/
def allowance : Nat := 128

/-- The agent can go on without the disk. -/
def canMove (h : Handler η τ) (r : Run η τ) (a : Agent) : Bool :=
  !r.server.isSlow h a && (r.server.step h a).isSome

/-- Takes note of new agents and of those that have become able to go on. -/
def note (h : Handler η τ) (r : Run η τ) : Run η τ :=
  let order := r.order ++ r.server.agents.filter fun a => !r.order.contains a
  let woken := order.filter fun a =>
    !(r.current == some a) && !r.ready.contains a && !r.resting.contains a
      && r.canMove h a
  { r with order, ready := r.ready ++ woken }

/-- A run of a server, before anybody has had a turn. -/
def ofServer (h : Handler η τ) (server : Server η τ) : Run η τ :=
  note h { server }

/-- The run after something happened to the server from outside. -/
def update (h : Handler η τ) (r : Run η τ) (f : Server η τ → Server η τ) : Run η τ :=
  note h { r with server := f r.server }

/-- A new turn of an agent. -/
def startTurn (r : Run η τ) (a : Agent) : Run η τ :=
  { r with current := some a, left := allowance }

/-- An agent works. -/
def work (h : Handler η τ) (r : Run η τ) (a : Agent) : Run η τ :=
  match r.server.step h a with
  | some server =>
    let left := if r.server.counts h a then r.left - 1 else r.left
    note h { r with server, current := some a, left }
  | none => r

/-- An agent has to wait; one that is gone does not come back. -/
def pause (r : Run η τ) (a : Agent) : Run η τ :=
  let rest := r.order.filter fun b => !(b == a)
  { r with
    current := none
    order := if r.server.agents.contains a then rest ++ [a] else rest }

/-- Nothing is left of the turn for the next step, or for another message. -/
def isSpent (h : Handler η τ) (r : Run η τ) (a : Agent) : Bool :=
  r.left == 0 && (r.server.counts h a || r.server.isBetween a)

/-- An agent gives way to the others. -/
def giveWay (r : Run η τ) (a : Agent) : Run η τ :=
  { r with current := none, resting := r.resting ++ [a] }

/-- What happens next without the disk; nothing if nobody can go on. -/
def advance (h : Handler η τ) (r : Run η τ) : Option (Run η τ) :=
  match r.current, r.ready, r.resting with
  | some a, _, _ =>
    some (if !r.canMove h a then r.pause a
      else if r.isSpent h a then r.giveWay a
      else r.work h a)
  | none, a :: ready, _ =>
    let r := { r with ready }
    some (if r.canMove h a then r.startTurn a else r)
  | none, [], a :: resting =>
    let r := { r with resting }
    some (if r.canMove h a then r.startTurn a else r)
  | none, [], [] => none

/-- At most `fuel` things happen, until nobody can go on without the disk. -/
def settleQuick (h : Handler η τ) : Nat → Run η τ → Run η τ
  | 0, r => r
  | fuel + 1, r =>
    match r.advance h with
    | some r => settleQuick h fuel r
    | none => r

/-- Who is first to go on when the disk has been read. -/
def slow? (h : Handler η τ) (r : Run η τ) : Option Agent :=
  r.order.find? fun a => r.server.isSlow h a && (r.server.step h a).isSome

/-- The turn of an agent for which the disk has been read. -/
def resume (h : Handler η τ) (r : Run η τ) (a : Agent) : Run η τ :=
  (r.startTurn a).work h a

/-- At most `fuel` things happen, until nobody can go on. -/
def settle (h : Handler η τ) : Nat → Run η τ → Run η τ
  | 0, r => r
  | fuel + 1, r =>
    match r.advance h with
    | some r => settle h fuel r
    | none =>
      match r.slow? h with
      | some a => settle h fuel (r.resume h a)
      | none => r

end Run

end FlagServer
