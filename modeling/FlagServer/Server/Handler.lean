import FlagServer.Message.Envelope
import FlagServer.Protocol.Registry

/-!
# Handlers

A handler answers requests and takes notifications. Handling one message goes through stages:
in each, the handler looks at the state that all messages share, changes it, and names the next
stage. A stage is the unit of what happens at once; between two stages of one message, other
messages may go through stages of theirs.

A stage may have to wait until others have changed the state. A *slow* stage waits for the disk.
A stage that uses something that messages share *counts*: nobody may go through many of them
without letting others go on too.
-/

namespace FlagServer

/-- How the handling of a message goes on. -/
inductive Progress (τ : Type) where
  /-- With another stage. -/
  | more (stage : τ)
  /-- Not at all: it is done. The outcome of a notification does not matter. -/
  | done (outcome : Except ResponseError Json)

/-- What a stage did. -/
structure Turn (η τ : Type) where
  /-- The state that it leaves. -/
  state : η
  /-- A message that it sends. -/
  send : Option Message := none
  /-- It asks for the connection to be closed. -/
  close : Bool := false
  /-- How it goes on. -/
  progress : Progress τ

/-- A handler with shared state `η` and stages `τ`. -/
structure Handler (η τ : Type) where
  /-- The methods that it knows. -/
  registry : Registry
  /-- The first stage of a request. -/
  request : IncomingRequest → τ
  /-- The first stage of a notification. -/
  notification : IncomingNotification → τ
  /-- What a stage does, given whether its request has been cancelled; nothing while it has to
  wait. -/
  step : Bool → τ → η → Option (Turn η τ)
  /-- The stage waits for the disk. -/
  isSlow : τ → Bool
  /-- The stage counts for the length of a turn. -/
  counts : τ → Bool

end FlagServer
