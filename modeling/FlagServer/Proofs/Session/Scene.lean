import FlagServer.Session.Handle
import Mathlib.Data.List.Induction

/-!
# Messages on their stages

The client's messages are handled side by side, each at a stage of its own. A `Scene` is a session
together with the messages that are being handled and all that has been done for them; an `Event` is
one thing that happens: a message comes, one of those that are being handled goes on by one step, or
something changes outside.

Nothing is said about who is next, nor about what is cancelled and when. What holds after **every**
list of events holds for every order in which the steps can happen. Where a result needs that some
events do not occur, it asks for a run in which all of them are *allowed.*

`Session.step_cases` says once what a step can be. Either the message comes nearer to what its stage
uses, and nothing changes but who stands in line for what; or it goes through its stage, and what
that does is said by `Session.act` alone.
-/

namespace FlagServer

variable {ε μ : Type}

/-! ## What a step can be -/

namespace Session

/-- Two sessions that differ in nothing but who uses what and who waits. -/
def SameButLines (s s' : Session ε μ) : Prop :=
  s' = { s with lines := s'.lines }

theorem SameButLines.refl (s : Session ε μ) : SameButLines s s :=
  rfl

theorem sameButLines_withLine (s : Session ε μ) (r : Resource) (line : Line) :
    SameButLines s (s.withLine r line) :=
  rfl

/-- **What a step can be.** Before the message has come to what its stage uses, it comes nearer and
stays at its stage; otherwise it goes through its stage. -/
theorem step_cases {h : Host ε μ} {cancelled : Bool} {standing : Standing} {s : Session ε μ}
    {turn : SessionTurn ε μ} (hstep : step h cancelled standing s = some turn) :
    (∃ touched, touch h s standing.stage = some touched ∧ standing.approach = .before
      ∧ come h s standing.stage touched = some turn)
    ∨ ∃ s', SameButLines s s' ∧ act h cancelled standing.stage s' = some turn := by
  simp only [step] at hstep
  -- The approach decides: nothing is used, or it is the message's turn, or it has what it uses in
  -- hand, or it is at the gate.
  split at hstep
  · case h_1 happroach =>
    split at hstep
    · case h_1 touched htouch => exact .inl ⟨touched, htouch, happroach, hstep⟩
    · exact .inr ⟨s, .refl s, hstep⟩
  · split at hstep
    · exact .inr ⟨_, sameButLines_withLine s _ _, hstep⟩
    · cases hstep
  · exact .inr ⟨_, sameButLines_withLine s _ _, hstep⟩
  · exact .inr ⟨s, .refl s, hstep⟩

/-- Who comes nearer to a resource changes nothing but the lines. -/
theorem come_resource {h : Host ε μ} {s : Session ε μ} {stage : Stage} {r : Resource} {use : Use}
    {turn : SessionTurn ε μ} (hcome : come h s stage (.resource r use) = some turn) :
    SameButLines s turn.state := by
  simp only [come] at hcome
  split at hcome <;> cases hcome <;> rfl

/-- Who comes nearer changes nothing but the lines and what a manifest keeps, stays at its stage,
and has begun to come to what the stage uses. -/
theorem come_cases {h : Host ε μ} {s : Session ε μ} {stage : Stage} {touched : Touch}
    {turn : SessionTurn ε μ} (hcome : come h s stage touched = some turn) :
    turn.state = { s with lines := turn.state.lines, manifest := turn.state.manifest }
      ∧ ∃ approach, turn.progress = .more ⟨stage, approach⟩ ∧ approach ≠ .before := by
  cases touched with
  | resource r use =>
    simp only [come] at hcome
    split at hcome <;> cases hcome <;> exact ⟨rfl, _, rfl, nofun⟩
  | gate =>
    simp only [come, Option.bind_eq_bind, Option.pure_def] at hcome
    obtain ⟨enter, -, hcome⟩ := Option.bind_eq_some_iff.mp hcome
    obtain ⟨manifest, -, hcome⟩ := Option.bind_eq_some_iff.mp hcome
    cases hcome
    exact ⟨rfl, _, rfl, nofun⟩

end Session

/-! ## Scenes -/

/-- A message of the client. -/
inductive Incoming where
  | request (r : IncomingRequest)
  | notification (n : IncomingNotification)

namespace Incoming

/-- Where the handling of a message begins. -/
def stage : Incoming → Stage
  | request r => .received r
  | notification n => .notified n

/-- The message is a notification. -/
def isNotification : Incoming → Bool
  | request _ => false
  | notification _ => true

end Incoming

/-- A message that is being handled. -/
structure Handling where
  /-- Its place among all messages. -/
  number : Nat
  /-- The message. -/
  message : Incoming
  /-- Where its handling stands. -/
  standing : Standing

/-- One step in the handling of a message. -/
structure Deed (ε μ : Type) where
  /-- The message, as it stood before the step. -/
  handling : Handling
  /-- The session before the step. -/
  seen : Session ε μ
  /-- What the step did. -/
  turn : Session.SessionTurn ε μ

/-- A session, the messages that are being handled, and what has been done for them. -/
structure Scene (ε μ : Type) where
  /-- The session. -/
  session : Session ε μ
  /-- The messages that are being handled. -/
  handlings : List Handling := []
  /-- The messages that have come, in order. -/
  arrived : List Incoming := []
  /-- What has been done, in order. -/
  deeds : List (Deed ε μ) := []

/-- One thing that happens. -/
inductive Event (μ : Type) where
  /-- A message comes. -/
  | arrive (message : Incoming)
  /-- The message with this number goes on by one step, cancelled or not. -/
  | step (number : Nat) (cancelled : Bool)
  /-- The disk and the state of the manifest change. -/
  | outside (disk : FileSystem) (manifest : μ)

namespace Scene

/-- The message with a number, if it is being handled. -/
def find? (s : Scene ε μ) (number : Nat) : Option Handling :=
  s.handlings.find? fun x => x.number == number

/-- The messages that are being handled, after one of them went on. -/
def advance (handlings : List Handling) (number : Nat) : Progress Standing → List Handling
  | .more standing =>
    handlings.map fun x => if x.number == number then { x with standing } else x
  | .done _ => handlings.filter fun x => !(x.number == number)

/-- The scene after a step of one of the messages. -/
def after (s : Scene ε μ) (x : Handling) (turn : Session.SessionTurn ε μ) : Scene ε μ :=
  { s with
    session := turn.state
    handlings := advance s.handlings x.number turn.progress
    deeds := s.deeds ++ [⟨x, s.session, turn⟩] }

/-- The scene after an event; nothing where the message is not being handled, or has to wait. -/
def step? (h : Host ε μ) (s : Scene ε μ) : Event μ → Option (Scene ε μ)
  | .arrive message =>
    some { s with
      handlings := s.handlings ++ [⟨s.arrived.length, message, message.stage.standing⟩]
      arrived := s.arrived ++ [message] }
  | .step number cancelled =>
    (s.find? number).bind fun x =>
      (Session.step h cancelled x.standing s.session).map (s.after x)
  | .outside disk manifest => some { s with session := { s.session with disk, manifest } }

/-- The scene after some events, if all of them are allowed when they happen. -/
def run? (h : Host ε μ) (allowed : Scene ε μ → Event μ → Bool) (s : Scene ε μ) :
    List (Event μ) → Option (Scene ε μ)
  | [] => some s
  | e :: events => if allowed s e then (s.step? h e).bind fun s => run? h allowed s events else none

/-- Everything is allowed. -/
def anything (_ : Scene ε μ) (_ : Event μ) : Bool := true

/-- Notifications come one after the other, and messages go only through stages that are allowed. -/
def inTurn (allowed : Session ε μ → Stage → Bool) (s : Scene ε μ) : Event μ → Bool
  | .arrive message => !message.isNotification || s.handlings.all (!·.message.isNotification)
  | .step number _ => (s.find? number).all fun x => allowed s.session x.standing.stage
  | .outside _ _ => true

/-- A session before anything has happened. -/
def start (engine : ε) (manifest : μ) (disk : FileSystem) : Scene ε μ :=
  { session := { engine, manifest, disk } }

/-! ## Runs -/

section Runs

variable {h : Host ε μ} {allowed : Scene ε μ → Event μ → Bool} {s s' s'' : Scene ε μ}
  {events more : List (Event μ)} {e : Event μ}

/-- A run of two lists of events is a run of the first and then of the second. -/
theorem run?_append : run? h allowed s (events ++ more)
    = (run? h allowed s events).bind fun s => run? h allowed s more := by
  induction events generalizing s with
  | nil => rfl
  | cons e events ih =>
    rw [List.cons_append, run?, run?]
    split
    · cases s.step? h e with
      | none => rfl
      | some t => exact ih
    · rfl

/-- The last event of a run is allowed after the others, and happens then. -/
theorem run?_concat : run? h allowed s (events ++ [e]) = some s''
    ↔ ∃ t, run? h allowed s events = some t ∧ allowed t e = true ∧ t.step? h e = some s'' := by
  rw [run?_append, Option.bind_eq_some_iff]
  refine exists_congr fun t => and_congr_right fun _ => ?_
  rw [run?]
  by_cases hallowed : allowed t e = true
  · rw [if_pos hallowed]
    cases t.step? h e <;> simp [run?, hallowed]
  · simp [hallowed]

/-- **What every allowed event keeps holds after every run.** -/
theorem run_induction {P : Scene ε μ → Prop} (hrun : run? h allowed s events = some s')
    (hstart : P s)
    (hstep : ∀ t e t', P t → allowed t e = true → t.step? h e = some t' → P t') : P s' := by
  -- The induction is on the last event, since what is allowed depends on all that came before.
  induction events using List.reverseRecOn generalizing s' with
  | nil =>
    obtain rfl : s = s' := Option.some.inj hrun
    exact hstart
  | append_singleton events e ih =>
    obtain ⟨t, ht, hallowed, hstep'⟩ := run?_concat.mp hrun
    exact hstep t e s' (ih ht) hallowed hstep'

end Runs

end Scene

end FlagServer
