/-!
# Standing in line

What the messages of a session share is used in one of two ways: together with others, by those
who only look at it, or alone, by those who change it. Whoever finds a thing free takes it in
hand; whoever does not takes the next place in the line before it.

The line is fair. Nobody in it is overtaken, not even by the one who has just let go of the thing
and wants it again: a thing is not free while somebody who could have it stands in line. Those who
use it together go on together, up to the first in line who wants it alone.
-/

namespace FlagServer

/-- How a thing is used. -/
inductive Use where
  /-- By any number at once. -/
  | together
  /-- By one at a time. -/
  | alone
  deriving DecidableEq

/-- A thing's line, with those who have the thing in hand. -/
structure Line where
  /-- How many places have been given out. -/
  given : Nat := 0
  /-- The places in line, in their order. -/
  waiting : List (Nat × Use) := []
  /-- How many have the thing in hand together. -/
  sharing : Nat := 0
  /-- Somebody has it in hand alone. -/
  taken : Bool := false

namespace Line

/-- Those who have the thing in hand leave room for one more. -/
def hasRoom (l : Line) : Use → Bool
  | .together => !l.taken
  | .alone => !l.taken && l.sharing == 0

/-- One who comes after these places may have the thing: there is room, and nobody among them is
overtaken. -/
def isOpenAfter (l : Line) (earlier : List (Nat × Use)) (use : Use) : Bool :=
  l.hasRoom use &&
    match use with
    | .together => earlier.all fun entry => entry.2 == .together
    | .alone => earlier.isEmpty

/-- One who comes now may have the thing. -/
def isFree (l : Line) (use : Use) : Bool :=
  l.isOpenAfter l.waiting use

/-- It is the turn of a place. -/
def isTurn (l : Line) (place : Nat) (use : Use) : Bool :=
  l.isOpenAfter (l.waiting.takeWhile fun entry => entry.1 != place) use

/-- Joins the line: the place, and the line behind it. -/
def join (l : Line) (use : Use) : Nat × Line :=
  (l.given, { l with given := l.given + 1, waiting := l.waiting ++ [(l.given, use)] })

/-- Leaves a place. -/
def leave (l : Line) (place : Nat) : Line :=
  { l with waiting := l.waiting.filter fun entry => entry.1 != place }

/-- Takes the thing in hand. -/
def take (l : Line) : Use → Line
  | .together => { l with sharing := l.sharing + 1 }
  | .alone => { l with taken := true }

/-- Lets go of the thing. -/
def release (l : Line) : Use → Line
  | .together => { l with sharing := l.sharing - 1 }
  | .alone => { l with taken := false }

/-- To take a thing and to let go of it changes nothing, if there was room. -/
theorem release_take {l : Line} {use : Use} (h : l.hasRoom use = true) :
    (l.take use).release use = l := by
  cases use <;> cases l <;> simp_all [hasRoom, take, release]

end Line

/-! ## The lines of a session -/

/-- What the messages of a session share. -/
inductive Resource where
  /-- How far the session has come. -/
  | lifecycle
  /-- Which build system there is. -/
  | buildSystem
  /-- The open documents. -/
  | documents
  /-- What a build system over a database keeps. -/
  | database
  deriving DecidableEq

/-- A line before each resource. -/
structure Lines where
  /-- Before how far the session has come. -/
  lifecycle : Line := {}
  /-- Before the build system. -/
  buildSystem : Line := {}
  /-- Before the open documents. -/
  documents : Line := {}
  /-- Before what a build system over a database keeps. -/
  database : Line := {}

namespace Lines

/-- The line before a resource. -/
def get (ls : Lines) : Resource → Line
  | .lifecycle => ls.lifecycle
  | .buildSystem => ls.buildSystem
  | .documents => ls.documents
  | .database => ls.database

/-- The lines with another before a resource. -/
def set (ls : Lines) (r : Resource) (line : Line) : Lines :=
  match r with
  | .lifecycle => { ls with lifecycle := line }
  | .buildSystem => { ls with buildSystem := line }
  | .documents => { ls with documents := line }
  | .database => { ls with database := line }

/-- A changed line is found again, and no other has changed. -/
@[simp]
theorem get_set (ls : Lines) (r r' : Resource) (line : Line) :
    (ls.set r line).get r' = if r = r' then line else ls.get r' := by
  cases r <;> cases r' <;> simp [set, get]

end Lines

end FlagServer
