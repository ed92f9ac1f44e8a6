import FlagServer.Text.Basic
import FlagServer.Text.Utf8

/-!
# Frames

A stream is a sequence of frames: a block of header lines, a blank line, and as many bytes as
the header `Content-Length` says. The bytes of a body are not looked at.

* Header lines end in a line feed and are UTF-8; white space around them, around the header's
  name and around its value does not count.
* The name is compared without regard to ASCII case. Lines without a colon and headers of other
  names are ignored, and of several lengths the last counts.
* A stream that cannot be read on from has no way back, so the first fault is final.
-/

namespace FlagServer

/-- Why a stream cannot be read on. -/
inductive FrameError where
  /-- A header line is not text. -/
  | invalidData
  /-- The stream ends inside a body. -/
  | bodyCut
  /-- The stream ends inside the headers. -/
  | headerCut
  /-- The headers give no length. -/
  | missingLength
  /-- A length is no number. -/
  | invalidLength (value : String)
  /-- The length is beyond the limit. -/
  | tooLarge (length : Nat)
  deriving DecidableEq

namespace Frame

/-- The most bytes of a body. -/
def maxBody : Nat := 67108864

/-- The greatest number that a header can give. -/
def maxLength : Nat := 18446744073709551615

/-- The byte that ends a line. -/
def lineFeed : UInt8 := 0x0a

end Frame

/-- The text of a fault. -/
def FrameError.message : FrameError → String
  | .invalidData => "I/O error on transport: stream did not contain valid UTF-8"
  | .bodyCut => "I/O error on transport: early eof"
  | .headerCut => "unexpected end of stream while reading headers"
  | .missingLength => "missing Content-Length header"
  | .invalidLength value => "invalid Content-Length value: " ++ value
  | .tooLarge n =>
    "Content-Length " ++ String.ofList (Text.Decimal.digits n) ++ " exceeds maximum "
      ++ String.ofList (Text.Decimal.digits Frame.maxBody)

namespace Frame

/-! ## One header line -/

/-- The name of the header that counts, in lower case. -/
def lengthName : List Char := "content-length".toList

/-- The number of a length: digits, perhaps after a plus sign, within 64 bits. -/
def length? (cs : List Char) : Option Nat :=
  let ds := match cs with
    | '+' :: ds => ds
    | ds => ds
  match Text.Decimal.value? ds with
  | some n => if n ≤ maxLength then some n else none
  | none => none

/-- What a line says. -/
inductive Line where
  /-- Nothing: the headers end here. -/
  | blank
  /-- The length of the body. -/
  | length (n : Nat)
  /-- A length that is no number. -/
  | badLength (value : List Char)
  /-- Anything else. -/
  | other
  deriving DecidableEq

/-- What a line of text says. -/
def line (cs : List Char) : Line :=
  let trimmed := Text.trim cs
  if trimmed.isEmpty then .blank
  else
    match Text.splitOnce? ':' trimmed with
    | none => .other
    | some (name, value) =>
      if (Text.trim name).map Char.toLower == lengthName then
        let value := Text.trim value
        match length? value with
        | some n => .length n
        | none => .badLength value
      else .other

/-! ## Reading -/

/-- What the bytes that have arrived amount to. -/
inductive Reading where
  /-- Not enough has arrived yet: at least this many bytes are missing. -/
  | more (missing : Nat)
  /-- The stream ended between frames. -/
  | finished
  /-- A frame, and the bytes after it. -/
  | frame (body rest : List UInt8)
  /-- A fault. -/
  | fault (e : FrameError)
  deriving DecidableEq

/-- The body of the given length at the front, once the headers are read. -/
def readBody (ended : Bool) (length : Option Nat) (s : List UInt8) : Reading :=
  match length with
  | none => .fault .missingLength
  | some n =>
    if maxBody < n then .fault (.tooLarge n)
    else if n ≤ s.length then .frame (s.take n) (s.drop n)
    else if ended then .fault .bodyCut
    else .more (n - s.length)

/-- Reads on inside the headers: `begun` says whether any of their bytes have been read,
`length` is the last length given, `ended` says whether the stream ends after `s`. -/
def readHeaders (ended begun : Bool) (length : Option Nat) (s : List UInt8) : Reading :=
  match _h : Text.takeThrough? lineFeed s with
  | some (bytes, rest) =>
    match Text.Utf8.decode? bytes with
    | none => .fault .invalidData
    | some cs =>
      match line cs with
      | .blank => readBody ended length rest
      | .length n => readHeaders ended true (some n) rest
      | .badLength value => .fault (.invalidLength (String.ofList value))
      | .other => readHeaders ended true length rest
  | none =>
    if !ended then .more 1
    else if s.isEmpty then if begun then .fault .headerCut else .finished
    else
      match Text.Utf8.decode? s with
      | none => .fault .invalidData
      | some cs =>
        match line cs with
        | .blank => readBody ended length []
        | .badLength value => .fault (.invalidLength (String.ofList value))
        | _ => .fault .headerCut
termination_by s.length
decreasing_by all_goals exact Text.length_of_takeThrough? _h

/-- Reads the next frame of a stream of which the bytes `s` have arrived; `ended` says that no
more will. -/
def read (ended : Bool) (s : List UInt8) : Reading :=
  readHeaders ended false none s

/-- Reads at most `count` frames of a whole stream: the bodies, and the fault that ended the
reading, if one did. -/
def readUpTo : Nat → List UInt8 → List (List UInt8) × Option FrameError
  | 0, _ => ([], none)
  | count + 1, s =>
    match read true s with
    | .frame body rest =>
      let (bodies, fault) := readUpTo count rest
      (body :: bodies, fault)
    | .fault e => ([], some e)
    | _ => ([], none)

/-- Reads a whole stream, in which every frame takes at least one byte. -/
def readAll (s : List UInt8) : List (List UInt8) × Option FrameError :=
  readUpTo (s.length + 1) s

/-! ## Writing -/

/-- The header block of a body of `n` bytes. -/
def header (n : Nat) : List UInt8 :=
  Text.Utf8.encode
    ("Content-Length: ".toList ++ Text.Decimal.digits n ++ ['\r', '\n', '\r', '\n'])

/-- The frame of a body. -/
def write (body : List UInt8) : List UInt8 :=
  header body.length ++ body

end Frame

end FlagServer
