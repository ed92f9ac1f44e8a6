import FlagServer.Json.Literal
import FlagServer.Text.Utf8

/-!
# Percent encoding

Each part of a URL has a set of characters that it writes by their bytes, `%` and two
uppercase hexadecimal digits apiece. What is already written so is left as it is, so encoding
does not decode first and never encodes twice.
-/

namespace FlagServer.Url

/-- One uppercase hexadecimal digit. -/
def upperHexDigit (d : Nat) : Char :=
  if d < 10 then Char.ofNat (0x30 + d) else Char.ofNat (0x37 + d)

/-- A byte by its number. -/
def percentByte (b : UInt8) : List Char :=
  ['%', upperHexDigit (b.toNat / 16), upperHexDigit (b.toNat % 16)]

/-- The text with the characters of `reserved` written by their bytes. -/
def percentEncode (reserved : Char → Bool) (cs : List Char) : List Char :=
  cs.flatMap fun c =>
    if reserved c then (Text.Utf8.encodeChar c).flatMap percentByte else [c]

/-- The bytes of a text, with the ones that are given by their numbers put back. -/
def percentDecode : List Char → List UInt8
  | [] => []
  | '%' :: a :: b :: rest =>
    match Json.hexValue? a, Json.hexValue? b with
    | some hi, some lo => UInt8.ofNat (16 * hi + lo) :: percentDecode rest
    | _, _ => 0x25 :: percentDecode (a :: b :: rest)
  | c :: rest => Text.Utf8.encodeChar c ++ percentDecode rest

/-! ## The sets -/

/-- Control characters and everything outside ASCII. -/
def isControl (c : Char) : Bool :=
  c.toNat < 0x20 || 0x7e < c.toNat

/-- What a fragment writes by bytes. -/
def inFragmentSet (c : Char) : Bool :=
  isControl c || [' ', '"', '<', '>', '\x60'].contains c

/-- What a query writes by bytes; the queries of special schemes also the apostrophe. -/
def inQuerySet (special : Bool) (c : Char) : Bool :=
  isControl c || [' ', '"', '#', '<', '>'].contains c || (special && c == '\x27')

/-- What a path writes by bytes. -/
def inPathSet (c : Char) : Bool :=
  inFragmentSet c || ['#', '?', '\x7b', '\x7d'].contains c

/-- What a user name or password writes by bytes. -/
def inUserInfoSet (c : Char) : Bool :=
  inPathSet c || ['/', ':', ';', '=', '@', '[', '\\', ']', '^', '|'].contains c

end FlagServer.Url
