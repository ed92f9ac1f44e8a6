import FlagServer.Path.Basic
import FlagServer.Text.Basic
import FlagServer.Url.Percent

/-!
# URLs

A URL in its normal form: parts that the parser has already lowercased, encoded and resolved.
Two URLs are equal exactly if all their parts are, and the text of a URL is its parts in
order.
-/

namespace FlagServer

/-- The part of a URL after `//`. -/
structure Url.Authority where
  /-- User name and password with their `@`, or nothing. -/
  userInfo : String := ""
  /-- The host in its written form. -/
  host : String := ""
  /-- The port, unless it is the scheme's own. -/
  port : Option Nat := none
  deriving DecidableEq

/-- The path of a URL. -/
inductive Url.Body where
  /-- Text that is no hierarchy. -/
  | plain (text : String)
  /-- The segments after slashes. -/
  | segments (parts : List String)
  deriving DecidableEq

/-- A URL in normal form. -/
structure Url where
  /-- The scheme, in lowercase. -/
  scheme : String
  /-- What follows `//`, if that stands in the URL. -/
  authority : Option Url.Authority
  /-- The path. -/
  body : Url.Body
  /-- What follows `?`. -/
  query : Option String
  /-- What follows `#`. -/
  fragment : Option String
  deriving DecidableEq

namespace Url

/-- The text of the part after `//`. -/
def Authority.chars (a : Authority) : List Char :=
  a.userInfo.toList ++ a.host.toList ++
    match a.port with
    | some n => ':' :: Text.Decimal.digits n
    | none => []

/-- The text of a path. -/
def Body.chars : Body → List Char
  | .plain text => text.toList
  | .segments parts => parts.flatMap fun s => '/' :: s.toList

/-- Whether the path would be taken for an authority: it begins with two slashes and no
authority stands before it. -/
def needsGuard (u : Url) : Bool :=
  match u.authority, u.body with
  | none, .segments ("" :: _ :: _) => true
  | _, _ => false

/-- The text of a URL. -/
def chars (u : Url) : List Char :=
  u.scheme.toList ++ ':' ::
    ((match u.authority with
      | some a => '/' :: '/' :: a.chars
      | none => []) ++
    (if u.needsGuard then ['/', '.'] else []) ++ u.body.chars ++
    (match u.query with
      | some q => '?' :: q.toList
      | none => []) ++
    (match u.fragment with
      | some f => '#' :: f.toList
      | none => []))

/-- The text of a URL as a string. -/
def text (u : Url) : String :=
  String.ofList u.chars

/-! ## Local files -/

/-- A letter. -/
def isLetter (c : Char) : Bool :=
  ('a' ≤ c && c ≤ 'z') || ('A' ≤ c && c ≤ 'Z')

/-- The bytes end in a drive letter and its mark, after at least one byte. -/
def endsInDrive (bytes : List UInt8) : Bool :=
  match bytes.reverse with
  | mark :: letter :: _ :: _ =>
    (mark == 0x3a || mark == 0x7c) && isLetter (Char.ofNat letter.toNat)
  | _ => false

/-- The local path of a `file` URL without a host: each segment after a slash, its encoded
bytes put back. A path that ends in a drive letter gets a slash behind it. -/
def filePath? (u : Url) : Option Path :=
  match u.scheme == "file", u.authority, u.body with
  | true, some a, .segments parts =>
    if a.host.isEmpty then
      let bytes := parts.flatMap fun s => Path.slash :: percentDecode s.toList
      some ⟨if endsInDrive bytes then bytes ++ [Path.slash] else bytes⟩
    else none
  | _, _, _ => none

end Url

end FlagServer
