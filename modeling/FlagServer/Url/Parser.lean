import FlagServer.Url.Basic
import FlagServer.Url.Host

/-!
# Reading a URL

From text to normal form. Space around the text and line breaks inside it do not count; the
scheme decides the rest. The six *special* schemes have a host and a path whatever is written,
and take a backslash for a slash; `file` has rules of its own for hosts and drive letters; any
other scheme may have an authority, a path, or opaque text.

Line breaks are dropped part by part and not at once, because one of them is seen: after a drive
letter at the start of a `file` path it separates the letter from the text that follows.
-/

namespace FlagServer.Url

/-! ## What does not count -/

/-- A tab or a line break, which may stand anywhere. -/
def isBreak (c : Char) : Bool :=
  c == '\t' || c == '\n' || c == '\r'

/-- The text without tabs and line breaks. -/
def withoutBreaks (cs : List Char) : List Char :=
  cs.filter fun c => !isBreak c

/-- Drops control characters and spaces at the front. -/
def dropOuter (cs : List Char) : List Char :=
  cs.dropWhile fun c => c.toNat ≤ 0x20

/-- The text without control characters and spaces around it. -/
def trimmed (cs : List Char) : List Char :=
  (dropOuter (dropOuter cs).reverse).reverse

/-! ## Schemes -/

/-- The schemes whose URLs always have a host and a path. -/
def isSpecial (scheme : String) : Bool :=
  ["http", "https", "ws", "wss", "ftp", "file"].contains scheme

/-- The port that a scheme has unless another is given. -/
def defaultPort? (scheme : String) : Option Nat :=
  if scheme == "http" || scheme == "ws" then some 80
  else if scheme == "https" || scheme == "wss" then some 443
  else if scheme == "ftp" then some 21
  else none

/-- What a scheme may contain after its first letter. -/
def inScheme (c : Char) : Bool :=
  isLetter c || Text.Decimal.isDigit c || c == '+' || c == '-' || c == '.'

/-- The scheme at the front, lowercased, and what follows its colon. -/
def scheme? (cs : List Char) : Option (String × List Char) :=
  match cs.span fun c => inScheme c || isBreak c with
  | (name, ':' :: rest) =>
    match withoutBreaks name with
    | c :: name =>
      if isLetter c then some (String.ofList ((c :: name).map Char.toLower), rest) else none
    | [] => none
  | _ => none

/-- A slash, or in a special scheme a backslash. -/
def isSlash (special : Bool) (c : Char) : Bool :=
  c == '/' || (special && c == '\\')

/-- What ends an authority. -/
def endsAuthority (special : Bool) (c : Char) : Bool :=
  isSlash special c || c == '?' || c == '#'

/-! ## Paths -/

/-- A segment that means the directory itself. -/
def isSingleDot (s : String) : Bool :=
  [".", "%2e", "%2E"].contains s

/-- A segment that means the directory above. -/
def isDoubleDot (s : String) : Bool :=
  ["..", "%2e%2e", "%2e%2E", "%2E%2e", "%2E%2E", "%2e.", "%2E.", ".%2e", ".%2E"].contains s

/-- A letter followed by one of the marks. -/
def isDrive (marks : List Char) (cs : List Char) : Bool :=
  match cs with
  | [letter, mark] => isLetter letter && marks.contains mark
  | _ => false

/-- The pieces between slashes. -/
def splitSlashes (special : Bool) : List Char → List (List Char)
  | [] => [[]]
  | c :: cs =>
    if isSlash special c then [] :: splitSlashes special cs
    else
      match splitSlashes special cs with
      | [] => [[c]]
      | piece :: pieces => (c :: piece) :: pieces

/-- A segment that no dot segment takes away, in any scheme: a drive letter, alone or before a
backslash. -/
def isKept (s : String) : Bool :=
  match s.toList with
  | letter :: mark :: rest =>
    isDrive [':', '|'] [letter, mark] && (rest.isEmpty || rest.head? == some '\\')
  | _ => false

/-- A path without its last segment, unless that is kept. The last segment comes first. -/
def shorten : List String → List String
  | [] => []
  | s :: above => if isKept s then s :: above else above

/-- A segment as it is written. -/
def segmentText (piece : List Char) : String :=
  String.ofList (percentEncode inPathSet (withoutBreaks piece))

/-- A drive letter and the text that a line break separates from it. -/
def brokenDrive? (piece : List Char) : Option (String × String) :=
  match piece.dropWhile isBreak with
  | [] => none
  | letter :: rest =>
    match rest.dropWhile isBreak with
    | ':' :: mark :: rest =>
      if isLetter letter && isBreak mark && !(withoutBreaks rest).isEmpty then
        some (String.ofList [letter, ':'], segmentText rest)
      else none
    | _ => none

/-- A path after the pieces are read on top of the segments `above`, the last of which comes
first; the flag reports that a drive letter was met at its start. A dot segment at the end
leaves an empty segment, so that the path still names a directory. What a line break separates
from a drive letter is a segment whatever it says. -/
def readSegments (file : Bool) (above : List String) (drive : Bool) :
    List (List Char) → List String × Bool
  | [] => (above.reverse, drive)
  | piece :: pieces =>
    let s := segmentText piece
    let directory (above : List String) := if pieces.isEmpty then "" :: above else above
    match if file && above.isEmpty then brokenDrive? piece else none with
    | some (letter, rest) => readSegments file [rest, letter] drive pieces
    | none =>
      if isDoubleDot s then readSegments file (directory (shorten above)) drive pieces
      else if isSingleDot s then readSegments file (directory above) drive pieces
      else if file && above.isEmpty && isDrive [':', '|'] s.toList then
        readSegments file [String.ofList (s.toList.take 1 ++ [':'])] true pieces
      else readSegments file (s :: above) drive pieces

/-- A path without empty segments at its start, the last segment apart. -/
def dropEmptyFront : List String → List String
  | "" :: s :: rest => dropEmptyFront (s :: rest)
  | parts => parts

/-- The segments of a path, given without its first slash. -/
def pathSegments (scheme : String) (cs : List Char) : List String × Bool :=
  let file := scheme == "file"
  let (parts, drive) := readSegments file [] false (splitSlashes (isSpecial scheme) cs)
  (if file then dropEmptyFront parts else parts, drive)

/-- The characters without a slash at the front. -/
def dropSlash (special : Bool) : List Char → List Char
  | c :: cs => if isSlash special c then cs else c :: cs
  | [] => []

/-! ## What follows the path -/

/-- Cuts off the query and the fragment: the path, the text after `?` and the text after `#`. -/
def cutTail (cs : List Char) : List Char × Option (List Char) × Option (List Char) :=
  let (front, fragment) :=
    match Text.splitOnce? '#' cs with
    | some (front, f) => (front, some f)
    | none => (cs, none)
  match Text.splitOnce? '?' front with
  | some (path, q) => (path, some q, fragment)
  | none => (front, none, fragment)

/-- A URL from its parts, query and fragment still to be encoded. -/
def assemble (scheme : String) (authority : Option Authority) (body : Body)
    (query fragment : Option (List Char)) : Url where
  scheme := scheme
  authority := authority
  body := body
  query := query.map fun q =>
    String.ofList (percentEncode (inQuerySet (isSpecial scheme)) (withoutBreaks q))
  fragment := fragment.map fun f =>
    String.ofList (percentEncode inFragmentSet (withoutBreaks f))

/-! ## Authorities -/

/-- Cuts a list at its **last** separator. -/
def splitLast? (sep : Char) (cs : List Char) : Option (List Char × List Char) :=
  (Text.splitOnce? sep cs.reverse).map fun (after, before) => (before.reverse, after.reverse)

/-- The written form of a user name and password with their `@`; nothing if both are empty. -/
def userInfoText (cs : List Char) : List Char :=
  let (user, password) :=
    match Text.splitOnce? ':' cs with
    | some (user, password) => (user, password)
    | none => (cs, [])
  let user := percentEncode inUserInfoSet user
  let password := percentEncode inUserInfoSet password
  let text := if password.isEmpty then user else user ++ ':' :: password
  if text.isEmpty then [] else text ++ ['@']

/-- The user name and password in their written form, and what follows their `@`, the last one
of the authority. An authority that is only an `@` is refused unless nothing follows it. -/
def cutUserInfo? (special : Bool) (cs : List Char) : Option (List Char × List Char) :=
  match splitLast? '@' (cs.takeWhile fun c => !endsAuthority special c) with
  | none => some ([], cs)
  | some (userInfo, after) =>
    let rest := cs.drop (userInfo.length + 1)
    if userInfo.isEmpty && after.isEmpty && !rest.isEmpty then none
    else some (userInfoText userInfo, rest)

/-- The host at the front: up to the end of the authority or a colon outside brackets. -/
def cutHost (special inside : Bool) : List Char → List Char × List Char
  | [] => ([], [])
  | c :: cs =>
    if (c == ':' && !inside) || endsAuthority special c then ([], c :: cs)
    else
      let inside := if c == '[' then true else if c == ']' then false else inside
      let (host, rest) := cutHost special inside cs
      (c :: host, rest)

/-- The port of a run of digits: nothing for the scheme's own or for no digits, and a refusal
beyond 16 bits. -/
def port? (scheme : String) (digits : List Char) : Option (Option Nat) :=
  match Text.Decimal.value? digits with
  | none => some none
  | some n =>
    if 65535 < n then none
    else if defaultPort? scheme == some n then some none
    else some (some n)

/-- The port after a colon, and what follows it: in every scheme that is a path, which a
backslash may begin, a query, a fragment or nothing. -/
def cutPort? (scheme : String) (cs : List Char) : Option (Option Nat × List Char) :=
  match cs with
  | ':' :: cs =>
    let (digits, rest) := cs.span Text.Decimal.isDigit
    match rest with
    | [] => (port? scheme digits).map fun port => (port, [])
    | c :: rest =>
      if endsAuthority true c then (port? scheme digits).map fun port => (port, c :: rest)
      else none
  | cs => some (none, cs)

/-- The authority of a scheme other than `file`, and what follows it. A special scheme needs a
host, and so do a user name and a port. -/
def cutAuthority? (scheme : String) (cs : List Char) : Option (Authority × List Char) := do
  let special := isSpecial scheme
  let (userInfo, cs) ← cutUserInfo? special cs
  let (host, cs) := cutHost special false cs
  let written ← if special then domainHost? host else opaqueHost? host
  if written.isEmpty && (special || !userInfo.isEmpty || cs.head? == some ':') then none
  let (port, cs) ← cutPort? scheme cs
  return (⟨String.ofList userInfo, String.ofList written, port⟩, cs)

/-- A URL from what follows the two slashes. -/
def ofAuthority? (scheme : String) (cs : List Char) : Option Url :=
  let special := isSpecial scheme
  match cutAuthority? scheme cs with
  | none => none
  | some (authority, rest) =>
    let (path, query, fragment) := cutTail rest
    let parts :=
      if path.isEmpty && !special then []
      else (pathSegments scheme (dropSlash special path)).1
    some (assemble scheme (some authority) (.segments parts) query fragment)

/-! ## Local files -/

/-- A `file` URL from its host and its path without the first slash. A drive letter at the
start of the path takes the host away. -/
def ofFile (host : List Char) (path : List Char) (query fragment : Option (List Char)) : Url :=
  let (parts, drive) := pathSegments "file" path
  let host := if drive then "" else String.ofList host
  assemble "file" (some ⟨"", host, none⟩) (.segments parts) query fragment

/-- The host of a `file` URL; `localhost` is the same as none. -/
def fileHost? (cs : List Char) : Option (List Char) :=
  if cs.isEmpty then some []
  else
    (domainHost? cs).map fun host =>
      if host == "localhost".toList then [] else host

/-- What follows a slash at the front. -/
def afterSlash? (cs : List Char) : Option (List Char) :=
  match cs.dropWhile isBreak with
  | c :: cs => if isSlash true c then some cs else none
  | [] => none

/-- A `file` URL from what follows its colon. A drive letter in the place of the host belongs
to the path. Without a host the slash after it stays with the path, so that no drive letter is
at the start of such a path. -/
def file? (cs : List Char) : Option Url :=
  let (path, query, fragment) := cutTail cs
  match afterSlash? path with
  | none => some (ofFile [] path query fragment)
  | some path =>
    match afterSlash? path with
    | none => some (ofFile [] path query fragment)
    | some path =>
      let (host, after) := path.span fun c => !isSlash true c
      if isDrive [':', '|'] (withoutBreaks host) then some (ofFile [] path query fragment)
      else
        (fileHost? (withoutBreaks host)).map fun host =>
          ofFile host (if host.isEmpty then after else dropSlash true after) query fragment

/-! ## The whole -/

/-- A URL of a scheme that is not special. -/
def other? (scheme : String) (cs : List Char) : Option Url :=
  match cs with
  | '/' :: '/' :: rest => ofAuthority? scheme rest
  | cs =>
    let (path, query, fragment) := cutTail cs
    match path with
    | '/' :: rest =>
      some (assemble scheme none (.segments (pathSegments scheme rest).1) query fragment)
    | path =>
      some (assemble scheme none (.plain (String.ofList (percentEncode isControl path))) query
        fragment)

/-- The URL that a text spells. -/
def parseChars? (cs : List Char) : Option Url :=
  match scheme? (trimmed cs) with
  | none => none
  | some (scheme, rest) =>
    if scheme == "file" then file? rest
    else if isSpecial scheme then
      ofAuthority? scheme ((withoutBreaks rest).dropWhile (isSlash true))
    else other? scheme (withoutBreaks rest)

/-- The URL that a string spells. -/
def parse? (s : String) : Option Url :=
  parseChars? s.toList

end FlagServer.Url
