import FlagServer.Text.Basic
import FlagServer.Text.Utf8

/-!
# Paths

A path is a string of bytes, kept as it was spelled. Its meaning is its list of components:
repeated and trailing slashes vanish, and so does every `.` but one that a relative path
begins with. Looking up, comparing and taking prefixes go by components; printing goes by
spelling.
-/

namespace FlagServer

/-- A path as it was spelled. -/
structure Path where
  /-- The spelling. -/
  bytes : List UInt8
  deriving DecidableEq

instance : Inhabited Path := ⟨⟨[]⟩⟩

namespace Path

/-- The byte between components. -/
def slash : UInt8 := 0x2f

/-- The byte of which `.` and `..` consist. -/
def dot : UInt8 := 0x2e

/-- What a path is made of. -/
inductive Component where
  /-- The root directory, first in an absolute path. -/
  | root
  /-- A leading `.` of a relative path. -/
  | here
  /-- A `..`. -/
  | up
  /-- Any other name. -/
  | name (bytes : List UInt8)
  deriving DecidableEq

/-- The path spelled by a string. -/
def ofString (s : String) : Path :=
  ⟨Text.Utf8.encodeString s⟩

/-- The path as a string, if it is text. -/
def text? (p : Path) : Option String :=
  Text.Utf8.decodeString? p.bytes

/-- The path as a string, what is not text replaced. -/
def textLossy (p : Path) : String :=
  Text.Utf8.decodeStringLossy p.bytes

/-- An absolute path begins with a slash. -/
def isAbsolute (p : Path) : Bool :=
  p.bytes.head? == some slash

/-! ## Components -/

/-- The component of one piece between slashes; an empty piece and `.` are none. -/
def componentOf? (piece : List UInt8) : Option Component :=
  if piece.isEmpty || piece == [dot] then none
  else if piece == [dot, dot] then some .up
  else some (.name piece)

/-- The components of a path. -/
def components (p : Path) : List Component :=
  match Text.splitOn slash p.bytes with
  | [] => []
  | first :: rest =>
    let body := rest.filterMap componentOf?
    if p.isAbsolute then .root :: body
    else if first == [dot] then .here :: body
    else (componentOf? first).toList ++ body

/-- The spelling of one component after the root. -/
def Component.spelling : Component → List UInt8
  | .root => []
  | .here => [dot]
  | .up => [dot, dot]
  | .name bytes => bytes

/-- The plainest path with the given components. -/
def ofComponents : List Component → Path
  | .root :: rest => ⟨slash :: Text.joinWith slash (rest.map Component.spelling)⟩
  | cs => ⟨Text.joinWith slash (cs.map Component.spelling)⟩

/-- Two paths with the same components. -/
def same (p q : Path) : Bool :=
  p.components == q.components

/-- The components of `q` begin those of `p`. -/
def startsWith (p q : Path) : Bool :=
  q.components.isPrefixOf p.components

/-! ## Names -/

/-- The last component, if it is a name. -/
def fileName? (p : Path) : Option (List UInt8) :=
  match p.components.getLast? with
  | some (.name bytes) => some bytes
  | _ => none

/-- What follows the last dot of the file name, if something stands before that dot. -/
def extension? (p : Path) : Option (List UInt8) :=
  match p.fileName? with
  | none => none
  | some name =>
    match Text.splitOnce? dot name.reverse with
    | some (afterDot, before) => if before.isEmpty then none else some afterDot.reverse
    | none => none

/-! ## Joining -/

/-- `q` seen from `p`: `q` itself if it is absolute, and otherwise the two with one slash
between them. Joining an empty path leaves that slash at the end. -/
def join (p q : Path) : Path :=
  if q.isAbsolute then q
  else if p.bytes.isEmpty || p.bytes.getLast? == some slash then ⟨p.bytes ++ q.bytes⟩
  else ⟨p.bytes ++ slash :: q.bytes⟩

/-- A name inside a directory. -/
def child (p : Path) (name : String) : Path :=
  p.join (ofString name)

/-! ## Parents -/

/-- The part of the spelling before the first ordinary component: the root slash, or a leading
`.`. -/
def anchor (p : Path) : List UInt8 :=
  if p.isAbsolute then [slash]
  else
    match Text.splitOn slash p.bytes with
    | first :: _ => if first == [dot] then [dot] else []
    | [] => []

/-- Drops the pieces at the end that are no component. -/
def dropVoid (pieces : List (List UInt8)) : List (List UInt8) :=
  (pieces.reverse.dropWhile fun piece => (componentOf? piece).isNone).reverse

/-- The path without its last component, otherwise spelled as it was. The root and the empty
path have no parent. -/
def parent? (p : Path) : Option Path :=
  let pieces := dropVoid (Text.splitOn slash (p.bytes.drop p.anchor.length))
  if pieces.isEmpty then
    if p.anchor == [dot] then some ⟨[]⟩ else none
  else some ⟨p.anchor ++ Text.joinWith slash (dropVoid pieces.dropLast)⟩

/-- At most `count` ancestors, the nearest first. -/
def ancestorsUpTo : Nat → Path → List Path
  | 0, _ => []
  | count + 1, p =>
    match p.parent? with
    | some q => q :: ancestorsUpTo count q
    | none => []

/-- The proper ancestors, the nearest first. A path has fewer of them than bytes, or one. -/
def ancestors (p : Path) : List Path :=
  ancestorsUpTo (p.bytes.length + 1) p

/-! ## Resolving a path by its spelling

`Path.normalize` takes away `.` and `..` without asking the disk. It reads the components from
left to right and keeps a stack: a name is pushed, and `..` takes away whatever is on top, be it
a name or an earlier `..`. Only where nothing is left to take away, at the root and at the empty
path, is a `..` pushed itself.
-/

/-- One component read on top of the stack `acc`, whose last element is its top. -/
def resolve (acc : List Component) : Component → List Component
  | .here => acc
  | .up =>
    match acc.getLast? with
    | none => acc ++ [.up]
    | some .root => acc ++ [.up]
    | some _ => acc.dropLast
  | c => acc ++ [c]

/-- The components that are left after resolution. -/
def resolved (cs : List Component) : List Component :=
  cs.foldl resolve []

/-- The path with `.` and `..` resolved by spelling. -/
def normalize (p : Path) : Path :=
  ofComponents (resolved p.components)

end Path

end FlagServer
