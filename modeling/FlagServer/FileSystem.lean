import FlagServer.Path.Basic

/-!
# Files

The part of a disk that the program reads: regular files by their names from the root, and the
directories around them. A path is looked up the way a kernel does it, component by component
from the root or from the working directory, so that a path below a regular file and a name
that is too long fail in their own ways and not as absent.

What may be opened is not worked out from owners and modes. A disk says of each place that
cannot be opened what the system answers there. Links are not followed, because there are none.
-/

namespace FlagServer

/-- Why a file cannot be read or made. -/
inductive FileError where
  /-- Nothing has this name. -/
  | notFound
  /-- The path leads through something that is no directory. -/
  | notADirectory
  /-- The path names a directory. -/
  | isADirectory
  /-- A name, or the path, is too long. -/
  | invalidFilename
  /-- The path holds a NUL byte. -/
  | invalidInput
  /-- The contents are not text. -/
  | invalidData
  /-- The user may not open a file, or may not go on from a directory. -/
  | permissionDenied
  /-- Any other refusal of the system, by its number. -/
  | other (code : Nat)
  deriving DecidableEq

/-- The names that lead from the root to a file. -/
abbrev Location := List (List UInt8)

/-- Regular files and directories. Every directory on the way to one of them exists too. -/
structure FileSystem where
  /-- Regular files and their contents. -/
  files : List (Location × List UInt8) := []
  /-- Directories. -/
  directories : List Location := []
  /-- Where relative paths start. -/
  workingDirectory : Location := []
  /-- Places that can neither be opened nor left for a place below, and the refusal of each. -/
  barred : List (Location × FileError) := []

namespace FileSystem

/-- The longest name. -/
def maxName : Nat := 255

/-- One more than the length of the longest path. -/
def maxPath : Nat := 4096

/-- The contents of the regular file at a location. -/
def fileAt? (fs : FileSystem) (l : Location) : Option (List UInt8) :=
  (fs.files.find? fun entry => entry.1 == l).map (·.2)

/-- A directory stands at the location: it is the root or the working directory, it is listed,
or something is below it. -/
def isDirectory (fs : FileSystem) (l : Location) : Bool :=
  l.isEmpty || l.isPrefixOf fs.workingDirectory
    || fs.directories.any (fun d => l.isPrefixOf d)
    || fs.files.any (fun entry => l.isPrefixOf entry.1 && !(l == entry.1))

/-- The error of going on from a location that is no directory. -/
def obstacle (fs : FileSystem) (l : Location) : FileError :=
  if (fs.fileAt? l).isSome then .notADirectory else .notFound

/-- The refusal at a location. -/
def refusal? (fs : FileSystem) (l : Location) : Option FileError :=
  fs.barred.lookup l

/-- What keeps a lookup from leaving a location for another place. -/
def closed? (fs : FileSystem) (l : Location) : Option FileError :=
  if fs.isDirectory l then fs.refusal? l else some (fs.obstacle l)

/-- What keeps a lookup from following a component. The root is in sight from everywhere. -/
def barrier? (fs : FileSystem) (l : Location) : Path.Component → Option FileError
  | .root => none
  | .here | .up => fs.closed? l
  | .name n => (fs.closed? l).or (if maxName < n.length then some .invalidFilename else none)

/-- Follows components from a location. -/
def walk (fs : FileSystem) (l : Location) : List Path.Component → Except FileError Location
  | [] => .ok l
  | c :: cs =>
    match fs.barrier? l c with
    | some e => .error e
    | none =>
      match c with
      | .root => fs.walk [] cs
      | .here => fs.walk l cs
      | .up => fs.walk l.dropLast cs
      | .name n => fs.walk (l ++ [n]) cs

/-- Where a path leads. -/
def locate (fs : FileSystem) (p : Path) : Except FileError Location :=
  if p.bytes.contains 0 then .error .invalidInput
  else if p.bytes.isEmpty then .error .notFound
  else if maxPath ≤ p.bytes.length then .error .invalidFilename
  else fs.walk fs.workingDirectory p.components

/-- The contents of the file that a path names. -/
def read (fs : FileSystem) (p : Path) : Except FileError (List UInt8) :=
  match fs.locate p with
  | .error e => .error e
  | .ok l =>
    match fs.refusal? l, fs.fileAt? l with
    | some e, _ => .error e
    | none, some contents => .ok contents
    | none, none => .error (if fs.isDirectory l then .isADirectory else .notFound)

/-- The contents of the file that a path names, as text. -/
def readText (fs : FileSystem) (p : Path) : Except FileError String :=
  match fs.read p with
  | .error e => .error e
  | .ok bytes =>
    match Text.Utf8.decodeString? bytes with
    | some s => .ok s
    | none => .error .invalidData

/-! ## Changes -/

/-- The location that a path spells, without a look at the disk. -/
def spelled (fs : FileSystem) (p : Path) : Location :=
  p.components.foldl (fun l c =>
    match c with
    | .root => []
    | .here => l
    | .up => l.dropLast
    | .name n => l ++ [n]) fs.workingDirectory

/-- Something stands at the location. -/
def occupied (fs : FileSystem) (l : Location) : Bool :=
  fs.isDirectory l || (fs.fileAt? l).isSome

/-- The disk after everything at and below a location is gone. The directory around it stays. -/
def removeAt (fs : FileSystem) (l : Location) : FileSystem :=
  { fs with
    files := fs.files.filter fun entry => !l.isPrefixOf entry.1
    barred := fs.barred.filter fun entry => !l.isPrefixOf entry.1
    directories := (fs.directories.filter fun d => !l.isPrefixOf d)
      ++ if fs.occupied l then [l.dropLast] else [] }

/-- The disk after a file, or a whole directory, is gone. -/
def remove (fs : FileSystem) (p : Path) : FileSystem :=
  fs.removeAt (fs.spelled p)

/-- The disk with the given contents in a file, whose directories are made where they are
missing. -/
def write (fs : FileSystem) (p : Path) (contents : List UInt8) : FileSystem :=
  let l := fs.spelled p
  let fs := fs.removeAt l
  { fs with files := fs.files ++ [(l, contents)] }

/-- The disk with a directory. -/
def makeDirectory (fs : FileSystem) (p : Path) : FileSystem :=
  { fs with directories := fs.directories ++ [fs.spelled p] }

/-- The disk on which the system refuses to open a path. -/
def bar (fs : FileSystem) (p : Path) (e : FileError) : FileSystem :=
  { fs with barred := (fs.spelled p, e) :: fs.barred }

/-! ## Making what is missing -/

/-- The disk with a directory at the place to which a path leads. One that is there already will
do; a regular file will not. -/
def ensureDirectory (fs : FileSystem) (p : Path) : Except FileError FileSystem :=
  match fs.locate p with
  | .error e => .error e
  | .ok l =>
    if fs.isDirectory l then .ok fs
    else if (fs.fileAt? l).isSome then .error .notADirectory
    else .ok { fs with directories := fs.directories ++ [l] }

/-- The disk with the first of these directories, of which each is above the one before it. The
ones above are made only if the way to the first leads through something that is missing. -/
def ensureChain (fs : FileSystem) : List Path → Except FileError FileSystem
  | [] => .ok fs
  | p :: above =>
    match fs.ensureDirectory p with
    | .ok fs => .ok fs
    | .error .notFound =>
      match fs.ensureChain above with
      | .ok fs => fs.ensureDirectory p
      | .error e => .error e
    | .error e => .error e

/-- The disk with a directory and whatever is missing on the way to it. -/
def ensureDirectories (fs : FileSystem) (p : Path) : Except FileError FileSystem :=
  fs.ensureChain ((p :: p.ancestors).filter fun q => q.parent?.isSome)

/-- The disk with a file to append to: the one that is there, or an empty one. -/
def openForAppend (fs : FileSystem) (p : Path) : Except FileError FileSystem :=
  match fs.locate p with
  | .error e => .error e
  | .ok l =>
    if fs.isDirectory l then .error .isADirectory
    else
      match fs.refusal? l with
      | some e => .error e
      | none =>
        if (fs.fileAt? l).isSome then .ok fs
        else .ok { fs with files := fs.files ++ [(l, [])] }

/-- A path leads to a regular file. -/
def isFile (fs : FileSystem) (p : Path) : Bool :=
  match fs.locate p with
  | .error _ => false
  | .ok l => (fs.fileAt? l).isSome

end FileSystem

end FlagServer
