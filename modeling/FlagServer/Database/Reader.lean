import FlagServer.Database.Basic
import FlagServer.Json.Literal
import FlagServer.ShellWords

/-!
# Reading databases

The file of commands is a JSON array of entries. An entry is read strictly where it is known,
and not at all where it is not: a known member may occur once only, and the value of any other
member has to be JSON and nothing more. An entry may also be an array of its five members in
order, the last three of which may be left out.

The file of flags has one flag on each line.
-/

namespace FlagServer

/-- One entry of the file of commands, as it is written. -/
structure DatabaseEntry where
  directory : String
  file : String
  /-- The compiler and its arguments. -/
  arguments : Option (List String)
  /-- The same as one string. -/
  command : Option String
  output : Option String
  deriving DecidableEq

namespace DatabaseEntry

open Json (Literal)

/-- A string. -/
def text? : Literal → Option String
  | .str s => s
  | _ => none

/-- A list of strings. -/
def texts? : Literal → Option (List String)
  | .arr items => items.mapM text?
  | _ => none

/-- A value that may be absent or null; the outer option is a refusal. -/
def maybe? {α : Type} (read : Literal → Option α) : Option Literal → Option (Option α)
  | none => some none
  | some .null => some none
  | some v => (read v).map some

/-- The value of a member that occurs at most once; the outer option is a refusal. -/
def unique? (name : String) (members : List (Option String × Literal)) :
    Option (Option Literal) :=
  match members.filter fun m => m.1 == some name with
  | [] => some none
  | [(_, v)] => some (some v)
  | _ => none

/-- An entry from the values in its places. -/
def ofPlaces? (directory file arguments command output : Option Literal) :
    Option DatabaseEntry := do
  let directory ← directory.bind text?
  let file ← file.bind text?
  let arguments ← maybe? texts? arguments
  let command ← maybe? text? command
  let output ← maybe? text? output
  return { directory, file, arguments, command, output }

/-- The entry that a literal is. -/
def ofLiteral? : Literal → Option DatabaseEntry
  | .obj members =>
    if members.any fun m => m.1.isNone then none
    else do
      let directory ← unique? "directory" members
      let file ← unique? "file" members
      let arguments ← unique? "arguments" members
      let command ← unique? "command" members
      let output ← unique? "output" members
      ofPlaces? directory file arguments command output
  | .arr items =>
    if 5 < items.length then none
    else ofPlaces? items[0]? items[1]? items[2]? items[3]? items[4]?
  | _ => none

/-- The command of an entry. Arguments count before a command string; the source file and the
output are seen from the directory, and only the source file is resolved. -/
def toCommand (e : DatabaseEntry) : Except DatabaseError CompileCommand :=
  let directory := Path.ofString e.directory
  let make (arguments : List String) : CompileCommand :=
    { directory, arguments
      file := (directory.join (.ofString e.file)).normalize
      output := e.output.map fun o => directory.join (.ofString o) }
  match e.arguments, e.command with
  | some arguments, _ => .ok (make arguments)
  | none, some command => .ok (make (ShellWords.splitString command))
  | none, none => .error (.missingCommand e.file)

end DatabaseEntry

namespace Database

/-- The entries of the file of commands. -/
def entries? (contents : String) : Option (List DatabaseEntry) :=
  match Json.literal? contents.toList with
  | some (.arr items) => items.mapM DatabaseEntry.ofLiteral?
  | _ => none

/-- The database of a file of commands; `path` only names it in a refusal. -/
def parseCommands (contents : String) (path : Path) : Except DatabaseError Database :=
  match entries? contents with
  | none => .error (.malformed path)
  | some entries => (entries.mapM DatabaseEntry.toCommand).map ofCommands

/-- The flags of a file of flags: its lines, trimmed, without the blank ones. -/
def flagLines (contents : List Char) : List (List Char) :=
  ((Text.splitOn '\n' contents).map Text.trim).filter fun line => !line.isEmpty

/-- The database of a file of flags in a directory. -/
def parseFlags (contents : String) (directory : Path) : Database :=
  .flags directory ((flagLines contents.toList).map String.ofList)

/-! ## On disk -/

/-- The text of a file, or nothing if there is no such file. -/
def readIfThere (fs : FileSystem) (path : Path) : Except DatabaseError (Option String) :=
  match fs.readText path with
  | .ok contents => .ok (some contents)
  | .error .notFound => .ok none
  | .error cause => .error (.unreadable path cause)

/-- The database directly inside a directory: the file of commands if there is one, else the
file of flags. -/
def load (fs : FileSystem) (directory : Path) : Except DatabaseError (Option Database) :=
  match readIfThere fs (directory.child commandsName) with
  | .error e => .error e
  | .ok (some contents) =>
    (parseCommands contents (directory.child commandsName)).map some
  | .ok none =>
    match readIfThere fs (directory.child flagsName) with
    | .error e => .error e
    | .ok (some contents) => .ok (some (parseFlags contents directory))
    | .ok none => .ok none

/-- The database inside a directory, a refused one counting as none. -/
def loadOrNone (fs : FileSystem) (directory : Path) : Option Database :=
  match load fs directory with
  | .ok db => db
  | .error _ => none

/-- The nearest database above a file; directories whose database is refused are passed
over. -/
def discover (fs : FileSystem) (file : Path) : Option Database :=
  file.ancestors.findSome? (loadOrNone fs)

/-- The files that a load from a directory looks at. -/
def sources (directory : Path) : List Path :=
  [directory.child commandsName, directory.child flagsName]

end Database

end FlagServer
