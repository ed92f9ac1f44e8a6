import FlagServer.FileSystem
import FlagServer.Path.Basic

/-!
# Compilation databases

A database tells how each source file is compiled. It comes in two forms:

* a list of **commands**, each for one file, with an index from files to the places of their
  commands;
* a list of **flags** that hold for every file below one directory.

A database never changes; when its file does, a new database takes its place.
-/

namespace FlagServer

/-- How one source file is compiled. -/
structure CompileCommand where
  /-- The directory in which the compiler runs, as it is spelled. -/
  directory : Path
  /-- The source file, resolved. -/
  file : Path
  /-- The compiler and its arguments. -/
  arguments : List String
  /-- What the command produces, if the database says so. -/
  output : Option Path
  deriving DecidableEq

/-- A compilation database. -/
inductive Database where
  /-- Commands in order, and for each file, in the order of first mention, their places. -/
  | commands (list : List CompileCommand) (byFile : List (Path × List Nat))
  /-- Flags for all files below a directory. -/
  | flags (directory : Path) (arguments : List String)
  deriving DecidableEq

/-- Why a database is refused. -/
inductive DatabaseError where
  /-- The file cannot be read. -/
  | unreadable (path : Path) (cause : FileError)
  /-- The file is not what it should be. -/
  | malformed (path : Path)
  /-- An entry does not say how to compile its file. -/
  | missingCommand (file : String)
  deriving DecidableEq

/-- The text of a refusal. -/
def DatabaseError.message : DatabaseError → String
  | .unreadable path _ => "failed to read " ++ path.textLossy
  | .malformed path => "failed to parse " ++ path.textLossy
  | .missingCommand file =>
    "entry for " ++ file ++ " has neither \x60arguments\x60 nor \x60command\x60"

/-- The user may not read the file. -/
def DatabaseError.isPermissionDenied : DatabaseError → Bool
  | .unreadable _ cause => cause == .permissionDenied
  | .malformed _ | .missingCommand _ => false

namespace Database

/-- The file of commands. -/
def commandsName : String := "compile_commands.json"

/-- The file of flags. -/
def flagsName : String := "compile_flags.txt"

/-- The compiler that is named for a file that only has flags. -/
def flagsCompiler : String := "clang"

/-- The flag before the path of the index store. -/
def indexStoreFlag : String := "-index-store-path"

/-- The index with one more place for a file. -/
def addPlace (file : Path) (place : Nat) : List (Path × List Nat) → List (Path × List Nat)
  | [] => [(file, [place])]
  | (f, places) :: rest =>
    if f.same file then (f, places ++ [place]) :: rest
    else (f, places) :: addPlace file place rest

/-- The index of commands whose first place is `start`, on top of `index`. -/
def indexFrom (start : Nat) (index : List (Path × List Nat)) :
    List CompileCommand → List (Path × List Nat)
  | [] => index
  | c :: cs => indexFrom (start + 1) (addPlace c.file start index) cs

/-- The database of a list of commands. -/
def ofCommands (list : List CompileCommand) : Database :=
  .commands list (indexFrom 0 [] list)

/-! ## Questions -/

/-- The commands for a file, in the order of the database. Flags make one command for each file
below their directory. -/
def commandsFor (db : Database) (path : Path) : List CompileCommand :=
  let path := path.normalize
  match db with
  | .commands list byFile =>
    match byFile.find? fun entry => entry.1.same path with
    | some (_, places) => places.filterMap fun i => list[i]?
    | none => []
  | .flags directory arguments =>
    if path.startsWith directory then
      [{ directory, file := path, output := none,
         arguments := [flagsCompiler] ++ arguments ++ [path.textLossy] }]
    else []

/-- The first command for a file. -/
def firstCommand? (db : Database) (path : Path) : Option CompileCommand :=
  (db.commandsFor path).head?

/-- The value after the last index-store flag that has one. -/
def indexStoreArgument? : List String → Option String
  | a :: b :: rest =>
    match indexStoreArgument? (b :: rest) with
    | some value => some value
    | none => if a == indexStoreFlag then some b else none
  | _ => none

/-- The path of the index store: of the first command that names one, seen from that command's
directory. -/
def indexStorePath? : Database → Option Path
  | .commands list _ =>
    list.findSome? fun c =>
      (indexStoreArgument? c.arguments).map fun value =>
        (c.directory.join (.ofString value)).normalize
  | .flags directory arguments =>
    (indexStoreArgument? arguments).map fun value =>
      (directory.join (.ofString value)).normalize

/-- How many source files the database lists. -/
def size : Database → Nat
  | .commands _ byFile => byFile.length
  | .flags _ _ => 0

end Database

end FlagServer
