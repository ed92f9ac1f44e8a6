import FlagServer.FileSystem
import FlagServer.Options

/-!
# The command line

Two options, each given at most once, as `--name value` or `--name=value`; the usual two flags;
and nothing else. Arguments are read from left to right, and the first that decides the matter
ends the reading: a mistake before `--version` is a mistake, one after it is not seen.
-/

namespace FlagServer

/-- What the arguments ask for. -/
inductive Invocation where
  /-- To serve, with these options. -/
  | serve (options : Options)
  /-- To explain the arguments. -/
  | help
  /-- To tell the version. -/
  | version
  /-- Nothing that makes sense. -/
  | misuse
  deriving DecidableEq

namespace CommandLine

/-- The words of the command line for the choices of a build system. -/
def preferences : List (String × Preference) :=
  [("auto", .auto), ("compilation-database", .compilationDatabase), ("none", .none)]

/-- The options that have been read. -/
structure Given where
  /-- The build system. -/
  buildSystem : Option Preference := none
  /-- The directory of the database. -/
  databasePath : Option Path := none

/-- The options that are in force. -/
def Given.options (g : Given) : Options :=
  { buildSystem := g.buildSystem.getD .auto, databasePath := g.databasePath }

/-- The options with the build system, unless it has been given or is no choice. -/
def Given.setBuildSystem? (g : Given) (value : String) : Option Given :=
  match g.buildSystem, (preferences.find? fun p => p.1 == value).map (·.2) with
  | none, some choice => some { g with buildSystem := some choice }
  | _, _ => none

/-- The options with the directory, unless it has been given or is empty. -/
def Given.setDatabasePath? (g : Given) (value : String) : Option Given :=
  if g.databasePath.isSome || value.isEmpty then none
  else some { g with databasePath := some (.ofString value) }

/-- One argument by itself. -/
inductive Argument where
  /-- `--`, after which nothing is an option. -/
  | separator
  /-- `--name` or `--name=value`. -/
  | long (name : String) (value : Option String)
  /-- `-x`, perhaps with more letters. -/
  | short (letter : Char)
  /-- Anything else. -/
  | plain (text : String)

/-- What an argument is by itself. -/
def argument (arg : String) : Argument :=
  match arg.toList with
  | ['-', '-'] => .separator
  | '-' :: '-' :: cs =>
    match Text.splitOnce? '=' cs with
    | some (name, value) => .long (String.ofList name) (some (String.ofList value))
    | none => .long (String.ofList cs) none
  | '-' :: c :: _ => .short c
  | _ => .plain arg

/-- The name of an option that takes a value, with what the value does. -/
def setter? (name : String) : Option (Given → String → Option Given) :=
  if name == "build-system" then some Given.setBuildSystem?
  else if name == "compilation-database-path" then some Given.setDatabasePath?
  else none

/-- Reads arguments on top of what has been given. -/
def parseFrom (g : Given) : List String → Invocation
  | [] => .serve g.options
  | arg :: rest =>
    match argument arg with
    | .separator => if rest.isEmpty then .serve g.options else .misuse
    | .short 'h' => .help
    | .short 'V' => .version
    | .long "help" none => .help
    | .long "version" none => .version
    | .long name attached =>
      match setter? name with
      | none => .misuse
      | some set =>
        match attached with
        | some value =>
          match set g value with
          | some g => parseFrom g rest
          | none => .misuse
        | none =>
          match rest with
          | [] => .misuse
          | value :: rest =>
            match argument value, set g value with
            | .plain _, some g => parseFrom g rest
            | _, _ => .misuse
    | _ => .misuse

/-- What the arguments ask for. -/
def parse (args : List String) : Invocation :=
  parseFrom {} args

/-- The exit status of bad arguments. -/
def misuseStatus : UInt32 := 2

/-- The exit status of a failure. -/
def failureStatus : UInt32 := 1

/-- The text that tells the version. -/
def versionText : String :=
  programName ++ " " ++ programVersion ++ "\n"

/-- The disk with the log file and its directory, or why they cannot be made. -/
def prepareLog (disk : FileSystem) (dataHome home : Option String) :
    Except FileError FileSystem :=
  match disk.ensureDirectories (dataDirectory dataHome home) with
  | .error e => .error e
  | .ok disk => disk.openForAppend (logPath dataHome home)

end CommandLine

end FlagServer
