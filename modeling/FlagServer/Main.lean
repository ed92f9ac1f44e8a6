import FlagServer.CommandLine
import FlagServer.Json.Printer
import FlagServer.Server.Run
import FlagServer.Session.Handle

/-!
# The program

Serves one session on standard input and output. All that happens here is reading and writing:
bytes go in, messages come out, and files are read when a stage of the session waits for them.
-/

namespace FlagServer.Program

/-- The server of this program: an engine that answers nothing, and no manifest. -/
abbrev ProgramRun := Run (Session Unit Unit) Standing

/-- The text that explains the arguments. -/
def usage : String :=
  "Language server resolving compiler invocations from compilation databases\n\n" ++
  "Usage: " ++ programName ++ " [OPTIONS]\n\nOptions:\n" ++
  "      --build-system <BUILD_SYSTEM>\n" ++
  "          Build system used when the client does not choose one [default: auto] " ++
  "[possible values: auto, compilation-database, none]\n" ++
  "      --compilation-database-path <COMPILATION_DATABASE_PATH>\n" ++
  "          Directory holding compile_commands.json or compile_flags.txt\n" ++
  "  -h, --help\n          Print help\n" ++
  "  -V, --version\n          Print version\n"

/-- How many steps are taken before the next look at the input. -/
def patience : Nat := 1000000

/-- A disk with the file that a path names, as it is now. What the user may not open is refused
there too; what else exists and cannot be read stands there as a directory. -/
def lookAt (disk : FileSystem) (path : Path) : IO FileSystem := do
  match path.text? with
  | none => return disk
  | some name =>
    let around := path.ancestors.foldl FileSystem.makeDirectory disk
    match ← (IO.FS.readBinFile name).toBaseIO with
    | .ok contents => return around.write path contents.toList
    | .error (.noFileOrDirectory ..) => return disk
    | .error (.permissionDenied ..) => return around.bar path .permissionDenied
    | .error _ => return around.makeDirectory path

/-- Lets everybody work until nobody can, reading files as they are wanted. -/
partial def settle (h : Handler (Session Unit Unit) Standing) (start : Location)
    (r : ProgramRun) : IO ProgramRun := do
  let r := r.settleQuick h patience
  match r.slow? h with
  | none => return r
  | some a =>
    let wanted := ((r.server.stage? a).map r.server.state.wants).getD []
    let disk ← wanted.foldlM lookAt { workingDirectory := start }
    let server := { r.server with state := { r.server.state with disk } }
    settle h start (({ r with server }).resume h a)

/-- Writes the messages that are to be written, and forgets them. -/
def flush (out : IO.FS.Stream) (r : ProgramRun) : IO ProgramRun := do
  for message in r.server.written do
    out.write (ByteArray.mk (Frame.write message.toJson.renderBytes).toArray)
  out.flush
  return { r with server := { r.server with written := [] } }

/-- Serves until the session ends, and gives the exit status. -/
partial def serve (h : Handler (Session Unit Unit) Standing) (start : Location)
    (input out : IO.FS.Stream) (r : ProgramRun) : IO UInt32 := do
  let r ← settle h start r
  let r ← flush out r
  match r.server.ended? with
  | some none => return r.server.state.exitCode
  | some (some fault) =>
    IO.eprintln ("Error: language server connection failed: " ++ fault.message)
    return CommandLine.failureStatus
  | none =>
    let missing := match Frame.read false r.server.input with
      | .more n => n
      | _ => 1
    let bytes ← input.read (USize.ofNat (max missing 1))
    if bytes.isEmpty then serve h start input out (r.update h Server.endInput)
    else serve h start input out (r.update h fun s => s.feed bytes.toList)

/-- Makes the log file and its directory. -/
def openLog : IO Bool := do
  let dataHome ← IO.getEnv "XDG_DATA_HOME"
  let home ← IO.getEnv "HOME"
  let directory := (dataDirectory dataHome home).textLossy
  let file := (logPath dataHome home).textLossy
  match ← (IO.FS.createDirAll directory).toBaseIO with
  | .error e =>
    IO.eprintln ("Failed to create data directory: " ++ toString e)
    return false
  | .ok _ =>
    match ← (IO.FS.Handle.mk file .append).toBaseIO with
    | .error e =>
      IO.eprintln ("Failed to open log file " ++ file ++ ": " ++ toString e)
      return false
    | .ok _ => return true

/-- Serves with the given options. -/
def run (options : Options) : IO UInt32 := do
  if !(← openLog) then return CommandLine.failureStatus
  let here ← IO.currentDir
  let start := ({} : FileSystem).spelled (.ofString here.toString)
  let host : Host Unit Unit := { engine := .silent, manifest := none, defaults := options }
  let h := Session.handler host
  let session : Session Unit Unit :=
    { engine := (), manifest := (), disk := { workingDirectory := start } }
  match ({ state := session } : Server (Session Unit Unit) Standing).serve? with
  | some server => serve h start (← IO.getStdin) (← IO.getStdout) (.ofServer h server)
  | none => return CommandLine.failureStatus

end FlagServer.Program

/-- The program. -/
def main (args : List String) : IO UInt32 :=
  match FlagServer.CommandLine.parse args with
  | .serve options => FlagServer.Program.run options
  | .help => do
    IO.print FlagServer.Program.usage
    return 0
  | .version => do
    IO.print FlagServer.CommandLine.versionText
    return 0
  | .misuse => do
    IO.eprint FlagServer.Program.usage
    return FlagServer.CommandLine.misuseStatus
