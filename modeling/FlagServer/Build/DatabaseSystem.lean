import FlagServer.Build.Basic
import FlagServer.Database.Reader

/-!
# Settings from a compilation database

The database is loaded from the project's root, if there is one. Otherwise the first question
about a file looks for one, from the file's directory upward, and what it finds is kept for all
later questions. A change of a file that is named like a database replaces the database by what
the root holds then, and gives notice of every watched file.

Reading the disk takes time, so a question is put in two parts: `ask` says what can be answered
at once and what has to be searched for, and `settings` searches.
-/

namespace FlagServer

/-- A build system over a compilation database. -/
structure DatabaseSystem where
  /-- The directory that holds the database, if it is known. -/
  root : Option Path
  /-- The database that answers now. -/
  database : Option Database := none
  /-- How often the database has been replaced. -/
  generation : UInt64 := 0
  /-- The index store of one generation, once somebody asked for it. -/
  knownStore : Option (UInt64 × Option Path) := none
  /-- The files of which the listener wants to hear. -/
  watched : Languages := []
  /-- Who is told of changes. -/
  listener : Option Listener := none

namespace DatabaseSystem

/-- The directory beside the index store that holds the index database. -/
def indexDatabaseName : String := "IndexDatabase"

/-- The system with another database, or with none. -/
def replace (s : DatabaseSystem) (database : Option Database) : DatabaseSystem :=
  { s with database, generation := s.generation + 1 }

/-- A new system: with a root, it loads what the root holds. -/
def create (disk : FileSystem) (root : Option Path) : DatabaseSystem :=
  match root with
  | some directory => ({ root } : DatabaseSystem).replace (Database.loadOrNone disk directory)
  | none => { root }

/-! ## Questions -/

/-- The database that answers for a path: the one that is loaded, else the nearest above the
path, which is kept. -/
def databaseFor (disk : FileSystem) (s : DatabaseSystem) (path : Path) :
    Option Database × DatabaseSystem :=
  match s.database with
  | some database => (some database, s)
  | none =>
    match Database.discover disk path with
    | some database => (some database, s.replace (some database))
    | none => (none, s)

/-- The settings that a database gives for a path: the arguments of its first command after the
compiler, and that command's directory. -/
def settingsFrom (database : Option Database) (path : Path) : Option Settings :=
  (database.bind fun db => db.firstCommand? path).map fun command =>
    { arguments := command.arguments.drop 1, directory := some command.directory }

/-- The settings of a file. -/
def settings (disk : FileSystem) (s : DatabaseSystem) (uri : Url) :
    Option Settings × DatabaseSystem :=
  match uri.filePath? with
  | none => (none, s)
  | some path =>
    let (database, s) := s.databaseFor disk path
    (settingsFrom database path, s)

/-- Whether a database answers for a file. -/
def handles (disk : FileSystem) (s : DatabaseSystem) (uri : Url) : Bool × DatabaseSystem :=
  match uri.filePath? with
  | none => (false, s)
  | some path =>
    let (database, s) := s.databaseFor disk path
    (database.isSome, s)

/-- The path of the index store. It is looked for once in each generation. -/
def indexStore (s : DatabaseSystem) : Option Path × DatabaseSystem :=
  let look : Option Path × DatabaseSystem :=
    let path := s.database.bind Database.indexStorePath?
    (path, { s with knownStore := some (s.generation, path) })
  match s.knownStore with
  | some (generation, path) => if generation == s.generation then (path, s) else look
  | none => look

/-- The path of the index database, beside the index store. -/
def indexDatabase (s : DatabaseSystem) : Option Path × DatabaseSystem :=
  let (store, s) := s.indexStore
  ((store.bind Path.parent?).map fun directory => directory.child indexDatabaseName, s)

/-! ## Watching -/

/-- Sets or removes the listener. -/
def setListener (s : DatabaseSystem) (listener : Option Listener) : DatabaseSystem :=
  { s with listener }

/-- Watches a file. -/
def register (s : DatabaseSystem) (uri : Url) (language : Language) : DatabaseSystem :=
  { s with watched := s.watched.insert uri language }

/-- Watches a file no longer. -/
def unregister (s : DatabaseSystem) (uri : Url) : DatabaseSystem :=
  { s with watched := s.watched.erase uri }

/-- The file is watched. -/
def isWatching (s : DatabaseSystem) (uri : Url) : Bool :=
  (s.watched.get? uri).isSome

/-! ## Changes on disk -/

/-- A file is named like a database. -/
def namesDatabase (uri : Url) : Bool :=
  match (uri.filePath?.bind Path.fileName?).bind Text.Utf8.decodeString? with
  | some name => name == Database.commandsName || name == Database.flagsName
  | none => false

/-- Among the changed files is one that is named like a database. -/
def concerns (events : List FileEvent) : Bool :=
  events.any fun event => namesDatabase event.uri

/-- Loads the database again from the root; without a root there is none. -/
def reload (disk : FileSystem) (s : DatabaseSystem) : DatabaseSystem :=
  s.replace (s.root.bind (Database.loadOrNone disk))

/-- What the listener is told after a reload. -/
def notice (s : DatabaseSystem) : Option Notice :=
  s.listener.map fun listener => { listener, files := s.watched.keys }

/-- Takes note of changed files: if one of them is named like a database, the database is loaded
again, once, and the listener is told of all watched files. -/
def filesChanged (disk : FileSystem) (s : DatabaseSystem) (events : List FileEvent) :
    DatabaseSystem × Option Notice :=
  if concerns events then
    let s := s.reload disk
    (s, s.notice)
  else (s, none)

/-! ## Answers without the disk -/

/-- What a question about the settings of a file can do at once. -/
inductive Asking where
  /-- The answer. -/
  | answer (settings : Option Settings)
  /-- The disk has to be searched above this path. -/
  | search (path : Path)

/-- What a question about the settings of a file can do at once. -/
def ask (s : DatabaseSystem) (uri : Url) : Asking :=
  match uri.filePath? with
  | none => .answer none
  | some path =>
    match s.database with
    | some database => .answer (settingsFrom (some database) path)
    | none => .search path

end DatabaseSystem

end FlagServer
