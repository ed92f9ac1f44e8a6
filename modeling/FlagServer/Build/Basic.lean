import FlagServer.Url.Basic

/-!
# Build systems

A build system tells how files are compiled, and gives notice when that may have changed. Here
is what all build systems share: settings, languages, notices, and what the server asks of a
package manager that stands in for a database.
-/

namespace FlagServer

/-! ## Settings and languages -/

/-- What an engine has to know to analyse a file. -/
structure Settings where
  /-- The arguments of the compiler, without the compiler. -/
  arguments : List String
  /-- The directory in which it runs. -/
  directory : Option Path
  deriving DecidableEq

/-- The language of a document. -/
inductive Language where
  | c
  | cpp
  | objectiveC
  | objectiveCpp
  | swift
  /-- Any other, by its id. -/
  | other (id : String)
  deriving DecidableEq

namespace Language

/-- The language with an id. -/
def ofId (id : String) : Language :=
  if id == "c" then c
  else if id == "cpp" then cpp
  else if id == "objective-c" then objectiveC
  else if id == "objective-cpp" then objectiveCpp
  else if id == "swift" then swift
  else other id

/-- The id of a language. -/
def id : Language → String
  | c => "c"
  | cpp => "cpp"
  | objectiveC => "objective-c"
  | objectiveCpp => "objective-cpp"
  | swift => "swift"
  | other id => id

/-- The language that a file's extension suggests. -/
def ofExtension? (ext : String) : Option Language :=
  if ext == "c" then some c
  else if ["cc", "cpp", "cxx", "c++", "hpp", "hh", "hxx"].contains ext then some cpp
  else if ext == "m" then some objectiveC
  else if ext == "mm" then some objectiveCpp
  else if ext == "swift" then some swift
  else none

/-- The language that a file's name suggests. -/
def ofPath? (p : Path) : Option Language :=
  (p.extension?.bind Text.Utf8.decodeString?).bind ofExtension?

end Language

/-! ## News about settings

A build system watches files for one listener. When the settings of watched files may have
changed it gives notice once, with all of them; the listener asks again for each.
-/

/-- Who is told, by name. -/
structure Listener where
  /-- The name. -/
  name : String
  deriving DecidableEq

/-- The settings of these files may have changed. -/
structure Notice where
  /-- Who is told. -/
  listener : Listener
  /-- The files. -/
  files : List Url
  deriving DecidableEq

/-- A file that changed on disk. -/
structure FileEvent where
  /-- The file. -/
  uri : Url
  /-- Whether it was made, changed or removed; the number is not looked at. -/
  change : Int
  deriving DecidableEq

/-! ## Languages by file -/

/-- Files and their languages, one entry for each file. -/
abbrev Languages := List (Url × Language)

namespace Languages

/-- The language of a file. -/
def get? (files : Languages) (uri : Url) : Option Language :=
  (files.find? fun entry => entry.1 == uri).map (·.2)

/-- The files with one more, in place of an earlier entry for it. -/
def insert (files : Languages) (uri : Url) (language : Language) : Languages :=
  match files with
  | [] => [(uri, language)]
  | entry :: rest =>
    if entry.1 == uri then (uri, language) :: rest else entry :: insert rest uri language

/-- The files without one. -/
def erase (files : Languages) (uri : Url) : Languages :=
  files.filter fun entry => !(entry.1 == uri)

/-- The files, in the order in which they came. -/
def keys (files : Languages) : List Url :=
  files.map (·.1)

end Languages

/-! ## Settings from a manifest

A package manager that knows its own flags can stand in for the compilation database. It is a
collaborator with a state `μ` of its own. Two of its operations may have to wait: they give
nothing for as long as they do. One sets the listener; the other is to go through the gate that
may stand before the settings.
-/

/-- What a manifest build system can do. -/
structure Manifest (μ : Type) where
  /-- Sets or removes the listener; nothing while it has to wait. -/
  setListener : Option Listener → μ → Option μ
  /-- Goes through the gate before the settings, if there is one; nothing while it is shut. -/
  gate : Option (μ → Option μ) := none
  /-- The settings of a file, for one who has gone through the gate. -/
  settings : Url → Language → μ → Option Settings × μ
  /-- Watches a file. -/
  register : Url → Language → μ → μ
  /-- Watches a file no longer. -/
  unregister : Url → μ → μ
  /-- Takes note of changed files. -/
  filesChanged : List FileEvent → μ → μ × Option Notice
  /-- Whether the manifest answers for a file. -/
  handles : Url → μ → Bool
  /-- The path of the index store. -/
  indexStore : μ → Option Path
  /-- The path of the index database. -/
  indexDatabase : μ → Option Path
  /-- Prefixes of paths in the index, and what stands for them here. -/
  prefixMappings : μ → List (Path × Path)

/-- Asks for the settings of a file, through the gate; nothing while that has to wait. -/
def Manifest.ask {μ : Type} (m : Manifest μ) (uri : Url) (language : Language) (state : μ) :
    Option (Option Settings × μ) :=
  match m.gate with
  | some enter => (enter state).map (m.settings uri language)
  | none => some (m.settings uri language state)

end FlagServer
