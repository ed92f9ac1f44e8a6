import FlagServer.Path.Basic
import FlagServer.Schema.Decode

/-!
# Options

What the user can choose: which build system to use and where its database is. The command
line sets both, and the client may override each when it opens the session. Options of the
client that do not fit are as good as none.
-/

namespace FlagServer

/-- Which build system to use. -/
inductive Preference where
  /-- A manifest if there is one, else the compilation database. -/
  | auto
  /-- The compilation database. -/
  | compilationDatabase
  /-- None at all. -/
  | none
  deriving DecidableEq

namespace Preference

/-- The words that name the choices. -/
def words : List (String × Preference) :=
  [("auto", auto), ("compilationDatabase", compilationDatabase), ("none", none)]

/-- The choice that a word names. -/
def ofWord? (s : String) : Option Preference :=
  (words.find? fun w => w.1 == s).map (·.2)

/-- The word for a choice. -/
def word : Preference → String
  | auto => "auto"
  | compilationDatabase => "compilationDatabase"
  | none => "none"

end Preference

/-- The options of a server. -/
structure Options where
  /-- The build system. -/
  buildSystem : Preference := .auto
  /-- The directory of the database, in place of the workspace's root. -/
  databasePath : Option Path := Option.none
  deriving DecidableEq

namespace Options

/-- The fields of options; `choice` is what an absent build system amounts to. -/
def schema (choice : Presence) : Schema :=
  .fields [("buildSystem", choice, .word (Preference.words.map (·.1))),
    ("compilationDatabasePath", .trailing, .text)]

/-- The build system that a datum names. -/
def preferenceOf? (d : Datum) : Option Preference :=
  ((d.get? "buildSystem").bind Datum.text?).bind Preference.ofWord?

/-- The path that a datum names. -/
def pathOf? (d : Datum) : Option Path :=
  ((d.get? "compilationDatabasePath").bind Datum.text?).map Path.ofString

/-- The options that a value spells out in full. -/
def ofJson? (v : Json) : Option Options :=
  ((schema .preset).decode? v).map fun d =>
    { buildSystem := (preferenceOf? d).getD .auto, databasePath := pathOf? d }

/-- The options with what the client chose on top. -/
def override (o : Options) (client : Option Json) : Options :=
  match client with
  | Option.none => o
  | some v =>
    if Schema.isNull v then o
    else
      match (schema .trailing).decode? v with
      | some d =>
        { buildSystem := (preferenceOf? d).getD o.buildSystem
          databasePath := (pathOf? d).or o.databasePath }
      | Option.none => o

end Options

/-! ## Where the program keeps its files -/

/-- The name of the program. -/
def programName : String := "compdb-lsp"

/-- The version of the program. -/
def programVersion : String := "0.1.0"

/-- The directory for data: below the one that the environment names, else below the user's,
else below the working directory. -/
def dataDirectory (dataHome home : Option String) : Path :=
  let base :=
    match dataHome, home with
    | some d, _ => Path.ofString d
    | Option.none, some h => (Path.ofString h).child ".local/share"
    | Option.none, Option.none => Path.ofString "."
  base.child programName

/-- The log file. -/
def logPath (dataHome home : Option String) : Path :=
  (dataDirectory dataHome home).child (programName ++ ".log")

end FlagServer
