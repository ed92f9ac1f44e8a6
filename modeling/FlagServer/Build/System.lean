import FlagServer.Build.Basic
import FlagServer.Build.DatabaseSystem
import FlagServer.Options

/-!
# Build systems

A workspace has one build system: a compilation database, a manifest, or none. Which one is
decided once, by what the user prefers and whether there is a manifest. `Workspace` puts the
questions to whichever it is.
-/

namespace FlagServer

/-- The build system of a workspace. The state of a manifest belongs to the manifest, and is
kept beside it. -/
inductive BuildSystem where
  | database (system : DatabaseSystem)
  | manifest
  /-- No file has settings. -/
  | unhandled

namespace BuildSystem

/-- How a message names the build system. -/
def name : BuildSystem → String
  | database _ => "compilation database"
  | manifest => "manifest"
  | unhandled => "no"

/-- The build system of a workspace: a manifest goes before the database, unless the user asks
for the database. -/
def forWorkspace (disk : FileSystem) (preference : Preference) (root : Option Path)
    (hasManifest : Bool) : BuildSystem :=
  match preference with
  | .none => unhandled
  | .auto => if hasManifest then manifest else database (.create disk root)
  | .compilationDatabase => database (.create disk root)

/-- Making the build system has to read the disk. -/
def readsDisk (preference : Preference) (root : Option Path) (hasManifest : Bool) : Bool :=
  root.isSome &&
    match preference with
    | .none => false
    | .auto => !hasManifest
    | .compilationDatabase => true

end BuildSystem

/-- A build system with all it depends on. -/
structure Workspace (μ : Type) where
  /-- The build system. -/
  system : BuildSystem
  /-- The state of the manifest. -/
  manifest : μ
  /-- The disk. -/
  disk : FileSystem

namespace Workspace

variable {μ : Type}

/-- The workspace with another state of its database system. -/
def withDatabase (w : Workspace μ) (d : DatabaseSystem) : Workspace μ :=
  { w with system := .database d }

/-- Sets or removes the listener; nothing while that has to wait. -/
def setListener (m : Manifest μ) (listener : Option Listener) (w : Workspace μ) :
    Option (Workspace μ) :=
  match w.system with
  | .database d => some (w.withDatabase (d.setListener listener))
  | .manifest => (m.setListener listener w.manifest).map fun manifest => { w with manifest }
  | .unhandled => some w

/-- The settings of a file; nothing while that has to wait. -/
def settings (m : Manifest μ) (uri : Url) (language : Language) (w : Workspace μ) :
    Option (Option Settings × Workspace μ) :=
  match w.system with
  | .database d =>
    let (found, d) := d.settings w.disk uri
    some (found, w.withDatabase d)
  | .manifest =>
    (m.ask uri language w.manifest).map fun (found, manifest) =>
      (found, { w with manifest })
  | .unhandled => some (none, w)

/-- Watches a file. -/
def register (m : Manifest μ) (uri : Url) (language : Language) (w : Workspace μ) :
    Workspace μ :=
  match w.system with
  | .database d => w.withDatabase (d.register uri language)
  | .manifest => { w with manifest := m.register uri language w.manifest }
  | .unhandled => w

/-- Watches a file no longer. -/
def unregister (m : Manifest μ) (uri : Url) (w : Workspace μ) : Workspace μ :=
  match w.system with
  | .database d => w.withDatabase (d.unregister uri)
  | .manifest => { w with manifest := m.unregister uri w.manifest }
  | .unhandled => w

/-- Takes note of changed files. -/
def filesChanged (m : Manifest μ) (events : List FileEvent) (w : Workspace μ) :
    Workspace μ × Option Notice :=
  match w.system with
  | .database d =>
    let (d, notice) := d.filesChanged w.disk events
    (w.withDatabase d, notice)
  | .manifest =>
    let (manifest, notice) := m.filesChanged events w.manifest
    ({ w with manifest }, notice)
  | .unhandled => (w, none)

/-- Whether the build system answers for a file. -/
def handles (m : Manifest μ) (uri : Url) (w : Workspace μ) : Bool × Workspace μ :=
  match w.system with
  | .database d =>
    let (found, d) := d.handles w.disk uri
    (found, w.withDatabase d)
  | .manifest => (m.handles uri w.manifest, w)
  | .unhandled => (false, w)

/-- The path of the index store. -/
def indexStore (m : Manifest μ) (w : Workspace μ) : Option Path × Workspace μ :=
  match w.system with
  | .database d =>
    let (path, d) := d.indexStore
    (path, w.withDatabase d)
  | .manifest => (m.indexStore w.manifest, w)
  | .unhandled => (none, w)

/-- The path of the index database. -/
def indexDatabase (m : Manifest μ) (w : Workspace μ) : Option Path × Workspace μ :=
  match w.system with
  | .database d =>
    let (path, d) := d.indexDatabase
    (path, w.withDatabase d)
  | .manifest => (m.indexDatabase w.manifest, w)
  | .unhandled => (none, w)

/-- Prefixes of paths in the index; only a manifest has some. -/
def prefixMappings (m : Manifest μ) (w : Workspace μ) : List (Path × Path) :=
  match w.system with
  | .manifest => m.prefixMappings w.manifest
  | _ => []

end Workspace

end FlagServer
