import FlagServer.Proofs.Build.Operations
import FlagServer.Proofs.Session.Diary
import FlagServer.Proofs.Text

/-!
# Reloads and their notices

When files have changed, a database system looks at nothing but their names. One of them that is
named like a database is as good as many: the database is loaded again from the root, once, and the
listener is told of all watched files, once. If there is none, nothing happens.

This is shown of every system after everything that may have happened to it, and both sides of it
are said without the code. Which names count is said by the components of a path (`Url.IsDatabase`),
what is loaded by what the root holds (`Database.LoadsAt`), and which files are watched by the
history of the system (`StillRegistered`).

A session tells its listener by going on to `Stage.refreshing`. By then the system that all
questions are put to is the one with the new database, and nobody has it in hand.
-/

namespace FlagServer

/-! ## Names -/

/-- A local file whose last component is the name of a database. -/
def Url.IsDatabase (uri : Url) : Prop :=
  ∃ path, uri.filePath? = some path
    ∧ ∃ name ∈ ["compile_commands.json", "compile_flags.txt"],
      path.components.getLast? = some (.name (Text.Utf8.encodeString name))

/-- Some bytes spell a text exactly if they are its encoding. -/
theorem Text.Utf8.decodeString?_eq_some_iff {bytes : List UInt8} {s : String} :
    decodeString? bytes = some s ↔ bytes = encodeString s := by
  rw [decodeString?, Option.map_eq_some_iff, encodeString]
  constructor
  · rintro ⟨cs, hcs, rfl⟩
    rw [decode?_eq_some_iff.mp hcs, String.toList_ofList]
  · intro h
    exact ⟨s.toList, decode?_eq_some_iff.mpr h, String.ofList_toList⟩

/-- A path has a file name exactly if its last component is one. -/
theorem Path.fileName?_eq_some_iff {p : Path} {bytes : List UInt8} :
    p.fileName? = some bytes ↔ p.components.getLast? = some (.name bytes) := by
  unfold fileName?
  split
  · case h_1 found hlast => simp [hlast]
  · case h_2 hother =>
    refine iff_of_false nofun fun hlast => ?_
    exact hother bytes hlast

/-- What is loaded from a root, if there is one: the database that it holds. A refused one counts as
none. -/
inductive Database.LoadsAt (disk : FileSystem) : Option Path → Option Database → Prop where
  /-- There is no root. -/
  | nowhere : LoadsAt disk none none
  /-- The root holds a database, or none. -/
  | holds {root : Path} {database : Option Database} (h : load disk root = .ok database) :
    LoadsAt disk (some root) database
  /-- The root holds a file that is refused. -/
  | refused {root : Path} {e : DatabaseError} (h : load disk root = .error e) :
    LoadsAt disk (some root) none

/-- There is always one thing that is loaded. -/
theorem Database.loadsAt (disk : FileSystem) (root : Option Path) :
    LoadsAt disk root (root.bind (loadOrNone disk)) := by
  cases root with
  | none => exact .nowhere
  | some root =>
    rw [Option.bind_some, loadOrNone]
    cases hload : load disk root with
    | ok database => exact .holds hload
    | error e => exact .refused hload

namespace DatabaseSystem

/-- The code tells the files that matter by the text of their names, and this comes to a comparison
of bytes. -/
theorem namesDatabase_iff (uri : Url) : namesDatabase uri = true ↔ uri.IsDatabase := by
  -- The code decodes the last name and compares texts, and here its bytes are compared.
  have hname : ∀ name, (uri.filePath?.bind Path.fileName?).bind Text.Utf8.decodeString? = some name
      ↔ ∃ path, uri.filePath? = some path
        ∧ path.components.getLast? = some (.name (Text.Utf8.encodeString name)) := by
    intro name
    simp only [Option.bind_eq_some_iff, Text.Utf8.decodeString?_eq_some_iff,
      Path.fileName?_eq_some_iff]
    constructor
    · rintro ⟨bytes, ⟨path, hpath, hlast⟩, rfl⟩
      exact ⟨path, hpath, hlast⟩
    · rintro ⟨path, hpath, hlast⟩
      exact ⟨_, ⟨path, hpath, hlast⟩, rfl⟩
  have hiff : namesDatabase uri = true ↔ ∃ name ∈ ["compile_commands.json", "compile_flags.txt"],
      (uri.filePath?.bind Path.fileName?).bind Text.Utf8.decodeString? = some name := by
    unfold namesDatabase
    split
    · case h_1 found hfound =>
      simp [hfound, Database.commandsName, Database.flagsName]
    · case h_2 hnone => simp [hnone]
  rw [hiff, Url.IsDatabase]
  simp only [hname]
  constructor
  · rintro ⟨name, hmem, path, hpath, hlast⟩
    exact ⟨path, hpath, name, hmem, hlast⟩
  · rintro ⟨path, hpath, name, hmem, hlast⟩
    exact ⟨name, hmem, path, hpath, hlast⟩

/-- A batch of changed files matters if one of the files does. -/
theorem concerns_iff (batch : List FileEvent) :
    concerns batch = true ↔ ∃ e ∈ batch, e.uri.IsDatabase := by
  simp only [concerns, List.any_eq_true, namesDatabase_iff]

/-! ## Which files are watched -/

/-- The files that are watched after an operation. -/
def Operation.watchedAfter (files : Languages) : Operation → Languages
  | register uri language => files.insert uri language
  | unregister uri => files.erase uri
  | _ => files

/-- An operation changes the watched files only if it says so, and never the root. -/
theorem watched_perform (disk : FileSystem) (s : DatabaseSystem) (o : Operation) :
    (s.perform disk o).2.watched = o.watchedAfter s.watched
      ∧ (s.perform disk o).2.root = s.root := by
  -- A question about a file may replace the database, and that leaves the watched files alone.
  have hhandles : ∀ uri, (s.handles disk uri).2.watched = s.watched
      ∧ (s.handles disk uri).2.root = s.root := by
    intro uri
    simp only [handles, databaseFor]
    repeat' split
    all_goals exact ⟨rfl, rfl⟩
  have hstore : s.indexStore.2.watched = s.watched ∧ s.indexStore.2.root = s.root := by
    obtain ⟨-, hsame⟩ | ⟨-, -, heq⟩ := indexStore_cases s
    · rw [hsame]
      exact ⟨rfl, rfl⟩
    · rw [heq]
      exact ⟨rfl, rfl⟩
  cases o with
  | settings uri =>
    have hsame : (s.perform disk (.settings uri)).2 = (s.handles disk uri).2 :=
      congrArg Prod.snd (settings_eq_handles disk s uri)
    rw [hsame]
    exact hhandles uri
  | handles uri => exact hhandles uri
  | indexStore | indexDatabase => exact hstore
  | isWatching uri | register uri language | unregister uri | setListener listener =>
    exact ⟨rfl, rfl⟩
  | filesChanged events =>
    simp only [perform, Prod.map_snd, Prod.snd_swap, filesChanged]
    split <;> exact ⟨rfl, rfl⟩

/-- The file has been registered, and not unregistered since. -/
def StillRegistered (history : List Event) (uri : Url) : Prop :=
  ∃ early language later, history = early ++ .operation (.register uri language) :: later
    ∧ .operation (.unregister uri) ∉ later

/-- Before anything has happened, no file is registered. -/
theorem stillRegistered_nil (uri : Url) : ¬ StillRegistered [] uri := by
  rintro ⟨early, language, later, hsplit, -⟩
  simpa using congrArg List.length hsplit

/-- One more event matters to a file only if it is registered or unregistered by it. -/
theorem stillRegistered_concat (history : List Event) (e : Event) (uri : Url) :
    StillRegistered (history ++ [e]) uri ↔ (∃ language, e = .operation (.register uri language))
      ∨ StillRegistered history uri ∧ e ≠ .operation (.unregister uri) := by
  constructor
  · rintro ⟨early, language, later, hsplit, hlater⟩
    -- The last event is the registration itself, or it comes after it.
    induction later using List.reverseRecOn with
    | nil =>
      obtain ⟨-, he⟩ := List.append_inj' hsplit rfl
      exact .inl ⟨language, List.singleton_inj.mp he⟩
    | append_singleton later last =>
      rw [← List.cons_append, ← List.append_assoc] at hsplit
      obtain ⟨hhistory, he⟩ := List.append_inj' hsplit rfl
      obtain rfl := List.singleton_inj.mp he
      rw [List.mem_append, not_or, List.mem_singleton] at hlater
      exact .inr ⟨⟨early, language, later, hhistory, hlater.1⟩, Ne.symm hlater.2⟩
  · rintro (⟨language, rfl⟩ | ⟨⟨early, language, later, rfl, hlater⟩, hother⟩)
    · exact ⟨history, language, [], rfl, List.not_mem_nil⟩
    · refine ⟨early, language, later ++ [e], by simp, ?_⟩
      rw [List.mem_append, not_or, List.mem_singleton]
      exact ⟨hlater, Ne.symm hother⟩

namespace Site

/-- **A system keeps its root and watches what is registered,** each file once. -/
structure Keeps (root : Option Path) (history : List Event) (s : Site) : Prop where
  root : s.system.root = root
  nodup : s.system.watched.keys.Nodup
  watched : ∀ uri, uri ∈ s.system.watched.keys ↔ StillRegistered history uri

/-- Every event keeps this up. The cases are those of `Operation.watchedAfter`. -/
theorem Keeps.step {root : Option Path} {history : List Event} {s : Site}
    (hs : s.Keeps root history) (e : Event) : (s.step e).Keeps root (history ++ [e]) := by
  -- Events other than these two concern no file.
  have hother : (∀ uri language, e ≠ .operation (.register uri language)) →
      (∀ uri, e ≠ .operation (.unregister uri)) → (s.step e).system.watched = s.system.watched →
      ∀ uri, uri ∈ (s.step e).system.watched.keys ↔ StillRegistered (history ++ [e]) uri := by
    intro hregister hunregister hsame uri
    rw [hsame, hs.watched, stillRegistered_concat]
    simp [hregister, hunregister]
  cases e with
  | disk disk => exact ⟨hs.root, hs.nodup, hother (by simp) (by simp) rfl⟩
  | operation o =>
    obtain ⟨hwatched, hroot⟩ := watched_perform s.disk s.system o
    have hstep : (s.step (.operation o)).system.watched = o.watchedAfter s.system.watched :=
      hwatched
    have hroot' : (s.step (.operation o)).system.root = root := hroot.trans hs.root
    generalize s.step (.operation o) = s' at hother hstep hroot' ⊢
    cases o with
    | register uri language =>
      refine ⟨hroot', hstep ▸ Languages.nodup_insert hs.nodup, fun other => ?_⟩
      rw [hstep, Operation.watchedAfter, Languages.mem_keys_insert, hs.watched,
        stillRegistered_concat]
      simp [eq_comm]
    | unregister uri =>
      refine ⟨hroot', hstep ▸ Languages.nodup_erase hs.nodup, fun other => ?_⟩
      rw [hstep, Operation.watchedAfter, Languages.mem_keys_erase, hs.watched,
        stillRegistered_concat]
      simp [eq_comm]
    | _ => exact ⟨hroot', hstep ▸ hs.nodup, hother (by simp) (by simp) hstep⟩

/-- So it is kept up by every history, as it holds of a new system. -/
theorem keeps_run (disk : FileSystem) (root : Option Path) (history : List Event) :
    ((create disk root).run history).Keeps root history := by
  induction history using List.reverseRecOn with
  | nil =>
    have hnew : (create disk root).system.root = root ∧ (create disk root).system.watched = [] := by
      cases root <;> exact ⟨rfl, rfl⟩
    refine ⟨hnew.1, ?_, fun uri => ?_⟩
    · rw [run, List.foldl_nil, hnew.2]
      exact List.nodup_nil
    · rw [run, List.foldl_nil, hnew.2]
      exact iff_of_false List.not_mem_nil (stillRegistered_nil uri)
  | append_singleton history e ih =>
    rw [run_append]
    exact ih.step e

end Site

end DatabaseSystem

/-! ## When the listener is told -/

namespace Session

variable {ε μ : Type}

/-- What a session does for changed files up to the point where its listener is told, with nobody in
between: the files are reviewed and, if the disk has to be read, the database is loaded. -/
def reviewed (h : Host ε μ) (s : Session ε μ) (batch : List FileEvent) :
    Option (SessionTurn ε μ) :=
  (act h false (.reviewing batch) s).bind fun turn =>
    match turn.progress with
    | .more ⟨.reloading, _⟩ => act h false .reloading turn.state
    | _ => some turn

/-- The session goes on to tell its listener, or there is nothing to tell. -/
def telling : Option Notice → Progress Standing
  | some notice => .more (Stage.refreshing notice.files).standing
  | none => .done (.ok .null)

theorem spread_eq (s : Session ε μ) (notice : Option Notice) :
    s.spread notice = { state := s, progress := telling notice } := by
  cases notice <;> rfl

/-- To take a thing in hand and to let go of it again changes nothing. -/
theorem release_hold {s : Session ε μ} {r : Resource} {use : Use}
    (hroom : (s.lines.get r).hasRoom use = true) : (s.hold r use).release r use = s := by
  have hline := Line.release_take hroom
  simp only [hold, release, withLine, Lines.get_set, if_true, hline]
  cases r <;> rfl

/-- **A session tells its listener what the system says after it has changed,** and not before. -/
theorem reviewed_eq (h : Host ε μ) {s : Session ε μ} {d : DatabaseSystem}
    (hsystem : s.buildSystem = some (.database d))
    (hroom : (s.lines.get .database).hasRoom .alone = true) (batch : List FileEvent) :
    reviewed h s batch = some
      { state := { s with buildSystem := some (.database (d.filesChanged s.disk batch).1) }
        progress := telling (d.filesChanged s.disk batch).2 } := by
  simp only [reviewed, act, review, hsystem, Option.bind_some]
  -- Without a name that matters the session is done. With one, it reads the disk if there is a root
  -- to load from, and takes the system in hand for it.
  by_cases hconcerns : DatabaseSystem.concerns batch = true
  · have hchanged : d.filesChanged s.disk batch
        = (d.reload s.disk, (d.reload s.disk).notice) := if_pos hconcerns
    rw [hchanged]
    by_cases hroot : d.root.isSome = true
    · have hhold : (s.hold .database .alone).buildSystem = some (.database d) := hsystem
      simp only [hconcerns, hroot, Bool.not_true, Bool.false_eq_true, if_false, if_true, goOn,
        Stage.standing, reload, hhold, release_hold hroom, spread_eq]
      rfl
    · simp only [hconcerns, hroot, Bool.not_true, Bool.false_eq_true, if_false, spread_eq]
      cases (d.reload s.disk).notice <;> rfl
  · have hchanged : d.filesChanged s.disk batch = (d, none) := if_neg hconcerns
    have hsame : { s with buildSystem := some (.database d) } = s := by rw [← hsystem]
    rw [hchanged, hsame]
    simp only [hconcerns, Bool.not_false, if_true]
    rfl

end Session

/-! ## Reloads -/

namespace DatabaseSystem

/-- **What a batch of changed files does** to a system with this root and this history. -/
structure Reload (root : Option Path) (history : List Event) (s : Site) (batch : List FileEvent) :
    Prop where
  /-- If one of the files is named like a database, the database is replaced by what the root holds,
  and that counts as one replacement. Nothing else changes. The listener, if there is one, is told
  of the files that are registered, each once. -/
  reloaded : (∃ e ∈ batch, e.uri.IsDatabase) → ∃ database files,
    Database.LoadsAt s.disk root database
      ∧ files.Nodup ∧ (∀ uri, uri ∈ files ↔ StillRegistered history uri)
      ∧ s.system.filesChanged s.disk batch
        = ({ s.system with database, generation := s.system.generation + 1 },
          s.system.listener.map fun listener => ⟨listener, files⟩)
  /-- Otherwise nothing changes, and nobody is told. -/
  ignored : (¬ ∃ e ∈ batch, e.uri.IsDatabase) →
    s.system.filesChanged s.disk batch = (s.system, none)
  /-- In every session that the system serves, the listener is told when the system that is asked is
  the one after the change. -/
  visible : ∀ {ε μ : Type} (h : Host ε μ) (t : Session ε μ),
    t.buildSystem = some (.database s.system) → t.disk = s.disk →
    (t.lines.get .database).hasRoom .alone = true →
    t.reviewed h batch = some
      { state := { t with
          buildSystem := some (.database (s.system.filesChanged s.disk batch).1) }
        progress := Session.telling (s.system.filesChanged s.disk batch).2 }

/-- **One reload and one notice for each batch of files that concerns the database,** in every
system, after everything that may have happened to it and to its disk. -/
theorem reload_once (disk : FileSystem) (root : Option Path) (history : List Event)
    (batch : List FileEvent) : Reload root history ((Site.create disk root).run history) batch := by
  have hkeeps := Site.keeps_run disk root history
  generalize (Site.create disk root).run history = s at hkeeps
  refine ⟨fun hconcerns => ?_, fun hquiet => ?_, fun h t hsystem hdisk hroom => ?_⟩
  · refine ⟨s.system.root.bind (Database.loadOrNone s.disk), s.system.watched.keys, ?_,
      hkeeps.nodup, hkeeps.watched, ?_⟩
    · -- The root is the one that the system was made with.
      rw [hkeeps.root]
      exact Database.loadsAt s.disk root
    · rw [filesChanged, if_pos ((concerns_iff batch).mpr hconcerns)]
      rfl
  · rw [filesChanged, if_neg fun hconcerns => hquiet ((concerns_iff batch).mp hconcerns)]
  · rw [← hdisk]
    exact Session.reviewed_eq h hsystem hroom batch

end DatabaseSystem

end FlagServer
