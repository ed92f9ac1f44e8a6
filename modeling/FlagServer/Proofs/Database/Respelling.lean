import FlagServer.Proofs.Database.Loading
import FlagServer.Proofs.Path.Resolution

/-!
# Resolved paths as keys

A database of commands is asked by resolved paths: the source of every entry is resolved when the
file is read, and the path of a question is resolved when it is put. That the two meet rests on
three laws of resolution.

* A resolved path stays as it is when it is resolved again (`normalize_normalize`), and two resolved
  paths with the same components are spelled alike (`same_normalize_iff`).
* It has one form: the root or nothing, at most one `..`, and then names.
* A path may be resolved before another is joined to it, and nothing changes (`normalize_join`). The
  loop that resolves the second path goes on from the stack that the first has left, and the
  resolved first path leaves the same stack.

So neither the spelling of an entry's directory nor that of the path in question matters: databases
whose entries differ in the spelling of their directories give the same commands for one file, each
with its own directory and its own output.
-/

namespace FlagServer

/-! ## Paths -/

namespace Path

theorem components_normalize_eq_resolved (p : Path) :
    p.normalize.components = resolved p.components := by
  rw [components_normalize, resolved_eq, stack, List.append_assoc]
  rfl

theorem ofComponents_normalize (p : Path) : ofComponents p.normalize.components = p.normalize := by
  rw [components_normalize_eq_resolved, normalize]

/-- **A resolved path begins a stack as the path itself does.** -/
theorem resolved_normalize (p : Path) :
    resolved p.normalize.components = resolved p.components := by
  have hmod : p.climbs % 2 % 2 = p.climbs % 2 := by omega
  rw [resolved_eq, resolved_eq, base_normalize, climbs_normalize, kept_normalize, stack, stack]
  simp only [hmod]

/-- **A resolved path stays as it is.** -/
theorem normalize_normalize (p : Path) : p.normalize.normalize = p.normalize := by
  rw [normalize, resolved_normalize, ← normalize]

/-- Resolved paths that are the same file are spelled alike. -/
theorem same_normalize_iff (p q : Path) :
    p.normalize.same q.normalize = true ↔ p.normalize = q.normalize := by
  rw [same_iff]
  constructor
  · intro h
    rw [← ofComponents_normalize p, h, ofComponents_normalize]
  · intro h
    rw [h]

/-- What is joined is resolved from where the first path has come to. -/
theorem resolved_join {d f : Path} (hf : f.isAbsolute = false) :
    resolved (d.join f).components = f.body.foldl resolve (resolved d.components) := by
  have hbase : (d.join f).base = d.base := by rw [base, base, isAbsolute_join hf]
  rw [resolved_components, resolved_components, body_join hf, List.foldl_append, hbase]

/-- **A path may be resolved before another is joined to it.** -/
theorem normalize_join {d f : Path} (hf : f.isAbsolute = false) :
    (d.join f).normalize = (d.normalize.join f).normalize := by
  rw [normalize, normalize, resolved_join hf, resolved_join hf, resolved_normalize]

/-- So directories with one resolved path are as good as one another for what is seen from them. -/
theorem normalize_join_congr {d d' : Path} (h : d.normalize = d'.normalize) (f : Path) :
    (d.join f).normalize = (d'.join f).normalize := by
  -- An absolute path is not seen from anywhere.
  cases hf : f.isAbsolute with
  | true => rw [join_of_isAbsolute hf, join_of_isAbsolute hf]
  | false => rw [normalize_join hf, h, ← normalize_join hf]

end Path

/-! ## Entries -/

/-- Two entries that differ in nothing but the spelling of their directories. -/
structure DatabaseEntry.Respells (e e' : DatabaseEntry) : Prop where
  directory : (Path.ofString e.directory).normalize = (Path.ofString e'.directory).normalize
  file : e.file = e'.file
  arguments : e.arguments = e'.arguments
  command : e.command = e'.command
  output : e.output = e'.output

/-- Two commands that differ in nothing but the spelling of their directories and outputs. -/
structure CompileCommand.Respells (c c' : CompileCommand) : Prop where
  file : c.file = c'.file
  arguments : c.arguments = c'.arguments
  directory : c.directory.normalize = c'.directory.normalize
  output : c.output.map Path.normalize = c'.output.map Path.normalize

namespace DatabaseEntry.Respells

variable {e e' : DatabaseEntry}

/-- Where an entry is seen from matters only as a resolved path, and so its source is the same. -/
theorem source_eq (h : e.Respells e') : e.source = e'.source := by
  rw [source, source, h.file]
  exact Path.normalize_join_congr h.directory _

/-- Whether an entry says how its file is compiled has nothing to do with its directory. -/
theorem isComplete (h : e.Respells e') (he : e.IsComplete) : e'.IsComplete := by
  rwa [IsComplete, ← h.arguments, ← h.command]

/-- The commands of the two entries differ in their directories and outputs, and each of these is
the same place. -/
theorem asCommand (h : e.Respells e') : e.asCommand.Respells e'.asCommand where
  file := h.source_eq
  arguments := by simp only [DatabaseEntry.asCommand, words, h.arguments, h.command]
  directory := h.directory
  output := by
    simp only [DatabaseEntry.asCommand, h.output, Option.map_map]
    refine Option.map_congr fun o _ => ?_
    exact Path.normalize_join_congr h.directory (.ofString o)

end DatabaseEntry.Respells

namespace Database

/-- Entries that differ in the spelling of their directories are found for the same paths. -/
theorem entriesFor_respells {entries entries' : List DatabaseEntry}
    (h : List.Forall₂ DatabaseEntry.Respells entries entries') {p p' : Path}
    (hp : p.normalize = p'.normalize) :
    List.Forall₂ DatabaseEntry.Respells (entriesFor entries p) (entriesFor entries' p') := by
  refine List.rel_filter ?_ h
  intro e e' he
  change e.source.same p.normalize = true ↔ e'.source.same p'.normalize = true
  rw [he.source_eq, hp]

/-- So the commands for a file are the same but for the directories. -/
theorem commandsFor_respells {entries entries' : List DatabaseEntry}
    (h : List.Forall₂ DatabaseEntry.Respells entries entries') {p p' : Path}
    (hp : p.normalize = p'.normalize) :
    List.Forall₂ CompileCommand.Respells
      ((ofCommands (entries.map DatabaseEntry.asCommand)).commandsFor p)
      ((ofCommands (entries'.map DatabaseEntry.asCommand)).commandsFor p') := by
  rw [commandsFor_map_asCommand, commandsFor_map_asCommand, List.forall₂_map_left_iff,
    List.forall₂_map_right_iff]
  exact (entriesFor_respells h hp).imp fun _ _ he => he.asCommand

/-- A file of commands is accepted however its directories are spelled. -/
theorem isComplete_of_respells {entries entries' : List DatabaseEntry}
    (h : List.Forall₂ DatabaseEntry.Respells entries entries')
    (hcomplete : ∀ e ∈ entries, e.IsComplete) : ∀ e ∈ entries', e.IsComplete := by
  induction h with
  | nil => exact List.forall_mem_nil _
  | cons he _ ih =>
    obtain ⟨hfirst, hrest⟩ := List.forall_mem_cons.mp hcomplete
    exact List.forall_mem_cons.mpr ⟨he.isComplete hfirst, ih hrest⟩

/-! ## Main result -/

/-- **Resolved paths are keys.** Resolving is idempotent and has one form, it may be done before
joining, and so the commands for a file depend neither on how the directories of the entries are
spelled nor on how the file is. -/
theorem resolved_keys :
    (∀ p : Path, p.normalize.normalize = p.normalize
      ∧ ∃ climbs ≤ 1, ∃ names : List (List UInt8),
        p.normalize.components = p.base ++ List.replicate climbs .up ++ names.map .name)
    ∧ (∀ p q : Path, p.normalize.same q.normalize = true ↔ p.normalize = q.normalize)
    ∧ (∀ d f : Path, f.isAbsolute = false →
      (d.join f).normalize = (d.normalize.join f).normalize)
    ∧ ∀ (contents contents' : String) (path path' : Path) (db : Database)
      (entries entries' : List DatabaseEntry), parseCommands contents path = .ok db →
      entries? contents = some entries → entries? contents' = some entries' →
      List.Forall₂ DatabaseEntry.Respells entries entries' →
      ∃ db', parseCommands contents' path' = .ok db'
        ∧ ∀ p p' : Path, p.normalize = p'.normalize →
          List.Forall₂ CompileCommand.Respells (db.commandsFor p) (db'.commandsFor p') := by
  refine ⟨fun p => ⟨p.normalize_normalize, p.climbs % 2, by omega, p.kept,
    p.components_normalize⟩, Path.same_normalize_iff, fun _ _ => Path.normalize_join, ?_⟩
  intro contents contents' path path' db entries entries' hdb hentries hentries' hrespells
  obtain ⟨found, hfound, hcomplete, rfl⟩ := parseCommands_eq_ok_iff.mp hdb
  rw [hentries, Option.some.injEq] at hfound
  subst hfound
  -- The second file is accepted as the first is, and its entries go with those of the first one by
  -- one.
  have hcomplete' := isComplete_of_respells hrespells hcomplete
  exact ⟨_, parseCommands_of_isComplete hentries' hcomplete' path',
    fun p p' hp => commandsFor_respells hrespells hp⟩

/-- A file of commands whose first entry is in the given directory. -/
def listing (directory : String) : String :=
  "[\x7b\"directory\":\"" ++ directory
    ++ "\",\"file\":\"x/../a.c\",\"command\":\"cc -DA\",\"output\":\"a.o\"\x7d,"
    ++ "\x7b\"directory\":\"/q\",\"file\":\"/p/b.c\",\"arguments\":[]\x7d]"

/-- The entries of such a file. -/
def listed (directory : String) : List DatabaseEntry :=
  [{ directory, file := "x/../a.c", arguments := none, command := some "cc -DA",
     output := some "a.o" },
   { directory := "/q", file := "/p/b.c", arguments := some [], command := none, output := none }]

/-- The directory is spelled with a detour in one file and not in the other, and so is the path. -/
theorem resolved_keys_detour :
    ∃ db db', parseCommands (listing "/p") ⟨[]⟩ = .ok db
      ∧ parseCommands (listing "/p/./y/..") ⟨[]⟩ = .ok db'
      ∧ (db.commandsFor (.ofString "/p/a.c")).length = 1
      ∧ List.Forall₂ CompileCommand.Respells (db.commandsFor (.ofString "/p/a.c"))
        (db'.commandsFor (.ofString "//p/z/../a.c"))
      ∧ ((Path.ofString "/p/./y/..").join (.ofString "x/../a.c")).normalize
        = ((Path.ofString "/p/./y/..").normalize.join (.ofString "x/../a.c")).normalize := by
  have hentries : entries? (listing "/p") = some (listed "/p") := by decide +kernel
  have hentries' : entries? (listing "/p/./y/..") = some (listed "/p/./y/..") := by decide +kernel
  have hrespells : List.Forall₂ DatabaseEntry.Respells (listed "/p") (listed "/p/./y/..") :=
    .cons ⟨by decide +kernel, rfl, rfl, rfl, rfl⟩ (.cons ⟨rfl, rfl, rfl, rfl, rfl⟩ .nil)
  have hpath : (Path.ofString "/p/a.c").normalize = (Path.ofString "//p/z/../a.c").normalize := by
    decide +kernel
  have hcomplete : ∀ e ∈ listed "/p", e.IsComplete := by simp [listed, DatabaseEntry.IsComplete]
  have hdb := parseCommands_of_isComplete hentries hcomplete ⟨[]⟩
  obtain ⟨db', hdb', hsame⟩ := resolved_keys.2.2.2 (listing "/p") (listing "/p/./y/..") ⟨[]⟩ ⟨[]⟩
    _ _ _ hdb hentries hentries' hrespells
  exact ⟨_, db', hdb, hdb', by decide +kernel, hsame _ _ hpath,
    resolved_keys.2.2.1 _ _ (by decide +kernel)⟩

end Database

end FlagServer
