import FlagServer.Build.DatabaseSystem
import Mathlib.Data.List.Dedup

/-!
# Looking up is scanning

A database of commands is asked through its index, which is made entry by entry when the file is
read. What the index answers is said here without it: **the commands for a file are those of the
entries whose source is that file, in the order of the entries.** An entry's source is its file seen
from its directory, resolved, and two paths are one file if their components are the same.

The loop that makes the index has two invariants. One is about a single file (`placesOf_indexFrom`):
its places are those at which a command for it stands. The other is about the index as a whole
(`Indexes`): every place stands in it once, below the file of its command, and no file is listed
twice.
-/

namespace FlagServer

/-! ## Paths that are the same file -/

/-- Two paths are one file if their components are the same, however they are spelled. -/
theorem Path.same_iff (p q : Path) : p.same q = true ↔ p.components = q.components :=
  beq_iff_eq

/-- Of paths that are the same file, one is as good as the other. -/
theorem Path.same_congr {p q : Path} (h : p.same q = true) (r : Path) : r.same p = r.same q := by
  rw [Path.same_iff] at h
  simp only [Path.same, h]

/-! ## Entries -/

namespace DatabaseEntry

/-- The source file of an entry: its file seen from its directory, resolved. -/
def source (e : DatabaseEntry) : Path :=
  ((Path.ofString e.directory).join (.ofString e.file)).normalize

/-- The compiler and its arguments: as they are listed, else the words of the command. -/
def words (e : DatabaseEntry) : List String :=
  e.arguments.getD ((e.command.map ShellWords.splitString).getD [])

/-- The command of an entry. -/
def asCommand (e : DatabaseEntry) : CompileCommand where
  directory := .ofString e.directory
  file := e.source
  arguments := e.words
  output := e.output.map fun o => (Path.ofString e.directory).join (.ofString o)

/-- An entry that is accepted is read as its command, with its source resolved. -/
theorem eq_asCommand {e : DatabaseEntry} {c : CompileCommand} (h : e.toCommand = .ok c) :
    c = e.asCommand := by
  unfold toCommand at h
  cases harguments : e.arguments with
  | some arguments =>
    simp only [harguments] at h
    cases h
    simp [asCommand, source, words, harguments]
  | none =>
    cases hcommand : e.command with
    | some command =>
      simp only [harguments, hcommand] at h
      cases h
      simp [asCommand, source, words, harguments, hcommand]
    | none => simp [harguments, hcommand] at h

/-- So are all entries of a file that is accepted, in their order. -/
theorem eq_map_asCommand {entries : List DatabaseEntry} {commands : List CompileCommand}
    (h : entries.mapM toCommand = .ok commands) : commands = entries.map asCommand := by
  induction entries generalizing commands with
  | nil =>
    cases h
    rfl
  | cons e entries ih =>
    rw [List.mapM_cons] at h
    -- One entry that is refused refuses them all.
    cases hfirst : e.toCommand with
    | error err =>
      rw [hfirst] at h
      cases h
    | ok c =>
      cases hrest : entries.mapM toCommand with
      | error err =>
        rw [hfirst, hrest] at h
        cases h
      | ok cs =>
        rw [hfirst, hrest] at h
        cases h
        rw [List.map_cons, eq_asCommand hfirst, ih hrest]

end DatabaseEntry

namespace Database

/-! ## The places of one file -/

/-- The places that an index lists for a file. -/
def placesOf (file : Path) (index : List (Path × List Nat)) : List Nat :=
  ((index.find? fun entry => entry.1.same file).map (·.2)).getD []

/-- The first entry of a file in an index is the one that counts. -/
theorem placesOf_cons (file : Path) (entry : Path × List Nat) (index : List (Path × List Nat)) :
    placesOf file (entry :: index)
      = if entry.1.same file then entry.2 else placesOf file index := by
  by_cases h : entry.1.same file = true <;> simp [placesOf, h]

/-- A place more is listed for the file that it is added to, and for no other. -/
theorem placesOf_addPlace (file f : Path) (place : Nat) (index : List (Path × List Nat)) :
    placesOf file (addPlace f place index)
      = placesOf file index ++ if f.same file then [place] else [] := by
  induction index with
  | nil => by_cases h : f.same file = true <;> simp [addPlace, placesOf, h]
  | cons entry index ih =>
    rw [addPlace]
    split
    · case isTrue hsame =>
      -- The entry is the one for `f`, so it is the one for `file` exactly if these are the same.
      have hfile : entry.1.same file = f.same file := by
        rw [Path.same_iff] at hsame
        simp only [Path.same, hsame]
      rw [placesOf_cons, placesOf_cons, hfile]
      split <;> simp
    · case isFalse hsame =>
      rw [placesOf_cons, placesOf_cons, ih]
      by_cases hfile : entry.1.same file = true
      · have hf : f.same file = false := by
          rw [← Bool.not_eq_true, ← Path.same_congr hfile]
          intro h
          rw [Path.same_iff] at h
          exact hsame ((Path.same_iff _ _).mpr h.symm)
        simp [hfile, hf]
      · simp [hfile]

/-- The places at which a command for a file stands, if the first place is `start`. -/
def placesFrom (start : Nat) (file : Path) (commands : List CompileCommand) : List Nat :=
  ((commands.zipIdx start).filter fun entry => entry.1.file.same file).map (·.2)

/-- **The index lists for a file the places of its commands,** behind those that it has listed
before. -/
theorem placesOf_indexFrom (file : Path) (commands : List CompileCommand) (start : Nat)
    (index : List (Path × List Nat)) :
    placesOf file (indexFrom start index commands)
      = placesOf file index ++ placesFrom start file commands := by
  induction commands generalizing start index with
  | nil => simp [indexFrom, placesFrom]
  | cons c commands ih =>
    rw [indexFrom, ih, placesOf_addPlace, List.append_assoc]
    congr 1
    by_cases h : c.file.same file = true <;> simp [placesFrom, List.zipIdx_cons, h]

/-- What stands at the places of a file's commands are its commands. -/
theorem filterMap_placesFrom (file : Path) (commands : List CompileCommand) :
    (placesFrom 0 file commands).filterMap (fun i => commands[i]?)
      = commands.filter fun c => c.file.same file := by
  have hplace : ∀ entry ∈ (commands.zipIdx 0).filter fun entry => entry.1.file.same file,
      commands[entry.2]? = some entry.1 := by
    intro entry hentry
    have hmem := (List.mem_filter.mp hentry).1
    exact List.mem_zipIdx_iff_getElem?.mp hmem
  calc (placesFrom 0 file commands).filterMap (fun i => commands[i]?)
      = ((commands.zipIdx 0).filter fun entry => entry.1.file.same file).filterMap
          fun entry => some entry.1 := by
        rw [placesFrom, List.filterMap_map]
        exact List.filterMap_congr hplace
    _ = ((commands.zipIdx 0).filter ((fun c => c.file.same file) ∘ Prod.fst)).map Prod.fst := by
        rw [List.filterMap_eq_map']
        rfl
    _ = commands.filter fun c => c.file.same file := by
        rw [← List.filter_map, List.zipIdx_map_fst]

/-- The commands for a file are those whose file it is, in their order. -/
theorem commandsFor_ofCommands (commands : List CompileCommand) (path : Path) :
    (ofCommands commands).commandsFor path
      = commands.filter fun c => c.file.same path.normalize := by
  rw [← filterMap_placesFrom]
  have hplaces := placesOf_indexFrom path.normalize commands 0 []
  have hnil : placesOf path.normalize [] = [] := rfl
  rw [hnil, List.nil_append, placesOf] at hplaces
  simp only [ofCommands, commandsFor, ← hplaces]
  cases (indexFrom 0 [] commands).find? fun entry => entry.1.same path.normalize <;> rfl

/-! ## The index as a whole -/

/-- The files that an index lists, by their components. -/
def filesOf (index : List (Path × List Nat)) : List (List Path.Component) :=
  index.map fun entry => entry.1.components

/-- An index lists every file that there is a command for once, and below it the places of its
commands, so that every place is listed once. -/
structure Indexes (index : List (Path × List Nat)) (commands : List CompileCommand) : Prop where
  /-- No file is listed twice. -/
  nodup : (filesOf index).Nodup
  /-- The files are those of the commands. -/
  files : ∀ f, f ∈ filesOf index ↔ f ∈ commands.map fun c => c.file.components
  /-- All places are shared out among the files. -/
  places : (index.flatMap (·.2)).Perm (List.range commands.length)

/-- A place more is listed once, wherever its file stands. -/
theorem places_addPlace (file : Path) (place : Nat) (index : List (Path × List Nat)) :
    ((addPlace file place index).flatMap (·.2)).Perm (index.flatMap (·.2) ++ [place]) := by
  fun_induction addPlace file place index with
  | case1 => simp
  | case2 f places rest h =>
    simp only [List.flatMap_cons, List.append_assoc]
    exact List.Perm.append_left _ List.perm_append_comm
  | case3 f places rest h ih =>
    simp only [List.flatMap_cons, List.append_assoc]
    exact List.Perm.append_left _ ih

/-- A place more adds its file at the end, unless it is listed already. -/
theorem filesOf_addPlace (file : Path) (place : Nat) (index : List (Path × List Nat)) :
    filesOf (addPlace file place index)
      = filesOf index ++ if file.components ∈ filesOf index then [] else [file.components] := by
  fun_induction addPlace file place index with
  | case1 => simp [filesOf]
  | case2 f places rest h =>
    rw [Path.same_iff] at h
    simp [filesOf, h]
  | case3 f places rest h ih =>
    -- The entry is for another file, so it says nothing of whether the file is listed.
    have hne : ¬ file.components = f.components := fun heq => h ((Path.same_iff _ _).mpr heq.symm)
    have hcons : ∀ ps r, filesOf ((f, ps) :: r) = f.components :: filesOf r := fun _ _ => rfl
    rw [hcons, hcons, ih]
    simp [hne]

namespace Indexes

/-- **One turn of the loop** adds the next place below the file of its command. -/
theorem addPlace {index : List (Path × List Nat)} {done : List CompileCommand}
    (h : Indexes index done) (c : CompileCommand) :
    Indexes (Database.addPlace c.file done.length index) (done ++ [c]) where
  nodup := by
    rw [filesOf_addPlace]
    split
    · rw [List.append_nil]
      exact h.nodup
    · case isFalse hnew =>
      refine List.Nodup.append h.nodup (List.nodup_singleton _) ?_
      rw [List.disjoint_singleton]
      exact hnew
  files f := by
    rw [filesOf_addPlace, List.map_append, List.mem_append, List.mem_append, h.files f]
    split
    · case isTrue hlisted =>
      rw [h.files] at hlisted
      simp only [List.not_mem_nil, or_false, List.map_cons, List.map_nil, List.mem_singleton]
      exact ⟨Or.inl, fun hf => hf.elim id fun heq => heq ▸ hlisted⟩
    · simp
  places := by
    rw [List.length_append, List.length_singleton, List.range_succ]
    exact (places_addPlace _ _ _).trans (h.places.append_right _)

/-- **The whole loop** indexes what it has read before and what it reads. -/
theorem indexFrom {index : List (Path × List Nat)} {done : List CompileCommand}
    (h : Indexes index done) (commands : List CompileCommand) :
    Indexes (Database.indexFrom done.length index commands) (done ++ commands) := by
  induction commands generalizing index done with
  | nil =>
    rw [List.append_nil]
    exact h
  | cons c commands ih =>
    have hnext := ih (h.addPlace c)
    rwa [List.length_append, List.length_singleton, List.append_assoc] at hnext

end Indexes

/-- The index of a database lists every place once. The loop starts with nothing read and an empty
index. -/
theorem indexes_ofCommands (commands : List CompileCommand) :
    Indexes (indexFrom 0 [] commands) commands := by
  have hempty : Indexes [] [] := ⟨List.nodup_nil, fun _ => Iff.rfl, .nil⟩
  exact hempty.indexFrom commands

/-- If no file is listed twice, what stands below a file is all that is listed for it. -/
theorem placesOf_of_mem {index : List (Path × List Nat)} (hnodup : (filesOf index).Nodup)
    {entry : Path × List Nat} (h : entry ∈ index) : placesOf entry.1 index = entry.2 := by
  induction index with
  | nil => cases h
  | cons first index ih =>
    obtain ⟨hfirst, hrest⟩ := List.nodup_cons.mp hnodup
    rw [placesOf_cons]
    rcases List.mem_cons.mp h with rfl | h
    · rw [if_pos ((Path.same_iff _ _).mpr rfl)]
    · -- The first entry is for another file, because its own is not listed again.
      have hne : ¬ first.1.same entry.1 = true := by
        rw [Path.same_iff]
        intro heq
        exact hfirst (List.mem_map.mpr ⟨entry, h, heq.symm⟩)
      rw [if_neg hne, ih hrest h]

/-- A place is one of a file if the command there is for that file. -/
theorem mem_placesFrom {i : Nat} {file : Path} {commands : List CompileCommand} :
    i ∈ placesFrom 0 file commands ↔ ∃ c, commands[i]? = some c ∧ c.file.same file = true := by
  simp only [placesFrom, List.mem_map, List.mem_filter, Prod.exists, List.mem_zipIdx_iff_getElem?]
  constructor
  · rintro ⟨c, j, ⟨hc, hfile⟩, rfl⟩
    exact ⟨c, hc, hfile⟩
  · rintro ⟨c, hc, hfile⟩
    exact ⟨c, i, ⟨hc, hfile⟩, rfl⟩

/-- **Every place is listed below one file,** which is that of its command. -/
theorem existsUnique_entry {commands : List CompileCommand} {i : Nat} {c : CompileCommand}
    (hc : commands[i]? = some c) :
    ∃! entry, entry ∈ indexFrom 0 [] commands ∧ i ∈ entry.2 := by
  have hindexes := indexes_ofCommands commands
  -- Below which file a place is listed is decided by its command.
  have hfile : ∀ entry ∈ indexFrom 0 [] commands, i ∈ entry.2 →
      entry.1.components = c.file.components := by
    intro entry hentry hi
    have hplaces := placesOf_indexFrom entry.1 commands 0 []
    rw [placesOf_of_mem hindexes.nodup hentry] at hplaces
    rw [hplaces] at hi
    obtain ⟨d, hd, hsame⟩ := mem_placesFrom.mp hi
    rw [hc, Option.some.injEq] at hd
    rw [hd]
    exact ((Path.same_iff _ _).mp hsame).symm
  -- It is listed at all since the places are shared out, and once since no file is listed twice.
  have hlisted : i ∈ (indexFrom 0 [] commands).flatMap (·.2) := by
    rw [hindexes.places.mem_iff, List.mem_range]
    exact (List.getElem?_eq_some_iff.mp hc).1
  obtain ⟨entry, hentry, hi⟩ := List.mem_flatMap.mp hlisted
  refine ⟨entry, ⟨hentry, hi⟩, ?_⟩
  rintro other ⟨hother, hj⟩
  have hsame := (hfile other hother hj).trans (hfile entry hentry hi).symm
  exact List.inj_on_of_nodup_map hindexes.nodup hother hentry hsame

/-- How many files an index lists is how many there are. -/
theorem size_ofCommands (commands : List CompileCommand) :
    (ofCommands commands).size = (commands.map fun c => c.file.components).dedup.length := by
  have hindexes := indexes_ofCommands commands
  have hperm : (filesOf (indexFrom 0 [] commands)).Perm
      (commands.map fun c => c.file.components).dedup := by
    rw [List.perm_ext_iff_of_nodup hindexes.nodup (List.nodup_dedup _)]
    intro f
    rw [hindexes.files, List.mem_dedup]
  have hlength := hperm.length_eq
  rwa [filesOf, List.length_map] at hlength

/-! ## What a file of commands answers -/

/-- The entries for a file, in their order: those whose source it is. -/
def entriesFor (entries : List DatabaseEntry) (path : Path) : List DatabaseEntry :=
  entries.filter fun e => e.source.same path.normalize

/-- The settings that an entry gives: its arguments after the compiler, and its directory as it is
spelled. -/
def settingsOf (e : DatabaseEntry) : Settings where
  arguments := e.words.drop 1
  directory := some (.ofString e.directory)

/-- **A database answers as a scan of its entries does.** -/
structure Scans (db : Database) (index : List (Path × List Nat)) (entries : List DatabaseEntry) :
    Prop where
  /-- The database has the commands of the entries, and an index. -/
  database : db = .commands (entries.map DatabaseEntry.asCommand) index
  /-- The commands for a file are those of its entries. -/
  commandsFor : ∀ path, db.commandsFor path
    = (entriesFor entries path).map DatabaseEntry.asCommand
  /-- The first of them is that of the first entry. -/
  firstCommand : ∀ path, db.firstCommand? path
    = (entriesFor entries path).head?.map DatabaseEntry.asCommand
  /-- The index shares out the places of all entries. -/
  places : (index.flatMap (·.2)).Perm (List.range entries.length)
  /-- Every place is listed below one file. -/
  once : ∀ i < entries.length, ∃! entry, entry ∈ index ∧ i ∈ entry.2
  /-- The files are counted once each. -/
  size : db.size = (entries.map fun e => e.source.components).dedup.length
  /-- A build system with this database gives the settings of the first entry for a file. -/
  settings : ∀ (disk : FileSystem) (s : DatabaseSystem) (uri : Url) (path : Path),
    s.database = some db → uri.filePath? = some path →
    (s.settings disk uri).1 = (entriesFor entries path).head?.map settingsOf
      ∧ ((s.settings disk uri).1 = none
        ↔ ∀ e ∈ entries, e.source.components ≠ path.normalize.components)

/-- The commands for a file are those of its entries. -/
theorem commandsFor_map_asCommand (entries : List DatabaseEntry) (path : Path) :
    (ofCommands (entries.map DatabaseEntry.asCommand)).commandsFor path
      = (entriesFor entries path).map DatabaseEntry.asCommand := by
  rw [commandsFor_ofCommands, List.filter_map]
  rfl

theorem firstCommand?_map_asCommand (entries : List DatabaseEntry) (path : Path) :
    (ofCommands (entries.map DatabaseEntry.asCommand)).firstCommand? path
      = (entriesFor entries path).head?.map DatabaseEntry.asCommand := by
  rw [firstCommand?, commandsFor_map_asCommand, List.head?_map]

/-- While a database is loaded, settings are looked up in it and nowhere else. -/
theorem settings_of_database {disk : FileSystem} {s : DatabaseSystem} {uri : Url} {path : Path}
    {db : Database} (hdb : s.database = some db) (hpath : uri.filePath? = some path) :
    (s.settings disk uri).1 = DatabaseSystem.settingsFrom (some db) path := by
  simp only [DatabaseSystem.settings, DatabaseSystem.databaseFor, hpath, hdb]

/-- A file has no entry if none has it for its source. -/
theorem head?_entriesFor_eq_none_iff (entries : List DatabaseEntry) (path : Path) :
    (entriesFor entries path).head? = none
      ↔ ∀ e ∈ entries, e.source.components ≠ path.normalize.components := by
  rw [List.head?_eq_none_iff, entriesFor, List.filter_eq_nil_iff]
  simp only [Path.same_iff, ne_eq]

/-- **Looking up in a file of commands is scanning it.** -/
theorem lookup_scans {contents : String} {path : Path} {db : Database}
    (h : parseCommands contents path = .ok db) :
    ∃ entries index, entries? contents = some entries ∧ Scans db index entries := by
  unfold parseCommands at h
  cases hentries : entries? contents with
  | none =>
    rw [hentries] at h
    cases h
  | some entries =>
    rw [hentries] at h
    cases hcommands : entries.mapM DatabaseEntry.toCommand with
    | error e =>
      simp only [hcommands] at h
      cases h
    | ok commands =>
      simp only [hcommands] at h
      cases h
      obtain rfl := DatabaseEntry.eq_map_asCommand hcommands
      have hindexes := indexes_ofCommands (entries.map DatabaseEntry.asCommand)
      refine ⟨entries, _, rfl, rfl, commandsFor_map_asCommand entries,
        firstCommand?_map_asCommand entries, ?_, ?_, ?_, ?_⟩
      · simpa using hindexes.places
      · intro i hi
        -- Below which file a place is listed is said by its command, and that is the one of its
        -- entry.
        apply existsUnique_entry (c := entries[i].asCommand)
        simp [hi]
      · rw [size_ofCommands, List.map_map]
        rfl
      · intro disk s uri path hdb hpath
        have hsettings : (s.settings disk uri).1
            = (entriesFor entries path).head?.map settingsOf := by
          rw [settings_of_database hdb hpath, DatabaseSystem.settingsFrom, Option.bind_some,
            firstCommand?_map_asCommand, Option.map_map]
          rfl
        refine ⟨hsettings, ?_⟩
        rw [hsettings, Option.map_eq_none_iff, head?_entriesFor_eq_none_iff]

/-- Two spellings of one file, between them another, and a command that is one string. -/
def spellings : String :=
  "[\x7b\"directory\":\"/p\",\"file\":\"a.c\",\"arguments\":[\"cc\",\"-DA\"]\x7d," ++
  "\x7b\"directory\":\"/p/\",\"file\":\"b.c\",\"arguments\":[]\x7d," ++
  "\x7b\"directory\":\"/p/x\",\"file\":\"..//a.c\",\"command\":\"cc '-DB C'\"\x7d]"

theorem lookup_scans_spellings :
    ∃ db, parseCommands spellings ⟨[]⟩ = .ok db ∧ db.size = 2
      ∧ ∃ entries index, entries? spellings = some entries ∧ Scans db index entries := by
  have hsize : (parseCommands spellings ⟨[]⟩).toOption.map size = some 2 := by decide +kernel
  cases hdb : parseCommands spellings ⟨[]⟩ with
  | error e =>
    rw [hdb] at hsize
    cases hsize
  | ok db =>
    rw [hdb] at hsize
    exact ⟨db, rfl, Option.some.inj hsize, lookup_scans hdb⟩

end Database

end FlagServer
