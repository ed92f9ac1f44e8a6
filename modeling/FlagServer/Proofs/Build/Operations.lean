import FlagServer.Proofs.Database.Loading

/-!
# What is done to a database system

A database system is asked and told one thing after the other, while its disk changes. A `Site` is a
system on its disk, and an `Event` is an operation on the system or a change of the disk. Nothing is
said about which event is next, so that what holds after every list of events holds whoever uses the
system and whatever happens on the disk meanwhile.

Questions are not only read: the first one about a file may find a database and keep it. So
`Becomes` says once what an operation can do to what answers are made from, that is to the database,
its generation and the index store that is known. It leaves the database where it is, or it puts
another in its place, and then it counts this in the generation.
-/

namespace FlagServer

/-- A database as it is read from a file: flags, or the commands of the entries of a file in the
order of the file. -/
def Database.IsRead (db : Database) : Prop :=
  (∃ contents directory, db = parseFlags contents directory)
    ∨ ∃ contents entries, entries? contents = some entries
      ∧ db = ofCommands (entries.map DatabaseEntry.asCommand)

namespace Database

/-- A load gives a database that was read from a file of either kind. -/
theorem isRead_of_loadOrNone {disk : FileSystem} {directory : Path} {db : Database}
    (h : loadOrNone disk directory = some db) : db.IsRead := by
  cases loadOrNone_eq_some_iff.mp h with
  | commands _ hentries _ => exact .inr ⟨_, _, hentries, rfl⟩
  | flags _ _ hflags => exact .inl ⟨_, directory, (parseFlags_of_flagsIn hflags directory).symm⟩

theorem isRead_of_discover {disk : FileSystem} {path : Path} {db : Database}
    (h : discover disk path = some db) : db.IsRead := by
  obtain ⟨directory, -, hload⟩ := List.exists_of_findSome?_eq_some h
  exact isRead_of_loadOrNone hload

end Database

namespace DatabaseSystem

/-! ## Operations -/

/-- What a system is asked or told. -/
inductive Operation where
  /-- The settings of a file are asked for. -/
  | settings (uri : Url)
  /-- It is asked whether a database answers for a file. -/
  | handles (uri : Url)
  /-- The path of the index store is asked for. -/
  | indexStore
  /-- The path of the index database is asked for. -/
  | indexDatabase
  /-- It is asked whether a file is watched. -/
  | isWatching (uri : Url)
  /-- A file is to be watched. -/
  | register (uri : Url) (language : Language)
  /-- A file is to be watched no longer. -/
  | unregister (uri : Url)
  /-- The listener is set or removed. -/
  | setListener (listener : Option Listener)
  /-- Files have changed. -/
  | filesChanged (events : List FileEvent)

/-- What an operation gives back. -/
inductive Answer where
  | settings (found : Option Settings)
  | truth (value : Bool)
  | path (path : Option Path)
  | notice (notice : Option Notice)
  | nothing
  deriving DecidableEq

/-- What an operation gives back, and the system after it. -/
def perform (disk : FileSystem) (s : DatabaseSystem) : Operation → Answer × DatabaseSystem
  | .settings uri => ((s.settings disk uri).map .settings id)
  | .handles uri => ((s.handles disk uri).map .truth id)
  | .indexStore => (s.indexStore.map .path id)
  | .indexDatabase => (s.indexDatabase.map .path id)
  | .isWatching uri => (.truth (s.isWatching uri), s)
  | .register uri language => (.nothing, s.register uri language)
  | .unregister uri => (.nothing, s.unregister uri)
  | .setListener listener => (.nothing, s.setListener listener)
  | .filesChanged events => ((s.filesChanged disk events).swap.map .notice id)

/-- The operation loads the database again. -/
def Operation.reloads : Operation → Bool
  | filesChanged events => concerns events
  | _ => false

/-- The operation is about a file, and on this disk there is a database above it. -/
def Operation.discovers (disk : FileSystem) : Operation → Bool
  | settings uri => (uri.filePath?.bind (Database.discover disk)).isSome
  | handles uri => (uri.filePath?.bind (Database.discover disk)).isSome
  | _ => false

/-- The operation replaces the database: it loads it again, or it finds one where there was none. -/
def replaces (disk : FileSystem) (s : DatabaseSystem) (o : Operation) : Bool :=
  o.reloads || s.database.isNone && o.discovers disk

/-! ## What an operation does -/

variable {disk : FileSystem} {s s' : DatabaseSystem}

/-- The index store that a look at the database would find. -/
def storeNow (s : DatabaseSystem) : Option Path :=
  s.database.bind Database.indexStorePath?

/-- **What an operation can do** to what answers are made from. The flag says whether the database
is replaced. -/
inductive Becomes (o : Operation) (s s' : DatabaseSystem) : Bool → Prop where
  /-- The database stays, and perhaps its index store becomes known. -/
  | stays (hdatabase : s'.database = s.database) (hgeneration : s'.generation = s.generation)
    (hknown : s'.knownStore = s.knownStore
      ∨ (∀ path, s.knownStore ≠ some (s.generation, path))
        ∧ s'.knownStore = some (s.generation, s.storeNow)) : Becomes o s s' false
  /-- A database is found where there was none. -/
  | finds {db : Database} (hnone : s.database = none) (hread : db.IsRead)
    (hs : s' = s.replace (some db)) : Becomes o s s' true
  /-- The database is loaded again. -/
  | loads {database : Option Database} (hreloads : o.reloads = true)
    (hread : ∀ db, database = some db → db.IsRead) (hs : s' = s.replace database) :
    Becomes o s s' true

/-- The database that answers for a path is the one that is loaded afterwards. -/
theorem databaseFor_fst (disk : FileSystem) (s : DatabaseSystem) (path : Path) :
    (s.databaseFor disk path).1 = (s.databaseFor disk path).2.database := by
  unfold databaseFor
  split
  · case h_1 hdatabase => exact hdatabase.symm
  · case h_2 hdatabase =>
    split
    · rfl
    · exact hdatabase.symm

/-- A question about the settings of a file is answered by the database that is there after it, and
it does what the question does whether there is one. -/
theorem settings_eq_handles (disk : FileSystem) (s : DatabaseSystem) (uri : Url) :
    s.settings disk uri
      = (uri.filePath?.bind (settingsFrom (s.handles disk uri).2.database),
        (s.handles disk uri).2) := by
  unfold settings handles
  cases uri.filePath? with
  | none => rfl
  | some path =>
    simp only [Option.bind_some]
    rw [databaseFor_fst]

/-- A system answers for a file exactly if the file is local and a database is there after the
question. -/
theorem handles_fst (disk : FileSystem) (s : DatabaseSystem) (uri : Url) :
    (s.handles disk uri).1
      = (uri.filePath?.isSome && (s.handles disk uri).2.database.isSome) := by
  unfold handles
  cases uri.filePath? with
  | none => rfl
  | some path =>
    simp only [Option.isSome_some, Bool.true_and]
    rw [databaseFor_fst]

/-- A question about a file leaves the database where it is, or finds one where there was none. -/
theorem becomes_handles (disk : FileSystem) (s : DatabaseSystem) (uri : Url) {o : Operation}
    (ho : o.discovers disk = (uri.filePath?.bind (Database.discover disk)).isSome)
    (hquiet : o.reloads = false) :
    Becomes o s (s.handles disk uri).2 (s.replaces disk o) := by
  unfold handles databaseFor replaces
  rw [hquiet, ho]
  cases uri.filePath? with
  | none => simpa using .stays rfl rfl (.inl rfl)
  | some path =>
    -- Only where there is no database is the disk looked at.
    cases hdatabase : s.database with
    | some db => simpa using .stays rfl rfl (.inl rfl)
    | none =>
      cases hdiscover : Database.discover disk path with
      | some db =>
        simpa [hdiscover] using .finds hdatabase (Database.isRead_of_discover hdiscover) rfl
      | none => simpa [hdiscover] using .stays rfl rfl (.inl rfl)

/-- A question for the index store has one of two courses: the answer is known in this generation
and nothing changes, or the database is searched and what was found is kept. -/
theorem indexStore_cases (s : DatabaseSystem) :
    s.knownStore = some (s.generation, s.indexStore.1) ∧ s.indexStore.2 = s
    ∨ (∀ path, s.knownStore ≠ some (s.generation, path)) ∧ s.indexStore.1 = s.storeNow
      ∧ s.indexStore.2 = { s with knownStore := some (s.generation, s.storeNow) } := by
  unfold indexStore
  cases hknown : s.knownStore with
  | none => exact .inr ⟨nofun, rfl, rfl⟩
  | some entry =>
    obtain ⟨generation, path⟩ := entry
    -- An entry of another generation is as good as none.
    by_cases hsame : generation = s.generation
    · subst hsame
      exact .inl (by simp)
    · refine .inr ⟨fun path' heq => ?_, by simp [hsame, storeNow], by simp [hsame, storeNow]⟩
      cases heq
      exact hsame rfl

/-- The index database is asked for through the index store. -/
theorem indexDatabase_eq (s : DatabaseSystem) :
    s.indexDatabase = ((s.indexStore.1.bind Path.parent?).map (·.child indexDatabaseName),
      s.indexStore.2) :=
  rfl

/-- A question for the index leaves the database where it is. -/
theorem becomes_indexStore (s : DatabaseSystem) (o : Operation) :
    Becomes o s s.indexStore.2 false := by
  obtain ⟨-, hsame⟩ | ⟨hunknown, -, heq⟩ := indexStore_cases s
  · rw [hsame]
    exact .stays rfl rfl (.inl rfl)
  · rw [heq]
    exact .stays rfl rfl (.inr ⟨hunknown, rfl⟩)

/-- Changed files load the database again if one of them is named like one, and do nothing else. -/
theorem becomes_filesChanged (disk : FileSystem) (s : DatabaseSystem) (events : List FileEvent) :
    Becomes (.filesChanged events) s (s.filesChanged disk events).1 (concerns events) := by
  unfold filesChanged
  by_cases hconcerns : concerns events = true
  · rw [if_pos hconcerns, hconcerns]
    refine .loads hconcerns (fun db hdb => ?_) rfl
    obtain ⟨directory, -, hload⟩ := Option.bind_eq_some_iff.mp hdb
    exact Database.isRead_of_loadOrNone hload
  · rw [if_neg hconcerns, Bool.eq_false_iff.mpr hconcerns]
    exact .stays rfl rfl (.inl rfl)

/-- **Every operation does one of these things.** -/
theorem becomes_perform (disk : FileSystem) (s : DatabaseSystem) (o : Operation) :
    Becomes o s (s.perform disk o).2 (s.replaces disk o) := by
  -- Only questions about files discover, and only changed files reload.
  have hquiet : o.reloads = false → o.discovers disk = false → s.replaces disk o = false := by
    intro hreloads hdiscovers
    simp [replaces, hreloads, hdiscovers]
  cases o with
  | settings uri =>
    have hsame : (s.perform disk (.settings uri)).2 = (s.handles disk uri).2 :=
      congrArg Prod.snd (settings_eq_handles disk s uri)
    rw [hsame]
    exact becomes_handles disk s uri rfl rfl
  | handles uri => exact becomes_handles disk s uri rfl rfl
  | indexStore | indexDatabase =>
    rw [hquiet rfl rfl]
    exact becomes_indexStore s _
  | isWatching uri | register uri language | unregister uri | setListener listener =>
    rw [hquiet rfl rfl]
    exact .stays rfl rfl (.inl rfl)
  | filesChanged events =>
    have hreplaces : s.replaces disk (.filesChanged events) = concerns events := by
      simp [replaces, Operation.reloads, Operation.discovers]
    rw [hreplaces]
    exact becomes_filesChanged disk s events

/-! ## Events -/

/-- A system on its disk, and how often its database has been replaced. -/
structure Site where
  /-- The system. -/
  system : DatabaseSystem
  /-- The disk. -/
  disk : FileSystem
  /-- How often the database has been replaced. -/
  replaced : Nat := 0

/-- One thing that happens. -/
inductive Event where
  /-- Something is asked of the system or told to it. -/
  | operation (o : Operation)
  /-- The disk changes. -/
  | disk (disk : FileSystem)

/-- The event loads the database again. -/
def Event.reloads : Event → Bool
  | .operation o => o.reloads
  | .disk _ => false

namespace Site

/-- A new system on its disk. One with a root has looked for a database there, and that counts as
the first. -/
def create (disk : FileSystem) (root : Option Path) : Site :=
  { system := .create disk root, disk, replaced := if root.isSome then 1 else 0 }

/-- The site after an event. -/
def step (s : Site) : Event → Site
  | .operation o =>
    { s with
      system := (s.system.perform s.disk o).2
      replaced := s.replaced + if s.system.replaces s.disk o then 1 else 0 }
  | .disk disk => { s with disk }

/-- The site after some events, one after the other. -/
def run (s : Site) (events : List Event) : Site :=
  events.foldl step s

/-- The operations among some events, each with what it gives back. -/
def answers (s : Site) : List Event → List (Operation × Answer)
  | [] => []
  | .operation o :: events =>
    (o, (s.system.perform s.disk o).1) :: (s.step (.operation o)).answers events
  | .disk disk :: events => (s.step (.disk disk)).answers events

theorem run_cons (s : Site) (e : Event) (events : List Event) :
    s.run (e :: events) = (s.step e).run events :=
  rfl

theorem run_append (s : Site) (events more : List Event) :
    s.run (events ++ more) = (s.run events).run more :=
  List.foldl_append

/-- What an operation gives back is what it gives where the events before it have led. -/
theorem mem_answers_iff {s : Site} {events : List Event} {o : Operation} {answer : Answer} :
    (o, answer) ∈ s.answers events ↔ ∃ early later, events = early ++ .operation o :: later
      ∧ answer = ((s.run early).system.perform (s.run early).disk o).1 := by
  induction events generalizing s with
  | nil => simp [answers]
  | cons e events ih =>
    constructor
    · intro hmem
      -- An answer to a later event is found by what the induction says of the site after this one.
      have hrest : (o, answer) ∈ (s.step e).answers events → ∃ early later,
          e :: events = early ++ .operation o :: later
            ∧ answer = ((s.run early).system.perform (s.run early).disk o).1 := by
        intro hmem
        obtain ⟨early, later, hsplit, hanswer⟩ := ih.mp hmem
        exact ⟨e :: early, later, by rw [hsplit]; rfl, hanswer⟩
      cases e with
      | operation o' =>
        obtain heq | hmem := List.mem_cons.mp hmem
        · cases heq
          exact ⟨[], events, rfl, rfl⟩
        · exact hrest hmem
      | disk disk => exact hrest hmem
    · rintro ⟨early, later, hsplit, hanswer⟩
      -- Either the event itself was answered, or one of those after it.
      cases early with
      | nil =>
        cases hsplit
        rw [hanswer]
        exact List.mem_cons_self
      | cons e' early =>
        cases hsplit
        have hmem := ih.mpr ⟨early, later, rfl, hanswer⟩
        cases e with
        | operation o' => exact List.mem_cons_of_mem _ hmem
        | disk disk => exact hmem

/-- An event replaces the database at most once. -/
theorem replaced_run_le (s : Site) (events : List Event) :
    (s.run events).replaced ≤ s.replaced + events.length := by
  induction events generalizing s with
  | nil => exact Nat.le_refl _
  | cons e events ih =>
    -- One event counts one replacement at most.
    have hstep : (s.step e).replaced ≤ s.replaced + 1 := by
      cases e with
      | operation o =>
        simp only [step]
        split <;> omega
      | disk disk => exact Nat.le_succ _
    rw [run_cons, List.length_cons]
    have hrest := ih (s.step e)
    omega

end Site

/-- A disk with one file in a directory. -/
def diskWith (directory name contents : String) : FileSystem :=
  { files := [([directory, name].map Text.Utf8.encodeString, Text.Utf8.encodeString contents)] }

/-- A file in a directory. -/
def fileIn (directory name : String) : Url :=
  ⟨"file", some {}, .segments [directory, name], none, none⟩

end DatabaseSystem

end FlagServer
