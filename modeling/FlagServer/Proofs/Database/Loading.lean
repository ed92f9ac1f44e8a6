import FlagServer.Proofs.Database.Lookup
import FlagServer.Proofs.Text

/-!
# What a directory holds

Whether a directory holds a database is said here by its two files alone. It holds the one in the
file of commands, if that can be read and every entry of it says how its file is compiled. It holds
the one in the file of flags, if there is **no** file of commands (`Holds`). In all other cases it
either has neither file, or it is refused for one of four reasons (`Refuses`), and then it holds
nothing, whatever is in its file of flags.

These are all cases, and no two of them are true of one directory: `load` tells them apart
(`load_eq_ok_some_iff`, `load_eq_error_iff`, `load_eq_ok_none_iff`).
-/

namespace FlagServer

/-! ## Entries that say enough -/

namespace DatabaseEntry

/-- The entry says how its file is compiled. -/
def IsComplete (e : DatabaseEntry) : Prop :=
  e.arguments ≠ none ∨ e.command ≠ none

/-- An entry that says enough is read as its command. -/
theorem toCommand_of_isComplete {e : DatabaseEntry} (h : e.IsComplete) :
    e.toCommand = .ok e.asCommand := by
  cases hcommand : e.toCommand with
  | ok c => rw [eq_asCommand hcommand]
  | error err =>
    unfold toCommand at hcommand
    cases harguments : e.arguments with
    | some arguments => simp [harguments] at hcommand
    | none =>
      obtain h | h := h
      · exact absurd harguments h
      · obtain ⟨command, hsome⟩ := Option.ne_none_iff_exists'.mp h
        simp [harguments, hsome] at hcommand

/-- One that does not is refused, and the error names its file. -/
theorem toCommand_of_not_isComplete {e : DatabaseEntry} (h : ¬ e.IsComplete) :
    e.toCommand = .error (.missingCommand e.file) := by
  simp only [IsComplete, not_or, not_not] at h
  simp [toCommand, h.1, h.2]

/-- If all entries say enough, all are read. -/
theorem mapM_toCommand_of_isComplete {entries : List DatabaseEntry}
    (h : ∀ e ∈ entries, e.IsComplete) : entries.mapM toCommand = .ok (entries.map asCommand) := by
  induction entries with
  | nil => rfl
  | cons e entries ih =>
    obtain ⟨he, hentries⟩ := List.forall_mem_cons.mp h
    rw [List.mapM_cons, toCommand_of_isComplete he, ih hentries]
    rfl

/-- The first entry that does not say enough is the one that is named. -/
theorem mapM_toCommand_of_not_isComplete {front back : List DatabaseEntry} {e : DatabaseEntry}
    (hfront : ∀ e ∈ front, e.IsComplete) (he : ¬ e.IsComplete) :
    (front ++ e :: back).mapM toCommand = .error (.missingCommand e.file) := by
  rw [List.mapM_append, mapM_toCommand_of_isComplete hfront, List.mapM_cons,
    toCommand_of_not_isComplete he]
  rfl

/-- Either all entries say enough, or there is a first one that does not. -/
theorem isComplete_or_exists (entries : List DatabaseEntry) :
    (∀ e ∈ entries, e.IsComplete)
      ∨ ∃ front e back, entries = front ++ e :: back ∧ (∀ e ∈ front, e.IsComplete)
        ∧ ¬ e.IsComplete := by
  induction entries with
  | nil => exact .inl (List.forall_mem_nil _)
  | cons e entries ih =>
    by_cases he : e.IsComplete
    · obtain hentries | ⟨front, e', back, rfl, hfront, he'⟩ := ih
      · exact .inl (List.forall_mem_cons.mpr ⟨he, hentries⟩)
      · exact .inr ⟨e :: front, e', back, rfl, List.forall_mem_cons.mpr ⟨he, hfront⟩, he'⟩
    · exact .inr ⟨[], e, entries, rfl, List.forall_mem_nil _, he⟩

end DatabaseEntry

namespace Database

/-- **A file of commands is read as its entries,** if all of them say enough. -/
theorem parseCommands_of_isComplete {contents : String} {entries : List DatabaseEntry}
    (hentries : entries? contents = some entries) (h : ∀ e ∈ entries, e.IsComplete) (path : Path) :
    parseCommands contents path = .ok (ofCommands (entries.map DatabaseEntry.asCommand)) := by
  simp only [parseCommands, hentries, DatabaseEntry.mapM_toCommand_of_isComplete h]
  rfl

/-- If one does not, the whole file is refused for the first that does not. -/
theorem parseCommands_of_not_isComplete {contents : String} {front back : List DatabaseEntry}
    {e : DatabaseEntry} (hentries : entries? contents = some (front ++ e :: back))
    (hfront : ∀ e ∈ front, e.IsComplete) (he : ¬ e.IsComplete) (path : Path) :
    parseCommands contents path = .error (.missingCommand e.file) := by
  simp only [parseCommands, hentries, DatabaseEntry.mapM_toCommand_of_not_isComplete hfront he]
  rfl

/-- **A file of commands is accepted exactly if it is a list of entries that all say enough.** -/
theorem parseCommands_eq_ok_iff {contents : String} {path : Path} {db : Database} :
    parseCommands contents path = .ok db
      ↔ ∃ entries, entries? contents = some entries ∧ (∀ e ∈ entries, e.IsComplete)
        ∧ db = ofCommands (entries.map DatabaseEntry.asCommand) := by
  constructor
  · intro h
    cases hentries : entries? contents with
    | none =>
      simp only [parseCommands, hentries] at h
      cases h
    | some entries =>
      obtain hcomplete | ⟨front, e, back, rfl, hfront, he⟩ :=
        DatabaseEntry.isComplete_or_exists entries
      · rw [parseCommands_of_isComplete hentries hcomplete, Except.ok.injEq] at h
        exact ⟨entries, rfl, hcomplete, h.symm⟩
      · rw [parseCommands_of_not_isComplete hentries hfront he] at h
        cases h
  · rintro ⟨entries, hentries, hcomplete, rfl⟩
    exact parseCommands_of_isComplete hentries hcomplete path

/-! ## Flags -/

/-- The flags on some lines: what stands on a line between white space, if anything else does. -/
inductive FlagsOn : List (List Char) → List String → Prop where
  | nil : FlagsOn [] []
  /-- There is nothing but white space on the line. -/
  | blank {line : List Char} {lines : List (List Char)} {flags : List String}
    (hline : ∀ c ∈ line, Text.isBlank c = true) (rest : FlagsOn lines flags) :
    FlagsOn (line :: lines) flags
  /-- There is a flag on the line, with white space before it and behind it. -/
  | flag {front flag back : List Char} {lines : List (List Char)} {flags : List String}
    (hfront : ∀ c ∈ front, Text.isBlank c = true) (hback : ∀ c ∈ back, Text.isBlank c = true)
    (hne : flag ≠ []) (hhead : ∀ c ∈ flag.head?, Text.isBlank c = false)
    (hlast : ∀ c ∈ flag.getLast?, Text.isBlank c = false) (rest : FlagsOn lines flags) :
    FlagsOn ((front ++ flag ++ back) :: lines) (String.ofList flag :: flags)

/-- The flags in a text, line by line. -/
def FlagsIn (contents : String) (flags : List String) : Prop :=
  ∃ lines, Text.joinWith '\n' lines = contents.toList ∧ (∀ line ∈ lines, '\n' ∉ line)
    ∧ FlagsOn lines flags

/-- The flags on some lines are the lines without their white space, except those of which nothing
is left. So there is one list of flags on them. -/
theorem FlagsOn.eq {lines : List (List Char)} {flags : List String} (h : FlagsOn lines flags) :
    flags = ((lines.map Text.trim).filter fun line => !line.isEmpty).map String.ofList := by
  induction h with
  | nil => rfl
  | blank hline _ ih =>
    rw [List.map_cons, Text.trim_eq_nil_of_blank hline]
    exact ih
  | flag hfront hback hne hhead hlast _ ih =>
    rw [List.map_cons, Text.trim_append hfront hback hne hhead hlast,
      List.filter_cons_of_pos (by simpa using hne), List.map_cons, ih]

/-- And there always is one. -/
theorem flagsOn (lines : List (List Char)) :
    FlagsOn lines (((lines.map Text.trim).filter fun line => !line.isEmpty).map String.ofList) := by
  induction lines with
  | nil => exact .nil
  | cons line lines ih =>
    obtain ⟨front, back, hline, hfront, hback, hhead, hlast⟩ := Text.exists_trim line
    -- A line of which nothing is left is blank from end to end.
    by_cases hne : Text.trim line = []
    · have hblank : ∀ c ∈ line, Text.isBlank c = true := by
        rw [hline, hne, List.append_nil]
        exact List.forall_mem_append.mpr ⟨hfront, hback⟩
      rw [List.map_cons, hne]
      exact .blank hblank ih
    · have hflag := FlagsOn.flag hfront hback hne hhead hlast ih
      rw [← hline] at hflag
      rwa [List.map_cons, List.filter_cons_of_pos (by simpa using hne), List.map_cons]

/-- **The flags that are read are those in the text.** -/
theorem flagsIn_iff {contents : String} {flags : List String} :
    FlagsIn contents flags ↔ flags = (flagLines contents.toList).map String.ofList := by
  constructor
  · rintro ⟨lines, hjoin, hbare, hflags⟩
    rw [hflags.eq, flagLines, ← hjoin]
    by_cases hnil : lines = []
    · -- No line at all is as good as one with nothing on it.
      rw [hnil]
      rfl
    · rw [Text.splitOn_joinWith hnil hbare]
  · rintro rfl
    exact ⟨Text.splitOn '\n' contents.toList, Text.joinWith_splitOn _,
      fun _ hline => Text.not_mem_of_mem_splitOn hline, flagsOn _⟩

/-- A file of flags is read as the flags in it, and it is never refused. -/
theorem parseFlags_of_flagsIn {contents : String} {flags : List String}
    (h : FlagsIn contents flags) (directory : Path) :
    parseFlags contents directory = .flags directory flags := by
  rw [flagsIn_iff.mp h, parseFlags]

/-! ## Directories -/

/-- A directory holds a database. -/
inductive Holds (disk : FileSystem) (directory : Path) : Database → Prop where
  /-- The file of commands can be read, and all its entries say enough. -/
  | commands {contents : String} {entries : List DatabaseEntry}
    (hread : disk.readText (directory.child commandsName) = .ok contents)
    (hentries : entries? contents = some entries) (hcomplete : ∀ e ∈ entries, e.IsComplete) :
    Holds disk directory (ofCommands (entries.map DatabaseEntry.asCommand))
  /-- There is no file of commands, and the file of flags can be read. -/
  | flags {contents : String} {flags : List String}
    (habsent : disk.readText (directory.child commandsName) = .error .notFound)
    (hread : disk.readText (directory.child flagsName) = .ok contents)
    (hflags : FlagsIn contents flags) : Holds disk directory (.flags directory flags)

/-- A directory is refused. Only a file of commands that is absent lets the file of flags be looked
at. -/
inductive Refuses (disk : FileSystem) (directory : Path) : DatabaseError → Prop where
  /-- The file of commands cannot be read, and not because it is absent: it is a directory, or no
  text, or the path leads through a regular file, or a name is too long, or the system refuses to
  open it or a directory on the way. -/
  | unreadable {cause : FileError} (hcause : cause ≠ .notFound)
    (hread : disk.readText (directory.child commandsName) = .error cause) :
    Refuses disk directory (.unreadable (directory.child commandsName) cause)
  /-- The file of commands is no list of entries. -/
  | malformed {contents : String}
    (hread : disk.readText (directory.child commandsName) = .ok contents)
    (hentries : entries? contents = none) :
    Refuses disk directory (.malformed (directory.child commandsName))
  /-- One of its entries, and none before it, does not say how its file is compiled. -/
  | missingCommand {contents : String} {front back : List DatabaseEntry} {e : DatabaseEntry}
    (hread : disk.readText (directory.child commandsName) = .ok contents)
    (hentries : entries? contents = some (front ++ e :: back))
    (hfront : ∀ e ∈ front, e.IsComplete) (he : ¬ e.IsComplete) :
    Refuses disk directory (.missingCommand e.file)
  /-- There is no file of commands, and the file of flags cannot be read, and not because it is
  absent. -/
  | unreadableFlags {cause : FileError} (hcause : cause ≠ .notFound)
    (habsent : disk.readText (directory.child commandsName) = .error .notFound)
    (hread : disk.readText (directory.child flagsName) = .error cause) :
    Refuses disk directory (.unreadable (directory.child flagsName) cause)

/-- A directory has neither file. -/
structure IsBare (disk : FileSystem) (directory : Path) : Prop where
  commands : disk.readText (directory.child commandsName) = .error .notFound
  flags : disk.readText (directory.child flagsName) = .error .notFound

section Directories

variable {disk : FileSystem} {directory : Path}

/-- Whatever keeps a file from being read is passed on, unless the file is absent. -/
theorem readIfThere_error {path : Path} {cause : FileError} (hcause : cause ≠ .notFound)
    (h : disk.readText path = .error cause) :
    readIfThere disk path = .error (.unreadable path cause) := by
  unfold readIfThere
  rw [h]
  split
  · rename_i heq
    cases heq
  · rename_i heq
    cases heq
    exact absurd rfl hcause
  · rename_i heq
    cases heq
    rfl

/-- A database that is held is loaded. -/
theorem Holds.load_eq {db : Database} (h : Holds disk directory db) :
    load disk directory = .ok (some db) := by
  cases h with
  | commands hread hentries hcomplete =>
    simp only [load, readIfThere, hread, parseCommands_of_isComplete hentries hcomplete]
    rfl
  | flags habsent hread hflags =>
    simp only [load, readIfThere, habsent, hread, parseFlags_of_flagsIn hflags]

/-- What is refused is an error, and of one reason only. -/
theorem Refuses.load_eq {e : DatabaseError} (h : Refuses disk directory e) :
    load disk directory = .error e := by
  cases h with
  | unreadable hcause hread => simp only [load, readIfThere_error hcause hread]
  | malformed hread hentries =>
    simp only [load, readIfThere, hread, parseCommands, hentries]
    rfl
  | missingCommand hread hentries hfront he =>
    simp only [load, readIfThere, hread, parseCommands_of_not_isComplete hentries hfront he]
    rfl
  | unreadableFlags hcause habsent hread =>
    -- The file of commands is absent, so the load goes on to the flags.
    have hthere : readIfThere disk (directory.child commandsName) = .ok none := by
      simp only [readIfThere, habsent]
    simp only [load, hthere, readIfThere_error hcause hread]

/-- Where neither file is, nothing is loaded. -/
theorem IsBare.load_eq (h : IsBare disk directory) : load disk directory = .ok none := by
  simp only [load, readIfThere, h.commands, h.flags]

/-- **A directory holds a database, is refused, or has neither file.** -/
theorem holds_or (disk : FileSystem) (directory : Path) :
    (∃ db, Holds disk directory db) ∨ (∃ e, Refuses disk directory e) ∨ IsBare disk directory := by
  cases hcommands : disk.readText (directory.child commandsName) with
  | ok contents =>
    cases hentries : entries? contents with
    | none => exact .inr (.inl ⟨_, .malformed hcommands hentries⟩)
    | some entries =>
      obtain hcomplete | ⟨front, e, back, rfl, hfront, he⟩ :=
        DatabaseEntry.isComplete_or_exists entries
      · exact .inl ⟨_, .commands hcommands hentries hcomplete⟩
      · exact .inr (.inl ⟨_, .missingCommand hcommands hentries hfront he⟩)
  | error cause =>
    by_cases hcause : cause = .notFound
    · subst hcause
      cases hflags : disk.readText (directory.child flagsName) with
      | ok contents => exact .inl ⟨_, .flags hcommands hflags (flagsIn_iff.mpr rfl)⟩
      | error cause =>
        by_cases hcause : cause = .notFound
        · subst hcause
          exact .inr (.inr ⟨hcommands, hflags⟩)
        · exact .inr (.inl ⟨_, .unreadableFlags hcause hcommands hflags⟩)
    · exact .inr (.inl ⟨_, .unreadable hcause hcommands⟩)

/-- **What is loaded is what is held.** The other two cases give another answer, and there is no
fourth. -/
theorem load_eq_ok_some_iff {db : Database} :
    load disk directory = .ok (some db) ↔ Holds disk directory db := by
  refine ⟨fun hload => ?_, Holds.load_eq⟩
  obtain ⟨db', h⟩ | ⟨e, h⟩ | h := holds_or disk directory
  · rw [h.load_eq, Except.ok.injEq, Option.some.injEq] at hload
    rwa [← hload]
  · rw [h.load_eq] at hload
    cases hload
  · rw [h.load_eq] at hload
    cases hload

/-- **A load fails for exactly these reasons.** -/
theorem load_eq_error_iff {e : DatabaseError} :
    load disk directory = .error e ↔ Refuses disk directory e := by
  refine ⟨fun hload => ?_, Refuses.load_eq⟩
  obtain ⟨db, h⟩ | ⟨e', h⟩ | h := holds_or disk directory
  · rw [h.load_eq] at hload
    cases hload
  · rw [h.load_eq, Except.error.injEq] at hload
    rwa [← hload]
  · rw [h.load_eq] at hload
    cases hload

/-- **A load gives nothing exactly if neither file is there.** -/
theorem load_eq_ok_none_iff : load disk directory = .ok none ↔ IsBare disk directory := by
  refine ⟨fun hload => ?_, IsBare.load_eq⟩
  obtain ⟨db, h⟩ | ⟨e, h⟩ | h := holds_or disk directory
  · rw [h.load_eq] at hload
    cases hload
  · rw [h.load_eq] at hload
    cases hload
  · exact h

/-- A refused directory is as good as one that has neither file. -/
theorem loadOrNone_eq_some_iff {db : Database} :
    loadOrNone disk directory = some db ↔ Holds disk directory db := by
  rw [← load_eq_ok_some_iff, loadOrNone]
  cases load disk directory with
  | ok found => simp
  | error e => simp

/-- A directory holds no database: it has neither file, or it is refused. -/
def HoldsNone (disk : FileSystem) (directory : Path) : Prop :=
  IsBare disk directory ∨ ∃ e, Refuses disk directory e

/-- For who only asks for a database, a refusal is as good as no file. -/
theorem loadOrNone_eq_none_iff : loadOrNone disk directory = none ↔ HoldsNone disk directory := by
  rw [HoldsNone, ← load_eq_ok_none_iff]
  simp only [← load_eq_error_iff, loadOrNone]
  cases load disk directory with
  | ok found => simp
  | error e => simp

/-- A directory holds one database at most. -/
theorem Holds.unique {db db' : Database} (h : Holds disk directory db)
    (h' : Holds disk directory db') : db = db' := by
  have hload := h.load_eq
  rw [h'.load_eq, Except.ok.injEq, Option.some.injEq] at hload
  exact hload.symm

end Directories

end Database

end FlagServer
