import FlagServer.Build.DatabaseSystem
import FlagServer.Proofs.Database.Coverage
import FlagServer.Proofs.Path.Ancestors

/-!
# Which database is discovered

A system without a database that is asked about a file looks for one in the directories above the
file. The one it adopts is the **nearest**: the first directory on the way up that holds a database
(`Nearest`). A directory that is refused is passed over like one that has neither file, so that a
broken file of commands hides nothing above it; but it does hide the file of flags beside it.

The search goes through the ancestors one by one. They are all directories above the file, from the
deepest up, so that where it stops is the deepest of those that hold a database.
-/

namespace FlagServer

namespace Database

/-- The nearest directory above a path that holds a database, and that database. -/
structure Nearest (disk : FileSystem) (p d : Path) (db : Database) : Prop where
  above : d.IsAbove p
  holds : Holds disk d db
  /-- Every deeper one has neither file, or is refused. -/
  deeper : ∀ d' : Path, d'.IsAbove p → d.components.length < d'.components.length →
    HoldsNone disk d'

section Search

variable {disk : FileSystem} {p d : Path} {db : Database}

/-- A directory does not both hold a database and hold none, since a load gives one answer. -/
theorem Holds.not_holdsNone (h : Holds disk d db) : ¬ HoldsNone disk d := by
  rw [← loadOrNone_eq_none_iff, loadOrNone_eq_some_iff.mpr h]
  exact Option.some_ne_none db

/-- There is at most one nearest directory, with one database. -/
theorem Nearest.unique {d' : Path} {db' : Database} (h : Nearest disk p d db)
    (h' : Nearest disk p d' db') : d = d' ∧ db = db' := by
  -- Neither of the two is deeper than the other, as each would have to hold none below the other.
  have hle : ¬ d.components.length < d'.components.length := fun hlt =>
    h'.holds.not_holdsNone (h.deeper d' h'.above hlt)
  have hge : ¬ d'.components.length < d.components.length := fun hlt =>
    h.holds.not_holdsNone (h'.deeper d h.above hlt)
  obtain rfl := h.above.unique h'.above (by omega)
  exact ⟨rfl, h.holds.unique h'.holds⟩

/-- **What is discovered is the database of the nearest directory.** -/
theorem discover_eq_some_iff (hp : p.isAbsolute = true) :
    discover disk p = some db ↔ ∃ d, Nearest disk p d db := by
  rw [discover, List.findSome?_eq_some_iff]
  constructor
  · rintro ⟨front, d, back, hsplit, hd, hfront⟩
    have habove : d.IsAbove p := (Path.mem_ancestors_iff hp).mp (by simp [hsplit])
    -- The ancestors before `d` in the search are those that are deeper than `d`.
    refine ⟨d, habove, loadOrNone_eq_some_iff.mp hd, fun d' habove' hdeeper => ?_⟩
    have hd' := (Path.mem_front_iff hp hsplit).mpr ⟨habove', hdeeper⟩
    exact loadOrNone_eq_none_iff.mp (hfront d' hd')
  · rintro ⟨d, h⟩
    obtain ⟨front, back, hsplit⟩ := List.append_of_mem ((Path.mem_ancestors_iff hp).mpr h.above)
    refine ⟨front, d, back, hsplit, loadOrNone_eq_some_iff.mpr h.holds, fun d' hd' => ?_⟩
    obtain ⟨habove, hdeeper⟩ := (Path.mem_front_iff hp hsplit).mp hd'
    exact loadOrNone_eq_none_iff.mpr (h.deeper d' habove hdeeper)

/-- **Nothing is discovered** if no directory above the path holds a database. -/
theorem discover_eq_none_iff (hp : p.isAbsolute = true) :
    discover disk p = none ↔ ∀ d : Path, d.IsAbove p → HoldsNone disk d := by
  rw [discover, List.findSome?_eq_none_iff]
  simp only [Path.mem_ancestors_iff hp, loadOrNone_eq_none_iff]

/-! ## Flags -/

/-- Flags that are held stand in the file of flags, and are for the files below the directory. -/
theorem Holds.of_flags {directory : Path} {flags : List String}
    (h : Holds disk d (.flags directory flags)) :
    directory = d
      ∧ ∃ contents, disk.readText (d.child flagsName) = .ok contents ∧ FlagsIn contents flags := by
  generalize hdb : Database.flags directory flags = db at h
  cases h with
  | commands => cases hdb
  | flags _ hread hflags =>
    cases hdb
    exact ⟨rfl, _, hread, hflags⟩

/-- Flags in a directory above a path that is resolved are for that path. -/
theorem settingsFrom_flags (habove : d.IsAbove p) (hnormal : p.normalize.same p = true)
    (flags : List String) :
    DatabaseSystem.settingsFrom (some (.flags d flags)) p
      = some { arguments := flags ++ [p.normalize.textLossy], directory := some d } := by
  have hbelow : d.components <+: p.normalize.components := by
    rw [beq_iff_eq.mp hnormal]
    exact habove.components
  rw [DatabaseSystem.settingsFrom, Option.bind_some, firstCommand?, commandsFor_flags,
    if_pos hbelow]
  rfl

end Search

end Database

namespace DatabaseSystem

open Database (Nearest HoldsNone FlagsIn flagsName)

/-! ## Main result -/

section Questions

variable {disk : FileSystem} {s : DatabaseSystem} {p : Path} {db : Database}

/-- A system without a database adopts what it discovers, and answers from it. -/
theorem databaseFor_of_discover (hnone : s.database = none)
    (hfound : Database.discover disk p = some db) :
    s.databaseFor disk p = (some db, s.replace (some db)) := by
  simp only [databaseFor, hnone, hfound]

theorem databaseFor_of_nowhere (hnone : s.database = none)
    (hnowhere : Database.discover disk p = none) : s.databaseFor disk p = (none, s) := by
  simp only [databaseFor, hnone, hnowhere]

/-- Both questions about a file are answered by the database for its path. -/
theorem settings_of_filePath? {uri : Url} (hpath : uri.filePath? = some p) :
    s.settings disk uri
      = (settingsFrom (s.databaseFor disk p).1 p, (s.databaseFor disk p).2) := by
  simp only [settings, hpath]

theorem handles_of_filePath? {uri : Url} (hpath : uri.filePath? = some p) :
    s.handles disk uri = ((s.databaseFor disk p).1.isSome, (s.databaseFor disk p).2) := by
  simp only [handles, hpath]

end Questions

/-- **What a question about a path comes to** in a system without a database. -/
structure Discovers (disk : FileSystem) (s : DatabaseSystem) (p : Path) : Prop where
  /-- Either a directory above the path is the nearest that holds a database, or none holds one. -/
  either : (∃ d db, Nearest disk p d db) ∨ ∀ d : Path, d.IsAbove p → HoldsNone disk d
  /-- A load from the nearest directory gives its database. A load from a deeper one fails, or gives
  none. -/
  loads : ∀ d db, Nearest disk p d db → Database.load disk d = .ok (some db)
    ∧ ∀ d' : Path, d'.IsAbove p → d.components.length < d'.components.length →
      (∃ e, Database.load disk d' = .error e) ∨ Database.load disk d' = .ok none
  /-- The database of the nearest directory answers, and is kept. -/
  adopts : ∀ d db, Nearest disk p d db →
    s.databaseFor disk p = (some db, s.replace (some db))
      ∧ ∀ uri : Url, uri.filePath? = some p →
        s.settings disk uri = (settingsFrom (some db) p, s.replace (some db))
          ∧ s.handles disk uri = (true, s.replace (some db))
  /-- If that is flags, a path in normal form is compiled with them in that directory. -/
  flags : ∀ d directory flags, Nearest disk p d (.flags directory flags) → p.normalize = p →
    ∃ contents, disk.readText (d.child flagsName) = .ok contents ∧ FlagsIn contents flags
      ∧ settingsFrom (some (.flags directory flags)) p
        = some { arguments := flags ++ [p.textLossy], directory := some d }
  /-- The same of a path that is resolved but not spelled in the plainest way. It is compiled as the
  plainest way spells it. -/
  respelled : ∀ d directory flags, Nearest disk p d (.flags directory flags) →
    p.normalize.same p = true → settingsFrom (some (.flags directory flags)) p
      = some { arguments := flags ++ [p.normalize.textLossy], directory := some d }
  /-- If no directory holds a database, there is no answer, and nothing has changed. -/
  unhandled : (∀ d : Path, d.IsAbove p → HoldsNone disk d) →
    s.databaseFor disk p = (none, s)
      ∧ ∀ uri : Url, uri.filePath? = some p →
        s.settings disk uri = (none, s) ∧ s.handles disk uri = (false, s)

/-- **A question finds the nearest database above the file.** Directories in which none is found, or
whose database is refused for whatever reason, are passed over. What is found answers, and is kept;
if nothing is found, nothing is kept. -/
theorem question_discovers (disk : FileSystem) {s : DatabaseSystem} {p : Path}
    (hnone : s.database = none) (hp : p.isAbsolute = true) : Discovers disk s p where
  either := by
    cases hfound : Database.discover disk p with
    | none => exact .inr ((Database.discover_eq_none_iff hp).mp hfound)
    | some db =>
      obtain ⟨d, h⟩ := (Database.discover_eq_some_iff hp).mp hfound
      -- A walk that ends with a database says where it found it and what it passed.
      exact .inl ⟨d, db, h⟩
  loads := by
    intro d db h
    refine ⟨h.holds.load_eq, fun d' habove hdeeper => ?_⟩
    obtain hbare | ⟨e, hrefused⟩ := h.deeper d' habove hdeeper
    · exact .inr hbare.load_eq
    · exact .inl ⟨e, hrefused.load_eq⟩
  adopts := by
    intro d db h
    have hanswer := databaseFor_of_discover hnone ((Database.discover_eq_some_iff hp).mpr ⟨d, h⟩)
    refine ⟨hanswer, fun uri hpath => ⟨?_, ?_⟩⟩
    · rw [settings_of_filePath? hpath, hanswer]
    · rw [handles_of_filePath? hpath, hanswer]
      rfl
  flags := by
    intro d directory flags h hnormal
    obtain ⟨rfl, contents, hread, hflags⟩ := h.holds.of_flags
    refine ⟨contents, hread, hflags, ?_⟩
    -- A normal path is spelled as its normal form is, so it is below the directory as spelled.
    have hsame : p.normalize.same p = true := by rw [hnormal]; exact beq_self_eq_true _
    rw [Database.settingsFrom_flags h.above hsame, hnormal]
  respelled := by
    intro d directory flags h hsame
    obtain ⟨rfl, -⟩ := h.holds.of_flags
    exact Database.settingsFrom_flags h.above hsame flags
  unhandled := by
    intro h
    have hanswer := databaseFor_of_nowhere hnone ((Database.discover_eq_none_iff hp).mpr h)
    refine ⟨hanswer, fun uri hpath => ⟨?_, ?_⟩⟩
    · rw [settings_of_filePath? hpath, hanswer]
      rfl
    · rw [handles_of_filePath? hpath, hanswer]
      rfl

/-- A disk on which the nearest directory is refused, with flags beside the broken file, and the
next one up holds flags. -/
def refusedBelow : FileSystem where
  files :=
    [([Text.Utf8.encodeString "p", Text.Utf8.encodeString "q",
        Text.Utf8.encodeString "compile_commands.json"], Text.Utf8.encodeString "["),
      ([Text.Utf8.encodeString "p", Text.Utf8.encodeString "q",
        Text.Utf8.encodeString "compile_flags.txt"], Text.Utf8.encodeString "-DNEAR\n"),
      ([Text.Utf8.encodeString "p", Text.Utf8.encodeString "compile_flags.txt"],
        Text.Utf8.encodeString " -DX\n\n-I a\n")]

/-- The broken file hides the flags beside it, and not those above it. -/
theorem question_discovers_refusedBelow :
    (∃ d, Nearest refusedBelow (.ofString "/p/q/a.c") d
        (.flags (.ofString "/p") ["-DX", "-I a"]))
      ∧ Path.normalize (.ofString "/p/q/a.c") = .ofString "/p/q/a.c"
      ∧ Discovers refusedBelow { root := none } (.ofString "/p/q/a.c") :=
  ⟨(Database.discover_eq_some_iff (by decide +kernel)).mp (by decide +kernel), by decide +kernel,
    question_discovers refusedBelow rfl (by decide +kernel)⟩

/-- A disk with a directory that the user may not enter, and flags above it. -/
def lockedBelow : FileSystem where
  files :=
    [([Text.Utf8.encodeString "p", Text.Utf8.encodeString "locked", Text.Utf8.encodeString "src",
        Text.Utf8.encodeString "a.c"], []),
      ([Text.Utf8.encodeString "p", Text.Utf8.encodeString "compile_flags.txt"],
        Text.Utf8.encodeString "-DABOVE\n")]
  barred := [([Text.Utf8.encodeString "p", Text.Utf8.encodeString "locked"], .permissionDenied)]

/-- What may not be read is refused for that reason, and passed over like any other refusal. -/
example :
    Database.load lockedBelow (.ofString "/p/locked/src")
        = .error (.unreadable (.ofString "/p/locked/src/compile_commands.json") .permissionDenied)
      ∧ Database.discover lockedBelow (.ofString "/p/locked/src/a.c")
        = some (.flags (.ofString "/p") ["-DABOVE"]) := by
  decide +kernel

end DatabaseSystem

end FlagServer
