import FlagServer.Proofs.Build.IndexStore

/-!
# How long a database lasts

Questions may find a database and keep it, so the order of questions and the state of the disk can
decide which one is kept. `database_lasts` says how far that goes. From one reload to the next, a
database that is loaded stays, and every question is answered from it, whatever else is asked and
however the disk changes. So the settings of one file change at most once, from none to those of the
database that lasts.

One step says it all: an event that is no reload puts a database only where there is none.
-/

namespace FlagServer

namespace DatabaseSystem

/-! ## What a database answers -/

/-- What a database answers to a question about a file. -/
def Operation.fileAnswer (db : Database) : Operation → Option Answer
  | settings uri => some (.settings (uri.filePath?.bind (settingsFrom (some db))))
  | handles uri => some (.truth uri.filePath?.isSome)
  | _ => none

/-- What is answered to a question for the index, with the index store at this path. -/
def Operation.indexAnswer (store : Option Path) : Operation → Option Answer
  | indexStore => some (.path store)
  | indexDatabase => some (.path ((store.bind Path.parent?).map (·.child indexDatabaseName)))
  | _ => none

/-- The two questions about a file go together. -/
structure Agree (disk : FileSystem) (s : DatabaseSystem) (uri : Url) : Prop where
  /-- A file that has settings is answered for. -/
  handled : (s.settings disk uri).1.isSome → (s.handles disk uri).1 = true
  /-- The two questions do the same to the system. -/
  alike : (s.settings disk uri).2 = (s.handles disk uri).2
  /-- A file is answered for only if a database is loaded then. -/
  found : (s.handles disk uri).1 = true → (s.handles disk uri).2.database.isSome

/-- The two questions about a file go together in every system, since the one is answered through
the other. -/
theorem agree (disk : FileSystem) (s : DatabaseSystem) (uri : Url) : s.Agree disk uri := by
  refine ⟨fun hsome => ?_, ?_, fun hhandled => ?_⟩
  · rw [settings_eq_handles] at hsome
    rw [handles_fst]
    cases hpath : uri.filePath? with
    | none => simp [hpath] at hsome
    | some path =>
      cases hdatabase : (s.handles disk uri).2.database with
      | none => simp [hpath, hdatabase, settingsFrom] at hsome
      | some db => rfl
  · rw [settings_eq_handles]
  · rw [handles_fst, Bool.and_eq_true] at hhandled
    exact hhandled.2

/-! ## One operation -/

/-- A database that is loaded stays through everything but a reload. -/
theorem Becomes.database_eq {o : Operation} {s s' : DatabaseSystem} {replaces : Bool}
    {db : Database} (h : Becomes o s s' replaces) (hquiet : o.reloads = false)
    (hdb : s.database = some db) : s'.database = some db := by
  cases h with
  | stays hdatabase => rw [hdatabase, hdb]
  | finds hnone => rw [hdb] at hnone; cases hnone
  | loads hreloads => rw [hquiet] at hreloads; cases hreloads

/-- So does the answer to the question for the index store. -/
theorem Becomes.indexStore_fst {o : Operation} {s s' : DatabaseSystem} {replaces : Bool}
    {db : Database} (h : Becomes o s s' replaces) (hquiet : o.reloads = false)
    (hdb : s.database = some db) : s'.indexStore.1 = s.indexStore.1 := by
  cases h with
  | stays hdatabase hgeneration hknown =>
    -- Either the entry is the old one, or it was made just now of the database that stays.
    obtain hsame | ⟨hunknown, hlooked⟩ := hknown
    · simp only [indexStore, hsame, hgeneration, hdatabase]
      split
      · split <;> rfl
      · rfl
    · obtain ⟨hknown, -⟩ | ⟨-, hstore, -⟩ := indexStore_cases s
      · exact absurd hknown (hunknown _)
      · rw [hstore]
        simp [indexStore, hlooked, hgeneration]
  | finds hnone => rw [hdb] at hnone; cases hnone
  | loads hreloads => rw [hquiet] at hreloads; cases hreloads

/-- A database that is loaded answers every question about a file. -/
theorem perform_file {disk : FileSystem} {s : DatabaseSystem} {o : Operation} {db : Database}
    {expected : Answer} (hdb : s.database = some db) (ho : o.fileAnswer db = some expected) :
    (s.perform disk o).1 = expected := by
  have hstays (uri : Url) : (s.handles disk uri).2.database = some db :=
    (becomes_handles disk s uri (o := .handles uri) rfl rfl).database_eq rfl hdb
  cases o with
  | settings uri =>
    cases ho
    change Answer.settings (s.settings disk uri).1 = _
    rw [settings_eq_handles, hstays uri]
  | handles uri =>
    cases ho
    change Answer.truth (s.handles disk uri).1 = _
    rw [handles_fst, hstays uri, Option.isSome_some, Bool.and_true]
  | _ => cases ho

/-- Questions for the index are answered from one index store. -/
theorem perform_index {disk : FileSystem} {s : DatabaseSystem} {o : Operation}
    {expected : Answer} (ho : o.indexAnswer s.indexStore.1 = some expected) :
    (s.perform disk o).1 = expected := by
  cases o with
  | indexStore | indexDatabase => exact Option.some.inj ho
  | _ => cases ho

namespace Site

variable {s : Site} {db : Database}

/-- The settings of a file that are given back, one after the other. -/
def settingsGiven (s : Site) (events : List Event) (uri : Url) : List (Option Settings) :=
  (s.answers events).filterMap fun
    | (.settings u, .settings found) => if u = uri then some found else none
    | _ => none

/-- While these events happen, this database answers. -/
structure AnswersFrom (db : Database) (s : Site) (events : List Event) : Prop where
  /-- The database stays. -/
  stays : (s.run events).system.database = some db
  /-- Every question about a file gets the answer of the database. -/
  files : ∀ o answer, (o, answer) ∈ s.answers events → ∀ expected,
    o.fileAnswer db = some expected → answer = expected
  /-- Every question for the index gets the same answer. -/
  index : ∀ o answer, (o, answer) ∈ s.answers events → ∀ expected,
    o.indexAnswer s.system.indexStore.1 = some expected → answer = expected
  /-- It is the answer of the database, as long as the generation can count the replacements. -/
  store : s.replaced < UInt64.size → s.system.indexStore.1 = db.indexStorePath?

/-- **From one reload to the next, a database that is loaded lasts.** -/
structure Lasting (s : Site) (during : List Event) : Prop where
  /-- From when a database is loaded, it answers. -/
  kept : ∀ early later db, during = early ++ later → (s.run early).system.database = some db →
    AnswersFrom db (s.run early) later
  /-- The settings of a file change at most once: first there are none, then they are those of the
  database that is loaded in the end. -/
  once : ∀ uri, ∃ n m, s.settingsGiven during uri = List.replicate n none
    ++ List.replicate m (uri.filePath?.bind (settingsFrom (s.run during).system.database))
  /-- At any time, the two questions about a file go together. -/
  agree : ∀ early later uri, during = early ++ later →
    (s.run early).system.Agree (s.run early).disk uri

/-! ## From one reload to the next -/

/-- What stays while nothing is reloaded. -/
theorem run_stays (hdb : s.system.database = some db) {events : List Event}
    (hquiet : ∀ e ∈ events, e.reloads = false) :
    (s.run events).system.database = some db
      ∧ (s.run events).system.indexStore.1 = s.system.indexStore.1 := by
  induction events generalizing s with
  | nil => exact ⟨hdb, rfl⟩
  | cons e events ih =>
    rw [List.forall_mem_cons] at hquiet
    rw [run_cons]
    cases e with
    | operation o =>
      have hbecomes := becomes_perform s.disk s.system o
      obtain ⟨hstays, hindex⟩ :=
        ih (s := s.step (.operation o)) (hbecomes.database_eq hquiet.1 hdb) hquiet.2
      exact ⟨hstays, hindex.trans (hbecomes.indexStore_fst hquiet.1 hdb)⟩
    | disk disk => exact ih (s := s.step (.disk disk)) hdb hquiet.2

/-- A database that is loaded answers everything from here to the next reload. -/
theorem answersFrom (hdb : s.system.database = some db) (hfresh : s.system.Fresh s.replaced)
    {events : List Event} (hquiet : ∀ e ∈ events, e.reloads = false) :
    AnswersFrom db s events := by
  -- Every answer is given at a site to which some of the events have led.
  have hat {o : Operation} {answer : Answer} (hmem : (o, answer) ∈ s.answers events) :
      ∃ t : Site, t.system.database = some db ∧ t.system.indexStore.1 = s.system.indexStore.1
        ∧ answer = (t.system.perform t.disk o).1 := by
    obtain ⟨early, later, rfl, hanswer⟩ := mem_answers_iff.mp hmem
    rw [List.forall_mem_append] at hquiet
    obtain ⟨hstays, hindex⟩ := run_stays hdb hquiet.1
    exact ⟨s.run early, hstays, hindex, hanswer⟩
  refine ⟨(run_stays hdb hquiet).1, ?_, ?_, ?_⟩
  · intro o answer hmem expected ho
    obtain ⟨t, ht, -, hanswer⟩ := hat hmem
    rw [hanswer]
    exact perform_file ht ho
  · intro o answer hmem expected ho
    obtain ⟨t, -, hindex, hanswer⟩ := hat hmem
    rw [hanswer]
    exact perform_index (hindex ▸ ho)
  · intro hfew
    rw [hfresh.indexStore_fst hfew, storeNow, hdb, Option.bind_some]

/-- While one database answers, the settings of a file are the same each time. -/
theorem settingsGiven_of_answersFrom {events : List Event} (h : AnswersFrom db s events)
    (uri : Url) : ∃ m, s.settingsGiven events uri
      = List.replicate m (uri.filePath?.bind (settingsFrom (some db))) := by
  refine ⟨_, List.eq_replicate_iff.mpr ⟨rfl, fun found hfound => ?_⟩⟩
  -- Each of them was given as the answer to a question for them.
  obtain ⟨⟨o, answer⟩, hmem, hgiven⟩ := List.mem_filterMap.mp hfound
  split at hgiven
  · case h_1 u found' heq =>
    cases heq
    split at hgiven
    · case isTrue hu =>
      cases hgiven
      rw [hu] at hmem
      exact Answer.settings.inj (h.files _ _ hmem _ rfl)
    · cases hgiven
  · cases hgiven

/-- A question for the settings of a file adds its answer, and nothing else does. -/
theorem settingsGiven_cons (s : Site) (e : Event) (events : List Event) (uri : Url) :
    s.settingsGiven (e :: events) uri = (s.step e).settingsGiven events uri
      ∨ s.settingsGiven (e :: events) uri
        = uri.filePath?.bind (settingsFrom (s.step e).system.database)
          :: (s.step e).settingsGiven events uri := by
  cases e with
  | disk disk => exact .inl rfl
  | operation o =>
    cases o with
    | settings u =>
      by_cases hu : u = uri
      · right
        subst hu
        -- The question may have found a database, and it is that one which answers it.
        have hstep : (s.step (.operation (.settings u))).system = (s.system.handles s.disk u).2 :=
          (s.system.agree s.disk u).alike
        rw [hstep]
        simp only [settingsGiven, answers, perform, List.filterMap_cons, Prod.map_fst, if_true]
        rw [settings_eq_handles]
      · left
        simp [settingsGiven, answers, perform, hu]
    | _ => exact .inl rfl

/-- The settings that a file is given change once at most. The induction carries that what is kept
of the index store is fresh, and stops at the first database. -/
theorem settingsGiven_once {during : List Event} (hfresh : s.system.Fresh s.replaced)
    (hquiet : ∀ e ∈ during, e.reloads = false) (uri : Url) :
    ∃ n m, s.settingsGiven during uri = List.replicate n none
      ++ List.replicate m (uri.filePath?.bind (settingsFrom (s.run during).system.database)) := by
  induction during generalizing s with
  | nil => exact ⟨0, 0, rfl⟩
  | cons e during ih =>
    rw [List.forall_mem_cons] at hquiet
    have hfresh' : (s.step e).system.Fresh (s.step e).replaced := fresh_run hfresh [e]
    -- Once there is a database, all answers are its own; before that, there are none.
    cases hdatabase : (s.step e).system.database with
    | some db =>
      have hanswers := answersFrom hdatabase hfresh' hquiet.2
      obtain ⟨m, hm⟩ := settingsGiven_of_answersFrom hanswers uri
      rw [run_cons, hanswers.stays]
      obtain hsame | hmore := settingsGiven_cons s e during uri
      · exact ⟨0, m, hsame.trans hm⟩
      · exact ⟨0, m + 1, by rw [hmore, hm, hdatabase]; rfl⟩
    | none =>
      have hnone : uri.filePath?.bind (settingsFrom none) = none := by
        cases uri.filePath? <;> rfl
      obtain ⟨n, m, hrest⟩ := ih hfresh' hquiet.2
      obtain hsame | hmore := settingsGiven_cons s e during uri
      · exact ⟨n, m, hsame.trans hrest⟩
      · exact ⟨n + 1, m, by rw [hmore, hrest, hdatabase, hnone]; rfl⟩

/-- **A database lasts from one reload to the next**, in every system, after everything that may
have happened to it, whatever is asked of it and told to it then, and however the disk changes. Nor
does the answer to a question for the index change. Only to say that it is the one of the database
takes fewer than 2^64 replacements before (`AnswersFrom.store`): what has been looked up is kept
under a number that comes round then. -/
theorem database_lasts (disk : FileSystem) (root : Option Path) (before during : List Event)
    (hquiet : ∀ e ∈ during, e.reloads = false) :
    ((create disk root).run before).Lasting during := by
  have hfresh := fresh_run (s := create disk root) (Fresh.create disk root) before
  generalize (create disk root).run before = s at hfresh
  refine ⟨?_, settingsGiven_once hfresh hquiet, fun early later uri _ => agree _ _ uri⟩
  rintro early later db rfl hdb
  rw [List.forall_mem_append] at hquiet
  exact answersFrom hdb (fresh_run hfresh early) hquiet.2

/-- Flags appear on the disk, and after a question about a file they change; nobody says so. -/
def unsaid : List Event :=
  let ask := .operation (.settings (fileIn "q" "a.c"))
  [ask, .operation (.handles (fileIn "q" "a.c")), .disk (diskWith "q" Database.flagsName "-Wall"),
    .operation (.register (fileIn "q" "a.c") .c), .operation (.handles (fileIn "q" "b.c")),
    .disk (diskWith "q" Database.flagsName "-Wextra"), ask, .operation .indexStore,
    .operation (.filesChanged [⟨fileIn "q" "a.c", 2⟩]), .disk {}, ask]

/-- Between two reloads, flags are found when they have appeared, and they are not read again. -/
theorem database_lasts_unsaid :
    ((create {} none).run [.operation (.filesChanged [⟨fileIn "q" Database.flagsName, 1⟩])]).Lasting
        unsaid
      ∧ ((create {} none).run
          [.operation (.filesChanged [⟨fileIn "q" Database.flagsName, 1⟩])]).settingsGiven
            unsaid (fileIn "q" "a.c")
        = [none, some ⟨["-Wall", "/q/a.c"], some (.ofString "/q")⟩,
          some ⟨["-Wall", "/q/a.c"], some (.ofString "/q")⟩] :=
  ⟨database_lasts {} none _ unsaid (by decide +kernel), by decide +kernel⟩

end Site

end DatabaseSystem

end FlagServer
