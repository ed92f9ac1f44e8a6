import FlagServer.Proofs.Build.Reloads

/-!
# In which order settings are resolved again

After a reload a session asks for the settings of the open documents anew, one document after the
other, and nothing says which comes first. With a database at the root this makes no difference.
Without one, the first document above which a database is found decides what all later documents are
told, and which database stays.

The order makes no difference if the reload has left a database, or if no two of the documents are
at odds (`DatabaseSystem.InAccord`), and only then. Two documents of two projects, each with its own
flags, are at odds.
-/

namespace FlagServer

/-- What a database has for a file. -/
def Database.settings? (db : Database) (uri : Url) : Option Settings :=
  uri.filePath?.bind (DatabaseSystem.settingsFrom (some db))

namespace DatabaseSystem

/-! ## One question after the other -/

/-- The database that is found for a file by searching the disk. -/
def found (disk : FileSystem) (uri : Url) : Option Database :=
  uri.filePath?.bind (Database.discover disk)

/-- The settings of some files, asked for one after the other, and the system after that. -/
def settingsInTurn (disk : FileSystem) (d : DatabaseSystem) :
    List Url → List (Url × Option Settings) × DatabaseSystem
  | [] => ([], d)
  | uri :: rest =>
    let (settings, d) := d.settings disk uri
    let (more, d) := d.settingsInTurn disk rest
    ((uri, settings) :: more, d)

variable {disk : FileSystem} {d : DatabaseSystem} {db : Database} {uri : Url} {files : List Url}

/-- A database that is loaded answers, and stays. -/
theorem settings_loaded (hdb : d.database = some db) :
    d.settings disk uri = (db.settings? uri, d) := by
  rw [settings_eq (by rw [hdb]; rfl), atHand, hdb]
  rfl

/-- Without a database, a question about a file that finds none changes nothing. -/
theorem settings_nowhere (hnone : d.database = none) (hfound : found disk uri = none) :
    d.settings disk uri = (none, d) := by
  unfold settings databaseFor
  cases hpath : uri.filePath? with
  | none => rfl
  | some path =>
    have hdiscover : Database.discover disk path = none := by simpa [found, hpath] using hfound
    simp [hnone, hdiscover, settingsFrom]

/-- Without a database, a question about a file is answered by the one that it finds. -/
theorem settings_found (hnone : d.database = none) (hfound : found disk uri = some db) :
    d.settings disk uri = (db.settings? uri, d.replace (some db)) := by
  unfold settings databaseFor Database.settings?
  cases hpath : uri.filePath? with
  | none => simp [found, hpath] at hfound
  | some path =>
    have hdiscover : Database.discover disk path = some db := by simpa [found, hpath] using hfound
    simp [hnone, hdiscover]

/-- A database that is loaded answers for all files. -/
theorem settingsInTurn_loaded (hdb : d.database = some db) (files : List Url) :
    d.settingsInTurn disk files = (files.map fun uri => (uri, db.settings? uri), d) := by
  induction files with
  | nil => rfl
  | cons uri rest ih => simp only [settingsInTurn, settings_loaded hdb, ih, List.map_cons]

/-- Where nothing is found, there are no settings. -/
theorem settingsInTurn_nowhere (hnone : d.database = none)
    (hfound : ∀ uri ∈ files, found disk uri = none) :
    d.settingsInTurn disk files = (files.map fun uri => (uri, none), d) := by
  induction files with
  | nil => rfl
  | cons uri rest ih =>
    rw [List.forall_mem_cons] at hfound
    simp only [settingsInTurn, settings_nowhere hnone hfound.1, ih hfound.2, List.map_cons]

/-- If a database is found for the first file, it answers for all of them. -/
theorem settingsInTurn_cons_found (hnone : d.database = none) (hfirst : found disk uri = some db)
    (rest : List Url) :
    d.settingsInTurn disk (uri :: rest)
      = ((uri :: rest).map fun uri => (uri, db.settings? uri), d.replace (some db)) := by
  have hloaded : (d.replace (some db)).database = some db := rfl
  simp only [settingsInTurn, settings_found hnone hfirst, settingsInTurn_loaded hloaded,
    List.map_cons]

/-- The first file for which a database is found decides for all that come after it. -/
theorem settingsInTurn_found (hnone : d.database = none) {early later : List Url} {first : Url}
    (hearly : ∀ uri ∈ early, found disk uri = none) (hfirst : found disk first = some db) :
    d.settingsInTurn disk (early ++ first :: later)
      = (early.map (fun uri => (uri, none))
          ++ (first :: later).map (fun uri => (uri, db.settings? uri)),
        d.replace (some db)) := by
  -- The induction is on the files before the first that finds something; each of them leaves the
  -- system without a database.
  induction early with
  | nil => exact settingsInTurn_cons_found hnone hfirst later
  | cons uri rest ih =>
    rw [List.forall_mem_cons] at hearly
    simp only [List.cons_append, settingsInTurn, settings_nowhere hnone hearly.1, ih hearly.2,
      List.map_cons]

/-- Either nothing is found for any of the files, or there is a first one for which something is
found. -/
theorem found_cases (disk : FileSystem) (files : List Url) :
    (∀ uri ∈ files, found disk uri = none)
      ∨ ∃ early first later db, files = early ++ first :: later
        ∧ (∀ uri ∈ early, found disk uri = none) ∧ found disk first = some db := by
  induction files with
  | nil => exact .inl nofun
  | cons uri rest ih =>
    -- If this file finds something it is the first one; otherwise the first one is among the rest.
    cases huri : found disk uri with
    | some db => exact .inr ⟨[], uri, rest, db, rfl, nofun, huri⟩
    | none =>
      obtain hnowhere | ⟨early, first, later, db, rfl, hearly, hfirst⟩ := ih
      · exact .inl (List.forall_mem_cons.mpr ⟨huri, hnowhere⟩)
      · refine .inr ⟨uri :: early, first, later, db, rfl, ?_, hfirst⟩
        exact List.forall_mem_cons.mpr ⟨huri, hearly⟩

/-! ## Accord -/

/-- No two files are at odds: if a database is found for one of them, then for each other the same
one is found, or none is found and that database has nothing for it. -/
def InAccord (disk : FileSystem) (files : List Url) : Prop :=
  ∀ first ∈ files, ∀ db, found disk first = some db → ∀ other ∈ files,
    found disk other = some db ∨ found disk other = none ∧ db.settings? other = none

/-- Files in accord get their settings from one database in every order, whether it is the files'
turn before it is found or after. -/
theorem InAccord.settingsInTurn (haccord : InAccord disk files) (hnone : d.database = none) :
    ∃ answers : Url → Option Settings, ∃ database : Option Database,
      ∀ order : List Url, (∀ uri, uri ∈ order ↔ uri ∈ files) →
        (d.settingsInTurn disk order).1 = order.map (fun uri => (uri, answers uri))
          ∧ (d.settingsInTurn disk order).2.database = database := by
  obtain hnowhere | ⟨early, first, later, db, hfiles, -, hfirst⟩ := found_cases disk files
  · refine ⟨fun _ => none, none, fun order hmem => ?_⟩
    rw [settingsInTurn_nowhere hnone fun uri huri => hnowhere uri ((hmem uri).mp huri)]
    exact ⟨rfl, hnone⟩
  · have hfirstMem : first ∈ files := by simp [hfiles]
    refine ⟨db.settings?, some db, fun order hmem => ?_⟩
    -- In another order another file may be the first, but what it finds is the same.
    obtain hnowhere | ⟨early, first', later, db', rfl, hearly, hfirst'⟩ := found_cases disk order
    · cases hfirst.symm.trans (hnowhere first ((hmem first).mpr hfirstMem))
    · have hfirstMem' : first' ∈ files := (hmem first').mp (by simp)
      obtain rfl : db = db' := by
        obtain hsame | ⟨hnowhere, -⟩ := haccord first hfirstMem db hfirst first' hfirstMem'
        · exact Option.some.inj (hsame.symm.trans hfirst')
        · cases hfirst'.symm.trans hnowhere
      have hnothing : ∀ uri ∈ early, db.settings? uri = none := by
        intro uri huri
        have huriMem : uri ∈ files := (hmem uri).mp (List.mem_append_left _ huri)
        obtain hsome | ⟨-, hnothing⟩ := haccord first hfirstMem db hfirst uri huriMem
        · cases hsome.symm.trans (hearly uri huri)
        · exact hnothing
      have hsame : early.map (fun uri => (uri, none))
          = early.map fun uri => (uri, db.settings? uri) :=
        List.map_congr_left fun uri huri => by rw [hnothing uri huri]
      rw [settingsInTurn_found hnone hearly hfirst', List.map_append, hsame]
      exact ⟨rfl, rfl⟩

end DatabaseSystem

/-! ## A session with nobody else at work -/

namespace Session

variable {ε μ : Type} {h : Host ε μ} {s t : Session ε μ} {d : DatabaseSystem} {stage : Stage}

/-- The handling of a message, from where it stands to its end, with nobody in between. -/
inductive Handled (h : Host ε μ) : Standing → Session ε μ → Session ε μ → Prop where
  /-- The last step. -/
  | done {standing : Standing} {s : Session ε μ} {turn : SessionTurn ε μ}
    {outcome : Except ResponseError Json} (hstep : step h false standing s = some turn)
    (hdone : turn.progress = .done outcome) : Handled h standing s turn.state
  /-- A step, and what follows. -/
  | more {standing next : Standing} {s t : Session ε μ} {turn : SessionTurn ε μ}
    (hstep : step h false standing s = some turn) (hmore : turn.progress = .more next)
    (hrest : Handled h next turn.state t) : Handled h standing s t

/-- A message that is handled alone ends in one way. -/
theorem Handled.unique {standing : Standing} {t' : Session ε μ} (ht : Handled h standing s t)
    (ht' : Handled h standing s t') : t = t' := by
  -- A step has one outcome, so that both handlings take the same one; and who is done does not go
  -- on.
  induction ht with
  | done hstep hdone =>
    cases ht' with
    | done hstep' hdone' =>
      cases hstep.symm.trans hstep'
      rfl
    | more hstep' hmore' hrest' =>
      cases hstep.symm.trans hstep'
      cases hdone.symm.trans hmore'
  | more hstep hmore hrest ih =>
    cases ht' with
    | done hstep' hdone' =>
      cases hstep.symm.trans hstep'
      cases hmore.symm.trans hdone'
    | more hstep' hmore' hrest' =>
      cases hstep.symm.trans hstep'
      cases hmore.symm.trans hmore'
      exact ih hrest'

/-- Nobody has a thing in hand, and nobody stands in line. -/
theorem isFree_empty (r : Resource) (use : Use) : (({} : Lines).get r).isFree use = true := by
  cases r <;> cases use <;> rfl

/-- What a stage uses is taken in hand at once, and let go again. -/
theorem Handled.act {turn : SessionTurn ε μ} {next : Stage} (hlines : s.lines = {})
    (hgate : touch h s stage ≠ some .gate) (hact : act h false stage s = some turn)
    (hmore : turn.progress = .more next.standing) (hrest : Handled h next.standing turn.state t) :
    Handled h stage.standing s t := by
  cases htouch : touch h s stage with
  | none =>
    have hstep : step h false stage.standing s = some turn := by
      simp only [step, Stage.standing, htouch, hact]
    exact .more hstep hmore hrest
  | some what =>
    cases what with
    | gate => exact absurd htouch hgate
    | resource r use =>
      have hfree : (s.lines.get r).isFree use = true := by
        rw [hlines]
        exact isFree_empty r use
      -- With the line empty the resource is free, to come to it takes one step and to go through
      -- the stage another.
      have hroom : (s.lines.get r).hasRoom use = true := (Bool.and_eq_true _ _ ▸ hfree).1
      have hcome : step h false stage.standing s = some
          { state := s.hold r use, progress := .more ⟨stage, .inHand (.resource r use)⟩ } := by
        simp only [step, Stage.standing, htouch, come, hfree, if_true]
      have huse : step h false ⟨stage, .inHand (.resource r use)⟩ (s.hold r use)
          = some turn := by
        simp only [step, release_hold hroom, hact]
      exact .more hcome rfl (.more huse hmore hrest)

/-- **Settings are resolved** as the database system answers, whether it has to search for them or
not. -/
theorem Handled.resolving {uri : Url} {language : Language} {purpose : Purpose}
    (hlines : s.lines = {}) (hsystem : s.buildSystem = some (.database d))
    (hrest : Handled h (Stage.resolved uri (d.settings s.disk uri).1 purpose).standing
      { s with buildSystem := some (.database (d.settings s.disk uri).2) } t) :
    Handled h (Stage.resolving uri language purpose).standing s t := by
  have hgate : touch h s (.resolving uri language purpose) ≠ some .gate := by
    cases hpath : uri.filePath? <;> simp [touch, hsystem, hpath]
  have hsame : { s with buildSystem := some (.database d) } = s := by rw [← hsystem]
  cases hask : d.ask uri with
  | answer settings =>
    -- The answer is at hand: the file has no path, or a database is there. In both cases the system
    -- stays as it is.
    have hsettings : d.settings s.disk uri = (settings, d) := by
      unfold DatabaseSystem.ask at hask
      unfold DatabaseSystem.settings DatabaseSystem.databaseFor
      cases hpath : uri.filePath? with
      | none =>
        simp only [hpath] at hask
        cases hask
        rfl
      | some path =>
        cases hdatabase : d.database with
        | none => simp [hpath, hdatabase] at hask
        | some db =>
          simp only [hpath, hdatabase] at hask
          cases hask
          rfl
    rw [hsettings, hsame] at hrest
    have hact : Session.act h false (.resolving uri language purpose) s
        = some (s.goOn (.resolved uri settings purpose)) := by
      simp only [Session.act, resolve, hsystem, hask]
    exact Handled.act hlines hgate hact rfl hrest
  | search path =>
    -- There is no database yet: this one step takes the lock, and the next reads the disk and lets
    -- go of it.
    have hroom : (s.lines.get .database).hasRoom .alone = true := by
      rw [hlines]
      rfl
    have hhold : (s.hold .database .alone).buildSystem = some (.database d) := hsystem
    have hact : Session.act h false (.resolving uri language purpose) s
        = some (goOn (s.hold .database .alone) (.discovering uri purpose)) := by
      simp only [Session.act, resolve, hsystem, hask]
    have hdiscover : (s.hold .database .alone).discover uri purpose
        = goOn { s with buildSystem := some (.database (d.settings s.disk uri).2) }
          (.resolved uri (d.settings s.disk uri).1 purpose) := by
      simp only [discover, hhold, release_hold hroom]
      rfl
    have hstep : step h false (Stage.discovering uri purpose).standing
        (s.hold .database .alone) = some ((s.hold .database .alone).discover uri purpose) := rfl
    rw [hdiscover] at hstep
    exact Handled.act hlines hgate hact rfl (.more hstep rfl hrest)

/-- New settings are handed to the engine in turn. -/
theorem handled_pushing {h : Host ε μ} {s : Session (ε × List News) μ} {d : DatabaseSystem}
    (hlines : s.lines = {}) (hsystem : s.buildSystem = some (.database d)) (documents : Languages) :
    ∃ t, Handled h.noting (Stage.pushing documents).standing s t
      ∧ t.diary = s.diary ++ (d.settingsInTurn s.disk documents.keys).1.map
        (fun entry => .settingsChanged entry.1 entry.2)
      ∧ t.buildSystem = some (.database (d.settingsInTurn s.disk documents.keys).2) := by
  -- The induction is on the documents that are left. For each of them its settings are resolved and
  -- handed on, and that may leave another database for those after it.
  induction documents generalizing s d with
  | nil =>
    have hstep : step h.noting false (Stage.pushing []).standing s = some s.rest := rfl
    exact ⟨s, .done hstep rfl, (List.append_nil _).symm, hsystem⟩
  | cons entry rest ih =>
    obtain ⟨uri, language⟩ := entry
    let settings := (d.settings s.disk uri).1
    let resolved : Session (ε × List News) μ :=
      { s with buildSystem := some (.database (d.settings s.disk uri).2) }
    let told : Session (ε × List News) μ :=
      { resolved with engine := h.noting.engine.settingsChanged uri settings s.engine }
    have hdiary : told.diary = s.diary ++ [.settingsChanged uri settings] := rfl
    obtain ⟨t, ht, htold, hleft⟩ := ih (s := told) hlines rfl
    have huse : step h.noting false (Stage.resolved uri settings (.push rest)).standing resolved
        = some (told.goOn (.pushing rest)) := rfl
    have hpush : step h.noting false (Stage.pushing ((uri, language) :: rest)).standing s
        = some (s.goOn (.resolving uri language (.push rest))) := rfl
    refine ⟨t, .more hpush rfl (.resolving hlines hsystem (.more huse rfl ht)), ?_, hleft⟩
    rw [htold, hdiary, List.append_assoc]
    rfl

/-! ## After a reload -/

/-- The session when its database system has just been reloaded, and nobody else is at work. -/
def reloaded (s : Session ε μ) (d : DatabaseSystem) : Session ε μ :=
  { s with buildSystem := some (.database (d.reload s.disk)), lines := {} }

/-- **How a reload ends** if the files of its notice come in this order: these are the settings that
the engine is told, and this database is loaded then. -/
def Refreshed (h : Host ε μ) (s : Session (ε × List News) μ) (d : DatabaseSystem)
    (order : List Url) (told : List (Url × Option Settings)) (database : Option Database) : Prop :=
  ∃ t d', Handled h.noting (Stage.refreshing order).standing (s.reloaded d) t
    ∧ t.diary = s.diary ++ told.map (fun entry => .settingsChanged entry.1 entry.2)
    ∧ t.buildSystem = some (.database d') ∧ d'.database = database

/-- The order of the watched files makes no difference to what the engine is told, nor to which
database is loaded then. -/
def OrderFree (h : Host ε μ) (s : Session (ε × List News) μ) (d : DatabaseSystem) : Prop :=
  ∀ order order' told told' database database',
    order.Perm d.watched.keys → order'.Perm d.watched.keys →
    Refreshed h s d order told database → Refreshed h s d order' told' database' →
    (∀ entry, entry ∈ told ↔ entry ∈ told') ∧ database = database'

variable {h : Host ε μ} {s : Session (ε × List News) μ} {d : DatabaseSystem} {order : List Url}

/-- A reload ends, in one way in each order: the open ones among the files are asked about in
turn. -/
theorem refreshed_iff {told : List (Url × Option Settings)} {database : Option Database} :
    Refreshed h s d order told database
      ↔ told = ((d.reload s.disk).settingsInTurn s.disk (s.openAmong order).keys).1
        ∧ database
          = ((d.reload s.disk).settingsInTurn s.disk (s.openAmong order).keys).2.database := by
  obtain ⟨t, ht, htold, hleft⟩ := handled_pushing (h := h) (s := s.reloaded d)
    (d := d.reload s.disk) rfl rfl (s.openAmong order)
  have hact : act h.noting false (.refreshing order) (s.reloaded d)
      = some ((s.reloaded d).goOn (.pushing (s.openAmong order))) := rfl
  have hrefresh : Handled h.noting (Stage.refreshing order).standing (s.reloaded d) t :=
    Handled.act rfl nofun hact rfl ht
  constructor
  · rintro ⟨t', d', ht', htold', hleft', rfl⟩
    -- There is one way to the end, so what is claimed of its end is what was found.
    obtain rfl := hrefresh.unique ht'
    have hinjective : Function.Injective
        fun entry : Url × Option Settings => News.settingsChanged entry.1 entry.2 := by
      rintro ⟨uri, settings⟩ ⟨uri', settings'⟩ heq
      cases heq
      rfl
    refine ⟨?_, ?_⟩
    · exact List.map_injective_iff.mpr hinjective
        (List.append_cancel_left (htold'.symm.trans htold))
    · cases hleft'.symm.trans hleft
      rfl
  · rintro ⟨rfl, rfl⟩
    exact ⟨t, _, hrefresh, htold, hleft, rfl⟩

/-- If every file gets its settings from the same place in every order, the order makes no
difference. -/
theorem orderFree_of_answers (answers : Url → Option Settings) (database : Option Database)
    (hanswers : ∀ files : List Url,
      (∀ uri, uri ∈ files ↔ uri ∈ (s.openAmong d.watched.keys).keys) →
      ((d.reload s.disk).settingsInTurn s.disk files).1 = files.map (fun uri => (uri, answers uri))
        ∧ ((d.reload s.disk).settingsInTurn s.disk files).2.database = database) :
    OrderFree h s d := by
  have hopen : ∀ order : List Url, order.Perm d.watched.keys →
      ∀ uri, uri ∈ (s.openAmong order).keys ↔ uri ∈ (s.openAmong d.watched.keys).keys := by
    intro order horder uri
    rw [mem_keys_openAmong, mem_keys_openAmong, horder.mem_iff]
  intro order order' told told' database₁ database₂ horder horder' hend hend'
  obtain ⟨rfl, rfl⟩ := refreshed_iff.mp hend
  obtain ⟨rfl, rfl⟩ := refreshed_iff.mp hend'
  obtain ⟨htold, hdatabase⟩ := hanswers _ (hopen order horder)
  obtain ⟨htold', hdatabase'⟩ := hanswers _ (hopen order' horder')
  rw [htold, htold', hdatabase, hdatabase']
  refine ⟨fun entry => ?_, rfl⟩
  simp only [List.mem_map, hopen order horder, hopen order' horder']

/-- An open file that comes first among some files comes first among the open ones. -/
theorem openAmong_cons {uri : Url} (hopen : uri ∈ s.documents.keys) (rest : List Url) :
    (s.openAmong (uri :: rest)).keys = uri :: (s.openAmong rest).keys := by
  obtain ⟨language, hget⟩ := Option.isSome_iff_exists.mp (Languages.isSome_get?.mpr hopen)
  simp [openAmong, Languages.keys, hget]

/-- Without a database, any open file can be the first to be asked about. What it finds decides for
all others. -/
theorem inAccord_of_orderFree (hnone : (d.reload s.disk).database = none)
    (hfree : OrderFree h s d) :
    DatabaseSystem.InAccord s.disk (s.openAmong d.watched.keys).keys := by
  intro first hfirst db hfound other hother
  obtain ⟨hwatched, hopen⟩ := mem_keys_openAmong.mp hfirst
  obtain ⟨hwatched', hopen'⟩ := mem_keys_openAmong.mp hother
  -- Two orders are compared: in one the first file is asked about first, in the other the other
  -- file.
  have hend := hfree _ _ _ _ _ _ (List.perm_cons_erase hwatched).symm
    (List.perm_cons_erase hwatched').symm (refreshed_iff.mpr ⟨rfl, rfl⟩)
    (refreshed_iff.mpr ⟨rfl, rfl⟩)
  rw [openAmong_cons hopen, openAmong_cons hopen',
    DatabaseSystem.settingsInTurn_cons_found hnone hfound] at hend
  obtain ⟨htold, hdatabase⟩ := hend
  cases hfound' : DatabaseSystem.found s.disk other with
  | some db' =>
    rw [DatabaseSystem.settingsInTurn_cons_found hnone hfound'] at hdatabase
    exact .inl hdatabase.symm
  | none =>
    refine .inr ⟨rfl, ?_⟩
    -- Asked about first the other file gets nothing, so it must get nothing from the database of
    -- the first either.
    have hmem : (other, none) ∈ ((d.reload s.disk).settingsInTurn s.disk
        (other :: (s.openAmong (d.watched.keys.erase other)).keys)).1 := by
      simp only [DatabaseSystem.settingsInTurn, DatabaseSystem.settings_nowhere hnone hfound']
      exact List.mem_cons_self
    obtain ⟨uri, -, heq⟩ := List.mem_map.mp ((htold _).mpr hmem)
    obtain ⟨rfl, hnothing⟩ := Prod.mk.inj heq
    exact hnothing

/-- **When the order makes no difference.** After every reload, in every order of the watched files,
the open ones are told their settings in exactly one way. That way is the same for all orders if the
reload has left a database, or if no two of these files are at odds, and only then. -/
theorem refreshing_order (h : Host ε μ) (s : Session (ε × List News) μ) (d : DatabaseSystem) :
    (∀ order : List Url, order.Perm d.watched.keys →
      ∃ told database, Refreshed h s d order told database
        ∧ ∀ told' database', Refreshed h s d order told' database' →
          told' = told ∧ database' = database)
    ∧ (OrderFree h s d ↔ (d.reload s.disk).database.isSome = true
      ∨ DatabaseSystem.InAccord s.disk (s.openAmong d.watched.keys).keys) := by
  refine ⟨fun order _ => ⟨_, _, refreshed_iff.mpr ⟨rfl, rfl⟩, fun told' database' hend =>
    refreshed_iff.mp hend⟩, fun hfree => ?_, ?_⟩
  · cases hdatabase : (d.reload s.disk).database with
    | some db => exact .inl rfl
    | none => exact .inr (inAccord_of_orderFree hdatabase hfree)
  · intro hcases
    cases hdatabase : (d.reload s.disk).database with
    | some db =>
      refine orderFree_of_answers db.settings? (some db) ?_
      intro files _
      rw [DatabaseSystem.settingsInTurn_loaded hdatabase]
      exact ⟨rfl, hdatabase⟩
    | none =>
      rw [hdatabase] at hcases
      obtain hsome | haccord := hcases
      · cases hsome
      · obtain ⟨answers, database, hanswers⟩ := haccord.settingsInTurn hdatabase
        exact orderFree_of_answers answers database hanswers

/-! ## Two projects -/

/-- Two projects, each with its own flags. -/
def twoProjects : FileSystem where
  files := (DatabaseSystem.diskWith "p" Database.flagsName "-DP").files
    ++ (DatabaseSystem.diskWith "q" Database.flagsName "-DQ").files

/-- A file of each is watched, and there is no root. -/
def watchingTwo : DatabaseSystem :=
  ((DatabaseSystem.Site.create twoProjects none).run
    [.operation (.setListener (some listener)),
      .operation (.register (DatabaseSystem.fileIn "p" "x.c") .c),
      .operation (.register (DatabaseSystem.fileIn "q" "x.c") .c)]).system

/-- Both files are open. -/
def openedTwo : Session (Unit × List News) Unit where
  lifecycle := .initialized
  buildSystem := some (.database watchingTwo)
  documents := [(DatabaseSystem.fileIn "p" "x.c", .c), (DatabaseSystem.fileIn "q" "x.c", .c)]
  engine := ((), [])
  manifest := ()
  disk := twoProjects

/-- **Two projects are at odds:** whichever file is asked about first gets the flags of its project,
the other file gets none, and the database of the first project stays. -/
theorem two_projects_at_odds :
    Refreshed ⟨.silent, none, {}⟩ openedTwo watchingTwo
        [DatabaseSystem.fileIn "p" "x.c", DatabaseSystem.fileIn "q" "x.c"]
        [(DatabaseSystem.fileIn "p" "x.c", some ⟨["-DP", "/p/x.c"], some (.ofString "/p")⟩),
          (DatabaseSystem.fileIn "q" "x.c", none)]
        (some (.flags (.ofString "/p") ["-DP"]))
      ∧ Refreshed ⟨.silent, none, {}⟩ openedTwo watchingTwo
        [DatabaseSystem.fileIn "q" "x.c", DatabaseSystem.fileIn "p" "x.c"]
        [(DatabaseSystem.fileIn "q" "x.c", some ⟨["-DQ", "/q/x.c"], some (.ofString "/q")⟩),
          (DatabaseSystem.fileIn "p" "x.c", none)]
        (some (.flags (.ofString "/q") ["-DQ"]))
      ∧ ¬ OrderFree ⟨.silent, none, {}⟩ openedTwo watchingTwo := by
  refine ⟨refreshed_iff.mpr ⟨by decide +kernel, by decide +kernel⟩,
    refreshed_iff.mpr ⟨by decide +kernel, by decide +kernel⟩, fun hfree => ?_⟩
  have hpq := List.Perm.refl watchingTwo.watched.keys
  have hqp := List.reverse_perm watchingTwo.watched.keys
  obtain ⟨-, hsame⟩ := hfree _ _ _ _ _ _ hpq hqp (refreshed_iff.mpr ⟨rfl, rfl⟩)
    (refreshed_iff.mpr ⟨rfl, rfl⟩)
  exact absurd hsame (by decide +kernel)

end Session

end FlagServer
