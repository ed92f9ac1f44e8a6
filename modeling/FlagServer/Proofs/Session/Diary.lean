import FlagServer.Proofs.Session.Moves
import Mathlib.Data.List.Nodup

/-!
# What the engine has been told

The engine hears of settings twice: when a document is opened, and when the settings of open
documents may have changed. This file follows what it hears. `Engine.noting` is any engine together
with a diary of all that it is told, and `News.told?` looks up in a diary the last settings of a
file.

Of a notification that is being handled, `Stage.errand` says what it still has to do, and
`Session.Settled` what holds until then: the build system watches the documents that are open, and
of all of them but those that the errand is about the engine knows the settings that they have now.
`Session.act_noting` shows that every stage of a notification hands this on to the next, and
`Session.act_asking` that a question leaves all of it alone.
-/

namespace FlagServer

variable {ε μ : Type}

/-! ## Languages by file -/

namespace Languages

variable {files : Languages} {uri other : Url} {language : Language}

/-- A table has a language for the files that it lists, and for no others. -/
theorem isSome_get? : (files.get? uri).isSome = true ↔ uri ∈ files.keys := by
  simp [get?, keys, List.find?_isSome]

/-- After a file is put into a table, the table lists it and what it listed before. -/
theorem mem_keys_insert :
    other ∈ (files.insert uri language).keys ↔ other = uri ∨ other ∈ files.keys := by
  induction files with
  | nil => simp [insert, keys]
  | cons entry rest ih =>
    rw [insert]
    split
    · case isTrue heq =>
      obtain rfl := eq_of_beq heq
      simp [keys]
    · simp only [keys, List.map_cons, List.mem_cons] at ih ⊢
      rw [ih]
      tauto

/-- A file that is put into a table twice is listed once. -/
theorem nodup_insert (hnodup : files.keys.Nodup) : (files.insert uri language).keys.Nodup := by
  induction files with
  | nil => simp [insert, keys]
  | cons entry rest ih =>
    rw [insert]
    have hcons : entry.1 ∉ keys rest ∧ (keys rest).Nodup := List.nodup_cons.mp hnodup
    split
    · case isTrue heq =>
      obtain rfl := eq_of_beq heq
      exact hnodup
    · case isFalse hne =>
      refine List.nodup_cons.mpr ⟨fun hmem => ?_, ih hcons.2⟩
      rcases mem_keys_insert.mp hmem with heq | hmem
      · exact hne (beq_iff_eq.mpr heq)
      · exact hcons.1 hmem

/-- After a file is taken out of a table, the table lists the others. -/
theorem mem_keys_erase : other ∈ (files.erase uri).keys ↔ other ∈ files.keys ∧ other ≠ uri := by
  simp only [erase, keys, List.mem_map, List.mem_filter, Bool.not_eq_true', beq_eq_false_iff_ne]
  constructor
  · rintro ⟨entry, ⟨hmem, hne⟩, rfl⟩
    exact ⟨⟨entry, hmem, rfl⟩, hne⟩
  · rintro ⟨⟨entry, hmem, rfl⟩, hne⟩
    exact ⟨entry, ⟨hmem, hne⟩, rfl⟩

theorem nodup_erase (hnodup : files.keys.Nodup) : (files.erase uri).keys.Nodup :=
  hnodup.sublist (List.filter_sublist.map _)

/-- A table that lists every file once has for a file the language that it is listed with. -/
theorem get?_of_mem (hnodup : files.keys.Nodup) (hmem : (uri, language) ∈ files) :
    files.get? uri = some language := by
  induction files with
  | nil => cases hmem
  | cons entry rest ih =>
    have hcons : entry.1 ∉ keys rest ∧ (keys rest).Nodup := List.nodup_cons.mp hnodup
    rcases List.mem_cons.mp hmem with rfl | hmem
    · simp [get?]
    · have hne : entry.1 ≠ uri := by
        rintro rfl
        exact hcons.1 (List.mem_map.mpr ⟨_, hmem, rfl⟩)
      rw [get?, List.find?_cons_of_neg (by simpa using hne)]
      exact ih hcons.2 hmem

end Languages

namespace Session

/-- All files of a table are found open in it, with their languages. -/
theorem openAmong_keys {s : Session ε μ} (hnodup : s.documents.keys.Nodup) :
    s.openAmong s.documents.keys = s.documents := by
  rw [openAmong, Languages.keys, List.filterMap_map]
  conv_rhs => rw [← List.filterMap_some (l := s.documents)]
  refine List.filterMap_congr fun entry hentry => ?_
  simp [Languages.get?_of_mem hnodup hentry]

/-- The open ones among some files are those that the session has a document for. -/
theorem mem_keys_openAmong {s : Session ε μ} {files : List Url} {uri : Url} :
    uri ∈ (s.openAmong files).keys ↔ uri ∈ files ∧ uri ∈ s.documents.keys := by
  constructor
  · intro hmem
    obtain ⟨entry, hentry, rfl⟩ := List.mem_map.mp hmem
    obtain ⟨file, hfile, hopen⟩ := List.mem_filterMap.mp hentry
    obtain ⟨language, hget, rfl⟩ := Option.map_eq_some_iff.mp hopen
    exact ⟨hfile, Languages.isSome_get?.mp (by rw [hget]; rfl)⟩
  · rintro ⟨hfile, hopen⟩
    obtain ⟨language, hget⟩ := Option.isSome_iff_exists.mp (Languages.isSome_get?.mpr hopen)
    refine List.mem_map.mpr ⟨(uri, language), List.mem_filterMap.mpr ⟨uri, hfile, ?_⟩, rfl⟩
    rw [hget]
    rfl

end Session

/-! ## The diary -/

/-- What an engine is told. -/
inductive News where
  /-- A document was opened. -/
  | opened (document : TextDocument) (settings : Option Settings)
  /-- A document was edited. -/
  | changed (params : Datum)
  /-- A document was closed. -/
  | closed (uri : Url)
  /-- The settings of an open document may have changed. -/
  | settingsChanged (uri : Url) (settings : Option Settings)

namespace News

/-- The settings that news bring for a file. -/
def settings? (uri : Url) : News → Option (Option Settings)
  | opened document settings => if document.uri = uri then some settings else none
  | settingsChanged file settings => if file = uri then some settings else none
  | _ => none

/-- The settings of a file that a diary has last. -/
def told? (diary : List News) (uri : Url) : Option (Option Settings) :=
  diary.reverse.findSome? (settings? uri)

/-- The last news decide, unless they bring no settings for the file. -/
theorem told?_concat (diary : List News) (news : News) (uri : Url) :
    told? (diary ++ [news]) uri = (news.settings? uri).or (told? diary uri) := by
  rw [told?, List.reverse_append, List.reverse_singleton, List.singleton_append,
    List.findSome?_cons]
  cases news.settings? uri <;> rfl

end News

/-- An engine with a diary of all that it is told. -/
def Engine.noting (engine : Engine ε) : Engine (ε × List News) where
  opened document settings s :=
    (engine.opened document settings s.1, s.2 ++ [.opened document settings])
  changed params s := (engine.changed params s.1, s.2 ++ [.changed params])
  closed uri s := (engine.closed uri s.1, s.2 ++ [.closed uri])
  settingsChanged uri settings s :=
    (engine.settingsChanged uri settings s.1, s.2 ++ [.settingsChanged uri settings])
  answer cancelled request settings s :=
    (engine.answer cancelled request settings s.1).map fun (outcome, state) =>
      (outcome, state, s.2)

/-- A host whose engine keeps a diary. -/
def Host.noting (h : Host ε μ) : Host (ε × List News) μ :=
  { h with engine := h.engine.noting }

/-! ## Databases that are there -/

namespace DatabaseSystem

variable {d : DatabaseSystem} {disk : FileSystem} {uri : Url}

/-- The system has a database, knows where to find the next one, and tells the session of it. -/
structure Ready (d : DatabaseSystem) : Prop where
  database : d.database.isSome = true
  root : d.root.isSome = true
  listener : d.listener = some Session.listener

/-- What the database that is there has for a file. -/
def atHand (d : DatabaseSystem) (uri : Url) : Option Settings :=
  uri.filePath?.bind (settingsFrom d.database)

/-- A database that is there answers for itself, and the disk is not read. -/
theorem settings_eq (hdatabase : d.database.isSome = true) :
    d.settings disk uri = (d.atHand uri, d) := by
  obtain ⟨database, hdatabase⟩ := Option.isSome_iff_exists.mp hdatabase
  unfold settings atHand databaseFor
  cases uri.filePath? with
  | none => rfl
  | some path => simp [hdatabase]

/-- A database that is there has its answer at hand. -/
theorem ask_eq (hdatabase : d.database.isSome = true) : d.ask uri = .answer (d.atHand uri) := by
  obtain ⟨database, hdatabase⟩ := Option.isSome_iff_exists.mp hdatabase
  unfold ask atHand
  cases uri.filePath? with
  | none => rfl
  | some path => simp [hdatabase]

end DatabaseSystem

namespace Session

/-- What the engine of the session has been told. -/
def diary (s : Session (ε × List News) μ) : List News :=
  s.engine.2

/-- The files that the build system watches. -/
def watched (s : Session ε μ) : Languages :=
  match s.buildSystem with
  | some (.database d) => d.watched
  | _ => []

/-- The settings that the build system has for a file now. -/
def settingsNow (s : Session ε μ) (uri : Url) : Option Settings :=
  match s.buildSystem with
  | some (.database d) => (d.settings s.disk uri).1
  | _ => none

/-- If there is a build system, it is a database that is ready. -/
def IsReady (s : Session ε μ) : Prop :=
  ∀ system, s.buildSystem = some system → ∃ d, system = .database d ∧ d.Ready

theorem watched_eq {s : Session ε μ} {d : DatabaseSystem}
    (hsystem : s.buildSystem = some (.database d)) : s.watched = d.watched := by
  rw [watched, hsystem]

/-- The settings of now are what a database that is ready has at hand. -/
theorem settingsNow_eq {s : Session ε μ} {d : DatabaseSystem} (hready : d.Ready)
    (hsystem : s.buildSystem = some (.database d)) (uri : Url) :
    s.settingsNow uri = d.atHand uri := by
  rw [settingsNow, hsystem]
  simp only [DatabaseSystem.settings_eq hready.database]

/-- Of its open documents the engine knows the settings that they have now, but for these. -/
def ToldBut (s : Session (ε × List News) μ) (pending : List Url) : Prop :=
  ∀ uri ∈ s.documents.keys, uri ∉ pending → News.told? s.diary uri = some (s.settingsNow uri)

end Session

/-! ## What is left to do -/

/-- What a notification that is being handled still has to do. -/
inductive Errand where
  /-- The build system is to watch a document that is open. -/
  | register (document : TextDocument)
  /-- The build system is to watch a file no longer that is closed. -/
  | unregister (uri : Url)
  /-- The engine is to be told of the settings of files. -/
  | tell (files : List Url)
  /-- The settings of a file are to be handed to the engine, and then those of others. -/
  | hand (uri : Url) (settings : Option Settings) (rest : List Url)

/-- What a notification at a stage still has to do. -/
def Stage.errand : Stage → Errand
  | .finding next => next.errand
  | .registering document => .register document
  | .unregistering uri => .unregister uri
  | .resolving uri _ (.opening _) => .tell [uri]
  | .resolving uri _ (.push rest) => .tell (uri :: rest.keys)
  | .resolved uri settings (.opening _) => .hand uri settings []
  | .resolved uri settings (.push rest) => .hand uri settings rest.keys
  | .refreshing files => .tell files
  | .pushing documents => .tell documents.keys
  | _ => .tell []

/-- Settings of a file serve a notification: they are those of the document that is opened. -/
def Purpose.isNoting (uri : Url) : Purpose → Bool
  | .answer _ => false
  | .opening document => document.uri == uri
  | .push _ => true

/-- A notification may stand at this stage, after the first. -/
def Stage.isNoting : Stage → Bool
  | .finding next => next.isNoting
  | .opening _ => true
  | .registering _ => true
  | .closing _ => true
  | .unregistering _ => true
  | .dismissing _ => true
  | .reviewing _ => true
  | .reloading => true
  | .refreshing _ => true
  | .pushing _ => true
  | .resolving uri _ purpose => purpose.isNoting uri
  | .resolved uri _ purpose => purpose.isNoting uri
  | _ => false

/-- A question may stand at this stage, after the first. -/
def Stage.isAsking : Stage → Bool
  | .finding next => next.isAsking
  | .forwarding _ => true
  | .consulting _ => true
  | .resolving _ _ (.answer _) => true
  | .resolved _ _ (.answer _) => true
  | .answering _ _ => true
  | _ => false

namespace Session

variable {s s' : Session (ε × List News) μ} {h : Host ε μ} {cancelled : Bool}
  {turn : SessionTurn (ε × List News) μ}

/-- What holds while an errand is left to do. -/
def Settled (s : Session (ε × List News) μ) : Errand → Prop
  | .register document =>
    s.documents = s.watched.insert document.uri (.ofId document.languageId)
      ∧ s.ToldBut [document.uri]
  | .unregister uri => s.documents = s.watched.erase uri ∧ s.ToldBut []
  | .tell files => s.documents = s.watched ∧ s.ToldBut files
  | .hand uri settings rest =>
    s.documents = s.watched ∧ settings = s.settingsNow uri ∧ s.ToldBut (uri :: rest)

/-- Two sessions that do not differ in what the settings of documents depend on, nor in what the
engine has been told. -/
structure Unmoved (s s' : Session (ε × List News) μ) : Prop where
  documents : s'.documents = s.documents
  watched : s'.watched = s.watched
  diary : s'.diary = s.diary
  settingsNow : ∀ uri, s'.settingsNow uri = s.settingsNow uri

/-- What holds while an errand is left to do depends on nothing that has moved. -/
theorem Unmoved.settled (hunmoved : Unmoved s s') {errand : Errand} (hsettled : s.Settled errand) :
    s'.Settled errand := by
  have htold : ∀ {pending}, s.ToldBut pending → s'.ToldBut pending := by
    intro pending htold uri hopen hpending
    rw [hunmoved.documents] at hopen
    rw [hunmoved.diary, hunmoved.settingsNow]
    exact htold uri hopen hpending
  -- Each errand speaks of the documents, of what is watched and of what has been told.
  cases errand with
  | register document =>
    refine ⟨?_, htold hsettled.2⟩
    rw [hunmoved.documents, hunmoved.watched]
    exact hsettled.1
  | unregister uri =>
    refine ⟨?_, htold hsettled.2⟩
    rw [hunmoved.documents, hunmoved.watched]
    exact hsettled.1
  | tell files =>
    refine ⟨?_, htold hsettled.2⟩
    rw [hunmoved.documents, hunmoved.watched]
    exact hsettled.1
  | hand uri settings rest =>
    refine ⟨?_, ?_, htold hsettled.2.2⟩
    · rw [hunmoved.documents, hunmoved.watched]
      exact hsettled.1
    · rw [hunmoved.settingsNow]
      exact hsettled.2.1

/-- Who changes neither the documents nor the build system nor the diary moves nothing. -/
theorem Unmoved.of_eq (hready : s.IsReady) (hdocuments : s'.documents = s.documents)
    (hsystem : s'.buildSystem = s.buildSystem) (hdiary : s'.diary = s.diary) : Unmoved s s' := by
  refine ⟨hdocuments, by rw [Session.watched, Session.watched, hsystem], hdiary, fun uri => ?_⟩
  -- The disk may have changed, but a database that is there does not look at it.
  cases hs : s.buildSystem with
  | none => simp only [Session.settingsNow, hsystem, hs]
  | some system =>
    obtain ⟨d, rfl, hd⟩ := hready system hs
    rw [settingsNow_eq hd hs, settingsNow_eq hd (hsystem.trans hs)]

/-! ## What a stage hands on -/

/-- What a stage of a notification hands on: to the next stage, or for good. -/
structure HandsOn (turn : SessionTurn (ε × List News) μ) : Prop where
  ready : turn.state.IsReady
  nodup : turn.state.documents.keys.Nodup
  more : ∀ standing, turn.progress = .more standing →
    standing.stage.isNoting = true ∧ turn.state.Settled standing.stage.errand
  done : ∀ outcome, turn.progress = .done outcome → turn.state.Settled (.tell [])

/-- To go on hands on what the next stage needs. -/
theorem handsOn_goOn {stage : Stage} (hready : s.IsReady) (hnodup : s.documents.keys.Nodup)
    (hnoting : stage.isNoting = true) (hsettled : s.Settled stage.errand) :
    HandsOn (s.goOn stage) where
  ready := hready
  nodup := hnodup
  more standing hprogress := by
    cases hprogress
    exact ⟨hnoting, hsettled⟩
  done _ hprogress := by cases hprogress

theorem handsOn_rest (hready : s.IsReady) (hnodup : s.documents.keys.Nodup)
    (hsettled : s.Settled (.tell [])) : HandsOn s.rest where
  ready := hready
  nodup := hnodup
  more _ hprogress := by cases hprogress
  done _ _ := hsettled

theorem isReady_of {d : DatabaseSystem} (hsystem : s.buildSystem = some (.database d))
    (hready : d.Ready) : s.IsReady := by
  intro system heq
  rw [hsystem] at heq
  exact ⟨d, (Option.some.inj heq).symm, hready⟩

/-- News that bring what is right, for all that was pending and is so no longer. -/
theorem ToldBut.note {pending pending' : List Url} {news : News} (htold : s.ToldBut pending)
    (hdocuments : s'.documents = s.documents)
    (hsettings : ∀ uri, s'.settingsNow uri = s.settingsNow uri)
    (hdiary : s'.diary = s.diary ++ [news])
    (hright : ∀ uri settings, news.settings? uri = some settings → settings = s.settingsNow uri)
    (hcovers : ∀ uri ∈ pending, uri ∉ pending' → (news.settings? uri).isSome = true) :
    s'.ToldBut pending' := by
  intro uri hopen hpending
  rw [hdiary, hsettings, News.told?_concat]
  -- The news decide where they speak of the file; where they do not, it was not pending before
  -- either.
  cases hnews : news.settings? uri with
  | some settings => rw [hright uri settings hnews, Option.some_or]
  | none =>
    rw [Option.none_or]
    refine htold uri (hdocuments ▸ hopen) fun hwas => ?_
    simpa [hnews] using hcovers uri hwas hpending

/-- News that bring a file the settings that it has now. -/
theorem ToldBut.tell {uri : Url} {settings : Option Settings} {rest : List Url} {news : News}
    (htold : s.ToldBut (uri :: rest)) (hdocuments : s'.documents = s.documents)
    (hnow : ∀ other, s'.settingsNow other = s.settingsNow other)
    (hdiary : s'.diary = s.diary ++ [news])
    (hnews : ∀ other, news.settings? other = if uri = other then some settings else none)
    (hsettings : settings = s.settingsNow uri) : s'.ToldBut rest := by
  refine htold.note hdocuments hnow hdiary ?_ ?_
  · intro other settings' hother
    rw [hnews, Option.ite_none_right_eq_some] at hother
    obtain ⟨rfl, hother⟩ := hother
    rw [← Option.some.inj hother, hsettings]
  · intro other hpending hrest
    rcases List.mem_cons.mp hpending with rfl | hmem
    · simp [hnews]
    · exact absurd hmem hrest

/-- News that bring no settings. -/
theorem ToldBut.pass {pending : List Url} {news : News} (htold : s.ToldBut pending)
    (hdocuments : s'.documents = s.documents)
    (hnow : ∀ other, s'.settingsNow other = s.settingsNow other)
    (hdiary : s'.diary = s.diary ++ [news]) (hnews : ∀ other, news.settings? other = none) :
    s'.ToldBut pending := by
  refine htold.note hdocuments hnow hdiary ?_ fun _ hpending hnot => absurd hpending hnot
  intro other settings hother
  cases (hnews other).symm.trans hother

/-- What is told but for some files is told but for more. -/
theorem ToldBut.mono {pending pending' : List Url} (htold : s.ToldBut pending)
    (hsubset : ∀ uri ∈ s.documents.keys, uri ∈ pending → uri ∈ pending') : s.ToldBut pending' :=
  fun uri hopen hpending => htold uri hopen fun hwas => hpending (hsubset uri hopen hwas)

/-- A database system in another state, with the same database. -/
theorem settingsNow_of_database {d d' : DatabaseSystem} (hready : d.Ready) (hready' : d'.Ready)
    (hsystem : s.buildSystem = some (.database d))
    (hsystem' : s'.buildSystem = some (.database d')) (hdatabase : d'.database = d.database)
    (uri : Url) : s'.settingsNow uri = s.settingsNow uri := by
  rw [settingsNow_eq hready hsystem, settingsNow_eq hready' hsystem', DatabaseSystem.atHand,
    DatabaseSystem.atHand, hdatabase]

section Stages

variable {d : DatabaseSystem} (hsystem : s.buildSystem = some (.database d)) (hready : d.Ready)
  (hnodup : s.documents.keys.Nodup)
include hsystem hready hnodup

/-- An opened document is on the list at once, and is watched and told of later. -/
theorem handsOn_opening (document : TextDocument) (hsettled : s.Settled (.tell [])) :
    HandsOn (goOn
      { s with documents := s.documents.insert document.uri (.ofId document.languageId) }
      (.finding (.registering document))) := by
  refine handsOn_goOn (isReady_of hsystem hready) (Languages.nodup_insert hnodup) rfl ⟨?_, ?_⟩
  · exact congrArg (Languages.insert · document.uri _) hsettled.1
  · intro uri hopen hpending
    rw [List.mem_singleton] at hpending
    -- The new document is the one that is pending.
    rcases Languages.mem_keys_insert.mp hopen with rfl | hopen
    · exact absurd rfl hpending
    · exact hsettled.2 uri hopen List.not_mem_nil

/-- To register a document brings what is watched in step with what is open. -/
theorem handsOn_register (document : TextDocument)
    (hsettled : s.Settled (.register document)) : HandsOn (register h.noting s document) := by
  simp only [register, hsystem]
  have hready' : (d.register document.uri (.ofId document.languageId)).Ready :=
    ⟨hready.database, hready.root, hready.listener⟩
  refine handsOn_goOn (isReady_of rfl hready') hnodup (beq_self_eq_true document.uri) ⟨?_, ?_⟩
  · rw [hsettled.1, watched_eq hsystem, watched_eq rfl]
    rfl
  · intro uri hopen hpending
    rw [settingsNow_of_database hready hready' hsystem rfl rfl]
    exact hsettled.2 uri hopen hpending

/-- Settings that were asked for are those that the database has now. -/
theorem handsOn_resolve {uri : Url} {language : Language} {purpose : Purpose}
    (hnoting : purpose.isNoting uri = true)
    (hsettled : s.Settled (Stage.resolving uri language purpose).errand) :
    HandsOn (resolve h.noting s uri language purpose) := by
  simp only [resolve, hsystem, DatabaseSystem.ask_eq hready.database]
  refine handsOn_goOn (isReady_of hsystem hready) hnodup hnoting ?_
  cases purpose with
  | answer request => cases hnoting
  | opening document | push rest =>
    exact ⟨hsettled.1, (settingsNow_eq hready hsystem uri).symm, hsettled.2⟩

/-- Settings that are handed to the engine are those of now, and one file less is pending. -/
theorem handsOn_use {uri : Url} {settings : Option Settings} {purpose : Purpose}
    (hnoting : purpose.isNoting uri = true)
    (hsettled : s.Settled (Stage.resolved uri settings purpose).errand) :
    HandsOn (use h.noting cancelled s uri settings purpose) := by
  have hready' : s.IsReady := isReady_of hsystem hready
  cases purpose with
  | answer request => cases hnoting
  | opening document =>
    -- The settings are told under the name of the document, which is the file they were found for.
    obtain rfl : document.uri = uri := eq_of_beq hnoting
    obtain ⟨hwatched, hsettings, htold⟩ := hsettled
    refine handsOn_rest hready' hnodup ⟨hwatched, ?_⟩
    exact htold.tell rfl (fun _ => rfl) rfl (fun _ => rfl) hsettings
  | push rest =>
    obtain ⟨hwatched, hsettings, htold⟩ := hsettled
    refine handsOn_goOn hready' hnodup rfl ⟨hwatched, ?_⟩
    exact htold.tell rfl (fun _ => rfl) rfl (fun _ => rfl) hsettings

/-- A closed document is off the list at once, and is watched no longer later. -/
theorem handsOn_closing (uri : Url) (hsettled : s.Settled (.tell [])) :
    HandsOn (goOn { s with documents := s.documents.erase uri }
      (.finding (.unregistering uri))) := by
  refine handsOn_goOn (isReady_of hsystem hready) (Languages.nodup_erase hnodup) rfl ⟨?_, ?_⟩
  · exact congrArg (Languages.erase · uri) hsettled.1
  · intro other hopen hpending
    exact hsettled.2 other (Languages.mem_keys_erase.mp hopen).1 hpending

/-- To unregister a document brings what is watched in step with what is open. -/
theorem handsOn_unregister (uri : Url) (hsettled : s.Settled (.unregister uri)) :
    HandsOn (unregister h.noting s uri) := by
  simp only [unregister, hsystem]
  have hready' : (d.unregister uri).Ready := ⟨hready.database, hready.root, hready.listener⟩
  refine handsOn_goOn (isReady_of rfl hready') hnodup rfl ⟨?_, ?_⟩
  · rw [hsettled.1, watched_eq hsystem, watched_eq rfl]
    rfl
  · intro other hopen hpending
    rw [settingsNow_of_database hready hready' hsystem rfl rfl]
    exact hsettled.2 other hopen hpending

theorem handsOn_dismissing (uri : Url) (hsettled : s.Settled (.tell [])) :
    HandsOn (rest { s with engine := h.noting.engine.closed uri s.engine }) := by
  refine handsOn_rest (isReady_of hsystem hready) hnodup ⟨hsettled.1, ?_⟩
  exact hsettled.2.pass rfl (fun _ => rfl) rfl fun _ => rfl

/-- To look at the files that changed tells the engine nothing, and leads to a reload if one is
needed. -/
theorem handsOn_review (events : List FileEvent) (hsettled : s.Settled (.tell [])) :
    HandsOn (review h.noting s events) := by
  have hready' : s.IsReady := isReady_of hsystem hready
  simp only [review, hsystem, hready.root, if_true]
  split
  · exact handsOn_rest hready' hnodup hsettled
  · exact handsOn_goOn (isReady_of hsystem hready) hnodup rfl hsettled

/-- After a reload nothing is known of any open document. -/
theorem handsOn_reload (hreload : (d.reload s.disk).database.isSome = true)
    (hsettled : s.Settled (.tell [])) : HandsOn s.reload := by
  have hready' : (d.reload s.disk).Ready := ⟨hreload, hready.root, hready.listener⟩
  have hnotice : (d.reload s.disk).notice = some ⟨listener, d.watched.keys⟩ := by
    rw [DatabaseSystem.notice, hready'.listener]
    rfl
  simp only [reload, hsystem, hnotice]
  have hwatched : s.documents = d.watched := hsettled.1.trans (watched_eq hsystem)
  refine handsOn_goOn (isReady_of rfl hready') hnodup rfl ⟨hwatched, ?_⟩
  -- All that is open is watched, and so the notice names it.
  intro uri hopen hpending
  exact absurd (hwatched ▸ hopen) hpending

/-- The open ones among the files that a notice names are all that is to be told of. -/
theorem handsOn_refreshing (files : List Url) (hsettled : s.Settled (.tell files)) :
    HandsOn (s.goOn (.pushing (s.openAmong files))) := by
  refine handsOn_goOn (isReady_of hsystem hready) hnodup rfl ⟨hsettled.1, hsettled.2.mono ?_⟩
  intro uri hopen hfile
  exact mem_keys_openAmong.mpr ⟨hfile, hopen⟩

end Stages

/-- **Every stage of a notification** leaves things as the next stage needs them. -/
theorem act_noting {d : DatabaseSystem} {stage : Stage}
    (hsystem : s.buildSystem = some (.database d)) (hready : d.Ready)
    (hnodup : s.documents.keys.Nodup) (hnoting : stage.isNoting = true)
    (hreload : stage = .reloading → (d.reload s.disk).database.isSome = true)
    (hsettled : s.Settled stage.errand)
    (hact : act h.noting cancelled stage s = some turn) : HandsOn turn := by
  -- One lemma above for each stage at which a notification may stand.
  cases stage
  case finding next =>
    cases hact
    exact handsOn_goOn (isReady_of hsystem hready) hnodup hnoting hsettled
  case opening document =>
    cases hact
    exact handsOn_opening hsystem hready hnodup document hsettled
  case registering document =>
    cases hact
    exact handsOn_register hsystem hready hnodup document hsettled
  case resolving uri language purpose =>
    cases hact
    exact handsOn_resolve hsystem hready hnodup hnoting hsettled
  case resolved uri settings purpose =>
    cases hact
    exact handsOn_use hsystem hready hnodup hnoting hsettled
  case closing uri =>
    cases hact
    exact handsOn_closing hsystem hready hnodup uri hsettled
  case unregistering uri =>
    cases hact
    exact handsOn_unregister hsystem hready hnodup uri hsettled
  case dismissing uri =>
    cases hact
    exact handsOn_dismissing hsystem hready hnodup uri hsettled
  case reviewing events =>
    cases hact
    exact handsOn_review hsystem hready hnodup events hsettled
  case reloading =>
    cases hact
    exact handsOn_reload hsystem hready hnodup (hreload rfl) hsettled
  case refreshing files =>
    cases hact
    exact handsOn_refreshing hsystem hready hnodup files hsettled
  case pushing documents =>
    have hready' : s.IsReady := isReady_of hsystem hready
    cases documents <;> cases hact
    · exact handsOn_rest hready' hnodup hsettled
    · exact handsOn_goOn hready' hnodup rfl hsettled
  all_goals cases hnoting

/-- What a notification finds and does when it comes. -/
theorem hear_noting (n : IncomingNotification) (hready : s.IsReady)
    (hnodup : s.documents.keys.Nodup) (hsettled : s.Settled (.tell [])) :
    HandsOn (s.hear h.noting n) := by
  have hgoOn : ∀ {stage : Stage}, stage.isNoting = true → stage.errand = .tell [] →
      HandsOn (s.goOn stage) := fun hnoting herrand =>
    handsOn_goOn hready hnodup hnoting (herrand ▸ hsettled)
  unfold hear
  split
  · exact ⟨hready, hnodup, nofun, fun _ _ => hsettled⟩
  split
  · obtain ⟨send, heq⟩ | heq | ⟨document, heq⟩ | ⟨uri, heq⟩ | ⟨events, heq⟩ :=
      attend_eq (h := h.noting) (s := s) n
    all_goals rw [heq]
    · exact ⟨hready, hnodup, nofun, fun _ _ => hsettled⟩
    · -- An edit is told to the engine at once, and brings no settings.
      refine handsOn_rest hready hnodup ⟨hsettled.1, ?_⟩
      exact hsettled.2.pass rfl (fun _ => rfl) rfl fun _ => rfl
    · exact hgoOn rfl rfl
    · exact hgoOn rfl rfl
    · exact hgoOn rfl rfl
  · exact handsOn_rest hready hnodup hsettled

/-- **A question** leaves alone what the settings of documents depend on and what the engine has
been told. -/
theorem act_asking {d : DatabaseSystem} {stage : Stage}
    (hsystem : s.buildSystem = some (.database d)) (hready : d.Ready)
    (hasking : stage.isAsking = true) (hact : act h.noting cancelled stage s = some turn) :
    turn.state.documents = s.documents ∧ turn.state.buildSystem = s.buildSystem
      ∧ turn.state.diary = s.diary
      ∧ ∀ standing, turn.progress = .more standing → standing.stage.isAsking = true := by
  have hgoOn : ∀ {stage : Stage}, stage.isAsking = true → ∀ standing,
      (s.goOn stage).progress = .more standing → standing.stage.isAsking = true := by
    intro stage hasking standing hprogress
    cases hprogress
    exact hasking
  cases stage
  case finding next =>
    cases hact
    exact ⟨rfl, rfl, rfl, hgoOn hasking⟩
  case forwarding request =>
    simp only [act, Option.some.injEq] at hact
    subst hact
    split
    · exact ⟨rfl, rfl, rfl, (fun _ hprogress => by cases hprogress)⟩
    · exact ⟨rfl, rfl, rfl, hgoOn rfl⟩
  case consulting request =>
    simp only [act, hsystem, Option.some.injEq] at hact
    subst hact
    exact ⟨rfl, rfl, rfl, hgoOn rfl⟩
  case resolving uri language purpose =>
    cases purpose with
    | answer request =>
      -- The database is there, so that no search can put another in its place.
      simp only [act, resolve, hsystem, DatabaseSystem.ask_eq hready.database,
        Option.some.injEq] at hact
      subst hact
      exact ⟨rfl, rfl, rfl, hgoOn rfl⟩
    | opening document => cases hasking
    | push rest => cases hasking
  case resolved uri settings purpose =>
    cases purpose with
    | answer request =>
      simp only [act, use, Option.some.injEq] at hact
      subst hact
      split
      · exact ⟨rfl, rfl, rfl, (fun _ hprogress => by cases hprogress)⟩
      · exact ⟨rfl, rfl, rfl, hgoOn rfl⟩
    | opening document => cases hasking
    | push rest => cases hasking
  case answering request settings =>
    -- The engine may change its own state for the answer; its diary stays.
    obtain ⟨⟨outcome, engine⟩, hanswer, rfl⟩ := Option.map_eq_some_iff.mp hact
    obtain ⟨⟨outcome', state⟩, -, heq⟩ := Option.map_eq_some_iff.mp hanswer
    cases heq
    exact ⟨rfl, rfl, rfl, (fun _ hprogress => by cases hprogress)⟩
  all_goals cases hasking

end Session

end FlagServer
