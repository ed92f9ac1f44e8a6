import FlagServer.Proofs.Session.Lifecycle
import Mathlib.Logic.Function.Basic

/-!
# Open documents and watched files

A session keeps a table of the open documents, and a build system over a database keeps another one
of the files that it watches. An opened document is entered into the first, and some steps later
into the second, and a closed one is removed in the same way. Meanwhile other messages go on. This
file shows that the two tables never drift apart: **when no notification is being handled, both say
what the notifications have said that found the session open,** the last word on each file counting.

A stage **owes** a table an entry that the notification at this stage is still to make.
`Session.Carries` says what a step does to the tables: what was owed is now done, or it is still
owed. `Scene.Watchful` is the invariant, in which only notifications owe anything.
-/

namespace FlagServer

variable {ε μ : Type}

/-! ## Tables -/

namespace Languages

variable {files : Languages} {uri : Url} {language : Language}

/-- A table after an entry has been made in it, if one is to be made: the file has this language
from now on, or none. -/
def amend (table : Url → Option Language) :
    Option (Url × Option Language) → Url → Option Language
  | none => table
  | some (uri, language) => Function.update table uri language

/-- A file that is put into a table has the language that it is put in with, and the others theirs.
-/
theorem get?_insert :
    (files.insert uri language).get? = Function.update files.get? uri (some language) := by
  funext other
  induction files with
  | nil =>
    by_cases hother : other = uri
    · simp [insert, get?, hother]
    · simp [insert, get?, hother, Ne.symm hother]
  | cons entry rest ih =>
    rw [insert]
    -- The entry of the file is replaced where it stands, or added at the end; another file is found
    -- where it was.
    by_cases hother : other = uri
    · subst hother
      rw [Function.update_self] at ih ⊢
      split
      · simp [get?]
      · case isFalse hne =>
        rw [get?, List.find?_cons_of_neg (by simpa using hne)]
        exact ih
    · rw [Function.update_of_ne hother] at ih ⊢
      split
      · case isTrue heq =>
        obtain rfl := eq_of_beq heq
        simp [get?, Ne.symm hother]
      · simp only [get?, List.find?_cons] at ih ⊢
        split
        · rfl
        · exact ih

/-- A file that is taken out of a table has no language in it, and the others have theirs. -/
theorem get?_erase : (files.erase uri).get? = Function.update files.get? uri none := by
  funext other
  by_cases hother : other = uri
  · subst hother
    simp [get?, erase, List.find?_filter]
  · rw [Function.update_of_ne hother, get?, erase, List.find?_filter, get?]
    congr 2
    funext entry
    by_cases hentry : entry.1 = other <;> simp [hentry, hother]

end Languages

open Languages (amend)

/-! ## What notifications say -/

/-- What a notification says of a document: it is open in this language, or it is closed. -/
def IncomingNotification.amendment? (n : IncomingNotification) : Option (Url × Option Language) :=
  if n.is Catalogue.didOpen then
    ((n.params.get? "textDocument").bind TextDocument.ofDatum?).map fun document =>
      (document.uri, some (.ofId document.languageId))
  else if n.is Catalogue.didClose then
    (SemanticRequest.documentOf? n.params).map fun uri => (uri, none)
  else none

/-- The documents that are open after some notifications, with their languages. The last word on
each document counts. -/
def openAfter (heard : List IncomingNotification) : Url → Option Language :=
  heard.foldl (fun table n => amend table n.amendment?) fun _ => none

/-- One notification more amends what is open. -/
theorem openAfter_concat (heard : List IncomingNotification) (n : IncomingNotification) :
    openAfter (heard ++ [n]) = amend (openAfter heard) n.amendment? := by
  rw [openAfter, List.foldl_append]
  rfl

/-- A notification is of one method only. -/
theorem IncomingNotification.is_unique {n : IncomingNotification} {m m' : Method}
    (hname : m.name ≠ m'.name) (hm : n.is m = true) : n.is m' = false := by
  have hmethod : n.method = m.name := by
    simp only [is, Bool.and_eq_true, beq_iff_eq] at hm
    exact hm.1
  simp [is, hmethod, hname]

/-! ## What is owed -/

namespace Stage

/-- The entry that the table of open documents is owed. -/
def owesDocuments : Stage → Option (Url × Option Language)
  | .opening document => some (document.uri, some (.ofId document.languageId))
  | .closing uri => some (uri, none)
  | .finding next => next.owesDocuments
  | _ => none

/-- The entry that the table of watched files is owed. -/
def owesWatched : Stage → Option (Url × Option Language)
  | .opening document => some (document.uri, some (.ofId document.languageId))
  | .registering document => some (document.uri, some (.ofId document.languageId))
  | .closing uri => some (uri, none)
  | .unregistering uri => some (uri, none)
  | .finding next => next.owesWatched
  | _ => none

/-- Who owes the watched files nothing owes nothing. -/
theorem owesDocuments_eq_none {stage : Stage} (h : stage.owesWatched = none) :
    stage.owesDocuments = none := by
  induction stage with
  | finding next ih => exact ih h
  | opening | closing => cases h
  | _ => rfl

/-- A build system on its way into the session watches nothing. -/
def IsFresh : Stage → Prop
  | .attaching (.database d) => d.watched = []
  | .publishing (.database d) => d.watched = []
  | .finding next => next.IsFresh
  | _ => True

end Stage

namespace Session

variable {h : Host ε μ} {s s' : Session ε μ} {cancelled : Bool} {stage : Stage}
  {turn : SessionTurn ε μ}

/-- The stage that a message goes on with. -/
def next? (turn : SessionTurn ε μ) : Option Stage :=
  match turn.progress with
  | .more standing => some standing.stage
  | .done _ => none

/-- **What a step does to the tables.** -/
structure Carries (stage : Stage) (s : Session ε μ) (turn : SessionTurn ε μ) : Prop where
  /-- The open documents with what they are owed stay the same. -/
  documents : amend turn.state.documents.get? ((next? turn).bind Stage.owesDocuments)
    = amend s.documents.get? stage.owesDocuments
  /-- So do the watched files, if there is a database. -/
  watched : ∀ d', turn.state.buildSystem = some (.database d') →
    ∃ d, s.buildSystem = some (.database d)
      ∧ amend d'.watched.get? ((next? turn).bind Stage.owesWatched)
        = amend d.watched.get? stage.owesWatched
  /-- Nobody begins to owe. -/
  quiet : stage.owesWatched = none → (next? turn).bind Stage.owesWatched = none
  /-- A new build system watches nothing. -/
  fresh : stage.IsFresh → ∀ next, next? turn = some next → next.IsFresh

/-- The files that are watched stay the same. -/
def KeepsWatched (s s' : Session ε μ) : Prop :=
  ∀ d', s'.buildSystem = some (.database d') →
    ∃ d, s.buildSystem = some (.database d) ∧ d'.watched = d.watched

theorem KeepsWatched.of_eq (hsystem : s'.buildSystem = s.buildSystem) : KeepsWatched s s' :=
  fun d' hd' => ⟨d', hsystem.symm.trans hd', rfl⟩

/-- A database that changes in its place may watch the same files. -/
theorem KeepsWatched.ofDatabase {d d' : DatabaseSystem}
    (hsystem : s.buildSystem = some (.database d))
    (hsystem' : s'.buildSystem = some (.database d')) (hwatched : d'.watched = d.watched) :
    KeepsWatched s s' := by
  intro d'' hd''
  cases hsystem'.symm.trans hd''
  exact ⟨d, hsystem, hwatched⟩

/-- A stage that owes nothing leaves both tables alone and leads to others of its kind. -/
theorem Carries.idle (hdocuments : turn.state.documents = s.documents)
    (hwatched : KeepsWatched s turn.state) (hstage : stage.owesWatched = none)
    (hnext : ∀ next, next? turn = some next → next.owesWatched = none ∧ next.IsFresh) :
    Carries stage s turn := by
  have howes : (next? turn).bind Stage.owesWatched = none
      ∧ (next? turn).bind Stage.owesDocuments = none := by
    cases hturn : next? turn with
    | none => exact ⟨rfl, rfl⟩
    | some next => exact ⟨(hnext next hturn).1, Stage.owesDocuments_eq_none (hnext next hturn).1⟩
  refine ⟨?_, fun d' hd' => ?_, fun _ => howes.1, fun _ next hturn => (hnext next hturn).2⟩
  · rw [howes.2, Stage.owesDocuments_eq_none hstage, hdocuments]
  · obtain ⟨d, hd, hsame⟩ := hwatched d' hd'
    exact ⟨d, hd, by rw [howes.1, hstage, hsame]⟩

/-- What holds of a stage holds of the one that is gone on with. -/
theorem next_goOn {P : Stage → Prop} (hP : P stage) :
    ∀ next, next? (s.goOn stage) = some next → P next := by
  intro next hnext
  cases hnext
  exact hP

/-- To go on from a stage that owes nothing to one that owes nothing leaves both tables alone. -/
theorem carries_goOn {next : Stage} (hdocuments : s'.documents = s.documents)
    (hwatched : KeepsWatched s s') (hstage : stage.owesWatched = none)
    (hnext : next.owesWatched = none) (hfresh : next.IsFresh) :
    Carries stage s (s'.goOn next) :=
  .idle hdocuments hwatched hstage (next_goOn ⟨hnext, hfresh⟩)

theorem carries_done {outcome : Except ResponseError Json}
    (hprogress : turn.progress = .done outcome) (hdocuments : turn.state.documents = s.documents)
    (hwatched : KeepsWatched s turn.state) (hstage : stage.owesWatched = none) :
    Carries stage s turn := by
  refine .idle hdocuments hwatched hstage fun next hnext => ?_
  rw [next?, hprogress] at hnext
  cases hnext

/-! ### Stages that leave the tables alone -/

theorem watched_settings (disk : FileSystem) (d : DatabaseSystem) (uri : Url) :
    (d.settings disk uri).2.watched = d.watched := by
  simp only [DatabaseSystem.settings, DatabaseSystem.databaseFor]
  repeat' split
  all_goals rfl

/-- To set a listener changes nothing of what is watched. -/
theorem watched_setListener {system : BuildSystem} {listener : Option Listener}
    {d' : DatabaseSystem} (hset : setListener h s system listener = some (s', .database d')) :
    ∃ d, system = .database d ∧ d'.watched = d.watched := by
  unfold setListener at hset
  split at hset
  · cases hset
    exact ⟨_, rfl, rfl⟩
  · obtain ⟨manifest, -, heq⟩ := Option.map_eq_some_iff.mp hset
    cases heq
  · cases hset
    exact ⟨d', rfl, rfl⟩

theorem isFresh_forWorkspace (disk : FileSystem) (preference : Preference) (root : Option Path)
    (hasManifest : Bool) :
    (Stage.attaching (.forWorkspace disk preference root hasManifest)).IsFresh := by
  have hcreate : (DatabaseSystem.create disk root).watched = [] := by
    cases root <;> rfl
  cases preference with
  | none => trivial
  | compilationDatabase => exact hcreate
  | auto =>
    cases hasManifest with
    | true => trivial
    | false => exact hcreate

theorem carries_receive (r : IncomingRequest) (hstage : stage.owesWatched = none) :
    Carries stage s (s.receive r) := by
  obtain ⟨error, heq⟩ | ⟨params, -, heq⟩ | heq | ⟨request, heq⟩ := receive_eq (s := s) r
  all_goals rw [heq]
  · exact carries_done rfl rfl (.of_eq rfl) hstage
  · exact carries_goOn rfl (.of_eq rfl) hstage rfl trivial
  · exact carries_goOn rfl (.of_eq rfl) hstage rfl trivial
  · exact carries_goOn rfl (.of_eq rfl) hstage rfl trivial

theorem carries_choose (params : Datum) (hstage : stage.owesWatched = none) :
    Carries stage s (choose h s params) := by
  unfold choose
  dsimp only
  split
  · exact carries_goOn rfl (.of_eq rfl) hstage rfl trivial
  · exact carries_goOn rfl (.of_eq rfl) hstage rfl (isFresh_forWorkspace _ _ _ _)

theorem carries_detach? (hstage : stage.owesWatched = none)
    (hact : detach? h s = some turn) : Carries stage s turn := by
  unfold detach? at hact
  split at hact
  · cases hact
    exact carries_done rfl rfl (.of_eq rfl) hstage
  · case h_2 system hsystem =>
    obtain ⟨⟨s', system'⟩, hset, rfl⟩ := Option.map_eq_some_iff.mp hact
    obtain ⟨⟨manifest, rfl⟩, -⟩ := setListener_cases hset
    refine carries_done rfl rfl (fun d' hd' => ?_) hstage
    cases Option.some.inj hd'
    obtain ⟨d, rfl, hwatched⟩ := watched_setListener hset
    exact ⟨d, hsystem, hwatched⟩

theorem carries_resolve (uri : Url) (language : Language) (purpose : Purpose)
    (hstage : stage.owesWatched = none) : Carries stage s (resolve h s uri language purpose) := by
  unfold resolve
  split
  · split
    · exact carries_goOn rfl (.of_eq rfl) hstage rfl trivial
    · exact carries_goOn rfl (.of_eq rfl) hstage rfl trivial
  · exact carries_goOn rfl (.of_eq rfl) hstage rfl trivial
  · exact carries_goOn rfl (.of_eq rfl) hstage rfl trivial

theorem carries_discover (uri : Url) (purpose : Purpose) (hstage : stage.owesWatched = none) :
    Carries stage s (s.discover uri purpose) := by
  unfold discover
  split
  · case h_1 d hsystem =>
    exact carries_goOn rfl (.ofDatabase hsystem rfl (watched_settings _ _ _)) hstage rfl trivial
  · exact carries_goOn rfl (.of_eq rfl) hstage rfl trivial

theorem carries_use (uri : Url) (settings : Option Settings) (purpose : Purpose)
    (hstage : stage.owesWatched = none) :
    Carries stage s (use h cancelled s uri settings purpose) := by
  cases purpose with
  | answer request =>
    simp only [use]
    split
    · exact carries_done rfl rfl (.of_eq rfl) hstage
    · exact carries_goOn rfl (.of_eq rfl) hstage rfl trivial
  | opening document => exact carries_done rfl rfl (.of_eq rfl) hstage
  | push documents => exact carries_goOn rfl (.of_eq rfl) hstage rfl trivial

theorem carries_spread {notice : Option Notice} (hdocuments : s'.documents = s.documents)
    (hwatched : KeepsWatched s s') (hstage : stage.owesWatched = none) :
    Carries stage s (s'.spread notice) := by
  cases notice with
  | none => exact carries_done rfl hdocuments hwatched hstage
  | some notice => exact carries_goOn hdocuments hwatched hstage rfl trivial

theorem carries_review (events : List FileEvent) (hstage : stage.owesWatched = none) :
    Carries stage s (review h s events) := by
  unfold review
  split
  · case h_1 d hsystem =>
    split
    · exact carries_done rfl rfl (.of_eq rfl) hstage
    · split
      · exact carries_goOn rfl (.of_eq rfl) hstage rfl trivial
      · exact carries_spread rfl (.ofDatabase hsystem rfl rfl) hstage
  · exact carries_spread rfl (.of_eq rfl) hstage
  · exact carries_done rfl rfl (.of_eq rfl) hstage

/-- To read a database anew leaves both tables alone: it goes on watching what it watched. -/
theorem carries_reload (hstage : stage.owesWatched = none) : Carries stage s s.reload := by
  unfold reload
  split
  · case h_1 d hsystem => exact carries_spread rfl (.ofDatabase hsystem rfl rfl) hstage
  · exact carries_done rfl rfl (.of_eq rfl) hstage

/-! ### Stages that make an entry -/

/-- To register a document pays what the table of watched files was owed. -/
theorem carries_register (document : TextDocument) :
    Carries (.registering document) s (register h s document) := by
  unfold register
  dsimp only
  split
  · case h_1 hsystem =>
    refine ⟨rfl, fun d' hd' => ?_, nofun, fun _ => next_goOn trivial⟩
    cases hsystem.symm.trans hd'
  · case h_2 d hsystem =>
    refine ⟨rfl, fun d' hd' => ?_, nofun, fun _ => next_goOn trivial⟩
    -- This is the branch over a database; in the others there is no table to pay.
    cases hd'
    exact ⟨d, hsystem, Languages.get?_insert⟩
  · case h_3 hsystem _ =>
    refine ⟨rfl, fun d' hd' => ?_, nofun, fun _ => next_goOn trivial⟩
    cases hsystem.symm.trans hd'
  · case h_4 _ hdatabase _ =>
    refine ⟨rfl, fun d' hd' => ?_, nofun, fun _ => next_goOn trivial⟩
    exact absurd hd' (hdatabase d')

/-- To unregister a file pays what the table of watched files was owed. -/
theorem carries_unregister (uri : Url) :
    Carries (.unregistering uri) s (unregister h s uri) := by
  unfold unregister
  split
  · case h_1 d hsystem =>
    refine ⟨rfl, fun d' hd' => ?_, nofun, fun _ => next_goOn trivial⟩
    cases hd'
    exact ⟨d, hsystem, Languages.get?_erase⟩
  · case h_2 hsystem _ =>
    refine ⟨rfl, fun d' hd' => ?_, nofun, fun _ => next_goOn trivial⟩
    cases hsystem.symm.trans hd'
  · case h_3 hdatabase _ =>
    refine ⟨rfl, fun d' hd' => ?_, nofun, fun _ => next_goOn trivial⟩
    exact absurd hd' (hdatabase d')

/-- **What every stage does to the tables,** but for the first of a notification, where it is let
in, and the one that gives the session its build system. -/
theorem act_carries (hnotified : ∀ n, stage ≠ .notified n)
    (hpublishing : ∀ system, stage ≠ .publishing system)
    (hact : act h cancelled stage s = some turn) : Carries stage s turn := by
  cases stage
  case notified n => exact absurd rfl (hnotified n)
  case publishing system => exact absurd rfl (hpublishing system)
  -- The system is on its way into the session, so its table is none of the two yet; only that it
  -- watches nothing has to be passed on.
  case attaching system =>
    obtain ⟨⟨s', system'⟩, hset, rfl⟩ := Option.map_eq_some_iff.mp hact
    obtain ⟨⟨manifest, rfl⟩, -⟩ := setListener_cases hset
    refine ⟨rfl, fun d' hd' => ⟨d', hd', rfl⟩, fun _ => rfl,
      fun hfresh => next_goOn (P := Stage.IsFresh) ?_⟩
    cases system' with
    | database d' =>
      obtain ⟨d, rfl, hwatched⟩ := watched_setListener hset
      exact hwatched.trans hfresh
    | manifest | unhandled => trivial
  case detaching => exact carries_detach? rfl hact
  case answering =>
    obtain ⟨⟨outcome, engine⟩, -, rfl⟩ := Option.map_eq_some_iff.mp hact
    exact carries_done rfl rfl (.of_eq rfl) rfl
  case consulting =>
    simp only [act] at hact
    split at hact <;> cases hact
    · exact carries_goOn rfl (.of_eq rfl) rfl rfl trivial
    · exact carries_goOn rfl (.of_eq rfl) rfl rfl trivial
  case pushing documents =>
    cases documents <;> cases hact
    · exact carries_done rfl rfl (.of_eq rfl) rfl
    · exact carries_goOn rfl (.of_eq rfl) rfl rfl trivial
  all_goals cases hact
  case received r => exact carries_receive r rfl
  case choosing params => exact carries_choose params rfl
  case loading => exact carries_goOn rfl (.of_eq rfl) rfl rfl (isFresh_forWorkspace _ _ _ _)
  case resolving => exact carries_resolve _ _ _ rfl
  case discovering => exact carries_discover _ _ rfl
  case resolved => exact carries_use _ _ _ rfl
  case reviewing => exact carries_review _ rfl
  case reloading => exact carries_reload rfl
  case registering document => exact carries_register document
  case unregistering uri => exact carries_unregister uri
  case forwarding =>
    split
    · exact carries_done rfl rfl (.of_eq rfl) rfl
    · exact carries_goOn rfl (.of_eq rfl) rfl rfl trivial
  case finding next =>
    exact ⟨rfl, fun d' hd' => ⟨d', hd', rfl⟩, id,
      fun hfresh => next_goOn (P := Stage.IsFresh) hfresh⟩
  -- The entry is made in the table of open documents now, and the other table is owed it still.
  case opening document =>
    exact ⟨Languages.get?_insert, fun d' hd' => ⟨d', hd', rfl⟩, by simp [Stage.owesWatched],
      fun _ => next_goOn trivial⟩
  case closing uri =>
    exact ⟨Languages.get?_erase, fun d' hd' => ⟨d', hd', rfl⟩, by simp [Stage.owesWatched],
      fun _ => next_goOn trivial⟩
  case concluding | dismissing => exact carries_done rfl rfl (.of_eq rfl) rfl
  case announcing | announcingEnd =>
    refine .idle rfl (.of_eq rfl) rfl fun next hnext => ?_
    cases hnext
    exact ⟨rfl, trivial⟩
  case ending | recording | refreshing =>
    exact carries_goOn rfl (.of_eq rfl) rfl rfl trivial

/-! ### Steps -/

/-- Who comes nearer changes neither table. -/
theorem come_carries {touched : Touch} (hcome : come h s stage touched = some turn) :
    Carries stage s turn := by
  obtain ⟨hstate, approach, hprogress, -⟩ := come_cases hcome
  have hnext : next? turn = some stage := by rw [next?, hprogress]
  have hdocuments : turn.state.documents = s.documents := by rw [hstate]
  have hsystem : turn.state.buildSystem = s.buildSystem := by rw [hstate]
  refine ⟨?_, fun d' hd' => ⟨d', hsystem.symm.trans hd', ?_⟩, fun howes => ?_, ?_⟩
  · rw [hnext, hdocuments, Option.bind_some]
  · rw [hnext, Option.bind_some]
  · rw [hnext, Option.bind_some, howes]
  · intro hfresh next heq
    rw [hnext] at heq
    cases heq
    exact hfresh

/-- Other lines change nothing of what a step does to the tables. -/
theorem Carries.of_same (hsame : SameButLines s s') (hcarries : Carries stage s' turn) :
    Carries stage s turn := by
  have hdocuments : s'.documents = s.documents := by rw [hsame]
  have hsystem : s'.buildSystem = s.buildSystem := by rw [hsame]
  refine ⟨hdocuments ▸ hcarries.documents, ?_, hcarries.quiet, hcarries.fresh⟩
  rw [← hsystem]
  exact hcarries.watched

/-- **The tables say what they should,** but for what is owed at a stage. -/
structure Tallies (s : Session ε μ) (stage : Option Stage) (table : Url → Option Language) :
    Prop where
  documents : amend s.documents.get? (stage.bind Stage.owesDocuments) = table
  watched : ∀ d, s.buildSystem = some (.database d) →
    amend d.watched.get? (stage.bind Stage.owesWatched) = table

variable {table : Url → Option Language}

/-- A message that goes on hands on what it owes. -/
theorem Carries.tallies (hcarries : Carries stage s turn) (hs : s.Tallies (some stage) table) :
    turn.state.Tallies (next? turn) table := by
  refine ⟨hcarries.documents.trans hs.documents, fun d' hd' => ?_⟩
  obtain ⟨d, hd, hwatched⟩ := hcarries.watched d' hd'
  exact hwatched.trans (hs.watched d hd)

/-- A message that owes nothing does not concern what another owes. -/
theorem Carries.tallies_other {other : Option Stage} (hcarries : Carries stage s turn)
    (hstage : stage.owesWatched = none) (hs : s.Tallies other table) :
    turn.state.Tallies other table := by
  have hnext := hcarries.quiet hstage
  -- Who owes nothing goes on to owe nothing, so the step has left both tables as they were.
  have hnext' : (next? turn).bind Stage.owesDocuments = none := by
    cases hturn : next? turn with
    | none => rfl
    | some next =>
      rw [hturn] at hnext
      exact Stage.owesDocuments_eq_none hnext
  constructor
  · have hdocuments := hcarries.documents
    rw [hnext', Stage.owesDocuments_eq_none hstage] at hdocuments
    rw [← hs.documents, show turn.state.documents.get? = s.documents.get? from hdocuments]
  · intro d' hd'
    obtain ⟨d, hd, hwatched⟩ := hcarries.watched d' hd'
    rw [hnext, hstage] at hwatched
    rw [← hs.watched d hd, show d'.watched.get? = d.watched.get? from hwatched]

/-- Only what is owed counts of a stage. -/
theorem Tallies.of_owes {stage stage' : Option Stage} (hs : s.Tallies stage table)
    (hdocuments : stage'.bind Stage.owesDocuments = stage.bind Stage.owesDocuments)
    (hwatched : stage'.bind Stage.owesWatched = stage.bind Stage.owesWatched) :
    s.Tallies stage' table :=
  ⟨hdocuments ▸ hs.documents, hwatched ▸ hs.watched⟩

theorem Tallies.of_same {stage : Option Stage} (hs : s.Tallies stage table)
    (hdocuments : s'.documents = s.documents) (hsystem : s'.buildSystem = s.buildSystem) :
    s'.Tallies stage table :=
  ⟨hdocuments ▸ hs.documents, hsystem ▸ hs.watched⟩

/-! ### Being let in -/

/-- The notification that is let in by a step from here: it has come to how far the session has
come, and finds the session open. The one that ends the program does not look. -/
def heard? (s : Session ε μ) (standing : Standing) : Option IncomingNotification :=
  match standing.stage, standing.approach with
  | .notified _, .before => none
  | .notified n, _ =>
    if s.lifecycle == .initialized && !n.is Catalogue.exit then some n else none
  | _, _ => none

/-- Only a notification that has just come can be let in. -/
theorem heard?_eq_none {standing : Standing} (hnotified : ∀ n, standing.stage ≠ .notified n) :
    s.heard? standing = none := by
  unfold heard?
  split
  · rfl
  · case h_2 hstage _ => exact absurd hstage (hnotified _)
  · rfl

/-- Whoever is let in finds the session open. -/
theorem initialized_of_heard? {standing : Standing} {n : IncomingNotification}
    (hheard : s.heard? standing = some n) : s.lifecycle = .initialized := by
  unfold heard? at hheard
  split at hheard
  · cases hheard
  · split at hheard
    · case isTrue hlet =>
      rw [Bool.and_eq_true] at hlet
      exact eq_of_beq hlet.1
    · cases hheard
  · cases hheard

/-- **A step of a notification that has just come.** It comes nearer and is not let in yet, or it is
looked at in a session that has other lines at most. -/
theorem step_notified {standing : Standing} {n : IncomingNotification}
    (hstage : standing.stage = .notified n) (hstep : step h cancelled standing s = some turn) :
    (∃ touched, come h s standing.stage touched = some turn) ∧ s.heard? standing = none
    ∨ (∃ s', SameButLines s s' ∧ turn = s'.hear h n)
      ∧ s.heard? standing
        = if s.lifecycle == .initialized && !n.is Catalogue.exit then some n else none := by
  obtain ⟨stage, approach⟩ := standing
  subst hstage
  -- It is looked at from the line or with the session in hand; before that, only the one that ends
  -- the program is.
  cases approach with
  | before =>
    simp only [step, touch] at hstep
    by_cases hexit : n.is Catalogue.exit = true
    · rw [if_pos hexit] at hstep
      refine .inr ⟨⟨s, .refl s, (Option.some.inj hstep).symm⟩, ?_⟩
      simp [heard?, hexit]
    · rw [if_neg hexit] at hstep
      exact .inl ⟨⟨_, hstep⟩, rfl⟩
  | inLine r use place =>
    simp only [step] at hstep
    split at hstep
    · exact .inr ⟨⟨_, sameButLines_withLine s _ _, (Option.some.inj hstep).symm⟩, rfl⟩
    · cases hstep
  | inHand touched =>
    refine .inr ⟨?_, rfl⟩
    cases touched with
    | resource r use => exact ⟨_, sameButLines_withLine s _ _, (Option.some.inj hstep).symm⟩
    | gate => exact ⟨s, .refl s, (Option.some.inj hstep).symm⟩

/-- What a notification in an open session does first: it leaves the tables alone, and owes both of
them what it says. -/
theorem attend_owes (n : IncomingNotification) :
    (s.attend h n).state.documents = s.documents
    ∧ (s.attend h n).state.buildSystem = s.buildSystem
    ∧ (next? (s.attend h n)).bind Stage.owesDocuments = n.amendment?
    ∧ (next? (s.attend h n)).bind Stage.owesWatched = n.amendment?
    ∧ ∀ next, next? (s.attend h n) = some next → next.IsFresh := by
  have hopened {m : Method} (hname : m.name ≠ Catalogue.didOpen.name) (hm : n.is m = true) :
      n.is Catalogue.didOpen = false :=
    IncomingNotification.is_unique hname hm
  have hclosed {m : Method} (hname : m.name ≠ Catalogue.didClose.name) (hm : n.is m = true) :
      n.is Catalogue.didClose = false :=
    IncomingNotification.is_unique hname hm
  -- The methods are tried in the order in which they are told apart, and only two of them have an
  -- amendment.
  unfold attend IncomingNotification.amendment?
  split
  · case isTrue hm =>
    simp only [hopened (by decide) hm, hclosed (by decide) hm, Bool.false_eq_true, if_false]
    exact ⟨rfl, rfl, rfl, rfl, nofun⟩
  split
  · cases (n.params.get? "textDocument").bind TextDocument.ofDatum? with
    | none => exact ⟨rfl, rfl, rfl, rfl, nofun⟩
    | some document => exact ⟨rfl, rfl, rfl, rfl, next_goOn trivial⟩
  split
  · cases SemanticRequest.documentOf? n.params with
    | none => exact ⟨rfl, rfl, rfl, rfl, nofun⟩
    | some uri => exact ⟨rfl, rfl, rfl, rfl, next_goOn trivial⟩
  split
  · exact ⟨rfl, rfl, rfl, rfl, nofun⟩
  split
  · exact ⟨rfl, rfl, rfl, rfl, next_goOn trivial⟩
  · exact ⟨rfl, rfl, rfl, rfl, nofun⟩

/-- What a notification does first: it leaves the tables alone, and owes both of them what it says
if it is let in. -/
theorem hear_owes (n : IncomingNotification) :
    (s.hear h n).state.documents = s.documents
    ∧ (s.hear h n).state.buildSystem = s.buildSystem
    ∧ (next? (s.hear h n)).bind Stage.owesDocuments
      = (if s.lifecycle == .initialized && !n.is Catalogue.exit then some n else none).bind
        IncomingNotification.amendment?
    ∧ (next? (s.hear h n)).bind Stage.owesWatched
      = (if s.lifecycle == .initialized && !n.is Catalogue.exit then some n else none).bind
        IncomingNotification.amendment?
    ∧ ∀ next, next? (s.hear h n) = some next → next.IsFresh := by
  unfold hear
  by_cases hexit : n.is Catalogue.exit = true
  · simp only [hexit, if_true, Bool.not_true, Bool.and_false, Bool.false_eq_true, if_false]
    exact ⟨rfl, rfl, rfl, rfl, nofun⟩
  rw [Bool.not_eq_true] at hexit
  by_cases hopen : (s.lifecycle == .initialized) = true
  · simpa only [hexit, hopen, if_true, Bool.not_false, Bool.and_self, Bool.false_eq_true, if_false,
      Option.bind_some] using attend_owes n
  · simp only [hexit, hopen, Bool.false_eq_true, if_false, Bool.not_false, Bool.and_true]
    exact ⟨rfl, rfl, rfl, rfl, nofun⟩

end Session

/-! ## Scenes -/

/-- The notification that was let in by a deed. -/
def Deed.heard? (d : Deed ε μ) : Option IncomingNotification :=
  d.seen.heard? d.handling.standing

namespace Scene

variable {h : Host ε μ} {allowed : Session ε μ → Stage → Bool} {s s' : Scene ε μ} {e : Event μ}
  {x y : Handling} {turn : Session.SessionTurn ε μ}

/-- The notifications that have been let in, in order. -/
def heard (s : Scene ε μ) : List IncomingNotification :=
  s.deeds.filterMap Deed.heard?

/-- A step adds the notification that it lets in, if any. -/
theorem heard_after :
    (s.after x turn).heard = s.heard ++ (s.session.heard? x.standing).toList := by
  rw [heard, deeds_after, List.filterMap_append]
  congr 1

/-- **Both tables say what the notifications have said that were let in,** but for what the
notification that is being handled still owes. -/
structure Watchful (s : Scene ε μ) : Prop where
  sound : s.Sound
  single : s.OneNotified
  requests : ∀ x ∈ s.handlings, x.message.isNotification = false →
    x.standing.stage.owesWatched = none
  fresh : ∀ x ∈ s.handlings, x.standing.stage.IsFresh
  closed : s.session.lifecycle.hasOpened = false → s.heard = []
  noted : ∀ x ∈ s.handlings, x.message.isNotification = true →
    s.session.Tallies (some x.standing.stage) (openAfter s.heard)
  quiet : (∀ x ∈ s.handlings, x.message.isNotification = false) →
    s.session.Tallies none (openAfter s.heard)

/-- In the beginning both tables are empty, and nothing has been heard. -/
theorem Watchful.start (engine : ε) (manifest : μ) (disk : FileSystem) :
    (start engine manifest disk).Watchful where
  sound := .start _ _ _
  single _ hx := by cases hx
  requests x hx := by cases hx
  fresh x hx := by cases hx
  closed _ := rfl
  noted x hx := by cases hx
  quiet _ := ⟨rfl, nofun⟩

/-- A notification that has just come owes nothing. -/
theorem owes_stage (message : Incoming) :
    message.stage.owesDocuments = none ∧ message.stage.owesWatched = none
      ∧ message.stage.IsFresh := by
  cases message <;> exact ⟨rfl, rfl, trivial⟩

/-- A request never stands where a notification comes. -/
theorem Watchful.ne_notified_of_request (hs : s.Watchful) (hx : x ∈ s.handlings)
    (hrequest : x.message.isNotification = false) :
    ∀ n, x.standing.stage ≠ .notified n := by
  intro n hn
  have hstage := hs.sound.stage_of_arrival hx (by rw [hn]; rfl)
  rw [hn] at hstage
  cases hmessage : x.message with
  | request r =>
    rw [hmessage] at hstage
    cases hstage
  | notification n' => simp [hmessage, Incoming.isNotification] at hrequest

/-- Until the session has been open, nobody is let in, and a step that lets nobody in does not
change that. -/
theorem Watchful.closed_after (hs : s.Watchful) (hstep : s.step? h e = some (s.after x turn))
    (hclosed : (s.after x turn).session.lifecycle.hasOpened = false) :
    (s.after x turn).heard = [] := by
  have hbefore : s.session.lifecycle.hasOpened = false :=
    Bool.eq_false_iff.mpr fun hopened => by
      rw [hs.sound.hasOpened_step hopened hstep] at hclosed
      cases hclosed
  rw [heard_after, hs.closed hbefore]
  cases hheard : s.session.heard? x.standing with
  | none => rfl
  | some n =>
    rw [Session.initialized_of_heard? hheard] at hbefore
    cases hbefore

/-- What is to be shown of a step of a notification. There is no other to be looked after. -/
theorem Watchful.after_noted (hs : s.Watchful) (hx : x ∈ s.handlings)
    (hstep : s.step? h e = some (s.after x turn)) (hnote : x.message.isNotification = true)
    (hfresh : ∀ next, Session.next? turn = some next → next.IsFresh)
    (htallies : turn.state.Tallies (Session.next? turn) (openAfter (s.after x turn).heard)) :
    (s.after x turn).Watchful where
  sound := hs.sound.step? hstep
  single := hs.single.after hs.sound.numbered hx
  requests y hy hrequest := by
    obtain ⟨hy, -⟩ | ⟨standing, -, rfl⟩ := hs.sound.numbered.mem_after hx hy
    · exact hs.requests y hy hrequest
    · cases hnote.symm.trans hrequest
  fresh y hy := by
    obtain ⟨hy, -⟩ | ⟨standing, hprogress, rfl⟩ := hs.sound.numbered.mem_after hx hy
    · exact hs.fresh y hy
    · exact hfresh standing.stage (by rw [Session.next?, hprogress])
  closed := hs.closed_after hstep
  noted y hy hnote' := by
    obtain ⟨hy, hother⟩ | ⟨standing, hprogress, rfl⟩ := hs.sound.numbered.mem_after hx hy
    · exact absurd (hs.single y hy x hx hnote' hnote) hother
    · rw [Session.next?, hprogress] at htallies
      exact htallies
  quiet hnone := by
    cases hprogress : turn.progress with
    | more standing =>
      cases hnote.symm.trans (hnone { x with standing } (mem_after_of_more hx hprogress))
    | done outcome =>
      rw [Session.next?, hprogress] at htallies
      exact htallies

/-- What is to be shown of a step of a request. It lets nobody in, and owes nothing. -/
theorem Watchful.after_asked (hs : s.Watchful) (hx : x ∈ s.handlings)
    (hstep : s.step? h e = some (s.after x turn)) (hrequest : x.message.isNotification = false)
    (hfresh : ∀ next, Session.next? turn = some next → next.IsFresh)
    (howes : (Session.next? turn).bind Stage.owesWatched = none)
    (hnoted : ∀ y ∈ s.handlings, y.message.isNotification = true →
      turn.state.Tallies (some y.standing.stage) (openAfter s.heard))
    (hquiet : (∀ y ∈ s.handlings, y.message.isNotification = false) →
      turn.state.Tallies none (openAfter s.heard)) : (s.after x turn).Watchful := by
  have hheard : (s.after x turn).heard = s.heard := by
    rw [heard_after, Session.heard?_eq_none (hs.ne_notified_of_request hx hrequest),
      Option.toList_none, List.append_nil]
  refine ⟨hs.sound.step? hstep, hs.single.after hs.sound.numbered hx, ?_, ?_,
    hs.closed_after hstep, ?_, ?_⟩
  · intro y hy hrequest'
    obtain ⟨hy, -⟩ | ⟨standing, hprogress, rfl⟩ := hs.sound.numbered.mem_after hx hy
    · exact hs.requests y hy hrequest'
    · rw [Session.next?, hprogress] at howes
      exact howes
  · intro y hy
    obtain ⟨hy, -⟩ | ⟨standing, hprogress, rfl⟩ := hs.sound.numbered.mem_after hx hy
    · exact hs.fresh y hy
    · exact hfresh standing.stage (by rw [Session.next?, hprogress])
  · intro y hy hnote
    rw [hheard]
    obtain ⟨hy, -⟩ | ⟨standing, -, rfl⟩ := hs.sound.numbered.mem_after hx hy
    · exact hnoted y hy hnote
    · cases hrequest.symm.trans hnote
  · intro hnone
    rw [hheard]
    refine hquiet fun y hy => ?_
    by_cases hnumber : y.number = x.number
    · rw [hs.sound.numbered.eq_of_number hy hx hnumber]
      exact hrequest
    · exact hnone y (mem_after_of_ne hy hnumber)

/-- A step that lets nobody in and gives the session no build system. -/
theorem Watchful.after_carries (hs : s.Watchful) (hx : x ∈ s.handlings)
    (hstep : s.step? h e = some (s.after x turn))
    (hheard : s.session.heard? x.standing = none)
    (hcarries : Session.Carries x.standing.stage s.session turn) : (s.after x turn).Watchful := by
  have hfresh := hcarries.fresh (hs.fresh x hx)
  -- A notification hands on what it owes; a request owes nothing, and what another owes stays with
  -- that one.
  cases hnote : x.message.isNotification with
  | true =>
    refine hs.after_noted hx hstep hnote hfresh ?_
    rw [heard_after, hheard, Option.toList_none, List.append_nil]
    exact hcarries.tallies (hs.noted x hx hnote)
  | false =>
    have howes := hs.requests x hx hnote
    exact hs.after_asked hx hstep hnote hfresh (hcarries.quiet howes)
      (fun y hy hnote' => hcarries.tallies_other howes (hs.noted y hy hnote'))
      (fun hnone => hcarries.tallies_other howes (hs.quiet hnone))

/-- The session gets its build system. It has let nobody in yet, and the system watches nothing. -/
theorem Watchful.after_published (hs : s.Watchful) (hx : x ∈ s.handlings) {system : BuildSystem}
    {t : Session ε μ} (hsame : Session.SameButLines s.session t)
    (hstage : x.standing.stage = .publishing system)
    (hturn : turn = Session.goOn { t with buildSystem := some system } .concluding)
    (hstep : s.step? h e = some (s.after x turn)) : (s.after x turn).Watchful := by
  have hpart : x.standing.stage.part = .opening := by rw [hstage]; rfl
  have hclosed : s.session.lifecycle.hasOpened = false := by
    rw [(hs.sound.living.fits x hx).opening hpart]
    rfl
  have hrequest : x.message.isNotification = false := by
    refine Bool.eq_false_iff.mpr fun hnote => ?_
    cases hpart.symm.trans (hs.sound.arrival_of_notification hx hnote hclosed)
  have hfresh : (Stage.publishing system).IsFresh := hstage ▸ hs.fresh x hx
  have hdocuments : turn.state.documents = s.session.documents := by
    rw [hturn, hsame]
    rfl
  -- Nothing is open and nothing is watched, and nobody owes anything.
  have htallies : ∀ stage : Option Stage, stage.bind Stage.owesDocuments = none →
      stage.bind Stage.owesWatched = none → s.session.Tallies stage (openAfter s.heard) →
      turn.state.Tallies stage (openAfter s.heard) := by
    intro stage howes howes' hbefore
    refine ⟨hdocuments ▸ hbefore.documents, fun d hd => ?_⟩
    rw [hturn] at hd
    cases Option.some.inj hd
    rw [howes', hs.closed hclosed, show d.watched = [] from hfresh]
    rfl
  subst hturn
  refine hs.after_asked hx hstep hrequest (Session.next_goOn trivial) rfl (fun y hy hnote => ?_)
    (fun hnone => htallies none rfl rfl (hs.quiet hnone))
  have harrival := hs.sound.arrival_of_notification hy hnote hclosed
  obtain ⟨howes, howes', -⟩ := owes_stage y.message
  rw [← hs.sound.stage_of_arrival hy harrival] at howes howes'
  exact htallies _ howes howes' (hs.noted y hy hnote)

/-- A notification is looked at that has just come. -/
theorem Watchful.after_notified (hs : s.Watchful) (hx : x ∈ s.handlings)
    {n : IncomingNotification} {t : Session ε μ} (hsame : Session.SameButLines s.session t)
    (hstage : x.standing.stage = .notified n) (hturn : turn = t.hear h n)
    (hheard : s.session.heard? x.standing
      = if s.session.lifecycle == .initialized && !n.is Catalogue.exit then some n else none)
    (hstep : s.step? h e = some (s.after x turn)) : (s.after x turn).Watchful := by
  have hnote : x.message.isNotification = true := by
    by_contra hrequest
    exact hs.ne_notified_of_request hx (by simpa using hrequest) n hstage
  have hlifecycle : t.lifecycle = s.session.lifecycle := hsame.keeps.lifecycle
  obtain ⟨hdocuments, hsystem, howes, howes', hfresh⟩ := Session.hear_owes (h := h) (s := t) n
  rw [hlifecycle, ← hheard] at howes howes'
  rw [← hturn] at hdocuments hsystem howes howes' hfresh
  have hbefore : s.session.Tallies none (openAfter s.heard) := by
    refine (hs.noted x hx hnote).of_owes ?_ ?_ <;> rw [hstage] <;> rfl
  -- What is heard now is the last word, and just what the notification goes on owing.
  have htable : openAfter (s.after x turn).heard
      = amend (openAfter s.heard)
        ((s.session.heard? x.standing).bind IncomingNotification.amendment?) := by
    rw [heard_after]
    cases s.session.heard? x.standing with
    | none => rw [Option.toList_none, List.append_nil]; rfl
    | some n => exact openAfter_concat _ n
  refine hs.after_noted hx hstep hnote hfresh ⟨?_, fun d hd => ?_⟩
  · rw [howes, htable, hdocuments, ← hbefore.documents, hsame]
    rfl
  · rw [hsystem, show t.buildSystem = s.session.buildSystem by rw [hsame]] at hd
    rw [howes', htable, ← hbefore.watched d hd]
    rfl

/-- **What a step of a message keeps.** -/
theorem Watchful.step (hs : s.Watchful) (hx : x ∈ s.handlings) {cancelled : Bool}
    (hturn : Session.step h cancelled x.standing s.session = some turn)
    (hstep : s.step? h e = some (s.after x turn)) : (s.after x turn).Watchful := by
  -- Two stages are special: at the first of a notification it is let in, and at another the session
  -- gets its build system. Everywhere else the tables are carried on.
  by_cases hnotified : ∃ n, x.standing.stage = .notified n
  · obtain ⟨n, hstage⟩ := hnotified
    obtain ⟨⟨touched, hcome⟩, hheard⟩ | ⟨⟨t, hsame, heq⟩, hheard⟩ :=
      Session.step_notified hstage hturn
    · exact hs.after_carries hx hstep hheard (Session.come_carries hcome)
    · exact hs.after_notified hx hsame hstage heq hheard hstep
  · have hnotified : ∀ n, x.standing.stage ≠ .notified n := fun n hn => hnotified ⟨n, hn⟩
    have hheard := Session.heard?_eq_none (s := s.session) hnotified
    obtain ⟨touched, -, -, hcome⟩ | ⟨t, hsame, hact⟩ := Session.step_cases hturn
    · exact hs.after_carries hx hstep hheard (Session.come_carries hcome)
    by_cases hpublishing : ∃ system, x.standing.stage = .publishing system
    · obtain ⟨system, hstage⟩ := hpublishing
      rw [hstage] at hact
      exact hs.after_published hx hsame hstage (Option.some.inj hact).symm hstep
    · have hpublishing : ∀ system, x.standing.stage ≠ .publishing system :=
        fun system hstage => hpublishing ⟨system, hstage⟩
      exact hs.after_carries hx hstep hheard
        ((Session.act_carries hnotified hpublishing hact).of_same hsame)

/-- **What every event keeps,** when notifications come one after the other. -/
theorem Watchful.step? (hs : s.Watchful) (hinTurn : s.inTurn allowed e = true)
    (hstep : s.step? h e = some s') : s'.Watchful := by
  cases e with
  | step number cancelled =>
    obtain ⟨x, turn, hx, -, hturn, rfl⟩ := step?_step hstep
    exact hs.step hx hturn hstep
  | outside disk manifest =>
    have hsound := hs.sound.step? hstep
    cases hstep
    exact ⟨hsound, hs.single, hs.requests, hs.fresh, hs.closed,
      fun x hx hnote => (hs.noted x hx hnote).of_same rfl rfl,
      fun hnone => (hs.quiet hnone).of_same rfl rfl⟩
  | arrive message =>
    have hsound := hs.sound.step? hstep
    have hsingle := hs.single.arrive hinTurn hstep
    cases hstep
    -- A new message owes nothing yet. A notification arrives only when none is being handled, so
    -- that the tables are quiet then.
    obtain ⟨howes, howes', hfresh⟩ := owes_stage message
    refine ⟨hsound, hsingle, ?_, ?_, hs.closed, ?_, ?_⟩
    · intro x hx hrequest
      rcases List.mem_append.mp hx with hx | hx
      · exact hs.requests x hx hrequest
      · obtain rfl := List.mem_singleton.mp hx
        exact howes'
    · intro x hx
      rcases List.mem_append.mp hx with hx | hx
      · exact hs.fresh x hx
      · obtain rfl := List.mem_singleton.mp hx
        exact hfresh
    · intro x hx hnote
      rcases List.mem_append.mp hx with hx | hx
      · exact hs.noted x hx hnote
      · obtain rfl := List.mem_singleton.mp hx
        exact (hs.quiet (alone_of_inTurn hinTurn hnote)).of_owes howes howes'
    · intro hnone
      exact hs.quiet fun x hx => hnone x (List.mem_append_left _ hx)

/-- **Both tables say what the notifications have said,** after every run. -/
theorem Watchful.run? {events : List (Event μ)} (hs : s.Watchful)
    (hrun : s.run? h (inTurn allowed) events = some s') : s'.Watchful :=
  run_induction hrun hs fun _ _ _ ht hinTurn hstep => ht.step? hinTurn hstep

end Scene

end FlagServer
