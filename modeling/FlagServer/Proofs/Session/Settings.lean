import FlagServer.Proofs.Session.Lines
import FlagServer.Proofs.Session.Tending

/-!
# The engine's settings are current

While a session is open and its databases can be read, the engine knows the settings that its open
documents have, whenever no notification is being handled: that is the first part of
`Scene.settings_current`. The others are about a change of a database: it brings the engine the new
settings of each open document once, and of nothing else, and it is handled to its end.

`Session.Delivers` follows the news of a changed database from stage to stage, and `Standing.toll`
counts the steps that are left to it.
-/

namespace FlagServer

variable {ε μ : Type}

/-! ## New settings -/

namespace News

/-- What news say of a file whose settings may have changed. -/
def change? (uri : Url) : News → Option (Option Settings)
  | settingsChanged file settings => if file = uri then some settings else none
  | _ => none

/-- The news are of settings that may have changed. -/
def isChange : News → Bool
  | settingsChanged _ _ => true
  | _ => false

end News

/-- The notification names a database among the files that changed. -/
def IncomingNotification.tellsOfDatabase (n : IncomingNotification) : Bool :=
  n.is Catalogue.didChangeWatchedFiles && DatabaseSystem.concerns (Session.eventsOf n.params)

/-- How many stages are left at most to a changed database, with so many open documents. -/
def Stage.toll (count : Nat) : Stage → Nat
  | .notified _ => 3 * count + 6
  | .finding _ => 3 * count + 5
  | .reviewing _ => 3 * count + 4
  | .reloading => 3 * count + 3
  | .refreshing _ => 3 * count + 2
  | .pushing rest => 3 * rest.length + 1
  | .resolving _ _ (.push rest) => 3 * rest.length + 3
  | .resolved _ _ (.push rest) => 3 * rest.length + 2
  | _ => 0

/-- How many steps are left at most: to come to what a stage uses is one, to go through it
another. -/
def Standing.toll (count : Nat) (standing : Standing) : Nat :=
  match standing.approach with
  | .before => 2 * standing.stage.toll count + 1
  | _ => 2 * standing.stage.toll count

/-- To come to what a stage uses costs one step at most. -/
theorem Standing.toll_le (count : Nat) (standing : Standing) :
    standing.toll count ≤ 2 * standing.stage.toll count + 1 := by
  unfold toll
  split <;> omega

/-- What a stage costs is left at least, wherever the message stands at it. -/
theorem Standing.le_toll (count : Nat) (standing : Standing) :
    2 * standing.stage.toll count ≤ standing.toll count := by
  unfold toll
  split <;> omega

namespace Session

variable {s s' : Session (ε × List News) μ} {h : Host ε μ} {cancelled : Bool}
  {turn : SessionTurn (ε × List News) μ} {base : List News}

/-- The news that bring files the settings that they have now. -/
def newsOf (s : Session ε μ) (files : Languages) : List News :=
  files.map fun entry => .settingsChanged entry.1 (s.settingsNow entry.1)

/-- How far the news of a database that changed have come, when `base` is what the engine had been
told before. -/
def Delivers (s : Session (ε × List News) μ) (base : List News) : Stage → Prop
  | .notified _ => s.diary = base
  | .finding (.reviewing events) => s.diary = base ∧ DatabaseSystem.concerns events = true
  | .reviewing events => s.diary = base ∧ DatabaseSystem.concerns events = true
  | .reloading => s.diary = base
  | .refreshing files => s.diary = base ∧ files = s.documents.keys
  | .pushing rest => ∃ done, s.documents = done ++ rest ∧ s.diary = base ++ s.newsOf done
  | .resolving uri language (.push rest) =>
    ∃ done, s.documents = done ++ (uri, language) :: rest ∧ s.diary = base ++ s.newsOf done
  | .resolved uri _ (.push rest) =>
    ∃ done language, s.documents = done ++ (uri, language) :: rest
      ∧ s.diary = base ++ s.newsOf done
  | _ => False

/-- The news have come, of every open document. -/
def Delivered (s : Session (ε × List News) μ) (base : List News) : Prop :=
  s.diary = base ++ s.newsOf s.documents

/-- News of a database have come, and nothing else: the same documents are open as before, and the
engine was told once of each of them what its settings are now. -/
structure Renewed (s s' : Session (ε × List News) μ) : Prop where
  documents : s'.documents = s.documents
  news : ∃ news, s'.diary = s.diary ++ news
    ∧ (∀ uri, news.filterMap (News.change? uri)
      = if (s.documents.get? uri).isSome then [s'.settingsNow uri] else [])
    ∧ ∀ item ∈ news, item.isChange = true

/-- The news of some files speak of each of them once, and of no other. -/
theorem filterMap_newsOf {files : Languages} (hnodup : files.keys.Nodup) (uri : Url) :
    (s.newsOf files).filterMap (News.change? uri)
      = if uri ∈ files.keys then [s.settingsNow uri] else [] := by
  induction files with
  | nil => rfl
  | cons entry files ih =>
    have hkeys : Languages.keys (entry :: files) = entry.1 :: Languages.keys files := rfl
    rw [hkeys] at hnodup ⊢
    obtain ⟨hnew, hnodup⟩ := List.nodup_cons.mp hnodup
    have hrest := ih hnodup
    have hnews : s.newsOf (entry :: files)
        = .settingsChanged entry.1 (s.settingsNow entry.1) :: s.newsOf files := rfl
    rw [hnews, List.filterMap_cons, News.change?]
    -- If the file is the first one, it does not occur again.
    by_cases huri : entry.1 = uri
    · subst huri
      rw [if_neg hnew] at hrest
      simp [hrest]
    · simp [huri, Ne.symm huri, hrest]

/-- News of every open document are news of each of them once. -/
theorem Delivered.renewed (hdelivered : s'.Delivered s.diary)
    (hdocuments : s'.documents = s.documents) (hnodup : s.documents.keys.Nodup) :
    Renewed s s' := by
  refine ⟨hdocuments, s'.newsOf s.documents, ?_, fun uri => ?_, ?_⟩
  · rw [← hdocuments]
    exact hdelivered
  · rw [filterMap_newsOf hnodup]
    simp only [Languages.isSome_get?]
  · intro item hitem
    obtain ⟨entry, -, rfl⟩ := List.mem_map.mp hitem
    rfl

theorem Unmoved.newsOf (hunmoved : Unmoved s s') (files : Languages) :
    s'.newsOf files = s.newsOf files := by
  simp only [Session.newsOf, hunmoved.settingsNow]

/-- Where neither the settings nor the diary has moved, the news have come as far as before. -/
theorem Unmoved.delivers (hunmoved : Unmoved s s') {stage : Stage}
    (hdelivers : s.Delivers base stage) : s'.Delivers base stage := by
  unfold Delivers at hdelivers ⊢
  simp only [hunmoved.documents, hunmoved.diary, hunmoved.newsOf]
  exact hdelivers

/-- What a stage of a changed database does: the documents stay, and the news go on or are there. -/
structure Brings (base : List News) (stage : Stage) (s : Session (ε × List News) μ)
    (turn : SessionTurn (ε × List News) μ) : Prop where
  documents : turn.state.documents = s.documents
  loads : s.fares .reloading = true → turn.state.fares .reloading = true
  more : ∀ standing, turn.progress = .more standing → turn.state.Delivers base standing.stage
    ∧ standing.stage.toll s.documents.length < stage.toll s.documents.length
  done : ∀ outcome, turn.progress = .done outcome → turn.state.Delivered base

/-- To go on with the news as far as the next stage says, and fewer stages left. -/
theorem brings_goOn {stage next : Stage} (hdocuments : s'.documents = s.documents)
    (hloads : s.fares .reloading = true → s'.fares .reloading = true)
    (hnext : s'.Delivers base next)
    (htoll : next.toll s.documents.length < stage.toll s.documents.length) :
    Brings base stage s (s'.goOn next) where
  documents := hdocuments
  loads := hloads
  more standing hprogress := by
    cases hprogress
    exact ⟨hnext, htoll⟩
  done _ hprogress := by cases hprogress

/-- **Every stage of a changed database** brings the engine the settings of one more document, or
leaves it as it is. -/
theorem act_delivering {d : DatabaseSystem} {stage : Stage}
    (hsystem : s.buildSystem = some (.database d)) (hready : d.Ready)
    (hnodup : s.documents.keys.Nodup) (hsettled : s.Settled stage.errand)
    (hpart : stage.part = .working) (hdelivers : s.Delivers base stage)
    (hact : act h.noting cancelled stage s = some turn) : Brings base stage s turn := by
  cases stage
  case finding next =>
    cases hact
    cases next
    case reviewing events => exact brings_goOn rfl id hdelivers (Nat.lt_succ_self _)
    all_goals cases hdelivers
  case reviewing events =>
    simp only [act, review, hsystem, hdelivers.2, hready.root, Bool.not_true, Bool.false_eq_true,
      if_false, if_true, Option.some.injEq] at hact
    subst hact
    exact brings_goOn rfl id hdelivers.1 (Nat.lt_succ_self _)
  case reloading =>
    -- The notice is of all watched files, and these are the open ones.
    have hnotice : (d.reload s.disk).notice = some ⟨listener, d.watched.keys⟩ := by
      have hlistener : (d.reload s.disk).listener = some listener := hready.listener
      rw [DatabaseSystem.notice, hlistener]
      rfl
    simp only [act, reload, hsystem, hnotice, Option.some.injEq] at hact
    subst hact
    refine brings_goOn rfl (fun hloads => ?_) ⟨hdelivers, ?_⟩ (Nat.lt_succ_self _)
    · simp only [fares, hsystem] at hloads
      exact hloads
    · exact congrArg Languages.keys ((watched_eq hsystem).symm.trans hsettled.1.symm)
  case refreshing files =>
    cases hact
    -- The files of the notice are all open ones, so all of them are pushed.
    obtain ⟨hdiary, rfl⟩ := hdelivers
    rw [openAmong_keys hnodup]
    refine brings_goOn rfl id ⟨[], rfl, ?_⟩ (Nat.lt_succ_self _)
    rw [hdiary]
    exact (List.append_nil _).symm
  case pushing documents =>
    obtain ⟨done, hdocuments, hdiary⟩ := hdelivers
    cases documents with
    | nil =>
      cases hact
      refine ⟨rfl, id, (fun _ hprogress => by cases hprogress), fun _ _ => ?_⟩
      rw [List.append_nil] at hdocuments
      subst hdocuments
      exact hdiary
    | cons entry documents =>
      cases hact
      refine brings_goOn rfl id ⟨done, hdocuments, hdiary⟩ ?_
      simp only [Stage.toll, List.length_cons]
      omega
  case resolving uri language purpose =>
    cases purpose with
    | answer request => cases hdelivers
    | opening document => cases hdelivers
    | push rest =>
      obtain ⟨done, hdocuments, hdiary⟩ := hdelivers
      simp only [act, resolve, hsystem, DatabaseSystem.ask_eq hready.database,
        Option.some.injEq] at hact
      subst hact
      exact brings_goOn rfl id ⟨done, language, hdocuments, hdiary⟩ (Nat.lt_succ_self _)
  case resolved uri settings purpose =>
    cases purpose with
    | answer request => cases hdelivers
    | opening document => cases hdelivers
    | push rest =>
      obtain ⟨done, language, hdocuments, hdiary⟩ := hdelivers
      -- The settings that are handed over are those of now: what is left to do says so.
      obtain ⟨-, rfl, -⟩ := hsettled
      cases hact
      refine brings_goOn rfl id ⟨done ++ [(uri, language)], ?_, ?_⟩ (Nat.lt_succ_self _)
      · rw [List.append_assoc]
        exact hdocuments
      · rw [newsOf, List.map_append, ← List.append_assoc]
        exact congrArg (· ++ _) hdiary
  case notified => cases hpart
  all_goals cases hdelivers

/-- A notification that is of one method is of no other. -/
theorem is_eq_false {n : IncomingNotification} {m m' : Method} (his : n.is m = true)
    (hne : m.name ≠ m'.name) : n.is m' = false := by
  simp only [IncomingNotification.is, Bool.and_eq_true] at his
  simp [IncomingNotification.is, eq_of_beq his.1, hne]

/-- The news of a database that changed begin in an open session; before, nothing is open. -/
theorem hear_delivering {n : IncomingNotification} (htells : n.tellsOfDatabase = true)
    (hdiary : s.diary = base)
    (hclosed : s.lifecycle ≠ .initialized → s.documents = []) :
    Brings base (.notified n) s (s.hear h.noting n) := by
  obtain ⟨hwatched, hconcerns⟩ := Bool.and_eq_true_iff.mp htells
  -- The methods are told apart by their names, so every other branch is passed over.
  have hother : ∀ {m : Method}, m.name ≠ Catalogue.didChangeWatchedFiles.name → ¬ n.is m = true :=
    fun hne => Bool.eq_false_iff.mp (is_eq_false hwatched (Ne.symm hne))
  rw [hear, if_neg (hother (by decide))]
  split
  · rw [attend, if_neg (hother (by decide)), if_neg (hother (by decide)),
      if_neg (hother (by decide)), if_neg (hother (by decide)), if_pos hwatched]
    exact brings_goOn rfl id ⟨hdiary, hconcerns⟩ (Nat.lt_succ_self _)
  · case isFalse hnot =>
    refine ⟨rfl, id, nofun, fun _ _ => ?_⟩
    have hdocuments : s.documents = [] := hclosed (by simpa using hnot)
    show s.diary = base ++ s.newsOf s.documents
    rw [hdocuments, hdiary]
    exact (List.append_nil _).symm

end Session

namespace Scene

variable {s s' : Scene (ε × List News) μ} {h : Host ε μ} {e : Event μ} {x y : Handling}
  {turn : Session.SessionTurn (ε × List News) μ} {base : List News} {documents : Languages}

/-- The message with this number brings the engine the news of a database that changed, while these
documents are open. -/
structure Bringing (n : IncomingNotification) (base : List News) (documents : Languages)
    (number : Nat) (s : Scene (ε × List News) μ) : Prop where
  tended : s.Tended
  telling : n.tellsOfDatabase = true
  arrived : s.arrived[number]? = some (.notification n)
  documents : ∀ x ∈ s.handlings, x.number = number → s.session.documents = documents
  delivers : ∀ x ∈ s.handlings, x.number = number → s.session.Delivers base x.standing.stage

variable {n : IncomingNotification} {number : Nat}

/-- The message with this number is the one that came. -/
theorem Bringing.message (hs : s.Bringing n base documents number) (hx : x ∈ s.handlings)
    (hnumber : x.number = number) : x.message = .notification n := by
  have harrived := hs.tended.sound.numbered.handlings x hx
  rw [hnumber] at harrived
  exact Option.some.inj (harrived.symm.trans hs.arrived)

/-- What a step of the message that brings the news does. -/
structure GoesFurther (base : List News) (documents : Languages) (s : Scene (ε × List News) μ)
    (x : Handling) (turn : Session.SessionTurn (ε × List News) μ) : Prop where
  stays : turn.state.documents = documents
  loads : s.session.fares .reloading = true → turn.state.fares .reloading = true
  more : ∀ standing, turn.progress = .more standing → turn.state.Delivers base standing.stage
    ∧ standing.toll documents.length < x.standing.toll documents.length
  done : ∀ outcome, turn.progress = .done outcome → turn.state.Delivered base

/-- A step through a stage. -/
theorem GoesFurther.of_brings {t : Session (ε × List News) μ}
    (hsame : Session.SameButLines s.session t) (hdocuments : s.session.documents = documents)
    (hbrings : Session.Brings base x.standing.stage t turn) :
    GoesFurther base documents s x turn := by
  have hdocuments' : t.documents = documents := by
    rw [hsame]
    exact hdocuments
  refine ⟨hbrings.documents.trans hdocuments', fun hloads => ?_, fun standing hprogress => ?_,
    hbrings.done⟩
  · refine hbrings.loads ?_
    rw [hsame]
    exact hloads
  · obtain ⟨hdelivers, htoll⟩ := hbrings.more standing hprogress
    rw [hdocuments'] at htoll
    refine ⟨hdelivers, ?_⟩
    -- A stage less is two steps less, of which one at most was taken already.
    have hle := standing.toll_le documents.length
    have hge := x.standing.le_toll documents.length
    omega

/-- **A step of the message that brings the news.** -/
theorem Bringing.own_step (hs : s.Bringing n base documents number)
    (hx : x ∈ s.handlings) (hnumber : x.number = number)
    (hfares : s.session.fares x.standing.stage = true) {cancelled : Bool}
    (hturn : Session.step h.noting cancelled x.standing s.session = some turn) :
    GoesFurther base documents s x turn := by
  have ht := hs.tended
  have hmessage := hs.message hx hnumber
  have hnote : x.message.isNotification = true := by rw [hmessage]; rfl
  have hdelivers := hs.delivers x hx hnumber
  have hdocuments := hs.documents x hx hnumber
  obtain ⟨touched, -, hbefore, hcome⟩ | ⟨t, hsame, hact⟩ := Session.step_cases hturn
  · obtain ⟨hstate, approach, hprogress, happroach⟩ := Session.come_cases hcome
    have hunmoved : Session.Unmoved s.session turn.state := by
      rw [hstate]
      exact .of_eq ht.ready rfl rfl rfl
    -- The message only came nearer: nothing has moved, and one step less is left.
    refine ⟨hunmoved.documents.trans hdocuments, ?_, fun standing hp => ?_, fun outcome hp => ?_⟩
    · rw [hstate]
      exact id
    · cases hprogress.symm.trans hp
      refine ⟨hunmoved.delivers hdelivers, ?_⟩
      simp only [Standing.toll, hbefore]
      cases approach with
      | before => exact absurd rfl happroach
      | inLine | inHand => simp
    · cases hprogress.symm.trans hp
  have hunmoved := hsame.unmoved ht.ready
  refine .of_brings hsame hdocuments ?_
  cases hpart : x.standing.stage.part with
  | arrival =>
    have hstage := ht.sound.stage_of_arrival hx hpart
    rw [hstage, hmessage] at hact hdelivers ⊢
    cases hact
    refine Session.hear_delivering hs.telling (hunmoved.diary.trans hdelivers) ?_
    -- Nobody has taken leave, so that a session that is not open has not been open.
    intro hclosed
    rw [hunmoved.documents]
    refine (ht.closed ?_).1
    have hlasting := ht.lasting
    rw [hsame.keeps.lifecycle] at hclosed
    cases hlifecycle : s.session.lifecycle with
    | uninitialized => rfl
    | initializing => rfl
    | initialized => exact absurd hlifecycle hclosed
    | shutDown => exact absurd hlifecycle hlasting
  | opening =>
    have hopening := (ht.sound.living.fits x hx).opening hpart
    have harrival := ht.sound.arrival_of_notification hx hnote (by rw [hopening]; rfl)
    cases hpart.symm.trans harrival
  | leaving =>
    rw [(ht.fine x hx).leaving hpart] at hfares
    cases hfares
  | working =>
    obtain ⟨d, hdatabase, hready⟩ :=
      ht.exists_database ((ht.sound.living.fits x hx).working hpart)
    have hsystem : t.buildSystem = some (.database d) := by
      rw [hsame]
      exact hdatabase
    exact Session.act_delivering hsystem hready (hunmoved.documents ▸ ht.nodup)
      (hunmoved.settled (ht.settled x hx hnote)) hpart (hunmoved.delivers hdelivers) hact

/-- A step of another message, which can only be a request. -/
theorem Bringing.other_step (hs : s.Bringing n base documents number) (hx : x ∈ s.handlings)
    (hnumber : x.number = number) (hy : y ∈ s.handlings) (hother : x.number ≠ y.number)
    (hfares : s.session.fares y.standing.stage = true) {cancelled : Bool}
    (hturn : Session.step h.noting cancelled y.standing s.session = some turn) :
    turn.state.documents = documents ∧ turn.state.Delivers base x.standing.stage := by
  have ht := hs.tended
  have hmessage := hs.message hx hnumber
  have hnote : x.message.isNotification = true := by rw [hmessage]; rfl
  have hdelivers := hs.delivers x hx hnumber
  have hrequest : y.message.isNotification = false :=
    Bool.eq_false_iff.mpr fun hnote' => hother (ht.single x hx y hy hnote hnote')
  -- A request tells the engine nothing, and moves the settings only while nothing is open.
  have hasks := ht.asks hy hrequest hfares hturn
  refine ⟨hasks.documents.trans (hs.documents x hx hnumber), ?_⟩
  obtain hunmoved | ⟨hopened, -, -⟩ := ht.unmoved_of_asks hasks
  · exact hunmoved.delivers hdelivers
  · have hpart := ht.sound.arrival_of_notification hx hnote hopened
    rw [ht.sound.stage_of_arrival hx hpart, hmessage] at hdelivers ⊢
    exact hasks.diary.trans hdelivers

/-- **An event takes the news of a changed database further,** or leaves them where they are. -/
theorem Bringing.step? (hs : s.Bringing n base documents number)
    (hfares : s.faresWell e = true) (hstep : s.step? h.noting e = some s') :
    s'.Bringing n base documents number := by
  have htended := hs.tended.step? hfares hstep
  cases e with
  | arrive message =>
    cases hstep
    have hbelow : number < s.arrived.length := (List.getElem?_eq_some_iff.mp hs.arrived).1
    have hold : ∀ x ∈ s.handlings ++ [⟨s.arrived.length, message, message.stage.standing⟩],
        x.number = number → x ∈ s.handlings := by
      intro x hx hnumber
      rcases List.mem_append.mp hx with hx | hx
      · exact hx
      · obtain rfl := List.mem_singleton.mp hx
        exact absurd hnumber.symm (Nat.ne_of_lt hbelow)
    refine ⟨htended, hs.telling, ?_, ?_, ?_⟩
    · rw [List.getElem?_append_left hbelow, hs.arrived]
    · exact fun x hx hnumber => hs.documents x (hold x hx hnumber) hnumber
    · exact fun x hx hnumber => hs.delivers x (hold x hx hnumber) hnumber
  | outside disk manifest =>
    cases hstep
    have hunmoved : Session.Unmoved s.session { s.session with disk, manifest } :=
      .of_eq hs.tended.ready rfl rfl rfl
    exact ⟨htended, hs.telling, hs.arrived, hs.documents,
      fun x hx hnumber => hunmoved.delivers (hs.delivers x hx hnumber)⟩
  | step number' cancelled =>
    obtain ⟨y, turn, hy, hfind, hturn, rfl⟩ := step?_step hstep
    have hfares : s.session.fares y.standing.stage = true := by
      simpa [faresWell, inTurn, hfind] using hfares
    refine ⟨htended, hs.telling, hs.arrived, ?_, ?_⟩
    -- Either the step is one of another message, or it is one of the message that brings the
    -- settings.
    all_goals
      intro x hx hnumber
      obtain ⟨hx, hother⟩ | ⟨standing, hprogress, rfl⟩ := hs.tended.sound.numbered.mem_after hy hx
    · exact (hs.other_step hx hnumber hy hother hfares hturn).1
    · exact (hs.own_step hy hnumber hfares hturn).stays
    · exact (hs.other_step hx hnumber hy hother hfares hturn).2
    · exact ((hs.own_step hy hnumber hfares hturn).more standing hprogress).1

/-! ### The end -/

/-- At every stage of a changed database there is something to do. -/
theorem exists_act {session : Session (ε × List News) μ} {stage : Stage} {cancelled : Bool}
    (hdelivers : session.Delivers base stage) :
    ∃ turn, Session.act h.noting cancelled stage session = some turn := by
  cases stage
  case pushing documents => cases documents <;> exact ⟨_, rfl⟩
  case finding | notified | reviewing | reloading | refreshing | resolving | resolved =>
    exact ⟨_, rfl⟩
  all_goals cases hdelivers

/-- At no stage of a changed database there is anything to come to but resources. -/
theorem touch_delivering {session : Session (ε × List News) μ} {stage : Stage} {touched : Touch}
    (hdelivers : session.Delivers base stage)
    (hdatabase : stage.part = .working → session.HasDatabase)
    (htouch : Session.touch h.noting session stage = some touched) :
    ∃ r use, touched = .resource r use := by
  cases stage
  case notified => exact Session.touch_arrival rfl htouch
  case finding | refreshing => exact ⟨_, _, (Option.some.inj htouch).symm⟩
  case reviewing events =>
    obtain ⟨d, hsystem⟩ := hdatabase rfl
    simp only [Session.touch, hdelivers.2, Session.insideDatabase, hsystem, if_true] at htouch
    exact ⟨_, _, (Option.some.inj htouch).symm⟩
  case resolving uri language purpose =>
    obtain ⟨d, hsystem⟩ := hdatabase rfl
    simp only [Session.touch, hsystem] at htouch
    obtain ⟨path, -, rfl⟩ := Option.map_eq_some_iff.mp htouch
    exact ⟨_, _, rfl⟩
  case reloading | pushing | resolved => cases htouch
  all_goals cases hdelivers

/-- Of a changed database the disk is read at one stage. -/
theorem eq_reloading_of_isKeeping {session : Session (ε × List News) μ} {stage : Stage}
    (hdelivers : session.Delivers base stage) (hkeeping : stage.isKeeping = true) :
    stage = .reloading := by
  cases stage
  case reloading => rfl
  case finding next => cases next <;> first | exact False.elim hdelivers | cases hkeeping
  all_goals first | exact False.elim hdelivers | cases hkeeping

/-- While nothing else is being handled, the message that brings the news goes on. -/
theorem Bringing.exists_step (hs : s.Bringing n base documents number) (hlined : s.Lined)
    (hx : x ∈ s.handlings) (hnumber : x.number = number) (halone : ∀ y ∈ s.handlings, y = x) :
    ∃ turn, Session.step h.noting false x.standing s.session = some turn := by
  have hdelivers := hs.delivers x hx hnumber
  -- Whatever the lines are, there is something to do at the stage.
  have hact : ∀ {t : Session (ε × List News) μ}, Session.SameButLines s.session t →
      ∃ turn, Session.act h.noting false x.standing.stage t = some turn := fun hsame =>
    exists_act ((hsame.unmoved hs.tended.ready).delivers hdelivers)
  have hdatabase : x.standing.stage.part = .working → s.session.HasDatabase := by
    intro hpart
    obtain ⟨d, hsystem, -⟩ :=
      hs.tended.exists_database ((hs.tended.sound.living.fits x hx).working hpart)
    exact ⟨d, hsystem⟩
  simp only [Session.step]
  split
  · split
    · case h_1 touched htouch =>
      obtain ⟨r, use, rfl⟩ := touch_delivering hdelivers hdatabase htouch
      simp only [Session.come]
      split <;> exact ⟨_, rfl⟩
    · exact hact (.refl _)
  · case h_2 r use place happroach =>
    -- Where the disk is read nobody stands in line, so the message waits elsewhere, and alone.
    have hkeeping : x.standing.stage.isKeeping = false := by
      refine Bool.eq_false_iff.mpr fun hkeeping => ?_
      have hslow : x.standing.isSlow = true := by
        rw [Standing.isSlow, eq_reloading_of_isKeeping hdelivers hkeeping]
        rfl
      cases happroach.symm.trans (hlined.slow x hx hslow)
    rw [if_pos (hlined.isTurn_of_alone halone happroach hkeeping)]
    exact hact (Session.sameButLines_withLine _ _ _)
  · exact hact (Session.sameButLines_withLine _ _ _)
  · exact hact (.refl _)

/-- Nothing stands in the way of a stage of a changed database, if the database can be read. -/
theorem fares_of_delivers {session : Session (ε × List News) μ} {stage : Stage}
    (hdelivers : session.Delivers base stage) (hloads : session.fares .reloading = true) :
    session.fares stage = true := by
  cases stage
  case reloading => exact hloads
  all_goals first | rfl | cases hdelivers

/-- **The message that brings the news comes to its end,** if nothing else is being handled and the
database can be read. -/
theorem Bringing.finishes (hs : s.Bringing n base documents number) (hlined : s.Lined)
    (hx : s.handlings = [x]) (hnumber : x.number = number)
    (hloads : s.session.fares .reloading = true) :
    ∃ count s', s.run? h.noting faresWell (List.replicate count (.step number false)) = some s'
      ∧ s'.handlings = [] := by
  -- The induction is on the steps that are left, each of which makes them fewer.
  generalize htoll : x.standing.toll documents.length = toll
  induction toll using Nat.strongRecOn generalizing s x with
  | _ toll ih =>
    have hmem : x ∈ s.handlings := by simp [hx]
    have hfares := fares_of_delivers (hs.delivers x hmem hnumber) hloads
    obtain ⟨turn, hturn⟩ := hs.exists_step (h := h) hlined hmem hnumber (by simp [hx])
    have hfind : s.find? number = some x := by simp [find?, hx, hnumber]
    have hstep : s.step? h.noting (.step number false) = some (s.after x turn) := by
      simp [Scene.step?, hfind, hturn]
    have hallowed : s.faresWell (.step number false : Event μ) = true := by
      simp [faresWell, inTurn, hfind, hfares]
    have hgoes := hs.own_step hmem hnumber hfares hturn
    cases hprogress : turn.progress with
    | done outcome =>
      refine ⟨1, s.after x turn, ?_, ?_⟩
      · simp [run?, hallowed, hstep]
      · simp [after, advance, hprogress, hx]
    | more standing =>
      obtain ⟨count, s', hrun, hnone⟩ := ih _ (htoll ▸ (hgoes.more standing hprogress).2)
        (hs.step? hallowed hstep) (hlined.step? hs.tended.sound hstep)
        (x := { x with standing }) (by simp [after, advance, hprogress, hx]) hnumber
        (hgoes.loads hloads) rfl
      refine ⟨count + 1, s', ?_, hnone⟩
      rw [List.replicate_succ, run?, if_pos hallowed, hstep]
      exact hrun

/-- A message that has come and brings the news. -/
theorem Tended.bringing (hs : s.Tended) (htells : n.tellsOfDatabase = true)
    (hfares : s.faresWell (.arrive (.notification n) : Event μ) = true)
    (hstep : s.step? h.noting (.arrive (.notification n)) = some s') :
    s'.Bringing n s.session.diary s.session.documents s.arrived.length := by
  have htended := hs.step? hfares hstep
  cases hstep
  refine ⟨htended, htells, List.getElem?_concat_length, fun _ _ _ => rfl, ?_⟩
  intro x hx hnumber
  rcases List.mem_append.mp hx with hx | hx
  · exact absurd hnumber (Nat.ne_of_lt (hs.sound.numbered.lt_length hx))
  · obtain rfl := List.mem_singleton.mp hx
    rfl

/-- A message that has been handled brought the news. -/
theorem Bringing.delivered (hs : s.Bringing n base documents number) {cancelled : Bool}
    (hfares : s.faresWell (.step number cancelled : Event μ) = true)
    (hstep : s.step? h.noting (.step number cancelled) = some s')
    (hgone : s'.find? number = none) :
    s'.session.documents = documents ∧ s'.session.Delivered base := by
  obtain ⟨x, turn, hx, hfind, hturn, rfl⟩ := step?_step hstep
  have hfares : s.session.fares x.standing.stage = true := by
    simpa [faresWell, inTurn, hfind] using hfares
  have hnumber : x.number = number := by
    simpa using List.find?_some hfind
  have hgoes := hs.own_step hx hnumber hfares hturn
  cases hprogress : turn.progress with
  | done outcome => exact ⟨hgoes.stays, hgoes.done outcome hprogress⟩
  | more standing =>
    -- Had the message gone on, it would be handled still.
    have hmore := mem_after_of_more hx hprogress
    exact absurd hnumber (by simpa using List.find?_eq_none.mp hgone _ hmore)

/-! ## The result -/

/-- What holds while the message that brings the news is under way. -/
theorem Tended.run?_bringing {events : List (Event μ)} (hs : s.Tended)
    (htells : n.tellsOfDatabase = true)
    (hrun : s.run? h.noting faresWell (.arrive (.notification n) :: events) = some s') :
    s'.Bringing n s.session.diary s.session.documents s.arrived.length := by
  rw [Scene.run?, Option.ite_none_right_eq_some] at hrun
  obtain ⟨hfares, hrun⟩ := hrun
  obtain ⟨t, hstep, hrun⟩ := Option.bind_eq_some_iff.mp hrun
  exact run_induction hrun (hs.bringing htells hfares hstep)
    fun _ _ _ ht hfares hstep => ht.step? hfares hstep

/-- **The settings of which the engine knows are those of now,** as far as the session has come and
however it goes on. -/
structure Current (h : Host ε μ) (s : Scene (ε × List News) μ) : Prop where
  /-- While a session is open and no notification is being handled, the engine has last been told
  of every open document what its database says of it now. -/
  known : s.session.lifecycle = .initialized →
    (∀ x ∈ s.handlings, x.message.isNotification = false) →
    ∃ d, s.session.buildSystem = some (.database d)
      ∧ ∀ uri, (s.session.documents.get? uri).isSome = true →
        News.told? s.session.diary uri = some (d.settings s.session.disk uri).1
  /-- When a notification that names a database has been handled, the engine has been told once of
  every open document what its settings are now, and of nothing else. -/
  renewed : ∀ {n events cancelled s'}, n.tellsOfDatabase = true →
    s.run? h.noting faresWell (.arrive (.notification n) :: (events
      ++ [.step s.arrived.length cancelled])) = some s' →
    s'.find? s.arrived.length = none → Session.Renewed s.session s'.session
  /-- Such a notification is handled to its end, if nothing else keeps the session busy and the
  database can be read. -/
  handled : ∀ {n events t x}, n.tellsOfDatabase = true →
    s.run? h.noting faresWell (.arrive (.notification n) :: events) = some t →
    t.handlings = [x] → x.number = s.arrived.length → t.session.fares .reloading = true →
    ∃ count s', t.run? h.noting faresWell (List.replicate count (.step s.arrived.length false))
      = some s' ∧ s'.handlings = []

/-- **The engine's settings are current after every run** in which a database can be read when it
is needed and nobody has taken leave. -/
theorem settings_current {engine : ε × List News} {manifest : μ} {disk : FileSystem}
    {events : List (Event μ)}
    (hrun : (start engine manifest disk).run? h.noting faresWell events = some s) :
    Current h s := by
  have hs := (Tended.start engine manifest disk).run? hrun
  have hlined := (Lined.start engine manifest disk).run? (.start _ _ _) hrun
  constructor
  · exact hs.known
  · intro n events cancelled s' htells hrun hgone
    rw [← List.cons_append] at hrun
    obtain ⟨t, hrun, hfares, hstep⟩ := run?_concat.mp hrun
    obtain ⟨hdocuments, hdelivered⟩ :=
      (hs.run?_bringing htells hrun).delivered hfares hstep hgone
    exact hdelivered.renewed hdocuments hs.nodup
  · intro n events t x htells hrun hx hnumber hloads
    exact (hs.run?_bringing htells hrun).finishes (hlined.run? hs.sound hrun) hx hnumber hloads

/-- A session over the database in a directory. -/
def plain : Host Unit Unit :=
  ⟨.silent, none, { databasePath := some (.ofString "/p") }⟩

/-- A disk with these flags in that directory. -/
def flagsOn (flags : String) : FileSystem :=
  { files := [(["p", Database.flagsName].map Text.Utf8.encodeString,
      Text.Utf8.encodeString flags)] }

/-- A file in that directory. -/
def fileNamed (name : String) : Url :=
  ⟨"file", some {}, .segments ["p", name], none, none⟩

/-- Two documents are opened in a session and one of them is closed, while a question is being
answered; then the flags change on disk. -/
def settling : List (Event Unit) :=
  let opening := .arrive (.request ⟨.number 1, "initialize", "InitializeParams", .null⟩)
  let question := .arrive (.request ⟨.number 2, "textDocument/hover", "HoverParams",
    .record [("textDocument", .record [("uri", .uri (fileNamed "a.c"))])]⟩)
  let opened (name : String) := .arrive (.notification ⟨"textDocument/didOpen",
    "DidOpenTextDocumentParams", .record [("textDocument", .record [
      ("uri", .uri (fileNamed name)), ("languageId", .text "c"), ("version", .int 1),
      ("text", .text "")])]⟩)
  let closed (name : String) := .arrive (.notification ⟨"textDocument/didClose",
    "DidCloseTextDocumentParams", .record [("textDocument", .record [
      ("uri", .uri (fileNamed name))])]⟩)
  let steps (number count : Nat) : List (Event Unit) := List.replicate count (.step number false)
  opening :: steps 0 10 ++ [question, opened "a.c"] ++ steps 1 5 ++ steps 2 11
    ++ [opened "b.c"] ++ steps 3 8 ++ steps 1 6 ++ steps 3 3 ++ [closed "b.c"] ++ steps 4 9
    ++ [.outside (flagsOn "-Wextra") ()]

/-- The notification that the flags have changed. -/
def renewal : IncomingNotification :=
  ⟨"workspace/didChangeWatchedFiles", "DidChangeWatchedFilesParams", .record [("changes", .list [
    .record [("uri", .uri (fileNamed Database.flagsName)), ("type", .int 2)]])]⟩

/-- The engine learns of the new flags of the document that is open, and of nothing else. -/
theorem settings_current_renewal : ∃ s s' : Scene (Unit × List News) Unit,
    (start ((), []) () (flagsOn "-Wall")).run? plain.noting faresWell settling = some s
      ∧ Current plain s
      ∧ s.run? plain.noting faresWell (.arrive (.notification renewal)
        :: (List.replicate 13 (.step 5 false) ++ [.step 5 false])) = some s'
      ∧ Session.Renewed s.session s'.session
      ∧ News.told? s'.session.diary (fileNamed "a.c")
        = some (some ⟨["-Wextra", "/p/a.c"], some (.ofString "/p")⟩) := by
  have hrun : ((start ((), []) () (flagsOn "-Wall")).run? plain.noting faresWell settling).any
      (fun s => s.arrived.length == 5 && (s.run? plain.noting faresWell (.arrive
        (.notification renewal) :: (List.replicate 13 (.step 5 false) ++ [.step 5 false]))).any
          fun s' => (s'.find? 5).isNone && News.told? s'.session.diary (fileNamed "a.c")
            == some (some ⟨["-Wextra", "/p/a.c"], some (.ofString "/p")⟩)) = true := by
    decide +kernel
  obtain ⟨s, hs, hrun⟩ := (Option.any_eq_true _ _).mp hrun
  obtain ⟨hcount, hrun⟩ := Bool.and_eq_true_iff.mp hrun
  obtain ⟨s', hs', hrun⟩ := (Option.any_eq_true _ _).mp hrun
  obtain ⟨hgone, htold⟩ := Bool.and_eq_true_iff.mp hrun
  have hcurrent := settings_current hs
  refine ⟨s, s', hs, hcurrent, hs', ?_, eq_of_beq htold⟩
  rw [← eq_of_beq hcount] at hs' hgone
  exact hcurrent.renewed (by decide +kernel) hs' (Option.isNone_iff_eq_none.mp hgone)

end Scene

end FlagServer
