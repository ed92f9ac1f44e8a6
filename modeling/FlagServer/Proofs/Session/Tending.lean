import FlagServer.Proofs.Session.Diary
import FlagServer.Proofs.Session.Lifecycle

/-!
# Documents, database and engine fit together

Three things have to fit together for the engine to know the settings of its documents, and each of
them changes at a step of its own: the documents that are open in the session, the files that the
build system watches, and the database. `Scene.Tended` says that they do, but for what the
notification that is being handled still has to do, and `Scene.Tended.step?` that they always will.

What keeps them together is that notifications are handled one after the other, whereas questions,
of which any number may be under way, change none of them. `Scene.faresWell` says what is asked for:
that a notification comes when the last one has been handled, that a database is there where one is
looked for, and that nobody takes leave.
-/

namespace FlagServer

variable {ε μ : Type}

/-! ## What is assumed -/

/-- At this stage nobody takes leave, and a database is there where one is looked for. -/
def Session.fares (s : Session ε μ) : Stage → Bool
  | .announcingEnd => false
  | .attaching (.database d) => d.database.isSome
  | .attaching _ => false
  | .reloading =>
    match s.buildSystem with
    | some (.database d) => (d.root.bind (Database.loadOrNone s.disk)).isSome
    | _ => true
  | _ => true

/-- A session over a database fares well: a notification comes when the last one has been handled,
the database can be read when the session opens and whenever it is read again, and nobody takes
leave. -/
def Scene.faresWell (s : Scene ε μ) (e : Event μ) : Bool :=
  s.inTurn Session.fares e

/-! ## Opening -/

/-- A build system on its way into the session is a database, and it watches nothing yet. -/
def Stage.Provides : Stage → Prop
  | .attaching system =>
    ∀ d, system = .database d → d.watched = [] ∧ (d.database.isSome = true → d.root.isSome = true)
  | .publishing system => ∃ d, system = .database d ∧ d.watched = [] ∧ d.Ready
  | .finding next => next.Provides
  | _ => True

/-- Only who opens the session has a build system on its way. -/
theorem Stage.provides_of_part {stage : Stage} (hpart : stage.part ≠ .opening) :
    stage.Provides := by
  induction stage with
  | finding next ih => exact ih hpart
  | attaching => exact absurd rfl hpart
  | publishing => exact absurd rfl hpart
  | _ => trivial

/-- Whatever build system is chosen for a workspace watches nothing yet, and a database that was
loaded knows its root. -/
theorem provides_forWorkspace (disk : FileSystem) (preference : Preference) (root : Option Path)
    (hasManifest : Bool) :
    (Stage.attaching (.forWorkspace disk preference root hasManifest)).Provides := by
  have hcreate : (Stage.attaching (.database (.create disk root))).Provides := by
    intro d heq
    cases heq
    cases root with
    | none => exact ⟨rfl, nofun⟩
    | some path => exact ⟨rfl, fun _ => rfl⟩
  cases preference with
  | none => exact nofun
  | compilationDatabase => exact hcreate
  | auto =>
    simp only [BuildSystem.forWorkspace]
    split
    · exact nofun
    · exact hcreate

/-- A message at a stage that it may stand at, when nobody takes leave: a notification at one of its
own, a question at one of its own. -/
structure Handling.Fine (x : Handling) : Prop where
  leaving : x.standing.stage.part = .leaving → x.standing.stage = .announcingEnd
  noting : x.standing.stage.part = .working → x.message.isNotification = true →
    x.standing.stage.isNoting = true
  asking : x.standing.stage.part = .working → x.message.isNotification = false →
    x.standing.stage.isAsking = true
  provides : x.standing.stage.Provides

namespace Handling

variable {x : Handling}

theorem fine_of_arrival (hpart : x.standing.stage.part = .arrival) : x.Fine where
  leaving h := by cases hpart.symm.trans h
  noting h := by cases hpart.symm.trans h
  asking h := by cases hpart.symm.trans h
  provides := Stage.provides_of_part (by rw [hpart]; exact nofun)

theorem fine_of_opening (hpart : x.standing.stage.part = .opening)
    (hprovides : x.standing.stage.Provides) : x.Fine where
  leaving h := by cases hpart.symm.trans h
  noting h := by cases hpart.symm.trans h
  asking h := by cases hpart.symm.trans h
  provides := hprovides

theorem fine_of_leaving (hstage : x.standing.stage = .announcingEnd) : x.Fine where
  leaving _ := hstage
  noting h := by
    rw [hstage] at h
    cases h
  asking h := by
    rw [hstage] at h
    cases h
  provides := by
    rw [hstage]
    trivial

theorem fine_of_noting (hpart : x.standing.stage.part = .working)
    (hnote : x.message.isNotification = true) (hnoting : x.standing.stage.isNoting = true) :
    x.Fine where
  leaving h := by cases hpart.symm.trans h
  noting _ _ := hnoting
  asking _ h := by cases hnote.symm.trans h
  provides := Stage.provides_of_part (by rw [hpart]; exact nofun)

theorem fine_of_asking (hpart : x.standing.stage.part = .working)
    (hrequest : x.message.isNotification = false) (hasking : x.standing.stage.isAsking = true) :
    x.Fine where
  leaving h := by cases hpart.symm.trans h
  noting _ h := by cases hrequest.symm.trans h
  asking _ _ := hasking
  provides := Stage.provides_of_part (by rw [hpart]; exact nofun)

end Handling

namespace Session

variable {s s' : Session (ε × List News) μ} {h : Host ε μ} {cancelled : Bool}
  {turn : SessionTurn (ε × List News) μ}

/-- A request that comes changes at most how far the session has come, and goes on with the opening,
with taking leave, or with a question. -/
theorem receive_cases (r : IncomingRequest) :
    (s.receive r).state = { s with lifecycle := (s.receive r).state.lifecycle }
    ∧ ((s.receive r).state.lifecycle = s.lifecycle
      ∨ s.lifecycle = .uninitialized ∧ (s.receive r).state.lifecycle = .initializing)
    ∧ ∀ standing, (s.receive r).progress = .more standing →
      (∃ params, standing.stage = .announcing params) ∨ standing.stage = .announcingEnd
        ∨ ∃ request, standing.stage = .forwarding request := by
  obtain ⟨error, heq⟩ | ⟨params, hbefore, heq⟩ | heq | ⟨request, heq⟩ := receive_eq (s := s) r
  all_goals rw [heq]
  · exact ⟨rfl, .inl rfl, nofun⟩
  · refine ⟨rfl, .inr ⟨hbefore, rfl⟩, fun standing hprogress => ?_⟩
    cases hprogress
    exact .inl ⟨_, rfl⟩
  · refine ⟨rfl, .inl rfl, fun standing hprogress => ?_⟩
    cases hprogress
    exact .inr (.inl rfl)
  · refine ⟨rfl, .inl rfl, fun standing hprogress => ?_⟩
    cases hprogress
    exact .inr (.inr ⟨_, rfl⟩)

/-- A notification that comes keeps the life of the session, and outside an open one all of it. -/
theorem hear_cases (n : IncomingNotification) : Keeps s (s.hear h.noting n).state
    ∧ (∀ standing, (s.hear h.noting n).progress = .more standing →
      standing.stage.part = .working)
    ∧ (s.lifecycle ≠ .initialized → (s.hear h.noting n).state = s) := by
  have hkeeps : Keeps s s := .of_eq rfl rfl rfl
  unfold hear
  split
  · exact ⟨hkeeps, nofun, fun _ => rfl⟩
  split
  · case isTrue hopen =>
    obtain ⟨hkeeps', henters⟩ := attend_cases (h := h.noting) (s := s) n
    refine ⟨hkeeps', fun standing hprogress => ?_, fun hclosed => ?_⟩
    · obtain ⟨-, hworking | ⟨hshutdown, -⟩⟩ := henters standing hprogress
      · exact hworking
      · cases hshutdown
    · exact absurd (eq_of_beq hopen) hclosed
  · exact ⟨hkeeps, nofun, fun _ => rfl⟩

/-- **A stage of the opening** puts a build system in its place that watches nothing, or leaves all
alone that settings depend on. -/
theorem act_providing {stage : Stage} (hpart : stage.part = .opening) (hprovides : stage.Provides)
    (hfares : s.fares stage = true) (hact : act h.noting cancelled stage s = some turn) :
    turn.state.documents = s.documents ∧ turn.state.diary = s.diary
    ∧ (∀ standing, turn.progress = .more standing →
      standing.stage.part = .opening ∧ standing.stage.Provides)
    ∧ (turn.state.buildSystem = s.buildSystem
      ∨ ∃ d, turn.state.buildSystem = some (.database d) ∧ d.watched = [] ∧ d.Ready) := by
  have hgoOn : ∀ {s' : Session (ε × List News) μ} {next : Stage}, next.part = .opening →
      next.Provides → ∀ standing, (s'.goOn next).progress = .more standing →
      standing.stage.part = .opening ∧ standing.stage.Provides := by
    intro s' next hpart hprovides standing hprogress
    cases hprogress
    exact ⟨hpart, hprovides⟩
  -- Along the opening a build system is chosen, gets its listener and is published; the other
  -- stages have none in hand.
  cases stage
  case announcing params =>
    cases hact
    exact ⟨rfl, rfl, @hgoOn s _ rfl trivial, .inl rfl⟩
  case choosing params =>
    simp only [act, choose, Option.some.injEq] at hact
    subst hact
    split
    · exact ⟨rfl, rfl, hgoOn rfl trivial, .inl rfl⟩
    · exact ⟨rfl, rfl, hgoOn rfl (provides_forWorkspace _ _ _ _), .inl rfl⟩
  case loading preference root =>
    cases hact
    exact ⟨rfl, rfl, hgoOn rfl (provides_forWorkspace _ _ _ _), .inl rfl⟩
  case attaching system =>
    cases system with
    | database d =>
      cases hact
      -- That the database is there is what the session is said to fare well for.
      obtain ⟨hwatched, hroot⟩ := hprovides d rfl
      have hready : (d.setListener (some listener)).Ready := ⟨hfares, hroot hfares, rfl⟩
      exact ⟨rfl, rfl, hgoOn rfl ⟨_, rfl, hwatched, hready⟩, .inl rfl⟩
    | manifest => cases hfares
    | unhandled => cases hfares
  case publishing system =>
    cases hact
    obtain ⟨d, rfl, hwatched, hready⟩ := hprovides
    exact ⟨rfl, rfl, hgoOn rfl trivial, .inr ⟨d, rfl, hwatched, hready⟩⟩
  case concluding =>
    cases hact
    exact ⟨rfl, rfl, (fun _ hprogress => by cases hprogress), .inl rfl⟩
  case finding next =>
    cases hact
    exact ⟨rfl, rfl, hgoOn hpart hprovides, .inl rfl⟩
  all_goals cases hpart

/-- Where nothing is open and nothing is watched, there is nothing to tell. -/
theorem settled_nil (hdocuments : s.documents = []) (hwatched : s.watched = []) :
    s.Settled (.tell []) := by
  refine ⟨hdocuments.trans hwatched.symm, ?_⟩
  intro uri hopen
  rw [hdocuments] at hopen
  cases hopen

theorem SameButLines.isReady (hsame : SameButLines s s') (hready : s.IsReady) : s'.IsReady := by
  rw [IsReady, hsame]
  exact hready

/-- A session that differs in its lines only has not moved. -/
theorem SameButLines.unmoved (hsame : SameButLines s s') (hready : s.IsReady) : Unmoved s s' := by
  refine .of_eq hready ?_ ?_ ?_
  · rw [hsame]
  · rw [hsame]
  · rw [hsame]
    rfl

/-- A message that has just come has nothing to do that was left to it. -/
theorem errand_of_arrival {stage : Stage} {message : Incoming} (hstage : stage = message.stage) :
    stage.errand = .tell [] := by
  subst hstage
  cases message <;> rfl

end Session

namespace Scene

variable {s s' : Scene (ε × List News) μ} {h : Host ε μ} {e : Event μ} {x y : Handling}
  {turn : Session.SessionTurn (ε × List News) μ}

/-- **Documents, watched files, database and engine fit together,** but for what the notification
that is being handled still has to do. -/
structure Tended (s : Scene (ε × List News) μ) : Prop where
  sound : s.Sound
  lasting : s.session.lifecycle ≠ .shutDown
  fine : ∀ x ∈ s.handlings, x.Fine
  single : s.OneNotified
  ready : s.session.IsReady
  nodup : s.session.documents.keys.Nodup
  closed : s.session.lifecycle.hasOpened = false →
    s.session.documents = [] ∧ s.session.watched = []
  settled : ∀ x ∈ s.handlings, x.message.isNotification = true →
    s.session.Settled x.standing.stage.errand
  quiet : (∀ x ∈ s.handlings, x.message.isNotification = false) → s.session.Settled (.tell [])

/-- In the beginning nothing is open, nothing is watched and nothing has been told. -/
theorem Tended.start (engine : ε × List News) (manifest : μ) (disk : FileSystem) :
    (start engine manifest disk).Tended where
  sound := .start _ _ _
  lasting := nofun
  fine x hx := by cases hx
  single _ hx := by cases hx
  ready _ heq := by cases heq
  nodup := List.nodup_nil
  closed _ := ⟨rfl, rfl⟩
  settled x hx := by cases hx
  quiet _ := Session.settled_nil rfl rfl

/-- What is to be shown of a step. -/
theorem Tended.after (hs : s.Tended) (hx : x ∈ s.handlings) (hsound : (s.after x turn).Sound)
    (hlasting : turn.state.lifecycle ≠ .shutDown)
    (hfine : ∀ standing, turn.progress = .more standing → Handling.Fine { x with standing })
    (hready : turn.state.IsReady) (hnodup : turn.state.documents.keys.Nodup)
    (hclosed : turn.state.lifecycle.hasOpened = false →
      turn.state.documents = [] ∧ turn.state.watched = [])
    (hothers : ∀ y ∈ s.handlings, y.number ≠ x.number → y.message.isNotification = true →
      turn.state.Settled y.standing.stage.errand)
    (hmore : x.message.isNotification = true → ∀ standing, turn.progress = .more standing →
      turn.state.Settled standing.stage.errand)
    (hquiet : (x.message.isNotification = true → ∃ outcome, turn.progress = .done outcome) →
      (∀ y ∈ s.handlings, y.number ≠ x.number → y.message.isNotification = false) →
      turn.state.Settled (.tell [])) : (s.after x turn).Tended where
  sound := hsound
  lasting := hlasting
  fine y hy := by
    obtain ⟨hy, -⟩ | ⟨standing, hprogress, rfl⟩ := hs.sound.numbered.mem_after hx hy
    · exact hs.fine y hy
    · exact hfine standing hprogress
  single := hs.single.after hs.sound.numbered hx
  ready := hready
  nodup := hnodup
  closed := hclosed
  settled y hy hnote := by
    obtain ⟨hy, hother⟩ | ⟨standing, hprogress, rfl⟩ := hs.sound.numbered.mem_after hx hy
    · exact hothers y hy hother hnote
    · exact hmore hnote standing hprogress
  quiet hnone := by
    -- If no notification is being handled after the step, then this one has been handled to its end
    -- or was none.
    refine hquiet ?_ ?_
    · intro hnote
      cases hprogress : turn.progress with
      | more standing => cases hnote.symm.trans (hnone { x with standing }
          (mem_after_of_more hx hprogress))
      | done outcome => exact ⟨outcome, rfl⟩
    · intro y hy hother
      exact hnone y (mem_after_of_ne hy hother)

/-! ### Requests -/

/-- What a step of a request does. -/
structure Asks (s : Scene (ε × List News) μ) (x : Handling)
    (turn : Session.SessionTurn (ε × List News) μ) : Prop where
  documents : turn.state.documents = s.session.documents
  diary : turn.state.diary = s.session.diary
  system : turn.state.buildSystem = s.session.buildSystem
    ∨ s.session.lifecycle.hasOpened = false
      ∧ ∃ d, turn.state.buildSystem = some (.database d) ∧ d.watched = [] ∧ d.Ready
  lasting : turn.state.lifecycle ≠ .shutDown
  opened : turn.state.lifecycle.hasOpened = false → s.session.lifecycle.hasOpened = false
  fine : ∀ standing, turn.progress = .more standing → Handling.Fine { x with standing }

/-- Who comes nearer stays at its stage, and changes nothing that counts here. -/
theorem Tended.nearer (hs : s.Tended) (hx : x ∈ s.handlings) {touched : Touch}
    (hcome : Session.come h.noting s.session x.standing.stage touched = some turn) :
    Asks s x turn ∧ ∃ standing, turn.progress = .more standing
      ∧ standing.stage = x.standing.stage := by
  obtain ⟨hstate, approach, hprogress, -⟩ := Session.come_cases hcome
  have hfine := hs.fine x hx
  refine ⟨⟨?_, ?_, .inl ?_, ?_, ?_, ?_⟩, _, hprogress, rfl⟩
  · rw [hstate]
  · rw [hstate]
    rfl
  · rw [hstate]
  · rw [hstate]
    exact hs.lasting
  · rw [hstate]
    exact id
  · intro standing hp
    -- What may be done at a stage does not depend on how near the message has come.
    cases hprogress.symm.trans hp
    exact ⟨hfine.leaving, hfine.noting, hfine.asking, hfine.provides⟩

/-- A request that has just come. -/
theorem Tended.asks_received (hs : s.Tended) {r : IncomingRequest}
    {t : Session (ε × List News) μ} (hsame : Session.SameButLines s.session t)
    (hmessage : x.message = .request r) : Asks s x (t.receive r) := by
  obtain ⟨hstate, hlifecycle, hnext⟩ := Session.receive_cases (s := t) r
  have hbefore : t.lifecycle = s.session.lifecycle := hsame.keeps.lifecycle
  rw [hbefore] at hlifecycle
  refine ⟨?_, ?_, .inl ?_, ?_, ?_, ?_⟩
  · rw [hstate, hsame]
  · rw [hstate, hsame]
    rfl
  · rw [hstate, hsame]
  · rcases hlifecycle with hlifecycle | ⟨-, hlifecycle⟩
    · rw [hlifecycle]
      exact hs.lasting
    · rw [hlifecycle]
      exact nofun
  · intro hopened
    rcases hlifecycle with hlifecycle | ⟨hlifecycle, -⟩
    · rw [← hlifecycle]
      exact hopened
    · rw [hlifecycle]
      rfl
  · intro standing hprogress
    obtain ⟨stage, approach⟩ := standing
    -- It goes on with the opening, with taking leave or with a question, each of which is fine for
    -- a request.
    obtain ⟨params, rfl⟩ | rfl | ⟨request, rfl⟩ := hnext _ hprogress
    · exact Handling.fine_of_opening rfl trivial
    · exact Handling.fine_of_leaving rfl
    · refine Handling.fine_of_asking rfl ?_ rfl
      simp only [hmessage]
      rfl

/-- A request that opens the session. -/
theorem Tended.asks_opening (hs : s.Tended) (hx : x ∈ s.handlings) {cancelled : Bool}
    {t : Session (ε × List News) μ} (hsame : Session.SameButLines s.session t)
    (hpart : x.standing.stage.part = .opening)
    (hfares : s.session.fares x.standing.stage = true)
    (hact : Session.act h.noting cancelled x.standing.stage t = some turn) : Asks s x turn := by
  have hunmoved := hsame.unmoved hs.ready
  -- Who opens the session has claimed it, and nobody else has been let in.
  have hopened : s.session.lifecycle.hasOpened = false := by
    rw [(hs.sound.living.fits x hx).opening hpart]
    rfl
  have hfares' : t.fares x.standing.stage = true := by
    rw [hsame]
    exact hfares
  obtain ⟨hdocuments, hdiary, hnext, hsystem⟩ :=
    Session.act_providing hpart (hs.fine x hx).provides hfares' hact
  refine ⟨hdocuments.trans hunmoved.documents, hdiary.trans hunmoved.diary, ?_, ?_,
    fun _ => hopened, ?_⟩
  · rcases hsystem with hsystem | hsystem
    · exact .inl (hsystem.trans (by rw [hsame]))
    · exact .inr ⟨hopened, hsystem⟩
  · obtain ⟨-, ⟨-, hlifecycle, -⟩ | ⟨_, -, -, hlifecycle, -⟩⟩ := Session.act_opening hpart hact
    · rw [hlifecycle]
      exact nofun
    · rw [hlifecycle, hsame]
      exact hs.lasting
  · intro standing hprogress
    exact Handling.fine_of_opening (hnext standing hprogress).1 (hnext standing hprogress).2

/-- In an open session there is a database, and it is ready. -/
theorem Tended.exists_database (hs : s.Tended) (hopened : s.session.lifecycle.hasOpened = true) :
    ∃ d, s.session.buildSystem = some (.database d) ∧ d.Ready := by
  obtain ⟨system, hsystem⟩ := Option.isSome_iff_exists.mp (hs.sound.living.system hopened)
  obtain ⟨d, rfl, hready⟩ := hs.ready system hsystem
  exact ⟨d, hsystem, hready⟩

/-- A question in an open session. -/
theorem Tended.asks_working (hs : s.Tended) (hx : x ∈ s.handlings) {cancelled : Bool}
    {t : Session (ε × List News) μ} (hsame : Session.SameButLines s.session t)
    (hrequest : x.message.isNotification = false) (hpart : x.standing.stage.part = .working)
    (hact : Session.act h.noting cancelled x.standing.stage t = some turn) : Asks s x turn := by
  have hunmoved := hsame.unmoved hs.ready
  have hsystem : t.buildSystem = s.session.buildSystem := by rw [hsame]
  obtain ⟨hkeeps, hgoes⟩ := Session.act_working hpart hact
  have hlifecycle : turn.state.lifecycle = s.session.lifecycle :=
    hkeeps.lifecycle.trans hsame.keeps.lifecycle
  obtain ⟨d, hdatabase, hready⟩ := hs.exists_database ((hs.sound.living.fits x hx).working hpart)
  obtain ⟨hdocuments, hsystem', hdiary, hnext⟩ :=
    Session.act_asking (hsystem.trans hdatabase) hready ((hs.fine x hx).asking hpart hrequest) hact
  refine ⟨hdocuments.trans hunmoved.documents, hdiary.trans hunmoved.diary,
    .inl (hsystem'.trans hsystem), hlifecycle ▸ hs.lasting, fun hclosed => hlifecycle ▸ hclosed,
    fun standing hprogress => ?_⟩
  exact Handling.fine_of_asking (hgoes standing hprogress) hrequest (hnext standing hprogress)

/-- **A step of a request.** -/
theorem Tended.asks (hs : s.Tended) (hx : x ∈ s.handlings)
    (hrequest : x.message.isNotification = false)
    (hfares : s.session.fares x.standing.stage = true) {cancelled : Bool}
    (hturn : Session.step h.noting cancelled x.standing s.session = some turn) : Asks s x turn := by
  obtain ⟨touched, -, -, hcome⟩ | ⟨t, hsame, hact⟩ := Session.step_cases hturn
  · exact (hs.nearer hx hcome).1
  -- From here on the request goes through its stage, and the lemmas above take the parts in turn;
  -- to take leave is not allowed.
  cases hpart : x.standing.stage.part with
  | arrival =>
    rw [hs.sound.stage_of_arrival hx hpart] at hact
    cases hmessage : x.message with
    | request r =>
      rw [hmessage] at hact
      cases hact
      exact hs.asks_received hsame hmessage
    | notification n => simp [hmessage, Incoming.isNotification] at hrequest
  | opening => exact hs.asks_opening hx hsame hpart hfares hact
  | leaving =>
    rw [(hs.fine x hx).leaving hpart] at hfares
    cases hfares
  | working => exact hs.asks_working hx hsame hrequest hpart hact

/-- What a step of a request does to the settings: nothing, unless it gives a session that is not
open its build system. -/
theorem Tended.unmoved_of_asks (hs : s.Tended) (hasks : Asks s x turn) :
    Session.Unmoved s.session turn.state
    ∨ s.session.lifecycle.hasOpened = false ∧ turn.state.documents = []
      ∧ turn.state.watched = [] := by
  rcases hasks.system with hsystem | ⟨hopened, d, hsystem, hempty, -⟩
  · exact .inl (.of_eq hs.ready hasks.documents hsystem hasks.diary)
  · exact .inr ⟨hopened, hasks.documents.trans (hs.closed hopened).1,
      (Session.watched_eq hsystem).trans hempty⟩

/-- After a step of a request things fit together still. The same holds of any step that only comes
nearer. -/
theorem Tended.after_asks (hs : s.Tended) (hx : x ∈ s.handlings)
    (hsound : (s.after x turn).Sound) (hasks : Asks s x turn)
    (hnote : x.message.isNotification = true → ∃ standing, turn.progress = .more standing
      ∧ standing.stage = x.standing.stage) : (s.after x turn).Tended := by
  have hready : turn.state.IsReady := by
    rcases hasks.system with hsystem | ⟨-, d, hsystem, -, hready⟩
    · rw [Session.IsReady, hsystem]
      exact hs.ready
    · exact Session.isReady_of hsystem hready
  have hsettled : ∀ y ∈ s.handlings, y.message.isNotification = true →
      turn.state.Settled y.standing.stage.errand := by
    intro y hy hy'
    obtain hunmoved | ⟨hopened, hdocuments, hwatched⟩ := hs.unmoved_of_asks hasks
    · exact hunmoved.settled (hs.settled y hy hy')
    · -- A session that is not open has let no notification in, so this one has nothing to do yet.
      have hstage := hs.sound.stage_of_arrival hy (hs.sound.arrival_of_notification hy hy' hopened)
      rw [Session.errand_of_arrival hstage]
      exact Session.settled_nil hdocuments hwatched
  refine hs.after hx hsound hasks.lasting hasks.fine hready ?_ ?_
    (fun y hy _ hy' => hsettled y hy hy') ?_ ?_
  · rw [hasks.documents]
    exact hs.nodup
  · intro hopened
    obtain hunmoved | ⟨-, hclosed⟩ := hs.unmoved_of_asks hasks
    · rw [hunmoved.documents, hunmoved.watched]
      exact hs.closed (hasks.opened hopened)
    · exact hclosed
  · intro hx' standing hprogress
    obtain ⟨standing', hprogress', hstage⟩ := hnote hx'
    cases hprogress.symm.trans hprogress'
    rw [hstage]
    exact hsettled x hx hx'
  · intro hdone hnone
    obtain hunmoved | ⟨-, hdocuments, hwatched⟩ := hs.unmoved_of_asks hasks
    · -- No notification was being handled before either: a request is none, and none ended.
      refine hunmoved.settled (hs.quiet fun y hy => ?_)
      by_cases hnumber : y.number = x.number
      · obtain rfl := hs.sound.numbered.eq_of_number hy hx hnumber
        refine Bool.eq_false_iff.mpr fun hy' => ?_
        obtain ⟨standing, hprogress, -⟩ := hnote hy'
        obtain ⟨outcome, hprogress'⟩ := hdone hy'
        cases hprogress.symm.trans hprogress'
      · exact hnone y hy hnumber
    · exact Session.settled_nil hdocuments hwatched

/-! ### Notifications -/

/-- A step of the notification that is being handled. -/
theorem Tended.after_noting (hs : s.Tended) (hx : x ∈ s.handlings)
    (hsound : (s.after x turn).Sound) (hnote : x.message.isNotification = true)
    (hlifecycle : turn.state.lifecycle = s.session.lifecycle)
    (hclosed : s.session.lifecycle.hasOpened = false →
      turn.state.documents = [] ∧ turn.state.watched = [])
    (hpart : ∀ standing, turn.progress = .more standing → standing.stage.part = .working)
    (hhands : Session.HandsOn turn) : (s.after x turn).Tended := by
  refine hs.after hx hsound (hlifecycle ▸ hs.lasting) ?_ hhands.ready hhands.nodup
    (fun hopened => hclosed (hlifecycle ▸ hopened)) ?_ ?_ ?_
  · intro standing hprogress
    exact Handling.fine_of_noting (hpart standing hprogress) hnote
      (hhands.more standing hprogress).1
  · intro y hy hother hy'
    exact absurd (hs.single y hy x hx hy' hnote) hother
  · exact fun _ standing hprogress => (hhands.more standing hprogress).2
  · intro hdone _
    obtain ⟨outcome, hprogress⟩ := hdone hnote
    exact hhands.done outcome hprogress

/-- A notification that has just come. -/
theorem Tended.after_notified (hs : s.Tended) (hx : x ∈ s.handlings) {n : IncomingNotification}
    {t : Session (ε × List News) μ} (hsound : (s.after x (t.hear h.noting n)).Sound)
    (hsame : Session.SameButLines s.session t) (hmessage : x.message = .notification n)
    (hstage : x.standing.stage = x.message.stage) :
    (s.after x (t.hear h.noting n)).Tended := by
  have hnote : x.message.isNotification = true := by rw [hmessage]; rfl
  have hunmoved := hsame.unmoved hs.ready
  have hsettled : t.Settled (.tell []) := by
    rw [← Session.errand_of_arrival hstage]
    exact hunmoved.settled (hs.settled x hx hnote)
  have hnodup : t.documents.keys.Nodup := hunmoved.documents ▸ hs.nodup
  obtain ⟨hkeeps, hworking, hclosed⟩ := Session.hear_cases (s := t) (h := h) n
  have hbefore : t.lifecycle = s.session.lifecycle := hsame.keeps.lifecycle
  refine hs.after_noting hx hsound hnote (hkeeps.lifecycle.trans hbefore) ?_ hworking
    (Session.hear_noting n (hsame.isReady hs.ready) hnodup hsettled)
  -- Before the session is open a notification changes nothing, and nothing is open or watched.
  intro hopened
  have hnot : t.lifecycle ≠ .initialized := by
    rw [hbefore]
    intro hopen
    rw [hopen] at hopened
    cases hopened
  rw [hclosed hnot, hunmoved.documents, hunmoved.watched]
  exact hs.closed hopened

/-- A notification in an open session. -/
theorem Tended.after_working (hs : s.Tended) (hx : x ∈ s.handlings)
    (hsound : (s.after x turn).Sound) {cancelled : Bool} {t : Session (ε × List News) μ}
    (hsame : Session.SameButLines s.session t) (hnote : x.message.isNotification = true)
    (hpart : x.standing.stage.part = .working)
    (hfares : s.session.fares x.standing.stage = true)
    (hact : Session.act h.noting cancelled x.standing.stage t = some turn) :
    (s.after x turn).Tended := by
  have hunmoved := hsame.unmoved hs.ready
  have hsystem : t.buildSystem = s.session.buildSystem := by rw [hsame]
  obtain ⟨hkeeps, hgoes⟩ := Session.act_working hpart hact
  have hopened := (hs.sound.living.fits x hx).working hpart
  obtain ⟨d, hdatabase, hready⟩ := hs.exists_database hopened
  -- That the database can be read where it is read anew is what the session is said to fare well
  -- for.
  have hreload : x.standing.stage = .reloading →
      (d.root.bind (Database.loadOrNone t.disk)).isSome = true := by
    intro hstage
    rw [hsame]
    simpa [hstage, Session.fares, hdatabase] using hfares
  refine hs.after_noting hx hsound hnote (hkeeps.lifecycle.trans hsame.keeps.lifecycle)
    (fun hclosed => ?_) hgoes ?_
  · cases hopened.symm.trans hclosed
  · exact Session.act_noting (hsystem.trans hdatabase) hready (hunmoved.documents ▸ hs.nodup)
      ((hs.fine x hx).noting hpart hnote) hreload (hunmoved.settled (hs.settled x hx hnote)) hact

/-! ### Events -/

/-- A message that comes leaves things as they are, and has nothing to do yet. -/
theorem Tended.arrive (hs : s.Tended) {message : Incoming}
    (hfares : s.faresWell (.arrive message : Event μ) = true)
    (hstep : s.step? h.noting (.arrive message) = some s') : s'.Tended := by
  have hsound := hs.sound.step? hstep
  have hsingle := hs.single.arrive hfares hstep
  cases hstep
  have hpart : message.stage.part = .arrival := by cases message <;> rfl
  -- What nobody was to do before, the notification that comes now has not to do either.
  refine ⟨hsound, hs.lasting, ?_, hsingle, hs.ready, hs.nodup, hs.closed, ?_, ?_⟩
  · intro x hx
    rcases List.mem_append.mp hx with hx | hx
    · exact hs.fine x hx
    · obtain rfl := List.mem_singleton.mp hx
      exact Handling.fine_of_arrival hpart
  · intro x hx hnote
    rcases List.mem_append.mp hx with hx | hx
    · exact hs.settled x hx hnote
    · obtain rfl := List.mem_singleton.mp hx
      show s.session.Settled message.stage.errand
      rw [Session.errand_of_arrival rfl]
      exact hs.quiet (alone_of_inTurn hfares hnote)
  · intro hnone
    exact hs.quiet fun x hx => hnone x (List.mem_append_left _ hx)

/-- What changes outside does not move the settings, since the database does not look at the disk.
-/
theorem Tended.outside (hs : s.Tended) {disk : FileSystem} {manifest : μ}
    (hstep : s.step? h.noting (.outside disk manifest) = some s') : s'.Tended := by
  have hsound := hs.sound.step? hstep
  cases hstep
  have hunmoved : Session.Unmoved s.session { s.session with disk, manifest } :=
    .of_eq hs.ready rfl rfl rfl
  exact ⟨hsound, hs.lasting, hs.fine, hs.single, hs.ready, hs.nodup, hs.closed,
    fun x hx hnote => hunmoved.settled (hs.settled x hx hnote),
    fun hnone => hunmoved.settled (hs.quiet hnone)⟩

/-- **What every event keeps,** when the session fares well. -/
theorem Tended.step? (hs : s.Tended) (hfares : s.faresWell e = true)
    (hstep : s.step? h.noting e = some s') : s'.Tended := by
  cases e with
  | arrive message => exact hs.arrive hfares hstep
  | outside disk manifest => exact hs.outside hstep
  | step number cancelled =>
    have hsound := hs.sound.step? hstep
    obtain ⟨x, turn, hx, hfind, hturn, rfl⟩ := step?_step hstep
    have hfares : s.session.fares x.standing.stage = true := by
      simpa [faresWell, inTurn, hfind] using hfares
    cases hnote : x.message.isNotification with
    | false =>
      refine hs.after_asks hx hsound (hs.asks hx hnote hfares hturn) fun hnote' => ?_
      cases hnote.symm.trans hnote'
    | true =>
      -- A notification opens no session and takes no leave: it has just come, or it is worked on.
      obtain ⟨touched, -, -, hcome⟩ | ⟨t, hsame, hact⟩ := Session.step_cases hturn
      · obtain ⟨hasks, hstays⟩ := hs.nearer hx hcome
        exact hs.after_asks hx hsound hasks fun _ => hstays
      cases hpart : x.standing.stage.part with
      | arrival =>
        have hstage := hs.sound.stage_of_arrival hx hpart
        rw [hstage] at hact
        cases hmessage : x.message with
        | request r => simp [hmessage, Incoming.isNotification] at hnote
        | notification n =>
          rw [hmessage] at hact
          cases hact
          exact hs.after_notified hx hsound hsame hmessage hstage
      | opening =>
        have hopening := (hs.sound.living.fits x hx).opening hpart
        have harrival := hs.sound.arrival_of_notification hx hnote (by rw [hopening]; rfl)
        cases hpart.symm.trans harrival
      | leaving =>
        rw [(hs.fine x hx).leaving hpart] at hfares
        cases hfares
      | working => exact hs.after_working hx hsound hsame hnote hpart hfares hact

/-- **Documents, database and engine fit together after every run** of a session that fares well. -/
theorem Tended.run? {events : List (Event μ)} (hs : s.Tended)
    (hrun : s.run? h.noting faresWell events = some s') : s'.Tended :=
  run_induction hrun hs fun _ _ _ ht hfares hstep => ht.step? hfares hstep

/-- While a session is open and no notification is being handled, the engine has last been told of
every open document what its database says of it now. -/
theorem Tended.known (hs : s.Tended) (hopen : s.session.lifecycle = .initialized)
    (hquiet : ∀ x ∈ s.handlings, x.message.isNotification = false) :
    ∃ d, s.session.buildSystem = some (.database d)
      ∧ ∀ uri, (s.session.documents.get? uri).isSome = true →
        News.told? s.session.diary uri = some (d.settings s.session.disk uri).1 := by
  obtain ⟨d, hsystem, hready⟩ := hs.exists_database (by rw [hopen]; rfl)
  refine ⟨d, hsystem, fun uri huri => ?_⟩
  have htold := (hs.quiet hquiet).2 uri (Languages.isSome_get?.mp huri) List.not_mem_nil
  rw [htold, Session.settingsNow_eq hready hsystem, DatabaseSystem.settings_eq hready.database]

end Scene

end FlagServer
