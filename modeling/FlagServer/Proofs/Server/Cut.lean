import FlagServer.Proofs.Server.Course
import FlagServer.Proofs.Session.Moves

/-!
# Serving a stream that is cut off

A stream that is cut off inside a frame has whole frames and then a fault, wherever it is cut. A
server that receives it dispatches the whole frames and returns the fault, whatever its handler does
and whoever else uses the connection, as long as nobody asks for the connection to be closed.

Who asks to close? The writer does when the other side stops reading, and whoever uses the
connection may; and a stage of the handler may. In a session only one message has such a stage, the
notification to exit. So in a session **the cut is noticed if none of the whole messages is an
exit.**
-/

namespace FlagServer

variable {η τ : Type}

/-! ## Courses on which nobody asks to close -/

/-- Some stages are calm: none of them asks for the connection to be closed, and they lead only to
their like. The handling of a request begins with one of them. -/
structure Handler.Calm (h : Handler η τ) (calm : τ → Prop) : Prop where
  request : ∀ r, calm (h.request r)
  close : ∀ {cancelled stage state turn}, calm stage → h.step cancelled stage state = some turn →
    turn.close = false
  next : ∀ {cancelled stage state turn stage'}, calm stage →
    h.step cancelled stage state = some turn → turn.progress = .more stage' → calm stage'

namespace Service

variable {h : Handler η τ} {s s' : Service η τ} {e : Event η} {calm : τ → Prop}

/-- The event is somebody's wish to close the connection. -/
def Event.asks : Event η → Bool
  | outside o => o.asks
  | _ => false

/-- Nobody has asked for the connection to be closed, and nobody is about to. -/
structure Calm (calm : τ → Prop) (s : Service η τ) : Prop where
  unasked : s.server.connection.closeRequested = false
  loop : ∀ stage, s.server.loop = .handling stage → calm stage
  tasks : ∀ task ∈ s.server.tasks, calm task.stage

/-- A step of the loop leaves a service calm, if the bodies that it dispatches lead to calm stages.
-/
theorem Calm.loopStep {server : Server η τ} {bodies : List (List UInt8)} (hh : h.Calm calm)
    (hs : s.Calm calm) (hstep : Server.LoopStep h s.server server bodies)
    (hbodies : ∀ body ∈ bodies, ∀ (c : Connection) n,
      (c.dispatch h.registry body).2 = .notification n → calm (h.notification n)) :
    ({ s with server, dispatched := s.dispatched ++ bodies } : Service η τ).Calm calm := by
  cases hstep with
  | closes hloop hclose heq =>
    rw [hs.unasked] at hclose
    cases hclose
  | leaves hloop hreading heq =>
    subst heq
    obtain ⟨-, -, hwish, -⟩ := s.server.connection.shutDown_spec
    exact ⟨hwish.trans hs.unasked, (fun _ hstage => by cases hstage), hs.tasks⟩
  | takes hloop harrived heq =>
    subst heq
    exact ⟨hs.unasked, (fun _ hstage => by cases hstage), hs.tasks⟩
  | @dispatches begun body rest hloop hreading heq =>
    obtain ⟨connection, tasks, loop, hreceive, honward, hnext, htasks⟩ :=
      Server.receive_cases (h := h) { s.server with input := rest, loop := .reading false } body
    rw [heq, hreceive]
    refine ⟨?_, fun stage hstage => ?_, fun task htask => ?_⟩
    · simpa [hs.unasked] using honward.wish
    · obtain rfl | ⟨n, hn, rfl⟩ := hnext
      · cases hstage
      · cases hstage
        exact hbodies body List.mem_cons_self _ n hn
    · -- A task was there before, or has just begun with a request.
      obtain hold | ⟨r, hr⟩ := htasks task htask
      · exact hs.tasks task hold
      · rw [hr]
        exact hh.request r
  | @handles stage turn hloop hturn heq =>
    subst heq
    have hcalm := hs.loop stage hloop
    refine ⟨?_, fun stage' hstage' => ?_, hs.tasks⟩
    · have hwish := (Server.onward_apply s.server turn).wish
      rw [hs.unasked, hh.close hcalm hturn] at hwish
      exact hwish
    · cases hprogress : turn.progress with
      | more next =>
        simp only [hprogress, Loop.after, Loop.handling.injEq] at hstage'
        exact hstage' ▸ hh.next hcalm hturn hprogress
      | done outcome => simp [hprogress, Loop.after] at hstage'
  | ends hloop heq =>
    subst heq
    exact ⟨hs.unasked, (fun _ hstage => by cases hstage), hs.tasks⟩

/-- **Nobody asks to close,** if the other side reads, nobody else does, and the bodies that are
dispatched lead to calm stages. -/
theorem calm_next? (hh : h.Calm calm) (hs : s.Calm calm) (hnext : s.next? h e = some s')
    (hpeer : s.server.peerReads = true) (hasks : e.asks = false)
    (hbodies : ∀ body ∈ s'.dispatched, ∀ (c : Connection) n,
      (c.dispatch h.registry body).2 = .notification n → calm (h.notification n)) :
    s'.Calm calm := by
  cases e with
  | feed bytes =>
    simp only [next?] at hnext
    split at hnext
    · cases hnext
    · cases hnext
      exact ⟨hs.unasked, hs.loop, hs.tasks⟩
  | endInput | losePeer | change =>
    cases hnext
    exact ⟨hs.unasked, hs.loop, hs.tasks⟩
  | outside o =>
    obtain ⟨connection, houtside, rfl⟩ := Option.map_eq_some_iff.mp hnext
    have hwish := (Connection.onward_outside? houtside).wish
    rw [hs.unasked, show o.asks = false from hasks] at hwish
    exact ⟨hwish, hs.loop, hs.tasks⟩
  | step agent =>
    cases agent with
    | loop =>
      obtain ⟨bodies, hstep, heq⟩ := loopStep_of_next? hnext
      rw [heq] at hbodies ⊢
      exact hs.loopStep hh hstep fun body hbody =>
        hbodies body (List.mem_append_right _ hbody)
    | writer =>
      obtain ⟨server, hstep, rfl⟩ := Option.map_eq_some_iff.mp hnext
      cases Server.writerStep_of_stepWriter hstep with
      | writes _ _ heq | stops _ _ heq =>
        subst heq
        exact ⟨hs.unasked, hs.loop, hs.tasks⟩
      | fails _ hlost =>
        -- The writer would ask if the other side no longer read.
        rw [hpeer] at hlost
        cases hlost
    | task ticket =>
      obtain ⟨server, hstep, rfl⟩ := Option.map_eq_some_iff.mp hnext
      obtain ⟨task, cancelled, turn, connection, tasks, htask, hturn, rfl, honward, htasks⟩ :=
        Server.stepTask_cases hstep
      have hcalm := hs.tasks task htask
      refine ⟨?_, hs.loop, fun task' htask' => ?_⟩
      · have hwish := honward.wish
        rw [hs.unasked, hh.close hcalm hturn] at hwish
        exact hwish
      · obtain hold | hmore := htasks task' htask'
        · exact hs.tasks task' hold
        · exact hh.next hcalm hturn hmore

end Service

namespace Course

variable {h : Handler η τ} {c : Course h} {stream tail : List UInt8} {bodies : List (List UInt8)}

/-- Nobody who uses the connection asks for it to be closed, before or while it is served, and the
other side goes on reading. -/
structure Unasked (c : Course h) : Prop where
  before : (c.now 0).server.connection.closeRequested = false
  meanwhile : ∀ t e, c.event t = some e → e.asks = false
  peerReads : ∀ t, (c.now t).server.peerReads = true

/-- What has been dispatched are frames of the stream. -/
theorem isPrefix_dispatched (hreceives : c.Receives stream)
    (hstream : Frame.readFrames? true bodies.length stream = some (bodies, tail))
    (htail : ∀ body rest, Frame.read true tail ≠ .frame body rest) {t : Nat}
    (htracks : (c.now t).Tracks) : (c.now t).dispatched <+: bodies := by
  obtain ⟨rest, hread, -⟩ := c.exists_rest hreceives htracks
  exact (Frame.readFrames?_unique hread hstream htail).1

/-- **If the frames of a stream lead only to calm stages, nobody asks to close.** -/
theorem Unasked.unclosed (hunasked : c.Unasked) {calm : τ → Prop} (hh : h.Calm calm)
    (hreceives : c.Receives stream)
    (hstream : Frame.readFrames? true bodies.length stream = some (bodies, tail))
    (htail : ∀ body rest, Frame.read true tail ≠ .frame body rest)
    (hbodies : ∀ body ∈ bodies, ∀ (connection : Connection) n,
      (connection.dispatch h.registry body).2 = .notification n → calm (h.notification n)) :
    c.Unclosed := by
  -- That the service keeps to its stream and that it is calm depend on each other.
  have hall : ∀ t, (c.now t).Tracks ∧ (c.now t).Calm calm := by
    intro t
    induction t with
    | zero =>
      obtain ⟨connection, state, -, -, heq⟩ := c.begins.running
      refine ⟨c.begins.tracks, hunasked.before, ?_, ?_⟩ <;> rw [heq] <;> nofun
    | succ t ih =>
      cases he : c.event t with
      | none =>
        rw [c.rests t he]
        exact ih
      | some e =>
        have hnext := c.goes t e he
        have htracks := Service.tracks_next? ih.1 hnext fun _ _ => ih.2.unasked
        have hbeginning := isPrefix_dispatched hreceives hstream htail htracks
        exact ⟨htracks, Service.calm_next? hh ih.2 hnext (hunasked.peerReads t)
          (hunasked.meanwhile t e he) fun body hbody => hbodies body (hbeginning.subset hbody)⟩
  exact fun t _ _ => (hall t).2.unasked

/-! ## The cut is noticed -/

/-- **A server notices that its stream is cut off** by a fault after some bodies. It dispatches
these in their order and nothing else, it returns only after all of them and only with the fault,
and it does return, if its agents go on whenever they can and the handling of every notification
ends. -/
structure Notices (c : Course h) (bodies : List (List UInt8)) (e : FrameError) : Prop where
  inOrder : ∀ t, (c.now t).dispatched <+: bodies
  faulty : ∀ t fault, (c.now t).server.ended? = some fault →
    (c.now t).dispatched = bodies ∧ fault = some e
  returns : c.Fair → c.Attentive → ∃ t, ∀ t', t ≤ t' → (c.now t').server.ended? = some (some e)

/-- On a course on which nobody asks to close, the cut is noticed. -/
theorem Unclosed.notices {e : FrameError} (hunclosed : c.Unclosed) (hreceives : c.Receives stream)
    (hstream : Frame.readFrames? true bodies.length stream = some (bodies, tail))
    (htail : Frame.read true tail = .fault e) : c.Notices bodies e := by
  have hlast : ∀ body rest, Frame.read true tail ≠ .frame body rest := by
    rw [htail]
    nofun
  have hfaulty : ∀ t fault, (c.now t).server.ended? = some fault →
      (c.now t).dispatched = bodies ∧ fault = some e := by
    intro t fault hended
    obtain ⟨rest, hread, hleft⟩ := c.exists_rest hreceives (c.tracks hunclosed t)
    have hover : Frame.read true rest = .atEnd fault := by
      refine hleft fault ?_
      rw [Server.ended?_eq_some_iff.mp hended]
      rfl
    -- A server that has returned has read until there was no more frame, and there is one way to
    -- read a stream.
    obtain ⟨hall, rfl⟩ := (Frame.readFrames?_unique hread hstream hlast).2
      (by rw [hover]; cases fault <;> nofun)
    rw [htail] at hover
    cases fault with
    | none => cases hover
    | some e' =>
      cases hover
      exact ⟨hall, rfl⟩
  refine ⟨fun t => isPrefix_dispatched hreceives hstream hlast (c.tracks hunclosed t), hfaulty,
    fun hfair hattentive => ?_⟩
  obtain ⟨fault, t, hends⟩ := c.returns hfair hattentive hreceives
  have hended : ∀ t', t ≤ t' → (c.now t').server.ended? = some fault :=
    fun t' ht' => Server.ended?_eq_some_iff.mpr (hends t' ht')
  obtain ⟨-, rfl⟩ := hfaulty t fault (hended t (Nat.le_refl t))
  exact ⟨t, hended⟩

end Course

/-! ## Sessions -/

/-- A notification comes from a body that says it. -/
theorem Connection.dispatch_notification {registry : Registry} {c : Connection}
    {body : List UInt8} {n : IncomingNotification}
    (hdelivery : (c.dispatch registry body).2 = .notification n) :
    ∃ method params, Message.ofBody body = .ok (.notification method params)
      ∧ registry.decodeNotification method params = .ok n := by
  rw [dispatch_eq] at hdelivery
  -- Every other body comes to nothing or to a request, and a notification that cancels comes to
  -- nothing as well.
  cases hbody : Message.ofBody body with
  | error malformed => simp [hbody] at hdelivery
  | ok message =>
    simp only [hbody] at hdelivery
    cases message with
    | request id method params =>
      simp only [dispatchMessage, dispatchRequest] at hdelivery
      split at hdelivery
      · cases hdelivery
      · split at hdelivery <;> cases hdelivery
    | response r => cases hdelivery
    | notification method params =>
      refine ⟨method, params, rfl, ?_⟩
      simp only [dispatchMessage, dispatchNotification] at hdelivery
      split at hdelivery
      · cases hdelivery
      · case h_2 n' hdecode =>
        unfold IncomingNotification.extract at hdelivery
        split at hdelivery
        · cases hdelivery
        · case h_2 n'' hextract =>
          split at hextract <;> cases hextract
          cases hdelivery
          exact hdecode

namespace Session

variable {ε μ : Type} {h : Host ε μ} {s : Session ε μ}

/-- The body of a frame is the notification to exit. -/
def isExit (body : List UInt8) : Bool :=
  match Message.ofBody body with
  | .ok (.notification method params) =>
    match Catalogue.registry.decodeNotification method params with
    | .ok n => n.is Catalogue.exit
    | .error _ => false
  | _ => false

/-- **Only the notification to exit asks for the connection to be closed.** -/
theorem close_act {cancelled : Bool} {stage : Stage} {turn : SessionTurn ε μ}
    (hact : act h cancelled stage s = some turn)
    (hexit : ∀ n, stage = .notified n → n.is Catalogue.exit = false) : turn.close = false := by
  cases stage
  case notified n =>
    cases hact
    simp only [hear, attend, hexit n rfl, Bool.false_eq_true, if_false]
    repeat' split
    all_goals rfl
  -- The stages that may have to wait, for a manifest or for the engine.
  case attaching | answering =>
    obtain ⟨_, -, rfl⟩ := Option.map_eq_some_iff.mp hact
    rfl
  case detaching =>
    simp only [act, detach?] at hact
    split at hact
    · cases hact
      rfl
    · obtain ⟨_, -, rfl⟩ := Option.map_eq_some_iff.mp hact
      rfl
  case consulting =>
    simp only [act] at hact
    split at hact <;> cases hact <;> rfl
  case pushing documents =>
    cases documents <;> cases hact <;> rfl
  all_goals cases hact
  case forwarding => split <;> rfl
  case received | choosing | resolving | discovering | resolved | registering
      | unregistering | reviewing | reloading =>
    simp only [receive, claim, route, choose, resolve, discover, use, register, unregister, review,
      reload, spread]
    repeat' split
    all_goals rfl
  all_goals rfl

/-- A message that is not the notification to exit, or has gone on from where it came. -/
def IsCalm (standing : Standing) : Prop :=
  standing.stage.part = .arrival →
    ∃ message : Incoming, message.isExit = false ∧ standing.stage = message.stage

/-- A calm message goes on to where no message comes, or stays at its stage. -/
theorem isCalm_step {cancelled : Bool} {standing next : Standing} {turn : SessionTurn ε μ}
    (hcalm : IsCalm standing) (hstep : step h cancelled standing s = some turn)
    (hprogress : turn.progress = .more next) : IsCalm next := by
  -- For a message that has gone on from where it came it does not matter which one it is.
  obtain ⟨message, hstands⟩ : ∃ message : Incoming,
      standing.stage.part = .arrival → standing.stage = message.stage := by
    by_cases hpart : standing.stage.part = .arrival
    · obtain ⟨message, -, hstage⟩ := hcalm hpart
      exact ⟨message, fun _ => hstage⟩
    · exact ⟨.notification ⟨"", "", .null⟩, fun h => absurd h hpart⟩
  -- No move leads to a stage of arrival but to the one where the message stands.
  have hpart : next.stage = standing.stage ∨ next.stage.part ≠ .arrival := by
    cases step_moves hstands hstep with
    | nearer approach hnext =>
      rw [hnext] at hprogress
      cases hprogress
      exact .inl rfl
    | claimed next' _ _ _ hnext hpart | prepared next' _ _ hnext hpart
    | published _ next' _ hnext hpart | ended next' _ hnext hpart | recorded next' _ hnext hpart =>
      rw [hnext] at hprogress
      cases hprogress
      exact .inr (by simp [Stage.standing, hpart])
    | late _ _ _ hdone | exit _ _ _ hdone | refused _ _ _ _ hdone | concluded _ hdone =>
      rw [hdone] at hprogress
      cases hprogress
    | admitted _ _ _ henters =>
      obtain ⟨-, hpart | ⟨-, hpart, -⟩⟩ := henters next hprogress <;>
        exact .inr (by simp [hpart])
    | left _ _ hgoes => exact .inr (by simp [hgoes next hprogress])
    | worked _ hworks => exact .inr (by simp [hworks.2 next hprogress])
  intro harrival
  obtain hsame | hnot := hpart
  · rw [hsame] at harrival ⊢
    exact hcalm harrival
  · exact absurd harrival hnot

/-- A calm message does not ask for the connection to be closed. -/
theorem close_step {cancelled : Bool} {standing : Standing} {turn : SessionTurn ε μ}
    (hcalm : IsCalm standing) (hstep : step h cancelled standing s = some turn) :
    turn.close = false := by
  obtain ⟨touched, -, -, hcome⟩ | ⟨s', -, hact⟩ := step_cases hstep
  · unfold come at hcome
    split at hcome
    · split at hcome <;> cases hcome <;> rfl
    · obtain ⟨enter, -, hcome⟩ := Option.bind_eq_some_iff.mp hcome
      obtain ⟨manifest, -, hcome⟩ := Option.bind_eq_some_iff.mp hcome
      cases hcome
      rfl
  · refine close_act hact fun n hn => ?_
    obtain ⟨message, hexit, hstage⟩ := hcalm (by rw [hn]; rfl)
    rw [hn] at hstage
    cases message with
    | request r => cases hstage
    | notification n' =>
      cases hstage
      exact hexit

/-- The handler of a session has calm stages: all but those of an exit that has just come. -/
theorem handler_calm (h : Host ε μ) : (handler h).Calm IsCalm where
  request r := fun _ => ⟨.request r, rfl, rfl⟩
  close hcalm hstep := close_step hcalm hstep
  next hcalm hstep hprogress := isCalm_step hcalm hstep hprogress

/-- A body that is not the notification to exit leads to a calm stage. -/
theorem isCalm_of_isExit {c : Connection} {body : List UInt8} {n : IncomingNotification}
    (hbody : isExit body = false)
    (hdelivery : (c.dispatch (handler h).registry body).2 = .notification n) :
    IsCalm ((handler h).notification n) := by
  obtain ⟨method, params, hmessage, hdecode⟩ := Connection.dispatch_notification hdelivery
  refine fun _ => ⟨.notification n, ?_, rfl⟩
  simp only [isExit, hmessage, show Catalogue.registry.decodeNotification method params = .ok n from
    hdecode] at hbody
  exact hbody

end Session

/-! ## Wherever the stream is cut -/

namespace Frame

variable {bodies : List (List UInt8)} {k : Nat}

/-- **Truncation is always detected.** Bodies that are not empty and not too long are written one
after the other, and the stream is cut after `k` bytes.

* One reads exactly the bodies whose frames end within the `k` bytes, and then, on a boundary
  between frames, the end of the stream, and otherwise a fault.
* So a server whose stream is cut inside a frame dispatches exactly these bodies in their order and
  returns with the fault, if nobody asks for the connection to be closed.
* In a session this is so if none of the bodies is the notification to exit, the other side goes on
  reading, and nobody else asks. -/
theorem truncation_detected
    (hbodies : ∀ body ∈ bodies, body ≠ [] ∧ body.length ≤ maxBody)
    (hk : k ≤ (bodies.flatMap write).length) :
    whole k bodies <+: bodies
    ∧ (∀ before, before <+: bodies →
      (before <+: whole k bodies ↔ (before.flatMap write).length ≤ k))
    ∧ ∃ tail, readFrames? true (whole k bodies).length ((bodies.flatMap write).take k)
        = some (whole k bodies, tail)
      ∧ (OnBoundary k bodies → read true tail = .finished)
      ∧ (¬ OnBoundary k bodies → ∃ e, read true tail = .fault e
        ∧ (∀ {η τ : Type} {h : Handler η τ} (c : Course h),
          c.Receives ((bodies.flatMap write).take k) → c.Unclosed →
          c.Notices (whole k bodies) e)
        ∧ (∀ {ε μ : Type} {host : Host ε μ} (c : Course (Session.handler host)),
          c.Receives ((bodies.flatMap write).take k) → c.Unasked →
          (∀ body ∈ whole k bodies, Session.isExit body = false) →
          c.Notices (whole k bodies) e)) := by
  refine ⟨isPrefix_whole k bodies, fun before hbefore => prefix_whole_iff hbefore, ?_⟩
  obtain ⟨tail, hcut, hremains⟩ := exists_remains hbodies hk
  have hwhole : ∀ body ∈ whole k bodies, body.length ≤ maxBody := fun body hbody =>
    (hbodies body ((isPrefix_whole k bodies).subset hbody)).2
  have hread : readFrames? true (whole k bodies).length ((bodies.flatMap write).take k)
      = some (whole k bodies, tail) := by
    rw [hcut]
    exact readFrames?_writes hwhole true tail
  refine ⟨tail, hread, fun hon => ?_, fun hoff => ?_⟩
  · obtain ⟨-, rfl⟩ | ⟨hoff, -⟩ := hremains
    · decide +kernel
    · exact absurd hon hoff
  · obtain ⟨hon, -⟩ | ⟨-, e, hfault⟩ := hremains
    · exact absurd hon hoff
    · refine ⟨e, hfault, fun c hreceives hunclosed => hunclosed.notices hreceives hread hfault,
        fun c hreceives hunasked hexit => ?_⟩
      have hlast : ∀ body rest, read true tail ≠ .frame body rest := by
        rw [hfault]
        nofun
      have hunclosed : c.Unclosed := hunasked.unclosed (Session.handler_calm _) hreceives hread
        hlast fun body hbody _ _ hdelivery =>
          Session.isCalm_of_isExit (hexit body hbody) hdelivery
      exact hunclosed.notices hreceives hread hfault

/-- A notification, and twelve bytes more. -/
def cutBodies : List (List UInt8) :=
  [Text.Utf8.encode
    "\x7b\"jsonrpc\":\"2.0\",\"method\":\"initialized\",\"params\":\x7b\x7d\x7d".toList,
    Text.Utf8.encode "never heard!".toList]

/-- The stream of the two, cut between the digits of the second length, so that a smaller number
remains. -/
def cutStream : List UInt8 :=
  (cutBodies.flatMap write).take 91

/-- A session that is about to be served. -/
def cutStart : Service (Session Unit Unit) Standing where
  server :=
    { connection := { phase := .running }
      state := { engine := (), manifest := (), disk := {} }
      loop := .reading false
      writer := .active }

/-- The stream comes, the loop takes it, handles the notification and leaves, and the writer and
the loop end. -/
def cutEvents : List (Service.Event (Session Unit Unit)) :=
  [.feed cutStream, .endInput, .step .loop, .step .loop, .step .loop, .step .loop, .step .loop,
    .step .writer, .step .loop]

/-- The notification is dispatched, and then the server returns the fault of the second header. -/
theorem truncation_detected_cutStream :
    ∃ c : Course (Session.handler (⟨.silent, none, {}⟩ : Host Unit Unit)),
      c.Receives cutStream ∧ c.Unasked ∧ c.Fair ∧ c.Attentive
      ∧ ∃ e t, ∀ t', t ≤ t' → (c.now t').server.ended? = some (some e)
        ∧ (c.now t').dispatched = cutBodies.take 1 := by
  have hbodies : ∀ body ∈ cutBodies, body ≠ [] ∧ body.length ≤ maxBody := by decide +kernel
  have hk : 91 ≤ (cutBodies.flatMap write).length := by decide +kernel
  have hwhole : whole 91 cutBodies = cutBodies.take 1 := by decide +kernel
  have hexit : ∀ body ∈ whole 91 cutBodies, Session.isExit body = false := by decide +kernel
  have hoff : ¬ OnBoundary 91 cutBodies := by
    rintro ⟨before, hbefore, hlength⟩
    have htakes : ∀ n < 3, ((cutBodies.take n).flatMap write).length ≠ 91 := by decide +kernel
    rw [List.prefix_iff_eq_take.mp hbefore] at hlength
    exact htakes before.length (Nat.lt_succ_of_le hbefore.length_le) hlength
  have hrun : (cutStart.run? (Session.handler ⟨.silent, none, {}⟩) cutEvents).any (fun s =>
      s.fed == cutStream && s.server.inputEnded && s.server.ended?.isSome
        && s.server.writer == .ended && s.server.tasks.isEmpty) = true := by decide +kernel
  have hpeer : ∀ t < cutEvents.length + 1,
      ((cutStart.run? (Session.handler ⟨.silent, none, {}⟩) (cutEvents.take t)).getD
        cutStart).server.peerReads = true := by decide +kernel
  have hasks : ∀ e ∈ cutEvents, e.asks = false := by decide +kernel
  obtain ⟨s, hs, hlast⟩ := (Option.any_eq_true _ _).mp hrun
  simp only [Bool.and_eq_true, beq_iff_eq, List.isEmpty_iff] at hlast
  obtain ⟨⟨⟨⟨hfed, hended⟩, hreturned⟩, hwriter⟩, htasks⟩ := hlast
  obtain ⟨fault, hfault⟩ := Option.isSome_iff_exists.mp hreturned
  have hloop : s.server.loop = .ended fault := Server.ended?_eq_some_iff.mp hfault
  have hbegins : cutStart.Begins := ⟨rfl, rfl, {}, _, rfl, rfl⟩
  have hreceives : (Course.ofRun hbegins hs).Receives cutStream := by
    refine ⟨cutEvents.length, ?_⟩
    rw [Course.now_ofRun (Nat.le_refl _)]
    exact ⟨hfed, hended⟩
  have hunasked : (Course.ofRun hbegins hs).Unasked :=
    ⟨rfl, fun t e he => hasks e (List.mem_of_getElem? he),
      Course.forall_ofRun (P := fun s => s.server.peerReads = true) hpeer⟩
  have hfair : (Course.ofRun hbegins hs).Fair := by
    refine Course.fair_ofRun fun agent => ?_
    cases agent <;>
      simp [Server.step, Server.stepLoop, Server.stepWriter, Server.stepTask, Server.task?, hloop,
        hwriter, htasks]
  have hattentive : (Course.ofRun hbegins hs).Attentive :=
    Course.attentive_ofRun fun stage => by simp [hloop]
  obtain ⟨-, -, tail, -, -, hcut⟩ := truncation_detected hbodies hk
  obtain ⟨e, -, -, hsession⟩ := hcut hoff
  have hnotices := hsession (Course.ofRun hbegins hs) hreceives hunasked hexit
  obtain ⟨t, ht⟩ := hnotices.returns hfair hattentive
  refine ⟨_, hreceives, hunasked, hfair, hattentive, e, t, fun t' ht' => ⟨ht t' ht', ?_⟩⟩
  rw [← hwhole]
  exact (hnotices.faulty t' _ (ht t' ht')).1

end Frame

end FlagServer
