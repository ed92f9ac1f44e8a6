import FlagServer.Proofs.Server.Stream

/-!
# The course of a service

A `Course` is all that happens to a server from when it begins to serve, one event after the other
and without end; at some times nothing happens. Nothing is said about who is next. Two assumptions
are named where a result needs them:

* a course is **fair** if no agent that can always go on waits for ever;
* it is **attentive** if the handling of every notification comes to its end. The loop waits for
  that, so a handler that never ends would keep it from its stream.

Under both, a server whose stream ends **returns** (`Course.returns`). The argument goes through
what the loop does: each of its steps brings it nearer to the end of the stream, until it leaves;
then the queue takes no more, and each step of the writer brings the writer nearer to the command to
stop.
-/

namespace FlagServer

variable {η τ : Type}

/-- A server begins to serve, on a connection on which nobody has written yet. -/
structure Service.Begins (s : Service η τ) : Prop where
  fed : s.fed = []
  dispatched : s.dispatched = []
  served : ∃ (connection : Connection) (state : η), connection.writerFailed = false
    ∧ ({ connection, state } : Server η τ).serve? = some s.server

/-- A server that begins runs, with a writer that has not failed and a loop that reads. -/
theorem Service.Begins.running {s : Service η τ} (hs : s.Begins) :
    ∃ (connection : Connection) (state : η),
      connection.phase = .running ∧ connection.writerFailed = false
      ∧ s.server = { connection, state, loop := .reading false, writer := .active } := by
  obtain ⟨connection, state, hable, hserve⟩ := hs.served
  obtain ⟨started, hstart, heq⟩ := Option.map_eq_some_iff.mp hserve
  unfold Connection.start? at hstart
  split at hstart
  · cases hstart
    exact ⟨{ connection with phase := .running }, state, rfl, hable, heq.symm⟩
  · cases hstart

/-- It keeps to its stream, of which it has read nothing. -/
theorem Service.Begins.tracks {s : Service η τ} (hs : s.Begins) : s.Tracks := by
  obtain ⟨connection, state, -, -, heq⟩ := hs.running
  constructor
  · intro more _
    simp [hs.fed, hs.dispatched, Frame.readFrames?, Service.unread, heq]
  · intro fault hleft
    rw [heq] at hleft
    cases hleft

/-- All that happens to a server. -/
structure Course (h : Handler η τ) where
  /-- The service at each time. -/
  now : Nat → Service η τ
  /-- What happens at each time, if anything does. -/
  event : Nat → Option (Service.Event η)
  begins : (now 0).Begins
  rests : ∀ t, event t = none → now (t + 1) = now t
  goes : ∀ t e, event t = some e → (now t).next? h e = some (now (t + 1))

namespace Course

variable {h : Handler η τ} (c : Course h)

/-- No agent that can go on from some time on waits for ever. -/
def Fair : Prop :=
  ∀ agent t, ∃ t', t ≤ t' ∧ (c.event t' = some (.step agent)
    ∨ (c.now t').server.step h agent = none)

/-- The handling of every notification comes to its end. -/
def Attentive : Prop :=
  ∀ t stage, (c.now t).server.loop = .handling stage →
    ∃ t', t ≤ t' ∧ ∀ stage, (c.now t').server.loop ≠ .handling stage

/-- Nobody has asked for the connection to be closed while the loop reads. -/
def Unclosed : Prop :=
  ∀ t begun, (c.now t).server.loop = .reading begun →
    (c.now t).server.connection.closeRequested = false

/-- These bytes arrive, and then the stream ends. -/
def Receives (stream : List UInt8) : Prop :=
  ∃ t, (c.now t).fed = stream ∧ (c.now t).server.inputEnded = true

/-! ## What stays -/

/-- What every event keeps from some time on holds from then on. -/
theorem stays {P : Service η τ → Prop} {t₀ : Nat} (hstart : P (c.now t₀))
    (hnext : ∀ t e, t₀ ≤ t → P (c.now t) → (c.now t).next? h e = some (c.now (t + 1)) →
      P (c.now (t + 1))) {t : Nat} (ht : t₀ ≤ t) : P (c.now t) := by
  induction t, ht using Nat.le_induction with
  | base => exact hstart
  | succ t ht ih =>
    cases hevent : c.event t with
    | none =>
      rw [c.rests t hevent]
      exact ih
    | some e => exact hnext t e ht ih (c.goes t e hevent)

/-- At any time the server is tended. -/
theorem tended (t : Nat) : (c.now t).server.Tended := by
  refine c.stays (P := fun s => s.server.Tended) ?_
    (fun t e _ hs hnext => Service.tended_next? hs hnext) (Nat.zero_le t)
  obtain ⟨connection, state, -, hable, heq⟩ := c.begins.running
  rw [heq]
  exact ⟨nofun, nofun, fun _ => hable, nofun⟩

/-- At any time it keeps to its stream, if nobody asks for the connection to be closed while the
loop reads. -/
theorem tracks (hunclosed : c.Unclosed) (t : Nat) : (c.now t).Tracks :=
  c.stays c.begins.tracks
    (fun t _ _ hs hnext => Service.tracks_next? hs hnext (hunclosed t)) (Nat.zero_le t)

/-! ## The stream -/

/-- Bytes only come, and none once the stream has ended. -/
theorem exists_fed {t t' : Nat} (ht : t ≤ t') :
    ∃ more, (c.now t).MayCome more ∧ (c.now t').fed = (c.now t).fed ++ more
      ∧ ((c.now t).server.inputEnded = true → (c.now t').server.inputEnded = true) := by
  refine c.stays (P := fun s => ∃ more, (c.now t).MayCome more ∧ s.fed = (c.now t).fed ++ more
    ∧ ((c.now t).server.inputEnded = true → s.server.inputEnded = true))
    ⟨[], fun _ => rfl, by simp, id⟩ ?_ ht
  rintro u e - ⟨more, hmore, hfed, hended⟩ hnext
  obtain ⟨extra, hextra, hfed', hended'⟩ := Service.fed_next? hnext
  refine ⟨more ++ extra, fun h => ?_, ?_, fun h => hended' (hended h)⟩
  · rw [hmore h, hextra (hended h), List.append_nil]
  · rw [hfed', hfed, List.append_assoc]

/-- At any time, the bytes that are still to come complete the stream. -/
theorem awaits {stream : List UInt8} (hreceives : c.Receives stream) (t : Nat) :
    (c.now t).Awaits stream := by
  obtain ⟨u, rfl, hended⟩ := hreceives
  rcases Nat.le_total t u with htu | hut
  · obtain ⟨more, hmore, hfed, -⟩ := c.exists_fed htu
    exact ⟨more, hmore, hfed.symm⟩
  · obtain ⟨more, hmore, hfed, -⟩ := c.exists_fed hut
    refine ⟨[], fun _ => rfl, ?_⟩
    rw [hfed, hmore hended, List.append_nil, List.append_nil]

/-- **What a server has dispatched are the first frames of its stream,** and if it has left the
stream, there is no frame after them. -/
theorem exists_rest {stream : List UInt8} (hreceives : c.Receives stream) {t : Nat}
    (htracks : (c.now t).Tracks) :
    ∃ rest, Frame.readFrames? true (c.now t).dispatched.length stream
        = some ((c.now t).dispatched, rest)
      ∧ ∀ fault, (c.now t).server.loop.left? = some fault →
        Frame.read true rest = .atEnd fault := by
  obtain ⟨more, hmore, hstream⟩ := c.awaits hreceives t
  refine ⟨(c.now t).unread more, ?_, fun fault hleft => htracks.left fault hleft more hmore⟩
  rw [← hstream]
  exact htracks.dispatched more hmore

/-! ## What happens sooner or later -/

variable {c}

/-- **An agent that can go on does so.** If the property keeps the agent able to go on, and whatever
others do keeps the property, then the agent takes a step while the property holds. -/
theorem Fair.acts (hfair : c.Fair) (agent : Agent) {P : Service η τ → Prop}
    (hkeeps : ∀ {s s' e}, P s → e ≠ .step agent → s.next? h e = some s' → P s')
    (hable : ∀ {s}, P s → s.server.step h agent ≠ none) {t : Nat} (ht : P (c.now t)) :
    ∃ t', t ≤ t' ∧ P (c.now t')
      ∧ (c.now t').next? h (.step agent) = some (c.now (t' + 1)) := by
  obtain ⟨u, htu, hu⟩ := hfair agent t
  obtain ⟨d, rfl⟩ := Nat.exists_eq_add_of_le htu
  clear htu
  -- On how far off the time is at which the agent acts or cannot.
  induction d generalizing t with
  | zero =>
    obtain hevent | hnone := hu
    · exact ⟨t, Nat.le_refl t, ht, c.goes _ _ hevent⟩
    · exact absurd hnone (hable ht)
  | succ d ih =>
    by_cases hevent : c.event t = some (.step agent)
    · exact ⟨t, Nat.le_refl t, ht, c.goes _ _ hevent⟩
    · have hsucc : P (c.now (t + 1)) := by
        cases he : c.event t with
        | none =>
          rw [c.rests t he]
          exact ht
        | some e => exact hkeeps ht (fun heq => hevent (heq ▸ he)) (c.goes t e he)
      rw [← Nat.add_assoc, Nat.add_right_comm] at hu
      obtain ⟨t', ht', hP, hgoes⟩ := ih hsucc hu
      exact ⟨t', by omega, hP, hgoes⟩

/-! ## The loop comes to the end of its stream -/

end Course

namespace Server

variable {h : Handler η τ} {s s' : Server η τ}

/-- How much the loop has ahead of it: every byte is read once, and before that it is taken. -/
def ahead (s : Server η τ) : Nat :=
  2 * s.arrived.length + s.input.length

/-- A loop that reads a stream that has ended can always go on. -/
theorem stepLoop_ne_none {begun : Bool} (hloop : s.loop = .reading begun)
    (hended : s.inputEnded = true) : s.stepLoop h ≠ none := by
  unfold stepLoop
  rw [hloop]
  dsimp only
  split
  · simp
  · split
    · case h_1 missing hreading =>
      -- It asks for more only if more has arrived.
      split
      · case isTrue hempty =>
        rw [reading, hended, hempty] at hreading
        exact absurd hreading (Frame.readHeaders_ne_more missing)
      · simp
    all_goals simp

/-- **A step of the reading loop brings it nearer to the end of the stream,** or is its last. -/
theorem LoopStep.ahead_lt {bodies : List (List UInt8)} {begun : Bool}
    (hstep : LoopStep h s s' bodies) (hloop : s.loop = .reading begun) :
    s'.loop.left?.isSome = true ∨ s'.ahead < s.ahead := by
  cases hstep with
  | closes _ _ heq | leaves _ _ heq =>
    subst heq
    exact .inl rfl
  | @takes _ missing _ harrived heq =>
    subst heq
    have hpos : 0 < s.arrived.length := List.length_pos_iff.mpr harrived
    have hportion : 0 < portion := by decide
    refine .inr ?_
    simp only [ahead, take, List.length_append, List.length_take, List.length_drop]
    omega
  | @dispatches _ body rest _ hreading heq =>
    obtain ⟨connection, tasks, loop, hreceive, -⟩ :=
      receive_cases (h := h) { s with input := rest, loop := .reading false } body
    have hshorter : rest.length < s.input.length := Frame.length_of_read hreading
    rw [heq, hreceive]
    refine .inr ?_
    simp only [ahead]
    omega
  | handles hhandling => cases hloop.symm.trans hhandling
  | ends hdraining => cases hloop.symm.trans hdraining

end Server

namespace Course

variable {h : Handler η τ} {c : Course h}

/-- The loop handles a notification until it is done with it. -/
theorem handling_next? {s s' : Service η τ} {e : Service.Event η} {stage : τ}
    (hloop : s.server.loop = .handling stage) (hnext : s.next? h e = some s') :
    (∃ stage, s'.server.loop = .handling stage) ∨ s'.server.loop = .reading false := by
  by_cases he : e = .step .loop
  · subst he
    obtain ⟨bodies, hstep, -⟩ := Service.loopStep_of_next? hnext
    cases hstep with
    | @handles _ turn _ _ heq =>
      rw [heq]
      cases turn.progress with
      | more stage => exact .inl ⟨stage, rfl⟩
      | done outcome => exact .inr rfl
    | closes hreading | leaves hreading | takes hreading | dispatches hreading | ends hreading =>
      cases hloop.symm.trans hreading
  · exact .inl ⟨stage, (Service.aside_next? hnext he).loop.trans hloop⟩

/-- **The loop is done with a notification** sooner or later, and until then holds what its handling
and the others keep. -/
theorem Attentive.heeds (hattentive : c.Attentive) {P : Service η τ → Prop}
    (hkeeps : ∀ {s s' e stage}, P s → s.server.loop = .handling stage →
      s.next? h e = some s' → P s') {t : Nat} {stage : τ}
    (hloop : (c.now t).server.loop = .handling stage) (ht : P (c.now t)) :
    ∃ t', t ≤ t' ∧ P (c.now t') ∧ (c.now t').server.loop = .reading false := by
  obtain ⟨u, htu, hdone⟩ := hattentive t stage hloop
  obtain ⟨d, rfl⟩ := Nat.exists_eq_add_of_le htu
  clear htu
  -- On how far off the time is at which no notification is being handled.
  induction d generalizing t stage with
  | zero => exact absurd hloop (hdone stage)
  | succ d ih =>
    obtain ⟨hsucc, hloop'⟩ : P (c.now (t + 1))
        ∧ ((∃ stage, (c.now (t + 1)).server.loop = .handling stage)
          ∨ (c.now (t + 1)).server.loop = .reading false) := by
      cases he : c.event t with
      | none =>
        rw [c.rests t he]
        exact ⟨ht, .inl ⟨stage, hloop⟩⟩
      | some e => exact ⟨hkeeps ht hloop (c.goes t e he), handling_next? hloop (c.goes t e he)⟩
    obtain ⟨stage', hhandling⟩ | hreading := hloop'
    · rw [← Nat.add_assoc, Nat.add_right_comm] at hdone
      obtain ⟨t', ht', hP, hreading⟩ := ih hhandling hsucc hdone
      exact ⟨t', by omega, hP, hreading⟩
    · exact ⟨t + 1, by omega, hsucc, hreading⟩

/-- **What brings the loop to leave its stream.** While a property holds, which everything keeps,
the loop can read on whenever it reads; this brings it nearer to some goal or is the last that it
reads, and nothing else takes it farther from the goal. -/
structure Nearing (h : Handler η τ) (P : Service η τ → Prop) (distance : Service η τ → Nat) :
    Prop where
  keeps : ∀ {s s' e}, P s → s.next? h e = some s' → P s'
  able : ∀ {s begun}, P s → s.server.loop = .reading begun → s.server.stepLoop h ≠ none
  nearer : ∀ {s s' begun}, P s → s.server.loop = .reading begun →
    s.next? h (.step .loop) = some s' →
    s'.server.loop.left?.isSome = true ∨ distance s' < distance s
  aside : ∀ {s s'}, P s → s.Aside s' → distance s' = distance s
  handling : ∀ (s : Service η τ) turn loop,
    distance { s with server := { s.server.apply turn with loop } } = distance s

variable {P : Service η τ → Prop} {distance : Service η τ → Nat}

/-- While a notification is being handled, the loop is as far from its goal. -/
theorem Nearing.distance_handling (hnearing : Nearing h P distance) {s s' : Service η τ}
    {e : Service.Event η} {stage : τ} (hs : P s) (hloop : s.server.loop = .handling stage)
    (hnext : s.next? h e = some s') : distance s' = distance s := by
  by_cases he : e = .step .loop
  · subst he
    obtain ⟨bodies, hstep, heq⟩ := Service.loopStep_of_next? hnext
    cases hstep with
    | handles _ _ hserver =>
      rw [heq, hserver, List.append_nil]
      exact hnearing.handling s _ _
    | closes hreading | leaves hreading | takes hreading | dispatches hreading | ends hreading =>
      cases hloop.symm.trans hreading
  · exact hnearing.aside hs (Service.aside_next? hnext he)

/-- A loop that reads brings itself to the goal or nearer, as soon as it is its turn. Until then
others leave it as far. -/
theorem Nearing.reads (hnearing : Nearing h P distance) (hfair : c.Fair) {t : Nat} {begun : Bool}
    (ht : P (c.now t)) (hloop : (c.now t).server.loop = .reading begun) :
    ∃ t', t ≤ t' ∧ P (c.now t') ∧ ((c.now t').server.loop.left?.isSome = true
      ∨ distance (c.now t') < distance (c.now t)) := by
  obtain ⟨u, htu, ⟨hP, hloop', hdistance⟩, hgoes⟩ := hfair.acts .loop
    (P := fun s => P s ∧ s.server.loop = .reading begun ∧ distance s = distance (c.now t))
    (fun hP hother hnext =>
      have haside := Service.aside_next? hnext hother
      ⟨hnearing.keeps hP.1 hnext, haside.loop.trans hP.2.1,
        (hnearing.aside hP.1 haside).trans hP.2.2⟩)
    (fun hP => hnearing.able hP.1 hP.2.1) ⟨ht, hloop, rfl⟩
  exact ⟨u + 1, by omega, hnearing.keeps hP hgoes, hdistance ▸ hnearing.nearer hP hloop' hgoes⟩

/-- **The loop leaves its stream,** sooner or later. -/
theorem Nearing.leaves (hnearing : Nearing h P distance) (hfair : c.Fair)
    (hattentive : c.Attentive) {t : Nat} (ht : P (c.now t)) :
    ∃ t', t ≤ t' ∧ (c.now t').server.loop.left?.isSome = true := by
  -- On how far the loop is from its goal.
  induction hn : distance (c.now t) using Nat.strongRecOn generalizing t with
  | ind n ih =>
    -- Reading brings it there or nearer.
    have hreads : ∀ u begun, t ≤ u → P (c.now u) → distance (c.now u) = n →
        (c.now u).server.loop = .reading begun →
        ∃ t', t ≤ t' ∧ (c.now t').server.loop.left?.isSome = true := by
      intro u begun htu hP hdistance hloop
      obtain ⟨v, huv, hP', hleft | hless⟩ := hnearing.reads hfair hP hloop
      · exact ⟨v, by omega, hleft⟩
      · obtain ⟨t', ht', hleft⟩ := ih _ (hdistance ▸ hless) hP' rfl
        exact ⟨t', by omega, hleft⟩
    cases hloop : (c.now t).server.loop with
    | idle => exact absurd hloop (c.tended t).begun
    | reading begun => exact hreads t begun (Nat.le_refl t) ht hn hloop
    | handling stage =>
      obtain ⟨u, htu, ⟨hP, hdistance⟩, hreading⟩ := hattentive.heeds
        (P := fun s => P s ∧ distance s = n)
        (fun hP hloop hnext => ⟨hnearing.keeps hP.1 hnext,
          (hnearing.distance_handling hP.1 hloop hnext).trans hP.2⟩) hloop ⟨ht, hn⟩
      exact hreads u false htu hP hdistance hreading
    | draining fault => exact ⟨t, Nat.le_refl t, by rw [hloop]; rfl⟩
    | ended fault => exact ⟨t, Nat.le_refl t, by rw [hloop]; rfl⟩

/-- A stream that has ended stays so, and the loop comes nearer to its end. -/
theorem nearing_end (h : Handler η τ) :
    Nearing h (fun s => s.server.inputEnded = true) (fun s => s.server.ahead) where
  keeps hended hnext := by
    obtain ⟨-, -, -, hkept⟩ := Service.fed_next? hnext
    exact hkept hended
  able hended hloop := Server.stepLoop_ne_none hloop hended
  nearer hended hloop hnext := by
    obtain ⟨bodies, hstep, -⟩ := Service.loopStep_of_next? hnext
    exact hstep.ahead_lt hloop
  aside hended haside := by
    obtain ⟨more, hmore, -, harrived⟩ := haside.bytes
    rw [Server.ahead, Server.ahead, haside.input, harrived, hmore hended, List.append_nil]
  handling s turn loop := rfl

/-! ## The writer comes to its end -/

/-- While the loop waits for the writer, only the writer changes the queue. -/
theorem draining_next? {s s' : Service η τ} {e : Service.Event η} {fault : Option FrameError}
    (htended : s.server.Tended) (hloop : s.server.loop = .draining fault)
    (hactive : s.server.writer = .active) (hother : e ≠ .step .writer)
    (hnext : s.next? h e = some s') :
    s'.server.loop = .draining fault ∧ s'.server.writer = .active
      ∧ s'.server.connection.queue = s.server.connection.queue := by
  by_cases he : e = .step .loop
  · subst he
    obtain ⟨server, hstep, -⟩ := Option.map_eq_some_iff.mp hnext
    simp [Server.step, Server.stepLoop, hloop, hactive] at hstep
  · have hbeside := Service.beside_next? hnext he hother
    obtain ⟨asks, honward⟩ := hbeside.connection
    refine ⟨hbeside.loop.trans hloop, hbeside.writer.trans hactive, honward.refused ?_⟩
    simp [Connection.accepts, (htended.stopping fault hloop).1]

/-- The writer can go on while it is told to. -/
theorem stepWriter_ne_none {s : Server η τ} {fault : Option FrameError} (htended : s.Tended)
    (hloop : s.loop = .draining fault) (hactive : s.writer = .active) : s.stepWriter ≠ none := by
  have hstop := (htended.stopping fault hloop).2 hactive
  cases hqueue : s.connection.queue with
  | nil => simp [hqueue] at hstop
  | cons command queue =>
    cases command with
    | send message =>
      simp only [Server.stepWriter, hactive, Connection.take?, hqueue]
      split <;> simp
    | stop => simp [Server.stepWriter, hactive, Connection.take?, hqueue]

/-- **The writer ends** sooner or later once the loop waits for it. -/
theorem Fair.drains (hfair : c.Fair) {t : Nat} {fault : Option FrameError}
    (hloop : (c.now t).server.loop = .draining fault) :
    ∃ t', t ≤ t' ∧ (c.now t').server.loop = .draining fault
      ∧ (c.now t').server.writer = .ended := by
  -- On the length of the queue, to which nothing is added any more.
  induction hn : (c.now t).server.connection.queue.length using Nat.strongRecOn
    generalizing t with
  | ind n ih =>
    cases hwriter : (c.now t).server.writer with
    | idle => exact absurd hwriter (c.tended t).writing
    | ended => exact ⟨t, Nat.le_refl t, hloop, hwriter⟩
    | active =>
      -- Until the writer acts, the queue stays as it is: the loop waits, and the connection takes
      -- no more.
      obtain ⟨u, htu, ⟨htended, hloop', hactive, hqueue⟩, hgoes⟩ := hfair.acts .writer
        (P := fun s => s.server.Tended ∧ s.server.loop = .draining fault
          ∧ s.server.writer = .active
          ∧ s.server.connection.queue = (c.now t).server.connection.queue)
        (fun hP hother hnext =>
          have hdraining := draining_next? hP.1 hP.2.1 hP.2.2.1 hother hnext
          ⟨Service.tended_next? hP.1 hnext, hdraining.1, hdraining.2.1,
            hdraining.2.2.trans hP.2.2.2⟩)
        (fun hP => stepWriter_ne_none hP.1 hP.2.1 hP.2.2.1)
        ⟨c.tended t, hloop, hwriter, rfl⟩
      cases Service.writerStep_of_next? hgoes with
      | @writes message queue _ hqueue' heq =>
        have hshorter : queue.length < n := by
          rw [← hn, ← hqueue, hqueue', List.length_cons]
          omega
        obtain ⟨t', ht', hends⟩ := ih _ hshorter (t := u + 1) (by rw [heq]; exact hloop')
          (by rw [heq])
        exact ⟨t', by omega, hends⟩
      | fails _ _ heq => exact ⟨u + 1, by omega, by rw [heq]; exact hloop', by rw [heq]⟩
      | stops _ _ heq => exact ⟨u + 1, by omega, by rw [heq]; exact hloop', by rw [heq]⟩

/-- A writer that has ended does nothing. -/
theorem ended_next? {s s' : Service η τ} {e : Service.Event η}
    (hwriter : s.server.writer = .ended) (hother : e ≠ .step .loop)
    (hnext : s.next? h e = some s') :
    s'.server.loop = s.server.loop ∧ s'.server.writer = .ended := by
  by_cases he : e = .step .writer
  · subst he
    cases Service.writerStep_of_next? hnext with
    | writes hactive | fails hactive | stops hactive => cases hwriter.symm.trans hactive
  · have hbeside := Service.beside_next? hnext hother he
    exact ⟨hbeside.loop, hbeside.writer.trans hwriter⟩

/-- The loop ends once the writer has, as nothing else is left for it to wait for. -/
theorem Fair.ends (hfair : c.Fair) {t : Nat} {fault : Option FrameError}
    (hloop : (c.now t).server.loop = .draining fault)
    (hwriter : (c.now t).server.writer = .ended) :
    ∃ t', t ≤ t' ∧ (c.now t').server.loop = .ended fault := by
  obtain ⟨u, htu, ⟨hloop', -⟩, hgoes⟩ := hfair.acts .loop
    (P := fun s => s.server.loop = .draining fault ∧ s.server.writer = .ended)
    (fun hP hother hnext =>
      have hends := ended_next? hP.2 hother hnext
      ⟨hends.1.trans hP.1, hends.2⟩)
    (fun hP => by simp [Server.step, Server.stepLoop, hP.1, hP.2]) ⟨hloop, hwriter⟩
  obtain ⟨bodies, hstep, -⟩ := Service.loopStep_of_next? hgoes
  cases hstep with
  | ends hdraining heq =>
    cases hloop'.symm.trans hdraining
    exact ⟨u + 1, by omega, by rw [heq]⟩
  | closes hreading | leaves hreading | takes hreading | dispatches hreading | handles hreading =>
    cases hloop'.symm.trans hreading

/-- A server that has returned has returned for good. -/
theorem ended_stays {t t' : Nat} {fault : Option FrameError} (ht : t ≤ t')
    (hloop : (c.now t).server.loop = .ended fault) : (c.now t').server.loop = .ended fault := by
  refine c.stays (P := fun s => s.server.loop = .ended fault) hloop ?_ ht
  intro u e _ hended hnext
  by_cases he : e = .step .loop
  · subst he
    obtain ⟨server, hstep, -⟩ := Option.map_eq_some_iff.mp hnext
    simp [Server.step, Server.stepLoop, hended] at hstep
  · exact (Service.aside_next? hnext he).loop.trans hended

/-- **A server whose loop has left its stream returns,** with the fault of the stream if it had
one. -/
theorem returns_of_left (hfair : c.Fair) {t : Nat} {fault : Option FrameError}
    (hleft : (c.now t).server.loop.left? = some fault) :
    ∃ t', ∀ t'', t' ≤ t'' → (c.now t'').server.loop = .ended fault := by
  obtain ⟨v, hv⟩ : ∃ v, (c.now v).server.loop = .ended fault := by
    cases hloop : (c.now t).server.loop with
    | idle | reading | handling => simp [hloop, Loop.left?] at hleft
    | draining fault' =>
      obtain rfl : fault' = fault := by simpa [hloop, Loop.left?] using hleft
      -- It waits for the writer, the writer ends, and then the loop does.
      obtain ⟨v, -, hdraining, hwriter⟩ := hfair.drains hloop
      obtain ⟨w, -, hw⟩ := hfair.ends hdraining hwriter
      exact ⟨w, hw⟩
    | ended fault' =>
      obtain rfl : fault' = fault := by simpa [hloop, Loop.left?] using hleft
      exact ⟨t, hloop⟩
  exact ⟨v, fun t' ht' => ended_stays ht' hv⟩

/-- **A server whose stream ends returns.** -/
theorem returns (hfair : c.Fair) (hattentive : c.Attentive) {stream : List UInt8}
    (hreceives : c.Receives stream) :
    ∃ fault t, ∀ t', t ≤ t' → (c.now t').server.loop = .ended fault := by
  obtain ⟨t, -, hended⟩ := hreceives
  obtain ⟨u, -, hleft⟩ := (nearing_end h).leaves hfair hattentive hended
  obtain ⟨fault, hfault⟩ := Option.isSome_iff_exists.mp hleft
  exact ⟨fault, returns_of_left hfair hfault⟩

end Course

/-! ## Courses of finitely many events -/

namespace Service

variable {h : Handler η τ} {s s' : Service η τ} {events more : List (Event η)}

/-- The service after some events, one after the other. -/
def run? (h : Handler η τ) : Service η τ → List (Event η) → Option (Service η τ)
  | s, [] => some s
  | s, e :: events => (s.next? h e).bind fun s => run? h s events

/-- Events can be cut anywhere. -/
theorem run?_append :
    s.run? h (events ++ more) = (s.run? h events).bind fun s => s.run? h more := by
  induction events generalizing s with
  | nil => rfl
  | cons e events ih =>
    rw [List.cons_append, run?, run?]
    cases s.next? h e with
    | none => rfl
    | some u => exact ih

/-- A run goes through its events one by one. -/
theorem exists_run?_take (hrun : s.run? h events = some s') (t : Nat) :
    ∃ u, s.run? h (events.take t) = some u ∧ u.run? h (events.drop t) = some s' := by
  rw [← List.take_append_drop t events, run?_append] at hrun
  exact Option.bind_eq_some_iff.mp hrun

/-- Each event of a run happens where the events before it have led. -/
theorem next?_of_run? (hrun : s.run? h events = some s') {t : Nat} {e : Event η}
    (he : events[t]? = some e) :
    ∃ u v, s.run? h (events.take t) = some u ∧ u.next? h e = some v
      ∧ s.run? h (events.take (t + 1)) = some v := by
  obtain ⟨u, hu, hrest⟩ := exists_run?_take hrun t
  rw [List.drop_eq_getElem?_toList_append, he, Option.toList_some, List.singleton_append, run?]
    at hrest
  obtain ⟨v, hv, -⟩ := Option.bind_eq_some_iff.mp hrest
  refine ⟨u, v, hu, hv, ?_⟩
  rw [List.take_add_one, he, run?_append, hu]
  simp [run?, hv]

end Service

namespace Course

variable {h : Handler η τ} {s s' : Service η τ} {events : List (Service.Event η)}

/-- **Every run is the beginning of a course,** after which nothing happens. -/
def ofRun (hbegins : s.Begins) (hrun : s.run? h events = some s') : Course h where
  now t := (s.run? h (events.take t)).getD s
  event t := events[t]?
  begins := by simpa [Service.run?] using hbegins
  rests t ht := by rw [List.take_add_one, ht, Option.toList_none, List.append_nil]
  goes t e he := by
    obtain ⟨u, v, hu, hnext, hv⟩ := Service.next?_of_run? hrun he
    rw [hu, hv]
    exact hnext

variable {hbegins : s.Begins} {hrun : s.run? h events = some s'}

/-- After its events, the course stays where the run has come to. -/
theorem now_ofRun {t : Nat} (ht : events.length ≤ t) : (ofRun hbegins hrun).now t = s' := by
  simp only [ofRun, List.take_of_length_le ht, hrun, Option.getD_some]

/-- What holds at every time of a run holds at every time. -/
theorem forall_ofRun {P : Service η τ → Prop}
    (h : ∀ t < events.length + 1, P ((ofRun hbegins hrun).now t)) (t : Nat) :
    P ((ofRun hbegins hrun).now t) := by
  rcases Nat.lt_or_ge t (events.length + 1) with ht | ht
  · exact h t ht
  · have hlast := h events.length (Nat.lt_succ_self _)
    rw [now_ofRun (Nat.le_refl _)] at hlast
    rwa [now_ofRun (by omega)]

/-- A run after which nobody can go on is fair. -/
theorem fair_ofRun (hquiet : ∀ agent, s'.server.step h agent = none) :
    (ofRun hbegins hrun).Fair := by
  intro agent t
  refine ⟨max t events.length, Nat.le_max_left _ _, .inr ?_⟩
  rw [now_ofRun (Nat.le_max_right _ _)]
  exact hquiet agent

/-- A run after which no notification is being handled is attentive. -/
theorem attentive_ofRun (hdone : ∀ stage, s'.server.loop ≠ .handling stage) :
    (ofRun hbegins hrun).Attentive := by
  intro t _ _
  refine ⟨max t events.length, Nat.le_max_left _ _, fun stage => ?_⟩
  rw [now_ofRun (Nat.le_max_right _ _)]
  exact hdone stage

end Course

end FlagServer
