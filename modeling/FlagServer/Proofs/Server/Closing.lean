import FlagServer.Proofs.Server.Course

/-!
# Bodies after which nothing is read

A notification may ask for the connection to be closed, and the loop looks for such a wish before it
reads on. So if the last of the first bodies of a stream is such a notification, the loop **never
comes to what follows them,** however much of it has arrived.

* `Handler.Closes` says that a body is a notification with one stage, in which the handler asks to
  close.
* `Conclusive` says that some bytes are frames whatever follows them, and that the last one closes.
* `Service.Within` is the invariant, and `Service.within_next?` the step: what is dispatched is
  among the bodies, and the stream is left without a fault.
* `Course.ReceivesFirst.returns` says that a server to which the bytes have come returns.
-/

namespace FlagServer

variable {η τ : Type}

/-! ## Who closes -/

/-- The stage is the last of its message, and it asks for the connection to be closed. -/
def Handler.ClosesAt (h : Handler η τ) (stage : τ) : Prop :=
  ∀ state turn, h.step false stage state = some turn →
    turn.close = true ∧ ∃ outcome, turn.progress = .done outcome

/-- The body is a notification whose handling is to ask for the connection to be closed. -/
def Handler.Closes (h : Handler η τ) (body : List UInt8) : Prop :=
  ∀ c : Connection, ∃ n, (c.dispatch h.registry body).2 = .notification n
    ∧ h.ClosesAt (h.notification n)

/-- There is no notification in an empty body. -/
theorem Handler.Closes.ne_nil {h : Handler η τ} {body : List UInt8} (hbody : h.Closes body) :
    body ≠ [] := by
  rintro rfl
  obtain ⟨n, hn, -⟩ := hbody {}
  cases hn

/-- The loop handles such a body next. -/
theorem Handler.Closes.receive {h : Handler η τ} {body : List UInt8} (hbody : h.Closes body)
    (s : Server η τ) :
    ∃ stage, (s.receive h body).loop = .handling stage ∧ h.ClosesAt stage := by
  obtain ⟨n, hn, hcloses⟩ := hbody s.connection
  refine ⟨h.notification n, ?_, hcloses⟩
  rw [Server.receive]
  simp [hn]

/-- **The bytes are frames of these bodies, whatever follows them, and the last body closes.** -/
structure Conclusive (h : Handler η τ) (front : List UInt8) (bodies : List (List UInt8)) :
    Prop where
  frames : ∀ tail, Frame.readFrames? true bodies.length (front ++ tail) = some (bodies, tail)
  closes : ∃ before body, bodies = before ++ [body] ∧ h.Closes body

/-- Where the bodies end, the body closes. -/
theorem Conclusive.closes_last {h : Handler η τ} {front body : List UInt8}
    {bodies before : List (List UInt8)} (hfront : Conclusive h front bodies)
    (hall : before ++ [body] = bodies) : h.Closes body := by
  obtain ⟨before', last, hbodies, hcloses⟩ := hfront.closes
  obtain ⟨-, hsame⟩ := List.append_inj' (hall.trans hbodies) rfl
  cases hsame
  exact hcloses

/-- **A wish to close is not taken back.** -/
theorem Service.closeRequested_next? {h : Handler η τ} {s s' : Service η τ} {e : Event η}
    (hnext : s.next? h e = some s') (hclose : s.server.connection.closeRequested = true) :
    s'.server.connection.closeRequested = true := by
  by_cases hloop : e = .step .loop
  · subst hloop
    obtain ⟨bodies, hstep, -⟩ := loopStep_of_next? hnext
    cases hstep with
    | closes _ _ heq =>
      rw [heq]
      exact s.server.connection.shutDown_spec.2.2.1.trans hclose
    | leaves _ _ _ hopen | takes _ _ _ _ hopen | dispatches _ _ _ hopen =>
      rw [hopen] at hclose
      cases hclose
    | @handles _ turn _ _ heq =>
      rw [heq]
      have hwish := (Server.onward_apply s.server turn).wish
      rw [hclose, Bool.true_or] at hwish
      exact hwish
    | ends _ heq =>
      rw [heq]
      exact hclose
  · by_cases hwriter : e = .step .writer
    · subst hwriter
      cases writerStep_of_next? hnext with
      | writes _ _ heq | stops _ _ heq =>
        rw [heq]
        exact hclose
      | fails _ _ heq => rw [heq, Connection.failWriter]
    · obtain ⟨asks, honward⟩ := (beside_next? hnext hloop hwriter).connection
      rw [honward.wish, hclose, Bool.true_or]

namespace Service

variable {h : Handler η τ} {s s' : Service η τ} {e : Event η}
  {front tail : List UInt8} {bodies : List (List UInt8)}

/-! ## No further than the bodies -/

/-- The loop does not read on: where it reads, it has been asked to close, and what it handles is
about to ask. -/
structure Closing (h : Handler η τ) (s : Service η τ) : Prop where
  reading : ∀ begun, s.server.loop = .reading begun → s.server.connection.closeRequested = true
  handling : ∀ stage, s.server.loop = .handling stage → h.ClosesAt stage

/-- A loop that has left the stream does not read on. -/
theorem Closing.of_left (hleft : s.server.loop.left?.isSome = true) : s.Closing h where
  reading begun hloop := by simp [hloop, Loop.left?] at hleft
  handling stage hloop := by simp [hloop, Loop.left?] at hleft

/-- **A service stays within some bodies:** it has dispatched no others, when it has dispatched all
of them it does not read on, and if it has left its stream, then without a fault. -/
structure Within (h : Handler η τ) (bodies : List (List UInt8)) (s : Service η τ) : Prop where
  follows : s.Follows
  dispatched : s.dispatched <+: bodies
  closing : s.dispatched = bodies → s.Closing h
  left : ∀ fault, s.server.loop.left? = some fault → fault = none

/-- While there are bodies to come, the next of them is what the stream says next, and what follows
it has at least what follows all of them. -/
theorem Within.read_next (hs : s.Within h bodies) (hfront : Conclusive h front bodies)
    {more : List UInt8} (hmore : s.MayCome more) (hstream : s.fed ++ more = front ++ tail)
    (hsome : s.dispatched ≠ bodies) :
    ∃ body after, Frame.read true (s.unread more) = .frame body after
      ∧ s.dispatched ++ [body] <+: bodies ∧ tail.length ≤ after.length := by
  have hread := hs.follows more hmore
  rw [hstream] at hread
  refine Frame.readFrames?_next hread (hfront.frames tail) (hs.dispatched.length_le.lt_of_ne ?_)
  exact fun hlength => hsome (hs.dispatched.eq_of_length hlength)

/-- A loop that may read on has bodies to come. -/
theorem Within.ne_of_open {begun : Bool} (hs : s.Within h bodies)
    (hloop : s.server.loop = .reading begun)
    (hopen : s.server.connection.closeRequested = false) : s.dispatched ≠ bodies := by
  intro hall
  have hclose := (hs.closing hall).reading begun hloop
  rw [hopen] at hclose
  cases hclose

/-- **The loop reads the next body,** once it reads something. -/
theorem Within.reading_eq {begun : Bool} (hs : s.Within h bodies)
    (hfront : Conclusive h front bodies) (hawaits : s.Awaits (front ++ tail))
    (hloop : s.server.loop = .reading begun)
    (hopen : s.server.connection.closeRequested = false)
    (hreading : ∀ n, s.server.reading ≠ .more n) :
    ∃ body rest, s.server.reading = .frame body rest ∧ s.dispatched ++ [body] <+: bodies := by
  obtain ⟨more, hmore, hstream⟩ := hawaits
  obtain ⟨body, after, hnext, hbeginning, -⟩ :=
    hs.read_next hfront hmore hstream (hs.ne_of_open hloop hopen)
  rw [read_unread hmore hreading] at hnext
  cases hread : s.server.reading with
  | frame body' rest =>
    rw [hread, Frame.Reading.before_frame] at hnext
    cases hnext
    exact ⟨body, rest, rfl, hbeginning⟩
  | more n => exact absurd hread (hreading n)
  | finished | fault =>
    rw [hread] at hnext
    cases hnext

/-- What others do does not bring the loop beyond the bodies. -/
theorem Within.aside (hs : s.Within h bodies) (haside : s.Aside s')
    (hwish : s.server.connection.closeRequested = true →
      s'.server.connection.closeRequested = true) : s'.Within h bodies where
  follows := hs.follows.aside haside
  dispatched := haside.dispatched ▸ hs.dispatched
  closing hall := by
    rw [haside.dispatched] at hall
    obtain ⟨hreading, hhandling⟩ := hs.closing hall
    exact ⟨fun begun hloop => hwish (hreading begun (haside.loop ▸ hloop)),
      fun stage hloop => hhandling stage (haside.loop ▸ hloop)⟩
  left fault hleft := hs.left fault (haside.loop ▸ hleft)

/-- **The loop stays within the bodies,** whatever it does. It reads on only while there are bodies
to come, and then what it reads is the next of them. -/
theorem Within.loopStep {server : Server η τ} {delivered : List (List UInt8)}
    (hs : s.Within h bodies) (hfront : Conclusive h front bodies)
    (hawaits : s.Awaits (front ++ tail)) (hstep : Server.LoopStep h s.server server delivered) :
    ({ s with server, dispatched := s.dispatched ++ delivered } : Service η τ).Within h bodies := by
  have hfollows := hs.follows.loopStep hstep
  cases hstep with
  | closes hloop hclose heq =>
    subst heq
    rw [List.append_nil] at hfollows ⊢
    refine ⟨hfollows, hs.dispatched, fun _ => .of_left rfl, fun fault hleft => ?_⟩
    cases hleft
    rfl
  | @leaves begun fault hloop hreading heq hopen =>
    -- There is a body to come, so the stream is not over.
    obtain ⟨body, rest, hframe, -⟩ := hs.reading_eq hfront hawaits hloop hopen
      (by rw [hreading]; cases fault <;> simp [Frame.Reading.atEnd])
    rw [hreading] at hframe
    cases fault <;> cases hframe
  | takes hloop harrived heq hreading hopen =>
    subst heq
    rw [List.append_nil] at hfollows ⊢
    refine ⟨hfollows, hs.dispatched, fun hall => absurd hall (hs.ne_of_open hloop hopen), ?_⟩
    intro fault hleft
    cases hleft
  | @dispatches begun body rest hloop hreading heq hopen =>
    obtain ⟨body', rest', hframe, hbeginning⟩ := hs.reading_eq hfront hawaits hloop hopen
      (by simp [hreading])
    cases hreading.symm.trans hframe
    obtain ⟨connection, tasks, loop, hreceive, -, hnext, -⟩ :=
      Server.receive_cases (h := h) { s.server with input := rest, loop := .reading false } body
    have hleft : loop.left? = none := by
      obtain rfl | ⟨n, -, rfl⟩ := hnext <;> rfl
    refine ⟨hfollows, hbeginning, fun hall => ?_, fun fault hfault => ?_⟩
    · -- This was the last body, so the loop handles a notification that closes.
      obtain ⟨stage, hhandling, hclosing⟩ := (hfront.closes_last hall).receive
        { s.server with input := rest, loop := .reading false }
      rw [← heq] at hhandling
      refine ⟨fun begun hreading' => ?_, fun stage' hstage => ?_⟩
      · cases hhandling.symm.trans hreading'
      · cases hhandling.symm.trans hstage
        exact hclosing
    · rw [heq, hreceive, hleft] at hfault
      cases hfault
  | @handles stage turn hloop hturn heq =>
    subst heq
    rw [List.append_nil] at hfollows ⊢
    refine ⟨hfollows, hs.dispatched, fun hall => ?_, fun fault hleft => ?_⟩
    · obtain ⟨hclose, outcome, hdone⟩ := (hs.closing hall).handling stage hloop _ turn hturn
      refine ⟨fun begun _ => ?_, fun stage' hstage => ?_⟩
      · -- What it handled has asked to close, and is done.
        have hwish := (Server.onward_apply s.server turn).wish
        rw [hclose, Bool.or_true] at hwish
        exact hwish
      · simp [hdone, Loop.after] at hstage
    · cases hprogress : turn.progress <;> simp [Loop.after, hprogress, Loop.left?] at hleft
  | @ends fault hloop heq =>
    subst heq
    rw [List.append_nil] at hfollows ⊢
    refine ⟨hfollows, hs.dispatched, fun _ => .of_left rfl, fun fault' hleft => ?_⟩
    refine hs.left fault' ?_
    rw [hloop]
    exact hleft

/-- **Whatever happens, a service stays within the bodies.** -/
theorem within_next? (hs : s.Within h bodies) (hfront : Conclusive h front bodies)
    (hawaits : s.Awaits (front ++ tail)) (hnext : s.next? h e = some s') : s'.Within h bodies := by
  by_cases hloop : e = .step .loop
  · subst hloop
    obtain ⟨delivered, hstep, heq⟩ := loopStep_of_next? hnext
    rw [heq]
    exact hs.loopStep hfront hawaits hstep
  · exact hs.aside (aside_next? hnext hloop) (closeRequested_next? hnext)

/-- A service that begins has dispatched nothing, and there is a body to come. -/
theorem Begins.within (hs : s.Begins) (hfront : Conclusive h front bodies) :
    s.Within h bodies := by
  obtain ⟨connection, state, -, -, hserver⟩ := hs.running
  obtain ⟨before, body, hbodies, -⟩ := hfront.closes
  refine ⟨hs.tracks.dispatched, ?_, fun hall => ?_, fun fault hleft => ?_⟩
  · rw [hs.dispatched]
    exact List.nil_prefix
  · rw [hs.dispatched, hbodies] at hall
    simp at hall
  · rw [hserver] at hleft
    cases hleft

/-! ## Reading as far as the bodies go -/

/-- How many bytes the loop has taken from its stream. -/
def taken (s : Service η τ) : Nat :=
  s.fed.length - s.server.arrived.length

/-- The bytes that have not been taken are among those that have arrived. -/
theorem Follows.arrived_le (hs : s.Follows) :
    s.server.input.length + s.server.arrived.length ≤ s.fed.length := by
  have hlength := Frame.length_of_readFrames? (hs [] fun _ => rfl)
  simpa [unread] using hlength

/-- The last body is not empty, and after the others there is another frame. So no frame of the
bodies needs the end of the stream. -/
theorem Within.body_or_rest (hs : s.Within h bodies) (hfront : Conclusive h front bodies)
    (hfed : s.fed = front ++ tail) {body after : List UInt8}
    (hnext : Frame.read true (s.unread []) = .frame body after)
    (hbeginning : s.dispatched ++ [body] <+: bodies) : body ≠ [] ∨ after ≠ [] := by
  by_cases hall : s.dispatched ++ [body] = bodies
  · exact .inl (hfront.closes_last hall).ne_nil
  · have hread := Frame.readFrames?_concat (hs.follows [] fun _ => rfl) hnext
    rw [List.append_nil, hfed] at hread
    have hlt : s.dispatched.length + 1 < bodies.length := by
      have hle := hbeginning.length_le
      rw [List.length_append, List.length_singleton] at hle
      refine hle.lt_of_ne fun hlength => hall (hbeginning.eq_of_length ?_)
      rw [List.length_append, List.length_singleton, hlength]
    obtain ⟨_, _, hlater, -⟩ := Frame.readFrames?_next hread (hfront.frames tail) hlt
    exact .inr (Frame.ne_nil_of_read hlater)

/-- **The loop needs no bytes but those of the bodies:** once it has taken these, it has all of the
next frame. -/
theorem Within.reading_of_taken {begun : Bool} (hs : s.Within h bodies)
    (hfront : Conclusive h front bodies) (hfed : s.fed = front ++ tail)
    (hloop : s.server.loop = .reading begun)
    (hopen : s.server.connection.closeRequested = false) (htaken : front.length ≤ s.taken)
    (n : Nat) : s.server.reading ≠ .more n := by
  have hmore : s.MayCome [] := fun _ => rfl
  obtain ⟨body, after, hnext, hbeginning, hlength⟩ := hs.read_next hfront hmore
    (by rw [hfed, List.append_nil]) (hs.ne_of_open hloop hopen)
  obtain ⟨consumed, hunread, hread⟩ :=
    Frame.exists_consumed hnext (hs.body_or_rest hfront hfed hnext hbeginning)
  rw [unread, List.append_nil] at hunread
  have harrived := hs.follows.arrived_le
  -- What follows the frame has at least what has not been taken, so the frame is in what has.
  have hinput : consumed.length ≤ s.server.input.length := by
    have hlengths := congrArg List.length hunread
    rw [List.length_append, List.length_append] at hlengths
    rw [taken] at htaken
    rw [hfed, List.length_append] at htaken harrived
    omega
  obtain ⟨rest, hrest⟩ : consumed <+: s.server.input :=
    List.prefix_of_prefix_length_le (List.prefix_append consumed after)
      (hunread ▸ List.prefix_append s.server.input s.server.arrived) hinput
  simp [Server.reading, ← hrest, Frame.read_consumed hread]

/-- What the loop has still to do before it has dispatched all bodies. -/
def remaining (front : List UInt8) (bodies : List (List UInt8)) (s : Service η τ) : Nat :=
  bodies.length - s.dispatched.length + (front.length - s.taken)

/-- What others do leaves the loop as much to do. -/
theorem Aside.remaining (haside : s.Aside s') :
    s'.remaining front bodies = s.remaining front bodies := by
  obtain ⟨more, -, hfed, harrived⟩ := haside.bytes
  have htaken : s'.taken = s.taken := by
    rw [taken, taken, hfed, harrived, List.length_append, List.length_append]
    omega
  rw [Service.remaining, Service.remaining, haside.dispatched, htaken]

/-- A loop to which all bodies have come can read on. -/
theorem Within.stepLoop_ne_none {begun : Bool} (hs : s.Within h bodies)
    (hfront : Conclusive h front bodies) (hfed : s.fed = front ++ tail)
    (hloop : s.server.loop = .reading begun) : s.server.stepLoop h ≠ none := by
  unfold Server.stepLoop
  rw [hloop]
  dsimp only
  split
  · simp
  · case isFalse hclose =>
    split
    · case h_1 missing hreading =>
      split
      · case isTrue hempty =>
        refine absurd hreading (hs.reading_of_taken hfront hfed hloop (by simpa using hclose) ?_ _)
        rw [taken, hfed, List.isEmpty_iff.mp hempty]
        simp
      · simp
    all_goals simp

/-- **A step of the reading loop brings it nearer to the last body,** or is its last. -/
theorem Within.remaining_lt {begun : Bool} (hs : s.Within h bodies)
    (hfront : Conclusive h front bodies) (hfed : s.fed = front ++ tail)
    (hloop : s.server.loop = .reading begun) (hnext : s.next? h (.step .loop) = some s') :
    s'.server.loop.left?.isSome = true ∨ s'.remaining front bodies < s.remaining front bodies := by
  obtain ⟨delivered, hstep, heq⟩ := loopStep_of_next? hnext
  cases hstep with
  | closes _ _ hserver | leaves _ _ hserver =>
    rw [hserver]
    exact .inl rfl
  | @takes _ missing _ harrived hserver hreading hopen =>
    -- It asks for more bytes, so it has not taken those of the bodies yet.
    have hbehind : s.taken < front.length := by
      by_contra hthere
      exact hs.reading_of_taken hfront hfed hloop hopen (Nat.le_of_not_lt hthere) _ hreading
    have hmoves : s.taken < s'.taken := by
      have hpos : 0 < s.server.arrived.length := List.length_pos_iff.mpr harrived
      have hle := hs.follows.arrived_le
      have hportion : 0 < Server.portion := by decide
      rw [taken, taken, heq, hserver]
      simp only [Server.take, List.length_drop]
      omega
    rw [heq] at hmoves ⊢
    refine .inr ?_
    simp only [remaining, List.append_nil] at hmoves ⊢
    omega
  | @dispatches _ body rest _ hreading hserver hopen =>
    obtain ⟨body', rest', hframe, hbeginning⟩ := hs.reading_eq hfront
      ⟨[], fun _ => rfl, by rw [hfed, List.append_nil]⟩ hloop hopen (by simp [hreading])
    cases hreading.symm.trans hframe
    obtain ⟨connection, tasks, loop, hreceive, -⟩ :=
      Server.receive_cases (h := h) { s.server with input := rest, loop := .reading false } body
    have htaken : s'.taken = s.taken := by
      rw [taken, taken, heq, hserver, hreceive]
    have hle := hbeginning.length_le
    rw [heq] at htaken ⊢
    refine .inr ?_
    rw [remaining, remaining, htaken]
    simp only [List.length_append, List.length_singleton] at hle ⊢
    omega
  | handles hhandling => cases hloop.symm.trans hhandling
  | ends hdraining => cases hloop.symm.trans hdraining

end Service

/-! ## The server returns -/

namespace Course

variable {h : Handler η τ} {c : Course h} {front : List UInt8} {bodies : List (List UInt8)}

/-- These bytes arrive first, whatever follows them. -/
def ReceivesFirst (c : Course h) (front : List UInt8) : Prop :=
  ∃ t, front <+: (c.now t).fed

/-- At any time the bytes are the beginning of the stream. -/
theorem ReceivesFirst.awaits (hreceives : c.ReceivesFirst front) (t : Nat) :
    ∃ tail, (c.now t).Awaits (front ++ tail) := by
  obtain ⟨u, tail, hfed⟩ := hreceives
  rcases Nat.le_total t u with htu | hut
  · obtain ⟨more, hmore, hfed', -⟩ := c.exists_fed htu
    exact ⟨tail, more, hmore, by rw [hfed, hfed']⟩
  · obtain ⟨more, -, hfed', -⟩ := c.exists_fed hut
    refine ⟨tail ++ more, [], fun _ => rfl, ?_⟩
    rw [hfed', ← hfed, List.append_nil, List.append_assoc]

/-- **At any time the service is within the bodies.** -/
theorem ReceivesFirst.within (hreceives : c.ReceivesFirst front)
    (hfront : Conclusive h front bodies) (t : Nat) : (c.now t).Within h bodies := by
  refine c.stays (P := Service.Within h bodies) (c.begins.within hfront) ?_ (Nat.zero_le t)
  intro t e _ hs hnext
  obtain ⟨tail, hawaits⟩ := hreceives.awaits t
  exact Service.within_next? hs hfront hawaits hnext

/-- A service to which the bytes have come stays within the bodies, and the loop comes nearer to the
last of them. -/
theorem nearing_last (hfront : Conclusive h front bodies) :
    Nearing h (fun s => s.Within h bodies ∧ ∃ tail, s.fed = front ++ tail)
      (Service.remaining front bodies) where
  keeps hs hnext := by
    obtain ⟨hwithin, tail, hfed⟩ := hs
    have hawaits : Service.Awaits _ (front ++ tail) :=
      ⟨[], fun _ => rfl, by rw [List.append_nil, hfed]⟩
    obtain ⟨more, -, hfed', -⟩ := Service.fed_next? hnext
    refine ⟨Service.within_next? hwithin hfront hawaits hnext, tail ++ more, ?_⟩
    rw [hfed', hfed, List.append_assoc]
  able hs hloop := by
    obtain ⟨hwithin, tail, hfed⟩ := hs
    exact hwithin.stepLoop_ne_none hfront hfed hloop
  nearer hs hloop hnext := by
    obtain ⟨hwithin, tail, hfed⟩ := hs
    exact hwithin.remaining_lt hfront hfed hloop hnext
  aside _ haside := haside.remaining
  handling s turn loop := rfl

/-- **A server to which the bytes have come returns, without a fault.** -/
theorem ReceivesFirst.returns (hreceives : c.ReceivesFirst front)
    (hfront : Conclusive h front bodies) (hfair : c.Fair) (hattentive : c.Attentive) :
    ∃ t, ∀ t', t ≤ t' → (c.now t').server.ended? = some none := by
  have hwithin := hreceives.within hfront
  obtain ⟨t, tail, hfed⟩ := hreceives
  obtain ⟨u, -, hleft⟩ := (nearing_last hfront).leaves hfair hattentive ⟨hwithin t, tail, hfed.symm⟩
  obtain ⟨fault, hfault⟩ := Option.isSome_iff_exists.mp hleft
  obtain rfl := (hwithin u).left fault hfault
  obtain ⟨v, hends⟩ := returns_of_left hfair hfault
  exact ⟨v, fun t' ht' => Server.ended?_eq_some_iff.mpr (hends t' ht')⟩

end Course

end FlagServer
