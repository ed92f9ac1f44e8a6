import FlagServer.Proofs.Server.Closing

/-!
# A server that is handed its bodies

That bytes arrive, and that the loop takes them, is not seen from outside. What is seen are the
other events: the bodies that are dispatched, what the handler does with them, what is written, and
how the server returns. This file shows that **a server does what it would do if it were handed the
bodies,** one whenever it reads on, and had no stream at all.

* `Service.bare` is a service without its stream, and `Service.movesBytes` says which events change
  nothing else.
* `Service.schedule` is the list of the other events of a run.
* `Service.handed?` is one event of a server that is handed its bodies.

What a server does is what this one does (`Service.Within.handed_schedule`), and it can do all that
this one can, whatever else is in its stream (`Service.Supplied.exists_run_of_schedule`). Both are
for bodies after which nothing is read, so that the stream cannot end before the schedule does.
-/

namespace FlagServer

variable {η τ : Type}

/-! ## Without the stream -/

/-- The loop, but for whether it has begun to take bytes. -/
def Loop.bare : Loop τ → Loop τ
  | reading _ => .reading false
  | loop => loop

theorem Loop.left?_bare (loop : Loop τ) : loop.bare.left? = loop.left? := by
  cases loop <;> rfl

/-- The server without the bytes of its stream. -/
def Server.bare (s : Server η τ) : Server η τ :=
  { s with arrived := [], input := [], inputEnded := false, loop := s.loop.bare }

namespace Server

variable {h : Handler η τ} {s : Server η τ}

/-- The writer does not look at the stream. -/
theorem bare_stepWriter (s : Server η τ) : s.stepWriter.map bare = s.bare.stepWriter := by
  simp only [stepWriter, bare]
  split
  · exact apply_ite (Option.map bare) _ _ _
  · rfl
  · rfl

/-- Nor does a task. -/
theorem bare_stepTask (s : Server η τ) (ticket : Nat) :
    (s.stepTask h ticket).map bare = s.bare.stepTask h ticket := by
  have htask : s.bare.task? ticket = s.task? ticket := rfl
  rw [stepTask, stepTask, htask]
  cases s.task? ticket with
  | none => rfl
  | some task =>
    simp only [Option.map_map]
    refine congrArg (fun f => Option.map f _) (funext fun turn => ?_)
    simp only [Function.comp_apply]
    cases turn.progress <;> rfl

/-- Where the loop does not read on, it does not look at its bytes. -/
theorem bare_stepLoop (hopen : ∀ begun, s.loop = .reading begun →
    s.connection.closeRequested = true) : (s.stepLoop h).map bare = s.bare.stepLoop h := by
  cases hloop : s.loop with
  | idle | ended => simp [stepLoop, bare, hloop, Loop.bare]
  | reading begun =>
    have hclose : s.connection.closeRequested = true := hopen begun hloop
    simp [stepLoop, bare, hloop, Loop.bare, hclose, leave]
  | handling stage =>
    simp only [stepLoop, bare, hloop, Loop.bare, Option.map_map]
    refine congrArg (fun f => Option.map f _) (funext fun turn => ?_)
    simp only [Function.comp_apply]
    cases turn.progress <;> rfl
  | draining fault =>
    simp only [stepLoop, bare, hloop, Loop.bare]
    split <;> rfl

/-- To dispatch a body is not to look at the stream. -/
theorem bare_receive (s : Server η τ) (body : List UInt8) :
    (s.receive h body).bare = s.bare.receive h body := by
  have hconnection : s.bare.connection = s.connection := rfl
  rw [receive, receive, hconnection]
  obtain ⟨connection, delivery⟩ := s.connection.dispatch h.registry body
  cases delivery <;> rfl

end Server

namespace Service

variable {h : Handler η τ} {s s' : Service η τ} {e : Event η} {events more : List (Event η)}
  {front tail : List UInt8} {bodies : List (List UInt8)}

/-- The service without its stream. -/
def bare (s : Service η τ) : Service η τ :=
  { s with server := s.server.bare, fed := [] }

/-- The event is that the loop reads on. -/
def readsOn (s : Service η τ) : Event η → Bool
  | .step .loop =>
    match s.server.loop with
    | .reading _ => !s.server.connection.closeRequested
    | _ => false
  | _ => false

/-- Bytes arrive, or no more will. -/
def Event.isBytes : Event η → Bool
  | feed _ => true
  | endInput => true
  | _ => false

/-- The event only moves bytes: they arrive, or no more will, or the loop takes some. -/
def movesBytes (s : Service η τ) (e : Event η) : Bool :=
  e.isBytes || s.readsOn e && s.server.reading matches .more _

/-- The loop reads on where it takes a step, reads, and is not asked to close. -/
theorem readsOn_iff : s.readsOn e = true ↔ e = .step .loop
    ∧ (∃ begun, s.server.loop = .reading begun)
    ∧ s.server.connection.closeRequested = false := by
  unfold readsOn
  split
  · cases s.server.loop <;> simp
  · case h_2 hother =>
    simp only [Bool.false_eq_true, false_iff]
    exact fun h => hother h.1

/-- This can be said without the stream. -/
theorem readsOn_bare (s : Service η τ) (e : Event η) : s.bare.readsOn e = s.readsOn e := by
  have hloop : s.bare.server.loop = s.server.loop.bare := rfl
  have hconnection : s.bare.server.connection = s.server.connection := rfl
  unfold readsOn
  rw [hloop, hconnection]
  cases s.server.loop <;> rfl

/-- A loop that does not read on dispatches nothing. -/
theorem body?_of_readsOn (hreads : s.readsOn (.step .loop) = false) : s.server.body? = none := by
  unfold Server.body?
  split
  · case h_1 hloop hopen hreading => simp [readsOn, hloop, hopen] at hreads
  · rfl

/-- **Events that move bytes change nothing else.** -/
theorem bare_of_movesBytes (hmoves : s.movesBytes e = true) (hnext : s.next? h e = some s') :
    s'.bare = s.bare := by
  rw [movesBytes, Bool.or_eq_true, Bool.and_eq_true] at hmoves
  obtain hbytes | ⟨hreads, hmore⟩ := hmoves
  · cases e with
    | feed bytes =>
      simp only [next?] at hnext
      split at hnext
      · cases hnext
      · cases hnext
        rfl
    | endInput =>
      cases hnext
      rfl
    | losePeer | change | outside | step => cases hbytes
  · obtain ⟨rfl, ⟨begun, hloop⟩, hopen⟩ := readsOn_iff.mp hreads
    obtain ⟨delivered, hstep, heq⟩ := loopStep_of_next? hnext
    -- It asks for more, so of all steps this is the one that takes bytes.
    cases hstep with
    | takes _ _ hserver =>
      rw [heq, hserver, List.append_nil]
      simp only [bare, Server.bare, Server.take, hloop, Loop.bare]
    | closes _ hclose =>
      rw [hopen] at hclose
      cases hclose
    | @leaves _ fault _ hreading =>
      rw [hreading] at hmore
      cases fault <;> cases hmore
    | dispatches _ hreading =>
      rw [hreading] at hmore
      cases hmore
    | handles hhandling => cases hloop.symm.trans hhandling
    | ends hdraining => cases hloop.symm.trans hdraining

/-- **All that the loop does not read is done without the stream.** -/
theorem bare_next? (hbytes : e.isBytes = false) (hreads : s.readsOn e = false) :
    (s.next? h e).map bare = s.bare.next? h e := by
  cases e with
  | feed | endInput => cases hbytes
  | losePeer | change => rfl
  | outside o =>
    simp only [next?, Option.map_map]
    rfl
  | step agent =>
    have hstep : s.bare.server.step h agent = (s.server.step h agent).map Server.bare := by
      cases agent with
      | loop =>
        refine (Server.bare_stepLoop fun begun hloop => ?_).symm
        simpa [readsOn, hloop] using hreads
      | writer => exact (Server.bare_stepWriter _).symm
      | task ticket => exact (Server.bare_stepTask _ ticket).symm
    simp only [next?, hstep, Option.map_map]
    refine congrArg (fun f => Option.map f _) (funext fun server => ?_)
    cases agent with
    | loop =>
      have hbare := body?_of_readsOn ((readsOn_bare s _).trans hreads)
      simp only [Function.comp_apply, body?_of_readsOn hreads, hbare]
      rfl
    | writer | task => rfl

/-! ## The bodies instead of the stream -/

/-- One event of a server that is handed its bodies: where the loop reads on, it dispatches the next
of them. -/
def handed? (h : Handler η τ) (bodies : List (List UInt8)) (s : Service η τ) (e : Event η) :
    Option (Service η τ) :=
  if s.readsOn e then
    bodies[s.dispatched.length]?.map fun body =>
      { s with server := s.server.receive h body, dispatched := s.dispatched ++ [body] }
  else s.next? h e

/-- **What a server does is what it would do if it were handed the bodies.** -/
theorem Within.handed (hs : s.Within h bodies) (hfront : Conclusive h front bodies)
    (hawaits : s.Awaits (front ++ tail)) (hnext : s.next? h e = some s')
    (hmoves : s.movesBytes e = false) : s.bare.handed? h bodies e = some s'.bare := by
  rw [movesBytes, Bool.or_eq_false_iff] at hmoves
  obtain ⟨hbytes, hmore⟩ := hmoves
  rw [handed?, readsOn_bare]
  by_cases hreads : s.readsOn e = true
  · obtain ⟨rfl, ⟨begun, hloop⟩, hopen⟩ := readsOn_iff.mp hreads
    have hreading : ∀ n, s.server.reading ≠ .more n := by
      intro n hn
      simp [hreads, hn] at hmore
    obtain ⟨body, rest, hframe, hbeginning⟩ := hs.reading_eq hfront hawaits hloop hopen hreading
    -- The frame that the loop reads is the next body, as the service stays within the bodies.
    have hbody : bodies[s.dispatched.length]? = some body := by
      obtain ⟨later, rfl⟩ := hbeginning
      simp
    obtain ⟨delivered, hstep, heq⟩ := loopStep_of_next? hnext
    cases hstep with
    | dispatches _ hframe' hserver =>
      cases hframe.symm.trans hframe'
      rw [if_pos hreads, show s.bare.dispatched = s.dispatched from rfl, hbody, Option.map_some,
        heq, hserver]
      simp only [bare, Server.bare_receive]
      simp only [Server.bare, hloop, Loop.bare]
    | closes _ hclose =>
      rw [hopen] at hclose
      cases hclose
    | @leaves _ fault _ hover =>
      rw [hover] at hframe
      cases fault <;> cases hframe
    | takes _ _ _ hmissing => exact absurd hmissing (hreading _)
    | handles hhandling => cases hloop.symm.trans hhandling
    | ends hdraining => cases hloop.symm.trans hdraining
  · rw [if_neg hreads, ← bare_next? hbytes (by simpa using hreads), hnext]
    rfl

/-! ## Schedules -/

/-- The events of a run that do more than to move bytes. -/
def schedule (h : Handler η τ) : Service η τ → List (Event η) → List (Event η)
  | _, [] => []
  | s, e :: events =>
    let later := ((s.next? h e).map fun s => schedule h s events).getD []
    if s.movesBytes e then later else e :: later

theorem schedule_cons (hnext : s.next? h e = some s') :
    s.schedule h (e :: events)
      = if s.movesBytes e then s'.schedule h events else e :: s'.schedule h events := by
  rw [schedule, hnext, Option.map_some, Option.getD_some]

/-- The schedule of a run is that of its first part and then that of the rest. -/
theorem schedule_append (hrun : s.run? h events = some s') :
    s.schedule h (events ++ more) = s.schedule h events ++ s'.schedule h more := by
  induction events generalizing s with
  | nil =>
    cases hrun
    rfl
  | cons e events ih =>
    obtain ⟨u, hnext, hrest⟩ := Option.bind_eq_some_iff.mp hrun
    rw [List.cons_append, schedule_cons hnext, schedule_cons hnext, ih hrest]
    split <;> rfl

/-- No bytes arrive on a schedule. -/
theorem isBytes_of_mem_schedule {e' : Event η} (he' : e' ∈ s.schedule h events) :
    e'.isBytes = false := by
  induction events generalizing s with
  | nil => cases he'
  | cons e events ih =>
    have hlater : e' ∈ ((s.next? h e).map fun s => schedule h s events).getD [] →
        e'.isBytes = false := by
      cases s.next? h e with
      | none => nofun
      | some u => exact fun hmem => ih hmem
    rw [schedule] at he'
    split at he'
    · exact hlater he'
    · case isFalse hmoves =>
      obtain rfl | hmem := List.mem_cons.mp he'
      · rw [movesBytes, Bool.or_eq_true, not_or, Bool.not_eq_true] at hmoves
        exact hmoves.1
      · exact hlater hmem

/-- The stream of a service at the end of a run was its stream at the beginning. -/
theorem Awaits.of_run? {stream : List UInt8} (hs' : s'.Awaits stream)
    (hrun : s.run? h events = some s') : s.Awaits stream := by
  induction events generalizing s with
  | nil =>
    cases hrun
    exact hs'
  | cons e events ih =>
    obtain ⟨u, hnext, hrest⟩ := Option.bind_eq_some_iff.mp hrun
    exact (ih hrest).of_next? hnext

/-- **A run of a server is a run in which it is handed the bodies,** by the same schedule. -/
theorem Within.handed_schedule (hs : s.Within h bodies) (hfront : Conclusive h front bodies)
    (hrun : s.run? h events = some s') (hawaits : s'.Awaits (front ++ tail)) :
    (s.schedule h events).foldlM (handed? h bodies) s.bare = some s'.bare
      ∧ s'.Within h bodies := by
  induction events generalizing s with
  | nil =>
    cases hrun
    exact ⟨rfl, hs⟩
  | cons e events ih =>
    obtain ⟨u, hnext, hrest⟩ := Option.bind_eq_some_iff.mp hrun
    have hbefore := (hawaits.of_run? hrest).of_next? hnext
    obtain ⟨hlater, hwithin⟩ := ih (within_next? hs hfront hbefore hnext) hrest
    refine ⟨?_, hwithin⟩
    rw [schedule_cons hnext]
    split
    · case isTrue hmoves => rwa [← bare_of_movesBytes hmoves hnext]
    · case isFalse hmoves =>
      rw [List.foldlM_cons, hs.handed hfront hbefore hnext (by simpa using hmoves)]
      exact hlater

/-! ## Every schedule can be kept -/

/-- A service to which all of its stream has come, which begins with the bodies. -/
structure Supplied (h : Handler η τ) (stream : List UInt8) (bodies : List (List UInt8))
    (s : Service η τ) : Prop where
  within : s.Within h bodies
  fed : s.fed = stream
  ended : s.server.inputEnded = true

theorem Supplied.awaits {stream : List UInt8} (hs : s.Supplied h stream bodies) :
    s.Awaits stream :=
  ⟨[], fun _ => rfl, by rw [List.append_nil, hs.fed]⟩

/-- A service that is supplied stays so, whatever happens. -/
theorem Supplied.next? (hs : s.Supplied h (front ++ tail) bodies)
    (hfront : Conclusive h front bodies) (hnext : s.next? h e = some s') :
    s'.Supplied h (front ++ tail) bodies := by
  obtain ⟨more, hmore, hfed, hended⟩ := fed_next? hnext
  refine ⟨within_next? hs.within hfront hs.awaits hnext, ?_, hended hs.ended⟩
  rw [hfed, hmore hs.ended, List.append_nil, hs.fed]

/-- So it does through a run. -/
theorem Supplied.run? (hs : s.Supplied h (front ++ tail) bodies)
    (hfront : Conclusive h front bodies) (hrun : s.run? h events = some s') :
    s'.Supplied h (front ++ tail) bodies := by
  induction events generalizing s with
  | nil =>
    cases hrun
    exact hs
  | cons e events ih =>
    obtain ⟨u, hnext, hrest⟩ := Option.bind_eq_some_iff.mp hrun
    exact ih (hs.next? hfront hnext) hrest

/-- All of a stream may come at once, before anything else happens. -/
theorem Begins.supplied (hs : s.Begins) (hfront : Conclusive h front bodies) (tail : List UInt8) :
    ∃ coming ready, s.run? h coming = some ready ∧ ready.Supplied h (front ++ tail) bodies
      ∧ ready.bare = s.bare ∧ s.schedule h coming = [] := by
  obtain ⟨connection, state, -, -, hserver⟩ := hs.running
  obtain ⟨fed, hfeed⟩ : ∃ fed, s.next? h (.feed (front ++ tail)) = some fed := by
    simp [Service.next?, hserver]
  obtain ⟨ready, hend⟩ : ∃ ready, fed.next? h .endInput = some ready := ⟨_, rfl⟩
  have hrun : s.run? h [.feed (front ++ tail), .endInput] = some ready := by
    simp only [Service.run?, hfeed, hend, Option.bind_some]
  have hstream : ready.fed = front ++ tail ∧ ready.server.inputEnded = true := by
    simp only [Service.next?, hserver, Bool.false_eq_true, if_false,
      Option.some.injEq] at hfeed hend
    rw [← hend, ← hfeed]
    exact ⟨by rw [hs.fed]; rfl, rfl⟩
  have hawaits : ready.Awaits (front ++ tail) :=
    ⟨[], fun _ => rfl, by rw [List.append_nil, hstream.1]⟩
  refine ⟨_, ready, hrun, ⟨?_, hstream.1, hstream.2⟩, ?_, ?_⟩
  · exact ((hs.within hfront).handed_schedule hfront hrun hawaits).2
  · exact (bare_of_movesBytes rfl hend).trans (bare_of_movesBytes rfl hfeed)
  · rw [schedule_cons hfeed, schedule_cons hend]
    rfl

/-- **What a server that is handed the bodies does, a server does that reads them,** after it has
taken the bytes that it needs. -/
theorem Supplied.exists_run (hs : s.Supplied h (front ++ tail) bodies)
    (hfront : Conclusive h front bodies) {s₁ : Service η τ} (hbytes : e.isBytes = false)
    (hhanded : s.bare.handed? h bodies e = some s₁) :
    ∃ events s', s.run? h events = some s' ∧ s.schedule h events = [e] ∧ s'.bare = s₁ := by
  -- On how much the loop has ahead of it.
  induction hn : s.server.ahead using Nat.strongRecOn generalizing s with
  | ind n ih =>
    -- An event that does more than to move bytes can be done at once.
    have hone : ∀ s', s.next? h e = some s' → s.movesBytes e = false →
        ∃ events s', s.run? h events = some s' ∧ s.schedule h events = [e] ∧ s'.bare = s₁ := by
      intro s' hnext hmoves
      have hsame := hs.within.handed hfront hs.awaits hnext hmoves
      rw [hhanded, Option.some.injEq] at hsame
      refine ⟨[e], s', by simp [Service.run?, hnext], ?_, hsame.symm⟩
      rw [schedule_cons hnext, hmoves]
      rfl
    by_cases hreads : s.readsOn e = true
    · obtain ⟨rfl, ⟨begun, hloop⟩, hopen⟩ := readsOn_iff.mp hreads
      have hable : s.next? h (.step .loop) ≠ none := fun hnone =>
        Server.stepLoop_ne_none (h := h) hloop hs.ended (Option.map_eq_none_iff.mp hnone)
      obtain ⟨u, hnext⟩ := Option.ne_none_iff_exists'.mp hable
      by_cases hmoves : s.movesBytes (.step .loop) = true
      · -- The loop takes bytes first. Nothing is changed by it, and less is ahead.
        have hbare := bare_of_movesBytes hmoves hnext
        have hless : u.server.ahead < n := by
          obtain ⟨delivered, hloopStep, -⟩ := loopStep_of_next? hnext
          obtain hleft | hless := hloopStep.ahead_lt hloop
          · have hstays : u.server.loop.bare = s.server.loop.bare :=
              congrArg (fun s : Service η τ => s.server.loop) hbare
            rw [← Loop.left?_bare, hstays, hloop] at hleft
            cases hleft
          · exact hn ▸ hless
        obtain ⟨events, s', hrun, hschedule, hsame⟩ :=
          ih _ hless (hs.next? hfront hnext) (hbare ▸ hhanded) rfl
        refine ⟨.step .loop :: events, s', by simp [Service.run?, hnext, hrun], ?_, hsame⟩
        rw [schedule_cons hnext, if_pos hmoves, hschedule]
      · exact hone u hnext (by simpa using hmoves)
    · have hnot : s.readsOn e = false := by simpa using hreads
      rw [handed?, readsOn_bare, if_neg hreads, ← bare_next? hbytes hnot] at hhanded
      obtain ⟨u, hnext, -⟩ := Option.map_eq_some_iff.mp hhanded
      refine hone u hnext ?_
      rw [movesBytes, hbytes, hnot]
      rfl

/-- **Every schedule of a server that is handed the bodies is one of a server that reads them.** -/
theorem Supplied.exists_run_of_schedule (hs : s.Supplied h (front ++ tail) bodies)
    (hfront : Conclusive h front bodies) {scheduled : List (Event η)} {s₁ : Service η τ}
    (hbytes : ∀ e ∈ scheduled, e.isBytes = false)
    (hhanded : scheduled.foldlM (handed? h bodies) s.bare = some s₁) :
    ∃ events s', s.run? h events = some s' ∧ s.schedule h events = scheduled ∧ s'.bare = s₁ := by
  induction scheduled generalizing s with
  | nil =>
    cases hhanded
    exact ⟨[], s, rfl, rfl, rfl⟩
  | cons e scheduled ih =>
    rw [List.foldlM_cons] at hhanded
    obtain ⟨u₁, hfirst, hlater⟩ := Option.bind_eq_some_iff.mp hhanded
    obtain ⟨events, u, hrun, hschedule, rfl⟩ :=
      hs.exists_run hfront (hbytes e List.mem_cons_self) hfirst
    obtain ⟨more, s', hrun', hschedule', hsame⟩ := ih (hs.run? hfront hrun)
      (fun e' he' => hbytes e' (List.mem_cons_of_mem _ he')) hlater
    refine ⟨events ++ more, s', ?_, ?_, hsame⟩
    · rw [run?_append, hrun]
      exact hrun'
    · rw [schedule_append hrun, hschedule, hschedule', List.singleton_append]

end Service

end FlagServer
