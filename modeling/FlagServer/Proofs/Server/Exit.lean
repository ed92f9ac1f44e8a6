import FlagServer.Proofs.Server.Cut
import FlagServer.Proofs.Server.Handed

/-!
# Nothing after the exit matters

In a session, the notification to exit asks for the connection to be closed, whatever the session
has been through, and the loop then reads no more. So **what follows an exit makes no difference,**
be it requests, another exit, a fault or a frame that is cut off: not to what is dispatched and
written, not to what the session becomes, and not to the code with which it ends.

The statement is about two runs, on two streams that are the same up to the exit. Whose turn it is
when is the same in both (`Service.schedule`); how the bytes come may differ.
-/

namespace FlagServer

variable {η τ : Type}

/-! ## Two streams with the same beginning -/

namespace Service

variable {h : Handler η τ} {start s s₁ s₂ : Service η τ} {events events₁ events₂ : List (Event η)}
  {front tail tail₁ tail₂ : List UInt8} {bodies : List (List UInt8)}

/-- The same has become of two services, as far as it can be seen. -/
structure SameFate (s₁ s₂ : Service η τ) : Prop where
  dispatched : s₁.dispatched = s₂.dispatched
  written : s₁.server.written = s₂.server.written
  state : s₁.server.state = s₂.server.state
  returned : s₁.server.ended? = s₂.server.ended?

theorem ended?_bare (s : Service η τ) : s.bare.server.ended? = s.server.ended? := by
  have hloop : s.bare.server.loop = s.server.loop.bare := rfl
  unfold Server.ended?
  rw [hloop]
  cases s.server.loop <;> rfl

theorem SameFate.of_bare (hbare : s₁.bare = s₂.bare) : s₁.SameFate s₂ where
  dispatched := congrArg (·.dispatched) hbare
  written := congrArg (·.server.written) hbare
  state := congrArg (·.server.state) hbare
  returned := by rw [← ended?_bare s₁, hbare, ended?_bare]

/-- **Whatever follows the bodies, the same schedule leads to the same fate.** -/
theorem Begins.same (hstart : start.Begins) (hfront : Conclusive h front bodies)
    (hrun₁ : start.run? h events₁ = some s₁) (hrun₂ : start.run? h events₂ = some s₂)
    (hawaits₁ : s₁.Awaits (front ++ tail₁)) (hawaits₂ : s₂.Awaits (front ++ tail₂))
    (hschedule : start.schedule h events₁ = start.schedule h events₂) : s₁.SameFate s₂ := by
  have hwithin := hstart.within hfront
  obtain ⟨hhanded₁, -⟩ := hwithin.handed_schedule hfront hrun₁ hawaits₁
  obtain ⟨hhanded₂, -⟩ := hwithin.handed_schedule hfront hrun₂ hawaits₂
  -- Both runs are runs of the service without its bytes, which goes by the schedule.
  rw [hschedule, hhanded₂] at hhanded₁
  exact .of_bare (Option.some.inj hhanded₁.symm)

/-- **Whatever follows the bodies, the same schedule can be kept.** -/
theorem Begins.possible (hstart : start.Begins) (hfront : Conclusive h front bodies)
    (hrun₁ : start.run? h events₁ = some s₁) (hawaits₁ : s₁.Awaits (front ++ tail₁))
    (tail₂ : List UInt8) :
    ∃ events₂ s₂, start.run? h events₂ = some s₂ ∧ s₂.fed = front ++ tail₂
      ∧ s₂.server.inputEnded = true ∧ start.schedule h events₁ = start.schedule h events₂
      ∧ s₁.SameFate s₂ := by
  have hwithin := hstart.within hfront
  obtain ⟨hhanded, -⟩ := hwithin.handed_schedule hfront hrun₁ hawaits₁
  -- All of the other stream comes at once, and then the server keeps the schedule.
  obtain ⟨coming, ready, hready, hsupplied, hbare, hnone⟩ := hstart.supplied hfront tail₂
  obtain ⟨events, s₂, hrun, hschedule, hsame⟩ := hsupplied.exists_run_of_schedule hfront
    (fun e he => isBytes_of_mem_schedule he) (hbare ▸ hhanded)
  have hlast := hsupplied.run? hfront hrun
  refine ⟨coming ++ events, s₂, ?_, hlast.fed, hlast.ended, ?_, .of_bare hsame.symm⟩
  · rw [run?_append, hready]
    exact hrun
  · rw [schedule_append hready, hnone, hschedule]
    rfl

end Service

/-! ## Sessions -/

namespace Session

variable {ε μ : Type}

/-- **The notification to exit closes,** in whatever state the session is. -/
theorem closes_of_isExit (host : Host ε μ) {body : List UInt8} (hexit : isExit body = true) :
    (handler host).Closes body := by
  intro c
  unfold isExit at hexit
  split at hexit
  · case h_1 method params hbody =>
    split at hexit
    · case h_1 n hdecode =>
      -- It is told from the notification that cancels by its method, so the connection hands it on.
      have hother : n.is Catalogue.cancel = false := by
        have hnames : (Catalogue.exit.name == Catalogue.cancel.name) = false := by decide +kernel
        simp only [IncomingNotification.is, Bool.and_eq_true, beq_iff_eq] at hexit
        rw [IncomingNotification.is, hexit.1, hnames, Bool.false_and]
      refine ⟨n, ?_, fun state turn hstep => ?_⟩
      · rw [Connection.dispatch_eq, hbody]
        simp only [Connection.dispatchMessage, Connection.dispatchNotification, handler, hdecode,
          IncomingNotification.extract, hother, Bool.false_eq_true, if_false]
      · simp only [handler, step, Stage.standing, touch, hexit, if_true, act, hear,
          Option.some.injEq] at hstep
        subst hstep
        exact ⟨rfl, _, rfl⟩
    · cases hexit
  · cases hexit

/-- **In a stream that begins with these bytes, nothing else matters to a session.** -/
structure Final (host : Host ε μ) (front : List UInt8) (bodies : List (List UInt8)) : Prop where
  /-- Whatever follows, the bytes are frames of the bodies. -/
  frames : ∀ tail, Frame.readFrames? true bodies.length (front ++ tail) = some (bodies, tail)
  /-- Whatever follows, no other body is dispatched, and a server that has returned has returned
  without a fault. -/
  ok : ∀ {start s : Service (Session ε μ) Standing} {events tail}, start.Begins →
    start.run? (handler host) events = some s → s.Awaits (front ++ tail) →
    s.dispatched <+: bodies ∧ ∀ fault, s.server.ended? = some fault → fault = none
  /-- Whatever follows in one stream and in another, the same schedule leads to the same. -/
  same : ∀ {start s₁ s₂ : Service (Session ε μ) Standing} {events₁ events₂ tail₁ tail₂},
    start.Begins → start.run? (handler host) events₁ = some s₁ →
    start.run? (handler host) events₂ = some s₂ → s₁.Awaits (front ++ tail₁) →
    s₂.Awaits (front ++ tail₂) →
    start.schedule (handler host) events₁ = start.schedule (handler host) events₂ →
    s₁.SameFate s₂ ∧ s₁.server.state.exitCode = s₂.server.state.exitCode
  /-- A schedule that is kept on one stream can be kept on any other. -/
  possible : ∀ {start s₁ : Service (Session ε μ) Standing} {events₁ tail₁}, start.Begins →
    start.run? (handler host) events₁ = some s₁ → s₁.Awaits (front ++ tail₁) → ∀ tail₂,
    ∃ events₂ s₂, start.run? (handler host) events₂ = some s₂ ∧ s₂.fed = front ++ tail₂
      ∧ s₂.server.inputEnded = true
      ∧ start.schedule (handler host) events₁ = start.schedule (handler host) events₂
      ∧ s₁.SameFate s₂ ∧ s₁.server.state.exitCode = s₂.server.state.exitCode
  /-- A server to which the bytes come returns without a fault, whatever follows, if its agents go
  on whenever they can and the handling of every notification ends. -/
  returns : ∀ c : Course (handler host), c.ReceivesFirst front → c.Fair → c.Attentive →
    ∃ t, ∀ t', t ≤ t' → (c.now t').server.ended? = some none

/-- Where the last of some frames closes, nothing else matters to a session. -/
theorem Final.of_conclusive {host : Host ε μ} {front : List UInt8} {bodies : List (List UInt8)}
    (hfront : Conclusive (handler host) front bodies) : Final host front bodies where
  frames := hfront.frames
  ok hstart hrun hawaits := by
    obtain ⟨-, hwithin⟩ := (hstart.within hfront).handed_schedule hfront hrun hawaits
    refine ⟨hwithin.dispatched, fun fault hended => hwithin.left fault ?_⟩
    rw [Server.ended?_eq_some_iff.mp hended]
    rfl
  same hstart hrun₁ hrun₂ hawaits₁ hawaits₂ hschedule :=
    have hfate := hstart.same hfront hrun₁ hrun₂ hawaits₁ hawaits₂ hschedule
    ⟨hfate, by rw [hfate.state]⟩
  possible hstart hrun₁ hawaits₁ tail₂ := by
    obtain ⟨events₂, s₂, hrun₂, hfed, hended, hschedule, hfate⟩ :=
      hstart.possible hfront hrun₁ hawaits₁ tail₂
    exact ⟨events₂, s₂, hrun₂, hfed, hended, hschedule, hfate, by rw [hfate.state]⟩
  returns _ hreceives hfair hattentive := hreceives.returns hfront hfair hattentive

/-- **Nothing after the exit matters.** The first frames of a stream are without a fault and the
last of them is the notification to exit, in whatever state the session will be then. The bytes of
these frames are the beginning of other streams too, with anything after them. On each of these
streams a server dispatches none but these bodies and returns without a fault; and what it
dispatches and writes, what the session becomes and the exit code depend on the schedule alone,
which may be any that is possible on one of the streams. -/
theorem nothing_after_exit_matters (host : Host ε μ) {stream tail body : List UInt8}
    {bodies : List (List UInt8)}
    (hframes : Frame.readFrames? true bodies.length stream = some (bodies, tail))
    (hlast : bodies.getLast? = some body) (hexit : isExit body = true) :
    ∃ front, stream = front ++ tail ∧ Final host front bodies := by
  have hcloses := closes_of_isExit host hexit
  obtain ⟨before, hbodies⟩ := List.getLast?_eq_some_iff.mp hlast
  obtain ⟨front, hstream, hfront⟩ := Frame.exists_front hframes fun hempty =>
    hcloses.ne_nil (Option.some.inj (hlast.symm.trans hempty))
  exact ⟨front, hstream, .of_conclusive ⟨hfront, before, body, hbodies, hcloses⟩⟩

/-- A notification, and the one to exit. -/
def leaving : List (List UInt8) :=
  [Text.Utf8.encodeString "\x7b\"method\":\"initialized\",\"params\":\x7b\x7d\x7d",
    Text.Utf8.encodeString "\x7b\"method\":\"exit\"\x7d"]

/-- A header that gives no number. -/
def nonsense : List UInt8 :=
  Text.Utf8.encodeString "Content-Length: more\r\n"

/-- A session that is about to be served. -/
def leaver : Service (Session Unit Unit) Standing where
  server :=
    { connection := { phase := .running }
      state := { engine := (), manifest := (), disk := {} }
      loop := .reading false
      writer := .active }

/-- The stream comes, the loop takes it, handles both notifications and leaves, and the writer and
the loop end. -/
def leavingEvents : List (Service.Event (Session Unit Unit)) :=
  [.feed (leaving.flatMap Frame.write ++ nonsense), .step .loop, .step .loop, .step .loop,
    .step .loop, .step .loop, .step .loop, .step .loop, .step .writer, .step .loop]

/-- The nonsense after the exit is not noticed, and neither would be a second exit in its place. -/
theorem nothing_after_exit_matters_leaving : ∃ front s₁ s₂,
    leaver.run? (handler ⟨.silent, none, {}⟩) leavingEvents = some s₁
      ∧ s₁.fed = front ++ nonsense ∧ s₂.fed = front ++ leaving.flatMap Frame.write
      ∧ s₁.server.ended? = some none ∧ s₁.dispatched = leaving ∧ s₁.server.state.exitCode = 1
      ∧ s₁.SameFate s₂ := by
  have hframes : Frame.readFrames? true leaving.length (leaving.flatMap Frame.write ++ nonsense)
      = some (leaving, nonsense) := by decide +kernel
  have hrun : (leaver.run? (handler ⟨.silent, none, {}⟩) leavingEvents).any (fun s =>
      s.fed == leaving.flatMap Frame.write ++ nonsense && s.dispatched == leaving
        && s.server.ended?.isSome && s.server.state.exitCode == 1) = true := by decide +kernel
  obtain ⟨s₁, hs₁, hends⟩ := (Option.any_eq_true _ _).mp hrun
  simp only [Bool.and_eq_true, beq_iff_eq] at hends
  obtain ⟨⟨⟨hfed, hdispatched⟩, hreturned⟩, hcode⟩ := hends
  obtain ⟨front, hfront, hfinal⟩ := nothing_after_exit_matters
    (⟨.silent, none, {}⟩ : Host Unit Unit) hframes rfl (by decide +kernel)
  rw [hfront] at hfed
  have hbegins : leaver.Begins := ⟨rfl, rfl, {}, _, rfl, rfl⟩
  have hawaits : s₁.Awaits (front ++ nonsense) := ⟨[], fun _ => rfl, by rw [hfed, List.append_nil]⟩
  obtain ⟨fault, hended⟩ := Option.isSome_iff_exists.mp hreturned
  obtain rfl := (hfinal.ok hbegins hs₁ hawaits).2 fault hended
  obtain ⟨events₂, s₂, -, hfed₂, -, -, hfate, -⟩ :=
    hfinal.possible hbegins hs₁ hawaits (leaving.flatMap Frame.write)
  exact ⟨front, s₁, s₂, hs₁, hfed, hfed₂, hended, hdispatched, hcode, hfate⟩

end Session

end FlagServer
