import FlagServer.Proofs.Connection.Traffic

/-!
# What is put to the queue

Every operation of those who use a connection puts at most one message to its queue: a maker the
request of its call or the notification that it is given up, the loop the error for a frame that it
rejects, a handler its answer. `Traffic.offer?` says which message that is, before anything is known
of the queue. The queue takes it or does not, and nothing else about the queue changes
(`Connection.Puts`). So the record of a traffic is made of those offers that were taken
(`Traffic.posted_step`).
-/

namespace FlagServer

/-- **What every step keeps holds after every run.** The property may speak of the steps so far. -/
theorem foldlM_induction {State Step : Type} {step : State → Step → Option State}
    {P : List Step → State → Prop} {s s' : State} {steps : List Step}
    (hrun : steps.foldlM step s = some s') (hstart : P [] s)
    (hstep : ∀ steps t a t', steps.foldlM step s = some t → P steps t → step t a = some t' →
      P (steps ++ [a]) t') : P steps s' := by
  -- On the last step, because the property speaks of the steps from the beginning.
  induction steps using List.reverseRecOn generalizing s' with
  | nil =>
    cases hrun
    exact hstart
  | append_singleton steps a ih =>
    rw [List.foldlM_append] at hrun
    obtain ⟨t, ht, hlast⟩ := Option.bind_eq_some_iff.mp hrun
    exact hstep steps t a s' ht (ih ht) (by simpa using hlast)

namespace Connection

variable {c c' : Connection}

/-! ## Offers -/

/-- What the queue takes of an offer. -/
def enqueued (c : Connection) (offer : Option Message) : List Message :=
  offer.toList.filter fun message => (c.enqueue? message).isSome

/-- Whether a message is taken does not depend on the message. -/
theorem isSome_enqueue? (c : Connection) (message : Message) :
    (c.enqueue? message).isSome = c.accepts := by
  unfold enqueue?
  cases c.accepts <;> rfl

/-- The queue takes the whole of an offer, or nothing. -/
theorem enqueued_eq (c : Connection) (offer : Option Message) :
    c.enqueued offer = if c.accepts then offer.toList else [] := by
  simp only [enqueued, isSome_enqueue?]
  cases c.accepts <;> simp

@[simp] theorem enqueued_none (c : Connection) : c.enqueued none = [] := rfl

/-- **A connection after an offer:** the queue has what it took of the offer, and the connection is
as far as it was. -/
structure Puts (offer : Option Message) (c c' : Connection) : Prop extends SamePhase c c' where
  queue : c'.queue = c.queue ++ (c.enqueued offer).map .send

theorem Puts.nothing (hphase : c'.phase = c.phase) (hfailed : c'.writerFailed = c.writerFailed)
    (hqueue : c'.queue = c.queue) : Puts none c c' :=
  ⟨⟨hphase, hfailed⟩, by simp [hqueue]⟩

/-- A message that is posted is offered. -/
theorem puts_post (c : Connection) (message : Message) :
    Puts (some message) c (c.post message) := by
  refine ⟨samePhase_post c message, ?_⟩
  rw [post_eq, enqueued_eq]
  cases c.accepts <;> simp

/-- What is changed besides does not matter to an offer. -/
theorem Puts.after {c₀ : Connection} {offer : Option Message} (h : Puts offer c₀ c')
    (h₀ : SamePhase c c₀) (hqueue : c₀.queue = c.queue) : Puts offer c c' where
  phase := h.phase.trans h₀.phase
  writerFailed := h.writerFailed.trans h₀.writerFailed
  queue := by rw [h.queue, hqueue, enqueued_eq, enqueued_eq, h₀.accepts]

theorem Puts.queuedSince {offer : Option Message} (h : Puts offer c c') :
    Traffic.queuedSince c.queue c'.queue = c.enqueued offer := by
  rw [h.queue, Traffic.queuedSince_append, List.filterMap_map]
  exact List.filterMap_some

/-! ## Who offers what -/

/-- The notification that a call is given up, where one waits under the id. -/
def noticeFor? (c : Connection) (id : RequestId) : Option Message :=
  (c.calls.find? id).map fun _ => cancelMessage id

/-- To give up a call is to offer the notice, where there is an entry. -/
theorem puts_giveUp (c : Connection) (id : RequestId) :
    Puts (c.noticeFor? id) c (c.giveUp id).2 := by
  simp only [giveUp, noticeFor?, CallTable.remove?]
  cases c.calls.find? id with
  | none => exact .nothing rfl rfl rfl
  | some serial => exact (puts_post _ _).after ⟨rfl, rfl⟩ rfl

/-- The answer of a handler, where its request is under way. -/
def answerOf? (c : Connection) (id : RequestId) (ticket : Nat)
    (outcome : Except ResponseError Json) : Option Message :=
  (c.inFlight.find? id).map fun _ => .response ⟨some id,
    if c.inFlight.isCancelled ticket then .error .requestCancelled else outcome⟩

/-- A handler that ends offers its answer, where there is an entry. -/
theorem puts_complete (c : Connection) (id : RequestId) (ticket : Nat)
    (outcome : Except ResponseError Json) :
    Puts (c.answerOf? id ticket outcome) c (c.complete id ticket outcome) := by
  simp only [complete, answerOf?, InFlight.finish?]
  cases c.inFlight.find? id with
  | none => exact .nothing rfl rfl rfl
  | some _ => exact (puts_post _ _).after ⟨rfl, rfl⟩ rfl

/-- The error for a frame that is rejected. -/
def errorFor? (registry : Registry) (c : Connection) (body : List UInt8) : Option Message :=
  match Message.ofBody body with
  | .error malformed => some (.response ⟨malformed.id, .error malformed.error⟩)
  | .ok (.request id method params) =>
    match registry.decodeRequest id method params with
    | .error e => some (.response ⟨some id, .error e⟩)
    | .ok _ =>
      if (c.inFlight.begin? id).isSome then none
      else some (.response ⟨some id,
        .error (.invalidRequest ("request id " ++ id.display ++ " is already in flight"))⟩)
  | .ok _ => none

/-- The loop offers the error for a frame that it rejects, and nothing for any other. -/
theorem puts_dispatch (registry : Registry) (c : Connection) (body : List UInt8) :
    Puts (c.errorFor? registry body) c (c.dispatch registry body).1 := by
  rw [dispatch_eq, errorFor?]
  cases Message.ofBody body with
  | error malformed => exact puts_post c _
  | ok message =>
    cases message with
    | request id method params =>
      -- A request is answered here only if it is rejected.
      simp only [dispatchMessage, dispatchRequest]
      cases registry.decodeRequest id method params with
      | error e => exact puts_post c _
      | ok r =>
        cases c.inFlight.begin? id with
        | none => exact puts_post c _
        | some begun => exact .nothing rfl rfl rfl
    | notification method params =>
      simp only [dispatchMessage, dispatchNotification, dispatchCancel]
      split
      · exact .nothing rfl rfl rfl
      · split
        · split <;> exact .nothing rfl rfl rfl
        · exact .nothing rfl rfl rfl
    | response r =>
      simp only [dispatchMessage, dispatchResponse]
      split
      · exact .nothing rfl rfl rfl
      · split <;> exact .nothing rfl rfl rfl

/-- A notification is offered unless its parameters cannot be written. -/
theorem puts_notify (c : Connection) (method : String) (params : Option Json) :
    Puts (params.map (.notification method)) c (c.notify method params).2 := by
  rw [notify_snd]
  cases params with
  | none => exact .nothing rfl rfl rfl
  | some params => exact puts_post c _

end Connection

/-- What a maker puts to the queue. -/
def Maker.offer? (m : Maker) (c : Connection) (a : Maker.Act) : Option Message :=
  match a, m.point with
  | .send, .entered method params => some (.request m.call.id method params)
  | .cancel, .holding =>
    if (c.outcome? m.call).isSome then none else c.noticeFor? m.call.id
  | .giveUp, .holding => c.noticeFor? m.call.id
  | .giveUp, .told _ => c.noticeFor? m.call.id
  | .giveUp, .quit => c.noticeFor? m.call.id
  | _, _ => none

/-- **A maker puts its offer to the queue,** and changes nothing but the calls besides. -/
theorem Maker.puts_act? {m m' : Maker} {c c' : Connection} {a : Maker.Act}
    (h : m.act? c a = some (m', c')) : c.Puts (m.offer? c a) c' := by
  cases step_of_act? h with
  | rejects | isRefused | awaits => exact .nothing rfl rfl rfl
  | enters _ hentered =>
    obtain ⟨calls, -, rfl⟩ := Option.map_eq_some_iff.mp hentered
    exact .nothing rfl rfl rfl
  | @sends method params _ hpoint hsent =>
    have hput := c.puts_post (.request m.call.id method params)
    rw [Connection.post, hsent] at hput
    simpa only [offer?, hpoint, Option.getD_some] using hput
  | @isUnsent method params hpoint hnone =>
    have hput := c.puts_post (.request m.call.id method params)
    rw [Connection.post, hnone] at hput
    simpa only [offer?, hpoint, Option.getD_none] using hput
  | withdraws =>
    unfold Connection.failWaiting
    split <;> exact .nothing rfl rfl rfl
  | finds hpoint houtcome =>
    simp only [offer?, hpoint, houtcome, Option.isSome_some, if_true]
    exact .nothing rfl rfl rfl
  | cancels hpoint hnone =>
    simpa [offer?, hpoint, hnone] using c.puts_giveUp m.call.id
  | quits hpoint | dropsTold hpoint | dropsQuit hpoint =>
    -- A call that is held, has been waited for or was given up before is given up in one way.
    simpa only [offer?, hpoint] using c.puts_giveUp m.call.id

/-- An act of those who use the connection, and not of the loop at its beginning and end or of the
writer. -/
def Act.isUse : Act → Bool
  | .other (.notify _ _) => true
  | .other .requestClose => true
  | .other _ => false
  | _ => true

namespace Traffic

variable {registry : Registry} {s s' : Traffic} {a : Act}

/-- **What an act puts to the queue,** whether or not the queue takes it. -/
def offer? (registry : Registry) (s : Traffic) : Act → Option Message
  | .maker serial b => s.makers[serial]?.bind fun m => m.offer? s.connection b
  | .receive body => s.connection.errorFor? registry body
  | .finish ticket outcome =>
    (s.running.find? fun task => task.2 == ticket).bind fun task =>
      s.connection.answerOf? task.1 ticket outcome
  | .other (.notify method params) => params.map (.notification method)
  | _ => none

/-- Who uses a connection puts an offer to its queue. -/
theorem puts_step (hstep : s.step? registry a = some s') (ha : a.isUse = true) :
    s.connection.Puts (s.offer? registry a) s'.connection := by
  obtain ⟨t, ht, rfl⟩ := step?_eq_some hstep
  change s.connection.Puts _ t.connection
  cases a with
  | draw method params =>
    obtain rfl := Option.some.inj ht
    exact .nothing rfl rfl rfl
  | maker k b =>
    obtain ⟨m, m', c, hm, hact, rfl⟩ := perform?_maker ht
    simpa only [offer?, hm, Option.bind_some] using Maker.puts_act? hact
  | receive body =>
    rw [perform?_receive] at ht
    obtain rfl := Option.some.inj ht
    exact s.connection.puts_dispatch registry body
  | finish ticket outcome =>
    simp only [perform?] at ht
    split at ht
    · cases ht
    · case h_2 id ticket' hfind =>
      obtain rfl := Option.some.inj ht
      simpa only [offer?, hfind, Option.bind_some]
        using s.connection.puts_complete id ticket outcome
  | closeCalls | closeRequests =>
    obtain rfl := Option.some.inj ht
    exact .nothing rfl rfl rfl
  | other op =>
    obtain ⟨c, hc, rfl⟩ := Option.map_eq_some_iff.mp ht
    cases op with
    | notify method params =>
      obtain rfl := Option.some.inj hc
      exact s.connection.puts_notify method params
    | requestClose =>
      obtain rfl := Option.some.inj hc
      exact .nothing rfl rfl rfl
    | _ => cases ha

/-- The loop at its beginning and end, and the writer, put nothing to the queue. -/
theorem queuedSince_op? {c c' : Connection} {op : Connection.Op} (h : c.op? op = some c')
    (hop : (Act.other op).isUse = false) : queuedSince c.queue c'.queue = [] := by
  cases op with
  | notify _ _ | requestClose => cases hop
  | start =>
    simp only [Connection.op?, Connection.start?] at h
    split at h <;> cases h
    exact queuedSince_self _
  | stopWriter =>
    obtain rfl := Option.some.inj h
    unfold Connection.stopWriter
    split
    · exact queuedSince_self _
    · exact queuedSince_append _ _
  | take =>
    simp only [Connection.op?, Connection.take?] at h
    split at h
    · cases h
    · case h_2 command queue hqueue =>
      obtain rfl := Option.some.inj h
      -- The queue is shorter than it was, so nothing in it is new.
      have hdrop : queue.drop (queue.length + 1) = [] := List.drop_eq_nil_of_le (by omega)
      simp [queuedSince, hqueue, hdrop]
  | failWriter =>
    obtain rfl := Option.some.inj h
    simp [queuedSince, Connection.failWriter]
  | beginClosing | finishClosing =>
    obtain rfl := Option.some.inj h
    exact queuedSince_self _

/-- **The record grows by what the queue takes of each offer,** and by nothing else. -/
theorem posted_step (hstep : s.step? registry a = some s') :
    s'.posted = s.posted ++ s.connection.enqueued (s.offer? registry a) := by
  obtain ⟨t, ht, rfl⟩ := step?_eq_some hstep
  cases ha : a.isUse with
  | true => rw [(puts_step hstep ha).queuedSince]
  | false =>
    cases a with
    | other op =>
      obtain ⟨c, hc, rfl⟩ := Option.map_eq_some_iff.mp ht
      have hoffer : s.offer? registry (.other op) = none := by
        cases op with
        | notify _ _ => cases ha
        | _ => rfl
      rw [queuedSince_op? hc ha, hoffer, Connection.enqueued_none]
    | _ => cases ha

/-- **The messages that the queue takes in a run,** in the order in which they are put to it. -/
def accepted (registry : Registry) : Traffic → List Act → List Message
  | _, [] => []
  | s, a :: acts =>
    s.connection.enqueued (s.offer? registry a)
      ++ ((s.step? registry a).map fun s => accepted registry s acts).getD []

/-- The record of a run is what the queue took in it. -/
theorem posted_run {acts : List Act} (hrun : s.run? registry acts = some s') :
    s'.posted = s.posted ++ accepted registry s acts := by
  induction acts generalizing s with
  | nil =>
    obtain rfl : s = s' := by simpa using hrun
    simp [accepted]
  | cons a acts ih =>
    obtain ⟨t, ht, hrun⟩ := Option.bind_eq_some_iff.mp hrun
    rw [ih hrun, posted_step ht, accepted, ht, Option.map_some, Option.getD_some,
      List.append_assoc]

end Traffic

end FlagServer
