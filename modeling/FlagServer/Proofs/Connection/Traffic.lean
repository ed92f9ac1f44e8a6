import FlagServer.Connection.Dispatch
import Mathlib.Data.List.Induction

/-!
# Traffic on a connection

Many work on one connection at the same time: the loop that dispatches frames, the handlers of the
requests it has accepted, the writer, and whoever makes calls. None of their operations is the
whole story of a message. To make a call, for instance, is to draw an id, to enter the call in the
table, to queue its request and, if the queue takes no more, to take the entry out again; between
any two of these somebody else may have done something.

A `Traffic` is a connection together with how far each of them has come, and an `Act` is one
operation of one of them that nobody can get in between. Nothing is said about who is next: what
holds after **every** list of acts holds for every order in which the operations can happen.

Only what the code of the makers and of the handlers itself rules out is ruled out here. A maker
takes its steps in their order, and gives up a call only once it has it in hand. A handler ends
once. The acts of the loop and of the writer may come at any time, also after the connection has
begun to close.
-/

namespace FlagServer

/-! ## The body of a frame -/

/-- What the body of a frame says: a message, or the error that its sender is owed. -/
def Message.ofBody (body : List UInt8) : Except Malformed Message :=
  match Json.parseBytes? body with
  | none => .error ⟨none, .parseError "the body is not JSON"⟩
  | some v => Message.ofJson? v

/-- A body that is no message is answered at once, and every other is dispatched as the message
that it is. -/
theorem Connection.dispatch_eq (registry : Registry) (c : Connection) (body : List UInt8) :
    c.dispatch registry body
      = match Message.ofBody body with
        | .error malformed => (c.reply malformed.id (.error malformed.error), .nothing)
        | .ok message => c.dispatchMessage registry message := by
  unfold Connection.dispatch Message.ofBody
  cases Json.parseBytes? body with
  | none => rfl
  | some v => cases Message.ofJson? v <;> rfl

/-! ## Those who make calls -/

/-- How far the maker of a call has come. -/
inductive Point where
  /-- The call has its id. Its parameters are there unless they cannot be written. -/
  | drawn (method : String) (params : Option Json)
  /-- The call is in the table, and its request is still to be sent. -/
  | entered (method : String) (params : Json)
  /-- The request could not be sent. -/
  | unsent
  /-- The call has been made: its maker has it in hand and may wait for its outcome. -/
  | holding
  /-- The maker has waited, and this is what it was told. -/
  | told (outcome : Except CallError Json)
  /-- The maker has given the call up without waiting for its outcome. -/
  | quit

/-- One who makes a call. -/
structure Maker where
  /-- The call. -/
  call : Call
  /-- How far it has come. -/
  point : Point

/-- What a maker does at once. -/
inductive Maker.Act where
  /-- Fails the call because its parameters cannot be written. -/
  | reject
  /-- Enters the call in the table, which may refuse it. -/
  | enter
  /-- Puts the request in the queue, which may refuse it. -/
  | send
  /-- Fails the call whose request was refused. -/
  | withdraw
  /-- Takes the outcome that has come. -/
  | await
  /-- Takes the outcome that has come or, there being none, cancels the call. -/
  | cancel
  /-- Gives the call up: by wish, or because the maker is done with it. -/
  | giveUp

/-- The maker after an act, and the connection; nothing where the maker is not at the point for
it, or has to wait. -/
def Maker.act? (m : Maker) (c : Connection) (a : Maker.Act) : Option (Maker × Connection) :=
  match a, m.point with
  | .reject, .drawn _ none => some ({ m with point := .holding }, c.fail m.call .unwritable)
  | .enter, .drawn method (some params) =>
    match c.await? m.call with
    | some c => some ({ m with point := .entered method params }, c)
    | none => some ({ m with point := .holding }, c.fail m.call .connectionClosed)
  | .send, .entered method params =>
    match c.enqueue? (.request m.call.id method params) with
    | some c => some ({ m with point := .holding }, c)
    | none => some ({ m with point := .unsent }, c)
  | .withdraw, .unsent =>
    some ({ m with point := .holding }, c.failWaiting m.call.id .connectionClosed)
  | .await, .holding => (c.outcome? m.call).map fun o => ({ m with point := .told o }, c)
  | .cancel, .holding =>
    (c.outcomeOrCancel? m.call true).map fun (o, c) => ({ m with point := .told o }, c)
  | .giveUp, .holding => some ({ m with point := .quit }, (c.giveUp m.call.id).2)
  -- A call that has been waited for or given up is still let go of, by the same operation.
  | .giveUp, .told _ => some (m, (c.giveUp m.call.id).2)
  | .giveUp, .quit => some (m, (c.giveUp m.call.id).2)
  | _, _ => none

/-! ## Acts -/

/-- What touches neither the calls nor the requests of a connection. -/
inductive Connection.Op where
  /-- A notification is sent. -/
  | notify (method : String) (params : Option Json)
  /-- Somebody asks for the connection to be closed. -/
  | requestClose
  /-- The loop begins. -/
  | start
  /-- The loop stops taking messages. -/
  | beginClosing
  /-- The loop tells the writer to stop. -/
  | stopWriter
  /-- The loop ends. -/
  | finishClosing
  /-- The writer takes a command. -/
  | take
  /-- The writer fails. -/
  | failWriter

/-- The connection after such an operation; nothing where it is refused. -/
def Connection.op? (c : Connection) : Connection.Op → Option Connection
  | .notify method params => some (c.notify method params).2
  | .requestClose => some c.close
  | .start => c.start?
  | .beginClosing => some c.beginClosing
  | .stopWriter => some c.stopWriter
  | .finishClosing => some c.finishClosing
  | .take => c.take?.map (·.2)
  | .failWriter => some c.failWriter

/-- What somebody does at once. -/
inductive Act where
  /-- A call is begun: it draws its id. -/
  | draw (method : String) (params : Option Json)
  /-- The maker of a call, by the call's number. -/
  | maker (serial : Nat) (a : Maker.Act)
  /-- The loop dispatches a frame. -/
  | receive (body : List UInt8)
  /-- The handler of a request, by its ticket, ends with an outcome. -/
  | finish (ticket : Nat) (outcome : Except ResponseError Json)
  /-- The loop fails the calls that wait. -/
  | closeCalls
  /-- The loop cancels the requests under way. -/
  | closeRequests
  /-- Anything else. -/
  | other (op : Connection.Op)

/-- A connection and all who work on it. -/
structure Traffic where
  /-- The connection. -/
  connection : Connection := {}
  /-- Those who make calls, by the numbers of their calls. -/
  makers : List Maker := []
  /-- The handlers at work: the ids and tickets of their requests. -/
  running : List (RequestId × Nat) := []
  /-- Every handler that has been started, in order. -/
  started : List (RequestId × Nat) := []
  /-- Every message that the queue has taken, in order. -/
  posted : List Message := []

/-- The handlers that a delivery starts. -/
def Delivery.started : Delivery → List (RequestId × Nat)
  | .request ticket r => [(r.id, ticket)]
  | _ => []

/-- The message of a command. -/
def Command.message? : Command → Option Message
  | .send message => some message
  | .stop => none

namespace Traffic

/-- The calls that have been begun. -/
def calls (s : Traffic) : List Call :=
  s.makers.map (·.call)

/-- The messages at the end of one queue that another, earlier one does not have. -/
def queuedSince (earlier later : List Command) : List Message :=
  (later.drop earlier.length).filterMap Command.message?

/-- The traffic after an act, but for the record of what has been posted. -/
def perform? (registry : Registry) (s : Traffic) : Act → Option Traffic
  | .draw method params =>
    let (call, connection) := s.connection.draw
    some { s with connection, makers := s.makers ++ [⟨call, .drawn method params⟩] }
  | .maker serial a =>
    match s.makers[serial]? with
    | none => none
    | some m =>
      (m.act? s.connection a).map fun (m, connection) =>
        { s with connection, makers := s.makers.set serial m }
  | .receive body =>
    let (connection, delivery) := s.connection.dispatch registry body
    some { s with
      connection
      running := s.running ++ delivery.started
      started := s.started ++ delivery.started }
  | .finish ticket outcome =>
    match s.running.find? fun task => task.2 == ticket with
    | none => none
    | some (id, _) =>
      some { s with
        connection := s.connection.complete id ticket outcome
        running := s.running.filter fun task => !(task.2 == ticket) }
  | .closeCalls => some { s with connection := s.connection.closeCalls }
  | .closeRequests => some { s with connection := s.connection.closeRequests }
  | .other op => (s.connection.op? op).map fun connection => { s with connection }

/-- The traffic after an act; nothing where the act is not possible. -/
def step? (registry : Registry) (s : Traffic) (a : Act) : Option Traffic :=
  (s.perform? registry a).map fun t =>
    { t with posted := s.posted ++ queuedSince s.connection.queue t.connection.queue }

/-- The traffic after some acts, one after the other. -/
def run? (registry : Registry) : Traffic → List Act → Option Traffic
  | s, [] => some s
  | s, a :: acts => (s.step? registry a).bind fun s => run? registry s acts

/-! ## Runs -/

variable {registry : Registry}

@[simp] theorem run?_nil (s : Traffic) : s.run? registry [] = some s := rfl

/-- A run can be cut anywhere: what comes later goes on from where the first acts have led. -/
theorem run?_append (s : Traffic) (acts more : List Act) :
    s.run? registry (acts ++ more) = (s.run? registry acts).bind (·.run? registry more) := by
  induction acts generalizing s with
  | nil => rfl
  | cons a acts ih =>
    simp only [List.cons_append, run?]
    -- An act that is not possible ends both runs.
    cases s.step? registry a with
    | none => rfl
    | some t => exact ih t

/-- The same with one last act. In this form an induction from the right takes a run apart. -/
theorem run?_concat {s s' : Traffic} {acts : List Act} {a : Act} :
    s.run? registry (acts ++ [a]) = some s'
      ↔ ∃ t, s.run? registry acts = some t ∧ t.step? registry a = some s' := by
  rw [run?_append]
  cases s.run? registry acts with
  | none => simp
  | some t => simp [run?]

/-- **What every step keeps holds after every run.** The property may speak of the acts so far. -/
theorem run_induction {P : List Act → Traffic → Prop} {s s' : Traffic} {acts : List Act}
    (hrun : s.run? registry acts = some s') (hstart : P [] s)
    (hstep : ∀ acts t a t', s.run? registry acts = some t → P acts t →
      t.step? registry a = some t' → P (acts ++ [a]) t') :
    P acts s' := by
  -- On the last act, because the property speaks of the acts from the beginning.
  induction acts using List.reverseRecOn generalizing s' with
  | nil =>
    obtain rfl : s = s' := by simpa using hrun
    exact hstart
  | append_singleton acts a ih =>
    obtain ⟨t, ht, hat⟩ := run?_concat.mp hrun
    exact hstep acts t a s' ht (ih ht) hat

/-- The state between two parts of a run that has been possible. -/
theorem run?_split {s s' : Traffic} {acts more : List Act}
    (hrun : s.run? registry (acts ++ more) = some s') :
    ∃ t, s.run? registry acts = some t ∧ t.run? registry more = some s' := by
  rw [run?_append] at hrun
  exact Option.bind_eq_some_iff.mp hrun

/-- A step is an act and, whatever the act, what it has put to the queue goes into the record. -/
theorem step?_eq_some {s s' : Traffic} {a : Act} (h : s.step? registry a = some s') :
    ∃ t, s.perform? registry a = some t
      ∧ s' = { t with
          posted := s.posted ++ queuedSince s.connection.queue t.connection.queue } := by
  unfold step? at h
  obtain ⟨t, ht, rfl⟩ := Option.map_eq_some_iff.mp h
  exact ⟨t, ht, rfl⟩

theorem perform?_receive (s : Traffic) (body : List UInt8) :
    s.perform? registry (.receive body) = some { s with
      connection := (s.connection.dispatch registry body).1
      running := s.running ++ (s.connection.dispatch registry body).2.started
      started := s.started ++ (s.connection.dispatch registry body).2.started } := rfl

/-- An act of a maker needs the maker at that number, and changes it and the connection only. -/
theorem perform?_maker {s s' : Traffic} {k : Nat} {b : Maker.Act}
    (h : s.perform? registry (.maker k b) = some s') :
    ∃ m m' c, s.makers[k]? = some m ∧ m.act? s.connection b = some (m', c)
      ∧ s' = { s with connection := c, makers := s.makers.set k m' } := by
  simp only [perform?] at h
  split at h
  · cases h
  · case h_2 m hm =>
    obtain ⟨⟨m', c⟩, hact, rfl⟩ := Option.map_eq_some_iff.mp h
    exact ⟨m, m', c, hm, hact, rfl⟩

/-- A handler that ends has been at work, and is not any more. -/
theorem perform?_finish {s s' : Traffic} {ticket : Nat} {outcome : Except ResponseError Json}
    (h : s.perform? registry (.finish ticket outcome) = some s') :
    ∃ id, (id, ticket) ∈ s.running
      ∧ s' = { s with
          connection := s.connection.complete id ticket outcome
          running := s.running.filter fun task => !(task.2 == ticket) } := by
  simp only [perform?] at h
  split at h
  · cases h
  · case h_2 id t hfind =>
    -- What is found by a ticket has that ticket.
    obtain rfl : t = ticket := by simpa using List.find?_some hfind
    exact ⟨id, List.mem_of_find?_eq_some hfind, (Option.some.inj h).symm⟩

/-! ## Operations of several acts -/

/-- The maker who has come last acts. -/
theorem run?_last (registry : Registry) {s : Traffic} {makers : List Maker} {m : Maker}
    {b : Maker.Act} {p : Point} {c : Connection} (hmakers : s.makers = makers ++ [m])
    (hact : m.act? s.connection b = some ({ m with point := p }, c)) :
    ∃ s' : Traffic,
      (∀ acts, s.run? registry (.maker makers.length b :: acts) = s'.run? registry acts)
      ∧ s'.connection = c ∧ s'.makers = makers ++ [{ m with point := p }] := by
  refine ⟨{ s with
    connection := c
    makers := makers ++ [{ m with point := p }]
    posted := s.posted ++ queuedSince s.connection.queue c.queue }, fun acts => ?_, rfl, rfl⟩
  simp [run?, step?, perform?, hmakers, hact]

/-- **To send the request of a call** that is in the table takes one act or two: the queue takes the
request, or it does not and the maker takes the entry out again. Either way the maker holds the call
in the end. -/
theorem run?_sendCall (registry : Registry) {s : Traffic} {makers : List Maker} {call : Call}
    {method : String} {params : Json}
    (hmakers : s.makers = makers ++ [⟨call, .entered method params⟩]) :
    ∃ (acts : List Maker.Act) (s' : Traffic),
      s.run? registry (acts.map (.maker makers.length)) = some s'
      ∧ s'.connection = s.connection.sendCall call method params
      ∧ s'.makers = makers ++ [⟨call, .holding⟩] := by
  cases hsend : s.connection.enqueue? (.request call.id method params) with
  | some c =>
    obtain ⟨s', hrun, hc, hm⟩ := run?_last registry (b := .send) (p := .holding)
      (c := c) hmakers (by simp only [Maker.act?, hsend])
    refine ⟨[.send], s', hrun [], ?_, hm⟩
    simp only [hc, Connection.sendCall, hsend]
  | none =>
    -- The queue takes nothing, and the maker withdraws what it has entered.
    obtain ⟨t, hrun, hc, hm⟩ := run?_last registry (b := .send) (p := .unsent)
      (c := s.connection) hmakers (by simp only [Maker.act?, hsend])
    obtain ⟨s', hrun', hc', hm'⟩ := run?_last registry (b := .withdraw)
      (p := .holding) hm rfl
    refine ⟨[.send, .withdraw], s', (hrun _).trans (hrun' []), ?_, hm'⟩
    simp only [hc', hc, Connection.sendCall, hsend]

/-- **To make a call** without anybody getting in between is to begin it and to take the acts of
its maker one after the other. -/
theorem run?_call (registry : Registry) (s : Traffic) (method : String) (params : Option Json) :
    ∃ (acts : List Maker.Act) (s' : Traffic),
      s.run? registry (.draw method params :: acts.map (.maker s.makers.length)) = some s'
      ∧ s'.connection = (s.connection.call method params).2
      ∧ s'.makers = s.makers ++ [⟨(s.connection.call method params).1, .holding⟩] := by
  -- A call draws its id whatever becomes of it. From here the maker goes on alone.
  obtain ⟨t, hrun, hc, hm⟩ : ∃ t : Traffic,
      (∀ acts, s.run? registry (.draw method params :: acts) = t.run? registry acts)
      ∧ t.connection = s.connection.draw.2
      ∧ t.makers = s.makers ++ [⟨s.connection.draw.1, .drawn method params⟩] :=
    ⟨_, fun _ => rfl, rfl, rfl⟩
  cases params with
  | none =>
    -- Parameters that cannot be written fail the call at once.
    obtain ⟨s', hrun', hc', hm'⟩ := run?_last registry (b := .reject) (p := .holding) hm rfl
    refine ⟨[.reject], s', (hrun _).trans (hrun' []), ?_, hm'⟩
    rw [hc', hc]
    rfl
  | some params =>
    cases hawait : t.connection.await? s.connection.draw.1 with
    | none =>
      -- The table takes no calls, and the call has failed with that.
      obtain ⟨s', hrun', hc', hm'⟩ := run?_last registry (b := .enter) (p := .holding)
        (c := t.connection.fail s.connection.draw.1 .connectionClosed) hm
        (by simp only [Maker.act?, hawait])
      rw [hc] at hawait hc'
      refine ⟨[.enter], s', (hrun _).trans (hrun' []), ?_, ?_⟩
      · simp only [Connection.call, hawait, hc']
      · simp only [Connection.call, hawait, hm']
    | some c =>
      obtain ⟨t', hrun', hc', hm'⟩ := run?_last registry (b := .enter)
        (p := .entered method params) (c := c) hm (by simp only [Maker.act?, hawait])
      obtain ⟨acts, s', hacts, hc'', hm''⟩ := run?_sendCall registry hm'
      rw [hc] at hawait
      refine ⟨.enter :: acts, s', (hrun _).trans ((hrun' _).trans hacts), ?_, ?_⟩
      · simp only [Connection.call, hawait, hc'', hc']
      · simp only [Connection.call, hawait, hm'']

/-- **To close the connection** is to take the acts of the loop one after the other. -/
theorem run?_shutDown (registry : Registry) (s : Traffic) :
    ∃ s', s.run? registry
        [.other .beginClosing, .closeCalls, .closeRequests, .other .stopWriter] = some s'
      ∧ s'.connection = s.connection.shutDown ∧ s'.makers = s.makers ∧ s'.running = s.running :=
  ⟨_, rfl, rfl, rfl, rfl⟩

end Traffic

/-! ## What an operation leaves alone -/

namespace Connection

/-- The connection has the same calls as another, and the next will be the same. -/
structure SameCalls (c c' : Connection) : Prop where
  calls : c'.calls = c.calls
  nextId : c'.nextId = c.nextId
  nextSerial : c'.nextSerial = c.nextSerial

theorem SameCalls.refl (c : Connection) : SameCalls c c := ⟨rfl, rfl, rfl⟩

/-- The queue takes a message only while the connection takes messages, and puts it last. -/
theorem enqueue?_eq_some {c c' : Connection} {message : Message}
    (h : c.enqueue? message = some c') :
    c.accepts = true ∧ c' = { c with queue := c.queue ++ [.send message] } := by
  unfold enqueue? at h
  split at h
  · case isTrue ha => exact ⟨ha, (Option.some.inj h).symm⟩
  · cases h

/-- To post is to put a message to the queue and not to mind if it takes none. -/
theorem post_eq (c : Connection) (message : Message) :
    c.post message
      = if c.accepts then { c with queue := c.queue ++ [.send message] } else c := by
  unfold post enqueue?
  split <;> rfl

@[simp] theorem inFlight_post (c : Connection) (message : Message) :
    (c.post message).inFlight = c.inFlight := by
  rw [post_eq]
  split <;> rfl

theorem sameCalls_post (c : Connection) (message : Message) : SameCalls c (c.post message) := by
  rw [post_eq]
  split <;> exact ⟨rfl, rfl, rfl⟩

theorem sameCalls_reply (c : Connection) (id : Option RequestId)
    (outcome : Except ResponseError Json) : SameCalls c (c.reply id outcome) :=
  sameCalls_post c _

@[simp] theorem inFlight_reply (c : Connection) (id : Option RequestId)
    (outcome : Except ResponseError Json) : (c.reply id outcome).inFlight = c.inFlight :=
  inFlight_post c _

/-- A notification is posted, unless its parameters cannot be written. -/
theorem notify_snd (c : Connection) (method : String) (params : Option Json) :
    (c.notify method params).2
      = match params with
        | none => c
        | some params => c.post (.notification method params) := by
  cases params with
  | none => rfl
  | some params =>
    simp only [notify, post]
    cases c.enqueue? (.notification method params) <;> rfl

/-- The end of a handler concerns its own request, and the response that it posts. -/
theorem sameCalls_complete (c : Connection) (id : RequestId) (ticket : Nat)
    (outcome : Except ResponseError Json) : SameCalls c (c.complete id ticket outcome) := by
  unfold complete
  cases c.inFlight.finish? id with
  | none => exact SameCalls.refl c
  | some inFlight =>
    have h := sameCalls_reply { c with inFlight } (some id)
      (if c.inFlight.isCancelled ticket then .error .requestCancelled else outcome)
    exact ⟨h.calls, h.nextId, h.nextSerial⟩

/-- A request that comes in concerns no calls, whether it is started or refused. -/
theorem sameCalls_dispatchRequest (registry : Registry) (c : Connection) (id : RequestId)
    (method : String) (params : Json) :
    SameCalls c (c.dispatchRequest registry id method params).1 := by
  unfold dispatchRequest
  cases registry.decodeRequest id method params with
  | error e => exact sameCalls_reply c _ _
  | ok r =>
    cases c.inFlight.begin? id with
    | none => exact sameCalls_reply c _ _
    | some begun => exact ⟨rfl, rfl, rfl⟩

/-- Nor does a cancellation, which is of a request of the other side. -/
theorem sameCalls_dispatchCancel (c : Connection) (params : Datum) :
    SameCalls c (c.dispatchCancel params) := by
  unfold dispatchCancel
  cases cancelledId? params with
  | none => exact SameCalls.refl c
  | some id => exact ⟨rfl, rfl, rfl⟩

/-- Nor does any other notification. -/
theorem sameCalls_dispatchNotification (registry : Registry) (c : Connection) (method : String)
    (params : Json) : SameCalls c (c.dispatchNotification registry method params).1 := by
  unfold dispatchNotification
  split
  · exact SameCalls.refl c
  · split
    · exact sameCalls_dispatchCancel c _
    · exact SameCalls.refl c

/-- A response is for the calls, and nothing is handed on. -/
theorem dispatch_response (registry : Registry) (c : Connection) {body : List UInt8}
    {r : Response} (hbody : Message.ofBody body = .ok (.response r)) :
    c.dispatch registry body = (c.dispatchResponse r, .nothing) := by
  rw [dispatch_eq, hbody]
  rfl

/-- Only a response concerns the calls. -/
theorem sameCalls_dispatch (registry : Registry) (c : Connection) {body : List UInt8}
    (hbody : ∀ r, Message.ofBody body ≠ .ok (.response r)) :
    SameCalls c (c.dispatch registry body).1 := by
  rw [dispatch_eq]
  cases hm : Message.ofBody body with
  | error malformed => exact sameCalls_reply c _ _
  | ok message =>
    cases message with
    | request id method params => exact sameCalls_dispatchRequest registry c id method params
    | notification method params => exact sameCalls_dispatchNotification registry c method params
    | response r => exact absurd hm (hbody r)

/-- **An operation on the rest of the connection** concerns neither the calls nor the requests. -/
theorem op?_same {c c' : Connection} {op : Op} (h : c.op? op = some c') :
    SameCalls c c' ∧ c'.inFlight = c.inFlight := by
  cases op with
  | notify method params =>
    -- A notification is posted, and to post concerns the queue only.
    obtain rfl : (c.notify method params).2 = c' := by simpa [op?] using h
    rw [notify_snd]
    cases params with
    | none => exact ⟨SameCalls.refl c, rfl⟩
    | some params => exact ⟨sameCalls_post c _, inFlight_post c _⟩
  | start =>
    simp only [op?, start?] at h
    split at h
    · obtain rfl := Option.some.inj h
      exact ⟨⟨rfl, rfl, rfl⟩, rfl⟩
    · cases h
  | stopWriter =>
    obtain rfl : c.stopWriter = c' := by simpa [op?] using h
    unfold stopWriter
    split <;> exact ⟨⟨rfl, rfl, rfl⟩, rfl⟩
  | take =>
    simp only [op?, take?] at h
    split at h
    · cases h
    · obtain rfl := Option.some.inj h
      exact ⟨⟨rfl, rfl, rfl⟩, rfl⟩
  | requestClose | beginClosing | finishClosing | failWriter =>
    obtain rfl := Option.some.inj h
    exact ⟨⟨rfl, rfl, rfl⟩, rfl⟩

end Connection

/-! ## Until when messages are taken -/

/-- The act after which the connection takes no more messages: the loop begins to close it or has
closed it, or the writer fails. -/
def Act.stops : Act → Bool
  | .other .beginClosing => true
  | .other .finishClosing => true
  | .other .failWriter => true
  | _ => false

namespace Connection

/-- The connection is as far as another: both take messages, or neither does. -/
structure SamePhase (c c' : Connection) : Prop where
  phase : c'.phase = c.phase
  writerFailed : c'.writerFailed = c.writerFailed

theorem SamePhase.refl (c : Connection) : SamePhase c c := ⟨rfl, rfl⟩

theorem SamePhase.accepts {c c' : Connection} (h : SamePhase c c') : c'.accepts = c.accepts := by
  unfold Connection.accepts
  rw [h.phase, h.writerFailed]

/-- To post a message leaves the connection as far as it was, also when the message is not taken. -/
theorem samePhase_post (c : Connection) (message : Message) : SamePhase c (c.post message) := by
  rw [post_eq]
  split <;> exact ⟨rfl, rfl⟩

/-- So does the end of a handler. -/
theorem samePhase_complete (c : Connection) (id : RequestId) (ticket : Nat)
    (outcome : Except ResponseError Json) : SamePhase c (c.complete id ticket outcome) := by
  unfold complete
  cases c.inFlight.finish? id with
  | none => exact SamePhase.refl c
  | some inFlight =>
    -- The request leaves the table first, which says nothing about the phase.
    have h := samePhase_post { c with inFlight } (.response ⟨some id,
      if c.inFlight.isCancelled ticket then .error .requestCancelled else outcome⟩)
    exact ⟨h.phase, h.writerFailed⟩

/-- So does a frame, whatever is in it: the loop closes the connection by acts of its own. -/
theorem samePhase_dispatch (registry : Registry) (c : Connection) (body : List UInt8) :
    SamePhase c (c.dispatch registry body).1 := by
  rw [dispatch_eq]
  cases Message.ofBody body with
  | error malformed => exact samePhase_post c _
  | ok message =>
    cases message with
    | request id method params =>
      simp only [dispatchMessage, dispatchRequest]
      split
      · exact samePhase_post c _
      · split
        · exact samePhase_post c _
        · exact ⟨rfl, rfl⟩
    | notification method params =>
      simp only [dispatchMessage, dispatchNotification, dispatchCancel]
      split
      · exact SamePhase.refl c
      · split
        · split <;> exact ⟨rfl, rfl⟩
        · exact SamePhase.refl c
    | response r =>
      simp only [dispatchMessage, dispatchResponse]
      split
      · exact SamePhase.refl c
      · split <;> exact ⟨rfl, rfl⟩

end Connection

/-! ## What a maker does to the connection -/

/-- To give a call up is to take its entry out and to post the notice, if there is an entry. -/
theorem Connection.giveUp_cases (c : Connection) (id : RequestId) :
    ∃ calls, (c.giveUp id).2 = { c with calls }
      ∨ (c.giveUp id).2 = ({ c with calls } : Connection).post (cancelMessage id) := by
  unfold giveUp
  cases c.calls.remove? id with
  | none => exact ⟨c.calls, .inl rfl⟩
  | some calls => exact ⟨calls, .inr rfl⟩

/-- An outcome that is there is taken, and else the call is cancelled. -/
theorem Connection.outcomeOrCancel?_true (c : Connection) (call : Call) :
    c.outcomeOrCancel? call true = match c.outcome? call with
      | some o => some (o, c)
      | none => some (.error .cancelled, (c.giveUp call.id).2) := by
  unfold outcomeOrCancel?
  cases c.outcome? call <;> rfl

/-- **What an act of a maker can be:** the point that it stands at and, where it depends on the
connection, what that says. -/
inductive Maker.Step (m : Maker) (c : Connection) : Maker.Act → Maker → Connection → Prop where
  /-- The parameters cannot be written. -/
  | rejects {method : String} (hpoint : m.point = .drawn method none) :
    Step m c .reject { m with point := .holding } (c.fail m.call .unwritable)
  /-- The table takes the call. -/
  | enters {method : String} {params : Json} {c' : Connection}
    (hpoint : m.point = .drawn method (some params)) (hentered : c.await? m.call = some c') :
    Step m c .enter { m with point := .entered method params } c'
  /-- The table refuses the call. -/
  | isRefused {method : String} {params : Json} (hpoint : m.point = .drawn method (some params))
    (hnone : c.await? m.call = none) :
    Step m c .enter { m with point := .holding } (c.fail m.call .connectionClosed)
  /-- The queue takes the request. -/
  | sends {method : String} {params : Json} {c' : Connection}
    (hpoint : m.point = .entered method params)
    (hsent : c.enqueue? (.request m.call.id method params) = some c') :
    Step m c .send { m with point := .holding } c'
  /-- The queue refuses the request. -/
  | isUnsent {method : String} {params : Json} (hpoint : m.point = .entered method params)
    (hnone : c.enqueue? (.request m.call.id method params) = none) :
    Step m c .send { m with point := .unsent } c
  /-- The call whose request was refused fails. -/
  | withdraws (hpoint : m.point = .unsent) :
    Step m c .withdraw { m with point := .holding }
      (c.failWaiting m.call.id .connectionClosed)
  /-- There is an outcome to wait for. -/
  | awaits {o : Except CallError Json} (hpoint : m.point = .holding)
    (houtcome : c.outcome? m.call = some o) : Step m c .await { m with point := .told o } c
  /-- There is an outcome already when the call is to be cancelled. -/
  | finds {o : Except CallError Json} (hpoint : m.point = .holding)
    (houtcome : c.outcome? m.call = some o) : Step m c .cancel { m with point := .told o } c
  /-- The call is cancelled. -/
  | cancels (hpoint : m.point = .holding) (hnone : c.outcome? m.call = none) :
    Step m c .cancel { m with point := .told (.error .cancelled) } (c.giveUp m.call.id).2
  /-- The call is given up. -/
  | quits (hpoint : m.point = .holding) :
    Step m c .giveUp { m with point := .quit } (c.giveUp m.call.id).2
  /-- The call is let go of after its outcome. -/
  | dropsTold {o : Except CallError Json} (hpoint : m.point = .told o) :
    Step m c .giveUp m (c.giveUp m.call.id).2
  /-- The call is let go of after it was given up. -/
  | dropsQuit (hpoint : m.point = .quit) : Step m c .giveUp m (c.giveUp m.call.id).2

/-- An act of a maker is one of these. The cases are those of `Maker.act?`. -/
theorem Maker.step_of_act? {m m' : Maker} {c c' : Connection} {a : Maker.Act}
    (hact : m.act? c a = some (m', c')) : Maker.Step m c a m' c' := by
  unfold Maker.act? at hact
  split at hact
  · case h_1 hpoint =>
    cases hact
    exact .rejects hpoint
  · case h_2 hpoint =>
    split at hact
    · case h_1 hentered =>
      cases hact
      exact .enters hpoint hentered
    · case h_2 hnone =>
      cases hact
      exact .isRefused hpoint hnone
  · case h_3 hpoint =>
    split at hact
    · case h_1 hsent =>
      cases hact
      exact .sends hpoint hsent
    · case h_2 hnone =>
      cases hact
      exact .isUnsent hpoint hnone
  · case h_4 hpoint =>
    cases hact
    exact .withdraws hpoint
  · case h_5 hpoint =>
    obtain ⟨o, houtcome, heq⟩ := Option.map_eq_some_iff.mp hact
    cases heq
    exact .awaits hpoint houtcome
  · case h_6 hpoint =>
    rw [Connection.outcomeOrCancel?_true] at hact
    cases houtcome : c.outcome? m.call with
    | some o =>
      simp only [houtcome, Option.map_some, Option.some.injEq] at hact
      cases hact
      exact .finds hpoint houtcome
    | none =>
      simp only [houtcome, Option.map_some, Option.some.injEq] at hact
      cases hact
      exact .cancels hpoint houtcome
  · case h_7 hpoint =>
    cases hact
    exact .quits hpoint
  · case h_8 o hpoint =>
    cases hact
    exact .dropsTold hpoint
  · case h_9 hpoint =>
    cases hact
    exact .dropsQuit hpoint
  · cases hact

/-- **A maker changes the calls, and may post a message,** which is a request or a cancellation
and no response. -/
theorem Maker.connection_act? {m m' : Maker} {c c' : Connection} {a : Maker.Act}
    (h : m.act? c a = some (m', c')) :
    ∃ calls, c' = { c with calls } ∨ ∃ message, (∀ r, message ≠ .response r)
      ∧ c' = ({ c with calls } : Connection).post message := by
  cases step_of_act? h with
  | rejects | isRefused => exact ⟨_, .inl rfl⟩
  | enters _ hentered =>
    obtain ⟨calls, -, rfl⟩ := Option.map_eq_some_iff.mp hentered
    exact ⟨calls, .inl rfl⟩
  | @sends method params _ _ hsent =>
    refine ⟨c.calls, .inr ⟨.request m.call.id method params, by simp, ?_⟩⟩
    simp only [Connection.post, hsent, Option.getD_some]
  | withdraws =>
    unfold Connection.failWaiting
    split
    · exact ⟨_, .inl rfl⟩
    · exact ⟨c.calls, .inl rfl⟩
  | isUnsent | awaits | finds => exact ⟨c.calls, .inl rfl⟩
  | cancels | quits | dropsTold | dropsQuit =>
    -- All of them come to giving the call up.
    obtain ⟨calls, heq | heq⟩ := c.giveUp_cases m.call.id
    · exact ⟨calls, .inl heq⟩
    · exact ⟨calls, .inr ⟨_, by simp [Connection.cancelMessage], heq⟩⟩

/-- No maker closes the connection. -/
theorem Maker.samePhase_act? {m m' : Maker} {c c' : Connection} {a : Maker.Act}
    (h : m.act? c a = some (m', c')) : c.SamePhase c' := by
  obtain ⟨calls, rfl | ⟨message, -, rfl⟩⟩ := connection_act? h
  · exact ⟨rfl, rfl⟩
  · have hpost := Connection.samePhase_post { c with calls } message
    exact ⟨hpost.phase, hpost.writerFailed⟩

namespace Traffic

variable {registry : Registry} {acts : List Act} {s s' : Traffic} {a : Act}

/-- Every act but those that stop the connection leaves it taking messages or not taking them. -/
theorem accepts_step (h : s.step? registry a = some s') :
    s'.connection.accepts = (s.connection.accepts && !a.stops) := by
  obtain ⟨t, ht, rfl⟩ := step?_eq_some h
  change t.connection.accepts = _
  -- Only the loop and the writer stop a connection, by the operations that `stops` names. In every
  -- other case it is enough that the phase stays.
  cases a with
  | draw method params =>
    obtain rfl := Option.some.inj ht
    simp [Act.stops, Connection.accepts]
  | maker k b =>
    obtain ⟨m, m', c, -, hact, rfl⟩ := perform?_maker ht
    simp [Act.stops, (Maker.samePhase_act? hact).accepts]
  | receive body =>
    rw [perform?_receive] at ht
    obtain rfl := Option.some.inj ht
    simp [Act.stops, (Connection.samePhase_dispatch registry s.connection body).accepts]
  | finish ticket outcome =>
    obtain ⟨id, -, rfl⟩ := perform?_finish ht
    simp [Act.stops, (Connection.samePhase_complete s.connection id ticket outcome).accepts]
  | closeCalls | closeRequests =>
    obtain rfl := Option.some.inj ht
    simp [Act.stops, Connection.closeCalls, Connection.closeRequests, Connection.accepts]
  | other op =>
    obtain ⟨c, hc, rfl⟩ := Option.map_eq_some_iff.mp ht
    cases op with
    | notify method params =>
      obtain rfl := Option.some.inj hc
      rw [Connection.notify_snd]
      cases params with
      | none => simp [Act.stops]
      | some params => simp [Act.stops, (Connection.samePhase_post s.connection _).accepts]
    | start =>
      simp only [Connection.op?, Connection.start?] at hc
      split at hc
      · case isTrue hphase =>
        -- It was idle and is serving, and takes messages in both.
        obtain rfl := Option.some.inj hc
        simp_all [Act.stops, Connection.accepts]
      · cases hc
    | take =>
      simp only [Connection.op?, Connection.take?] at hc
      split at hc
      · cases hc
      · obtain rfl := Option.some.inj hc
        simp [Act.stops, Connection.accepts]
    | stopWriter =>
      obtain rfl := Option.some.inj hc
      unfold Connection.stopWriter
      split <;> simp [Act.stops, Connection.accepts]
    | requestClose | beginClosing | finishClosing | failWriter =>
      obtain rfl := Option.some.inj hc
      simp [Act.stops, Connection.accepts, Connection.close, Connection.beginClosing,
        Connection.finishClosing, Connection.failWriter]

/-- **A connection takes messages until an act stops it,** and never again. -/
theorem accepts_iff (hrun : run? registry {} acts = some s) :
    s.connection.accepts = true ↔ ∀ a ∈ acts, a.stops = false := by
  refine run_induction (P := fun acts s =>
    s.connection.accepts = true ↔ ∀ a ∈ acts, a.stops = false) hrun ?_ ?_
  · simp [Connection.accepts]
  · intro acts t a t' _ ih hstep
    rw [accepts_step hstep, Bool.and_eq_true, ih]
    simp only [List.mem_append, List.mem_singleton, Bool.not_eq_true', or_imp, forall_and,
      forall_eq]

end Traffic

/-! ## What is posted -/

namespace Traffic

@[simp] theorem queuedSince_self (queue : List Command) : queuedSince queue queue = [] := by
  simp [queuedSince]

/-- What has been put at the end of a queue is new, but for the word to stop, which is no message.
-/
theorem queuedSince_append (queue more : List Command) :
    queuedSince queue (queue ++ more) = more.filterMap Command.message? := by
  simp [queuedSince]

/-- A message that is posted is new if the queue takes it. -/
@[simp] theorem queuedSince_post (c : Connection) (message : Message) :
    queuedSince c.queue (c.post message).queue = if c.accepts then [message] else [] := by
  rw [Connection.post_eq]
  split
  · exact queuedSince_append _ _
  · exact queuedSince_self _

/-- What is queued between two states of a connection, none of which is a response. -/
def NoResponse (c c' : Connection) : Prop :=
  ∀ r, .response r ∉ queuedSince c.queue c'.queue

theorem noResponse_of_eq {c c' : Connection} (h : c'.queue = c.queue) : NoResponse c c' := by
  simp [NoResponse, h]

/-- A message that is no response is none. -/
theorem noResponse_post (c : Connection) {message : Message} (h : ∀ r, message ≠ .response r) :
    NoResponse c (c.post message) := by
  intro r hr
  rw [queuedSince_post] at hr
  split at hr
  · exact h r (List.mem_singleton.mp hr).symm
  · cases hr

/-- Makers send requests and notices, and no responses. -/
theorem noResponse_act? {m m' : Maker} {c c' : Connection} {a : Maker.Act}
    (h : m.act? c a = some (m', c')) : NoResponse c c' := by
  obtain ⟨calls, rfl | ⟨message, hmessage, rfl⟩⟩ := Maker.connection_act? h
  · exact noResponse_of_eq rfl
  · exact noResponse_post { c with calls } hmessage

/-- Nor do the rest of the connection and its writer. -/
theorem noResponse_op? {c c' : Connection} {op : Connection.Op} (h : c.op? op = some c') :
    NoResponse c c' := by
  cases op with
  | notify method params =>
    obtain rfl := Option.some.inj h
    rw [Connection.notify_snd]
    cases params with
    | none => exact noResponse_of_eq rfl
    | some params => exact noResponse_post c (by simp)
  | start =>
    simp only [Connection.op?, Connection.start?] at h
    split at h
    · obtain rfl := Option.some.inj h
      exact noResponse_of_eq rfl
    · cases h
  | stopWriter =>
    obtain rfl := Option.some.inj h
    unfold Connection.stopWriter
    split
    · exact noResponse_of_eq rfl
    · intro r
      rw [queuedSince_append]
      simp [Command.message?]
  | take =>
    simp only [Connection.op?, Connection.take?] at h
    split at h
    · cases h
    · case h_2 command queue hqueue =>
      obtain rfl := Option.some.inj h
      -- The queue is shorter than it was, so nothing in it is new.
      have hdrop : queue.drop (queue.length + 1) = [] := List.drop_eq_nil_of_le (by omega)
      intro r
      simp [queuedSince, hqueue, hdrop]
  | failWriter =>
    obtain rfl := Option.some.inj h
    intro r
    simp [queuedSince, Connection.failWriter]
  | requestClose | beginClosing | finishClosing =>
    obtain rfl := Option.some.inj h
    exact noResponse_of_eq rfl

end Traffic

/-! ## Tables of ids

Calls and requests are both kept in a list of pairs, an id and a number, in which no id stands
twice.
-/

section Tables

variable {entries : List (RequestId × Nat)} {id : RequestId} {k : Nat}

/-- In a table in which no id stands twice, the number under an id is the one that is listed with
it. -/
theorem find?_snd_eq_some_iff (hnd : (entries.map (·.1)).Nodup) :
    (entries.find? fun entry => entry.1 == id).map (·.2) = some k ↔ (id, k) ∈ entries := by
  induction entries with
  | nil => simp
  | cons entry rest ih =>
    obtain ⟨i, j⟩ := entry
    rw [List.map_cons, List.nodup_cons] at hnd
    by_cases hi : i = id
    · -- The first entry under the id is the only one.
      subst hi
      have hout : (i, k) ∉ rest := fun h => hnd.1 (List.mem_map.mpr ⟨(i, k), h, rfl⟩)
      simp [hout, eq_comm]
    · have hne : ¬ id = i := fun h => hi h.symm
      simp [hi, hne, ih hnd.2]

/-- There is none under an id that is not listed. -/
theorem find?_snd_eq_none_iff :
    (entries.find? fun entry => entry.1 == id).map (·.2) = none ↔ ∀ k, (id, k) ∉ entries := by
  rw [Option.map_eq_none_iff, List.find?_eq_none]
  constructor
  · intro h k hk
    exact absurd (h _ hk) (by simp)
  · rintro h ⟨i, k⟩ hk
    have hne : i ≠ id := fun hi => h k (hi ▸ hk)
    simpa using hne

/-- No id is listed with two numbers. -/
theorem snd_eq_of_mem (hnd : (entries.map (·.1)).Nodup) {j : Nat} (hj : (id, j) ∈ entries)
    (hk : (id, k) ∈ entries) : j = k := by
  have hj' := (find?_snd_eq_some_iff hnd).mpr hj
  rw [(find?_snd_eq_some_iff hnd).mpr hk] at hj'
  exact (Option.some.inj hj').symm

end Tables

end FlagServer
