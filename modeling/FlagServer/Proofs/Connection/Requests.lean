import FlagServer.Proofs.Connection.Traffic
import Mathlib.Data.List.Nodup

/-!
# Every request is answered once

A request of the other side is refused at once or gets a handler, and the connection tells its
requests apart by their ids alone: the handler that ends says under which id it ran, and the entry
of that id is taken out. That the entry is its own and that no other handler runs under the id is
stated by none of the operations. It follows from an invariant of all of them, `Traffic.Tracked`:
until the requests are cancelled as a whole, **the table is the list of the handlers at work**, and
no id is in it twice.

From there on everything is counting. Each frame that is owed an answer is answered by the time its
handler has ended, and by nothing else (`Traffic.answers_add_running`).
-/

namespace FlagServer

/-! ## One entry of a table -/

section Tables

variable {entries : List (RequestId × Nat)} {id : RequestId} {k : Nat}

/-- An entry cuts a table in two, where neither its id nor its number occurs again. -/
theorem split_of_mem (hids : (entries.map (·.1)).Nodup) (hnums : (entries.map (·.2)).Nodup)
    (hmem : (id, k) ∈ entries) :
    ∃ front back, entries = front ++ (id, k) :: back
      ∧ ∀ entry ∈ front ++ back, entry.1 ≠ id ∧ entry.2 ≠ k := by
  obtain ⟨front, back, rfl⟩ := List.append_of_mem hmem
  refine ⟨front, back, rfl, fun entry hentry => ?_⟩
  have hperm : (front ++ (id, k) :: back).Perm ((id, k) :: (front ++ back)) := List.perm_middle
  have hids' := ((hperm.map (·.1)).nodup_iff.mp hids)
  have hnums' := ((hperm.map (·.2)).nodup_iff.mp hnums)
  rw [List.map_cons, List.nodup_cons] at hids' hnums'
  exact ⟨fun h => hids'.1 (List.mem_map.mpr ⟨entry, hentry, h⟩),
    fun h => hnums'.1 (List.mem_map.mpr ⟨entry, hentry, h⟩)⟩

/-- Of an entry in such a table, the id takes out the same as the number. -/
theorem filter_fst_eq_filter_snd (hids : (entries.map (·.1)).Nodup)
    (hnums : (entries.map (·.2)).Nodup) (hmem : (id, k) ∈ entries) :
    (entries.filter fun entry => !(entry.1 == id))
      = entries.filter fun entry => !(entry.2 == k) := by
  refine List.filter_congr fun entry hentry => ?_
  obtain ⟨front, back, rfl, hother⟩ := split_of_mem hids hnums hmem
  rcases eq_or_ne entry (id, k) with rfl | hne
  · simp
  · have hin : entry ∈ front ++ back := by simpa [hne] using hentry
    simp [hother entry hin]

/-- It is found by its number as well. -/
theorem find?_of_snd (hids : (entries.map (·.1)).Nodup) (hnums : (entries.map (·.2)).Nodup)
    (hmem : (id, k) ∈ entries) :
    (entries.find? fun entry => entry.2 == k) = some (id, k) := by
  obtain ⟨front, back, rfl, hother⟩ := split_of_mem hids hnums hmem
  have hfront : (front.find? fun entry => entry.2 == k) = none := by
    rw [List.find?_eq_none]
    intro entry hentry
    simp [(hother entry (List.mem_append_left _ hentry)).2]
  simp [hfront]

/-- It takes one entry out of those under its id, and none of the others. -/
theorem countP_filter_snd (hids : (entries.map (·.1)).Nodup) (hnums : (entries.map (·.2)).Nodup)
    (hmem : (id, k) ∈ entries) (other : RequestId) :
    (entries.filter fun entry => !(entry.2 == k)).countP (fun entry => entry.1 == other)
        + (if id = other then 1 else 0)
      = entries.countP fun entry => entry.1 == other := by
  obtain ⟨front, back, rfl, hother⟩ := split_of_mem hids hnums hmem
  have hrest : (front ++ (id, k) :: back).filter (fun entry => !(entry.2 == k))
      = front ++ back := by
    rw [List.filter_append, List.filter_cons_of_neg (by simp), ← List.filter_append,
      List.filter_eq_self]
    intro entry hentry
    simp [(hother entry hentry).2]
  rw [hrest, List.countP_append, List.countP_append, List.countP_cons]
  simp only [beq_iff_eq]
  omega

end Tables

/-! ## What is known of the requests -/

/-- A message is a response to the request with an id. -/
def Message.answers (id : RequestId) : Message → Bool
  | .response r => r.id == some id
  | _ => false

/-- A frame is owed a response under an id: it is a request, or it is no message and has an id
that can be read. -/
def Act.owes (id : RequestId) : Act → Bool
  | .receive body =>
    match Message.ofBody body with
    | .ok (.request i _ _) => i == id
    | .ok _ => false
    | .error malformed => malformed.id == some id
  | _ => false

/-- The id that a notification cancels, where it is a cancellation that can be decoded. -/
def Registry.cancelTarget? (registry : Registry) (method : String) (params : Json) :
    Option RequestId :=
  match registry.decodeNotification method params with
  | .error _ => none
  | .ok n =>
    match n.extract Catalogue.cancel with
    | .ok params => Connection.cancelledId? params
    | .error _ => none

/-- A frame cancels the request with an id. -/
def Act.cancels (registry : Registry) (id : RequestId) : Act → Bool
  | .receive body =>
    match Message.ofBody body with
    | .ok (.notification method params) => registry.cancelTarget? method params == some id
    | _ => false
  | _ => false

/-- The handler with a ticket ends. -/
def Act.finishes (ticket : Nat) : Act → Bool
  | .finish t _ => t == ticket
  | _ => false

/-- An act that concerns the requests of the other side. -/
def Act.concernsRequests : Act → Bool
  | .receive _ => true
  | .finish _ _ => true
  | .closeRequests => true
  | _ => false

/-- A request that has been decoded has the id that was written. -/
theorem Registry.id_of_decodeRequest {registry : Registry} {id : RequestId} {method : String}
    {params : Json} {r : IncomingRequest} (h : registry.decodeRequest id method params = .ok r) :
    r.id = id := by
  unfold decodeRequest at h
  cases hparams : registry.decodeParams method .request params with
  | error e => rw [hparams] at h; cases h
  | ok found => rw [hparams] at h; cases h; rfl

namespace InFlight

/-- A request is taken up if the table is open and its id is free, and under the next ticket. -/
theorem begin?_eq_some {t t' : InFlight} {id : RequestId} {ticket : Nat}
    (h : t.begin? id = some (ticket, t')) :
    t.closed = false ∧ t.find? id = none ∧ ticket = t.nextTicket
      ∧ t' = { t with
          entries := t.entries ++ [(id, t.nextTicket)]
          nextTicket := t.nextTicket + 1 } := by
  unfold begin? at h
  split at h
  · cases h
  · case isFalse hfree =>
    cases h
    simpa using hfree

theorem find?_eq_some_iff {t : InFlight} (hnd : (t.entries.map (·.1)).Nodup) {id : RequestId}
    {ticket : Nat} : t.find? id = some ticket ↔ (id, ticket) ∈ t.entries :=
  find?_snd_eq_some_iff hnd

/-- Nothing is found under an id without an entry. -/
theorem find?_eq_none_iff {t : InFlight} {id : RequestId} :
    t.find? id = none ↔ ∀ ticket, (id, ticket) ∉ t.entries :=
  find?_snd_eq_none_iff

end InFlight

namespace Connection

/-- What a notification does to the connection: it may cancel the request under an id. -/
theorem dispatchNotification_eq (registry : Registry) (c : Connection) (method : String)
    (params : Json) :
    (c.dispatchNotification registry method params).1
        = (match registry.cancelTarget? method params with
          | some id => { c with inFlight := c.inFlight.cancel id }
          | none => c)
      ∧ (c.dispatchNotification registry method params).2.started = [] := by
  unfold dispatchNotification dispatchCancel Registry.cancelTarget?
  cases registry.decodeNotification method params with
  | error e => exact ⟨rfl, rfl⟩
  | ok n =>
    -- Only a notification of this kind can cancel.
    cases hn : n.extract Catalogue.cancel with
    | error n' => simp [hn, Delivery.started]
    | ok d => cases hd : cancelledId? d <;> simp [hn, hd, Delivery.started]

/-- **A frame does one of three things to the requests:** nothing, or it cancels the one under an
id, or it is a request that is accepted and has a handler started. -/
theorem dispatch_cases (registry : Registry) (c : Connection) (body : List UInt8) :
    (c.dispatch registry body).1.inFlight = c.inFlight
        ∧ (c.dispatch registry body).2.started = []
        ∧ (∀ i, (Act.receive body).cancels registry i = false)
    ∨ (∃ id, (c.dispatch registry body).1.inFlight = c.inFlight.cancel id
        ∧ (c.dispatch registry body).2.started = []
        ∧ ∀ i, (Act.receive body).cancels registry i = true ↔ i = id)
    ∨ ∃ id ticket, c.inFlight.begin? id = some (ticket, (c.dispatch registry body).1.inFlight)
        ∧ (c.dispatch registry body).2.started = [(id, ticket)]
        ∧ ∀ i, (Act.receive body).cancels registry i = false := by
  rw [dispatch_eq]
  -- Whether the frame is a cancellation is read off the same message.
  have hcancels : ∀ i, (Act.receive body).cancels registry i
      = match Message.ofBody body with
        | .ok (.notification method params) => registry.cancelTarget? method params == some i
        | _ => false := fun _ => rfl
  simp only [hcancels]
  cases Message.ofBody body with
  | error malformed => exact .inl ⟨inFlight_reply c _ _, rfl, fun _ => rfl⟩
  | ok message =>
    cases message with
    | request id method params =>
      simp only [dispatchMessage, dispatchRequest]
      cases hdecode : registry.decodeRequest id method params with
      | error e => exact .inl ⟨inFlight_reply c _ _, rfl, fun _ => trivial⟩
      | ok r =>
        have hid : r.id = id := Registry.id_of_decodeRequest hdecode
        cases hbegin : c.inFlight.begin? id with
        | none => exact .inl ⟨inFlight_reply c _ _, rfl, fun _ => trivial⟩
        | some begun =>
          refine .inr (.inr ⟨id, begun.1, hbegin, ?_, fun _ => trivial⟩)
          rw [← hid]
          rfl
    | notification method params =>
      obtain ⟨hconnection, hstarted⟩ := c.dispatchNotification_eq registry method params
      simp only [dispatchMessage, hconnection, hstarted]
      cases registry.cancelTarget? method params with
      | none => exact .inl ⟨rfl, trivial, fun _ => rfl⟩
      | some id =>
        refine .inr (.inl ⟨id, rfl, trivial, fun i => ?_⟩)
        rw [beq_iff_eq, Option.some.injEq]
        exact eq_comm
    | response r =>
      simp only [dispatchMessage, dispatchResponse]
      split
      · exact .inl ⟨rfl, rfl, fun _ => trivial⟩
      · split <;> exact .inl ⟨rfl, rfl, fun _ => trivial⟩

/-- A notification or a response is not answered, and starts no handler of a request. -/
theorem dispatch_unanswered (registry : Registry) (c : Connection) {body : List UInt8}
    {message : Message} (hbody : Message.ofBody body = .ok message)
    (hmessage : ∀ id method params, message ≠ .request id method params) :
    (c.dispatch registry body).1.queue = c.queue
      ∧ (c.dispatch registry body).2.started = [] := by
  rw [dispatch_eq, hbody]
  cases message with
  | request id method params => exact absurd rfl (hmessage id method params)
  | notification method params =>
    obtain ⟨hconnection, hstarted⟩ := c.dispatchNotification_eq registry method params
    simp only [dispatchMessage, hconnection, hstarted]
    cases registry.cancelTarget? method params <;> exact ⟨rfl, trivial⟩
  | response r =>
    simp only [dispatchMessage, dispatchResponse]
    split
    · exact ⟨rfl, rfl⟩
    · split <;> exact ⟨rfl, rfl⟩

end Connection

namespace Traffic

/-- **The table is the list of the handlers at work.** Tickets are given out in order and once,
and a handler is at work from when it is started until it ends. -/
structure Tracked (acts : List Act) (s : Traffic) : Prop where
  /-- The handlers have been numbered from the beginning. -/
  tickets : s.started.map (·.2) = List.range s.connection.inFlight.nextTicket
  /-- Those are at work that have been started and have not ended. -/
  running : s.running = s.started.filter fun task => !acts.any (Act.finishes task.2)
  /-- Who has ended has been started. -/
  finished : ∀ t, acts.any (Act.finishes t) = true → t < s.connection.inFlight.nextTicket
  /-- No two handlers are at work under one id. -/
  distinct : (s.running.map (·.1)).Nodup
  /-- The table is closed by the act that cancels all requests. -/
  closed : s.connection.inFlight.closed = true ↔ .closeRequests ∈ acts
  /-- Until then it has the handlers at work, and from then on nothing. -/
  table : s.connection.inFlight.entries
    = if s.connection.inFlight.closed then [] else s.running
  /-- Only who has been started has been cancelled. -/
  cancelled : ∀ t ∈ s.connection.inFlight.cancelled, t < s.connection.inFlight.nextTicket

/-- The connection when a handler has been taken out of the table. -/
def without (s : Traffic) (ticket : Nat) : Connection :=
  { s.connection with
    inFlight := { s.connection.inFlight with
      entries := s.running.filter fun task => !(task.2 == ticket) } }

/-- What the request of a handler is answered with when the handler ends. -/
def answer (s : Traffic) (ticket : Nat) (outcome : Except ResponseError Json) :
    Except ResponseError Json :=
  if s.connection.inFlight.isCancelled ticket then .error .requestCancelled else outcome

theorem tracked_start : Tracked [] {} where
  tickets := rfl
  running := rfl
  finished t h := by cases h
  distinct := List.nodup_nil
  closed := by simp
  table := rfl
  cancelled t h := by cases h

variable {registry : Registry} {acts : List Act} {s s' : Traffic} {a : Act}

namespace Tracked

/-- Who is at work has been started and has not ended. -/
theorem mem_running (h : Tracked acts s) {task : RequestId × Nat} :
    task ∈ s.running ↔ task ∈ s.started ∧ acts.any (Act.finishes task.2) = false := by
  rw [h.running, List.mem_filter]
  simp

/-- No ticket is at work twice, for each is given out once. -/
theorem nodup_tickets (h : Tracked acts s) : (s.running.map (·.2)).Nodup := by
  have hall : (s.started.map (·.2)).Nodup := by
    rw [h.tickets]
    exact List.nodup_range
  -- Those at work are some of those that have been started.
  rw [h.running]
  exact (List.filter_sublist.map _).nodup hall

/-- The next ticket is the number of the handlers so far. -/
theorem length_started (h : Tracked acts s) :
    s.connection.inFlight.nextTicket = s.started.length := by
  rw [← List.length_map (·.2), h.tickets, List.length_range]

/-- A ticket that has been given out is less than the next. -/
theorem lt_of_started (h : Tracked acts s) {task : RequestId × Nat} (hmem : task ∈ s.started) :
    task.2 < s.connection.inFlight.nextTicket := by
  rw [← List.mem_range, ← h.tickets]
  exact List.mem_map_of_mem hmem

/-- Until all requests are cancelled, the table is open and has the handlers at work. -/
theorem table_eq (h : Tracked acts s) (hopen : .closeRequests ∉ acts) :
    s.connection.inFlight.closed = false ∧ s.connection.inFlight.entries = s.running := by
  have hclosed : s.connection.inFlight.closed = false := by
    simpa using fun hc => hopen (h.closed.mp hc)
  refine ⟨hclosed, ?_⟩
  rw [h.table, hclosed]
  rfl

/-- Whoever is in the table is at work, be the table closed or not. -/
theorem entries_subset (h : Tracked acts s) {task : RequestId × Nat}
    (hmem : task ∈ s.connection.inFlight.entries) : task ∈ s.running := by
  rw [h.table] at hmem
  -- A closed table has nothing.
  split at hmem
  · cases hmem
  · exact hmem

/-- No id is in the table twice. -/
theorem nodup_entries (h : Tracked acts s) :
    (s.connection.inFlight.entries.map (·.1)).Nodup := by
  rw [h.table]
  split
  · exact List.nodup_nil
  · exact h.distinct

/-! ### One act -/

/-- An act that starts and ends no handler. It may cancel some of those at work. -/
theorem frame (h : Tracked acts s) (hfin : ∀ t, a.finishes t = false)
    (hclose : a ≠ .closeRequests) {cancelled : List Nat}
    (hin : s'.connection.inFlight = { s.connection.inFlight with cancelled })
    (hcancelled : ∀ t ∈ cancelled, t < s.connection.inFlight.nextTicket)
    (hrunning : s'.running = s.running) (hstarted : s'.started = s.started) :
    Tracked (acts ++ [a]) s' where
  tickets := by rw [hstarted, hin]; exact h.tickets
  running := by
    rw [hrunning, hstarted, h.running]
    simp [hfin]
  finished t ht := by
    rw [hin]
    exact h.finished t (by simpa [hfin] using ht)
  distinct := by rw [hrunning]; exact h.distinct
  closed := by
    rw [hin, h.closed]
    simp [hclose.symm]
  table := by rw [hin, hrunning]; exact h.table
  cancelled := by rw [hin]; exact hcancelled

theorem keep (h : Tracked acts s) (hfin : ∀ t, a.finishes t = false) (hclose : a ≠ .closeRequests)
    (hin : s'.connection.inFlight = s.connection.inFlight) (hrunning : s'.running = s.running)
    (hstarted : s'.started = s.started) : Tracked (acts ++ [a]) s' :=
  h.frame hfin hclose hin h.cancelled hrunning hstarted

/-- **A request is accepted:** a handler starts under a ticket that nobody has had and an id that is
free. -/
theorem accept (h : Tracked acts s) (hfin : ∀ t, a.finishes t = false)
    (hclose : a ≠ .closeRequests) {id : RequestId} {ticket : Nat}
    (hbegin : s.connection.inFlight.begin? id = some (ticket, s'.connection.inFlight))
    (hrunning : s'.running = s.running ++ [(id, ticket)])
    (hstarted : s'.started = s.started ++ [(id, ticket)]) : Tracked (acts ++ [a]) s' := by
  obtain ⟨hopen, hfree, rfl, hin⟩ := InFlight.begin?_eq_some hbegin
  have htable : s.connection.inFlight.entries = s.running := by simp [h.table, hopen]
  -- Nobody has ended under a ticket that had not been given out.
  have hnew : acts.any (Act.finishes s.connection.inFlight.nextTicket) = false := by
    by_contra hne
    exact Nat.lt_irrefl _ (h.finished _ (by simpa using hne))
  refine ⟨?_, ?_, ?_, ?_, ?_, ?_, ?_⟩
  · rw [hstarted, hin, List.map_append, h.tickets, List.range_succ]
    rfl
  · rw [hrunning, hstarted, h.running]
    simp [hfin, hnew]
  · intro t ht
    have hlt := h.finished t (by simpa [hfin] using ht)
    rw [hin]
    exact Nat.lt_succ_of_lt hlt
  · rw [hrunning, List.map_append, List.nodup_append]
    refine ⟨h.distinct, by simp, ?_⟩
    -- The id was free in the table, which has the handlers at work.
    rintro i hi j hj rfl
    obtain ⟨task, htask, rfl⟩ := List.mem_map.mp hi
    obtain rfl : task.1 = id := by simpa using hj
    rw [← htable] at htask
    exact InFlight.find?_eq_none_iff.mp hfree task.2 htask
  · rw [hin, h.closed]
    simp [hclose.symm]
  · rw [hin, hrunning]
    simp [hopen, htable]
  · intro t ht
    rw [hin] at ht ⊢
    exact Nat.lt_succ_of_lt (h.cancelled t ht)

/-- **A request is cancelled.** Only the flag of the handler at work under the id is set, if there
is one; the handler itself goes on. -/
theorem cancel (h : Tracked acts s) (hfin : ∀ t, a.finishes t = false)
    (hclose : a ≠ .closeRequests) {id : RequestId}
    (hin : s'.connection.inFlight = s.connection.inFlight.cancel id)
    (hrunning : s'.running = s.running) (hstarted : s'.started = s.started) :
    Tracked (acts ++ [a]) s' := by
  cases hfind : s.connection.inFlight.find? id with
  | none =>
    refine h.keep hfin hclose ?_ hrunning hstarted
    simp only [hin, InFlight.cancel, hfind]
  | some ticket =>
    simp only [InFlight.cancel, hfind] at hin
    -- Who is found under the id is at work, so its ticket has been given out.
    have hmem := (InFlight.find?_eq_some_iff h.nodup_entries).mp hfind
    have hlt := h.lt_of_started (h.mem_running.mp (h.entries_subset hmem)).1
    refine h.frame hfin hclose hin (fun t ht => ?_) hrunning hstarted
    rcases List.mem_append.mp ht with ht | ht
    · exact h.cancelled t ht
    · rw [List.mem_singleton.mp ht]; exact hlt

/-- **A frame comes in,** and does one of three things. -/
theorem receive (h : Tracked acts s) {body : List UInt8}
    (hstep : s.perform? registry (.receive body) = some s') :
    Tracked (acts ++ [.receive body]) s' := by
  rw [perform?_receive] at hstep
  obtain rfl := Option.some.inj hstep
  have hfin : ∀ t, (Act.receive body).finishes t = false := fun _ => rfl
  rcases Connection.dispatch_cases registry s.connection body with
    ⟨hin, hstarted, -⟩ | ⟨id, hin, hstarted, -⟩ | ⟨id, ticket, hbegin, hstarted, -⟩
  · exact h.keep hfin (by simp) hin (by simp [hstarted]) (by simp [hstarted])
  · exact h.cancel hfin (by simp) hin (by simp [hstarted]) (by simp [hstarted])
  · exact h.accept hfin (by simp) hbegin (by rw [hstarted]) (by rw [hstarted])

/-- **A handler at work ends.** While the table is open its entry goes, which is the only one
under its id, and its request is answered. Afterwards nothing is done. -/
theorem complete_eq (h : Tracked acts s) {id : RequestId} {ticket : Nat}
    (hmem : (id, ticket) ∈ s.running) (outcome : Except ResponseError Json) :
    s.connection.complete id ticket outcome
      = if s.connection.inFlight.closed then s.connection
        else (s.without ticket).reply (some id) (s.answer ticket outcome) := by
  have htable := h.table
  unfold Connection.complete InFlight.finish?
  by_cases hclosed : s.connection.inFlight.closed = true
  · -- A closed table is empty.
    rw [if_pos hclosed] at htable ⊢
    have hnone : s.connection.inFlight.find? id = none :=
      InFlight.find?_eq_none_iff.mpr (by simp [htable])
    simp only [hnone, Option.map_none]
  · -- What is found under the id is the handler's own entry, and its ticket takes out the same.
    rw [if_neg hclosed] at htable ⊢
    have hfound : s.connection.inFlight.find? id = some ticket :=
      (InFlight.find?_eq_some_iff h.nodup_entries).mpr (by rwa [htable])
    simp only [hfound, Option.map_some, htable,
      filter_fst_eq_filter_snd h.distinct h.nodup_tickets hmem]
    rfl

/-- **A handler ends.** It is at work no more, and has no entry either way. -/
theorem finish (h : Tracked acts s) {ticket : Nat} {outcome : Except ResponseError Json}
    (hstep : s.perform? registry (.finish ticket outcome) = some s') :
    Tracked (acts ++ [.finish ticket outcome]) s' := by
  obtain ⟨id, hmem, rfl⟩ := perform?_finish hstep
  have hin : (s.connection.complete id ticket outcome).inFlight
      = { s.connection.inFlight with
          entries := if s.connection.inFlight.closed then []
            else s.running.filter fun task => !(task.2 == ticket) } := by
    have htable := h.table
    rw [h.complete_eq hmem]
    split
    · case isTrue hclosed =>
      rw [if_pos hclosed] at htable
      simp [← htable]
    · rw [Connection.inFlight_reply]
      rfl
  have hmore : ∀ t, (acts ++ [Act.finish ticket outcome]).any (Act.finishes t)
      = (acts.any (Act.finishes t) || ticket == t) := by
    intro t
    simp [Act.finishes]
  -- Of the handlers nothing changes but who is at work.
  refine ⟨?_, ?_, ?_, ?_, ?_, ?_, ?_⟩
  · rw [hin]; exact h.tickets
  · simp only [hmore]
    rw [h.running, List.filter_filter]
    refine List.filter_congr fun task _ => ?_
    rw [Bool.not_or, Bool.and_comm, Bool.beq_comm]
  · intro t ht
    rw [hin]
    rw [hmore, Bool.or_eq_true, beq_iff_eq] at ht
    rcases ht with ht | rfl
    · exact h.finished t ht
    · exact h.lt_of_started (h.mem_running.mp hmem).1
  · exact (List.filter_sublist.map _).nodup h.distinct
  · rw [hin]
    simp [h.closed]
  · rw [hin]
  · rw [hin]
    exact h.cancelled

/-- **All requests are cancelled at once.** The handlers go on, but the table forgets them. -/
theorem closeRequests (h : Tracked acts s) :
    Tracked (acts ++ [.closeRequests]) { s with connection := s.connection.closeRequests } where
  tickets := h.tickets
  running := by
    rw [h.running]
    simp [Act.finishes]
  finished t ht := h.finished t (by simpa [Act.finishes] using ht)
  distinct := h.distinct
  closed := by simp [Connection.closeRequests, InFlight.close]
  table := rfl
  cancelled t ht := by
    rcases List.mem_append.mp ht with ht | ht
    · exact h.cancelled t ht
    · -- The tickets that are new here are those that were in the table.
      obtain ⟨task, htask, rfl⟩ := List.mem_map.mp ht
      exact h.lt_of_started (h.mem_running.mp (h.entries_subset htask)).1

end Tracked

/-- No maker of a call concerns the requests of the other side. -/
theorem inFlight_act? {m m' : Maker} {c c' : Connection} {b : Maker.Act}
    (h : m.act? c b = some (m', c')) : c'.inFlight = c.inFlight := by
  obtain ⟨calls, rfl | ⟨message, -, rfl⟩⟩ := Maker.connection_act? h
  · rfl
  · exact Connection.inFlight_post { c with calls } message

/-- Nor does anybody but the loop and the handlers. -/
theorem same_of_not_concernsRequests (hstep : s.perform? registry a = some s')
    (ha : a.concernsRequests = false) :
    s'.connection.inFlight = s.connection.inFlight ∧ s'.running = s.running
      ∧ s'.started = s.started := by
  cases a with
  | receive body => cases ha
  | finish ticket outcome => cases ha
  | closeRequests => cases ha
  | draw method params =>
    obtain rfl := Option.some.inj hstep
    exact ⟨rfl, rfl, rfl⟩
  | closeCalls =>
    obtain rfl := Option.some.inj hstep
    exact ⟨rfl, rfl, rfl⟩
  | other op =>
    obtain ⟨c, hc, rfl⟩ := Option.map_eq_some_iff.mp hstep
    exact ⟨(Connection.op?_same hc).2, rfl, rfl⟩
  | maker k b =>
    obtain ⟨m, m', c, -, hact, rfl⟩ := perform?_maker hstep
    exact ⟨inFlight_act? hact, rfl, rfl⟩

/-- **Every act keeps track of the requests.** -/
theorem Tracked.step (h : Tracked acts s) (hstep : s.step? registry a = some s') :
    Tracked (acts ++ [a]) s' := by
  obtain ⟨t, ht, rfl⟩ := step?_eq_some hstep
  -- The record of what has been posted does not come into it.
  suffices htracked : Tracked (acts ++ [a]) t from
    ⟨htracked.tickets, htracked.running, htracked.finished, htracked.distinct, htracked.closed,
      htracked.table, htracked.cancelled⟩
  -- Three kinds of acts have a lemma each. For all others it is enough that nothing has changed.
  by_cases ha : a.concernsRequests = true
  · cases a with
    | receive body => exact h.receive ht
    | finish ticket outcome => exact h.finish ht
    | closeRequests =>
      obtain rfl := Option.some.inj ht
      exact h.closeRequests
    | _ => cases ha
  · obtain ⟨hin, hrunning, hstarted⟩ := same_of_not_concernsRequests ht (by simpa using ha)
    refine h.keep ?_ ?_ hin hrunning hstarted
    · intro t
      cases a with
      | finish => simp [Act.concernsRequests] at ha
      | _ => rfl
    · rintro rfl
      exact ha rfl

/-- **After every run the requests are tracked.** -/
theorem tracked_run (hrun : run? registry {} acts = some s) : Tracked acts s :=
  run_induction hrun tracked_start fun _ _ _ _ _ h hstep => h.step hstep

/-! ## What a step does to a request -/

/-- Why a request is refused while some handlers are at work, if it is: nobody knows its method,
its parameters have not the shape for it, or its id is taken. -/
def refusal? (registry : Registry) (running : List (RequestId × Nat)) (id : RequestId)
    (method : String) (params : Json) : Option ResponseError :=
  match registry.find? method with
  | none => some (.methodNotFound method)
  | some m =>
    if m.kind ≠ .request then some (.methodNotFound method)
    else if m.params.decode? params = none then
      some (.invalidParams method "the value does not have the expected shape")
    else if id ∈ running.map (·.1) then
      some (.invalidRequest ("request id " ++ id.display ++ " is already in flight"))
    else none

/-- What the queue takes of a message after some acts: the message, unless it has been stopped. -/
def taken (acts : List Act) (message : Message) : List Message :=
  if acts.any Act.stops then [] else [message]

/-- Whether somebody has stopped the queue is the same as whether it takes messages. -/
theorem taken_eq (hrun : run? registry {} acts = some s) (message : Message) :
    taken acts message = if s.connection.accepts then [message] else [] := by
  -- The queue takes messages until an act stops it.
  have haccepts := accepts_iff hrun
  unfold taken
  by_cases h : acts.any Act.stops = true
  · rw [if_pos h, if_neg]
    intro hacc
    obtain ⟨a, ha, hstops⟩ := List.any_eq_true.mp h
    rw [haccepts.mp hacc a ha] at hstops
    cases hstops
  · rw [if_neg h, if_pos]
    refine haccepts.mpr fun a ha => ?_
    simpa using fun hstops => h (List.any_eq_true.mpr ⟨a, ha, hstops⟩)

/-- A request fails to be decoded for the reason that `refusal?` gives, or it is refused at most for
its id. -/
theorem decodeRequest_cases (registry : Registry) (id : RequestId) (method : String)
    (params : Json) (running : List (RequestId × Nat)) :
    (∃ e, registry.decodeRequest id method params = .error e
      ∧ refusal? registry running id method params = some e)
    ∨ ∃ r, registry.decodeRequest id method params = .ok r
      ∧ refusal? registry running id method params
        = if id ∈ running.map (·.1) then
            some (.invalidRequest ("request id " ++ id.display ++ " is already in flight"))
          else none := by
  unfold refusal? Registry.decodeRequest Registry.decodeParams Registry.lookup
  cases registry.find? method with
  | none => exact .inl ⟨_, rfl, rfl⟩
  | some m =>
    by_cases hkind : m.kind = .request
    · cases hd : m.params.decode? params with
      | none =>
        exact .inl ⟨.invalidParams method "the value does not have the expected shape",
          by simp [hkind, hd, Except.map], by simp [hkind, hd]⟩
      | some d =>
        exact .inr ⟨⟨id, m.name, m.params.name, d⟩, by simp [hkind, hd, Except.map],
          by simp [hkind, hd]⟩
    · exact .inl ⟨.methodNotFound method, by simp [hkind, Except.map], by simp [hkind]⟩

/-- While the table is open, an id is free in it if no handler is at work under it. -/
theorem Tracked.find?_eq_none_iff (h : Tracked acts s) (hopen : .closeRequests ∉ acts)
    {id : RequestId} : s.connection.inFlight.find? id = none ↔ id ∉ s.running.map (·.1) := by
  rw [InFlight.find?_eq_none_iff, (h.table_eq hopen).2]
  simp

/-- **A request that is refused** is answered with the reason, and nothing else happens. -/
theorem step?_refused (hrun : run? registry {} acts = some s) (hopen : .closeRequests ∉ acts)
    {body : List UInt8} {id : RequestId} {method : String} {params : Json}
    (hbody : Message.ofBody body = .ok (.request id method params)) {e : ResponseError}
    (hrefused : refusal? registry s.running id method params = some e) :
    s.step? registry (.receive body) = some { s with
      connection := s.connection.reply (some id) (.error e)
      posted := s.posted ++ taken acts (.response ⟨some id, .error e⟩) } := by
  have h := tracked_run hrun
  have hdispatch : s.connection.dispatch registry body
      = (s.connection.reply (some id) (.error e), .nothing) := by
    rw [Connection.dispatch_eq, hbody]
    simp only [Connection.dispatchMessage, Connection.dispatchRequest]
    rcases decodeRequest_cases registry id method params s.running with
      ⟨e', hdecode, hrefusal⟩ | ⟨r, hdecode, hrefusal⟩
    · -- Its method or its parameters stand in the way.
      rw [hdecode]
      obtain rfl : e' = e := Option.some.inj (hrefusal.symm.trans hrefused)
      rfl
    · rw [hrefused] at hrefusal
      split at hrefusal
      · case isTrue htaken =>
        -- Its id is taken by a handler at work, and so in the table.
        have hfound : (s.connection.inFlight.find? id).isSome = true := by
          rw [Option.isSome_iff_ne_none]
          exact fun hnone => (h.find?_eq_none_iff hopen).mp hnone htaken
        rw [hdecode, Option.some.inj hrefusal]
        simp only [InFlight.begin?, hfound, Bool.or_true, if_true]
      · cases hrefusal
  simp only [step?, perform?, hdispatch, Option.map_some, Delivery.started, List.append_nil,
    Connection.reply, queuedSince_post, taken_eq hrun]

/-- **A request that is not refused** has one handler started, under a ticket that nobody has had,
and nothing else happens. -/
theorem step?_accepted (hrun : run? registry {} acts = some s) (hopen : .closeRequests ∉ acts)
    {body : List UInt8} {id : RequestId} {method : String} {params : Json}
    (hbody : Message.ofBody body = .ok (.request id method params))
    (hfree : refusal? registry s.running id method params = none) :
    s.step? registry (.receive body) = some { s with
      connection := { s.connection with
        inFlight := { s.connection.inFlight with
          entries := s.running ++ [(id, s.started.length)]
          nextTicket := s.started.length + 1 } }
      running := s.running ++ [(id, s.started.length)]
      started := s.started ++ [(id, s.started.length)] } := by
  have h := tracked_run hrun
  have hnext := h.length_started
  obtain ⟨hclosed, htable⟩ := h.table_eq hopen
  have hdispatch : ∃ r : IncomingRequest, r.id = id ∧ s.connection.dispatch registry body
      = ({ s.connection with
          inFlight := { s.connection.inFlight with
            entries := s.running ++ [(id, s.started.length)]
            nextTicket := s.started.length + 1 } }, .request s.started.length r) := by
    rw [Connection.dispatch_eq, hbody]
    simp only [Connection.dispatchMessage, Connection.dispatchRequest]
    -- The id is free, so decoding has nothing to object to, and the table takes the request.
    rcases decodeRequest_cases registry id method params s.running with
      ⟨e, hdecode, hrefusal⟩ | ⟨r, hdecode, hrefusal⟩
    · rw [hfree] at hrefusal; cases hrefusal
    · rw [hfree] at hrefusal
      split at hrefusal
      · cases hrefusal
      · case isFalse hout =>
        refine ⟨r, Registry.id_of_decodeRequest hdecode, ?_⟩
        have hnone := (h.find?_eq_none_iff hopen).mpr hout
        rw [hdecode]
        simp [InFlight.begin?, hclosed, hnone, hnext, htable]
  obtain ⟨r, rfl, hdispatch⟩ := hdispatch
  simp only [step?, perform?, hdispatch, Option.map_some, Delivery.started, queuedSince_self,
    List.append_nil]

/-- **A handler that ends** has its request answered, with its own id, and its entry goes. Nothing
else happens. -/
theorem step?_finish (hrun : run? registry {} acts = some s) (hopen : .closeRequests ∉ acts)
    {id : RequestId} {ticket : Nat} (hmem : (id, ticket) ∈ s.running)
    (outcome : Except ResponseError Json) :
    s.step? registry (.finish ticket outcome) = some { s with
      connection := (s.without ticket).reply (some id) (s.answer ticket outcome)
      running := s.running.filter fun task => !(task.2 == ticket)
      posted := s.posted ++ taken acts (.response ⟨some id, s.answer ticket outcome⟩) } := by
  have h := tracked_run hrun
  have hfind := find?_of_snd h.distinct h.nodup_tickets hmem
  have hcomplete := h.complete_eq hmem outcome
  rw [(h.table_eq hopen).1, if_neg Bool.false_ne_true] at hcomplete
  have hqueued : queuedSince s.connection.queue
        ((s.without ticket).reply (some id) (s.answer ticket outcome)).queue
      = if s.connection.accepts then [.response ⟨some id, s.answer ticket outcome⟩] else [] :=
    queuedSince_post (s.without ticket) _
  simp only [step?, perform?, hfind, hcomplete, Option.map_some, hqueued, taken_eq hrun]

/-! ## Counting -/

/-- How many responses under an id have been posted or will come from handlers at work. -/
def promised (s : Traffic) (id : RequestId) : Nat :=
  s.posted.countP (Message.answers id) + s.running.countP fun task => task.1 == id

/-- An act that neither answers nor starts anything promises nothing. -/
theorem promised_of_noResponse {t : Traffic} (ht : s.perform? registry a = some t)
    (hstep : s.step? registry a = some s') (hno : NoResponse s.connection t.connection)
    (hrunning : t.running = s.running) (id : RequestId) : s'.promised id = s.promised id := by
  have hs' : s' = { t with
      posted := s.posted ++ queuedSince s.connection.queue t.connection.queue } := by
    simp only [step?, ht, Option.map_some, Option.some.injEq] at hstep
    exact hstep.symm
  have hzero : (queuedSince s.connection.queue t.connection.queue).countP (Message.answers id)
      = 0 := by
    rw [List.countP_eq_zero]
    intro message hmem
    cases message with
    | response r => exact absurd hmem (hno r)
    | request | notification => simp [Message.answers]
  rw [hs', promised, promised, hrunning, List.countP_append, hzero, Nat.add_zero]

/-- A frame that arrives promises what it is owed. -/
theorem promised_receive (hrun : run? registry {} acts = some s) (hopen : .closeRequests ∉ acts)
    (hgoing : acts.any Act.stops = false) {body : List UInt8}
    (hstep : s.step? registry (.receive body) = some s') (id : RequestId) :
    s'.promised id = s.promised id + if (Act.receive body).owes id then 1 else 0 := by
  have htaken : ∀ message, taken acts message = [message] := by simp [taken, hgoing]
  cases hbody : Message.ofBody body with
  | error malformed =>
    -- What is no message is answered at once, under the id that could be read.
    have hs' : s' = { s with
        connection := s.connection.reply malformed.id (.error malformed.error)
        posted := s.posted ++ [.response ⟨malformed.id, .error malformed.error⟩] } := by
      rw [← htaken, taken_eq hrun, ← queuedSince_post]
      simp only [step?, perform?, Connection.dispatch_eq, hbody, Option.map_some, Delivery.started,
        List.append_nil, Option.some.injEq] at hstep
      exact hstep.symm
    rw [hs', promised, promised]
    simp only [Act.owes, hbody, List.countP_append, List.countP_singleton, Message.answers,
      beq_iff_eq]
    omega
  | ok message =>
    by_cases hrequest : ∃ i method params, message = .request i method params
    · obtain ⟨i, method, params, rfl⟩ := hrequest
      cases hrefusal : refusal? registry s.running i method params with
      | some e =>
        -- The response is posted at once.
        rw [step?_refused hrun hopen hbody hrefusal, Option.some.injEq] at hstep
        rw [← hstep, promised, promised, htaken]
        simp only [Act.owes, hbody, List.countP_append, List.countP_singleton, Message.answers,
          beq_iff_eq, Option.some.injEq]
        omega
      | none =>
        -- The response will come from the handler.
        rw [step?_accepted hrun hopen hbody hrefusal, Option.some.injEq] at hstep
        rw [← hstep, promised, promised]
        simp only [Act.owes, hbody, List.countP_append, List.countP_singleton]
        omega
    · -- A notification or a response is owed nothing, and promises nothing.
      have hmessage : ∀ i method params, message ≠ .request i method params :=
        fun i method params heq => hrequest ⟨i, method, params, heq⟩
      obtain ⟨hqueue, hstarted⟩ :=
        Connection.dispatch_unanswered registry s.connection hbody hmessage
      have howes : (Act.receive body).owes id = false := by
        simp only [Act.owes, hbody]
      rw [howes, promised_of_noResponse (perform?_receive s body) hstep (noResponse_of_eq hqueue)
        (by simp [hstarted])]
      rfl

/-- A handler that ends keeps its promise. -/
theorem promised_finish (hrun : run? registry {} acts = some s) (hopen : .closeRequests ∉ acts)
    (hgoing : acts.any Act.stops = false) {ticket : Nat} {outcome : Except ResponseError Json}
    (hstep : s.step? registry (.finish ticket outcome) = some s') (id : RequestId) :
    s'.promised id = s.promised id := by
  have h := tracked_run hrun
  obtain ⟨t, ht, -⟩ := step?_eq_some hstep
  obtain ⟨i, hmem, -⟩ := perform?_finish ht
  -- One handler under its id less, and one response more.
  have hcount := countP_filter_snd h.distinct h.nodup_tickets hmem id
  rw [step?_finish hrun hopen hmem, Option.some.injEq] at hstep
  rw [← hstep, promised, promised, ← hcount]
  simp only [taken, hgoing, List.countP_append, List.countP_singleton, Message.answers,
    beq_iff_eq, Option.some.injEq, Bool.false_eq_true, if_false]
  omega

/-- **One act promises what its frame is owed,** and keeps promises. -/
theorem promised_step (hrun : run? registry {} acts = some s) (hopen : .closeRequests ∉ acts)
    (hgoing : acts.any Act.stops = false) (hstep : s.step? registry a = some s')
    (id : RequestId) : s'.promised id = s.promised id + if a.owes id then 1 else 0 := by
  obtain ⟨t, ht, -⟩ := step?_eq_some hstep
  cases a with
  | receive body => exact promised_receive hrun hopen hgoing hstep id
  | finish ticket outcome => exact promised_finish hrun hopen hgoing hstep id
  | draw method params =>
    refine promised_of_noResponse ht hstep (noResponse_of_eq ?_) ?_ id
    all_goals
      obtain rfl := Option.some.inj ht
      rfl
  | closeCalls | closeRequests =>
    refine promised_of_noResponse ht hstep (noResponse_of_eq ?_) ?_ id
    all_goals
      obtain rfl := Option.some.inj ht
      rfl
  | other op =>
    obtain ⟨c, hc, rfl⟩ := Option.map_eq_some_iff.mp ht
    exact promised_of_noResponse ht hstep (noResponse_op? hc) rfl id
  | maker k b =>
    obtain ⟨m, m', c, -, hact, rfl⟩ := perform?_maker ht
    exact promised_of_noResponse ht hstep (noResponse_act? hact) rfl id

/-- **What is owed is answered or at work.** Under every id, the responses that have been posted
and the handlers that are at work are together as many as the frames that were owed a response. -/
theorem promised_eq (hrun : run? registry {} acts = some s) (hopen : .closeRequests ∉ acts)
    (hgoing : acts.any Act.stops = false) (id : RequestId) :
    s.promised id = acts.countP (Act.owes id) := by
  refine run_induction (P := fun acts s => .closeRequests ∉ acts → acts.any Act.stops = false →
    s.promised id = acts.countP (Act.owes id)) hrun (fun _ _ => rfl) ?_ hopen hgoing
  intro acts t a t' hrun ih hstep hopen hgoing
  rw [List.mem_append, not_or] at hopen
  rw [List.any_append, Bool.or_eq_false_iff] at hgoing
  rw [promised_step hrun hopen.1 hgoing.1 hstep, ih hopen.1 hgoing.1, List.countP_append,
    List.countP_singleton]

/-- A handler ends at most once. -/
theorem countP_finishes_le (hrun : run? registry {} acts = some s) (ticket : Nat) :
    acts.countP (Act.finishes ticket) ≤ 1 := by
  refine run_induction (P := fun acts _ => acts.countP (Act.finishes ticket) ≤ 1) hrun
    (by simp) ?_
  intro acts t a t' hrun ih hstep
  rw [List.countP_append, List.countP_singleton]
  split
  · case isTrue hfin =>
    -- Who ends is at work, and so has not ended before.
    have hzero : acts.countP (Act.finishes ticket) = 0 := by
      cases a with
      | finish k outcome =>
        obtain rfl : k = ticket := by simpa [Act.finishes] using hfin
        obtain ⟨u, hu, -⟩ := step?_eq_some hstep
        obtain ⟨id, hmem, -⟩ := perform?_finish hu
        have hnot := ((tracked_run hrun).mem_running.mp hmem).2
        rw [List.countP_eq_zero]
        exact fun b hb hb' => by simp_all
      | _ => cases hfin
    omega
  · exact ih

/-- **A handler that ends too late** has nothing posted: all requests have been cancelled, or the
connection has stopped taking messages. -/
theorem posted_finish_late (hrun : run? registry {} acts = some s)
    (hlate : .closeRequests ∈ acts ∨ acts.any Act.stops = true) {ticket : Nat}
    {outcome : Except ResponseError Json}
    (hstep : s.step? registry (.finish ticket outcome) = some s') : s'.posted = s.posted := by
  have h := tracked_run hrun
  obtain ⟨t, ht, rfl⟩ := step?_eq_some hstep
  obtain ⟨id, hmem, rfl⟩ := perform?_finish ht
  -- Either the handler finds no entry, or the queue takes nothing of its response.
  by_cases hclosed : .closeRequests ∈ acts
  · simp only [h.complete_eq hmem, h.closed.mpr hclosed, if_true, queuedSince_self,
      List.append_nil]
  · have hstopped := hlate.resolve_left hclosed
    rw [step?_finish hrun hclosed hmem, Option.some.injEq] at hstep
    rw [← hstep]
    simp only [taken, hstopped, if_true, List.append_nil]

/-! ## What becomes of the requests -/

/-- **What a run makes of the requests of the other side.** -/
structure Served (registry : Registry) (acts : List Act) (s : Traffic) : Prop where
  /-- Every handler has been started under a ticket of its own. -/
  tickets : s.started.map (·.2) = List.range s.started.length
  /-- The handlers at work are those that have been started and have not ended. -/
  running : s.running = s.started.filter fun task => !acts.any (Act.finishes task.2)
  /-- A handler ends once. -/
  ends : ∀ ticket, acts.countP (Act.finishes ticket) ≤ 1
  /-- Under one id there is one handler at work. -/
  distinct : (s.running.map (·.1)).Nodup
  /-- Until all requests are cancelled, the table has the handlers at work. -/
  table : .closeRequests ∉ acts → s.connection.inFlight.entries = s.running
  /-- A request that is refused is answered at once with one error, and nothing is started. -/
  refused : .closeRequests ∉ acts → ∀ body id method params e,
    Message.ofBody body = .ok (.request id method params) →
    refusal? registry s.running id method params = some e →
    s.step? registry (.receive body) = some { s with
      connection := s.connection.reply (some id) (.error e)
      posted := s.posted ++ taken acts (.response ⟨some id, .error e⟩) }
  /-- Any other request has one handler started, and nothing is answered. -/
  accepted : .closeRequests ∉ acts → ∀ body id method params,
    Message.ofBody body = .ok (.request id method params) →
    refusal? registry s.running id method params = none →
    s.step? registry (.receive body) = some { s with
      connection := { s.connection with
        inFlight := { s.connection.inFlight with
          entries := s.running ++ [(id, s.started.length)]
          nextTicket := s.started.length + 1 } }
      running := s.running ++ [(id, s.started.length)]
      started := s.started ++ [(id, s.started.length)] }
  /-- When a handler ends, its request is answered once, with its own id. -/
  answered : .closeRequests ∉ acts → ∀ id ticket outcome, (id, ticket) ∈ s.running →
    s.step? registry (.finish ticket outcome) = some { s with
      connection := (s.without ticket).reply (some id) (s.answer ticket outcome)
      running := s.running.filter fun task => !(task.2 == ticket)
      posted := s.posted ++ taken acts (.response ⟨some id, s.answer ticket outcome⟩) }
  /-- Under every id there are as many responses and handlers at work as frames that were owed a
  response. -/
  balance : .closeRequests ∉ acts → acts.any Act.stops = false → ∀ id,
    s.posted.countP (Message.answers id) + s.running.countP (fun task => task.1 == id)
      = acts.countP (Act.owes id)
  /-- A handler that ends when the connection has been closed has nothing posted. -/
  late : (.closeRequests ∈ acts ∨ acts.any Act.stops = true) → ∀ ticket outcome s',
    s.step? registry (.finish ticket outcome) = some s' → s'.posted = s.posted

/-- **Every request is answered once.** After every run, in whatever order its acts have come,
a request is refused at once with one error or has one handler started; until the requests are
cancelled as a whole, the table has the handlers at work and no id twice; every handler that ends
has its request answered once, with its own id, however often the id has been used; and one that
ends later has nothing answered. -/
theorem requests_answered_once (hrun : run? registry {} acts = some s) :
    Served registry acts s := by
  have h := tracked_run hrun
  refine
    { tickets := ?_
      running := h.running
      ends := countP_finishes_le hrun
      distinct := h.distinct
      table := fun hopen => (h.table_eq hopen).2
      refused := fun hopen _ _ _ _ _ hbody he => step?_refused hrun hopen hbody he
      accepted := fun hopen _ _ _ _ hbody hfree => step?_accepted hrun hopen hbody hfree
      answered := fun hopen _ _ outcome hmem => step?_finish hrun hopen hmem outcome
      balance := fun hopen hgoing id => promised_eq hrun hopen hgoing id
      late := fun hlate _ _ _ hstep => posted_finish_late hrun hlate hstep }
  rw [h.tickets, ← h.length_started]

/-- A request that anything may come with. -/
def echo : Registry :=
  ⟨[⟨"echo", .request, ⟨"Any", .any⟩, none⟩]⟩

/-- The id 1 is used, used again too early and, after an answer, once more; the text of that
number is another id, and its handler ends when the connection has been closed. -/
def reusedId : List Act :=
  let first := Text.Utf8.encodeString "\x7b\"id\":1,\"method\":\"echo\"\x7d"
  let other := Text.Utf8.encodeString "\x7b\"id\":\"1\",\"method\":\"echo\"\x7d"
  [.receive first, .receive first, .receive other, .finish 0 (.ok .null), .receive first,
    .finish 2 (.ok .null), .other .beginClosing, .closeRequests, .finish 1 (.ok .null)]

theorem requests_answered_once_reusedId :
    ∃ s, run? echo {} reusedId = some s ∧ s.posted.length = 3 ∧ s.started.length = 3
      ∧ Served echo reusedId s := by
  have hlengths : (run? echo {} reusedId).map (fun s => (s.posted.length, s.started.length))
      = some (3, 3) := by decide +kernel
  obtain ⟨s, hrun, heq⟩ := Option.map_eq_some_iff.mp hlengths
  rw [Prod.mk.injEq] at heq
  exact ⟨s, hrun, heq.1, heq.2, requests_answered_once hrun⟩

end Traffic

end FlagServer
