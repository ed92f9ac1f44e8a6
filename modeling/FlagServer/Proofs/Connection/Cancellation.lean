import FlagServer.Proofs.Connection.Requests

/-!
# Cancellations reach the present owner of an id

A cancellation names a request by its id, and ids are used again. It must reach the handler that
runs under the id when it arrives, and nobody who has run or will run under the same id. What it
leaves behind is a ticket, which is nobody else's.

`Traffic.isCancelled_run` is the whole story of one handler: as long as it is at work, it has been
cancelled exactly if **a cancellation of its id has arrived since it was started.**
-/

namespace FlagServer

/-! ## Whom a cancellation names -/

/-- The id that the parameters of a cancellation name: they are an object with it, or an array of
nothing else. -/
def Json.cancelledId? : Json → Option RequestId
  | .obj members => (Json.lookup "id" members).bind RequestId.ofJson?
  | .arr [v] => RequestId.ofJson? v
  | _ => none

/-- An id is read from a cancellation as it is read from a request: a number as a number, and a
text as a text. -/
theorem decode?_numberOrText (v : Json) :
    (Schema.numberOrText.decode? v).bind (fun d => Connection.cancelledId? (.record [("id", d)]))
      = RequestId.ofJson? v := by
  simp only [Schema.numberOrText, Schema.int32, Schema.decode?, Schema.decodeFirst?]
  cases v with
  | num n =>
    cases n with
    | real d => rfl
    | int n =>
      simp only [RequestId.ofJson?]
      -- The bounds of the schema are those of an id.
      by_cases h : RequestId.minNumber ≤ n ∧ n ≤ RequestId.maxNumber
      · rw [if_pos h, if_pos (show -2147483648 ≤ n ∧ n ≤ 2147483647 from h)]
        rfl
      · rw [if_neg h, if_neg (show ¬ (-2147483648 ≤ n ∧ n ≤ 2147483647) from h)]
        rfl
  | _ => rfl

/-- Parameters that can be decoded as those of a cancellation name an id. -/
theorem decode?_cancel (params : Json) :
    (Catalogue.cancel.params.decode? params).bind Connection.cancelledId?
      = params.cancelledId? := by
  simp only [Catalogue.cancel, Catalogue.notification, PayloadType.decode?, Shapes.cancel,
    Schema.fields]
  cases params with
  | obj members =>
    simp only [Schema.decode?, Schema.decodeFields?, Schema.decodeOthers?, Json.cancelledId?]
    cases Json.lookup "id" members with
    | none => rfl
    | some v =>
      simp only [Option.bind_some, ← decode?_numberOrText v, Schema.decodeField?]
      cases Schema.numberOrText.decode? v <;> rfl
  | arr vs =>
    simp only [Schema.decode?, if_true]
    match vs with
    | [] => rfl
    | [v] =>
      simp only [Json.cancelledId?, ← decode?_numberOrText v, Schema.decodePlaces?,
        Schema.decodeField?]
      cases Schema.numberOrText.decode? v <;> rfl
    | v :: w :: rest =>
      simp only [Json.cancelledId?, Schema.decodePlaces?, Schema.decodeField?]
      cases Schema.numberOrText.decode? v <;> rfl
  | _ => rfl

/-- **A frame cancels the id that its parameters name,** where the registry knows cancellations
for what they are. -/
theorem cancelTarget?_eq {registry : Registry}
    (hbound : registry.find? Catalogue.cancel.name = some Catalogue.cancel) (method : String)
    (params : Json) :
    registry.cancelTarget? method params
      = if method = Catalogue.cancel.name then params.cancelledId? else none := by
  unfold Registry.cancelTarget? Registry.decodeNotification Registry.decodeParams Registry.lookup
  by_cases hmethod : method = Catalogue.cancel.name
  · subst hmethod
    rw [if_pos rfl, ← decode?_cancel params, hbound]
    have hkind : Catalogue.cancel.kind = .notification := rfl
    simp only [hkind, beq_self_eq_true, if_true]
    cases Catalogue.cancel.params.decode? params with
    | none => rfl
    | some d => simp [Except.map, IncomingNotification.extract, IncomingNotification.is]
  · rw [if_neg hmethod]
    cases hfind : registry.find? method with
    | none => rfl
    | some m =>
      -- A method of another name does not pass for a cancellation.
      have hname : m.name = method := by simpa using List.find?_some hfind
      have hne : (m.name == Catalogue.cancel.name) = false := by simpa [hname] using hmethod
      by_cases hkind : m.kind = .notification
      · simp only [hkind, beq_self_eq_true, if_true]
        cases m.params.decode? params with
        | none => rfl
        | some d => simp [Except.map, IncomingNotification.extract, IncomingNotification.is, hne]
      · simp [hkind, Except.map]

/-- So it is under the catalogue of the program. -/
theorem cancelTarget?_catalogue (method : String) (params : Json) :
    Catalogue.registry.cancelTarget? method params
      = if method = Catalogue.cancel.name then params.cancelledId? else none :=
  cancelTarget?_eq rfl method params

namespace Traffic

variable {registry : Registry} {acts : List Act} {s s' : Traffic} {a : Act}

/-! ## One handler -/

/-- **A cancellation reaches who is at work under its id,** and nobody else. -/
theorem isCancelled_cancel (h : Tracked acts s) (hopen : .closeRequests ∉ acts) {id : RequestId}
    {ticket : Nat} (hmem : (id, ticket) ∈ s.running) (i : RequestId) :
    (s.connection.inFlight.cancel i).isCancelled ticket = true
      ↔ s.connection.inFlight.isCancelled ticket = true ∨ id = i := by
  have htable := (h.table_eq hopen).2
  cases hfind : s.connection.inFlight.find? i with
  | none =>
    -- Nobody is at work under the id, so this handler is not.
    have hne : id ≠ i := by
      rintro rfl
      exact (h.find?_eq_none_iff hopen).mp hfind (List.mem_map.mpr ⟨_, hmem, rfl⟩)
    simp [InFlight.cancel, hfind, hne]
  | some owner =>
    have howner : (i, owner) ∈ s.running := by
      rw [← htable]
      exact (InFlight.find?_eq_some_iff h.nodup_entries).mp hfind
    -- The ticket is the owner's if and only if the id is.
    have hsame : ticket = owner ↔ id = i := by
      obtain ⟨front, back, hsplit, hother⟩ := split_of_mem h.distinct h.nodup_tickets hmem
      rw [hsplit] at howner
      by_cases heq : (i, owner) = (id, ticket)
      · rw [Prod.mk.injEq] at heq
        simp [heq.1, heq.2]
      · have hin : (i, owner) ∈ front ++ back := by simpa [heq] using howner
        have hne := hother _ hin
        simp [hne.1.symm, hne.2.symm]
    simp [InFlight.cancel, hfind, InFlight.isCancelled, hsame]

/-- **One act.** A handler at work is cancelled by an act that cancels its id, and by no other. -/
theorem isCancelled_step (hrun : run? registry {} acts = some s)
    (hopen : .closeRequests ∉ acts ++ [a]) {id : RequestId} {ticket : Nat}
    (hmem : (id, ticket) ∈ s.running) (hstep : s.step? registry a = some s') :
    s'.connection.inFlight.isCancelled ticket = true
      ↔ s.connection.inFlight.isCancelled ticket = true ∨ a.cancels registry id = true := by
  have h := tracked_run hrun
  rw [List.mem_append, List.mem_singleton, not_or] at hopen
  obtain ⟨t, ht, rfl⟩ := step?_eq_some hstep
  change t.connection.inFlight.isCancelled ticket = true ↔ _
  -- Only what concerns requests can cancel one: a notification does, and the other two keep it.
  by_cases ha : a.concernsRequests = true
  · cases a with
    | receive body =>
      rw [perform?_receive] at ht
      obtain rfl := Option.some.inj ht
      rcases Connection.dispatch_cases registry s.connection body with
        ⟨hin, -, hcancels⟩ | ⟨i, hin, -, hcancels⟩ | ⟨i, new, hbegin, -, hcancels⟩
      · simp [hin, hcancels]
      · rw [hin, isCancelled_cancel h hopen.1 hmem, hcancels]
      · obtain ⟨-, -, -, hin⟩ := InFlight.begin?_eq_some hbegin
        rw [hin, hcancels]
        simp [InFlight.isCancelled]
    | finish k outcome =>
      obtain ⟨i, hi, rfl⟩ := perform?_finish ht
      have hclosed := (h.table_eq hopen.1).1
      simp only [h.complete_eq hi, hclosed, Bool.false_eq_true, if_false,
        Connection.inFlight_reply]
      simp [without, InFlight.isCancelled, Act.cancels]
    | closeRequests => exact absurd rfl hopen.2
    | _ => cases ha
  · have hcancels : a.cancels registry id = false := by
      cases a with
      | receive => simp [Act.concernsRequests] at ha
      | _ => rfl
    rw [(same_of_not_concernsRequests ht (by simpa using ha)).1, hcancels]
    simp

/-- Nothing is taken off the record of what was started: only an accepted request adds to it. -/
theorem started_subset_step (hstep : s.step? registry a = some s') {task : RequestId × Nat}
    (hmem : task ∈ s.started) : task ∈ s'.started := by
  obtain ⟨t, ht, rfl⟩ := step?_eq_some hstep
  change task ∈ t.started
  by_cases ha : a.concernsRequests = true
  · cases a with
    | receive body =>
      rw [perform?_receive] at ht
      obtain rfl := Option.some.inj ht
      exact List.mem_append_left _ hmem
    | finish k outcome =>
      obtain ⟨i, -, rfl⟩ := perform?_finish ht
      exact hmem
    | closeRequests =>
      obtain rfl := Option.some.inj ht
      exact hmem
    | _ => cases ha
  · rw [(same_of_not_concernsRequests ht (by simpa using ha)).2.2]
    exact hmem

theorem started_subset_run (hrun : s.run? registry acts = some s') {task : RequestId × Nat}
    (hmem : task ∈ s.started) : task ∈ s'.started :=
  run_induction (P := fun _ t => task ∈ t.started) hrun hmem
    fun _ _ _ _ _ ih hstep => started_subset_step hstep ih

/-- **One handler, from when it is started.** As long as it is at work, it has been cancelled
exactly if a cancellation of its id has arrived since. -/
theorem isCancelled_run {earlier mid : List Act} {s₁ : Traffic}
    (hrun₁ : run? registry {} earlier = some s₁) (hrun : s₁.run? registry mid = some s)
    (hopen : .closeRequests ∉ earlier ++ mid) {id : RequestId} {ticket : Nat}
    (hstarted : (id, ticket) ∈ s₁.started)
    (hnew : s₁.connection.inFlight.isCancelled ticket = false)
    (hmem : (id, ticket) ∈ s.running) :
    s.connection.inFlight.isCancelled ticket = mid.any (Act.cancels registry id) := by
  -- Who is at work in the end has been at work all the time.
  suffices hall : (id, ticket) ∈ s.started ∧ (.closeRequests ∉ earlier ++ mid →
      (id, ticket) ∈ s.running → (s.connection.inFlight.isCancelled ticket = true
        ↔ mid.any (Act.cancels registry id) = true)) from
    Bool.eq_iff_iff.mpr (hall.2 hopen hmem)
  refine run_induction (P := fun mid s => (id, ticket) ∈ s.started
    ∧ (.closeRequests ∉ earlier ++ mid → (id, ticket) ∈ s.running →
      (s.connection.inFlight.isCancelled ticket = true
        ↔ mid.any (Act.cancels registry id) = true))) hrun ?_ ?_
  · exact ⟨hstarted, fun _ _ => by simp [hnew]⟩
  · intro mid t a t' hrun ih hstep
    have hrun' : run? registry {} (earlier ++ mid) = some t := by
      rw [run?_append, hrun₁]
      exact hrun
    refine ⟨started_subset_step hstep ih.1, fun hopen hmem' => ?_⟩
    rw [← List.append_assoc] at hopen
    have hearlier : .closeRequests ∉ earlier ++ mid :=
      fun hc => hopen (List.mem_append_left _ hc)
    -- It has been started before this act and has not ended by it.
    have hatwork : (id, ticket) ∈ t.running := by
      have hnot := (((tracked_run hrun').step hstep).mem_running.mp hmem').2
      rw [List.any_append, Bool.or_eq_false_iff] at hnot
      exact (tracked_run hrun').mem_running.mpr ⟨ih.1, hnot.1⟩
    rw [isCancelled_step hrun' hopen hatwork hstep, ih.2 hearlier hatwork, List.any_append,
      Bool.or_eq_true]
    simp

/-! ## One cancellation -/

/-- A cancellation does to the table what it says, and does nothing else. -/
theorem step?_cancels (s : Traffic) {body : List UInt8} {id : RequestId}
    (hcancels : (Act.receive body).cancels registry id = true) :
    s.step? registry (.receive body) = some { s with
      connection := { s.connection with inFlight := s.connection.inFlight.cancel id } } := by
  simp only [Act.cancels] at hcancels
  split at hcancels
  · case h_1 method params hbody =>
    rw [beq_iff_eq] at hcancels
    obtain ⟨hconnection, hstarted⟩ :=
      s.connection.dispatchNotification_eq registry method params
    rw [hcancels] at hconnection
    simp only [step?, perform?_receive, Connection.dispatch_eq, hbody, Connection.dispatchMessage,
      hconnection, hstarted, Option.map_some, List.append_nil, queuedSince_self]
  · cases hcancels

/-- **A cancellation of an id that nobody has** does nothing at all. -/
theorem step?_cancels_unknown (hrun : run? registry {} acts = some s) {body : List UInt8}
    {id : RequestId} (hcancels : (Act.receive body).cancels registry id = true)
    (hunknown : id ∉ s.running.map (·.1)) : s.step? registry (.receive body) = some s := by
  have hnone : s.connection.inFlight.find? id = none := by
    refine InFlight.find?_eq_none_iff.mpr fun ticket hmem => hunknown ?_
    exact List.mem_map.mpr ⟨_, (tracked_run hrun).entries_subset hmem, rfl⟩
  rw [step?_cancels s hcancels]
  simp only [InFlight.cancel, hnone]

/-- **A cancellation of an id that somebody has** marks its ticket, and does nothing else. -/
theorem step?_cancels_known (hrun : run? registry {} acts = some s)
    (hopen : .closeRequests ∉ acts) {body : List UInt8} {id : RequestId}
    (hcancels : (Act.receive body).cancels registry id = true) {ticket : Nat}
    (hmem : (id, ticket) ∈ s.running) :
    s.step? registry (.receive body) = some { s with
      connection := { s.connection with
        inFlight := { s.connection.inFlight with
          cancelled := s.connection.inFlight.cancelled ++ [ticket] } } } := by
  have h := tracked_run hrun
  have hfound : s.connection.inFlight.find? id = some ticket := by
    refine (InFlight.find?_eq_some_iff h.nodup_entries).mpr ?_
    rw [(h.table_eq hopen).2]
    exact hmem
  rw [step?_cancels s hcancels]
  simp only [InFlight.cancel, hfound]

/-! ## What becomes of the cancellations -/

/-- **What a run makes of the cancellations of the other side.** -/
structure CancelsExactly (registry : Registry) (acts : List Act) (s : Traffic) : Prop where
  /-- A request that has been accepted is answered, when its handler ends, as cancelled if a
  cancellation of its id has arrived in between, and otherwise with what the handler says. -/
  answered : .closeRequests ∉ acts → ∀ earlier s₀ body id method params mid outcome s',
    acts = earlier ++ .receive body :: mid → run? registry {} earlier = some s₀ →
    Message.ofBody body = .ok (.request id method params) →
    refusal? registry s₀.running id method params = none →
    s.step? registry (.finish s₀.started.length outcome) = some s' →
    s'.posted = s.posted ++ taken acts (.response ⟨some id,
      if mid.any (Act.cancels registry id) then .error .requestCancelled else outcome⟩)
  /-- A cancellation of an id that nobody has, be it that nobody has had it or that its request
  has been answered, changes nothing. -/
  unknown : ∀ body id, (Act.receive body).cancels registry id = true →
    id ∉ s.running.map (·.1) → s.step? registry (.receive body) = some s
  /-- A cancellation of an id that somebody has marks the ticket of its present owner, and changes
  nothing else. -/
  known : .closeRequests ∉ acts → ∀ body id ticket,
    (Act.receive body).cancels registry id = true → (id, ticket) ∈ s.running →
    s.step? registry (.receive body) = some { s with
      connection := { s.connection with
        inFlight := { s.connection.inFlight with
          cancelled := s.connection.inFlight.cancelled ++ [ticket] } } }
  /-- A frame cancels the id that it carries, of the same kind and with the same value. -/
  named : registry.find? Catalogue.cancel.name = some Catalogue.cancel → ∀ body id,
    (Act.receive body).cancels registry id = true ↔ ∃ params,
      Message.ofBody body = .ok (.notification Catalogue.cancel.name params)
        ∧ params.cancelledId? = some id

/-- **What a finished request posts.** An accepted request is answered, as it ends, with its own
outcome, unless a cancellation of its id has come in since it was accepted. -/
theorem posted_finish {earlier mid : List Act} {s₀ : Traffic} {body : List UInt8}
    {id : RequestId} {method : String} {params : Json} {outcome : Except ResponseError Json}
    (hrun : run? registry {} (earlier ++ .receive body :: mid) = some s)
    (hopen : .closeRequests ∉ earlier ++ .receive body :: mid)
    (hrun₀ : run? registry {} earlier = some s₀)
    (hbody : Message.ofBody body = .ok (.request id method params))
    (hfree : refusal? registry s₀.running id method params = none)
    (hstep : s.step? registry (.finish s₀.started.length outcome) = some s') :
    s'.posted = s.posted ++ taken (earlier ++ .receive body :: mid) (.response ⟨some id,
      if mid.any (Act.cancels registry id) then .error .requestCancelled else outcome⟩) := by
  have hopen₀ : .closeRequests ∉ earlier := fun hc => hopen (List.mem_append_left _ hc)
  -- The request was accepted, and the run goes on from there.
  obtain ⟨t, ht, hrest⟩ := run?_split hrun
  obtain rfl : s₀ = t := Option.some.inj (hrun₀.symm.trans ht)
  obtain ⟨s₁, haccept, hmid⟩ := Option.bind_eq_some_iff.mp hrest
  have hs₁ := haccept
  rw [step?_accepted hrun₀ hopen₀ hbody hfree, Option.some.injEq] at hs₁
  have hrun₁ : run? registry {} (earlier ++ [.receive body]) = some s₁ :=
    run?_concat.mpr ⟨s₀, hrun₀, haccept⟩
  have hstarted : (id, s₀.started.length) ∈ s₁.started := by
    rw [← hs₁]
    simp
  -- Its ticket is new, and nobody is cancelled under a ticket to come.
  have hnew : s₁.connection.inFlight.isCancelled s₀.started.length = false := by
    have hlt := (tracked_run hrun₀).cancelled
    rw [(tracked_run hrun₀).length_started] at hlt
    rw [← hs₁]
    simpa [InFlight.isCancelled] using fun hmem => Nat.lt_irrefl _ (hlt _ hmem)
  -- Who ends under its ticket is its handler.
  have h := tracked_run hrun
  obtain ⟨u, hu, -⟩ := step?_eq_some hstep
  obtain ⟨owner, howner, -⟩ := perform?_finish hu
  have hmem : (id, s₀.started.length) ∈ s.running := by
    refine h.mem_running.mpr ⟨started_subset_run hmid hstarted, ?_⟩
    exact (h.mem_running.mp howner).2
  have hopen₁ : .closeRequests ∉ (earlier ++ [.receive body]) ++ mid := by
    rwa [← List.append_cons]
  rw [step?_finish hrun hopen hmem, Option.some.injEq] at hstep
  rw [← hstep, answer, isCancelled_run hrun₁ hmid hopen₁ hstarted hnew hmem]

/-- **Cancellations are exact.** After every run, in whatever order its acts have come, the answer
to an accepted request is that it has been cancelled if a cancellation of exactly its id arrived
between its acceptance and the end of its handler, and what the handler says if none did; and a
cancellation of an id that nobody has at the time changes nothing. -/
theorem cancellation_exact (hrun : run? registry {} acts = some s) :
    CancelsExactly registry acts s where
  answered hopen earlier s₀ body id method params mid outcome s' hacts hrun₀ hbody hfree hstep := by
    subst hacts
    exact posted_finish hrun hopen hrun₀ hbody hfree hstep
  unknown body id hcancels hunknown := step?_cancels_unknown hrun hcancels hunknown
  known hopen body id ticket hcancels hmem := step?_cancels_known hrun hopen hcancels hmem
  named hbound body id := by
    simp only [Act.cancels]
    split
    · case h_1 method params hbody =>
      rw [beq_iff_eq, cancelTarget?_eq hbound, hbody]
      constructor
      · intro h
        split at h
        · case isTrue hmethod => exact ⟨params, by rw [hmethod], h⟩
        · cases h
      · rintro ⟨params', heq, hid⟩
        cases heq
        rw [if_pos rfl, hid]
    · case h_2 hbody =>
      simp only [Bool.false_eq_true, false_iff, not_exists, not_and]
      exact fun params heq => absurd heq (hbody _ _)

/-- Cancellations and a method to cancel. -/
def cancellable : Registry :=
  ⟨[Catalogue.cancel, ⟨"echo", .request, ⟨"Any", .any⟩, none⟩]⟩

/-- The id 1 is cancelled before it is used, while it is used and after that use; then it is used
again. -/
def lateCancels : List Act :=
  let request := Text.Utf8.encodeString "\x7b\"id\":1,\"method\":\"echo\"\x7d"
  let cancel := Text.Utf8.encodeString
    "\x7b\"method\":\"$/cancelRequest\",\"params\":\x7b\"id\":1\x7d\x7d"
  [.receive cancel, .receive request, .receive cancel, .finish 0 (.ok .null), .receive cancel,
    .receive request]

theorem cancellation_exact_lateCancels :
    ∃ s, run? cancellable {} lateCancels = some s
      ∧ s.connection.inFlight.cancelled = [0] ∧ s.running.map (·.2) = [1]
      ∧ CancelsExactly cancellable lateCancels s := by
  have hstate : (run? cancellable {} lateCancels).map
      (fun s => (s.connection.inFlight.cancelled, s.running.map (·.2))) = some ([0], [1]) := by
    decide +kernel
  obtain ⟨s, hrun, heq⟩ := Option.map_eq_some_iff.mp hstate
  rw [Prod.mk.injEq] at heq
  exact ⟨s, hrun, heq.1, heq.2, cancellation_exact hrun⟩

end Traffic

end FlagServer
