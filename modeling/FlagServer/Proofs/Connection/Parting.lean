import FlagServer.Proofs.Connection.Calls
import FlagServer.Proofs.Connection.Cancellation
import FlagServer.Proofs.Connection.Offers
import FlagServer.Proofs.Wire

/-!
# Letting go of a call

Whoever makes a call can be rid of it in several ways: it can cancel the call while it waits for it,
it can give the call up, and it lets go of it in the end whatever has happened before. All of them
come to one operation, which takes the call's entry out of the table and then puts a notice to the
queue that the call is not wanted any more.

A traffic does this in one act, but it is not done at once: when the entry has been taken out and
the notice has not been put to the queue, anybody may get in between, and the connection may close.
A `Parting` is a traffic in which these are two acts. Every run of a traffic is one of a parting, in
which each notice is given promptly (`Parting.run?_prompt`).
-/

namespace FlagServer

/-! ## Messages that cancel -/

namespace Message

/-- The message is a cancellation. -/
def isCancel : Message → Bool
  | .notification method _ => method == Catalogue.cancel.name
  | _ => false

/-- The message cancels the request with an id. -/
def cancels (id : RequestId) : Message → Bool
  | .notification method params =>
    method == Catalogue.cancel.name && params.cancelledId? == some id
  | _ => false

/-- Who cancels a request by its id cancels one. -/
theorem isCancel_of_cancels {id : RequestId} {m : Message} (h : m.cancels id = true) :
    m.isCancel = true := by
  cases m with
  | notification method params => exact (Bool.and_eq_true_iff.mp h).1
  | _ => cases h

/-- The notice of a call cancels the request with its id, and no other. -/
theorem cancels_cancelMessage (id i : RequestId) :
    (Connection.cancelMessage id).cancels i = true ↔ i = id := by
  have hid : (Json.ofMembers [("id", id.toJson)]).cancelledId? = some id :=
    RequestId.ofJson?_toJson id
  simp only [Connection.cancelMessage, cancels, hid, beq_self_eq_true, Bool.true_and, beq_iff_eq,
    Option.some.injEq]
  exact eq_comm

end Message

/-- The request with an id is among some messages. -/
def Requested (id : RequestId) (messages : List Message) : Prop :=
  ∃ method params, .request id method params ∈ messages

theorem Requested.append {id : RequestId} {messages : List Message} (h : Requested id messages)
    (more : List Message) : Requested id (messages ++ more) := by
  obtain ⟨method, params, hmem⟩ := h
  exact ⟨method, params, List.mem_append_left more hmem⟩

/-- Messages are taken before and while a connection is served, for as long as its writer works. -/
theorem Connection.accepts_eq_true_iff (c : Connection) :
    c.accepts = true ↔ c.phase ≠ .closing ∧ c.phase ≠ .closed ∧ c.writerFailed = false := by
  unfold accepts
  cases c.phase <;> simp

/-! ## Letting go -/

/-- The acts by which a maker lets go of its call. -/
def Maker.Act.letsGo : Maker.Act → Bool
  | .cancel => true
  | .giveUp => true
  | _ => false

/-- A maker lets go of its call. -/
def Act.letsGo : Act → Bool
  | .maker _ b => b.letsGo
  | _ => false

namespace CallTable

/-- The id, if its entry has been taken out between one table and another. -/
def taken (before after : CallTable) (id : RequestId) : List RequestId :=
  if (before.find? id).isSome && (after.find? id).isNone then [id] else []

theorem taken_self (t : CallTable) (id : RequestId) : t.taken t id = [] := by
  unfold taken
  cases t.find? id <;> rfl

theorem find?_erase (t : CallTable) (id : RequestId) : (t.erase id).find? id = none := by
  rw [find?_eq_none_iff]
  intro serial hmem
  exact (mem_erase.mp hmem).2 rfl

theorem taken_erase {t : CallTable} {id : RequestId} {serial : Nat}
    (h : t.find? id = some serial) : t.taken (t.erase id) id = [id] := by
  simp [taken, h, find?_erase]

end CallTable

/-- **How a maker lets go of its call.** It has had the call in hand and holds it no longer. It
gives the call up, or finds an outcome instead. -/
theorem Maker.letsGo_act? {m m' : Maker} {c c' : Connection} {b : Maker.Act}
    (hact : m.act? c b = some (m', c')) (hb : b.letsGo = true) :
    (m.point = .holding ∨ (∃ o, m.point = .told o) ∨ m.point = .quit) ∧ m'.point ≠ .holding
      ∧ (c' = (c.giveUp m.call.id).2 ∨ c' = c ∧ (c.outcome? m.call).isSome = true) := by
  cases step_of_act? hact with
  | finds hpoint houtcome => exact ⟨.inl hpoint, nofun, .inr ⟨rfl, by simp [houtcome]⟩⟩
  | cancels hpoint | quits hpoint => exact ⟨.inl hpoint, nofun, .inl rfl⟩
  | @dropsTold o hpoint => exact ⟨.inr (.inl ⟨o, hpoint⟩), by simp [hpoint], .inl rfl⟩
  | dropsQuit hpoint => exact ⟨.inr (.inr hpoint), by simp [hpoint], .inl rfl⟩
  -- With the other acts nobody lets go of a call.
  | _ => cases hb

/-- **To let go of a call is to take its entry out and to put a notice to the queue,** or to do
nothing: where there is no entry, and where its maker finds an outcome instead. -/
theorem Maker.connection_letsGo {m m' : Maker} {c c' : Connection} {b : Maker.Act}
    (hact : m.act? c b = some (m', c')) (hb : b.letsGo = true) :
    c' = c ∧ (c.calls.find? m.call.id = none ∨ (c.outcome? m.call).isSome = true)
    ∨ ∃ serial, c.calls.find? m.call.id = some serial
      ∧ c' = ({ c with calls := c.calls.erase m.call.id } : Connection).post
          (Connection.cancelMessage m.call.id) := by
  obtain ⟨-, -, rfl | ⟨rfl, hsome⟩⟩ := Maker.letsGo_act? hact hb
  · cases hfind : c.calls.find? m.call.id with
    | none => exact .inl ⟨Connection.giveUp_of_none hfind, .inl rfl⟩
    | some serial =>
      refine .inr ⟨serial, rfl, ?_⟩
      simp only [Connection.giveUp, CallTable.remove?, hfind, Option.map_some]
  · exact .inl ⟨rfl, .inr hsome⟩

/-- What is done to the calls when a maker lets go of one does not depend on the queue. -/
theorem Maker.sameCalls_letsGo {m m' : Maker} {c c' : Connection} {b : Maker.Act}
    (hact : m.act? c b = some (m', c')) (hb : b.letsGo = true) :
    c'.SameCalls { c with calls := c'.calls } := by
  rcases Maker.connection_letsGo hact hb with ⟨rfl, -⟩ | ⟨serial, -, rfl⟩
  · exact .refl _
  · have hsame := Connection.sameCalls_post { c with calls := c.calls.erase m.call.id }
      (Connection.cancelMessage m.call.id)
    exact ⟨rfl, hsame.nextId.symm, hsame.nextSerial.symm⟩

/-- **How a maker comes to hold a call:** it has sent the request, or the call has failed. -/
theorem Maker.holding_act? {m m' : Maker} {c c' : Connection} {b : Maker.Act}
    (hact : m.act? c b = some (m', c')) (hp : m'.point = .holding) :
    m'.call = m.call
    ∧ ((∃ method params, b = .send ∧ c.accepts = true
          ∧ m.offer? c b = some (.request m.call.id method params))
      ∨ b = .withdraw
      ∨ (∃ method params, m.point = .drawn method params)
        ∧ c'.calls.entries = c.calls.entries) := by
  -- By the act that has led there.
  cases step_of_act? hact with
  | @rejects method hpoint => exact ⟨rfl, .inr (.inr ⟨⟨method, none, hpoint⟩, rfl⟩)⟩
  | @isRefused method params hpoint =>
    exact ⟨rfl, .inr (.inr ⟨⟨method, some params, hpoint⟩, rfl⟩)⟩
  | @sends method params _ hpoint hsent =>
    refine ⟨rfl, .inl ⟨method, params, rfl, (Connection.enqueue?_eq_some hsent).1, ?_⟩⟩
    simp only [offer?, hpoint]
  | withdraws => exact ⟨rfl, .inr (.inl rfl)⟩
  -- The others lead elsewhere, or leave the maker where it is and holds no call.
  | enters | isUnsent | awaits | finds | cancels | quits => cases hp
  | dropsTold hpoint | dropsQuit hpoint =>
    rw [hpoint] at hp
    cases hp

/-- A call whose request has been withdrawn does not wait. -/
theorem Fate.next_withdraw_ne_waiting (f : Fate) (call : Call) :
    f.next call (.maker call.serial .withdraw) ≠ .waiting := by
  cases f with
  | waiting => simp [Fate.next, Act.ending?]
  | _ => simp [Fate.next]

namespace Traffic

variable {registry : Registry} {acts : List Act} {s s' : Traffic}

/-- The story is of the makers and the calls. The rest of the connection may change. -/
theorem Linked.congr (h : Linked acts s) (hmakers : s'.makers = s.makers)
    (hsame : s.connection.SameCalls s'.connection) : Linked acts s' where
  calls := by rw [Traffic.calls, hmakers]; exact h.calls
  nextId := by rw [hsame.nextId, hmakers]; exact h.nextId
  nextSerial := by rw [hsame.nextSerial, hmakers]; exact h.nextSerial
  booked := by
    rw [hsame.calls, show s'.calls = s.calls by rw [Traffic.calls, hmakers]; rfl]
    exact h.booked
  agrees := by rw [hmakers]; exact h.agrees
  unheard := by rw [hmakers]; exact h.unheard
  closed := by rw [hsame.calls]; exact h.closed

/-- **Who lets go of a call takes its entry out exactly if the call still waits.** -/
theorem Linked.taken_eq (h : Linked acts s) (hfew : s.makers.length ≤ UInt32.size) {k : Nat}
    {m m' : Maker} {b : Maker.Act} {c : Connection} (hm : s.makers[k]? = some m)
    (hb : b.letsGo = true) (hact : m.act? s.connection b = some (m', c)) :
    fate m.call acts = .waiting ∧ s.connection.calls.taken c.calls m.call.id = [m.call.id]
    ∨ fate m.call acts ≠ .waiting ∧ s.connection.calls.taken c.calls m.call.id = [] := by
  have hmem := (h.call_eq hm).2
  by_cases hw : fate m.call acts = .waiting
  · refine .inl ⟨hw, ?_⟩
    have hfind := h.booked.find?_of_waiting hmem hw
    rcases Maker.connection_letsGo hact hb with ⟨-, hnone | hsome⟩ | ⟨serial, -, rfl⟩
    · rw [hfind] at hnone
      cases hnone
    · -- Nobody has left an outcome for a call that waits.
      rw [Connection.outcome?, (h.booked.outcome?_eq hmem).1 hw] at hsome
      cases hsome
    · rw [(Connection.sameCalls_post _ _).calls]
      exact CallTable.taken_erase hfind
  · refine .inr ⟨hw, ?_⟩
    have hnone := h.find?_eq_none hfew hmem hw
    simp [CallTable.taken, hnone]

/-- Whoever does not let go of a call offers no cancellation, unless by hand. -/
theorem isCancel_offer? {a : Act} (ha : a.letsGo = false)
    (hown : ∀ params, a ≠ .other (.notify Catalogue.cancel.name params)) {message : Message}
    (hoffer : s.offer? registry a = some message) : message.isCancel = false := by
  -- An error and an answer are responses, and what a maker offers without letting go is a request.
  cases a with
  | maker k b =>
    obtain ⟨m, -, hoffer⟩ := Option.bind_eq_some_iff.mp hoffer
    unfold Maker.offer? at hoffer
    split at hoffer
    · cases hoffer
      rfl
    all_goals first | cases ha | cases hoffer
  | receive body =>
    simp only [offer?, Connection.errorFor?] at hoffer
    split at hoffer
    · cases hoffer
      rfl
    · split at hoffer
      · cases hoffer
        rfl
      · split at hoffer <;> cases hoffer
        rfl
    · cases hoffer
  | finish ticket outcome =>
    obtain ⟨task, -, hoffer⟩ := Option.bind_eq_some_iff.mp hoffer
    obtain ⟨_, -, rfl⟩ := Option.map_eq_some_iff.mp hoffer
    rfl
  | other op =>
    cases op with
    | notify method params =>
      obtain ⟨params, rfl, rfl⟩ := Option.map_eq_some_iff.mp hoffer
      have hne : method ≠ Catalogue.cancel.name := by
        rintro rfl
        exact hown _ rfl
      simpa [Message.isCancel] using hne
    | _ => cases hoffer
  | _ => cases hoffer

/-- Only the writer itself makes it fail. -/
theorem writerFailed_step {a : Act} (hstep : s.step? registry a = some s')
    (hne : a ≠ .other .failWriter) :
    s'.connection.writerFailed = s.connection.writerFailed := by
  -- Who only uses the connection puts an offer to its queue, and that does not make the writer
  -- fail.
  cases ha : a.isUse with
  | true => exact (puts_step hstep ha).writerFailed
  | false =>
    obtain ⟨t, ht, rfl⟩ := step?_eq_some hstep
    change t.connection.writerFailed = _
    cases a with
    | other op =>
      obtain ⟨c, hc, rfl⟩ := Option.map_eq_some_iff.mp ht
      cases op with
      | notify _ _ | requestClose => cases ha
      | failWriter => exact absurd rfl hne
      | start =>
        simp only [Connection.op?, Connection.start?] at hc
        split at hc <;> cases hc
        rfl
      | take =>
        simp only [Connection.op?, Connection.take?] at hc
        split at hc <;> cases hc
        rfl
      | stopWriter =>
        cases hc
        unfold Connection.stopWriter
        split <;> rfl
      | beginClosing | finishClosing =>
        cases hc
        rfl
    | _ => cases ha

/-- A maker that stays where it is, holding a call that waits, has held it before. -/
theorem Linked.waiting_before {a : Act} (h : Linked acts s) {k : Nat} {m : Maker}
    (hm : s.makers[k]? = some m) (hp : m.point = .holding)
    (hw : fate m.call (acts ++ [a]) = .waiting) : fate m.call acts = .waiting := by
  have hagrees := h.agrees k m hm
  rw [hp] at hagrees
  rcases hagrees.made (by simp) with hf | ⟨e, hf⟩
  · exact hf
  · rw [fate_concat, hf] at hw
    cases hw

/-- The connection after a step of a maker is the one that its act leaves. -/
theorem connection_maker {k : Nat} {b : Maker.Act} {m m' : Maker} {c : Connection}
    (hstep : s.step? registry (.maker k b) = some s') (hm : s.makers[k]? = some m)
    (hact : m.act? s.connection b = some (m', c)) : s'.connection = c := by
  simp only [step?, perform?, hm, hact, Option.map_some, Option.some.injEq] at hstep
  rw [← hstep]

/-- **A maker comes to hold a call that waits by sending its request,** which the queue takes. -/
theorem Linked.requested {a : Act} (h : Linked acts s) (h' : Linked (acts ++ [a]) s')
    (hstep : s.step? registry a = some s') {k : Nat} {m : Maker} (hm : s'.makers[k]? = some m)
    (hp : m.point = .holding) (hw : fate m.call (acts ++ [a]) = .waiting) :
    s.makers[k]? = some m ∧ fate m.call acts = .waiting ∨ Requested m.call.id s'.posted := by
  have hstays : s.makers[k]? = some m → s.makers[k]? = some m ∧ fate m.call acts = .waiting :=
    fun hm => ⟨hm, h.waiting_before hm hp hw⟩
  -- By what the step has done to the makers.
  rcases makers_step hstep with heq | ⟨_, _, _, heq⟩ | ⟨j, b, m₀, m₁, c, rfl, hm₀, hact, heq⟩
  · rw [heq] at hm
    exact .inl (hstays hm)
  · -- Who has just begun holds nothing yet.
    rw [heq, List.getElem?_append] at hm
    split at hm
    · exact .inl (hstays hm)
    · obtain ⟨_, hnew⟩ := List.getElem?_eq_some_iff.mp hm
      rw [← hnew] at hp
      simp at hp
  · by_cases hj : j = k
    · subst hj
      have hlt : j < s.makers.length := (List.getElem?_eq_some_iff.mp hm₀).1
      obtain rfl : m₁ = m := by simpa [heq, hlt] using hm
      obtain ⟨hcall, hhow⟩ := Maker.holding_act? hact hp
      rw [hcall] at hw ⊢
      rcases hhow with ⟨method, params, rfl, haccepts, hoffer⟩ | rfl | ⟨⟨_, _, hpoint⟩, hentries⟩
      · have hposted := posted_step hstep
        simp only [offer?, hm₀, Option.bind_some, hoffer, Connection.enqueued_eq, haccepts, if_true,
          Option.toList_some] at hposted
        exact .inr ⟨method, params, by rw [hposted]; simp⟩
      · -- What has been withdrawn does not wait.
        rw [fate_concat, ← h.serial_eq hm₀] at hw
        exact absurd hw (Fate.next_withdraw_ne_waiting _ _)
      · -- The call has not been entered, neither before nor now.
        have hagrees := h.agrees j m₀ hm₀
        rw [hpoint] at hagrees
        obtain ⟨closed, hf⟩ := hagrees.unmade
        have hin := (h'.booked.entries m₀.call).mpr ⟨hcall ▸ (h'.call_eq hm).2, hw⟩
        rw [connection_maker hstep hm₀ hact, hentries, h.booked.entries, hf] at hin
        exact absurd hin.2 (by simp)
    · rw [heq, List.getElem?_set_ne hj] at hm
      exact .inl (hstays hm)

end Traffic

/-! ## Parting in two acts -/

/-- A traffic in which makers let go of their calls in two acts. -/
structure Parting where
  /-- The traffic. -/
  traffic : Traffic := {}
  /-- The ids whose entries have been taken out and whose notices are still to be put to the
  queue. -/
  owed : List RequestId := []

namespace Parting

/-- What somebody does at once. -/
inductive Deed where
  /-- An act. One that lets go of a call takes its entry out, and no more. -/
  | act (a : Act)
  /-- The notice of a call is put to the queue. -/
  | notice (id : RequestId)

/-- The parting after a maker has let go of its call but for the notice. -/
def letGo? (s : Parting) (k : Nat) (b : Maker.Act) : Option Parting :=
  match s.traffic.makers[k]? with
  | none => none
  | some m =>
    (m.act? s.traffic.connection b).map fun (m', c) =>
      { traffic := { s.traffic with
          connection := { s.traffic.connection with calls := c.calls }
          makers := s.traffic.makers.set k m' }
        owed := s.owed ++ s.traffic.connection.calls.taken c.calls m.call.id }

/-- The parting after a notice has been put to the queue. -/
def putNotice (s : Parting) (id : RequestId) : Parting where
  traffic := { s.traffic with
    connection := s.traffic.connection.post (Connection.cancelMessage id)
    posted := s.traffic.posted
      ++ s.traffic.connection.enqueued (some (Connection.cancelMessage id)) }
  owed := s.owed.erase id

/-- The parting after a deed; nothing where it is not possible. -/
def step? (registry : Registry) (s : Parting) : Deed → Option Parting
  | .act a =>
    match a with
    | .maker k .cancel => s.letGo? k .cancel
    | .maker k .giveUp => s.letGo? k .giveUp
    | a => (s.traffic.step? registry a).map fun traffic => { s with traffic }
  | .notice id => if id ∈ s.owed then some (s.putNotice id) else none

/-- The parting after some deeds, one after the other. -/
def run? (registry : Registry) (s : Parting) (deeds : List Deed) : Option Parting :=
  deeds.foldlM (step? registry) s

/-- The acts among some deeds. -/
def acts (deeds : List Deed) : List Act :=
  deeds.filterMap fun deed =>
    match deed with
    | .act a => some a
    | .notice _ => none

variable {registry : Registry} {deeds : List Deed} {s s' : Parting} {deed : Deed}

theorem acts_act (deeds : List Deed) (a : Act) : acts (deeds ++ [.act a]) = acts deeds ++ [a] := by
  simp [acts]

theorem acts_notice (deeds : List Deed) (id : RequestId) :
    acts (deeds ++ [.notice id]) = acts deeds := by
  simp [acts]

/-- Who does not let go of a call acts as in a traffic. -/
theorem step?_whole (s : Parting) {a : Act} (ha : a.letsGo = false) :
    s.step? registry (.act a)
      = (s.traffic.step? registry a).map fun traffic => { s with traffic } := by
  cases a with
  | maker k b =>
    cases b with
    | cancel | giveUp => cases ha
    | _ => rfl
  | _ => rfl

/-- Who lets go of one takes its entry out and owes the notice. -/
theorem step?_letsGo (s : Parting) (k : Nat) {b : Maker.Act} (hb : b.letsGo = true) :
    s.step? registry (.act (.maker k b)) = s.letGo? k b := by
  cases b with
  | cancel | giveUp => rfl
  | _ => cases hb

/-- **What a step can be.** -/
inductive Move (registry : Registry) (s : Parting) : Deed → Parting → Prop where
  /-- Nobody lets go of a call. -/
  | whole {a : Act} {traffic : Traffic} (ha : a.letsGo = false)
    (hstep : s.traffic.step? registry a = some traffic) :
    Move registry s (.act a) { s with traffic }
  /-- A maker lets go of its call. -/
  | letGo {k : Nat} {b : Maker.Act} {m m' : Maker} {c : Connection} (hb : b.letsGo = true)
    (hm : s.traffic.makers[k]? = some m)
    (hact : m.act? s.traffic.connection b = some (m', c)) :
    Move registry s (.act (.maker k b))
      { traffic := { s.traffic with
          connection := { s.traffic.connection with calls := c.calls }
          makers := s.traffic.makers.set k m' }
        owed := s.owed ++ s.traffic.connection.calls.taken c.calls m.call.id }
  /-- A notice is put to the queue. -/
  | notice {id : RequestId} (hid : id ∈ s.owed) : Move registry s (.notice id) (s.putNotice id)

/-- **Every step is one of these moves.** -/
theorem move_of_step? (h : s.step? registry deed = some s') : Move registry s deed s' := by
  cases deed with
  | act a =>
    -- An act that lets go of a call is of a maker, and was cut in two.
    by_cases ha : a.letsGo = false
    · rw [step?_whole s ha] at h
      obtain ⟨traffic, hstep, rfl⟩ := Option.map_eq_some_iff.mp h
      exact .whole ha hstep
    · rw [Bool.not_eq_false] at ha
      cases a with
      | maker k b =>
        rw [step?_letsGo s k ha, letGo?] at h
        split at h
        · cases h
        · case h_2 m hm =>
          obtain ⟨⟨m', c⟩, hact, rfl⟩ := Option.map_eq_some_iff.mp h
          exact .letGo ha hm hact
      | _ => cases ha
  | notice id =>
    simp only [step?] at h
    split at h
    · cases h
      exact .notice ‹_›
    · cases h

/-- To let go of a call at once is to take its entry out and to give notice of it without anybody
getting in between. -/
theorem step?_prompt {t t' : Traffic} {a : Act} (hstep : t.step? registry a = some t') :
    ∃ deeds, run? registry ⟨t, []⟩ deeds = some ⟨t', []⟩ ∧ acts deeds = [a] := by
  by_cases ha : a.letsGo = false
  · refine ⟨[.act a], ?_, rfl⟩
    simp only [run?, List.foldlM_cons, List.foldlM_nil, step?_whole _ ha, hstep, Option.map_some]
    rfl
  · rw [Bool.not_eq_false] at ha
    cases a with
    | maker k b =>
      obtain ⟨u, hu, rfl⟩ := Traffic.step?_eq_some hstep
      obtain ⟨m, m', c, hm, hact, rfl⟩ := Traffic.perform?_maker hu
      -- The first of the two deeds takes the entry out, if there is one.
      have hfirst : step? registry ⟨t, []⟩ (.act (.maker k b)) = some
          { traffic := { t with
              connection := { t.connection with calls := c.calls }
              makers := t.makers.set k m' }
            owed := t.connection.calls.taken c.calls m.call.id } := by
        simp only [step?_letsGo _ _ ha, letGo?, hm, hact, Option.map_some, List.nil_append]
      rcases Maker.connection_letsGo hact ha with ⟨rfl, -⟩ | ⟨serial, hfind, rfl⟩
      · refine ⟨[.act (.maker k b)], ?_, rfl⟩
        simp only [run?, List.foldlM_cons, List.foldlM_nil, hfirst, CallTable.taken_self]
        simp
      · refine ⟨[.act (.maker k b), .notice m.call.id], ?_, rfl⟩
        rw [(Connection.sameCalls_post _ _).calls, CallTable.taken_erase hfind] at hfirst
        -- What the queue takes of the notice is what the act as a whole has put there.
        have hqueued := (Connection.puts_post
          { t.connection with calls := t.connection.calls.erase m.call.id }
          (Connection.cancelMessage m.call.id)).queuedSince
        rw [run?, List.foldlM_cons, hfirst]
        change step? registry _ (.notice m.call.id) >>= pure = _
        simp [step?, putNotice, hqueued]
    | _ => cases ha

/-- **Every run of a traffic is a run in which notices are given promptly.** -/
theorem run?_prompt {t t' : Traffic} {whole : List Act}
    (hrun : t.run? registry whole = some t') :
    ∃ deeds, run? registry ⟨t, []⟩ deeds = some ⟨t', []⟩ ∧ acts deeds = whole := by
  induction whole generalizing t with
  | nil =>
    obtain rfl : t = t' := by simpa using hrun
    exact ⟨[], rfl, rfl⟩
  | cons a rest ih =>
    obtain ⟨u, hu, hrest⟩ := Option.bind_eq_some_iff.mp hrun
    obtain ⟨now, hnow, hact⟩ := step?_prompt hu
    obtain ⟨later, hlater, hacts⟩ := ih hrest
    -- What is owed has been given notice of before the next act, so the runs fit together.
    refine ⟨now ++ later, ?_, ?_⟩
    · rw [run?, List.foldlM_append]
      exact Option.bind_eq_some_iff.mpr ⟨_, hnow, hlater⟩
    · rw [acts, List.filterMap_append]
      exact congrArg₂ (· ++ ·) hact hacts

end Parting

end FlagServer
