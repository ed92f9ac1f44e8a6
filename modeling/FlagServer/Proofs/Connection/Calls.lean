import FlagServer.Proofs.Connection.Fate

/-!
# Every call ends once

What `Fate` says of one call at a time, the connection keeps for all of them in one table. This
file shows that the two agree after every run, as long as ids have not come round: the table holds
the calls that wait, the log has one note for each call that has ended by somebody else than its
maker, and whoever waits is told how its call has ended.

The invariant is `Traffic.Linked`. Beside the table it speaks of the points at which the makers
stand, because what keeps an entry from being taken twice is not in the table: a maker gives up
only a call that it has in hand, and it has a call in hand only after the call has been entered.
-/

namespace FlagServer

/-! ## Numbers and ids -/

/-- The call with a number. Its id is the number after it, in 32 bits. -/
def Call.nth (k : Nat) : Call := ⟨k, .number (Int32.ofNat (k + 1))⟩

/-- Among the first 2^32 calls no id occurs twice. -/
theorem Call.nth_inj {j k : Nat} (hj : j < UInt32.size) (hk : k < UInt32.size)
    (h : (nth j).id = (nth k).id) : j = k := by
  have hid : Int32.ofNat (j + 1) = Int32.ofNat (k + 1) := RequestId.number.inj h
  -- Equal words are numbers that differ by a multiple of 2^32.
  have hword := congrArg (fun n => n.toUInt32.toNat) hid
  simp only [Int32.toUInt32_ofNat', UInt32.toNat_ofNat'] at hword
  simp only [UInt32.size] at hj hk
  omega

/-! ## Where the maker of a call can stand -/

namespace Fate

/-- The point of a maker fits what has become of its call. -/
def Agrees : Fate → Point → Prop
  | .unmade _, .drawn _ _ => True
  | .unmade _, _ => False
  | .waiting, .entered _ _ => True
  | .waiting, .unsent => True
  | .waiting, .holding => True
  | .waiting, _ => False
  | .ended _, .drawn _ _ => False
  | .ended e, .told o => e.outcome? = some o
  | .ended _, .quit => True
  | .ended e, _ => e.noted?.isSome = true

/-- Who has only drawn an id has made no call yet. -/
theorem Agrees.unmade {f : Fate} {method : String} {params : Option Json}
    (h : f.Agrees (.drawn method params)) : ∃ closed, f = .unmade closed := by
  cases f with
  | unmade closed => exact ⟨closed, rfl⟩
  | waiting => exact h.elim
  | ended e => exact h.elim

/-- Whoever stands further on has made one. -/
theorem Agrees.made {f : Fate} {p : Point} (h : f.Agrees p)
    (hp : ∀ method params, p ≠ .drawn method params) : f = .waiting ∨ ∃ e, f = .ended e := by
  cases f with
  | waiting => exact .inl rfl
  | ended e => exact .inr ⟨e, rfl⟩
  | unmade closed =>
    cases p with
    | drawn method params => exact absurd rfl (hp method params)
    | _ => exact h.elim

/-- The act of a maker concerns its own call and no other. -/
theorem next_of_ne {call : Call} {serial : Nat} (hne : serial ≠ call.serial) (f : Fate)
    (a : Maker.Act) : f.next call (.maker serial a) = f := by
  cases f with
  | ended e => rfl
  | waiting => cases a <;> simp [next, Act.ending?, hne]
  | unmade closed => cases a <;> simp [next, hne]

/-- Nobody else makes a call for its maker. -/
theorem next_unmade {a : Act} (ha : ∀ serial b, a ≠ .maker serial b) (call : Call)
    (closed : Bool) : ∃ closed', (unmade closed).next call a = .unmade closed' := by
  cases a with
  | maker serial b => exact absurd rfl (ha serial b)
  | closeCalls => exact ⟨true, rfl⟩
  | _ => exact ⟨closed, rfl⟩

/-- An act that cannot end a call, and that fails none, changes no fate. -/
theorem next_eq_self {a : Act} (ha : ∀ serial b, a ≠ .maker serial b) (hclose : a ≠ .closeCalls)
    {call : Call} (hending : a.ending? call = none) (f : Fate) : f.next call a = f := by
  cases f with
  | ended e => rfl
  | waiting => exact next_waiting_of_none hending
  | unmade closed =>
    cases a with
    | maker serial b => exact absurd rfl (ha serial b)
    | closeCalls => exact absurd rfl hclose
    | _ => rfl

/-- A maker who waits is left something to find by everybody but itself. -/
theorem isSome_noted?_of_ending? {call : Call} {a : Act} {e : Ending}
    (ha : ∀ serial b, a ≠ .maker serial b) (h : a.ending? call = some e) :
    e.noted?.isSome = true := by
  cases a with
  | maker serial b => exact absurd rfl (ha serial b)
  | closeCalls => cases h; rfl
  | receive body =>
    simp only [Act.ending?] at h
    split at h
    · split at h
      · cases h; rfl
      · cases h
    · cases h
  | _ => cases h

/-- An act of anybody but the maker leaves the maker where it may stand. -/
theorem Agrees.next {f : Fate} {p : Point} (h : f.Agrees p) {a : Act}
    (ha : ∀ serial b, a ≠ .maker serial b) (call : Call) : (f.next call a).Agrees p := by
  cases f with
  | ended e => exact h
  | unmade closed =>
    obtain ⟨closed', heq⟩ := next_unmade ha call closed
    rw [heq]
    -- A maker that has drawn an id only stays so. Further on there is no maker of a call that is
    -- not made.
    cases p with
    | drawn _ _ => trivial
    | _ => exact h.elim
  | waiting =>
    cases he : a.ending? call with
    | none => rw [next_waiting_of_none he]; exact h
    | some e =>
      -- Somebody else has ended the call, and the maker finds a note where it stands.
      have hsome := isSome_noted?_of_ending? ha he
      rw [next_waiting_of_ending? he]
      cases p with
      | entered _ _ | unsent | holding => exact hsome
      | _ => exact h.elim

end Fate

/-! ## Acting by id -/

namespace Connection

variable {c : Connection} {id : RequestId} {serial : Nat}

/-- To give up a call that has an entry takes the entry out, and leaves the numbering of calls
alone. -/
theorem giveUp_of_find? (h : c.calls.find? id = some serial) :
    (c.giveUp id).2.calls = c.calls.erase id ∧ (c.giveUp id).2.nextId = c.nextId
      ∧ (c.giveUp id).2.nextSerial = c.nextSerial := by
  have hsame := sameCalls_post { c with calls := c.calls.erase id } (cancelMessage id)
  simp only [giveUp, CallTable.remove?, h, Option.map_some]
  exact ⟨hsame.calls, hsame.nextId, hsame.nextSerial⟩

/-- To give up a call without an entry does nothing. In particular it sends no notice. -/
theorem giveUp_of_none (h : c.calls.find? id = none) : (c.giveUp id).2 = c := by
  simp only [giveUp, CallTable.remove?, h, Option.map_none]

theorem failWaiting_of_find? (h : c.calls.find? id = some serial) (error : CallError) :
    c.failWaiting id error
      = { c with calls := (c.calls.erase id).deliver serial (.error error) } := by
  simp only [failWaiting, CallTable.resolve?, h, Option.map_some]

theorem failWaiting_of_none (h : c.calls.find? id = none) (error : CallError) :
    c.failWaiting id error = c := by
  simp only [failWaiting, CallTable.resolve?, h, Option.map_none]

end Connection

/-! ## The invariant -/

namespace Traffic

/-- **The makers, the table and the acts so far tell one story.** -/
structure Linked (acts : List Act) (s : Traffic) : Prop where
  /-- The calls are numbered from the beginning. -/
  calls : s.calls = (List.range s.makers.length).map Call.nth
  /-- So will the next be. -/
  nextId : s.connection.nextId = Int32.ofNat (s.makers.length + 1)
  nextSerial : s.connection.nextSerial = s.makers.length
  /-- The table tells the fates of the calls. -/
  booked : s.connection.calls.Booked s.calls (fate · acts)
  /-- Every maker stands where its call's fate lets it. -/
  agrees : ∀ (k : Nat) (m : Maker), s.makers[k]? = some m → (fate m.call acts).Agrees m.point
  /-- Nobody has heard of the calls to come. -/
  unheard : ∀ call : Call, s.makers.length ≤ call.serial → ∃ closed, fate call acts = .unmade closed
  /-- The table is closed by the act that fails all calls. -/
  closed : s.connection.calls.closed = true ↔ .closeCalls ∈ acts

variable {registry : Registry} {acts : List Act} {s s' : Traffic} {a : Act}

theorem linked_start : Linked [] {} where
  calls := rfl
  nextId := rfl
  nextSerial := rfl
  booked := by
    refine ⟨fun call => ?_, List.nodup_nil, ?_, ?_, ?_⟩ <;> simp [Traffic.calls]
  agrees k m h := by simp at h
  unheard call _ := ⟨false, rfl⟩
  closed := by simp

namespace Linked

/-- The maker at a place has the call with that number. -/
theorem call_eq (h : Linked acts s) {k : Nat} {m : Maker} (hm : s.makers[k]? = some m) :
    m.call = Call.nth k ∧ m.call ∈ s.calls := by
  have hk : k < s.makers.length := (List.getElem?_eq_some_iff.mp hm).1
  have hget : s.calls[k]? = some m.call := by
    rw [Traffic.calls, List.getElem?_map, hm]
    rfl
  refine ⟨?_, List.mem_of_getElem? hget⟩
  rw [h.calls, List.getElem?_map, List.getElem?_range hk] at hget
  exact (Option.some.inj hget).symm

theorem serial_eq (h : Linked acts s) {k : Nat} {m : Maker} (hm : s.makers[k]? = some m) :
    m.call.serial = k := by
  rw [(h.call_eq hm).1]
  rfl

/-- Two calls with one id are one call, while ids have not come round. -/
theorem eq_of_id (h : Linked acts s) (hfew : s.makers.length ≤ UInt32.size) {x y : Call}
    (hx : x ∈ s.calls) (hy : y ∈ s.calls) (hid : x.id = y.id) : x = y := by
  rw [h.calls] at hx hy
  obtain ⟨j, hj, rfl⟩ := List.mem_map.mp hx
  obtain ⟨k, hk, rfl⟩ := List.mem_map.mp hy
  rw [List.mem_range] at hj hk
  rw [Call.nth_inj (by omega) (by omega) hid]

/-- Calls are numbered, so where there are more makers there are the same calls and more. -/
theorem calls_subset {acts' : List Act} (h : Linked acts s) (h' : Linked acts' s')
    (hle : s.makers.length ≤ s'.makers.length) : ∀ call ∈ s.calls, call ∈ s'.calls := by
  intro call hcall
  rw [h.calls] at hcall
  rw [h'.calls]
  obtain ⟨k, hk, rfl⟩ := List.mem_map.mp hcall
  rw [List.mem_range] at hk
  exact List.mem_map.mpr ⟨k, List.mem_range.mpr (by omega), rfl⟩

/-- Under the id of a call that does not wait nothing is found: whoever is found there waits, and
has that id to itself. -/
theorem find?_eq_none (h : Linked acts s) (hfew : s.makers.length ≤ UInt32.size) {call : Call}
    (hmem : call ∈ s.calls) (hnw : fate call acts ≠ .waiting) :
    s.connection.calls.find? call.id = none := by
  cases hfind : s.connection.calls.find? call.id with
  | none => rfl
  | some serial =>
    -- What is found waits. With as few calls as this it is the same call.
    obtain ⟨hin, hw⟩ := h.booked.find?_eq_some hfind
    rw [h.eq_of_id hfew hin hmem rfl] at hw
    exact absurd hw hnw

/-! ### One act of anybody but a maker -/

/-- What an act of anybody but a maker has to respect. -/
theorem passive (h : Linked acts s) (ha : ∀ serial b, a ≠ .maker serial b)
    (hmakers : s'.makers = s.makers) (hid : s'.connection.nextId = s.connection.nextId)
    (hserial : s'.connection.nextSerial = s.connection.nextSerial)
    (hbooked : s'.connection.calls.Booked s.calls fun call => (fate call acts).next call a)
    (hclosed : s'.connection.calls.closed = true
      ↔ s.connection.calls.closed = true ∨ a = .closeCalls) :
    Linked (acts ++ [a]) s' where
  calls := by rw [Traffic.calls, hmakers]; exact h.calls
  nextId := by rw [hid, hmakers]; exact h.nextId
  nextSerial := by rw [hserial, hmakers]; exact h.nextSerial
  booked := by
    simp only [fate_concat]
    rw [show s'.calls = s.calls by rw [Traffic.calls, hmakers]; rfl]
    exact hbooked
  agrees k m hm := by
    rw [hmakers] at hm
    rw [fate_concat]
    exact (h.agrees k m hm).next ha m.call
  unheard call hcall := by
    rw [hmakers] at hcall
    obtain ⟨closed, hu⟩ := h.unheard call hcall
    rw [fate_concat, hu]
    exact Fate.next_unmade ha call closed
  closed := by
    rw [hclosed, h.closed, List.mem_append, List.mem_singleton]
    exact or_congr_right eq_comm

/-- An act that has nothing to do with calls. -/
theorem idle (h : Linked acts s) (ha : ∀ serial b, a ≠ .maker serial b)
    (hclose : a ≠ .closeCalls) (hending : ∀ call, a.ending? call = none)
    (hmakers : s'.makers = s.makers) (hsame : s.connection.SameCalls s'.connection) :
    Linked (acts ++ [a]) s' := by
  refine h.passive ha hmakers hsame.nextId hsame.nextSerial ?_ ?_
  · rw [hsame.calls]
    exact h.booked.congr fun call _ => Fate.next_eq_self ha hclose (hending call) _
  · rw [hsame.calls]
    simp [hclose]

/-- **All calls fail at once.** Those that wait end with the connection, and the others are not told
anything new. -/
theorem closeCalls (h : Linked acts s) :
    Linked (acts ++ [.closeCalls]) { s with connection := s.connection.closeCalls } := by
  refine h.passive (by simp) rfl rfl rfl ?_ (by simp [Connection.closeCalls, CallTable.close])
  refine h.booked.close ?_ ?_
  · intro call _ hw
    rw [hw]
    rfl
  · -- A call that does not wait keeps what it has left, or will find the table closed.
    intro call _ hnw
    cases hf : fate call acts with
    | waiting => exact absurd hf hnw
    | unmade closed => exact ⟨by simp [Fate.next], rfl⟩
    | ended e => exact ⟨by simp, rfl⟩

/-- A response arrives. It ends the call that waits under its id, and if none does, nothing. -/
theorem response (h : Linked acts s) {body : List UInt8} {r : Response}
    (hbody : Message.ofBody body = .ok (.response r)) :
    Linked (acts ++ [.receive body])
      { s with connection := s.connection.dispatchResponse r } := by
  have hmaker : ∀ serial b, Act.receive body ≠ .maker serial b := by simp
  have hending : ∀ call, (Act.receive body).ending? call
      = if r.id = some call.id then some (.answered r.outcome) else none := by
    intro call
    simp only [Act.ending?, hbody]
  cases hid : r.id with
  | none =>
    -- A response without an id is nobody's.
    have hsame : s.connection.dispatchResponse r = s.connection := by
      simp only [Connection.dispatchResponse, hid]
    rw [hsame]
    refine h.idle hmaker (by simp) (fun call => ?_) rfl (.refl _)
    rw [hending, hid]
    rfl
  | some id =>
    cases hfind : s.connection.calls.find? id with
    | none =>
      have hsame : s.connection.dispatchResponse r = s.connection := by
        simp only [Connection.dispatchResponse, hid, CallTable.resolve?, hfind, Option.map_none]
      rw [hsame]
      refine h.passive hmaker rfl rfl rfl (h.booked.congr fun call hcall => ?_) (by simp)
      -- A call with this id does not wait, or it would have been found.
      cases hf : fate call acts with
      | ended e => rfl
      | unmade closed => rfl
      | waiting =>
        refine Fate.next_waiting_of_none ?_
        rw [hending, hid, if_neg]
        intro heq
        have hsome := h.booked.find?_of_waiting hcall hf
        rw [← Option.some.inj heq, hfind] at hsome
        cases hsome
    | some serial =>
      obtain ⟨hmem, hw⟩ := h.booked.find?_eq_some hfind
      have hcalls : (s.connection.dispatchResponse r).calls
          = s.connection.calls.settle ⟨serial, id⟩ (.answered r.outcome) := by
        simp only [Connection.dispatchResponse, hid, CallTable.resolve?, hfind, Option.map_some]
        rfl
      have hrest : (s.connection.dispatchResponse r).nextId = s.connection.nextId
          ∧ (s.connection.dispatchResponse r).nextSerial = s.connection.nextSerial := by
        simp only [Connection.dispatchResponse, hid, CallTable.resolve?, hfind, Option.map_some,
          and_self]
      refine h.passive hmaker rfl hrest.1 hrest.2 ?_ ?_
      · rw [hcalls]
        refine h.booked.settle hmem hw ?_ fun other hother hne => ?_
        · rw [hw]
          refine Fate.next_waiting_of_ending? ?_
          rw [hending, hid, if_pos rfl]
        · cases hf : fate other acts with
          | ended e => rfl
          | unmade closed => rfl
          | waiting =>
            refine Fate.next_waiting_of_none ?_
            rw [hending, hid, if_neg]
            intro heq
            -- Two calls cannot wait under one id.
            have h₁ := h.booked.find?_of_waiting hother hf
            rw [← Option.some.inj heq, hfind] at h₁
            exact hne (h.booked.serials other hother _ hmem (Option.some.inj h₁).symm)
      · rw [hcalls, CallTable.closed_settle]
        simp

/-- **A frame comes in.** If it is no response, it has nothing to do with calls. -/
theorem receive (h : Linked acts s) {body : List UInt8}
    (hstep : s.perform? registry (.receive body) = some s') :
    Linked (acts ++ [.receive body]) s' := by
  simp only [perform?, Option.some.injEq] at hstep
  subst hstep
  by_cases hbody : ∃ r, Message.ofBody body = .ok (.response r)
  · obtain ⟨r, hr⟩ := hbody
    rw [Connection.dispatch_response registry s.connection hr]
    have hlinked := h.response hr
    exact ⟨hlinked.calls, hlinked.nextId, hlinked.nextSerial, hlinked.booked, hlinked.agrees,
      hlinked.unheard, hlinked.closed⟩
  · have hnone : ∀ r, Message.ofBody body ≠ .ok (.response r) := fun r hr => hbody ⟨r, hr⟩
    -- Only a response can end a call.
    refine h.idle (by simp) (by simp) (fun call => ?_) rfl
      (Connection.sameCalls_dispatch registry s.connection hnone)
    simp only [Act.ending?]

/-! ### One act of a maker -/

/-- **A call is begun.** It gets the next number and the next id, of which nobody has heard. -/
theorem draw (h : Linked acts s) {method : String} {params : Option Json}
    (hstep : s.perform? registry (.draw method params) = some s') :
    Linked (acts ++ [.draw method params]) s' := by
  have hnext : ∀ (call : Call) (f : Fate), f.next call (.draw method params) = f :=
    fun call f => Fate.next_eq_self (by simp) (by simp) rfl f
  have hcall : (⟨s.connection.nextSerial, .number s.connection.nextId⟩ : Call)
      = Call.nth s.makers.length := by
    rw [h.nextSerial, h.nextId]
    rfl
  -- Nobody has acted under a number that has not been given out.
  obtain ⟨closed, hunmade⟩ := h.unheard (Call.nth s.makers.length) (Nat.le_refl _)
  simp only [perform?, Connection.draw, Option.some.injEq] at hstep
  subst hstep
  have hcalls : ∀ c p, ({ s with
        connection := c
        makers := s.makers ++ [⟨Call.nth s.makers.length, p⟩] } : Traffic).calls
      = s.calls ++ [Call.nth s.makers.length] := by
    intro c p
    simp only [Traffic.calls, List.map_append, List.map_cons, List.map_nil]
  rw [hcall]
  refine ⟨?_, ?_, ?_, ?_, ?_, ?_, ?_⟩
  · rw [hcalls, h.calls, List.length_append, List.length_singleton, List.range_succ,
      List.map_append]
    rfl
  · simp only [List.length_append, List.length_singleton]
    rw [h.nextId, Int32.ofNat_add (s.makers.length + 1) 1]
    rfl
  · simp only [List.length_append, List.length_singleton]
    rw [h.nextSerial]
  · rw [hcalls]
    simp only [fate_concat, hnext]
    refine h.booked.begin (fun other hother => ?_) hunmade
    rw [h.calls] at hother
    obtain ⟨j, hj, rfl⟩ := List.mem_map.mp hother
    exact Nat.ne_of_lt (List.mem_range.mp hj)
  · intro k m hm
    rw [fate_concat, hnext]
    rw [List.getElem?_append] at hm
    -- A maker who was there, or the one who has just come.
    split at hm
    · exact h.agrees k m hm
    · obtain ⟨-, rfl⟩ := List.getElem?_eq_some_iff.mp hm
      simp only [List.getElem_singleton]
      rw [hunmade]
      trivial
  · intro call hlen
    simp only [List.length_append, List.length_singleton] at hlen
    rw [fate_concat, hnext]
    exact h.unheard call (by omega)
  · simp only [List.mem_append, List.mem_singleton, reduceCtorEq, or_false]
    exact h.closed

/-- The act of a maker changes the fate of no other call. -/
theorem others (h : Linked acts s) {k : Nat} {m : Maker} (hm : s.makers[k]? = some m)
    (b : Maker.Act) : ∀ other ∈ s.calls, other ≠ m.call →
      (fate other acts).next other (.maker k b) = fate other acts := by
  intro other hother hne
  refine Fate.next_of_ne (fun hk => hne ?_) _ b
  refine h.booked.serials other hother m.call (h.call_eq hm).2 ?_
  rw [h.serial_eq hm, hk]

/-- What an act of a maker has to respect. -/
theorem maker (h : Linked acts s) {k : Nat} {m m' : Maker} (hm : s.makers[k]? = some m)
    {b : Maker.Act} {c : Connection} (hcall : m'.call = m.call)
    (hid : c.nextId = s.connection.nextId) (hserial : c.nextSerial = s.connection.nextSerial)
    (hclosed : c.calls.closed = s.connection.calls.closed)
    (hbooked : c.calls.Booked s.calls fun call => (fate call acts).next call (.maker k b))
    (hagrees : ((fate m.call acts).next m.call (.maker k b)).Agrees m'.point) :
    Linked (acts ++ [.maker k b]) { s with connection := c, makers := s.makers.set k m' } := by
  have hk : k < s.makers.length := (List.getElem?_eq_some_iff.mp hm).1
  have hcalls : ({ s with connection := c, makers := s.makers.set k m' } : Traffic).calls
      = s.calls := by
    refine List.ext_getElem? fun j => ?_
    simp only [Traffic.calls, List.getElem?_map, List.getElem?_set]
    split
    · case isTrue hkj => rw [← hkj, hm, Option.map_some, Option.map_some, hcall]
    · rfl
  refine ⟨?_, ?_, ?_, ?_, ?_, ?_, ?_⟩
  · rw [hcalls, List.length_set]
    exact h.calls
  · rw [List.length_set, hid]
    exact h.nextId
  · rw [List.length_set, hserial]
    exact h.nextSerial
  · rw [hcalls]
    simp only [fate_concat]
    exact hbooked
  · intro j mj hmj
    rw [List.getElem?_set] at hmj
    -- The maker who has acted, or another one, whose call the act does not concern.
    split at hmj
    · obtain rfl : m' = mj := by simpa [hk] using hmj
      rw [fate_concat, hcall]
      exact hagrees
    · case isFalse hkj =>
      rw [fate_concat, Fate.next_of_ne (by rw [h.serial_eq hmj]; exact hkj)]
      exact h.agrees j mj hmj
  · intro call hlen
    rw [List.length_set] at hlen
    rw [fate_concat, Fate.next_of_ne (by omega)]
    exact h.unheard call hlen
  · rw [hclosed, h.closed, List.mem_append, List.mem_singleton]
    simp

/-- An act of a maker after which its call is where it was, as far as the table goes. -/
theorem goOn (h : Linked acts s) {k : Nat} {m m' : Maker} (hm : s.makers[k]? = some m)
    {b : Maker.Act} {c : Connection} (hcall : m'.call = m.call)
    (hsame : s.connection.SameCalls c)
    (hfate : (fate m.call acts).next m.call (.maker k b) = fate m.call acts)
    (hagrees : (fate m.call acts).Agrees m'.point) :
    Linked (acts ++ [.maker k b]) { s with connection := c, makers := s.makers.set k m' } := by
  refine h.maker hm hcall hsame.nextId hsame.nextSerial (by rw [hsame.calls]) ?_ ?_
  · rw [hsame.calls]
    refine h.booked.congr fun call hmem => ?_
    by_cases heq : call = m.call
    · subst heq; exact hfate
    · exact h.others hm b call hmem heq
  · rw [hfate]
    exact hagrees

/-- A call fails before it has waited, and its maker finds out why. -/
theorem failAtOnce (h : Linked acts s) {k : Nat} {m : Maker} (hm : s.makers[k]? = some m)
    {b : Maker.Act} {closed : Bool} (hf : fate m.call acts = .unmade closed) {e : Ending}
    {error : CallError} (he : e.noted? = some (.error error))
    (hnext : (Fate.unmade closed).next m.call (.maker k b) = .ended e) :
    Linked (acts ++ [.maker k b]) { s with
      connection := s.connection.fail m.call error
      makers := s.makers.set k { m with point := .holding } } := by
  refine h.maker hm rfl rfl rfl rfl ?_ ?_
  · refine h.booked.note (h.call_eq hm).2 hf he ?_ (h.others hm b)
    rw [hf]
    exact hnext
  · rw [hf, hnext]
    simp [Fate.Agrees, he]

/-- A maker ends its own call while it waits. -/
theorem endOwn (h : Linked acts s) {k : Nat} {m : Maker} (hm : s.makers[k]? = some m)
    {b : Maker.Act} {e : Ending} {p : Point} {c : Connection}
    (hf : fate m.call acts = .waiting) (hending : (Act.maker k b).ending? m.call = some e)
    (hcalls : c.calls = s.connection.calls.settle m.call e)
    (hid : c.nextId = s.connection.nextId) (hserial : c.nextSerial = s.connection.nextSerial)
    (hagrees : (Fate.ended e).Agrees p) :
    Linked (acts ++ [.maker k b]) { s with
      connection := c
      makers := s.makers.set k { m with point := p } } := by
  refine h.maker hm rfl hid hserial ?_ ?_ ?_
  · rw [hcalls, CallTable.closed_settle]
  · rw [hcalls]
    refine h.booked.settle (h.call_eq hm).2 hf ?_ (h.others hm b)
    rw [hf]
    exact Fate.next_waiting_of_ending? hending
  · rw [hf, Fate.next_waiting_of_ending? hending]
    exact hagrees

/-- **A maker gives its call up.** While the call waits, its entry goes; afterwards there is
nothing under its id to take, because no other call has that id. -/
theorem giveUp (h : Linked acts s) (hfew : s.makers.length ≤ UInt32.size) {k : Nat} {m : Maker}
    (hm : s.makers[k]? = some m) {p : Point}
    (hmade : fate m.call acts = .waiting ∨ ∃ e, fate m.call acts = .ended e)
    (hwaiting : fate m.call acts = .waiting → p = .quit)
    (hended : ∀ e, fate m.call acts = .ended e → (Fate.ended e).Agrees p) :
    Linked (acts ++ [.maker k .giveUp]) { s with
      connection := (s.connection.giveUp m.call.id).2
      makers := s.makers.set k { m with point := p } } := by
  have hmem := (h.call_eq hm).2
  rcases hmade with hf | ⟨e, hf⟩
  · obtain ⟨hcalls, hid, hserial⟩ :=
      Connection.giveUp_of_find? (h.booked.find?_of_waiting hmem hf)
    rw [hwaiting hf]
    refine h.endOwn hm hf (e := .abandoned) ?_ hcalls hid hserial trivial
    simp [Act.ending?, h.serial_eq hm]
  · -- Here the bound on the number of calls is needed: a later call with the same id might wait.
    have hnone := h.find?_eq_none hfew hmem (by rw [hf]; simp)
    rw [Connection.giveUp_of_none hnone]
    refine h.goOn hm rfl (.refl _) (by rw [hf, Fate.next_ended]) ?_
    rw [hf]
    exact hended e hf

/-- What a maker finds when it looks for the outcome of its call. -/
theorem outcome?_eq (h : Linked acts s) {k : Nat} {m : Maker} (hm : s.makers[k]? = some m)
    (hp : m.point = .holding) :
    (fate m.call acts = .waiting ∧ s.connection.outcome? m.call = none)
    ∨ ∃ e o, fate m.call acts = .ended e ∧ e.noted? = some o
        ∧ s.connection.outcome? m.call = some o := by
  have hread := h.booked.outcome?_eq (h.call_eq hm).2
  have hagrees := h.agrees k m hm
  rw [hp] at hagrees
  rcases hagrees.made (by simp) with hf | ⟨e, hf⟩
  · exact .inl ⟨hf, hread.1 hf⟩
  · -- A maker who has the call in hand did not end it, so somebody else did and left a note.
    rw [hf] at hagrees
    obtain ⟨o, ho⟩ := Option.isSome_iff_exists.mp hagrees
    exact .inr ⟨e, o, hf, ho, hread.2 o (by rw [hf]; exact ho)⟩

/-- A maker takes the outcome that has been left for it, which stays where it is. -/
theorem await (h : Linked acts s) {k : Nat} {m : Maker} (hm : s.makers[k]? = some m)
    (hp : m.point = .holding) {b : Maker.Act} {o : Except CallError Json}
    (ho : s.connection.outcome? m.call = some o) :
    Linked (acts ++ [.maker k b]) { s with
      makers := s.makers.set k { m with point := .told o } } := by
  rcases h.outcome?_eq hm hp with ⟨-, hnone⟩ | ⟨e, o', hf, hnoted, ho'⟩
  · rw [hnone] at ho; cases ho
  · refine h.goOn (c := s.connection) hm rfl (.refl _) (by rw [hf, Fate.next_ended]) ?_
    rw [hf]
    obtain rfl : o' = o := Option.some.inj (ho'.symm.trans ho)
    exact Ending.outcome?_of_noted? hnoted

/-- A maker who waits in vain cancels its call. -/
theorem cancel (h : Linked acts s) {k : Nat} {m : Maker} (hm : s.makers[k]? = some m)
    (hp : m.point = .holding) (hnone : s.connection.outcome? m.call = none) :
    Linked (acts ++ [.maker k .cancel]) { s with
      connection := (s.connection.giveUp m.call.id).2
      makers := s.makers.set k { m with point := .told (.error .cancelled) } } := by
  rcases h.outcome?_eq hm hp with ⟨hf, -⟩ | ⟨e, o, -, -, ho⟩
  · obtain ⟨hcalls, hid, hserial⟩ :=
      Connection.giveUp_of_find? (h.booked.find?_of_waiting (h.call_eq hm).2 hf)
    refine h.endOwn hm hf (e := .cancelled) ?_ hcalls hid hserial rfl
    simp [Act.ending?, h.serial_eq hm]
  · rw [hnone] at ho; cases ho

/-- A call is entered, or refused by a table that has been closed. It is never refused for its
id. -/
theorem enter (h : Linked acts s) (hfew : s.makers.length ≤ UInt32.size) {k : Nat} {m : Maker}
    (hm : s.makers[k]? = some m) {method : String} {params : Json}
    (hp : m.point = .drawn method (some params)) :
    match s.connection.await? m.call with
    | some c => Linked (acts ++ [.maker k .enter]) { s with
        connection := c
        makers := s.makers.set k { m with point := .entered method params } }
    | none => Linked (acts ++ [.maker k .enter]) { s with
        connection := s.connection.fail m.call .connectionClosed
        makers := s.makers.set k { m with point := .holding } } := by
  have hmem := (h.call_eq hm).2
  have hagrees := h.agrees k m hm
  rw [hp] at hagrees
  obtain ⟨closed, hf⟩ := hagrees.unmade
  -- Its id is free, because no call with that id waits.
  have hfree := h.find?_eq_none hfew hmem (by rw [hf]; simp)
  have hflag : s.connection.calls.closed = closed := by
    rw [Bool.eq_iff_iff, h.closed]
    exact closeCalls_mem_iff_of_unmade hf
  have hnext : (Fate.unmade closed).next m.call (.maker k .enter)
      = if closed then .ended .closed else .waiting := by
    simp [Fate.next, h.serial_eq hm]
  cases closed with
  | true =>
    have hrefused : s.connection.await? m.call = none := by
      simp [Connection.await?, CallTable.insert?, hflag]
    rw [hrefused]
    exact h.failAtOnce hm hf rfl hnext
  | false =>
    have htaken : s.connection.await? m.call = some { s.connection with
        calls := { s.connection.calls with
          entries := s.connection.calls.entries ++ [(m.call.id, m.call.serial)] } } := by
      simp [Connection.await?, CallTable.insert?, hflag, hfree]
    rw [htaken]
    refine h.maker hm rfl rfl rfl rfl ?_ ?_
    · refine h.booked.enter hmem hf ?_ (h.others hm _) hfree
      rw [hf]
      exact hnext
    · rw [hf, hnext]
      trivial

/-- The request of a call is sent, or cannot be. -/
theorem send (h : Linked acts s) {k : Nat} {m : Maker} (hm : s.makers[k]? = some m)
    {method : String} {params : Json} (hp : m.point = .entered method params)
    {c : Connection} (hsame : s.connection.SameCalls c) {p : Point}
    (hto : p = .holding ∨ p = .unsent) :
    Linked (acts ++ [.maker k .send]) { s with
      connection := c
      makers := s.makers.set k { m with point := p } } := by
  have hagrees := h.agrees k m hm
  rw [hp] at hagrees
  refine h.goOn hm rfl hsame ?_ ?_
  · cases fate m.call acts <;> rfl
  · rcases hagrees.made (by simp) with hf | ⟨e, hf⟩
    · rw [hf]
      rcases hto with rfl | rfl <;> trivial
    · -- Its answer may have come before its request was sent, from who guessed the id.
      rw [hf] at hagrees ⊢
      rcases hto with rfl | rfl <;> exact hagrees

/-- A call whose request cannot be sent fails, if it still waits. -/
theorem withdraw (h : Linked acts s) (hfew : s.makers.length ≤ UInt32.size) {k : Nat} {m : Maker}
    (hm : s.makers[k]? = some m) (hp : m.point = .unsent) :
    Linked (acts ++ [.maker k .withdraw]) { s with
      connection := s.connection.failWaiting m.call.id .connectionClosed
      makers := s.makers.set k { m with point := .holding } } := by
  have hmem := (h.call_eq hm).2
  have hagrees := h.agrees k m hm
  rw [hp] at hagrees
  rcases hagrees.made (by simp) with hf | ⟨e, hf⟩
  · rw [Connection.failWaiting_of_find? (h.booked.find?_of_waiting hmem hf)]
    refine h.endOwn hm hf (e := .closed) ?_ rfl rfl rfl rfl
    simp [Act.ending?, h.serial_eq hm]
  · -- All calls have failed in between, and this one with them.
    rw [hf] at hagrees
    rw [Connection.failWaiting_of_none (h.find?_eq_none hfew hmem (by rw [hf]; simp))]
    refine h.goOn hm rfl (.refl _) (by rw [hf, Fate.next_ended]) ?_
    rw [hf]
    exact hagrees

/-- **One act of a maker,** by the point at which it stands. -/
theorem act (h : Linked acts s) (hfew : s.makers.length ≤ UInt32.size) {k : Nat} {m m' : Maker}
    (hm : s.makers[k]? = some m) {b : Maker.Act} {c : Connection}
    (hact : m.act? s.connection b = some (m', c)) :
    Linked (acts ++ [.maker k b]) { s with connection := c, makers := s.makers.set k m' } := by
  -- What has become of the call is known from the point by `hagrees`.
  have hagrees := h.agrees k m hm
  cases Maker.step_of_act? hact with
  | rejects hp =>
    rw [hp] at hagrees
    obtain ⟨closed, hf⟩ := hagrees.unmade
    refine h.failAtOnce hm hf (e := .unwritable) rfl ?_
    simp [Fate.next, h.serial_eq hm]
  | enters hp hentered =>
    have henter := h.enter hfew hm hp
    rwa [hentered] at henter
  | isRefused hp hnone =>
    have henter := h.enter hfew hm hp
    rwa [hnone] at henter
  | sends hp hsent =>
    obtain ⟨-, rfl⟩ := Connection.enqueue?_eq_some hsent
    refine h.send hm hp ?_ (.inl rfl)
    exact ⟨rfl, rfl, rfl⟩
  | isUnsent hp => exact h.send hm hp (.refl _) (.inr rfl)
  | withdraws hp => exact h.withdraw hfew hm hp
  | awaits hp ho | finds hp ho => exact h.await hm hp ho
  | cancels hp hnone => exact h.cancel hm hp hnone
  | quits hp =>
    rw [hp] at hagrees
    exact h.giveUp hfew hm (hagrees.made (by simp)) (fun _ => rfl) (fun _ _ => trivial)
  | @dropsTold o hp =>
    -- Who has been told an outcome has no call that waits.
    rw [hp] at hagrees
    have hgive := h.giveUp hfew hm (p := .told o) (hagrees.made (by simp))
      (fun hf => by rw [hf] at hagrees; exact hagrees.elim)
      (fun e hf => by rw [hf] at hagrees; exact hagrees)
    rwa [← hp] at hgive
  | dropsQuit hp =>
    rw [hp] at hagrees
    have hgive := h.giveUp hfew hm (p := .quit) (hagrees.made (by simp)) (fun _ => rfl)
      (fun _ _ => trivial)
    rwa [← hp] at hgive

end Linked

/-- **Every act keeps the story together.** -/
theorem Linked.step (h : Linked acts s) (hstep : s.step? registry a = some s')
    (hfew : s.makers.length ≤ UInt32.size) : Linked (acts ++ [a]) s' := by
  obtain ⟨t, ht, rfl⟩ := step?_eq_some hstep
  -- The record of what has been posted is not part of the story.
  suffices hlinked : Linked (acts ++ [a]) t from
    ⟨hlinked.calls, hlinked.nextId, hlinked.nextSerial, hlinked.booked, hlinked.agrees,
      hlinked.unheard, hlinked.closed⟩
  cases a with
  | draw method params => exact h.draw ht
  | receive body => exact h.receive ht
  | closeCalls =>
    obtain rfl := Option.some.inj ht
    exact h.closeCalls
  | closeRequests =>
    obtain rfl := Option.some.inj ht
    exact h.idle (by simp) (by simp) (fun _ => rfl) rfl ⟨rfl, rfl, rfl⟩
  | finish ticket outcome =>
    obtain ⟨id, -, rfl⟩ := perform?_finish ht
    exact h.idle (by simp) (by simp) (fun _ => rfl) rfl (Connection.sameCalls_complete _ _ _ _)
  | other op =>
    obtain ⟨c, hc, rfl⟩ := Option.map_eq_some_iff.mp ht
    exact h.idle (by simp) (by simp) (fun _ => rfl) rfl (Connection.op?_same hc).1
  | maker k b =>
    obtain ⟨m, m', c, hm, hact, rfl⟩ := perform?_maker ht
    exact h.act hfew hm hact

/-! ## Every run -/

/-- **What a step does to the makers:** a new one comes, or one that is there acts, or all stay as
they are. -/
theorem makers_step (hstep : s.step? registry a = some s') :
    s'.makers = s.makers
    ∨ (∃ call method params, s'.makers = s.makers ++ [⟨call, .drawn method params⟩])
    ∨ ∃ k b m m' c, a = .maker k b ∧ s.makers[k]? = some m
        ∧ m.act? s.connection b = some (m', c) ∧ s'.makers = s.makers.set k m' := by
  obtain ⟨t, ht, rfl⟩ := step?_eq_some hstep
  cases a with
  | draw method params =>
    obtain rfl := Option.some.inj ht
    exact .inr (.inl ⟨_, method, params, rfl⟩)
  | maker k b =>
    obtain ⟨m, m', c, hm, hact, rfl⟩ := perform?_maker ht
    exact .inr (.inr ⟨k, b, m, m', c, rfl, hm, hact, rfl⟩)
  | receive body =>
    rw [perform?_receive] at ht
    obtain rfl := Option.some.inj ht
    exact .inl rfl
  | finish ticket outcome =>
    obtain ⟨id, -, rfl⟩ := perform?_finish ht
    exact .inl rfl
  | closeCalls | closeRequests =>
    obtain rfl := Option.some.inj ht
    exact .inl rfl
  | other op =>
    obtain ⟨c, -, rfl⟩ := Option.map_eq_some_iff.mp ht
    exact .inl rfl

theorem makers_length_le_step (hstep : s.step? registry a = some s') :
    s.makers.length ≤ s'.makers.length := by
  rcases makers_step hstep with heq | ⟨_, _, _, heq⟩ | ⟨_, _, _, _, _, -, -, -, heq⟩
  all_goals simp [heq]

theorem makers_length_le_run (hrun : s.run? registry acts = some s') :
    s.makers.length ≤ s'.makers.length :=
  run_induction (P := fun _ t => s.makers.length ≤ t.makers.length) hrun (Nat.le_refl _)
    fun _ _ _ _ _ ih hstep => Nat.le_trans ih (makers_length_le_step hstep)

/-- **After every run of at most 2^32 calls the makers, the table and the acts tell one story.** -/
theorem linked_run (hrun : run? registry {} acts = some s) (hfew : s.makers.length ≤ UInt32.size) :
    Linked acts s := by
  refine run_induction (P := fun acts s => s.makers.length ≤ UInt32.size → Linked acts s) hrun
    (fun _ => linked_start) ?_ hfew
  intro acts t a t' _ ih hstep hfew'
  -- There were no more calls before the step than after it.
  have hfew : t.makers.length ≤ UInt32.size := Nat.le_trans (makers_length_le_step hstep) hfew'
  exact (ih hfew).step hstep hfew

/-! ### Why a call fails with the connection -/

/-- Who acts is there and at the point for its act. -/
theorem step?_maker {k : Nat} {b : Maker.Act} (hstep : s.step? registry (.maker k b) = some s') :
    ∃ m m' c, s.makers[k]? = some m ∧ m.act? s.connection b = some (m', c) := by
  obtain ⟨t, ht, -⟩ := step?_eq_some hstep
  obtain ⟨m, m', c, hm, hact, -⟩ := perform?_maker ht
  exact ⟨m, m', c, hm, hact⟩

/-- A request is refused only by a connection that takes no more messages. -/
theorem accepts_of_unsent {m m' : Maker} {c c' : Connection} {b : Maker.Act}
    (hact : m.act? c b = some (m', c')) (hp : m'.point = .unsent) : c.accepts = false := by
  cases Maker.step_of_act? hact with
  | isUnsent _ hnone =>
    unfold Connection.enqueue? at hnone
    simpa using hnone
  | dropsTold hpoint | dropsQuit hpoint =>
    rw [hpoint] at hp
    cases hp
  | _ => cases hp

/-- A maker whose request was refused has been stopped by somebody. -/
theorem stops_of_unsent (hrun : run? registry {} acts = some s) :
    ∀ (k : Nat) (m : Maker), s.makers[k]? = some m → m.point = .unsent →
      ∃ a ∈ acts, a.stops = true := by
  refine run_induction (P := fun acts s => ∀ (k : Nat) (m : Maker), s.makers[k]? = some m →
    m.point = .unsent → ∃ a ∈ acts, a.stops = true) hrun (by simp) ?_
  intro acts t a t' hrun ih hstep k m hm hp
  have hearlier : (∃ b ∈ acts, b.stops = true) → ∃ b ∈ acts ++ [a], b.stops = true := by
    rintro ⟨b, hb, hstops⟩
    exact ⟨b, List.mem_append_left _ hb, hstops⟩
  rcases makers_step hstep with heq | ⟨_, _, _, heq⟩ | ⟨j, b, m₀, m₁, c, rfl, -, hact, heq⟩
  · rw [heq] at hm
    exact hearlier (ih k m hm hp)
  · -- Who has just begun has not tried to send.
    rw [heq, List.getElem?_append] at hm
    split at hm
    · exact hearlier (ih k m hm hp)
    · obtain ⟨_, hnew⟩ := List.getElem?_eq_some_iff.mp hm
      rw [← hnew] at hp
      simp at hp
  · rw [heq, List.getElem?_set] at hm
    -- Only who has just tried to send comes to this point.
    split at hm
    · obtain rfl : m₁ = m := by
        split at hm
        · exact Option.some.inj hm
        · cases hm
      have hstopped : ¬ t.connection.accepts = true := by
        rw [accepts_of_unsent hact hp]
        simp
      rw [accepts_iff hrun] at hstopped
      exact hearlier (by simpa using hstopped)
    · exact hearlier (ih k m hm hp)

/-- A request is withdrawn only after somebody has stopped the connection. -/
theorem stops_of_withdraw (hrun : run? registry {} acts = some s) {k : Nat}
    (hmem : .maker k .withdraw ∈ acts) : ∃ a ∈ acts, a.stops = true := by
  obtain ⟨earlier, later, rfl⟩ := List.append_of_mem hmem
  obtain ⟨t, ht, hrest⟩ := run?_split hrun
  obtain ⟨t', hstep, -⟩ := Option.bind_eq_some_iff.mp hrest
  obtain ⟨m, m', c, hm, hact⟩ := step?_maker hstep
  -- Who withdraws a request has had it refused before.
  have hp : m.point = .unsent := by
    cases Maker.step_of_act? hact with
    | withdraws hpoint => exact hpoint
  obtain ⟨a, ha, hstops⟩ := stops_of_unsent ht k m hm hp
  exact ⟨a, List.mem_append_left _ ha, hstops⟩

/-! ### From when to when a call waits -/

/-- A call that is being entered or rejected has not been made before. -/
theorem unmade_of_making (hrun : run? registry {} acts = some s)
    (hfew : s.makers.length ≤ UInt32.size) {call : Call} (hcall : call ∈ s.calls) {b : Maker.Act}
    (hb : b = .enter ∨ b = .reject) {earlier later : List Act}
    (hacts : acts = earlier ++ .maker call.serial b :: later) :
    ∃ closed, fate call earlier = .unmade closed := by
  subst hacts
  obtain ⟨t, ht, hrest⟩ := run?_split hrun
  obtain ⟨t', hstep, hlater⟩ := Option.bind_eq_some_iff.mp hrest
  have hlinked : Linked earlier t :=
    linked_run ht (Nat.le_trans (makers_length_le_run hrest) hfew)
  obtain ⟨m, m', c, hm, hact⟩ := step?_maker hstep
  -- The maker with the call's number is the maker of this call.
  have hsame : m.call = call := by
    rw [(hlinked.call_eq hm).1]
    rw [(linked_run hrun hfew).calls] at hcall
    obtain ⟨k, -, rfl⟩ := List.mem_map.mp hcall
    rfl
  have hp : ∃ method params, m.point = .drawn method params := by
    rcases hb with rfl | rfl
    · cases Maker.step_of_act? hact with
      | enters hpoint | isRefused hpoint => exact ⟨_, _, hpoint⟩
    · cases Maker.step_of_act? hact with
      | rejects hpoint => exact ⟨_, _, hpoint⟩
  obtain ⟨method, params, hp⟩ := hp
  have hagrees := hlinked.agrees _ m hm
  rw [hp, hsame] at hagrees
  exact hagrees.unmade

/-- **A call waits from the moment it is entered until the first act that can end it.** -/
theorem waiting_iff (hrun : run? registry {} acts = some s) (hfew : s.makers.length ≤ UInt32.size)
    {call : Call} (hcall : call ∈ s.calls) :
    fate call acts = .waiting ↔ ∃ earlier later,
      acts = earlier ++ .maker call.serial .enter :: later ∧ .closeCalls ∉ earlier
        ∧ ∀ a ∈ later, a.ending? call = none := by
  constructor
  · exact waiting_since
  · rintro ⟨earlier, later, hacts, hopen, hnone⟩
    -- Before it is entered the call is not made, and the table is open to it.
    obtain ⟨closed, hunmade⟩ := unmade_of_making hrun hfew hcall (.inl rfl) hacts
    rw [closeCalls_mem_iff_of_unmade hunmade] at hopen
    have hentered : fate call (earlier ++ [.maker call.serial .enter]) = .waiting := by
      rw [fate_concat, hunmade]
      simp [Fate.next, hopen]
    rw [hacts, List.append_cons]
    exact fate_append_of_waiting hentered hnone

/-- **A call ends by the first act that can end it,** and by no other. It was waiting before that
act, or its making failed at once. -/
theorem ended_iff (hrun : run? registry {} acts = some s) (hfew : s.makers.length ≤ UInt32.size)
    {call : Call} (hcall : call ∈ s.calls) (e : Ending) :
    fate call acts = .ended e ↔ ∃ earlier a later, acts = earlier ++ a :: later
      ∧ (fate call earlier = .waiting ∧ a.ending? call = some e
        ∨ a = .maker call.serial .reject ∧ e = .unwritable
        ∨ a = .maker call.serial .enter ∧ .closeCalls ∈ earlier ∧ e = .closed) := by
  constructor
  · exact ended_by
  · rintro ⟨earlier, a, later, hacts, ha⟩
    -- What has ended with the act stays so, whatever comes later.
    suffices hended : fate call (earlier ++ [a]) = .ended e by
      rw [hacts, List.append_cons]
      exact fate_append_of_ended hended later
    rw [fate_concat]
    rcases ha with ⟨hw, he⟩ | ⟨rfl, rfl⟩ | ⟨rfl, hclosed, rfl⟩
    · rw [hw]
      exact Fate.next_waiting_of_ending? he
    · obtain ⟨closed, hunmade⟩ := unmade_of_making hrun hfew hcall (.inr rfl) hacts
      rw [hunmade]
      simp [Fate.next]
    · obtain ⟨closed, hunmade⟩ := unmade_of_making hrun hfew hcall (.inl rfl) hacts
      rw [closeCalls_mem_iff_of_unmade hunmade] at hclosed
      rw [hunmade]
      simp [Fate.next, hclosed]

/-! ## What becomes of the calls -/

/-- **What a run makes of the calls it has begun.** -/
structure Settled (acts : List Act) (s : Traffic) : Prop where
  /-- No two calls have one id. -/
  ids : (s.calls.map (·.id)).Nodup
  /-- The table holds the calls that have been made and have not ended. -/
  table : ∀ call, (call.id, call.serial) ∈ s.connection.calls.entries
    ↔ call ∈ s.calls ∧ fate call acts = .waiting
  /-- No id is in the table twice. -/
  distinct : (s.connection.calls.entries.map (·.1)).Nodup
  /-- A call waits from the moment it is entered until the first act that can end it. -/
  waits : ∀ call ∈ s.calls, fate call acts = .waiting ↔ ∃ earlier later,
    acts = earlier ++ .maker call.serial .enter :: later ∧ .closeCalls ∉ earlier
      ∧ ∀ a ∈ later, a.ending? call = none
  /-- It ends by that act and by no other, unless its making fails at once. -/
  ends : ∀ call ∈ s.calls, ∀ e, fate call acts = .ended e ↔ ∃ earlier a later,
    acts = earlier ++ a :: later
      ∧ (fate call earlier = .waiting ∧ a.ending? call = some e
        ∨ a = .maker call.serial .reject ∧ e = .unwritable
        ∨ a = .maker call.serial .enter ∧ .closeCalls ∈ earlier ∧ e = .closed)
  /-- An outcome is noted once, and only for a call that has ended by somebody else than its
  maker. -/
  once : ∀ call ∈ s.calls,
    ((s.connection.calls.outcomes.filter fun o => o.1 == call.serial).map (·.2))
      = (fate call acts).noted?.toList
  /-- A maker who has its call in hand finds an outcome if the call has ended, and finds the
  one that the ending says, under every shape of results. -/
  ready : ∀ m ∈ s.makers, m.point = .holding →
    fate m.call acts = .waiting ∧ s.connection.outcome? m.call = none
    ∨ ∃ e o, fate m.call acts = .ended e ∧ s.connection.outcome? m.call = some o
        ∧ ∀ result, e.read? result = some (readOutcome result o)
  /-- A maker who has been told an outcome has been told how its call has ended. -/
  told : ∀ m ∈ s.makers, ∀ o, m.point = .told o →
    ∃ e, fate m.call acts = .ended e ∧ ∀ result, e.read? result = some (readOutcome result o)
  /-- A call that has ended with the connection did so when all calls failed, or after the
  connection had stopped taking messages. -/
  cause : ∀ call ∈ s.calls, fate call acts = .ended .closed →
    .closeCalls ∈ acts ∨ ∃ a ∈ acts, a.stops = true
  /-- Once all calls have failed, none waits any more. -/
  emptied : .closeCalls ∈ acts → s.connection.calls.entries = []
  /-- A call that is made later ends with the connection. -/
  late : ∀ call ∈ s.calls, ∀ earlier later, acts = earlier ++ .maker call.serial .enter :: later →
    .closeCalls ∈ earlier → fate call acts = .ended .closed

/-- No two of at most 2^32 calls have one id. -/
theorem Linked.nodup_ids (h : Linked acts s) (hfew : s.makers.length ≤ UInt32.size) :
    (s.calls.map (·.id)).Nodup := by
  rw [h.calls, List.map_map]
  refine List.Nodup.map_on ?_ List.nodup_range
  intro j hj k hk hid
  rw [List.mem_range] at hj hk
  exact Call.nth_inj (by omega) (by omega) hid

/-- Nobody waits any more when all calls have failed. -/
theorem ne_waiting_of_closeCalls (hclosed : .closeCalls ∈ acts) (call : Call) :
    fate call acts ≠ .waiting := by
  intro hw
  obtain ⟨earlier, later, rfl, hopen, hnone⟩ := waiting_since hw
  rcases List.mem_append.mp hclosed with h | h
  · exact hopen h
  · rcases List.mem_cons.mp h with h | h
    · cases h
    · cases hnone _ h

/-- A call ends with the connection only after somebody has closed or stopped it. -/
theorem cause_of_closed (hrun : run? registry {} acts = some s) {call : Call}
    (hf : fate call acts = .ended .closed) :
    .closeCalls ∈ acts ∨ ∃ a ∈ acts, a.stops = true := by
  obtain ⟨earlier, a, later, rfl, ⟨-, he⟩ | ⟨-, he⟩ | ⟨-, hclosed, -⟩⟩ := ended_by hf
  · -- Of the acts that end a call that waits, two end it with the connection.
    unfold Act.ending? at he
    split at he
    · split at he
      · split at he <;> cases he
      · cases he
    · exact .inr (stops_of_withdraw hrun (List.mem_append_right _ List.mem_cons_self))
    · split at he <;> cases he
    · split at he <;> cases he
    · exact .inl (by simp)
    · cases he
  · cases he
  · exact .inl (List.mem_append_left _ hclosed)

/-- **Every call ends once.** After every run of at most 2^32 calls, in whatever order its acts
have come: the table holds the calls that have been made and have not ended, each call has ended
by the first act that could end it, its outcome has been noted at most once and is what its maker
is told, and once all calls have failed the table stays empty. -/
theorem calls_end_once (hrun : run? registry {} acts = some s)
    (hfew : s.calls.length ≤ UInt32.size) : Settled acts s := by
  rw [Traffic.calls, List.length_map] at hfew
  have h := linked_run hrun hfew
  refine
    { ids := h.nodup_ids hfew
      table := h.booked.entries
      distinct := h.booked.distinct
      waits := fun call hcall => waiting_iff hrun hfew hcall
      ends := fun call hcall e => ended_iff hrun hfew hcall e
      once := ?_
      ready := ?_
      told := ?_
      cause := fun call _ hf => cause_of_closed hrun hf
      emptied := ?_
      late := ?_ }
  · intro call hcall
    -- `once`: the log has of a call what the table has booked.
    rw [h.booked.outcomes call hcall]
    cases (fate call acts).noted? <;> rfl
  · intro m hmem hp
    -- `ready`: who has the call in hand did not end it, so an ending has left a note.
    obtain ⟨k, hk, rfl⟩ := List.getElem_of_mem hmem
    rcases h.outcome?_eq (List.getElem?_eq_getElem hk) hp with hw | ⟨e, o, hf, hnoted, ho⟩
    · exact .inl hw
    · refine .inr ⟨e, o, hf, ho, fun result => ?_⟩
      rw [Ending.read?_eq, Ending.outcome?_of_noted? hnoted]
      rfl
  · intro m hmem o hp
    -- `told`: by then the call has ended, and the point says how.
    obtain ⟨k, hk, rfl⟩ := List.getElem_of_mem hmem
    have hagrees := h.agrees k _ (List.getElem?_eq_getElem hk)
    rw [hp] at hagrees
    rcases hagrees.made (by simp) with hf | ⟨e, hf⟩
    · rw [hf] at hagrees
      exact hagrees.elim
    · rw [hf] at hagrees
      refine ⟨e, hf, fun result => ?_⟩
      rw [Ending.read?_eq, show e.outcome? = some o from hagrees]
      rfl
  · intro hclosed
    refine List.eq_nil_iff_forall_not_mem.mpr fun entry hentry => ?_
    obtain ⟨-, hw⟩ := (h.booked.entries ⟨entry.2, entry.1⟩).mp hentry
    exact ne_waiting_of_closeCalls hclosed _ hw
  · intro call hcall earlier later hacts hclosed
    exact (ended_iff hrun hfew hcall .closed).mpr
      ⟨earlier, _, later, hacts, .inr (.inr ⟨rfl, hclosed, rfl⟩)⟩

/-- Three calls: the first is answered, the second is cancelled before its answer comes, and the
third comes when all calls have failed. -/
def threeCalls : List Act :=
  [.draw "first" (some .null), .maker 0 .enter, .draw "second" (some .null), .maker 1 .enter,
    .maker 0 .send, .maker 1 .send,
    .receive (Text.Utf8.encodeString "\x7b\"id\":1,\"result\":true\x7d"), .maker 0 .await,
    .maker 1 .cancel, .receive (Text.Utf8.encodeString "\x7b\"id\":2,\"result\":true\x7d"),
    .draw "third" (some .null), .closeCalls, .maker 2 .enter]

theorem calls_end_once_threeCalls :
    ∃ s, run? {} {} threeCalls = some s ∧ s.calls.length = 3 ∧ Settled threeCalls s := by
  have hlength : (run? {} {} threeCalls).map (·.calls.length) = some 3 := by decide +kernel
  obtain ⟨s, hrun, hthree⟩ := Option.map_eq_some_iff.mp hlength
  exact ⟨s, hrun, hthree, calls_end_once hrun (by rw [hthree]; decide)⟩

end Traffic

end FlagServer
